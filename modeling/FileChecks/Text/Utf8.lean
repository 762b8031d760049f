/-!
Decoding of UTF-8. A file is decoded in blocks; a character that is cut by the end of a block goes
to the next one, and what is wrong with a block is told by positions in it.
-/
namespace FileChecks.Text

inductive BadBytes
  | leading
  | continuation
  | cut
  deriving DecidableEq, Repr

namespace BadBytes

def reason : BadBytes → String
  | leading => "invalid start byte"
  | continuation => "invalid continuation byte"
  | cut => "unexpected end of data"

end BadBytes

/-- Bytes that are no text: the positions of the first and the last of them, the first byte, and
what is wrong. -/
structure EncodingFault where
  first : Nat
  last : Nat
  byte : UInt8
  fault : BadBytes

/-- What a leading byte says: its part of the code, how many bytes follow it, and the range of the
first of these, which rules out long forms and surrogates. -/
structure Leading where
  bits : Nat
  count : Nat
  low : Nat
  high : Nat

def leading? (b : Nat) : Option Leading :=
  if b < 0x80 then some ⟨b, 0, 0x80, 0xbf⟩
  else if 0xc2 ≤ b ∧ b ≤ 0xdf then some ⟨b - 0xc0, 1, 0x80, 0xbf⟩
  else if b = 0xe0 then some ⟨0, 2, 0xa0, 0xbf⟩
  else if b = 0xed then some ⟨0xd, 2, 0x80, 0x9f⟩
  else if 0xe1 ≤ b ∧ b ≤ 0xef then some ⟨b - 0xe0, 2, 0x80, 0xbf⟩
  else if b = 0xf0 then some ⟨0, 3, 0x90, 0xbf⟩
  else if 0xf1 ≤ b ∧ b ≤ 0xf3 then some ⟨b - 0xf0, 3, 0x80, 0xbf⟩
  else if b = 0xf4 then some ⟨4, 3, 0x80, 0x8f⟩
  else none

/-- Code of a character from its continuation bytes, and the bytes after it; else how many of the
bytes are as they should be, and whether there is a wrong one after them. -/
def continuation (code : Nat) : Nat → Nat → Nat → List UInt8 → Except (Nat × Bool) (Nat × List UInt8)
  | 0, _, _, bs => .ok (code, bs)
  | _ + 1, _, _, [] => .error (0, false)
  | n + 1, low, high, b :: bs =>
    if low ≤ b.toNat ∧ b.toNat ≤ high then
      match continuation (code * 64 + (b.toNat - 0x80)) n 0x80 0xbf bs with
      | .error (good, wrong) => .error (good + 1, wrong)
      | done => done
    else .error (0, true)

/-- Decodes a block from a position on: its text, and the bytes of a character that is cut. -/
def decodeBlock : Nat → Nat → List UInt8 → Except EncodingFault (List Char × List UInt8)
  | 0, _, bs => .ok ([], bs)
  | _, _, [] => .ok ([], [])
  | fuel + 1, position, b :: bs =>
    match leading? b.toNat with
    | none => .error ⟨position, position, b, .leading⟩
    | some l =>
      match continuation l.bits l.count l.low l.high bs with
      | .ok (code, rest) => do
        let (cs, rest) ← decodeBlock fuel (position + l.count + 1) rest
        return (Char.ofNat code :: cs, rest)
      | .error (good, true) => .error ⟨position, position + good, b, .continuation⟩
      | .error (_, false) => .ok ([], b :: bs)

def blockSize : Nat := 8192

/-- Decodes block after block. At the end nothing may be cut. -/
def decodeBlocks : Nat → List UInt8 → List UInt8 → Except EncodingFault (List Char)
  | 0, _, _ => .ok []
  | fuel + 1, carried, bs =>
    match carried, bs with
    | [], [] => .ok []
    | b :: more, [] => .error ⟨0, more.length, b, .cut⟩
    | _, _ => do
      let block := carried ++ bs.take blockSize
      let (cs, carried) ← decodeBlock block.length 0 block
      let rest ← decodeBlocks fuel carried (bs.drop blockSize)
      return cs ++ rest

def decodeUtf8 (bs : List UInt8) : Except EncodingFault (List Char) :=
  decodeBlocks (bs.length + 2) [] bs

def unifyLineEnds : List Char → List Char
  | [] => []
  | '\r' :: '\n' :: rest => '\n' :: unifyLineEnds rest
  | '\r' :: rest => '\n' :: unifyLineEnds rest
  | c :: rest => c :: unifyLineEnds rest

end FileChecks.Text
