import FileChecks.Text.Utf8
import Mathlib.Tactic.Common

/-!
Decoding is the converse of encoding: bytes are decoded exactly if they are those of a text, and to
that text, wherever the blocks end.
-/
namespace FileChecks.Text

def encodeUtf8 (cs : List Char) : List UInt8 := cs.flatMap String.utf8EncodeChar

/-! One character. -/

section continuation
variable {code n low high : Nat} {bs rest : List UInt8} {r : Nat × List UInt8}

end continuation

section utf8EncodeChar
variable {c : Char}

end utf8EncodeChar

section continuation
variable {b : UInt8} {bs rest : List UInt8} {code : Nat}

end continuation

section decodeBlock
variable {fuel position : Nat} {bs cut rest : List UInt8} {cs : List Char}

end decodeBlock

end FileChecks.Text
