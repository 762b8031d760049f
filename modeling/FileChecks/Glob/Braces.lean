/-!
Brace expansion: groups of alternatives and ranges in braces, read into a tree, and the texts that
the tree stands for. The number of texts is limited.
-/
namespace FileChecks.Glob

/-- A part of a text with braces. A range of numbers is padded with zeros to a width, where zero
means no padding; a range of letters runs through the code points between them. -/
inductive Brace
  | verbatim (cs : List Char)
  | numbers (first last : Int) (step width : Nat)
  | letters (first last : Char) (step : Nat)
  | choice (alternatives : List (List Brace))

namespace Brace

/-- Distances `0`, `step`, `2 * step`, … up to a distance. -/
def strides (distance step : Nat) : List Nat :=
  (List.range (distance / step + 1)).map (· * step)

/-- Decimal digits at the start of a text, with an optional sign before them, and what follows. -/
def operand? (cs : List Char) : Option (List Char × List Char) :=
  let (sign, rest) :=
    match cs with
    | c :: rest => if c = '-' ∨ c = '+' then ([c], rest) else ([], cs)
    | [] => ([], [])
  let digits := rest.takeWhile Char.isDigit
  if digits.isEmpty then none else some (sign ++ digits, rest.dropWhile Char.isDigit)

/-- Value of a written operand, if it fits 64 bits. -/
def operandValue? (cs : List Char) : Option Int :=
  let digits := cs.dropWhile fun c => c == '-' || c == '+'
  let n : Int := digits.foldl (fun n c => 10 * n + (c.toNat - 48)) 0
  let i := if cs.head? = some '-' then -n else n
  if -9223372036854775808 ≤ i ∧ i ≤ 9223372036854775807 then some i else none

/-- Whether an operand has zeros before its first digit. Those after a plus sign do not count. -/
def hasLeadingZero (cs : List Char) : Bool :=
  match if cs.head? = some '-' then cs.drop 1 else cs with
  | '0' :: _ :: _ => true
  | _ => false

/-- Width of the numbers of a range: the longest operand if one has leading zeros. -/
def paddingWidth (a b : List Char) : Nat :=
  if hasLeadingZero a || hasLeadingZero b then max a.length b.length else 0

/-- The step of a range and the text after the closing brace; a missing step is one, and so is a
step of zero. -/
def stepAndRest? (cs : List Char) : Option (Nat × List Char) :=
  match cs with
  | '}' :: rest => some (1, rest)
  | '.' :: '.' :: cs =>
    match operand? cs with
    | some (step, '}' :: rest) => (operandValue? step).map fun i => (max 1 i.natAbs, rest)
    | _ => none
  | _ => none

/-- A range that fills a group whose opening brace stands before the text. -/
def range? (cs : List Char) : Option (Brace × List Char) :=
  match operand? cs with
  | some (a, '.' :: '.' :: cs) =>
    match operand? cs with
    | some (b, cs) => do
      let (step, rest) ← stepAndRest? cs
      let first ← operandValue? a
      let last ← operandValue? b
      some (.numbers first last step (paddingWidth a b), rest)
    | none => none
  | _ =>
    match cs with
    | a :: '.' :: '.' :: b :: cs =>
      if a.isAlpha && b.isAlpha then
        (stepAndRest? cs).map fun (step, rest) => (.letters a b step, rest)
      else none
    | _ => none

/-- Text up to a closing brace and with it, and what follows; all of the text if there is none. -/
def takeClosed : List Char → List Char × List Char
  | [] => ([], [])
  | '}' :: rest => (['}'], rest)
  | '\\' :: c :: rest => let (cs, after) := takeClosed rest; ('\\' :: c :: cs, after)
  | c :: rest => let (cs, after) := takeClosed rest; (c :: cs, after)

/-- An escape or a dollar group at the start of a text: what is never expanded. -/
def protected? : List Char → Option (List Char × List Char)
  | '\\' :: c :: rest => some (['\\', c], rest)
  | '$' :: '{' :: rest => let (cs, after) := takeClosed rest; some ('$' :: '{' :: cs, after)
  | _ => none

/-- State of a group that is being read: the alternatives before the current one, if there was a
comma, and the parts of the current one, both reversed. -/
structure Open where
  alternatives : List (List Brace)
  comma : Bool
  parts : List Brace

def Open.add (g : Open) (b : Brace) : Open := { g with parts := b :: g.parts }

/-- The parts that a closed group stands for. Without a comma its braces stay. -/
def Open.close (g : Open) : List Brace :=
  if g.comma then [.choice (g.parts.reverse :: g.alternatives).reverse]
  else .verbatim ['{'] :: (g.parts.reverse ++ [.verbatim ['}']])

/-- The rest of a group up to its closing brace, and what follows; `none` if it is not closed. In
an outermost group (`nested` is false) a closing brace before any comma is text, unless `bare`
says that it comes at once in a group that starts the whole text. Every step takes a character, so
the length of the text suffices as `fuel`. -/
def readGroup? (fuel : Nat) (nested bare : Bool) (g : Open) (cs : List Char) :
    Option (List Brace × List Char) :=
  match fuel, cs with
  | 0, _ => none
  | _, [] => none
  | fuel + 1, c :: rest =>
    match protected? cs with
    | some (text, after) => readGroup? fuel nested false (g.add (.verbatim text)) after
    | none =>
      if c = '}' then
        if nested || g.comma || bare then some (g.close, rest)
        else readGroup? fuel nested false (g.add (.verbatim [c])) rest
      else if c = ',' then
        readGroup? fuel nested false ⟨g.parts.reverse :: g.alternatives, true, []⟩ rest
      else if c = '{' then
        match range? rest with
        | some (b, after) => readGroup? fuel nested false (g.add b) after
        | none =>
          match readGroup? fuel true false ⟨[], false, []⟩ rest with
          | some (bs, after) =>
            readGroup? fuel nested false { g with parts := bs.reverse ++ g.parts } after
          | none => none
      else readGroup? fuel nested false (g.add (.verbatim [c])) rest

/-- Parts of a text, where `start` holds at its very start. A brace that opens no group is text.
The length of the text suffices as `fuel`. -/
def readFrom (fuel : Nat) (start : Bool) (cs : List Char) : List Brace :=
  match fuel, cs with
  | 0, _ => []
  | _, [] => []
  | fuel + 1, c :: rest =>
    match protected? cs with
    | some (text, after) => .verbatim text :: readFrom fuel false after
    | none =>
      if c = '{' then
        match range? rest with
        | some (b, after) => b :: readFrom fuel false after
        | none =>
          match readGroup? rest.length false start ⟨[], false, []⟩ rest with
          | some (bs, after) => bs ++ readFrom fuel false after
          | none => .verbatim [c] :: readFrom fuel false rest
      else .verbatim [c] :: readFrom fuel false rest

def read (cs : List Char) : List Brace := readFrom cs.length true cs

/-- Greatest number of texts that any part may stand for. -/
def limit : Nat := 1000

def withinLimit (n : Nat) : Option Nat := if n ≤ limit then some n else none

mutual

/-- Number of texts of a list of parts; `none` if some part exceeds the limit. -/
def count? : List Brace → Option Nat
  | [] => some 1
  | b :: rest => do
    let n ← countOf? b
    let m ← count? rest
    withinLimit (n * m)

def countOf? : Brace → Option Nat
  | .verbatim _ => some 1
  | .numbers first last step _ => withinLimit ((last - first).natAbs / step + 1)
  | .letters first last step =>
    withinLimit (((last.toNat : Int) - first.toNat).natAbs / step + 1)
  | .choice alternatives => countAny? alternatives

def countAny? : List (List Brace) → Option Nat
  | [] => some 0
  | a :: rest => do
    let n ← count? a
    let m ← countAny? rest
    withinLimit (n + m)

end

/-- A number in decimal, with zeros after the sign up to a width. -/
def padded (width : Nat) (i : Int) : List Char :=
  let digits := (toString i.natAbs).toList
  let sign := if i < 0 then ['-'] else []
  sign ++ List.replicate (width - sign.length - digits.length) '0' ++ digits

/-- The letter with a code; the place of the backslash among them is an empty text. -/
def letter (code : Nat) : List Char :=
  let c := Char.ofNat code
  if c = '\\' then [] else [c]

/-- What one choice of alternatives writes; `none` if it writes nothing at all. -/
abbrev Word := Option (List Char)

def Word.append : Word → Word → Word
  | some x, some y => some (x ++ y)
  | some x, none => some x
  | none, w => w

/-- All joins of a word of the first list with one of the second, the second varying faster. -/
def joins (xs ys : List Word) : List Word := xs.flatMap fun x => ys.map x.append

mutual

def words : List Brace → List Word
  | [] => [none]
  | b :: rest => joins (wordsOf b) (words rest)

def wordsOf : Brace → List Word
  | .verbatim cs => [some cs]
  | .numbers first last step width =>
    (strides (last - first).natAbs step).map fun (d : Nat) =>
      some (padded width (if first ≤ last then first + (d : Int) else first - (d : Int)))
  | .letters first last step =>
    (strides ((last.toNat : Int) - first.toNat).natAbs step).map fun d =>
      some (letter (if first.toNat ≤ last.toNat then first.toNat + d else first.toNat - d))
  | .choice alternatives => wordsOfAny alternatives

def wordsOfAny : List (List Brace) → List Word
  | [] => []
  | a :: rest => words a ++ wordsOfAny rest

end

/-- The texts that a text with braces stands for; `none` if there are too many. Choices that write
nothing are left out. -/
def expand? (cs : List Char) : Option (List (List Char)) :=
  let parts := read cs
  (count? parts).map fun _ => (words parts).filterMap id

end Brace
end FileChecks.Glob
