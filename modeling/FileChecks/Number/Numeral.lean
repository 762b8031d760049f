import FileChecks.Number.Binary64
import FileChecks.Text.Blank
import FileChecks.Text.Digit

/-!
Numbers written in text. Digits may be of any script and may be grouped by single underscores;
white space around a number does not count.
-/
namespace FileChecks.Numeral

/-- Values of digits with at most one underscore between two of them. -/
def grouped? : List Char → Option (List Nat)
  | [] => none
  | [c] => (Text.digitValue? c).map ([·])
  | c :: '_' :: rest => do
    let d ← Text.digitValue? c
    let ds ← grouped? rest
    some (d :: ds)
  | c :: rest => do
    let d ← Text.digitValue? c
    let ds ← grouped? rest
    some (d :: ds)

def ofDigits (base : Nat) (ds : List Nat) : Nat := ds.foldl (fun n d => base * n + d) 0

def splitSign : List Char → Bool × List Char
  | '-' :: rest => (true, rest)
  | '+' :: rest => (false, rest)
  | cs => (false, cs)

def signed (negative : Bool) (n : Nat) : Int := if negative then -(n : Int) else n

/-- Most digits that a whole number may be written with, or read from. -/
def maxDigits : Nat := 4300

@[irreducible]
def isWritable (i : Int) : Bool := i.natAbs < Binary64.tenPow maxDigits

def int? (s : String) : Option Int := do
  let (negative, cs) := splitSign (Text.trimBlank s.toList)
  let ds ← grouped? cs
  if ds.length ≤ maxDigits then some (signed negative (ofDigits 10 ds)) else none

def optionalDigits? (cs : List Char) : Option (List Nat) :=
  if cs.isEmpty then some [] else grouped? cs

/-- Reads digits around an optional point: all digits, and how many stand after the point. -/
def significand? (cs : List Char) : Option (List Nat × Nat) := do
  let whole ← optionalDigits? (cs.takeWhile (· != '.'))
  let fraction ← optionalDigits? ((cs.dropWhile (· != '.')).drop 1)
  if whole.isEmpty && fraction.isEmpty then none else some (whole ++ fraction, fraction.length)

def isExponentMark (c : Char) : Bool := c == 'e' || c == 'E'

/-- Reads what follows the significand: nothing, or a mark and a whole number. -/
def exponent? : List Char → Option Int
  | [] => some 0
  | _ :: cs => do
    let (negative, cs) := splitSign cs
    let ds ← grouped? cs
    some (signed negative (ofDigits 10 ds))

def decimal? (negative : Bool) (cs : List Char) : Option Binary64 := do
  let (ds, places) ← significand? (cs.takeWhile (! isExponentMark ·))
  let e ← exponent? (cs.dropWhile (! isExponentMark ·))
  some (.ofDecimal negative (ofDigits 10 ds) (e - places))

/-- Reads a number with a point or an exponent, or a name of an infinite number or of
not-a-number. -/
def float? (s : String) : Option Binary64 :=
  let (negative, cs) := splitSign (Text.trimBlank s.toList)
  let name := String.ofList (cs.map Char.toLower)
  if name = "inf" ∨ name = "infinity" then some (.infinite negative)
  else if name = "nan" then some .nan
  else decimal? negative cs

end FileChecks.Numeral
