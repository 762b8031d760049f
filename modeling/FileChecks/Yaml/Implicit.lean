import FileChecks.Number.Numeral
import FileChecks.Text.Split
import FileChecks.Value.Basic

/-!
What plain scalars mean: truth values, null, numbers in several notations, marks of maps, and text.
-/
namespace FileChecks.Yaml

/-- Kinds of nodes. `merge` and `default` are marks that have a meaning as keys of maps. -/
inductive Tag
  | null | bool | int | float | text | merge | default | sequence | mapping | unknown
  deriving DecidableEq, Repr

def trueWords : List String := [
  "yes", "Yes", "YES", "true", "True", "TRUE", "on", "On", "ON"]

def falseWords : List String := [
  "no", "No", "NO", "false", "False", "FALSE", "off", "Off", "OFF"]

def nullWords : List String := ["~", "null", "Null", "NULL", ""]

def isSign (c : Char) : Bool := c == '-' || c == '+'

def dropSign (cs : List Char) : List Char := if cs.head?.any isSign then cs.drop 1 else cs

/-- Whether a text is not empty and has certain characters only. -/
def consists (p : Char → Bool) (cs : List Char) : Bool := !cs.isEmpty && cs.all p

def isGrouped (c : Char) : Bool := c.isDigit || c == '_'

def isHex (c : Char) : Bool := c.isDigit || ('a' ≤ c && c ≤ 'f') || ('A' ≤ c && c ≤ 'F')

/-- A part to the base of sixty: one digit, or two of which the first is at most five. -/
def isSixtieth : List Char → Bool
  | [c] => c.isDigit
  | [c, d] => '0' ≤ c && c ≤ '5' && d.isDigit
  | _ => false

def startsWithDigit (cs : List Char) : Bool := cs.head?.any Char.isDigit && cs.all isGrouped

/-- A whole number: binary, octal with a leading zero, decimal, hexadecimal, or to the base of
sixty. -/
def isInt (s : List Char) : Bool :=
  let cs := dropSign s
  match cs with
  | '0' :: 'b' :: ds => consists (fun c => c == '0' || c == '1' || c == '_') ds
  | '0' :: 'x' :: ds => consists (fun c => isHex c || c == '_') ds
  | '0' :: ds => ds.all fun c => ('0' ≤ c && c ≤ '7') || c == '_'
  | _ =>
    match Text.split ':' cs with
    | whole :: parts => startsWithDigit whole && parts.all isSixtieth
    | [] => false

def isExponent : List Char → Bool
  | [] => true
  | e :: sign :: ds => (e == 'e' || e == 'E') && isSign sign && consists Char.isDigit ds
  | _ => false

def isFraction (cs : List Char) : Bool := isExponent (cs.dropWhile isGrouped)

/-- A number with a point, which no sign may precede if no digit does; or infinity with a sign, or
not-a-number. -/
def isFloat (s : List Char) : Bool :=
  let cs := dropSign s
  let whole := cs.takeWhile (· != '.')
  match cs.dropWhile (· != '.') with
  | [] => false
  | _ :: fraction =>
    let word := String.ofList fraction
    if whole.isEmpty then
      ["inf", "Inf", "INF"].contains word ||
        (cs.length == s.length &&
          (["nan", "NaN", "NAN"].contains word ||
            (fraction.head?.any Char.isDigit && isFraction fraction)))
    else
      match Text.split ':' whole with
      | [digits] => startsWithDigit digits && isFraction fraction
      | digits :: parts =>
        startsWithDigit digits && parts.all isSixtieth && fraction.all isGrouped
      | [] => false

def Tag.ofPlain (cs : List Char) : Tag :=
  let s := String.ofList cs
  if trueWords.contains s || falseWords.contains s then .bool
  else if isFloat cs then .float
  else if isInt cs then .int
  else if s == "<<" then .merge
  else if nullWords.contains s then .null
  else if s == "=" then .default
  else .text

inductive ScalarFault
  | malformed
  | noDigits (base : Nat)
  | tooLong (digits : Nat)
  deriving DecidableEq

/-- Number with digits to a base, of which there has to be at least one. -/
def natOf (base : Nat) (ds : List Char) : Except ScalarFault Nat :=
  if ds.isEmpty then .error (.noDigits base)
  else if base = 10 ∧ Numeral.maxDigits < ds.length then .error (.tooLong ds.length)
  else .ok (Numeral.ofDigits base (ds.map digit))
where
  digit (c : Char) : Nat :=
    if c.isDigit then c.toNat - 48 else if 'a' ≤ c then c.toNat - 87 else c.toNat - 55

def intOf (s : List Char) : Except ScalarFault Int := do
  if !isInt s then throw .malformed
  let negative := s.head? == some '-'
  let n ← magnitude ((dropSign s).filter (· != '_'))
  return Numeral.signed negative n
where
  magnitude : List Char → Except ScalarFault Nat
    | ['0'] => .ok 0
    | '0' :: 'b' :: ds => natOf 2 ds
    | '0' :: 'x' :: ds => natOf 16 ds
    | '0' :: ds => natOf 8 ds
    | cs => do
      let parts ← (Text.split ':' cs).mapM (natOf 10)
      return parts.foldl (fun n d => 60 * n + d) 0

/-- Sum of parts to the base of sixty, the last of which is the least. Every product and every sum
is rounded. -/
def sixtieths (parts : List Binary64) : Binary64 :=
  (parts.reverse.foldl (fun (sum, base) d => (sum.add (d.mul (.ofNat base)), 60 * base))
    (Binary64.zero false, 1)).1

/-- Value of a number with a point, or of another number that is marked as such. -/
def floatOf (s : List Char) : Except ScalarFault Binary64 :=
  let negative := s.head? == some '-'
  let cs := ((dropSign s).filter (· != '_')).map Char.toLower
  if cs == ".inf".toList then .ok (.infinite negative)
  else if cs == ".nan".toList then .ok .nan
  else
    match (Text.split ':' cs).mapM fun part => Numeral.float? (String.ofList part) with
    | some parts => .ok (if negative then (sixtieths parts).neg else sixtieths parts)
    | none => .error .malformed

def scalarOf (tag : Tag) (cs : List Char) : Except ScalarFault Value :=
  let s := String.ofList cs
  match tag with
  | .null => .ok .null
  | .bool =>
    if trueWords.contains s then .ok (.bool true)
    else if falseWords.contains s then .ok (.bool false)
    else .error .malformed
  | .int => (intOf cs).map .int
  | .float => (floatOf cs).map .float
  | .text => .ok (.text s)
  | .merge | .default | .sequence | .mapping | .unknown => .error .malformed

end FileChecks.Yaml
