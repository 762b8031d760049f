/-! Double precision numbers as data: a sign, a significand and a power of two, rounded exactly. -/
namespace FileChecks

/-- A double precision number; a finite one is `± m · 2 ^ e`. -/
inductive Binary64
  | nan
  | infinite (negative : Bool)
  | finite (negative : Bool) (m : Nat) (e : Int)
  deriving DecidableEq, Repr

namespace Binary64

def twoPow (k : Nat) : Nat := Nat.pow 2 k

def tenPow (k : Nat) : Nat := Nat.pow 10 k

/-- Least exponent of a finite number; all subnormal numbers have it. -/
def minExponent : Int := -1074

def maxExponent : Int := 971

def zero (negative : Bool) : Binary64 := .finite negative 0 minExponent

/-- Quotient rounded to the nearest integer, a half to the even neighbour. -/
def roundDiv (num den : Nat) : Nat :=
  let q := num / den
  let r := num % den
  if 2 * r < den then q else if den < 2 * r then q + 1 else q + q % 2

/-- `num / den` divided by `2 ^ e`, as a quotient of naturals. -/
def scaled (num den : Nat) (e : Int) : Nat × Nat :=
  if 0 ≤ e then (num, den * twoPow e.toNat) else (num * twoPow (-e).toNat, den)

/-- Exponent at which a positive quotient has 53 significant bits, or the least exponent. -/
def quantumExponent (num den : Nat) : Int :=
  let e := max minExponent ((num.log2 : Int) - den.log2 - 52)
  let (n, d) := scaled num den e
  if n / d < twoPow 52 then max minExponent (e - 1) else e

/-- The nearest double to `± num / den`, a tie going to the even significand; `den` is positive. -/
def ofRatio (negative : Bool) (num den : Nat) : Binary64 :=
  if num = 0 then zero negative
  else
    let e := quantumExponent num den
    let (n, d) := scaled num den e
    let m := roundDiv n d
    let (m, e) := if m = twoPow 53 then (twoPow 52, e + 1) else (m, e)
    if maxExponent < e then .infinite negative else .finite negative m e

/-- Number of decimal digits; zero has one. -/
def digitCount (n : Nat) : Nat := (Nat.toDigits 10 n).length

/-- The nearest double to `± digits · 10 ^ exponent`. Exponents that leave the range whatever the
digits are decided without computing the power. -/
def ofDecimal (negative : Bool) (digits : Nat) (exponent : Int) : Binary64 :=
  let magnitude := exponent + digitCount digits
  if digits = 0 then zero negative
  else if 310 < magnitude then .infinite negative
  else if magnitude < -330 then zero negative
  else if 0 ≤ exponent then ofRatio negative (digits * tenPow exponent.toNat) 1
  else ofRatio negative digits (tenPow (-exponent).toNat)

def ofNat (n : Nat) : Binary64 := ofRatio false n 1

/-- False only for the two zeros. -/
def isTruthy : Binary64 → Bool
  | .finite _ m _ => m != 0
  | _ => true

/-- Value as a quotient `num / den` of an integer and a positive natural. -/
def ratio? : Binary64 → Option (Int × Nat)
  | .finite negative m e =>
    let (n, d) := scaled m 1 (-e)
    some (if negative then -(n : Int) else n, d)
  | _ => none

def neg : Binary64 → Binary64
  | .nan => .nan
  | .infinite negative => .infinite !negative
  | .finite negative m e => .finite (!negative) m e

/-- The nearest double to a quotient of an integer and a positive natural. -/
def ofIntRatio (num : Int) (den : Nat) : Binary64 := ofRatio (num < 0) num.natAbs den

/-- Sum of numbers that are not negative. -/
def add (x y : Binary64) : Binary64 :=
  match x.ratio?, y.ratio? with
  | some (a, b), some (c, d) => ofIntRatio (a * d + c * b) (b * d)
  | _, _ => .infinite false

/-- Product of numbers that are not negative. -/
def mul (x y : Binary64) : Binary64 :=
  match x.ratio?, y.ratio? with
  | some (a, b), some (c, d) => ofIntRatio (a * c) (b * d)
  | _, _ => .infinite false

/-- Comparison of values: both zeros are equal, and not-a-number equals nothing. -/
def same : Binary64 → Binary64 → Bool
  | .infinite a, .infinite b => a == b
  | x, y =>
    match x.ratio?, y.ratio? with
    | some (n, d), some (n', d') => n * d' == n' * d
    | _, _ => false

/-- Comparison with an integer, without rounding it. -/
def sameInt (x : Binary64) (i : Int) : Bool :=
  match x.ratio? with
  | some (n, d) => n == i * d
  | none => false

def leInt (x : Binary64) (i : Int) : Bool :=
  match x with
  | .nan => false
  | .infinite negative => negative
  | x => match x.ratio? with
    | some (n, d) => n ≤ i * d
    | none => false

def geInt (x : Binary64) (i : Int) : Bool :=
  x != .nan && (!x.leInt i || x.sameInt i)

end Binary64
end FileChecks
