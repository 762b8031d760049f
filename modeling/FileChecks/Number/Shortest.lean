import FileChecks.Number.Binary64

/-! The fewest decimal digits that read back as a given double, and their layout. -/
namespace FileChecks.Binary64

/-- Quotients that round to `m · 2 ^ e`, as numerators over one denominator: the two ends, the
number itself, and whether the ends belong. -/
structure RoundingInterval where
  low : Nat
  value : Nat
  high : Nat
  den : Nat
  closed : Bool

/-- Below a power of two the spacing halves, so the lower end is nearer there. -/
def roundingInterval (m : Nat) (e : Int) : RoundingInterval :=
  let below := if m = twoPow 52 ∧ minExponent < e then 1 else 2
  let s := e - 2
  let a := twoPow s.toNat
  { low := (4 * m - below) * a, value := 4 * m * a, high := (4 * m + 2) * a
    den := twoPow (-s).toNat, closed := m % 2 == 0 }

def RoundingInterval.contains (i : RoundingInterval) (num den : Nat) : Bool :=
  let l := i.low * den
  let x := num * i.den
  let h := i.high * den
  if i.closed then l ≤ x && x ≤ h else l < x && x < h

/-- The point position `p` with `10 ^ (p - 1) ≤ num / den < 10 ^ p`. -/
def pointPosition (num den : Nat) : Int :=
  if den ≤ num then digitCount (num / den)
  else
    let k := digitCount (den / num)
    if den ≤ num * tenPow (k - 1) then 2 - (k : Int) else 1 - (k : Int)

/-- The nearer of the two neighbours on the grid of multiples of `10 ^ g` that reads back. -/
def nearestOnGrid? (i : RoundingInterval) (g : Int) : Option Nat :=
  let up := tenPow g.toNat
  let down := tenPow (-g).toNat
  let c := (i.value * down) / (i.den * up)
  let hit (c : Nat) : Bool := i.contains (c * up) down
  let gap (c : Nat) : Nat :=
    let x := c * up * i.den
    let v := i.value * down
    (x - v) + (v - x)
  match hit c, hit (c + 1) with
  | true, true =>
    if gap c < gap (c + 1) then some c
    else if gap (c + 1) < gap c then some (c + 1)
    else some (c + c % 2)
  | true, false => some c
  | false, true => some (c + 1)
  | false, false => none

/-- First grid with a hit among those of `17 - fuel`, …, 16 digits; else the one of 17 digits. -/
def shortestFrom (i : RoundingInterval) (p : Int) (count : Nat) : Nat → Nat × Int
  | 0 => ((i.value * tenPow (count - p).toNat) / (i.den * tenPow (p - count).toNat), p - count)
  | fuel + 1 =>
    match nearestOnGrid? i (p - count) with
    | some c => (c, p - count)
    | none => shortestFrom i p (count + 1) fuel

/-- Shortest digits `d` and exponent `g` such that `d · 10 ^ g` reads back as `m · 2 ^ e`. -/
def shortest (m : Nat) (e : Int) : Nat × Int :=
  let i := roundingInterval m e
  shortestFrom i (pointPosition i.value i.den) 1 17

/-- Layout of a number: which point positions are written without an exponent, and the least
number of digits of an exponent. -/
structure Layout where
  leastPoint : Int
  greatestPoint : Int
  exponentWidth : Nat

/-- Magnitudes from `0.0001` up to `10 ^ 16` are positional, and an exponent has two digits. -/
def Layout.plain : Layout := ⟨-3, 16, 2⟩

def zeros (n : Nat) : String := String.ofList (List.replicate n '0')

/-- Digits with the decimal point at position `p`; a whole number keeps one zero after it. -/
def positional (ds : List Char) (p : Int) : String :=
  if p ≤ 0 then "0." ++ zeros (-p).toNat ++ String.ofList ds
  else
    let k := p.toNat
    if ds.length ≤ k then String.ofList ds ++ zeros (k - ds.length) ++ ".0"
    else String.ofList (ds.take k) ++ "." ++ String.ofList (ds.drop k)

/-- One digit, the others after a point, and a signed exponent. -/
def scientific (layout : Layout) (ds : List Char) (p : Int) : String :=
  let x := p - 1
  let digits := toString x.natAbs
  String.ofList (ds.take 1) ++ (if ds.length ≤ 1 then "" else "." ++ String.ofList (ds.drop 1)) ++
    "e" ++ (if x < 0 then "-" else "+") ++ zeros (layout.exponentWidth - digits.length) ++ digits

def dropTrailingZeros (ds : List Char) : List Char :=
  (ds.reverse.dropWhile (· == '0')).reverse

def text (x : Binary64) (layout : Layout := Layout.plain) : String :=
  match x with
  | .nan => "nan"
  | .infinite negative => if negative then "-inf" else "inf"
  | .finite negative m e =>
    let sign := if negative then "-" else ""
    if m = 0 then sign ++ "0.0"
    else
      let (d, g) := shortest m e
      let ds := Nat.toDigits 10 d
      let p := g + ds.length
      let ds := dropTrailingZeros ds
      sign ++ (if layout.leastPoint ≤ p ∧ p ≤ layout.greatestPoint then positional ds p
        else scientific layout ds p)

end FileChecks.Binary64
