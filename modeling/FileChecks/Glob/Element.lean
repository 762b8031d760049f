import FileChecks.Glob.CharClass

/-! The parts of a glob and their reading from text. -/
namespace FileChecks.Glob

/-- How often the alternatives of a group are matched; `other` matches what none of them does. -/
inductive GroupKind
  | once | optional | anyNumber | atLeastOnce | other
  deriving DecidableEq, Repr

/-- The kind of group that a mark before a parenthesis opens. -/
def GroupKind.ofMark? (c : Char) : Option GroupKind :=
  if c = '@' then some .once
  else if c = '?' then some .optional
  else if c = '*' then some .anyNumber
  else if c = '+' then some .atLeastOnce
  else if c = '!' then some .other
  else none

/-- A part of a component. A run of stars is one `anyText`, and a separator inside a group is
`blocked`: it matches nothing. -/
inductive Element
  | literal (c : Char)
  | anyChar
  | anyText
  | oneOf (k : CharClass)
  | group (kind : GroupKind) (alternatives : List (List Element))
  | blocked

namespace Element

/-- Adds an element; adjacent stars are one. -/
def push (reversed : List Element) (e : Element) : List Element :=
  match e, reversed with
  | .anyText, .anyText :: _ => reversed
  | e, _ => e :: reversed

/-- The element that starts with `c`, which is no escape, separator or group, and the text after
it. A bracket that opens no class is a character. -/
def simple (c : Char) (rest : List Char) : Element × List Char :=
  if c = '*' then (.anyText, rest)
  else if c = '?' then (.anyChar, rest)
  else if c = '[' then
    match CharClass.read? rest with
    | some (k, after) => (.oneOf k, after)
    | none => (.literal c, rest)
  else (.literal c, rest)

/-- Kind of the group that opens at `c`, and the text after the parenthesis. -/
def opening? (c : Char) (rest : List Char) : Option (GroupKind × List Char) :=
  match GroupKind.ofMark? c, rest with
  | some kind, '(' :: inside => some (kind, inside)
  | _, _ => none

/-- Alternatives of a group up to its closing parenthesis, and the text after it; `none` if the
group is not closed. Every step takes a character, so the length of the text suffices as `fuel`. -/
def readGroup? (fuel : Nat) (cs : List Char) (alternatives : List (List Element))
    (reversed : List Element) : Option (List (List Element) × List Char) :=
  match fuel, cs with
  | 0, _ => none
  | _, [] => none
  | fuel + 1, c :: rest =>
    if c = ')' then some ((reversed.reverse :: alternatives).reverse, rest)
    else if c = '|' then readGroup? fuel rest (reversed.reverse :: alternatives) []
    else if c = '/' then readGroup? fuel rest alternatives (.blocked :: reversed)
    else if c = '\\' then
      match rest with
      | [] => none
      | d :: rest =>
        let e : Element := if d = '/' then .blocked else .literal d
        readGroup? fuel rest alternatives (e :: reversed)
    else
      match opening? c rest with
      | some (kind, inside) =>
        match readGroup? fuel inside [] [] with
        | some (inner, after) => readGroup? fuel after alternatives (.group kind inner :: reversed)
        | none => none
      | none =>
        let (e, after) := simple c rest
        readGroup? fuel after alternatives (push reversed e)

end Element

/-- A part of a pattern between separators. `close` is the empty part after a last separator. -/
inductive Segment
  | parts (elements : List Element)
  | globstar
  | close

namespace Segment

/-- A piece of pattern text: a separator, a run of stars, or another element. -/
inductive Piece
  | separator
  | stars (count : Nat)
  | element (e : Element)

def Piece.star : List Piece → List Piece
  | .stars n :: rest => .stars (n + 1) :: rest
  | ps => .stars 1 :: ps

def Piece.cons (e : Element) (ps : List Piece) : List Piece :=
  match e with
  | .anyText => star ps
  | e => .element e :: ps

/-- Pieces of a pattern text. A group that is never closed turns groups off from there on, and a
lone escape at the end counts for nothing. The length of the text suffices as `fuel`. -/
def pieces (fuel : Nat) (groups : Bool) (cs : List Char) : List Piece :=
  match fuel, cs with
  | 0, _ => []
  | _, [] => []
  | fuel + 1, c :: rest =>
    if c = '/' then .separator :: pieces fuel groups rest
    else if c = '\\' then
      match rest with
      | [] => []
      | d :: rest =>
        (if d = '/' then .separator else .element (.literal d)) :: pieces fuel groups rest
    else
      match if groups then Element.opening? c rest else none with
      | some (kind, inside) =>
        match Element.readGroup? inside.length inside [] [] with
        | some (inner, after) => .element (.group kind inner) :: pieces fuel groups after
        | none =>
          let (e, after) := Element.simple c rest
          Piece.cons e (pieces fuel false after)
      | none =>
        let (e, after) := Element.simple c rest
        Piece.cons e (pieces fuel groups after)

/-- The pieces between separators; there is one list more than there are separators. -/
def splitPieces : List Piece → List (List Piece)
  | [] => [[]]
  | .separator :: rest => [] :: splitPieces rest
  | p :: rest =>
    match splitPieces rest with
    | slice :: slices => (p :: slice) :: slices
    | [] => [[p]]

/-- Two stars that fill a segment are a globstar; elsewhere a run of stars is one. -/
def ofPieces : List Piece → Segment
  | [.stars 2] => .globstar
  | ps => .parts (ps.filterMap fun
    | .separator => none
    | .stars _ => some .anyText
    | .element e => some e)

/-- Segments after the first one. Empty ones come from runs of separators, which count as one. -/
def following : List (List Piece) → List Segment
  | [] => []
  | [[]] => [.close]
  | [] :: slices => following slices
  | slice :: slices => ofPieces slice :: following slices

def read (cs : List Char) : List Segment :=
  match splitPieces (pieces cs.length true cs) with
  | [] => []
  | slice :: slices => ofPieces slice :: following slices

end Segment
end FileChecks.Glob
