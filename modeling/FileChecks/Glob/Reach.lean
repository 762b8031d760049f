import FileChecks.Glob.Element

/-!
Matching of one component: expressions over characters with tests of the position, the positions
that an expression reaches, and the expression that a list of elements stands for.
-/
namespace FileChecks.Glob

inductive CharSet
  | exactly (c : Char)
  | every
  | oneOf (k : CharClass)
  deriving DecidableEq

def CharSet.contains (c : Char) : CharSet → Bool
  | .exactly a => a == c
  | .every => true
  | .oneOf k => k.contains c

/-- Tests of a position: it is not before a dot that starts the component, a character is left,
or the component is neither `.` nor `..`. -/
inductive Guard
  | notHidden
  | someLeft
  | notDots
  deriving DecidableEq

/-- An expression over one component; `other a` takes any text that `a` does not match. -/
inductive Expr
  | empty
  | never
  | char (s : CharSet)
  | text
  | guard (g : Guard)
  | seq (a b : Expr)
  | alt (a b : Expr)
  | many (a : Expr)
  | other (a : Expr)

def isDots (component : List Char) : Bool := component == ['.'] || component == ['.', '.']

def Guard.holds (component : List Char) (position : Nat) : Guard → Bool
  | .notHidden => position != 0 || component.head? != some '.'
  | .someLeft => position < component.length
  | .notDots => !isDots component

/-- Positions from `0` to the length of the component, each marked or not. -/
abbrev Marks := List Bool

namespace Marks

def union (v w : Marks) : Marks := List.zipWith (· || ·) v w

/-- Marks kept where a guard holds, counting positions from `position`. -/
def keep (component : List Char) (g : Guard) : (position : Nat) → Marks → Marks
  | _, [] => []
  | position, b :: v => (b && g.holds component position) :: keep component g (position + 1) v

def advance (component : List Char) (s : CharSet) (v : Marks) : Marks :=
  false :: List.zipWith (fun b c => b && s.contains c) v component

def onward : (seen : Bool) → Marks → Marks
  | _, [] => []
  | seen, b :: v => (seen || b) :: onward (seen || b) v

def single (size position : Nat) : Marks := (List.range size).map (· == position)

def complementFrom (position : Nat) (v : Marks) : Marks :=
  v.mapIdx fun i b => position ≤ i && !b

def rowsUnion (size : Nat) (rows : List Marks) (v : Marks) : Marks :=
  (List.zip v rows).foldl (fun w (b, row) => if b then union w row else w)
    (List.replicate size false)

/-- Adds what a step reaches until nothing is new. A run of `fuel` steps that all reach something
new exceeds the number of positions. -/
def closure (step : Marks → Marks) : (fuel : Nat) → Marks → Marks
  | 0, v => v
  | fuel + 1, v =>
    let w := union v (step v)
    if w == v then v else closure step fuel w

end Marks

/-- The step of an expression from marked positions to those it reaches. The wrapper keeps what a
step needs from being computed again at each use. -/
structure Step where
  run : Marks → Marks

def Expr.step (component : List Char) : Expr → Step
  | .empty => ⟨id⟩
  | .never => ⟨fun v => v.map fun _ => false⟩
  | .char s => ⟨Marks.advance component s⟩
  | .text => ⟨Marks.onward false⟩
  | .guard g => ⟨Marks.keep component g 0⟩
  | .seq a b =>
    let f := a.step component
    let g := b.step component
    ⟨fun v => g.run (f.run v)⟩
  | .alt a b =>
    let f := a.step component
    let g := b.step component
    ⟨fun v => Marks.union (f.run v) (g.run v)⟩
  | .many a =>
    let f := a.step component
    ⟨Marks.closure f.run (component.length + 1)⟩
  | .other a =>
    let f := a.step component
    let size := component.length + 1
    let rows := (List.range size).map fun i =>
      Marks.complementFrom i (f.run (Marks.single size i))
    ⟨Marks.rowsUnion size rows⟩

def Expr.accepts (e : Expr) (component : List Char) : Bool :=
  let v := (e.step component).run (Marks.single (component.length + 1) 0)
  v.getLast?.getD false

/-- Where an expression stands: whether it starts its segment, or an alternative of a group that
does, and whether it is inside a group. -/
structure Place where
  first : Bool
  inGroup : Bool

/-- Whether components that start with a dot are like others. -/
inductive DotRule
  | hidden
  | ordinary
  deriving DecidableEq

namespace Element

mutual

/-- Whether an alternative can start with a dot written as such. -/
def startsWithDot : List Element → Bool
  | [] => false
  | .literal c :: _ => c == '.'
  | .group kind alternatives :: rest =>
    anyStartsWithDot alternatives ||
      ((kind == .optional || kind == .anyNumber) && startsWithDot rest)
  | _ :: _ => false

def anyStartsWithDot : List (List Element) → Bool
  | [] => false
  | a :: rest => startsWithDot a || anyStartsWithDot rest

end

def isOptional : Element → Bool
  | .anyText => true
  | .group .optional _ => true
  | .group .anyNumber _ => true
  | _ => false

/-- An expression after a guard that depends on a condition. -/
def guarded (condition : Bool) (g : Guard) (e : Expr) : Expr :=
  if condition then .seq (.guard g) e else e

/-- A wildcard or class for one character; it takes no dot that starts a hidden component, and
where those are ordinary it starts no component `.` or `..`. -/
def oneChar (rule : DotRule) (place : Place) (s : CharSet) : Expr :=
  match rule with
  | .hidden => .seq (.guard .notHidden) (.char s)
  | .ordinary => guarded (place.first && !place.inGroup) .notDots (.char s)

/-- A star. It needs a character where it stands first, and before the dot of a hidden component
it fails, unless only parts that may be left out follow it in a group. -/
def star (rule : DotRule) (place : Place) (optionalTail : Bool) : Expr :=
  guarded place.first .someLeft <|
    match rule with
    | .hidden =>
      let shown := Expr.seq (.guard .notHidden) .text
      if place.inGroup && optionalTail then .alt .empty shown else shown
    | .ordinary => guarded (place.first && !place.inGroup) .notDots .text

/-- A group of a kind around the expression of its alternatives. It does not start on the dot of
a hidden component unless one of the alternatives does. -/
def groupOf (rule : DotRule) (place : Place) (kind : GroupKind) (dotted : Bool) (body : Expr) :
    Expr :=
  let hides := rule == .hidden
  let once := guarded (hides && !dotted) .notHidden body
  guarded (place.first && !place.inGroup) .notDots <|
    match kind with
    | .once => once
    | .optional => .alt .empty once
    | .anyNumber => .many once
    | .atLeastOnce => .seq once (.many once)
    | .other => guarded place.first .someLeft (guarded hides .notHidden (.other body))

mutual

/-- Expression of a list of elements. -/
def expr (rule : DotRule) (place : Place) : List Element → Expr
  | [] => .empty
  | e :: rest =>
    .seq (exprOf rule place (rest.all isOptional) e)
      (expr rule { place with first := false } rest)

def exprOf (rule : DotRule) (place : Place) (optionalTail : Bool) : Element → Expr
  | .literal c => .char (.exactly c)
  | .anyChar => oneChar rule place .every
  | .anyText => star rule place optionalTail
  | .oneOf k => oneChar rule place (.oneOf k)
  | .blocked => .never
  | .group kind alternatives =>
    groupOf rule place kind (anyStartsWithDot alternatives)
      (anyExpr rule { place with inGroup := true } alternatives)

/-- Expression of alternatives; there is none to match in an empty list. -/
def anyExpr (rule : DotRule) (place : Place) : List (List Element) → Expr
  | [] => .never
  | a :: rest => .alt (expr rule place a) (anyExpr rule place rest)

end

end Element
end FileChecks.Glob
