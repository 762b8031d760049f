import FileChecks.Glob.Reach
import FileChecks.Text.Split

/-!
Matching of whole paths. A path is its components, the texts between separators, and a position
is the component that the next segment has to match, or the end.
-/
namespace FileChecks.Glob

/-- Components of a path; there is one more than there are separators. -/
def components (path : List Char) : List (List Char) := Text.split '/' path

def globstarTakes (rule : DotRule) (component : List Char) : Bool :=
  match rule with
  | .hidden => component.head? != some '.'
  | .ordinary => !isDots component

def sweep (takes : List Char → Bool) : (carried : Bool) → Marks → List (List Char) → Marks
  | carried, b :: v, c :: cs => (carried || b) :: sweep takes ((carried || b) && takes c) v cs
  | carried, [b], [] => [carried || b]
  | carried, _, _ => [carried]

inductive CompiledSegment
  | parts (e : Expr)
  | globstar
  | close

def Segment.compile (rule : DotRule) : Segment → CompiledSegment
  | .parts elements => .parts (Element.expr rule ⟨true, false⟩ elements)
  | .globstar => .globstar
  | .close => .close

/-- Positions after a segment and the separators that follow it. A separator stands for one or
more, so empty components may be passed. -/
def CompiledSegment.step (rule : DotRule) (path : List (List Char)) (v : Marks) :
    CompiledSegment → Marks
  | .parts e => past (List.zipWith (fun b c => b && e.accepts c) v path)
  | .globstar => sweep (globstarTakes rule) false v path
  | .close => past (false :: List.zipWith (fun b c => b && c.isEmpty) (v.drop 1) (path.drop 1))
where
  past (ends : Marks) : Marks := sweep List.isEmpty false (false :: ends) path

def atEnd (v : Marks) : Bool := v.getLast?.getD false

/-- Whether segments take a path from marked positions. Between segments there is a separator, so
no segment but the last leads to the end. -/
def takes (rule : DotRule) (path : List (List Char)) : Marks → List CompiledSegment → Bool
  | v, [] => atEnd v
  | v, [s] => atEnd (s.step rule path v)
  | v, s :: rest => takes rule path ((s.step rule path v).take path.length ++ [false]) rest

/-- One text that a pattern stands for, ready to match. `blank` holds of a text with nothing to
match, which matches the empty path only. -/
structure Branch where
  rule : DotRule
  blank : Bool
  segments : List CompiledSegment

def isBlank : List Segment → Bool
  | [.parts []] => true
  | _ => false

def Branch.ofText (rule : DotRule) (text : List Char) : Branch :=
  let segments := Segment.read text
  ⟨rule, isBlank segments, segments.map (Segment.compile rule)⟩

def Branch.accepts (b : Branch) (path : List Char) : Bool :=
  if b.blank then path.isEmpty
  else
    let cs := components path
    takes b.rule cs (Marks.single (cs.length + 1) 0) b.segments

end FileChecks.Glob
