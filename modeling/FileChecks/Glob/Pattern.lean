import FileChecks.Glob.Braces
import FileChecks.Glob.Magic
import FileChecks.Glob.Path

/-!
Path patterns: the match sets, which describe a pattern, and the branches, which match paths. A
path matches if a positive branch matches it and no negative one does.
-/
namespace FileChecks.Glob

/-- One text that a pattern stands for, split at separators. -/
structure MatchSet where
  segments : List (List Char)

namespace MatchSet

def ofText (text : List Char) : MatchSet := ⟨components text⟩

def types (s : MatchSet) : List SegmentType := s.segments.map SegmentType.ofSegment

def isLiteral (s : MatchSet) : Bool := s.types.all (· == .literal)

end MatchSet

/-- Whether an exclamation mark starts a text and opens no group. -/
def isNegative : List Char → Bool
  | '!' :: '(' :: _ => false
  | '!' :: _ => true
  | _ => false

/-- A pattern and what its text stands for. The match sets leave a leading exclamation mark out. -/
structure Pattern where
  text : String
  negated : Bool
  sets : List MatchSet
  positive : List Branch
  negative : List Branch

namespace Pattern

/-- Texts for matching. If all are empty there is still one. -/
def matchTexts (texts : List (List Char)) : List (List Char) :=
  if texts.isEmpty then [[]] else texts

/-- Branches of the texts that add paths. If there is none, they are all paths without hidden
components. -/
def positiveBranches (texts : List (List Char)) : List Branch :=
  let adding := texts.filter (! isNegative ·)
  (if adding.isEmpty then [['*', '*']] else adding).map (Branch.ofText .hidden)

/-- Branches of the texts that take paths away. Dots are ordinary there. -/
def negativeBranches (texts : List (List Char)) : List Branch :=
  (texts.filter isNegative).map fun text => Branch.ofText .ordinary (text.drop 1)

/-- The pattern of a text; `none` if its braces stand for too many texts. -/
def compile? (text : String) : Option Pattern := do
  let cs := text.toList
  let negated := isNegative cs
  let described ← Brace.expand? (if negated then cs.drop 1 else cs)
  let matched ← Brace.expand? cs
  let texts := matchTexts matched
  some
    { text, negated
      sets := described.map MatchSet.ofText
      positive := positiveBranches texts
      negative := negativeBranches texts }

/-- Whether the pattern needs matching of paths, or is a plain name. -/
def isMagic (p : Pattern) : Bool :=
  p.negated ||
    match p.sets with
    | [s] => !s.isLiteral
    | _ => true

def accepts (p : Pattern) (path : String) : Bool :=
  let cs := path.toList
  p.positive.any (·.accepts cs) && !p.negative.any (·.accepts cs)

end Pattern
end FileChecks.Glob
