/-!
Which segments are glob syntax and which are plain names. Only syntax that is complete counts: a
bracket needs its closing bracket and a group its closing parenthesis.
-/
namespace FileChecks.Glob

inductive SegmentType
  | literal
  | magic
  deriving DecidableEq, Repr

namespace SegmentType

def all : List SegmentType := [literal, magic]

def memberName : SegmentType → String
  | literal => "LITERAL"
  | magic => "MAGIC"

def name : SegmentType → String
  | literal => "literal"
  | magic => "magic"

/-- The text without escapes. A backslash before a line break or at the end escapes nothing. -/
def dropEscapes : List Char → List Char
  | [] => []
  | [c] => [c]
  | c :: d :: rest =>
    if c = '\\' ∧ d ≠ '\n' then dropEscapes rest else c :: dropEscapes (d :: rest)

/-- Whether a class is closed, by the text after its opening bracket: a first member, which is no
line break, and a closing bracket later on. A mark of negation may stand for the first member. -/
def closesClass : List Char → Bool
  | [] => false
  | c :: rest => c != '\n' && rest.contains ']'

/-- Whether a group opens with the mark before the text and is closed later on. -/
def closesGroup : List Char → Bool
  | '(' :: rest => rest.contains ')'
  | _ => false

/-- Whether glob syntax starts at some character of a text without escapes. -/
def hasSyntax : List Char → Bool
  | [] => false
  | c :: rest =>
    c == '*' || c == '?' || (c == '[' && closesClass rest) ||
      ((c == '+' || c == '@' || c == '!') && closesGroup rest) || hasSyntax rest

def ofSegment (segment : List Char) : SegmentType :=
  if hasSyntax (dropEscapes segment) then magic else literal

end SegmentType
end FileChecks.Glob
