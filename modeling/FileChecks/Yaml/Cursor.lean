/-! Positions in a text, and the classes of characters that lines are made of. -/
namespace FileChecks.Yaml

def isBreak (c : Char) : Bool :=
  c == '\n' || c.toNat == 0x85 || c.toNat == 0x2028 || c.toNat == 0x2029

def isBlank (c : Char) : Bool := c == ' ' || c == '\t'

/-- Whether a word ends before a character or at the end of the text. -/
def endsWord : Option Char → Bool
  | none => true
  | some c => isBlank c || isBreak c

/-- Whether a line ends before a character or at the end of the text. -/
def endsLine : Option Char → Bool
  | none => true
  | some c => isBreak c

/-- A line break in the text of a scalar. Line and paragraph separators stay as they are. -/
def breakChar (c : Char) : Char := if c.toNat == 0x85 then '\n' else c

/-- Mark of the byte order; it takes no column. -/
def orderMark : Char := '\uFEFF'

/-- A position in a text: what is left of it, and how far it is from the start of the text and of
the line. -/
structure Cursor where
  rest : List Char
  index : Nat
  line : Nat
  column : Nat

namespace Cursor

def ofText (cs : List Char) : Cursor := ⟨cs, 0, 0, 0⟩

def peek? (c : Cursor) : Option Char := c.rest.head?

def peekAt? (c : Cursor) (k : Nat) : Option Char := c.rest[k]?

def sees (c : Cursor) (p : Char → Bool) : Bool := c.peek?.any p

def next (c : Cursor) : Cursor :=
  match c.rest with
  | [] => c
  | d :: rest =>
    if isBreak d then ⟨rest, c.index + 1, c.line + 1, 0⟩
    else ⟨rest, c.index + 1, c.line, if d == orderMark then c.column else c.column + 1⟩

def skip (c : Cursor) : Nat → Cursor
  | 0 => c
  | n + 1 => c.next.skip n

/-- Leading characters that pass a test, and the position after them. -/
def takeWhile (c : Cursor) (p : Char → Bool) : List Char × Cursor :=
  let taken := c.rest.takeWhile p
  (taken, c.skip taken.length)

def skipWhile (c : Cursor) (p : Char → Bool) : Cursor := (c.takeWhile p).2

def lineBreak (c : Cursor) : List Char × Cursor :=
  match c.peek? with
  | some d => if isBreak d then ([breakChar d], c.next) else ([], c)
  | none => ([], c)

def skipComment (c : Cursor) : Cursor :=
  if c.sees (· == '#') then c.skipWhile (! isBreak ·) else c

def seesMarks (c : Cursor) (mark : Char) : Bool :=
  c.rest.take 3 == [mark, mark, mark] && endsWord (c.peekAt? 3)

def seesSeparator (c : Cursor) : Bool := c.seesMarks '-' || c.seesMarks '.'

end Cursor
end FileChecks.Yaml
