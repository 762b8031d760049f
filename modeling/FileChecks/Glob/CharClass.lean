/-! Character classes: the text between brackets, read as single characters, ranges and names. -/
namespace FileChecks.Glob

/-- Classes that have a name, all of ASCII characters only. -/
inductive NamedClass
  | alnum | alpha | ascii | blank | cntrl | digit | graph | lower | print | punct | space | upper
  | word | xdigit
  deriving DecidableEq, Repr

namespace NamedClass

def all : List NamedClass :=
  [alnum, alpha, ascii, blank, cntrl, digit, graph, lower, print, punct, space, upper, word, xdigit]

def name : NamedClass → String
  | alnum => "alnum"
  | alpha => "alpha"
  | ascii => "ascii"
  | blank => "blank"
  | cntrl => "cntrl"
  | digit => "digit"
  | graph => "graph"
  | lower => "lower"
  | print => "print"
  | punct => "punct"
  | space => "space"
  | upper => "upper"
  | word => "word"
  | xdigit => "xdigit"

def contains (k : NamedClass) (c : Char) : Bool :=
  let n := c.toNat
  match k with
  | alnum => c.isAlphanum
  | alpha => c.isAlpha
  | ascii => n < 128
  | blank => c == ' ' || c == '\t'
  | cntrl => n < 32 || n == 127
  | digit => c.isDigit
  | graph => 33 ≤ n && n ≤ 126
  | lower => c.isLower
  | print => 32 ≤ n && n ≤ 126
  | punct => 33 ≤ n && n ≤ 126 && !c.isAlphanum
  | space => c == ' ' || (9 ≤ n && n ≤ 13)
  | upper => c.isUpper
  | word => c.isAlphanum || c == '_'
  | xdigit => c.isDigit || ('a' ≤ c && c ≤ 'f') || ('A' ≤ c && c ≤ 'F')

/-- Text of a named class inside brackets, after its opening bracket. -/
def spelling (k : NamedClass) : List Char := ':' :: (k.name.toList ++ [':', ']'])

def startOf? (cs : List Char) : Option NamedClass := all.find? fun k => k.spelling.isPrefixOf cs

end NamedClass

inductive ClassItem
  | single (c : Char)
  | range (first last : Char)
  | named (k : NamedClass)
  deriving DecidableEq, Repr

/-- A range with its ends in the wrong order contains nothing. -/
def ClassItem.contains (c : Char) : ClassItem → Bool
  | .single a => a == c
  | .range a b => a.toNat ≤ c.toNat && c.toNat ≤ b.toNat
  | .named k => k.contains c

structure CharClass where
  negated : Bool
  items : List ClassItem
  deriving DecidableEq, Repr

def CharClass.contains (k : CharClass) (c : Char) : Bool := k.items.any (·.contains c) != k.negated

namespace CharClass

/-- Marks of the text of a class. A hyphen that is escaped or comes first is a character. -/
inductive Mark
  | char (c : Char)
  | hyphen
  | named (k : NamedClass)
  deriving DecidableEq, Repr

/-- Marks up to the closing bracket, and the text after it. The first `skip` characters belong to
a named class. Fails where the text ends or reaches a separator first. -/
def marks? : (skip : Nat) → List Char → Option (List Mark × List Char)
  | _, [] => none
  | skip + 1, _ :: rest => marks? skip rest
  | 0, c :: rest =>
    let add (m : Mark) (tail : Option (List Mark × List Char)) : Option (List Mark × List Char) :=
      tail.map fun (ms, after) => (m :: ms, after)
    if c = ']' then some ([], rest)
    else if c = '/' then none
    else if c = '-' then add .hyphen (marks? 0 rest)
    else if c = '\\' then
      match rest with
      | [] => none
      | d :: rest => if d = '/' then none else add (.char d) (marks? 0 rest)
    else if c = '[' then
      match NamedClass.startOf? rest with
      | some k => add (.named k) (marks? k.spelling.length rest)
      | none => add (.char c) (marks? 0 rest)
    else add (.char c) (marks? 0 rest)

/-- Items of a list of marks, where `start` is a character that may begin a range. A hyphen is a
character right after a range, next to a named class, and at the end. -/
def ranges : (start : Option Char) → List Mark → List ClassItem
  | none, [] => []
  | none, .char c :: rest => ranges (some c) rest
  | none, .hyphen :: rest => ranges (some '-') rest
  | none, .named k :: rest => .named k :: ranges none rest
  | some a, [] => [.single a]
  | some a, .hyphen :: .char b :: rest => .range a b :: ranges none rest
  | some a, .hyphen :: .hyphen :: rest => .range a '-' :: ranges none rest
  | some a, .hyphen :: rest => .single a :: ranges (some '-') rest
  | some a, .char b :: rest => .single a :: ranges (some b) rest
  | some a, .named k :: rest => .single a :: .named k :: ranges none rest

/-- Marks of a class without its negation. A closing bracket or a hyphen that comes first is a
character. -/
def bodyMarks? : List Char → Option (List Mark × List Char)
  | c :: rest =>
    if c = ']' ∨ c = '-' then (marks? 0 rest).map fun (ms, after) => (.char c :: ms, after)
    else marks? 0 (c :: rest)
  | [] => none

/-- The class whose text follows an opening bracket, and the text after its closing bracket. -/
def read? (cs : List Char) : Option (CharClass × List Char) :=
  let (negated, body) :=
    match cs with
    | c :: rest => if c = '!' ∨ c = '^' then (true, rest) else (false, cs)
    | [] => (false, cs)
  (bodyMarks? body).map fun (ms, after) => (⟨negated, ranges none ms⟩, after)

end CharClass
end FileChecks.Glob
