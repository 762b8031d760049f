import FileChecks.Yaml.Token

/-!
From text to tokens. A scalar, an alias or a bracket may turn out to be a key when a colon follows
it on its line; until then its place among the tokens is kept.
-/
namespace FileChecks.Yaml

/-- A place among the tokens where a key may start. A needed key stands where only a key can. -/
structure KeyPlace where
  position : Nat
  needed : Bool
  index : Nat
  line : Nat
  column : Nat

/-- What has been read. Tokens are newest first, and every open bracket has its own possible key,
the outermost last. -/
structure Lexer where
  cursor : Cursor
  tokens : List Token
  indent : Int
  outerIndents : List Int
  keyAllowed : Bool
  key : Option KeyPlace
  outerKeys : List (Option KeyPlace)

namespace Lexer

/-- The start of a text. A mark of the byte order there does not count. -/
def start (cs : List Char) : Lexer :=
  let c := Cursor.ofText cs
  let c := if c.sees (· == orderMark) then c.next else c
  ⟨c, [], -1, [], true, none, []⟩

def inFlow (l : Lexer) : Bool := !l.outerKeys.isEmpty

def emit (l : Lexer) (t : Token) : Lexer := { l with tokens := t :: l.tokens }

/-- Puts a token before those that were read since a place was kept. -/
def insert (l : Lexer) (position : Nat) (t : Token) : Lexer :=
  let later := l.tokens.length - position
  { l with tokens := l.tokens.take later ++ t :: l.tokens.drop later }

def advance (l : Lexer) (n : Nat := 1) : Lexer := { l with cursor := l.cursor.skip n }

/-- Skips spaces, comments and line breaks. Outside brackets a key may start on a new line. -/
def skipSpace : Nat → Lexer → Lexer
  | 0, l => l
  | fuel + 1, l =>
    match ((l.cursor.skipWhile isSpace).skipComment).lineBreak with
    | ([], c) => { l with cursor := c }
    | (_, c) => skipSpace fuel { l with cursor := c, keyAllowed := l.keyAllowed || !l.inFlow }

/-- A key ends on its line and within 1024 characters. -/
def isStale (c : Cursor) (k : KeyPlace) : Bool := k.line != c.line || k.index + 1024 < c.index

/-- Forgets places that can no longer be keys; none of them may be needed. -/
def dropStaleKeys (l : Lexer) : Option Lexer :=
  let stale (k : Option KeyPlace) : Bool := k.any (isStale l.cursor)
  if (l.key :: l.outerKeys).any fun k => stale k && k.any (·.needed) then none
  else
    some
      { l with
        key := if stale l.key then none else l.key
        outerKeys := l.outerKeys.map fun k => if stale k then none else k }

/-- Forgets the possible key at hand, which must not be needed. -/
def dropKey (l : Lexer) : Option Lexer :=
  if l.key.any (·.needed) then none else some { l with key := none }

def saveKey (l : Lexer) : Option Lexer :=
  if l.keyAllowed then do
    let l ← l.dropKey
    let c := l.cursor
    let needed := !l.inFlow && l.indent == c.column
    some { l with key := some ⟨l.tokens.length, needed, c.index, c.line, c.column⟩ }
  else some l

def closeBlocks (column : Int) (l : Lexer) : Lexer :=
  if l.inFlow then l
  else go l.outerIndents l
where
  go : List Int → Lexer → Lexer
    | [], l => l
    | i :: rest, l =>
      if column < l.indent then go rest { l.emit .blockEnd with indent := i, outerIndents := rest }
      else l

/-- Starts a block at a column, if it is indented deeper than the block at hand. -/
def openBlock (l : Lexer) (column : Nat) (position : Nat) (t : Token) : Lexer :=
  if l.indent < column then
    { l.insert position t with indent := column, outerIndents := l.indent :: l.outerIndents }
  else l

def openBlockHere (l : Lexer) (t : Token) : Lexer :=
  l.openBlock l.cursor.column l.tokens.length t

/-- A directive, or a mark between documents, closes every block. -/
def boundary (l : Lexer) (t : Token) (c : Cursor) : Option Lexer := do
  let l ← (l.closeBlocks (-1)).dropKey
  some { l.emit t with cursor := c, keyAllowed := false }

def openBracket (l : Lexer) (t : Token) : Option Lexer := do
  let l ← l.saveKey
  some { (l.emit t).advance with keyAllowed := true, key := none, outerKeys := l.key :: l.outerKeys }

def closeBracket (l : Lexer) (t : Token) : Option Lexer := do
  let l ← l.dropKey
  match l.outerKeys with
  | [] => none
  | key :: outer => some { (l.emit t).advance with keyAllowed := false, key, outerKeys := outer }

def entrySeparator (l : Lexer) : Option Lexer := do
  let l ← l.dropKey
  some { (l.emit .flowEntry).advance with keyAllowed := true }

/-- An entry of a block sequence or an explicit key; outside brackets it starts a block if it is
indented deeper than the one at hand. -/
def blockMark (l : Lexer) (blockStart mark : Token) (allowed : Bool) : Option Lexer :=
  if !l.inFlow && !l.keyAllowed then none
  else do
    let l := if l.inFlow then l else l.openBlockHere blockStart
    let l ← l.dropKey
    some { (l.emit mark).advance with keyAllowed := allowed }

/-- A colon: what was kept as a possible key is one. Without one the key is empty. -/
def valueMark (l : Lexer) : Option Lexer :=
  match l.key with
  | some k =>
    let l := { l.insert k.position .key with key := none, keyAllowed := false }
    let l := if l.inFlow then l else l.openBlock k.column k.position .blockMappingStart
    some ((l.emit .value).advance)
  | none =>
    if !l.inFlow && !l.keyAllowed then none
    else
      let l := if l.inFlow then l else l.openBlockHere .blockMappingStart
      some { (l.emit .value).advance with keyAllowed := !l.inFlow }

def keyLike (l : Lexer) (read : Option (Token × Cursor)) : Option Lexer := do
  let l ← l.saveKey
  let (t, cursor) ← read
  some { l.emit t with cursor, keyAllowed := false }

def quoted (l : Lexer) (double : Bool) : Option Lexer :=
  l.keyLike ((quotedScalar double l.cursor).map fun (text, c) => (.scalar false text, c))

def plain (l : Lexer) : Option Lexer := do
  let l ← l.saveKey
  let (text, broken, cursor) := plainScalar l.inFlow (l.indent + 1) l.cursor
  some { l.emit (.scalar true text) with cursor, keyAllowed := broken }

def block (l : Lexer) (folded : Bool) : Option Lexer := do
  let l ← l.dropKey
  let (text, cursor) ← blockScalar folded l.indent l.cursor
  some { l.emit (.scalar false text) with cursor, keyAllowed := true }

def indicators : List Char := "-?:,[]\x7b\x7d#&*!|>'\"%@\u0060".toList

def startsPlain (inFlow : Bool) (d : Char) (following : Option Char) : Bool :=
  (!isBlank d && !isBreak d && !indicators.contains d) ||
    (!endsWord following && (d == '-' || (!inFlow && (d == '?' || d == ':'))))

/-- Reads the next token, which starts with a given character. -/
def token (l : Lexer) (d : Char) : Option Lexer :=
  let c := l.cursor
  let following := c.peekAt? 1
  let lone := endsWord following
  if d == '%' && c.column == 0 then do
    let (t, c') ← directiveAt c
    l.boundary t c'
  else if c.column == 0 && c.seesMarks '-' then l.boundary .documentStart (c.skip 3)
  else if c.column == 0 && c.seesMarks '.' then l.boundary .documentEnd (c.skip 3)
  else if d == '[' then l.openBracket .sequenceStart
  else if d == '\x7b' then l.openBracket .mappingStart
  else if d == ']' then l.closeBracket .sequenceEnd
  else if d == '\x7d' then l.closeBracket .mappingEnd
  else if d == ',' then l.entrySeparator
  else if d == '-' && lone then l.blockMark .blockSequenceStart .blockEntry true
  else if d == '?' && (l.inFlow || lone) then l.blockMark .blockMappingStart .key (!l.inFlow)
  else if d == ':' && (l.inFlow || lone) then l.valueMark
  else if d == '*' then l.keyLike ((anchorName c).map fun (name, c) => (.alias name, c))
  else if d == '&' then l.keyLike ((anchorName c).map fun (name, c) => (.anchor name, c))
  else if d == '!' then l.keyLike (tagAt c)
  else if d == '|' && !l.inFlow then l.block false
  else if d == '>' && !l.inFlow then l.block true
  else if d == '\'' then l.quoted false
  else if d == '"' then l.quoted true
  else if startsPlain l.inFlow d following then l.plain
  else none

/-- Reads all tokens. Every step takes at least one character. -/
def run : Nat → Lexer → Option (List Token)
  | 0, _ => none
  | fuel + 1, l => do
    let l ← (skipSpace (l.cursor.rest.length + 1) l).dropStaleKeys
    let l := l.closeBlocks l.cursor.column
    match l.cursor.peek? with
    | none => do
      let l ← (l.closeBlocks (-1)).dropKey
      some l.tokens.reverse
    | some d => do
      let l ← l.token d
      run fuel l

end Lexer

def Token.scan? (cs : List Char) : Option (List Token) :=
  Lexer.run (cs.length + 1) (Lexer.start cs)

end FileChecks.Yaml
