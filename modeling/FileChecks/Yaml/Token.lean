import FileChecks.Yaml.Scalar

/-!
Tokens of a document. Blocks are marked off by their indentation, and a key is marked when its
colon is found.
-/
namespace FileChecks.Yaml

/-- Instructions before a document: the major version, a shorthand for tags, or any other. -/
inductive Directive
  | version (major : Nat)
  | shorthand (handle stem : List Char)
  | other

inductive Token
  | directive (d : Directive)
  | documentStart
  | documentEnd
  | blockSequenceStart
  | blockMappingStart
  | blockEnd
  | sequenceStart
  | sequenceEnd
  | mappingStart
  | mappingEnd
  | blockEntry
  | flowEntry
  | key
  | value
  | alias (name : List Char)
  | anchor (name : List Char)
  | tag (handle : Option (List Char)) (rest : List Char)
  | scalar (plain : Bool) (text : List Char)

/-! Names, tags and directives. -/

def isNameChar (c : Char) : Bool := c.isAlphanum || c == '-' || c == '_'

/-- Name of an anchor or an alias; the position is at its mark. -/
def anchorName (c : Cursor) : Option (List Char × Cursor) :=
  let (name, c) := c.next.takeWhile isNameChar
  if name.isEmpty then none
  else if endsWord c.peek? || c.sees ['?', ':', ',', ']', '\x7d', '%', '@', '\u0060'].contains then
    some (name, c)
  else none

def uriMarks : List Char := "-;/?:@&=+$,_.!~*'()[]".toList

/-- Bytes that are written as a percent sign and two digits each. -/
def uriBytes : Nat → Cursor → Option (List UInt8 × Cursor)
  | 0, c => some ([], c)
  | fuel + 1, c =>
    if c.sees (· == '%') then do
      let b ← hexCode? c.next.rest 2
      let (more, c) ← uriBytes fuel (c.skip 3)
      some (b.toUInt8 :: more, c)
    else some ([], c)

def tagText : Nat → Cursor → Option (List Char × Cursor)
  | 0, c => some ([], c)
  | fuel + 1, c => do
    if c.sees (· == '%') then
      let (bytes, c) ← uriBytes c.rest.length c
      let s ← String.fromUTF8? ⟨bytes.toArray⟩
      let (more, c) ← tagText fuel c
      some (s.toList ++ more, c)
    else if c.sees fun d => d.isAlphanum || uriMarks.contains d then
      let (more, c') ← tagText fuel c.next
      some (c.rest.take 1 ++ more, c')
    else some ([], c)

def tagRest (c : Cursor) : Option (List Char × Cursor) := do
  let (text, c) ← tagText (c.rest.length + 1) c
  if text.isEmpty then none else some (text, c)

/-- Handle of a tag: an exclamation mark, alone or with a second one after a name. -/
def tagHandle (c : Cursor) : Option (List Char × Cursor) :=
  if !c.sees (· == '!') then none
  else if c.peekAt? 1 == some ' ' then some (['!'], c.next)
  else
    let (name, after) := c.next.takeWhile isNameChar
    if after.sees (· == '!') then some ('!' :: (name ++ ['!']), after.next) else none

/-- A tag; the position is at its exclamation mark. -/
def tagAt (c : Cursor) : Option (Token × Cursor) := do
  let (token, c) ←
    if c.peekAt? 1 == some '<' then do
      let (text, c) ← tagRest (c.skip 2)
      if c.sees (· == '>') then some (Token.tag none text, c.next) else none
    else if endsWord (c.peekAt? 1) then some (Token.tag none ['!'], c.next)
    else if (c.next.rest.takeWhile fun d => d != ' ' && !isBreak d).contains '!' then do
      let (handle, c) ← tagHandle c
      let (text, c) ← tagRest c
      some (Token.tag (some handle) text, c)
    else do
      let (text, c) ← tagRest c.next
      some (Token.tag (some ['!']) text, c)
  if c.sees (· == ' ') || endsLine c.peek? then some (token, c) else none

def isSpace (c : Char) : Bool := c == ' '

def versionNumber (c : Cursor) : Option (Nat × Cursor) :=
  let (ds, c) := c.takeWhile Char.isDigit
  if ds.isEmpty then none else some (Numeral.ofDigits 10 (ds.map fun d => d.toNat - 48), c)

def directiveRest (name : String) (c : Cursor) : Option (Directive × Cursor) :=
  if name = "YAML" then do
    let (major, c) ← versionNumber (c.skipWhile isSpace)
    if !c.sees (· == '.') then none
    else
      let (_, c) ← versionNumber c.next
      if c.sees isSpace || endsLine c.peek? then some (.version major, c) else none
  else if name = "TAG" then do
    let (handle, c) ← tagHandle (c.skipWhile isSpace)
    if !c.sees isSpace then none
    else
      let (stem, c) ← tagRest (c.skipWhile isSpace)
      if c.sees isSpace || endsLine c.peek? then some (.shorthand handle stem, c) else none
  else some (.other, c.skipWhile (! isBreak ·))

/-- A directive with its line; the position is at its percent sign. -/
def directiveAt (c : Cursor) : Option (Token × Cursor) := do
  let (name, c) := c.next.takeWhile isNameChar
  if name.isEmpty || !(c.sees isSpace || endsLine c.peek?) then none
  else
    let (d, c) ← directiveRest (String.ofList name) c
    let c := (c.skipWhile isSpace).skipComment
    if endsLine c.peek? then some (.directive d, c.lineBreak.2) else none

end FileChecks.Yaml
