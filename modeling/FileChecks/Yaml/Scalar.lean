import FileChecks.Number.Numeral
import FileChecks.Yaml.Cursor

/-!
Texts of scalars: quoted ones, plain ones and blocks. Inside a scalar one line break counts as a
space, and of several the first one does not count. Every reader yields the text and the position
after it, or nothing if the text is malformed.
-/
namespace FileChecks.Yaml

def foldBreaks (first : Char) (more : List Char) : List Char :=
  if first != '\n' then first :: more else if more.isEmpty then [' '] else more

/-! Quoted scalars. -/

/-- Line breaks with blanks around them. A quoted scalar cannot go on in another document. -/
def quotedBreaks : Nat → Cursor → Option (List Char × Cursor)
  | 0, _ => none
  | fuel + 1, c =>
    if c.seesSeparator then none
    else
      let c := c.skipWhile isBlank
      match c.peek? with
      | some d =>
        if isBreak d then do
          let (more, c) ← quotedBreaks fuel c.next
          some (breakChar d :: more, c)
        else some ([], c)
      | none => some ([], c)

def quotedSpaces (c : Cursor) : Option (List Char × Cursor) := do
  let (blanks, c) := c.takeWhile isBlank
  let d ← c.peek?
  if isBreak d then do
    let (more, c) ← quotedBreaks (c.rest.length + 1) c.next
    some (foldBreaks (breakChar d) more, c)
  else some (blanks, c)

def namedEscapes : List (Char × Char) := [
  ('0', '\x00'), ('a', '\x07'), ('b', '\x08'), ('t', '\t'), ('\t', '\t'), ('n', '\n'),
  ('v', '\x0b'), ('f', '\x0c'), ('r', '\r'), ('e', '\x1b'), (' ', ' '), ('"', '"'), ('\\', '\\'),
  ('/', '/'), ('N', '\u0085'), ('_', '\u00a0'), ('L', '\u2028'), ('P', '\u2029')]

def codedEscapes : List (Char × Nat) := [('x', 2), ('u', 4), ('U', 8)]

def hexDigit? (c : Char) : Option Nat :=
  if c.isDigit then some (c.toNat - 48)
  else if 'a' ≤ c ∧ c ≤ 'f' then some (c.toNat - 87)
  else if 'A' ≤ c ∧ c ≤ 'F' then some (c.toNat - 55)
  else none

def hexCode? (cs : List Char) (count : Nat) : Option Nat := do
  let ds ← (cs.take count).mapM hexDigit?
  if ds.length = count then some (Numeral.ofDigits 16 ds) else none

def charOfCode? (n : Nat) : Option Char :=
  if n.isValidChar then some (Char.ofNat n) else none

def escaped (c : Cursor) : Option (List Char × Cursor) := do
  let d ← c.peek?
  match namedEscapes.lookup d, codedEscapes.lookup d with
  | some e, _ => some ([e], c.next)
  | none, some count => do
    let code ← hexCode? c.next.rest count
    let e ← charOfCode? code
    some ([e], c.next.skip count)
  | none, none => if isBreak d then quotedBreaks (c.rest.length + 1) c.next else none

/-- The rest of a quoted scalar. Between single quotes, two of them stand for one. -/
def quotedRest (double : Bool) : Nat → Cursor → Option (List Char × Cursor)
  | 0, _ => none
  | fuel + 1, c => do
    let d ← c.peek?
    if d == (if double then '"' else '\'') then
      if !double && c.peekAt? 1 == some '\'' then do
        let (more, c) ← quotedRest double fuel (c.skip 2)
        some ('\'' :: more, c)
      else some ([], c.next)
    else do
      let (part, c) ←
        if isBlank d || isBreak d then quotedSpaces c
        else if double && d == '\\' then escaped c.next
        else some ([d], c.next)
      let (more, c) ← quotedRest double fuel c
      some (part ++ more, c)

/-- A quoted scalar; the position is at its opening quote. -/
def quotedScalar (double : Bool) (c : Cursor) : Option (List Char × Cursor) :=
  quotedRest double (c.rest.length + 1) c.next

/-! Plain scalars. -/

/-- Whether a plain scalar ends before a character. A colon is part of it unless a word ends there,
and inside brackets other syntax ends it too. -/
def plainEnds (inFlow : Bool) (c : Char) (following : Option Char) : Bool :=
  isBlank c || isBreak c ||
    (c == ':' && (endsWord following ||
      (inFlow && following.any [',', '[', ']', '\x7b', '\x7d'].contains))) ||
    (inFlow && [',', '?', '[', ']', '\x7b', '\x7d'].contains c)

def plainLength (inFlow : Bool) : List Char → Nat
  | [] => 0
  | c :: rest => if plainEnds inFlow c rest.head? then 0 else plainLength inFlow rest + 1

/-- Line breaks after the first one, with spaces around them; nothing if the document ends. -/
def plainBreaks : Nat → Cursor → Option (List Char) × Cursor
  | 0, c => (some [], c)
  | fuel + 1, c =>
    if c.seesSeparator && c.column == 0 then (none, c)
    else
      let c := c.skipWhile (· == ' ')
      match c.peek? with
      | some d =>
        if isBreak d then
          let (more, c) := plainBreaks fuel c.next
          (more.map (breakChar d :: ·), c)
        else (some [], c)
      | none => (some [], c)

/-- Spaces and line breaks after a word: what they stand for, whether there is a line break, and
the position after them. -/
def plainSpaces (c : Cursor) : List Char × Bool × Cursor :=
  let (blanks, c) := c.takeWhile (· == ' ')
  match c.peek? with
  | some d =>
    if isBreak d then
      let (more, c) := plainBreaks (c.rest.length + 1) c.next
      ((more.map (foldBreaks (breakChar d))).getD [], true, c)
    else (blanks, false, c)
  | none => (blanks, false, c)

/-- The rest of a plain scalar after some spaces: its text, whether a line break follows it, and
the position after it. Outside brackets a further line has to be indented. -/
def plainRest (inFlow : Bool) (indent : Int) :
    Nat → List Char → Bool → Cursor → List Char × Bool × Cursor
  | 0, _, broken, c => ([], broken, c)
  | fuel + 1, spaces, broken, c =>
    let length := plainLength inFlow c.rest
    if c.sees (· == '#') || length == 0 then ([], broken, c)
    else
      let word := c.rest.take length
      let (following, broken, c) := plainSpaces (c.skip length)
      if following.isEmpty || c.sees (· == '#') || (!inFlow && c.column < indent) then
        (spaces ++ word, broken, c)
      else
        let (more, broken, c) := plainRest inFlow indent fuel following broken c
        (spaces ++ word ++ more, broken, c)

def plainScalar (inFlow : Bool) (indent : Int) (c : Cursor) : List Char × Bool × Cursor :=
  plainRest inFlow indent (c.rest.length + 1) [] false c

/-! Blocks. -/

/-- What happens to the line breaks at the end of a block: only the first is kept, none, or all. -/
inductive Chomping
  | clip | strip | keep
  deriving DecidableEq

/-- The header of a block: chomping and indentation, in either order. -/
def blockHeader (c : Cursor) : Option (Chomping × Option Nat × Cursor) := do
  let (chomping, c) := chompingAt c
  let (increment, c) ← incrementAt c
  let (chomping, c) := if increment.isSome && chomping == .clip then chompingAt c else (chomping, c)
  if !(c.sees (· == ' ') || endsLine c.peek?) then none
  else
    let c := (c.skipWhile (· == ' ')).skipComment
    if endsLine c.peek? then some (chomping, increment, c.lineBreak.2) else none
where
  chompingAt (c : Cursor) : Chomping × Cursor :=
    match c.peek? with
    | some '+' => (.keep, c.next)
    | some '-' => (.strip, c.next)
    | _ => (.clip, c)
  incrementAt (c : Cursor) : Option (Option Nat × Cursor) :=
    match c.peek? with
    | some d =>
      if d == '0' then none
      else if d.isDigit then some (some (d.toNat - 48), c.next)
      else some (none, c)
    | none => some (none, c)

/-- Line breaks before the first line of a block, and how far its spaces reach at most. -/
def leadingBreaks : Nat → Nat → Cursor → List Char × Nat × Cursor
  | 0, width, c => ([], width, c)
  | fuel + 1, width, c =>
    let c := c.skipWhile (· == ' ')
    let width := max width c.column
    match c.lineBreak with
    | ([], c) => ([], width, c)
    | (b, c) =>
      let (more, width, c) := leadingBreaks fuel width c
      (b ++ more, width, c)

def skipIndent (indent : Nat) (c : Cursor) : Cursor :=
  c.skip (min (c.rest.takeWhile (· == ' ')).length (indent - c.column))

def blockBreaks (indent : Nat) : Nat → Cursor → List Char × Cursor
  | 0, c => ([], c)
  | fuel + 1, c =>
    match (skipIndent indent c).lineBreak with
    | ([], c) => ([], c)
    | (b, c) =>
      let (more, c) := blockBreaks indent fuel c
      (b ++ more, c)

def atBlockLine (indent : Nat) (c : Cursor) : Bool := c.column == indent && c.peek?.isSome

/-- Lines of a block after some line breaks: their text, the last line break, those after it, and
the position. Lines of a folded block are joined, unless one starts with a blank. -/
def blockLines (folded : Bool) (indent : Nat) :
    Nat → List Char → Cursor → List Char × List Char × List Char × Cursor
  | 0, breaks, c => ([], [], breaks, c)
  | fuel + 1, breaks, c =>
    if atBlockLine indent c then
      let flush := !c.sees isBlank
      let (line, c) := c.takeWhile (! isBreak ·)
      let (last, c) := c.lineBreak
      let (more, c) := blockBreaks indent (c.rest.length + 1) c
      if atBlockLine indent c then
        let joint :=
          if folded && last == ['\n'] && flush && !c.sees isBlank then
            (if more.isEmpty then [' '] else [])
          else last
        let (text, last, more, c) := blockLines folded indent fuel more c
        (breaks ++ line ++ joint ++ text, last, more, c)
      else (breaks ++ line, last, more, c)
    else ([], [], breaks, c)

/-- A block, whose indentation is deeper than that of the lines around it; the position is at its
mark. -/
def blockScalar (folded : Bool) (outer : Int) (c : Cursor) : Option (List Char × Cursor) := do
  let (chomping, increment, c) ← blockHeader c.next
  let least := max 1 (outer + 1).toNat
  let fuel := c.rest.length + 1
  let (breaks, indent, c) :=
    match increment with
    | some k =>
      let (breaks, c) := blockBreaks (least + k - 1) fuel c
      (breaks, least + k - 1, c)
    | none =>
      let (breaks, width, c) := leadingBreaks fuel 0 c
      (breaks, max least width, c)
  let (text, last, more, c) := blockLines folded indent fuel breaks c
  some (text ++ (if chomping = .strip then [] else last) ++ (if chomping = .keep then more else []), c)

end FileChecks.Yaml
