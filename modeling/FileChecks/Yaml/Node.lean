import FileChecks.Yaml.Implicit
import FileChecks.Yaml.Lexer

/-!
Nodes of a document: scalars, sequences and mappings with their kinds. An alias stands for a copy
of the node with its anchor.
-/
namespace FileChecks.Yaml

inductive Node
  | scalar (tag : Tag) (text : List Char)
  | sequence (tag : Tag) (items : List Node)
  | mapping (tag : Tag) (entries : List (Node × Node))

/-- What is left to read, the anchors so far, and the shorthands for tags. -/
structure Source where
  tokens : List Token
  anchors : List (List Char × Node)
  shorthands : List (List Char × List Char)

/-- Readers of tokens, which fail on a malformed document. -/
abbrev Reader := StateT Source Option

namespace Reader

def peek : Reader (Option Token) := do return (← get).tokens.head?

def advance : Reader Unit := modify fun s => { s with tokens := s.tokens.drop 1 }

def fail {α : Type} : Reader α := fun _ => none

def ofOption {α : Type} (o : Option α) : Reader α := fun s => o.map (·, s)

end Reader

/-- Start of the full forms of the tags that the language defines. -/
def tagStem : List Char := "tag:yaml.org,2002:".toList

def namedTags : List (String × Tag) := [
  ("null", .null), ("bool", .bool), ("int", .int), ("float", .float), ("str", .text),
  ("seq", .sequence), ("map", .mapping)]

def Tag.ofText (text : List Char) : Tag :=
  if tagStem.isPrefixOf text then
    (namedTags.lookup (String.ofList (text.drop tagStem.length))).getD .unknown
  else .unknown

/-- Kind of a node with a full tag, an exclamation mark alone being none at all. -/
def kindOf (tag : Option (List Char)) (otherwise : Tag) : Tag :=
  match tag with
  | none => otherwise
  | some text => if text = ['!'] then otherwise else Tag.ofText text

/-- Kind of a scalar. A quoted one is text, unless an exclamation mark says that it is read like a
plain one. -/
def scalarKind (tag : Option (List Char)) (plain : Bool) (text : List Char) : Tag :=
  if plain || tag == some ['!'] then kindOf tag (Tag.ofPlain text) else kindOf tag .text

def Node.missing : Node := .scalar .null []

namespace Reader

def fullTag (handle : Option (List Char)) (rest : List Char) : Reader (List Char) := do
  match handle with
  | none => return rest
  | some h =>
    let stem ← ofOption ((← get).shorthands.lookup h)
    return stem ++ rest

def properties : Reader (Option (List Char) × Option (List Char)) := do
  match ← peek with
  | some (.anchor name) =>
    advance
    match ← peek with
    | some (.tag handle rest) =>
      advance
      return (some name, some (← fullTag handle rest))
    | _ => return (some name, none)
  | some (.tag handle rest) =>
    advance
    let tag ← fullTag handle rest
    match ← peek with
    | some (.anchor name) =>
      advance
      return (some name, some tag)
    | _ => return (none, some tag)
  | _ => return (none, none)

/-- Notes the anchor of a node; no two nodes have the same one. -/
def anchored (name : Option (List Char)) (node : Node) : Reader Node := do
  match name with
  | none => return node
  | some name =>
    let s ← get
    if (s.anchors.lookup name).isSome then fail
    else
      set { s with anchors := (name, node) :: s.anchors }
      return node

/-- Whether one of some tokens follows, by a test. The end counts as no token. -/
def sees (p : Token → Bool) : Reader Bool := do return (← peek).any p

def isBlockEntry : Token → Bool
  | .blockEntry => true
  | _ => false

def isBlockEnd : Token → Bool
  | .blockEnd => true
  | _ => false

def isKey : Token → Bool
  | .key => true
  | _ => false

def isValue : Token → Bool
  | .value => true
  | _ => false

def isFlowEntry : Token → Bool
  | .flowEntry => true
  | _ => false

def isSequenceEnd : Token → Bool
  | .sequenceEnd => true
  | _ => false

def isMappingEnd : Token → Bool
  | .mappingEnd => true
  | _ => false

def endsItem (t : Token) : Bool := isBlockEntry t || isBlockEnd t

def endsPart (t : Token) : Bool := isKey t || isValue t || isBlockEnd t

mutual

/-- A node. Only a block may hold blocks, and only a key or a value may be a block sequence that is
not indented. -/
def node (inBlock unindented : Bool) : Nat → Reader Node
  | 0 => fail
  | fuel + 1 => do
    match ← peek with
    | some (.alias name) =>
      advance
      ofOption ((← get).anchors.lookup name)
    | _ =>
      let (anchor, tag) ← properties
      let content ← content inBlock unindented anchor tag fuel
      anchored anchor content

/-- What follows the properties of a node. A node with properties may be empty. -/
def content (inBlock unindented : Bool) (anchor tag : Option (List Char)) : Nat → Reader Node
  | 0 => fail
  | fuel + 1 => do
    match ← peek with
    | some .blockEntry =>
      if unindented then
        return .sequence (kindOf tag .sequence) (← unindentedItems fuel)
      else empty anchor tag
    | some (.scalar plain text) =>
      advance
      return .scalar (scalarKind tag plain text) text
    | some .sequenceStart =>
      advance
      return .sequence (kindOf tag .sequence) (← flowItems true fuel)
    | some .mappingStart =>
      advance
      return .mapping (kindOf tag .mapping) (← flowEntries true fuel)
    | some .blockSequenceStart =>
      if inBlock then do
        advance
        return .sequence (kindOf tag .sequence) (← blockItems fuel)
      else empty anchor tag
    | some .blockMappingStart =>
      if inBlock then do
        advance
        return .mapping (kindOf tag .mapping) (← blockEntries fuel)
      else empty anchor tag
    | _ => empty anchor tag

def empty (anchor tag : Option (List Char)) : Reader Node :=
  if anchor.isSome || tag.isSome then pure (.scalar (scalarKind tag true []) []) else fail

def nodeUnless (left : Token → Bool) (inBlock unindented : Bool) : Nat → Reader Node
  | 0 => fail
  | fuel + 1 => do
    if ← sees left then return .missing else node inBlock unindented fuel

def valueUnless (left : Token → Bool) (inBlock : Bool) : Nat → Reader Node
  | 0 => fail
  | fuel + 1 => do
    if ← sees isValue then
      advance
      nodeUnless left inBlock inBlock fuel
    else return .missing

def blockItems : Nat → Reader (List Node)
  | 0 => fail
  | fuel + 1 => do
    match ← peek with
    | some .blockEntry =>
      advance
      let item ← nodeUnless endsItem true false fuel
      return item :: (← blockItems fuel)
    | some .blockEnd =>
      advance
      return []
    | _ => fail

def unindentedItems : Nat → Reader (List Node)
  | 0 => fail
  | fuel + 1 => do
    match ← peek with
    | some .blockEntry =>
      advance
      let item ← nodeUnless (fun t => endsItem t || endsPart t) true false fuel
      return item :: (← unindentedItems fuel)
    | _ => return []

def blockEntries : Nat → Reader (List (Node × Node))
  | 0 => fail
  | fuel + 1 => do
    match ← peek with
    | some .key =>
      advance
      let key ← nodeUnless endsPart true true fuel
      let value ← valueUnless endsPart true fuel
      return (key, value) :: (← blockEntries fuel)
    | some .blockEnd =>
      advance
      return []
    | _ => fail

/-- Items between brackets, with a comma before every one but the first. A key makes an item that
is a mapping of one entry. -/
def flowItems (first : Bool) : Nat → Reader (List Node)
  | 0 => fail
  | fuel + 1 => do
    if ← sees isSequenceEnd then
      advance
      return []
    else
      if !first then comma
      match ← peek with
      | some .key =>
        advance
        let left t := isFlowEntry t || isSequenceEnd t
        let key ← nodeUnless (fun t => isValue t || left t) false false fuel
        let value ← valueUnless left false fuel
        return .mapping .mapping [(key, value)] :: (← flowItems false fuel)
      | some .sequenceEnd =>
        advance
        return []
      | _ =>
        let item ← node false false fuel
        return item :: (← flowItems false fuel)

def flowEntries (first : Bool) : Nat → Reader (List (Node × Node))
  | 0 => fail
  | fuel + 1 => do
    if ← sees isMappingEnd then
      advance
      return []
    else
      if !first then comma
      match ← peek with
      | some .key =>
        advance
        let left t := isFlowEntry t || isMappingEnd t
        let key ← nodeUnless (fun t => isValue t || left t) false false fuel
        let value ← valueUnless left false fuel
        return (key, value) :: (← flowEntries false fuel)
      | some .mappingEnd =>
        advance
        return []
      | _ =>
        let key ← node false false fuel
        return (key, .missing) :: (← flowEntries false fuel)

def comma : Reader Unit := do
  if ← sees isFlowEntry then advance else fail

end

/-- Directives before a document: at most one version, which is the first, and no shorthand
twice. -/
def directives : Nat → (versioned : Bool) → List (List Char × List Char) →
    Reader (List (List Char × List Char))
  | 0, _, _ => fail
  | fuel + 1, versioned, shorthands => do
    match ← peek with
    | some (.directive d) =>
      advance
      match d with
      | .version major =>
        if versioned || major != 1 then fail else directives fuel true shorthands
      | .shorthand handle stem =>
        if (shorthands.lookup handle).isSome then fail
        else directives fuel versioned ((handle, stem) :: shorthands)
      | .other => directives fuel versioned shorthands
    | _ => return shorthands

/-- Shorthands that every document has unless it defines them. -/
def commonShorthands : List (List Char × List Char) := [(['!'], ['!']), (['!', '!'], tagStem)]

def isBoundary : Token → Bool
  | .directive _ | .documentStart | .documentEnd => true
  | _ => false

def isDocumentEnd : Token → Bool
  | .documentEnd => true
  | _ => false

def explicitDocument (fuel : Nat) : Reader Node := do
  let shorthands ← directives fuel false []
  modify fun s => { s with shorthands := shorthands ++ commonShorthands }
  match ← peek with
  | some .documentStart =>
    advance
    match ← peek with
    | none => return .missing
    | some t => if isBoundary t then return .missing else node true false fuel
  | _ => fail

/-- The one document of a text. Without any token there is none. -/
def document (fuel : Nat) : Reader Node := do
  let root ←
    match ← peek with
    | none => pure .missing
    | some (.directive _) | some .documentStart => explicitDocument fuel
    | some _ => node true false fuel
  modify fun s => { s with tokens := s.tokens.dropWhile isDocumentEnd }
  match ← peek with
  | none => return root
  | some _ => fail

end Reader

def Node.ofTokens? (tokens : List Token) : Option Node :=
  (Reader.document (4 * tokens.length + 8) ⟨tokens, [], Reader.commonShorthands⟩).map (·.1)

end FileChecks.Yaml
