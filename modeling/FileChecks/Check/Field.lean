import FileChecks.Record

/-!
Checks of single fields. The spec of a field is a truth value, a text, or an affix; a record passes
the checks of several fields if it passes each, and the first that it does not pass ends the test.
-/
namespace FileChecks

inductive FieldCheckKind
  | ignore | presence | equals | affix
  deriving DecidableEq, Repr

namespace FieldCheckKind

def all : List FieldCheckKind := [ignore, presence, equals, affix]

def memberName : FieldCheckKind → String
  | ignore => "IGNORE"
  | presence => "EXISTS"
  | equals => "EQUALS"
  | affix => "AFFIX"

def name : FieldCheckKind → String
  | ignore => "ignore"
  | presence => "exists"
  | equals => "equals"
  | affix => "affix"

end FieldCheckKind

structure Affix where
  starting : Option String
  ending : Option String
  deriving DecidableEq

namespace Affix

/-- A part that is not given, or a text. -/
def part? : Value → Option (Option String)
  | .null => some none
  | .text s => some (some s)
  | _ => none

/-- Both parts of an affix spec, before their types are looked at. A map may leave parts out; an
object needs both. -/
def parts? : Value → Option (Value × Value)
  | .map entries =>
    some ((Entries.textKey? entries Field.starting).getD .null,
      (Entries.textKey? entries Field.ending).getD .null)
  | v => do
    let starting ← v.attributes.lookup Field.starting
    let ending ← v.attributes.lookup Field.ending
    some (starting, ending)

def ofValue? (v : Value) : Option Affix := do
  let (a, b) ← parts? v
  let starting ← part? a
  let ending ← part? b
  some ⟨starting, ending⟩

/-- A part that is not given or empty holds of every text. -/
def holds (a : Affix) (s : String) : Bool :=
  (a.starting.getD "").toList.isPrefixOf s.toList && (a.ending.getD "").toList.isSuffixOf s.toList

end Affix

inductive FieldCheck
  | ignore
  | presence (expected : Bool)
  | equals (s : String)
  | affix (a : Affix)
  deriving DecidableEq

namespace FieldCheck

def kind : FieldCheck → FieldCheckKind
  | ignore => .ignore
  | presence _ => .presence
  | equals _ => .equals
  | affix _ => .affix

/-- Reads the spec of a field; the name of the field only occurs in the failure. -/
def ofValue (spec : Value) (field : Value := Value.null) : Except Failure FieldCheck :=
  match spec with
  | .null => .ok ignore
  | .bool b => .ok (presence b)
  | .text s => .ok (equals s)
  | v =>
    match Affix.ofValue? v with
    | some a => .ok (affix a)
    | none => .error (Failure.fieldSpec v field).raised

def holds (record name : Value) : FieldCheck → Except Failure Bool
  | ignore => .ok true
  | presence expected => do
    let v ← record.lookup name
    return v.isSome == expected
  | equals s => do
    let v ← record.lookup name
    match v with
    | some (.text t) => return t == s
    | _ => return false
  | affix a => do
    let v ← record.lookup name
    match v with
    | some (.text t) => return a.holds t
    | _ => return false

end FieldCheck

def checkField (record name spec : Value) : Except Failure Bool := do
  let check ← FieldCheck.ofValue spec name
  check.holds record name

def checkFields (record : Value) : Entries → Except Failure Bool
  | [] => .ok true
  | (name, spec) :: rest => do
    if ← checkField record name spec then checkFields record rest else return false

end FileChecks
