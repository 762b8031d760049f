import FileChecks.Check.Field

/-! How compiled checks test records, and which predicates a test calls. -/
namespace FileChecks

/-- Result of a test, with the names of the predicates that it called, in order. -/
structure Outcome where
  result : Except Failure Bool
  calls : List (Option String)

namespace Outcome

def quiet (result : Except Failure Bool) : Outcome := ⟨result, []⟩

def after (o : Outcome) (earlier : List (Option String)) : Outcome := ⟨o.result, earlier ++ o.calls⟩

end Outcome

/-- The code of callers that stands in checks. It may yield any value and fail with any failure. -/
class Predicates where
  run : Nat → Value → Except Failure Value

/-- Code that does nothing yields null. -/
instance Predicates.idle : Predicates := ⟨fun _ _ => .ok .null⟩

section
variable [Predicates]

def Action.run (record : Value) : Action → Except Failure Value
  | .const v => .ok v
  | .has field => .ok (.bool (record.hasField field))
  | .equals field v => .ok (.bool ((record.getField field).same v))
  | .fail message => .error (.predicate message)
  | .custom number => Predicates.run number record

namespace Assertion

/-- A plain name is the base name or the extension of a file. -/
def holdsName (file : Value) (s : String) : Bool :=
  (file.getField Field.basename).text? == some s ||
    (file.getField Field.extname).text? == some s

/-- A pattern matches the whole path, if it is a text. -/
def holdsGlob (file : Value) (p : Glob.Pattern) : Bool :=
  match file.getField Field.path with
  | .text path => p.accepts path
  | _ => false

mutual

/-- Tests a value that is known to be a file. -/
def test (file : Value) : Assertion → Outcome
  | .anyFile => .quiet (.ok true)
  | .name s => .quiet (.ok (holdsName file s))
  | .glob p => .quiet (.ok (holdsGlob file p))
  | .fields checks => .quiet (checkFields file checks)
  | .anyOf items => testAny file items
  | .predicate called action => ⟨(action.run file).map Value.isTruthy, [called]⟩
  | .reused a => if file.isFile then test file a else .quiet (.ok false)

def testAny (file : Value) : List Assertion → Outcome
  | [] => .quiet (.ok false)
  | a :: rest =>
    match test file a with
    | ⟨.ok false, calls⟩ => (testAny file rest).after calls
    | o => o

end

/-- Tests any value. What is no file never matches, and nothing is called for it. -/
def call (a : Assertion) (v : Value) : Outcome :=
  if v.isFile then a.test v else .quiet (.ok false)

end Assertion
end
end FileChecks
