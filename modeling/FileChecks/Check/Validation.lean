import FileChecks.Check.Basic
import FileChecks.Check.Field

/-! Validation of a whole description: every list element and every spec of a field. -/
namespace FileChecks

def validateFields : Entries → Except Failure Unit
  | [] => .ok ()
  | (name, spec) :: rest => do
    let _ ← FieldCheck.ofValue spec name
    validateFields rest

mutual

def validate : Value → Except Failure Unit
  | .map entries => validateFields entries
  | .list items => validateItems items
  | .tuple items => validateItems items
  | v => do
    let _ ← CheckKind.ofValue v
    return ()

def validateItems : List Value → Except Failure Unit
  | [] => .ok ()
  | v :: rest => do
    validate v
    validateItems rest

end
end FileChecks
