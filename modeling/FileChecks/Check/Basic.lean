import FileChecks.Failure

/-! Kinds of check descriptions. -/
namespace FileChecks

inductive CheckKind
  | absent | path | predicate | fields | list
  deriving DecidableEq, Repr

namespace CheckKind

def all : List CheckKind := [absent, path, predicate, fields, list]

def memberName : CheckKind → String
  | absent => "ABSENT"
  | path => "PATH"
  | predicate => "PREDICATE"
  | fields => "FIELDS"
  | list => "LIST"

def name : CheckKind → String
  | absent => "absent"
  | path => "path"
  | predicate => "predicate"
  | fields => "fields"
  | list => "list"

/-- Kind of a description by its outer shape. Sequences of bytes are no lists. -/
def ofValue : Value → Except Failure CheckKind
  | .null => .ok absent
  | .text _ => .ok path
  | .predicate _ _ | .assertion _ => .ok predicate
  | .map _ => .ok fields
  | .list _ | .tuple _ => .ok list
  | v => .error (.checkKind v)

end CheckKind
end FileChecks
