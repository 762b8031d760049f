import FileChecks.Glob.Pattern
import FileChecks.Number.Binary64

/-!
Values: what records, checks and configurations are made of. A check compiles to an assertion, and
an assertion is a value again, because it can be called like any predicate.
-/
namespace FileChecks

mutual

/-- A dynamic value. The entries of a map and the attributes of an object are in insertion order.
A `stub` is an object without readable attributes, and `missing` stands for a field that a record
does not have. A predicate without a name has `none`. -/
inductive Value
  | null
  | bool (b : Bool)
  | int (i : Int)
  | float (x : Binary64)
  | text (s : String)
  | bytes (bs : List UInt8)
  | buffer (bs : List UInt8)
  | list (items : List Value)
  | tuple (items : List Value)
  | set (items : List Value)
  | map (entries : List (Value × Value))
  | object (attributes : List (String × Value))
  | affix (starting ending : Value)
  | stub
  | missing
  | predicate (name : Option String) (action : Action)
  | assertion (a : Assertion)

/-- What a predicate does with a record: it yields a value, tests whether a field exists, compares
a field with a value, fails with a message, or runs the code of a caller. -/
inductive Action
  | const (v : Value)
  | has (field : String)
  | equals (field : String) (v : Value)
  | fail (message : String)
  | custom (number : Nat)

/-- A compiled check. A predicate keeps its name, and `reused` is an assertion that stands in a check
like a predicate. -/
inductive Assertion
  | anyFile
  | name (s : String)
  | glob (p : Glob.Pattern)
  | fields (checks : List (Value × Value))
  | anyOf (items : List Assertion)
  | predicate (name : Option String) (action : Action)
  | reused (a : Assertion)

end

/-- Entries of a map. -/
abbrev Entries := List (Value × Value)

namespace Value

/-- False, null, zero, and whatever is empty do not count as true; nor does a missing field. -/
def isTruthy : Value → Bool
  | null => false
  | bool b => b
  | int i => i != 0
  | float x => x.isTruthy
  | text s => !s.isEmpty
  | bytes bs => !bs.isEmpty
  | buffer bs => !bs.isEmpty
  | list items => !items.isEmpty
  | tuple items => !items.isEmpty
  | set items => !items.isEmpty
  | map entries => !entries.isEmpty
  | missing => false
  | object _ | affix _ _ | stub | predicate _ _ | assertion _ => true

def text? : Value → Option String
  | text s => some s
  | _ => none

end Value

def Assertion.typeName : Assertion → String
  | .anyFile => "AnyFileAssertion"
  | .name _ => "NameAssertion"
  | .glob _ => "GlobAssertion"
  | .fields _ => "FieldsAssertion"
  | .anyOf _ => "AnyOfAssertion"
  | .predicate _ _ | .reused _ => "PredicateAssertion"

def Value.typeName : Value → String
  | .null => "NoneType"
  | .bool _ => "bool"
  | .int _ => "int"
  | .float _ => "float"
  | .text _ => "str"
  | .bytes _ => "bytes"
  | .buffer _ => "bytearray"
  | .list _ => "list"
  | .tuple _ => "tuple"
  | .set _ => "set"
  | .map _ => "dict"
  | .object _ => "SimpleNamespace"
  | .affix _ _ => "FieldPartial"
  | .stub => "Opaque"
  | .missing => "_Missing"
  | .predicate _ _ => "function"
  | .assertion a => a.typeName

/-- Name of the type with the module that the name belongs to, if messages give one. -/
def Value.qualifiedTypeName : Value → String
  | .object attributes => "types." ++ (Value.object attributes).typeName
  | v => v.typeName

end FileChecks
