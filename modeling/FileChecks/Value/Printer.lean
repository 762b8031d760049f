import FileChecks.Number.Numeral
import FileChecks.Number.Shortest
import FileChecks.Text.Quoted
import FileChecks.Value.Basic

/-!
Text of values: a form that shows their type, and the form that stands inside messages. A text that
would show a number that is too long cannot be written.
-/
namespace FileChecks

def separated (items : List String) : String := ", ".intercalate items

def braced (s : String) : String := "\x7b" ++ s ++ "\x7d"

/-- Form of a predicate, which does not show its name. -/
def namelessPredicate : String := "<pred>"

mutual

/-- Form of a value that shows its type, with all digits of whole numbers. A tuple of one item keeps
a comma, and attributes without a name are not shown. -/
def Value.repr : Value → String
  | .null => "None"
  | .bool b => if b then "True" else "False"
  | .int i => toString i
  | .float x => x.text
  | .text s => Text.quoted s
  | .bytes bs => Text.quotedBytes bs
  | .buffer bs => "bytearray(" ++ Text.quotedBytes bs ++ ")"
  | .list items => "[" ++ separated (Value.reprItems items) ++ "]"
  | .tuple items =>
    match Value.reprItems items with
    | [one] => "(" ++ one ++ ",)"
    | texts => "(" ++ separated texts ++ ")"
  | .set items => if items.isEmpty then "set()" else braced (separated (Value.reprItems items))
  | .map entries => braced (separated (Value.reprEntries entries))
  | .object attributes => "namespace(" ++ separated (Value.reprAttributes attributes) ++ ")"
  | .affix starting ending =>
    "FieldPartial(prefix=" ++ Value.repr starting ++ ", suffix=" ++ Value.repr ending ++ ")"
  | .stub => "<opaque>"
  | .missing => "MISSING"
  | .predicate _ _ => namelessPredicate
  | .assertion a => Assertion.repr a

def Value.reprItems : List Value → List String
  | [] => []
  | v :: rest => Value.repr v :: Value.reprItems rest

def Value.reprEntries : List (Value × Value) → List String
  | [] => []
  | (k, v) :: rest => (Value.repr k ++ ": " ++ Value.repr v) :: Value.reprEntries rest

def Value.reprAttributes : List (String × Value) → List String
  | [] => []
  | (k, v) :: rest =>
    if k.isEmpty then Value.reprAttributes rest
    else (k ++ "=" ++ Value.repr v) :: Value.reprAttributes rest

/-- Form of an assertion. A predicate is shown by its name, if it has one. -/
def Assertion.repr : Assertion → String
  | .anyFile => "AnyFileAssertion()"
  | .name s => "NameAssertion(" ++ Text.quoted s ++ ")"
  | .glob p => "GlobAssertion(" ++ Text.quoted p.text ++ ")"
  | .fields checks => "FieldsAssertion(" ++ braced (separated (Value.reprEntries checks)) ++ ")"
  | .anyOf items => "AnyOfAssertion([" ++ separated (Assertion.reprItems items) ++ "])"
  | .predicate (some name) _ => "PredicateAssertion(" ++ name ++ ")"
  | .predicate none _ => "PredicateAssertion(" ++ namelessPredicate ++ ")"
  | .reused a => "PredicateAssertion(" ++ Assertion.repr a ++ ")"

def Assertion.reprItems : List Assertion → List String
  | [] => []
  | a :: rest => Assertion.repr a :: Assertion.reprItems rest

end

mutual

def Value.isWritable : Value → Bool
  | .int i => Numeral.isWritable i
  | .list items | .tuple items | .set items => Value.areWritable items
  | .map entries => Value.areWritableEntries entries
  | .object attributes => Value.areWritableAttributes attributes
  | .affix starting ending => Value.isWritable starting && Value.isWritable ending
  | .assertion a => Assertion.isWritable a
  | _ => true

def Value.areWritable : List Value → Bool
  | [] => true
  | v :: rest => Value.isWritable v && Value.areWritable rest

def Value.areWritableEntries : List (Value × Value) → Bool
  | [] => true
  | (k, v) :: rest => Value.isWritable k && Value.isWritable v && Value.areWritableEntries rest

def Value.areWritableAttributes : List (String × Value) → Bool
  | [] => true
  | (k, v) :: rest => (k.isEmpty || Value.isWritable v) && Value.areWritableAttributes rest

def Assertion.isWritable : Assertion → Bool
  | .fields checks => Value.areWritableEntries checks
  | .anyOf items => Assertion.areWritable items
  | .reused a => Assertion.isWritable a
  | _ => true

def Assertion.areWritable : List Assertion → Bool
  | [] => true
  | a :: rest => Assertion.isWritable a && Assertion.areWritable rest

end

/-- Form of a value inside a message: a text stands for itself. -/
def Value.display : Value → String
  | .text s => s
  | v => v.repr

end FileChecks
