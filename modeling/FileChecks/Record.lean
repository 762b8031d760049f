import FileChecks.Failure
import FileChecks.Value.Equality

/-!
Records: values with fields. A map holds its fields as entries, an object as attributes. A record
is a file if it has the two marker fields, whatever their values.
-/
namespace FileChecks

/-- Fields that every file has. -/
def Field.messages : String := "messages"
def Field.history : String := "history"

/-- Fields that path checks read. -/
def Field.path : String := "path"
def Field.basename : String := "basename"
def Field.extname : String := "extname"

/-- Parts of an affix spec. -/
def Field.starting : String := "prefix"
def Field.ending : String := "suffix"

namespace Value

def attributes : Value → List (String × Value)
  | object attributes => attributes
  | affix starting ending => [(Field.starting, starting), (Field.ending, ending)]
  | _ => []

def field? (record : Value) (name : String) : Option Value :=
  match record with
  | map entries => Entries.textKey? entries name
  | v => v.attributes.lookup name

def hasField (record : Value) (name : String) : Bool := (record.field? name).isSome

def getField (record : Value) (name : String) (default : Value := Value.missing) : Value :=
  (record.field? name).getD default

/-- Value of a field whose name is any value. Only a map can have a field that is not named by a
text. -/
def lookup (record : Value) (name : Value) : Except Failure (Option Value) :=
  match record, name with
  | map entries, name =>
    match name.unhashable? with
    | some typeName => .error (.unhashable typeName)
    | none => .ok (Entries.get? entries name)
  | v, text s => .ok (v.field? s)
  | _, name => .error (.fieldName name)

/-- Simple values are never files. -/
def isFile : Value → Bool
  | null | bool _ | int _ | float _ | text _ | bytes _ => false
  | v => v.hasField Field.messages && v.hasField Field.history

end Value
end FileChecks
