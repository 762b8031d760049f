import FileChecks.Failure
import FileChecks.Text.Split
import FileChecks.Value.Equality

/-! Trees of settings: maps in maps, with values at paths of keys. -/
namespace FileChecks

abbrev KeyPath := List String

/-- A path is written with dots between its keys. -/
def KeyPath.ofText (s : String) : KeyPath := (Text.split '.' s.toList).map String.ofList

def Value.atPath? : Value → KeyPath → Option Value
  | v, [] => some v
  | .map entries, key :: rest =>
    match Entries.textKey? entries key with
    | some v => v.atPath? rest
    | none => none
  | _, _ :: _ => none

/-- Puts a value at a path, which has a last key. Maps that are missing on the way are made, and
whatever else is on the way is in the way. -/
def Entries.putAt (entries : Entries) (key : String) (v : Value) : KeyPath → Except Failure Entries
  | [] => .ok (entries.put (.text key) v)
  | next :: rest =>
    match entries.textKey? key with
    | none => do
      let inner ← Entries.putAt [] next v rest
      return entries.put (.text key) (.map inner)
    | some (.map inner) => do
      let inner ← Entries.putAt inner next v rest
      return entries.put (.text key) (.map inner)
    | some other => .error (if rest.isEmpty then .noEntries other else .noSections other)

/-- Value at a key. If there is none, an empty map is put there. -/
def Entries.getOrMake (entries : Entries) (key : String) : Value × Entries :=
  match entries.textKey? key with
  | some v => (v, entries)
  | none => (.map [], entries.put (.text key) (.map []))

/-- Puts a value at a path step by step. A map that is missing is made before the walk goes on, and
what has been made when something is in the way is still there. -/
def Entries.assignAt (entries : Entries) (key : String) (v : Value) :
    KeyPath → Except Failure Unit × Entries
  | [] => (.ok (), entries.put (.text key) v)
  | next :: rest =>
    match entries.getOrMake key with
    | (.map inner, entries) =>
      let (done, inner) := Entries.assignAt inner next v rest
      (done, entries.put (.text key) (.map inner))
    | (other, entries) =>
      (.error (if rest.isEmpty then .noEntries other else .noSections other), entries)

end FileChecks
