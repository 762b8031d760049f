import FileChecks.Assoc
import FileChecks.Value.Basic

/-!
Equality of values, and which values can be keys. Numbers are compared by value whatever their
type, truth values counting as one and zero.
-/
namespace FileChecks

namespace Value

/-- Equality of simple values. Byte strings are equal whether or not they can be changed. -/
def sameAtom : Value → Value → Bool
  | .null, .null => true
  | .missing, .missing => true
  | .text a, .text b => a == b
  | .bytes a, .bytes b | .bytes a, .buffer b | .buffer a, .bytes b | .buffer a, .buffer b => a == b
  | .float x, .float y => x.same y
  | .float x, .int i | .int i, .float x => x.sameInt i
  | .float x, .bool b | .bool b, .float x => x.sameInt b.toInt
  | .int i, .int j => i == j
  | .int i, .bool b | .bool b, .int i => i == b.toInt
  | .bool a, .bool b => a == b
  | _, _ => false

mutual

/-- Equality of values. Stubs, predicates and assertions of more than a path check are equal to
nothing, since each is made anew. -/
def same : Value → Value → Bool
  | .list xs, .list ys => sameItems xs ys
  | .tuple xs, .tuple ys => sameItems xs ys
  | .set xs, .set ys => xs.length == ys.length && sameSubset xs ys
  | .map xs, .map ys => xs.length == ys.length && sameEntries xs ys
  | .object xs, .object ys => xs.length == ys.length && sameAttributes xs ys
  | .affix a b, .affix c d => same a c && same b d
  | .assertion .anyFile, .assertion .anyFile => true
  | .assertion (.name a), .assertion (.name b) => a == b
  | .assertion (.glob a), .assertion (.glob b) => a.text == b.text
  | a, b => sameAtom a b

def sameItems : List Value → List Value → Bool
  | [], [] => true
  | x :: xs, y :: ys => same x y && sameItems xs ys
  | _, _ => false

/-- Whether every item of the first list equals one of the second. -/
def sameSubset : List Value → List Value → Bool
  | [], _ => true
  | x :: xs, ys => (ys.any fun y => same x y) && sameSubset xs ys

/-- Whether every entry of the first list has an equal one in the second. -/
def sameEntries : List (Value × Value) → List (Value × Value) → Bool
  | [], _ => true
  | (k, v) :: xs, ys => (ys.any fun (l, w) => same k l && same v w) && sameEntries xs ys

def sameAttributes : List (String × Value) → List (String × Value) → Bool
  | [], _ => true
  | (k, v) :: xs, ys => (ys.any fun (l, w) => k == l && same v w) && sameAttributes xs ys

end

mutual

/-- Type of a part for which a value cannot be a key; `none` if the value can. -/
def unhashable? : Value → Option String
  | .list xs => some (Value.list xs).typeName
  | .map xs => some (Value.map xs).typeName
  | .set xs => some (Value.set xs).typeName
  | .buffer bs => some (Value.buffer bs).typeName
  | .object xs => some (Value.object xs).qualifiedTypeName
  | .tuple xs => unhashableItem? xs
  | .affix a b =>
    match unhashable? a with
    | some t => some t
    | none => unhashable? b
  | _ => none

def unhashableItem? : List Value → Option String
  | [] => none
  | x :: xs =>
    match unhashable? x with
    | some t => some t
    | none => unhashableItem? xs

end

instance : BEq Value := ⟨Value.same⟩

end Value

def Value.ofAttributes (pairs : List (String × Value)) : Value := .object (Assoc.update [] pairs)

/-! Entries of maps. -/
namespace Entries

def get? (entries : Entries) (key : Value) : Option Value := Assoc.get? entries key

def textKey? (entries : Entries) (key : String) : Option Value := entries.get? (.text key)

def put (entries : Entries) (key value : Value) : Entries := Assoc.put entries key value

def ofList (pairs : List (Value × Value)) : Entries := Assoc.update [] pairs

end Entries
end FileChecks
