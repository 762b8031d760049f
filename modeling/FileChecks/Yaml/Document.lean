import FileChecks.Value.Equality
import FileChecks.Yaml.Node

/-!
Values of documents. Of equal keys the last one counts, but in the place of the first; entries that
are merged into a mapping stand before its own.
-/
namespace FileChecks.Yaml

namespace Node

/-- Entries of several mappings that are merged at once; of equal keys the first one counts. -/
def mergeAll (all : List (List (Node × Node))) : List (Node × Node) := all.reverse.flatten

mutual

def flatEntries : List (Node × Node) → Option (List (Node × Node) × List (Node × Node))
  | [] => some ([], [])
  | (.scalar .merge _, value) :: rest => do
    let merged ← merged value
    let (more, own) ← flatEntries rest
    some (merged ++ more, own)
  | (.scalar .default text, value) :: rest => do
    let (more, own) ← flatEntries rest
    some (more, (.scalar .text text, value) :: own)
  | entry :: rest => do
    let (more, own) ← flatEntries rest
    some (more, entry :: own)

/-- What a node stands for that is merged: a mapping, or a sequence of mappings. -/
def merged : Node → Option (List (Node × Node))
  | .mapping _ entries => do
    let (merged, own) ← flatEntries entries
    some (merged ++ own)
  | .sequence _ items => do
    let all ← mergedItems items
    some (mergeAll all)
  | .scalar _ _ => none

def mergedItems : List Node → Option (List (List (Node × Node)))
  | [] => some []
  | .mapping _ entries :: rest => do
    let (merged, own) ← flatEntries entries
    let more ← mergedItems rest
    some ((merged ++ own) :: more)
  | _ :: _ => none

end

/-- Puts an entry into a map. A list or a map is no key. -/
def putEntry (valueOf : Node → Except ScalarFault Value) (done : Entries) (entry : Node × Node) :
    Except ScalarFault Entries := do
  let k ← valueOf entry.1
  if k.unhashable?.isSome then throw .malformed
  let v ← valueOf entry.2
  return done.put k v

/-- Value of a node of at most a given depth. -/
def toValue : Nat → Node → Except ScalarFault Value
  | 0, _ => .error .malformed
  | _ + 1, .scalar tag text => scalarOf tag text
  | depth + 1, .sequence tag items => do
    if tag != .sequence then throw .malformed
    return .list (← items.mapM (toValue depth))
  | depth + 1, .mapping tag entries => do
    if tag != .mapping then throw .malformed
    match flatEntries entries with
    | none => throw .malformed
    | some (merged, own) =>
      return .map (← (merged ++ own).foldlM (putEntry (toValue depth)) [])

end Node

def isAllowed (c : Char) : Bool :=
  let n := c.toNat
  n == 0x9 || n == 0xa || n == 0xd || (0x20 ≤ n && n ≤ 0x7e) || n == 0x85 ||
    (0xa0 ≤ n && n ≤ 0xfffd) || 0x10000 ≤ n

def read (cs : List Char) : Except ScalarFault Value :=
  if cs.all isAllowed then
    match Token.scan? cs with
    | none => .error .malformed
    | some tokens =>
      match Node.ofTokens? tokens with
      | none => .error .malformed
      | some root => root.toValue (tokens.length + 1)
  else .error .malformed

end FileChecks.Yaml
