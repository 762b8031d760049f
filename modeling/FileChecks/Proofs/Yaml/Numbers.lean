import FileChecks.Proofs.Text.Split
import FileChecks.Yaml.Document
import Mathlib.Tactic.Common

/-!
Why a document has no value. Apart from what makes it malformed, that is a whole number without
digits or with too many.
-/
namespace FileChecks.Yaml

section Except
variable {α β ε : Type} {e : ε}

end Except

namespace Node

mutual

/-- Texts of the scalars in a node that are read as whole numbers. -/
def ints : Node → List (List Char)
  | .scalar .int text => [text]
  | .scalar _ _ => []
  | .sequence _ items => itemInts items
  | .mapping _ entries => entryInts entries

def itemInts : List Node → List (List Char)
  | [] => []
  | node :: rest => ints node ++ itemInts rest

def entryInts : List (Node × Node) → List (List Char)
  | [] => []
  | (k, v) :: rest => ints k ++ ints v ++ entryInts rest

end

variable {text : List Char} {fault : ScalarFault}

theorem mem_entryInts_iff {entries : List (Node × Node)} :
    text ∈ entryInts entries ↔ ∃ e ∈ entries, text ∈ e.1.ints ∨ text ∈ e.2.ints := by
  induction entries with
  | nil => simp [entryInts]
  | cons e rest ih =>
    simp only [entryInts, List.mem_append, ih, List.mem_cons, exists_eq_or_imp]

theorem mem_entryInts_append {entries entries' : List (Node × Node)} :
    text ∈ entryInts (entries ++ entries') ↔ text ∈ entryInts entries ∨ text ∈ entryInts entries' := by
  simp only [mem_entryInts_iff, List.mem_append, or_and_right, exists_or]

theorem mem_entryInts_append_cons {entries entries' : List (Node × Node)} {k v : Node} :
    text ∈ entryInts (entries ++ (k, v) :: entries') ↔
      text ∈ k.ints ∨ text ∈ v.ints ∨ text ∈ entryInts (entries ++ entries') := by
  rw [mem_entryInts_append, mem_entryInts_append, entryInts, List.mem_append, List.mem_append]
  tauto

mutual

/-- Merging makes no scalars that are read as whole numbers. -/
theorem mem_of_flatEntries {entries merged own : List (Node × Node)}
    (h : flatEntries entries = some (merged, own)) (hmem : text ∈ entryInts (merged ++ own)) :
    text ∈ entryInts entries := by
  unfold flatEntries at h
  split at h
  · cases h
    exact hmem
  · rename_i mark value rest
    obtain ⟨merged', hmerged, h⟩ := Option.bind_eq_some_iff.mp h
    obtain ⟨⟨more, own'⟩, hrest, h⟩ := Option.bind_eq_some_iff.mp h
    cases h
    rw [List.append_assoc, mem_entryInts_append] at hmem
    rw [entryInts, List.mem_append, List.mem_append]
    rcases hmem with hmem | hmem
    · exact .inl (.inr (mem_of_merged hmerged hmem))
    · exact .inr (mem_of_flatEntries hrest hmem)
  · rename_i mark value rest
    obtain ⟨⟨more, own'⟩, hrest, h⟩ := Option.bind_eq_some_iff.mp h
    cases h
    rw [entryInts, List.mem_append, List.mem_append]
    rcases mem_entryInts_append_cons.mp hmem with hkey | hvalue | hmem
    · cases hkey
    · exact .inl (.inr hvalue)
    · exact .inr (mem_of_flatEntries hrest hmem)
  · rename_i entry rest _ _
    obtain ⟨⟨more, own'⟩, hrest, h⟩ := Option.bind_eq_some_iff.mp h
    cases h
    rw [entryInts, List.mem_append, List.mem_append]
    rcases mem_entryInts_append_cons.mp hmem with hkey | hvalue | hmem
    · exact .inl (.inl hkey)
    · exact .inl (.inr hvalue)
    · exact .inr (mem_of_flatEntries hrest hmem)

theorem mem_of_merged {node : Node} {entries : List (Node × Node)} (h : merged node = some entries)
    (hmem : text ∈ entryInts entries) : text ∈ node.ints := by
  cases node with
  | scalar tag text => cases h
  | sequence tag items =>
    obtain ⟨all, hall, h⟩ := Option.bind_eq_some_iff.mp h
    cases h
    obtain ⟨e, he, htext⟩ := mem_entryInts_iff.mp hmem
    obtain ⟨entries, hentries, he⟩ := List.mem_flatten.mp he
    exact mem_of_mergedItems hall (List.mem_reverse.mp hentries) (mem_entryInts_iff.mpr ⟨e, he, htext⟩)
  | mapping tag inner =>
    obtain ⟨⟨merged, own⟩, hinner, h⟩ := Option.bind_eq_some_iff.mp h
    cases h
    exact mem_of_flatEntries hinner hmem

theorem mem_of_mergedItems {items : List Node} {all : List (List (Node × Node))}
    (h : mergedItems items = some all) {entries : List (Node × Node)} (hentries : entries ∈ all)
    (hmem : text ∈ entryInts entries) : text ∈ itemInts items := by
  unfold mergedItems at h
  split at h
  · cases h
    cases hentries
  · rename_i tag inner rest
    obtain ⟨⟨merged, own⟩, hinner, h⟩ := Option.bind_eq_some_iff.mp h
    obtain ⟨more, hrest, h⟩ := Option.bind_eq_some_iff.mp h
    cases h
    rw [itemInts, List.mem_append]
    rcases List.mem_cons.mp hentries with rfl | hentries
    · exact .inl (mem_of_flatEntries hinner hmem)
    · exact .inr (mem_of_mergedItems hrest hentries hmem)
  · cases h

end

end Node

/-- Digits of a whole number with the mark of their base, but without a sign and underscores. -/
def marked (text : List Char) : List Char := (dropSign text).filter (· != '_')

/-- Why a text that is written like a whole number has no value: nothing follows the mark of its base,
or it is decimal and a part of it is too long. -/
inductive NumberFault (text : List Char) : ScalarFault → Prop
  | binary : marked text = ['0', 'b'] → NumberFault text (.noDigits 2)
  | hexadecimal : marked text = ['0', 'x'] → NumberFault text (.noDigits 16)
  | decimal (part : List Char) : part ∈ Text.split ':' (marked text) →
      Numeral.maxDigits < part.length → NumberFault text (.tooLong part.length)

def document? (cs : List Char) : Option Node :=
  if cs.all isAllowed then (Token.scan? cs).bind Node.ofTokens? else none

end FileChecks.Yaml
