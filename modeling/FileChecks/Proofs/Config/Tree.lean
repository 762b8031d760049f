import FileChecks.Config.Tree
import FileChecks.Proofs.Value.Entries

/-! What putting a value at a path of a tree changes, and what it leaves as it was. -/
namespace FileChecks

namespace Value

/-- Entries of the map at a path; a path that leads to no map has none. -/
def entriesAt (v : Value) (path : KeyPath) : Entries :=
  match v.atPath? path with
  | some (.map entries) => entries
  | _ => []

theorem atPath?_map_cons (entries : Entries) (key : String) (rest : KeyPath) :
    (map entries).atPath? (key :: rest) = (entries.textKey? key).bind (·.atPath? rest) := by
  rw [atPath?]
  cases entries.textKey? key <;> rfl

theorem atPath?_cons_of_not_map {v : Value} (h : ∀ entries, v ≠ map entries) (key : String)
    (rest : KeyPath) : v.atPath? (key :: rest) = none := by
  cases v with
  | map entries => exact absurd rfl (h entries)
  | _ => rfl

theorem atPath?_append (v : Value) (path rest : KeyPath) :
    v.atPath? (path ++ rest) = (v.atPath? path).bind (·.atPath? rest) := by
  induction path generalizing v with
  | nil => simp [atPath?]
  | cons key path ih =>
    by_cases h : ∃ entries, v = map entries
    · obtain ⟨entries, rfl⟩ := h
      rw [List.cons_append, atPath?_map_cons, atPath?_map_cons]
      cases Entries.textKey? entries key with
      | none => rfl
      | some inner => exact ih inner
    · have hv : ∀ entries, v ≠ map entries := fun entries hmap => h ⟨entries, hmap⟩
      rw [List.cons_append, atPath?_cons_of_not_map hv, atPath?_cons_of_not_map hv]
      rfl

theorem entriesAt_map_cons (entries : Entries) (key : String) (rest : KeyPath) :
    (map entries).entriesAt (key :: rest) =
      ((entries.textKey? key).map (·.entriesAt rest)).getD [] := by
  unfold entriesAt
  rw [atPath?_map_cons]
  cases entries.textKey? key <;> rfl

theorem entriesAt_map_nil (path : KeyPath) : (map []).entriesAt path = [] := by
  cases path <;> rfl

end Value

namespace Entries
variable {entries entries' : Entries} {key next : String} {v : Value} {rest : KeyPath}

/-- Putting a value below a key goes into the map at that key, or into a new one. -/
theorem exists_of_putAt_cons (h : entries.putAt key v (next :: rest) = .ok entries') :
    ∃ inner inner' : Entries, (entries.textKey? key = some (.map inner) ∨
        entries.textKey? key = none ∧ inner = []) ∧
      inner.putAt next v rest = .ok inner' ∧ entries' = entries.put (.text key) (.map inner') := by
  have hinto : ∀ inner : Entries, (do
      let inner' ← Entries.putAt inner next v rest
      return entries.put (.text key) (.map inner')) = .ok entries' →
      ∃ inner' : Entries, inner.putAt next v rest = .ok inner' ∧
        entries' = entries.put (.text key) (.map inner') := by
    intro inner hdo
    cases hput : inner.putAt next v rest with
    | error f =>
      rw [hput] at hdo
      cases hdo
    | ok inner' =>
      rw [hput] at hdo
      exact ⟨inner', rfl, (Except.ok.inj hdo).symm⟩
  unfold putAt at h
  split at h
  · rename_i hnone
    obtain ⟨inner', hput, heq⟩ := hinto [] h
    exact ⟨[], inner', .inr ⟨hnone, rfl⟩, hput, heq⟩
  · rename_i inner hmap
    obtain ⟨inner', hput, heq⟩ := hinto inner h
    exact ⟨inner, inner', .inl hmap, hput, heq⟩
  · cases h

/-- The value is found where it was put. -/
theorem atPath?_putAt (h : entries.putAt key v rest = .ok entries') :
    (Value.map entries').atPath? (key :: rest) = some v := by
  induction rest generalizing entries entries' key with
  | nil =>
    obtain rfl := Except.ok.inj h
    rw [Value.atPath?_map_cons, textKey?_put_self]
    rfl
  | cons next rest ih =>
    obtain ⟨inner, inner', -, hput, rfl⟩ := exists_of_putAt_cons h
    rw [Value.atPath?_map_cons, textKey?_put_self]
    exact ih hput

/-- Values are as before at all paths that part from that of the value. -/
theorem atPath?_putAt_of_parts (h : entries.putAt key v rest = .ok entries') {path : KeyPath}
    (hnot : ¬ (key :: rest) <+: path) (hnot' : ¬ path <+: (key :: rest)) :
    (Value.map entries').atPath? path = (Value.map entries).atPath? path := by
  induction rest generalizing entries entries' key path with
  | nil =>
    obtain rfl := Except.ok.inj h
    cases path with
    | nil => exact absurd List.nil_prefix hnot'
    | cons key' path =>
      have hne : key ≠ key' := by
        rintro rfl
        exact hnot (List.cons_prefix_cons.mpr ⟨rfl, List.nil_prefix⟩)
      rw [Value.atPath?_map_cons, Value.atPath?_map_cons, textKey?_put_of_ne hne]
  | cons next rest ih =>
    obtain ⟨inner, inner', hinner, hput, rfl⟩ := exists_of_putAt_cons h
    cases path with
    | nil => exact absurd List.nil_prefix hnot'
    | cons key' path =>
      rw [Value.atPath?_map_cons, Value.atPath?_map_cons]
      by_cases hkey : key = key'
      · subst hkey
        have hpath : ¬ (next :: rest) <+: path := fun hprefix =>
          hnot (List.cons_prefix_cons.mpr ⟨rfl, hprefix⟩)
        have hpath' : ¬ path <+: (next :: rest) := fun hprefix =>
          hnot' (List.cons_prefix_cons.mpr ⟨rfl, hprefix⟩)
        have hsame := ih hput hpath hpath'
        rw [textKey?_put_self]
        rcases hinner with hmap | ⟨hnone, rfl⟩
        · rw [hmap]
          exact hsame
        · -- The path goes on, since an empty one would be a beginning of any other.
          obtain ⟨first, path, rfl⟩ : ∃ first more, path = first :: more := by
            cases path with
            | nil => exact absurd List.nil_prefix hpath'
            | cons first more => exact ⟨first, more, rfl⟩
          rw [hnone]
          exact hsame
      · rw [textKey?_put_of_ne hkey]

/-- On the way to the value there are maps, which keep their entries at all other keys. -/
theorem atPath?_putAt_of_append {path more : KeyPath}
    (h : entries.putAt key v rest = .ok entries') (hway : path ++ next :: more = key :: rest) :
    ∃ inner : Entries, (Value.map entries').atPath? path = some (.map inner) ∧
      inner.except next = ((Value.map entries).entriesAt path).except next := by
  induction path generalizing entries entries' key rest with
  | nil =>
    obtain ⟨rfl, rfl⟩ := List.cons.inj hway
    refine ⟨entries', rfl, ?_⟩
    cases more with
    | nil =>
      obtain rfl := Except.ok.inj h
      exact except_put
    | cons next' more =>
      obtain ⟨inner, inner', -, -, rfl⟩ := exists_of_putAt_cons h
      exact except_put
  | cons key' path ih =>
    obtain ⟨rfl, hrest⟩ := List.cons.inj hway
    cases rest with
    | nil => simp at hrest
    | cons next' rest =>
      obtain ⟨inner, inner', hinner, hput, rfl⟩ := exists_of_putAt_cons h
      obtain ⟨found, hfound, hexcept⟩ := ih hput hrest
      refine ⟨found, ?_, ?_⟩
      · rw [Value.atPath?_map_cons, textKey?_put_self]
        exact hfound
      · rw [hexcept, Value.entriesAt_map_cons]
        rcases hinner with hmap | ⟨hnone, rfl⟩
        · rw [hmap]
          rfl
        · rw [hnone, Value.entriesAt_map_nil]
          rfl

end Entries
end FileChecks
