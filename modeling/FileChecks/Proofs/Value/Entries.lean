import FileChecks.Value.Equality
import Mathlib.Data.List.Nodup

/-! Entries of maps whose keys are texts. A text is equal to the same text and to nothing else. -/
namespace FileChecks

theorem Value.beq_text (v : Value) (s : String) : (v == text s) = (v.text? == some s) := by
  change v.same (text s) = _
  cases v <;> simp [same, sameAtom, text?]

theorem Value.eq_text_of_beq {v : Value} {s : String} (h : (v == text s) = true) : v = text s := by
  rw [beq_text] at h
  cases v with
  | text t =>
    have ht : t = s := by simpa [text?] using h
    rw [ht]
  | _ => cases h

namespace Entries
variable {entries : Entries} {key key' : String} {v : Value}

theorem textKey?_cons (e : Value × Value) (rest : Entries) :
    textKey? (e :: rest) key = if e.1 == .text key then some e.2 else textKey? rest key := by
  unfold textKey? get? Assoc.get?
  rw [List.find?_cons]
  cases e.1 == .text key <;> rfl

theorem put_cons (e : Value × Value) (rest : Entries) :
    put (e :: rest) (.text key) v =
      if e.1 == .text key then (e.1, v) :: rest else e :: put rest (.text key) v := rfl

theorem isEmpty_put : (entries.put (.text key) v).isEmpty = false := by
  cases entries with
  | nil => rfl
  | cons e rest =>
    rw [put_cons]
    split <;> rfl

theorem textKey?_put_self : (entries.put (.text key) v).textKey? key = some v := by
  have hkey : (Value.text key == .text key) = true := by simp [Value.beq_text, Value.text?]
  induction entries with
  | nil =>
    change textKey? [(.text key, v)] key = some v
    rw [textKey?_cons, if_pos hkey]
  | cons e rest ih =>
    rw [put_cons]
    by_cases he : (e.1 == .text key) = true
    · rw [if_pos he, textKey?_cons, if_pos he]
    · rw [if_neg he, textKey?_cons, if_neg he]
      exact ih

theorem textKey?_put_of_ne (hne : key ≠ key') :
    (entries.put (.text key) v).textKey? key' = entries.textKey? key' := by
  have hkey : ¬ (Value.text key == .text key') = true := by simpa [Value.beq_text, Value.text?]
  induction entries with
  | nil =>
    change textKey? [(.text key, v)] key' = textKey? [] key'
    rw [textKey?_cons, if_neg hkey]
  | cons e rest ih =>
    rw [put_cons]
    by_cases he : (e.1 == .text key) = true
    · have hother : ¬ (e.1 == .text key') = true := by
        rw [Value.eq_text_of_beq he]
        exact hkey
      rw [if_pos he, textKey?_cons, textKey?_cons, if_neg hother, if_neg hother]
    · rw [if_neg he, textKey?_cons, textKey?_cons, ih]

/-- Putting the value that is there changes nothing. -/
theorem put_of_textKey? (h : entries.textKey? key = some v) : entries.put (.text key) v = entries := by
  induction entries with
  | nil => cases h
  | cons e rest ih =>
    rw [textKey?_cons] at h
    rw [put_cons]
    by_cases he : (e.1 == .text key) = true
    · rw [if_pos he] at h ⊢
      rw [← Option.some.inj h]
    · rw [if_neg he] at h ⊢
      rw [ih h]

/-- Of two values put at a key the later one stays. -/
theorem put_put (w : Value) :
    (entries.put (.text key) v).put (.text key) w = entries.put (.text key) w := by
  have hkey : (Value.text key == .text key) = true := by simp [Value.beq_text, Value.text?]
  induction entries with
  | nil =>
    change put [(.text key, v)] (.text key) w = _
    rw [put_cons, if_pos hkey]
    rfl
  | cons e rest ih =>
    rw [put_cons, put_cons]
    by_cases he : (e.1 == .text key) = true
    · rw [if_pos he, if_pos he, put_cons, if_pos he]
    · rw [if_neg he, if_neg he, put_cons, if_neg he, ih]

def except (entries : Entries) (key : String) : Entries := entries.filter (·.1 != .text key)

theorem except_put : (entries.put (.text key) v).except key = entries.except key := by
  have hkey : (Value.text key == .text key) = true := by simp [Value.beq_text, Value.text?]
  induction entries with
  | nil =>
    change except [(.text key, v)] key = except [] key
    simp [except, bne, hkey]
  | cons e rest ih =>
    unfold except at ih ⊢
    rw [put_cons]
    by_cases he : (e.1 == .text key) = true
    · rw [if_pos he]
      simp [bne, he]
    · rw [if_neg he, List.filter_cons, List.filter_cons, ih]

theorem mem_of_textKey? (h : entries.textKey? key = some v) : (.text key, v) ∈ entries := by
  induction entries with
  | nil => cases h
  | cons e rest ih =>
    rw [textKey?_cons] at h
    by_cases he : (e.1 == .text key) = true
    · rw [if_pos he] at h
      rw [← Value.eq_text_of_beq he, ← Option.some.inj h]
      exact List.mem_cons_self
    · rw [if_neg he] at h
      exact List.mem_cons_of_mem e (ih h)

theorem textKey?_isSome_iff : (entries.textKey? key).isSome ↔ .text key ∈ entries.map (·.1) := by
  have hkey : (Value.text key == .text key) = true := by simp [Value.beq_text, Value.text?]
  induction entries with
  | nil => simp [textKey?, get?, Assoc.get?]
  | cons e rest ih =>
    rw [textKey?_cons, List.map_cons, List.mem_cons]
    by_cases he : (e.1 == .text key) = true
    · rw [if_pos he, Value.eq_text_of_beq he]
      simp
    · have hne : Value.text key ≠ e.1 := fun heq => he (heq ▸ hkey)
      rw [if_neg he, or_iff_right hne]
      exact ih

/-- A map whose keys are texts, each of which it has once. -/
structure IsTable (entries : Entries) : Prop where
  texts : ∀ e ∈ entries, ∃ name, e.1 = .text name
  nodup : (entries.map (·.1)).Nodup

theorem mem_put {e : Value × Value} (h : e ∈ entries.put (.text key) v) :
    e.1 = .text key ∨ e ∈ entries := by
  induction entries with
  | nil => exact .inl (by rw [List.mem_singleton.mp h])
  | cons first rest ih =>
    rw [put_cons] at h
    by_cases hfirst : (first.1 == .text key) = true
    · rw [if_pos hfirst] at h
      rcases List.mem_cons.mp h with rfl | hrest
      · exact .inl (Value.eq_text_of_beq hfirst)
      · exact .inr (List.mem_cons_of_mem first hrest)
    · rw [if_neg hfirst] at h
      rcases List.mem_cons.mp h with rfl | hrest
      · exact .inr List.mem_cons_self
      · exact (ih hrest).imp_right (List.mem_cons_of_mem first)

theorem IsTable.nil : IsTable [] := ⟨by simp, List.nodup_nil⟩

theorem IsTable.put (h : entries.IsTable) (key : String) (v : Value) :
    (entries.put (.text key) v).IsTable := by
  constructor
  · intro e he
    rcases mem_put he with hkey | hmem
    · exact ⟨key, hkey⟩
    · exact h.texts e hmem
  · have hnodup := h.nodup
    clear h
    induction entries with
    | nil => exact List.nodup_singleton _
    | cons e rest ih =>
      rw [List.map_cons, List.nodup_cons] at hnodup
      obtain ⟨hnew, hrest⟩ := hnodup
      rw [put_cons]
      by_cases he : (e.1 == .text key) = true
      · rw [if_pos he]
        exact List.nodup_cons.mpr ⟨hnew, hrest⟩
      · rw [if_neg he, List.map_cons, List.nodup_cons]
        refine ⟨fun hmem => ?_, ih hrest⟩
        obtain ⟨e', he', heq⟩ := List.mem_map.mp hmem
        rcases mem_put he' with hkey | hmem'
        · apply he
          rw [← heq, hkey, Value.beq_text]
          simp [Value.text?]
        · exact hnew (heq ▸ List.mem_map_of_mem hmem')

theorem IsTable.textKey?_eq_some (h : entries.IsTable) (hmem : (.text key, v) ∈ entries) :
    entries.textKey? key = some v := by
  have hnodup := h.nodup
  clear h
  induction entries with
  | nil => cases hmem
  | cons e rest ih =>
    rw [List.map_cons, List.nodup_cons] at hnodup
    obtain ⟨hnew, hrest⟩ := hnodup
    rw [textKey?_cons]
    rcases List.mem_cons.mp hmem with rfl | hmem
    · rw [if_pos (by simp [Value.beq_text, Value.text?])]
    · have he : ¬ (e.1 == .text key) = true := by
        intro he
        apply hnew
        rw [Value.eq_text_of_beq he]
        exact List.mem_map_of_mem hmem
      rw [if_neg he]
      exact ih hmem hrest

theorem IsTable.keys_subset {entries' : Entries} (h : entries.IsTable)
    (hkeys : ∀ key, (entries.textKey? key).isSome → (entries'.textKey? key).isSome) :
    entries.map (·.1) ⊆ entries'.map (·.1) := by
  intro key hmem
  obtain ⟨e, he, rfl⟩ := List.mem_map.mp hmem
  obtain ⟨name, hname⟩ := h.texts e he
  rw [hname] at hmem ⊢
  exact textKey?_isSome_iff.mp (hkeys name (textKey?_isSome_iff.mpr hmem))

/-- Two tables have the same keys if the same texts are found in them. -/
theorem IsTable.perm {entries' : Entries} (h : entries.IsTable) (h' : entries'.IsTable)
    (hkeys : ∀ key, (entries.textKey? key).isSome ↔ (entries'.textKey? key).isSome) :
    (entries.map (·.1)).Perm (entries'.map (·.1)) := by
  rw [List.perm_ext_iff_of_nodup h.nodup h'.nodup]
  intro key
  constructor
  · exact fun hmem => h.keys_subset (fun name => (hkeys name).mp) hmem
  · exact fun hmem => h'.keys_subset (fun name => (hkeys name).mpr) hmem

end Entries
end FileChecks
