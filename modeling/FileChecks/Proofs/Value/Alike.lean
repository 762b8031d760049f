import FileChecks.Proofs.Config.Tree

/-!
Values that are the same up to the order of the entries of maps. No comparison tells them apart, and
what is found at a path in one is found there in the other.
-/
namespace FileChecks

namespace Value

/-- Two values that differ at most in the order of the entries of maps. -/
inductive Alike : Value → Value → Prop
  | refl (v : Value) : Alike v v
  | map {xs ys : Entries} (keys : (xs.map (·.1)).Perm (ys.map (·.1)))
      (entries : ∀ key v w, (key, v) ∈ xs → (key, w) ∈ ys → Alike v w) : Alike (.map xs) (.map ys)

namespace Alike
variable {v w : Value}

theorem rel_refl (v : Option Value) : Option.Rel Alike v v := by
  cases v with
  | none => exact .none
  | some v => exact .some (.refl v)

theorem symm (h : Alike v w) : Alike w v := by
  induction h with
  | refl v => exact .refl v
  | map keys _ ih => exact .map keys.symm fun key v w hv hw => ih key w v hw hv

theorem keys_perm {xs ys : Entries} (h : Alike (.map xs) (.map ys)) :
    (xs.map (·.1)).Perm (ys.map (·.1)) := by
  cases h with
  | refl => exact .refl _
  | map keys _ => exact keys

theorem isEmpty_eq {xs ys : Entries} (h : Alike (.map xs) (.map ys)) : xs.isEmpty = ys.isEmpty := by
  have hlength : xs.length = ys.length := by simpa using h.keys_perm.length_eq
  cases xs <;> cases ys <;> first | rfl | cases hlength

theorem sameEntries_iff (xs ys : Entries) :
    sameEntries xs ys = true ↔
      ∀ e ∈ xs, ∃ e' ∈ ys, e.1.same e'.1 = true ∧ e.2.same e'.2 = true := by
  induction xs with
  | nil => simp [sameEntries]
  | cons e rest ih =>
    rw [sameEntries, Bool.and_eq_true, List.any_eq_true, List.forall_mem_cons]
    simp only [Bool.and_eq_true]
    exact and_congr_right fun _ => ih

theorem exists_map_of_same {u : Value} {xs : Entries} (h : u.same (.map xs) = true) :
    ∃ zs, u = .map zs := by
  cases u with
  | map zs => exact ⟨zs, rfl⟩
  | _ => simp [same, sameAtom] at h

/-- Whatever is equal to a value is equal to one that is like it. -/
theorem same_of_same (h : Alike v w) {u : Value} (hu : u.same v = true) : u.same w = true := by
  induction h generalizing u with
  | refl => exact hu
  | @map xs ys keys _ ih =>
    obtain ⟨zs, rfl⟩ := exists_map_of_same hu
    have hlength : xs.length = ys.length := by simpa using keys.length_eq
    rw [same, Bool.and_eq_true, sameEntries_iff] at hu ⊢
    obtain ⟨hcount, hentries⟩ := hu
    refine ⟨hlength ▸ hcount, fun e he => ?_⟩
    obtain ⟨⟨key, v⟩, hv, hkey, hsame⟩ := hentries e he
    obtain ⟨⟨key', w⟩, hw, rfl⟩ := List.mem_map.mp (keys.mem_iff.mp (List.mem_map_of_mem hv))
    exact ⟨(key', w), hw, hkey, ih key' v w hv hw hsame⟩

theorem beq_eq (h : Alike v w) (u : Value) : (u == v) = (u == w) := by
  rw [Bool.eq_iff_iff]
  exact ⟨h.same_of_same, h.symm.same_of_same⟩

theorem textKey? {xs ys : Entries} (h : Alike (.map xs) (.map ys)) (key : String) :
    Option.Rel Alike (xs.textKey? key) (ys.textKey? key) := by
  generalize hx : Value.map xs = x at h
  generalize hy : Value.map ys = y at h
  cases h with
  | refl =>
    obtain rfl : xs = ys := by simpa using hx.trans hy.symm
    exact rel_refl _
  | @map xs' ys' keys entries =>
    obtain rfl : xs = xs' := by simpa using hx
    obtain rfl : ys = ys' := by simpa using hy
    have hsome : (xs.textKey? key).isSome ↔ (ys.textKey? key).isSome := by
      rw [Entries.textKey?_isSome_iff, Entries.textKey?_isSome_iff, keys.mem_iff]
    cases hv : xs.textKey? key with
    | none =>
      cases hw : ys.textKey? key with
      | none => exact .none
      | some w => simp [hv, hw] at hsome
    | some v =>
      cases hw : ys.textKey? key with
      | none => simp [hv, hw] at hsome
      | some w =>
        exact .some (entries _ v w (Entries.mem_of_textKey? hv) (Entries.mem_of_textKey? hw))

theorem atPath? (h : Alike v w) (path : KeyPath) :
    Option.Rel Alike (v.atPath? path) (w.atPath? path) := by
  induction path generalizing v w with
  | nil => exact .some h
  | cons key rest ih =>
    cases h with
    | refl => exact rel_refl _
    | map keys entries =>
      rw [atPath?_map_cons, atPath?_map_cons]
      have hvalues := (Alike.map keys entries).textKey? key
      revert hvalues
      generalize Entries.textKey? _ key = v, Entries.textKey? _ key = w
      intro hvalues
      cases hvalues with
      | none => exact .none
      | some hvalue => exact ih hvalue

/-- Tables are alike if the same texts are found in them with values that are. -/
theorem of_isTable {xs ys : Entries} (hx : xs.IsTable) (hy : ys.IsTable)
    (h : ∀ key, Option.Rel Alike (xs.textKey? key) (ys.textKey? key)) :
    Alike (.map xs) (.map ys) := by
  have hsome (key : String) : (xs.textKey? key).isSome ↔ (ys.textKey? key).isSome := by
    have hvalues := h key
    revert hvalues
    generalize xs.textKey? key = v, ys.textKey? key = w
    rintro (_ | _) <;> simp
  refine .map (hx.perm hy hsome) fun key v w hv hw => ?_
  obtain ⟨name, rfl⟩ := hx.texts _ hv
  have hvalues := h name
  rw [hx.textKey?_eq_some hv, hy.textKey?_eq_some hw] at hvalues
  cases hvalues with
  | some halike => exact halike

end Alike
end Value
end FileChecks
