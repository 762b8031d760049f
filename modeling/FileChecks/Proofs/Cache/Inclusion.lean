import FileChecks.Proofs.Cache.Distinct

/-!
A larger cache holds all that a smaller one holds. Two caches that differ in their limits only are
compared after the same operations.
-/
namespace FileChecks

/-- A cache in use and a larger one after the same operations. The smaller one is full, or else the
two have equally many entries. -/
structure Lru.Nested {κ ν : Type} [BEq κ] (n m : Nat) (small large : Lru κ ν) : Prop where
  smallEnabled : small.settings.isEnabled = true
  largeEnabled : large.settings.isEnabled = true
  smallLimit : small.settings.HasLimit n
  largeLimit : large.settings.HasLimit m
  entries : small.entries.Sublist large.entries
  size : small.size = min n large.size
  fits : large.size ≤ m
  distinct : large.Distinct
  hits : small.hits ≤ large.hits
  evictions : large.evictions ≤ small.evictions

namespace Lru.Nested
variable {κ ν : Type} [BEq κ] {n m : Nat} {small large : Lru κ ν}

theorem empty {s l : CacheSettings} (hs : s.isEnabled = true) (hl : l.isEnabled = true)
    (hn : s.HasLimit n) (hm : l.HasLimit m) :
    Nested n m (Lru.empty s : Lru κ ν) (Lru.empty l) where
  smallEnabled := hs
  largeEnabled := hl
  smallLimit := hn
  largeLimit := hm
  entries := List.Sublist.slnil
  size := (Nat.min_zero n).symm
  fits := Nat.zero_le m
  distinct := List.Pairwise.nil
  hits := Nat.le_refl 0
  evictions := Nat.le_refl 0

theorem clear (h : Nested n m small large) : Nested n m small.clear large.clear :=
  empty h.smallEnabled h.largeEnabled h.smallLimit h.largeLimit

theorem erase (h : Nested n m small large) (k : κ) :
    (small.erase k).entries.Sublist (large.erase k).entries := h.entries.eraseP

variable [PartialEquivBEq κ]

theorem find? (h : Nested n m small large) {k : κ} {e : κ × ν} (hf : small.find? k = some e) :
    large.find? k = some e := by
  have hmem : e ∈ large.entries := h.entries.subset (mem_of_find? hf)
  exact h.distinct.find?_of_mem hmem (beq_of_find? hf)

theorem get (h : Nested n m small large) (k : κ) :
    Nested n m (small.get k).1 (large.get k).1 := by
  have hkeep : (small.get k).1.entries.Sublist (large.get k).1.entries ∧
      (small.get k).1.hits ≤ (large.get k).1.hits := by
    cases hf : small.find? k with
    | some e =>
      rw [get_of_find?_eq_some h.smallEnabled hf, get_of_find?_eq_some h.largeEnabled (h.find? hf)]
      exact ⟨(h.erase k).append (List.Sublist.refl [e]), Nat.succ_le_succ h.hits⟩
    | none =>
      rw [get_of_find?_eq_none hf]
      cases hg : large.find? k with
      | none =>
        rw [get_of_find?_eq_none hg]
        exact ⟨h.entries, h.hits⟩
      | some e =>
        -- The larger cache moves an entry that the smaller one does not have.
        have hsame : small.entries.eraseP (·.1 == k) = small.entries :=
          List.eraseP_of_forall_not fun x hx => List.find?_eq_none.mp hf x hx
        have hleft : small.entries.Sublist (large.entries.eraseP (·.1 == k)) := hsame ▸ h.erase k
        rw [get_of_find?_eq_some h.largeEnabled hg]
        exact ⟨hleft.trans (List.sublist_append_left _ _), Nat.le_succ_of_le h.hits⟩
  exact
    { smallEnabled := small.settings_get k ▸ h.smallEnabled
      largeEnabled := large.settings_get k ▸ h.largeEnabled
      smallLimit := small.settings_get k ▸ h.smallLimit
      largeLimit := large.settings_get k ▸ h.largeLimit
      entries := hkeep.1
      size := by rw [small.size_get, large.size_get, h.size]
      fits := large.size_get k ▸ h.fits
      distinct := h.distinct.get k
      hits := hkeep.2
      evictions := by rw [small.evictions_get, large.evictions_get]; exact h.evictions }

theorem has_le (h : Nested n m small large) (k : κ) :
    (small.has k).toNat ≤ (large.has k).toNat := by
  cases hf : small.find? k with
  | none =>
    rw [has_of_find?_eq_none hf]
    exact Nat.zero_le _
  | some e => rw [has_of_find? hf, has_of_find? (h.find? hf)]

/-- Whenever the larger cache evicts an entry for a key, the smaller one does. -/
theorem overflow_le (h : Nested n m small large) (hnm : n ≤ m) (k : κ) :
    (large.erase k).size + 1 - m ≤ (small.erase k).size + 1 - n := by
  have hsmall := small.size_erase_add k
  have hlarge := large.size_erase_add k
  have hhas := h.has_le k
  have hsize := h.size
  have hfits := h.fits
  cases hk : large.has k with
  | true =>
    rw [hk, Bool.toNat_true] at hlarge
    omega
  | false =>
    rw [hk, Bool.toNat_false] at hlarge hhas
    omega

theorem set (h : Nested n m small large) (hn : 0 < n) (hnm : n ≤ m) (k : κ) (v : ν) :
    Nested n m (small.set k v).1 (large.set k v).1 := by
  have hm : 0 < m := by omega
  have hoverflow := h.overflow_le hnm k
  have hsize : (small.set k v).1.size = min n (large.set k v).1.size := by
    have hsmall := small.size_erase_add k
    have hlarge := large.size_erase_add k
    have hshort : (small.erase k).size ≤ (large.erase k).size := (h.erase k).length_le
    have hbefore := h.size
    have hroom := h.fits
    have hhas := h.has_le k
    have hone := (large.has k).toNat_le
    rw [size_set h.smallEnabled h.smallLimit hn, size_set h.largeEnabled h.largeLimit hm]
    omega
  have hfits := size_set_le h.largeEnabled h.largeLimit hm k v
  have hdistinct := h.distinct.set h.largeLimit hm k v
  have hdrop : ((small.erase k).entries.drop ((small.erase k).size + 1 - n)).Sublist
      ((large.erase k).entries.drop ((large.erase k).size + 1 - m)) :=
    (List.drop_sublist_drop_left _ hoverflow).trans ((h.erase k).drop _)
  rw [set_eq h.smallEnabled h.smallLimit hn, set_eq h.largeEnabled h.largeLimit hm] at *
  exact
    { smallEnabled := h.smallEnabled
      largeEnabled := h.largeEnabled
      smallLimit := h.smallLimit
      largeLimit := h.largeLimit
      entries := hdrop.append (List.Sublist.refl [(k, v)])
      size := hsize
      fits := hfits
      distinct := hdistinct
      hits := h.hits
      evictions := Nat.add_le_add h.evictions hoverflow }

/-- What is found in the smaller cache is found in the larger one. -/
theorem get_eq_some (h : Nested n m small large) {k : κ} {v : ν}
    (hv : (small.get k).2 = some v) : (large.get k).2 = some v := by
  obtain ⟨e, hf, rfl⟩ := exists_find?_of_get hv
  rw [get_of_find?_eq_some h.largeEnabled (h.find? hf)]

end Lru.Nested

namespace Script.CacheSteps

/-- Two caches with values as keys are nested if all their keys can be keys. -/
def Nests (n m : Nat) (small large : Lru Value Value) : Prop :=
  ∃ s l : Lru Key Value,
    s.Nested n m l ∧ small = s.mapKeys Subtype.val ∧ large = l.mapKeys Subtype.val

namespace Nests
variable {n m : Nat} {small large : Lru Value Value}

theorem step (h : Nests n m small large) (hn : 0 < n) (hnm : n ≤ m) {op : Operation}
    (hop : op.IsPlain) : Nests n m (op.perform small).1 (op.perform large).1 := by
  obtain ⟨s, l, hsl, rfl, rfl⟩ := h
  cases op with
  | get key =>
    exact ⟨_, _, hsl.get ⟨key, hop⟩, perform_get_mapKeys s hop, perform_get_mapKeys l hop⟩
  | set key v =>
    exact ⟨_, _, hsl.set hn hnm ⟨key, hop⟩ v, perform_set_mapKeys s hop v,
      perform_set_mapKeys l hop v⟩
  | clear => exact ⟨s.clear, l.clear, hsl.clear, rfl, rfl⟩
  | has key => exact ⟨s, l, hsl, rfl, rfl⟩
  | len => exact ⟨s, l, hsl, rfl, rfl⟩
  | stats => exact ⟨s, l, hsl, rfl, rfl⟩
  | configure maxEntries enabled => exact hop.elim

theorem run (h : Nests n m small large) (hn : 0 < n) (hnm : n ≤ m) {ops : List Operation}
    (hops : ∀ op ∈ ops, op.IsPlain) : Nests n m (run small ops) (run large ops) := by
  induction ops generalizing small large with
  | nil => exact h
  | cons op ops ih =>
    obtain ⟨hop, hops⟩ := List.forall_mem_cons.mp hops
    exact ih (h.step hn hnm hop) hops

theorem entries (h : Nests n m small large) : small.entries.Sublist large.entries := by
  obtain ⟨s, l, hsl, rfl, rfl⟩ := h
  exact hsl.entries.map _

theorem hits_le (h : Nests n m small large) : small.hits ≤ large.hits := by
  obtain ⟨s, l, hsl, rfl, rfl⟩ := h
  exact hsl.hits

theorem evictions_le (h : Nests n m small large) : large.evictions ≤ small.evictions := by
  obtain ⟨s, l, hsl, rfl, rfl⟩ := h
  exact hsl.evictions

theorem getKey_eq_some (h : Nests n m small large) {key v : Value}
    (hk : key.unhashable? = none) (hv : (small.getKey key).2 = .ok (some v)) :
    (large.getKey key).2 = .ok (some v) := by
  obtain ⟨s, l, hsl, rfl, rfl⟩ := h
  rw [getKey_mapKeys s hk] at hv
  rw [getKey_mapKeys l hk]
  exact congrArg Except.ok (hsl.get_eq_some (Except.ok.inj hv))

end Nests

/-- After the same operations a larger cache has the entries of a smaller one in the same order,
finds what that one finds, and has no fewer hits and no more evictions. -/
theorem run_sublist_of_le {n m : Nat} (hn : 0 < n) (hnm : n ≤ m) {ops : List Operation}
    (hops : ∀ op ∈ ops, op.IsPlain) :
    ∃ small large : Lru Value Value, Lru.new ⟨.int n, .bool true⟩ = .ok small ∧
      Lru.new ⟨.int m, .bool true⟩ = .ok large ∧
      (run small ops).entries.Sublist (run large ops).entries ∧
      (∀ key v, key.unhashable? = none → ((run small ops).getKey key).2 = .ok (some v) →
        ((run large ops).getKey key).2 = .ok (some v)) ∧
      (run small ops).hits ≤ (run large ops).hits ∧
      (run large ops).evictions ≤ (run small ops).evictions := by
  have hm : 0 < m := by omega
  have hstart : Nests n m (Lru.empty ⟨.int n, .bool true⟩) (Lru.empty ⟨.int m, .bool true⟩) :=
    ⟨_, _, .empty rfl rfl (CacheSettings.hasLimit_int n _) (CacheSettings.hasLimit_int m _),
      rfl, rfl⟩
  have hend := hstart.run hn hnm hops
  exact ⟨_, _, Lru.new_int hn, Lru.new_int hm, hend.entries,
    fun key v hk hv => hend.getKey_eq_some hk hv, hend.hits_le, hend.evictions_le⟩

/-- The larger cache finds the key `1` and moves it behind the key `2`, while the smaller one has
lost it. -/
theorem run_sublist_of_le_lost_key :
    let ops : List Operation :=
      [.set (.int 1) (.int 10), .set (.int 2) (.int 20), .get (.int 1), .set (.int 3) (.int 30)]
    (∀ op ∈ ops, op.IsPlain) ∧
      ∃ small large : Lru Value Value, Lru.new ⟨.int 1, .bool true⟩ = .ok small ∧
        Lru.new ⟨.int 2, .bool true⟩ = .ok large ∧
        (run small ops).entries = [(.int 3, .int 30)] ∧
        (run large ops).entries = [(.int 1, .int 10), (.int 3, .int 30)] ∧
        (run small ops).hits = 0 ∧ (run large ops).hits = 1 ∧
        (run small ops).evictions = 2 ∧ (run large ops).evictions = 1 ∧
        (run small ops).entries.Sublist (run large ops).entries := by
  have hops : ∀ op ∈ [Operation.set (.int 1) (.int 10), .set (.int 2) (.int 20), .get (.int 1),
      .set (.int 3) (.int 30)], op.IsPlain := by
    simp [Operation.IsPlain, Value.unhashable?]
  obtain ⟨small, large, hsmall, hlarge, hentries, -⟩ :=
    run_sublist_of_le (by decide : 0 < 1) (by decide : 1 ≤ 2) hops
  obtain rfl := (Lru.new_eq_ok_iff.mp hsmall).2
  obtain rfl := (Lru.new_eq_ok_iff.mp hlarge).2
  exact ⟨hops, _, _, hsmall, hlarge, by with_unfolding_all rfl, by with_unfolding_all rfl,
    by decide +kernel, by decide +kernel, by decide +kernel, by decide +kernel, hentries⟩

end Script.CacheSteps
end FileChecks
