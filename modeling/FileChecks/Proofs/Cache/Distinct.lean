import FileChecks.Proofs.Cache.Recency

/-! The keys of a cache are distinct, and what the operations do to its size and its counters. -/
namespace FileChecks.Lru
variable {κ ν : Type} [BEq κ] {c : Lru κ ν}

def Distinct (c : Lru κ ν) : Prop := c.entries.Pairwise fun a b => (a.1 == b.1) = false

theorem has_of_find? {k : κ} {e : κ × ν} (h : c.find? k = some e) : c.has k = true := by
  rw [has, h]
  rfl

theorem has_of_find?_eq_none {k : κ} (h : c.find? k = none) : c.has k = false := by
  rw [has, h]
  rfl

/-- A hit only moves its entry. -/
theorem perm_of_find? {k : κ} {e : κ × ν} (h : c.find? k = some e) :
    ((c.erase k).entries ++ [e]).Perm c.entries := by
  obtain ⟨hk, before, behind, hentries, hbefore⟩ := List.find?_eq_some_iff_append.mp h
  have hskip : ∀ x ∈ before, ¬ (x.1 == k) = true := fun x hx => by simpa using hbefore x hx
  have herase : (c.erase k).entries = before ++ behind := by
    change c.entries.eraseP (·.1 == k) = _
    rw [hentries, List.eraseP_append_right _ hskip]
    simp only [List.eraseP_cons, hk, cond_true]
  rw [herase, hentries, List.append_assoc]
  exact List.Perm.append_left before List.perm_append_comm

/-- Leaving out a key leaves out one entry, if there is one. -/
theorem size_erase_add (c : Lru κ ν) (k : κ) : (c.erase k).size + (c.has k).toNat = c.size := by
  cases h : c.find? k with
  | none =>
    have hsame : c.entries.eraseP (·.1 == k) = c.entries :=
      List.eraseP_of_forall_not fun x hx => List.find?_eq_none.mp h x hx
    rw [has_of_find?_eq_none h, size, erase, hsame]
    rfl
  | some e =>
    have hlength := (perm_of_find? h).length_eq
    rw [List.length_append] at hlength
    rw [has_of_find? h]
    exact hlength

theorem evictions_get (c : Lru κ ν) (k : κ) : (c.get k).1.evictions = c.evictions := by
  unfold get
  split <;> rfl

theorem size_get (c : Lru κ ν) (k : κ) : (c.get k).1.size = c.size := by
  rcases c.get_cases k with ⟨e, hfind, hget⟩ | hget
  · rw [hget]
    exact (perm_of_find? hfind).length_eq
  · rw [hget]
    rfl

/-- A look-up is a hit or a miss. -/
theorem hits_add_misses_get (c : Lru κ ν) (k : κ) :
    (c.get k).1.hits + (c.get k).1.misses = c.hits + c.misses + 1 := by
  rcases c.get_cases k with ⟨e, -, hget⟩ | hget
  · rw [hget]
    change c.hits + 1 + c.misses = _
    omega
  · rw [hget]
    rfl

section set
variable (he : c.settings.isEnabled = true) {n : Nat} (hlimit : c.settings.HasLimit n) (hn : 0 < n)
include he hlimit hn

/-- A set evicts as many entries as there are too many, and then adds one. -/
theorem size_set (k : κ) (v : ν) :
    (c.set k v).1.size = (c.erase k).size - ((c.erase k).size + 1 - n) + 1 := by
  rw [set_eq he hlimit hn]
  simp [size]

theorem size_set_le (k : κ) (v : ν) : (c.set k v).1.size ≤ n := by
  rw [size_set he hlimit hn]
  omega

/-- What a set evicts and what it leaves are the entries so far and its own, if that is new. -/
theorem evictions_add_size_set (k : κ) (v : ν) :
    (c.set k v).1.evictions + (c.set k v).1.size = c.evictions + c.size + (!c.has k).toNat := by
  have hsize := size_set he hlimit hn k v
  have herase := c.size_erase_add k
  have hevictions : (c.set k v).1.evictions = c.evictions + ((c.erase k).size + 1 - n) := by
    rw [set_eq he hlimit hn]
  cases hk : c.has k <;> simp only [hk, Bool.toNat_true, Bool.toNat_false, Bool.not_true,
    Bool.not_false] at herase ⊢ <;> omega

end set

namespace Distinct
variable [PartialEquivBEq κ]

theorem find?_of_mem (hc : c.Distinct) {e : κ × ν} (he : e ∈ c.entries) {k : κ}
    (hk : (e.1 == k) = true) : c.find? k = some e := by
  obtain ⟨before, behind, hentries⟩ := List.append_of_mem he
  have hbefore : ∀ x ∈ before, (x.1 == k) = false := by
    intro x hx
    rw [Distinct, hentries] at hc
    rw [← History.beq_congr_right hk]
    exact (List.pairwise_append.mp hc).2.2 x hx e List.mem_cons_self
  refine List.find?_eq_some_iff_append.mpr ⟨hk, before, behind, hentries, fun x hx => ?_⟩
  simp [hbefore x hx]

/-- Where a key is left out, it does not occur any more. -/
theorem beq_eq_false_of_mem_erase (hc : c.Distinct) {k : κ} {e : κ × ν}
    (he : e ∈ (c.erase k).entries) : (e.1 == k) = false := by
  have hpair : c.entries.Pairwise fun a b => (a.1 == k) = true → (b.1 == k) = false := by
    refine hc.imp fun {a b} hab ha => ?_
    by_contra hb
    have hsame : (a.1 == b.1) = true :=
      PartialEquivBEq.trans ha (PartialEquivBEq.symm (by simpa using hb))
    simp [hsame] at hab
  rw [erase, eraseP_eq_filter_of_pairwise hpair] at he
  simpa using (List.mem_filter.mp he).2

theorem get (hc : c.Distinct) (k : κ) : (c.get k).1.Distinct := by
  rcases c.get_cases k with ⟨e, hfind, hget⟩ | hget
  · rw [hget]
    refine ((perm_of_find? hfind).pairwise_iff fun {a b} hab => ?_).mpr hc
    rw [History.beq_eq_comm]
    exact hab
  · rw [hget]
    exact hc

theorem set (hc : c.Distinct) {n : Nat} (hlimit : c.settings.HasLimit n) (hn : 0 < n) (k : κ)
    (v : ν) : (c.set k v).1.Distinct := by
  cases he : c.settings.isEnabled with
  | false =>
    rw [set_of_disabled he]
    exact hc
  | true =>
    rw [set_eq he hlimit hn]
    have hleft : (c.erase k).Distinct := hc.sublist List.eraseP_sublist
    refine List.pairwise_append.mpr
      ⟨hleft.sublist (List.drop_sublist _ _), List.pairwise_singleton _ _, ?_⟩
    intro x hx y hy
    rw [List.mem_singleton.mp hy]
    exact hc.beq_eq_false_of_mem_erase (List.mem_of_mem_drop hx)

end Distinct

/-- The entries of a history have distinct keys. -/
theorem distinct_of_tracks {n : Nat} {h : History κ ν} (ht : Tracks n c h) :
    c.Distinct := by
  rw [Distinct, ht.entries]
  exact List.pairwise_reverse.mpr ((pairwise_eraseDupsBy _).sublist (List.take_sublist n _))

end FileChecks.Lru
