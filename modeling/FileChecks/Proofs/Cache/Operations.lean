import FileChecks.Cache.Lru
import Mathlib.Data.List.Basic
import Mathlib.Data.Nat.Cast.Order.Ring

/-! What the operations of a cache do to its entries, whatever its keys are. -/
namespace FileChecks

namespace CacheSettings

/-- The limit of the settings is a number of entries. -/
def HasLimit (s : CacheSettings) (n : Nat) : Prop := ∀ count, s.isReached count = .ok (n ≤ count)

theorem hasLimit_int (n : Nat) (enabled : Value) : HasLimit ⟨.int n, enabled⟩ n := by
  intro count
  simp [isReached]

/-- A limit that is a whole number is reached by as many entries, or by none at all. -/
theorem isReached_of_wholeLimit? {s : CacheSettings} {i : Int}
    (h : wholeLimit? s.maxEntries = some i) (count : Nat) : s.isReached count = .ok (i ≤ count) := by
  cases hm : s.maxEntries with
  | int j =>
    obtain rfl : j = i := by simpa [wholeLimit?, hm] using h
    simp [isReached, hm]
  | bool b =>
    obtain rfl : b.toInt = i := by simpa [wholeLimit?, hm] using h
    simp [isReached, hm]
  | _ => simp [wholeLimit?, hm] at h

theorem hasLimit_of_wholeLimit? {s : CacheSettings} {n : Nat}
    (h : wholeLimit? s.maxEntries = some (n : Int)) : s.HasLimit n := by
  intro count
  simp [isReached_of_wholeLimit? h]

/-- Settings that a new cache accepts have a positive limit. -/
theorem exists_wholeLimit?_of_validate {s : CacheSettings} (h : s.validate = .ok ()) :
    ∃ n : Nat, 0 < n ∧ wholeLimit? s.maxEntries = some (n : Int) := by
  unfold validate at h
  cases hw : wholeLimit? s.maxEntries with
  | none => simp [hw] at h
  | some i =>
    have hpos : 0 < i := by
      by_contra hn
      simp [hw, hn] at h
    exact ⟨i.toNat, by omega, congrArg some (by omega)⟩

theorem hasLimit_of_validate {s : CacheSettings} (h : s.validate = .ok ()) :
    ∃ n, 0 < n ∧ s.HasLimit n := by
  obtain ⟨n, hn, hwhole⟩ := exists_wholeLimit?_of_validate h
  exact ⟨n, hn, hasLimit_of_wholeLimit? hwhole⟩

end CacheSettings

namespace Lru
variable {κ ν : Type}

theorem new_eq_ok_iff {s : CacheSettings} {c : Lru κ ν} :
    new s = .ok c ↔ s.validate = .ok () ∧ c = empty s := by
  unfold new
  cases s.validate with
  | error f => exact ⟨nofun, fun h => nomatch h.1⟩
  | ok u => exact ⟨fun h => ⟨rfl, (Except.ok.inj h).symm⟩, fun h => congrArg Except.ok h.2.symm⟩

theorem new_int {n : Nat} (hn : 0 < n) :
    (new ⟨.int n, .bool true⟩ : Except Failure (Lru κ ν)) = .ok (empty ⟨.int n, .bool true⟩) := by
  have hpos : (0 : Int) < n := by omega
  refine new_eq_ok_iff.mpr ⟨?_, rfl⟩
  simp only [CacheSettings.validate, CacheSettings.wholeLimit?, hpos, if_true]

/-- The entries that stay are the last ones, as many as leave room for one more. -/
theorem makeRoom_eq (c : Lru κ ν) {n : Nat} (hc : c.settings.HasLimit n) (hn : 0 < n)
    (entries : List (κ × ν)) (evictions : Nat) :
    c.makeRoom entries evictions =
      ({ c with
          entries := entries.drop (entries.length + 1 - n)
          evictions := evictions + (entries.length + 1 - n) }, .ok ()) := by
  induction entries generalizing evictions with
  | nil =>
    have hroom : ¬ n ≤ 0 := by omega
    have hnone : 0 + 1 - n = 0 := by omega
    simp [makeRoom, hc 0, hroom, hnone]
  | cons e rest ih =>
    have hreached := hc (rest.length + 1)
    by_cases hfull : n ≤ rest.length + 1
    · have hdrop : rest.length + 1 + 1 - n = rest.length + 1 - n + 1 := by omega
      rw [decide_eq_true hfull] at hreached
      simp only [makeRoom, hreached, ih, List.length_cons, hdrop, List.drop_succ_cons]
      congr 2
      omega
    · have hnone : rest.length + 1 + 1 - n = 0 := by omega
      rw [decide_eq_false hfull] at hreached
      simp [makeRoom, hreached, hnone]

variable [BEq κ] {c : Lru κ ν}

theorem get_of_find?_eq_some (he : c.settings.isEnabled = true) {k : κ}
    {e : κ × ν} (h : c.find? k = some e) :
    c.get k = ({ c with entries := c.entries.eraseP (·.1 == k) ++ [e], hits := c.hits + 1 },
      some e.2) := by
  simp [get, he, h, erase]

theorem get_of_find?_eq_none {k : κ} (h : c.find? k = none) :
    c.get k = ({ c with misses := c.misses + 1 }, none) := by
  simp [get, h]

theorem get_of_disabled (he : c.settings.isEnabled = false) (k : κ) :
    c.get k = ({ c with misses := c.misses + 1 }, none) := by
  simp [get, he]

/-- A look-up moves the entry that it finds to the end, or it only counts a miss. -/
theorem get_cases (c : Lru κ ν) (k : κ) :
    (∃ e, c.find? k = some e ∧
      c.get k = ({ c with entries := (c.erase k).entries ++ [e], hits := c.hits + 1 },
        some e.2)) ∨
    c.get k = ({ c with misses := c.misses + 1 }, none) := by
  cases he : c.settings.isEnabled with
  | false => exact Or.inr (get_of_disabled he k)
  | true =>
    cases h : c.find? k with
    | none => exact Or.inr (get_of_find?_eq_none h)
    | some e => exact Or.inl ⟨e, rfl, get_of_find?_eq_some he h⟩

theorem set_of_disabled (he : c.settings.isEnabled = false) (k : κ) (v : ν) :
    c.set k v = (c, .ok ()) := by
  simp [set, he]

theorem set_eq (he : c.settings.isEnabled = true) {n : Nat}
    (hc : c.settings.HasLimit n) (hn : 0 < n) (k : κ) (v : ν) :
    c.set k v =
      ({ c with
          entries := (c.erase k).entries.drop ((c.erase k).size + 1 - n) ++ [(k, v)]
          evictions := c.evictions + ((c.erase k).size + 1 - n) }, .ok ()) := by
  have hroom := (c.erase k).makeRoom_eq hc hn (c.erase k).entries c.evictions
  simp only [set, he, if_true, hroom, size]
  rfl

theorem mem_of_find? {k : κ} {e : κ × ν} (h : c.find? k = some e) : e ∈ c.entries :=
  List.mem_of_find?_eq_some h

theorem beq_of_find? {k : κ} {e : κ × ν} (h : c.find? k = some e) : (e.1 == k) = true :=
  List.find?_some (p := fun x : κ × ν => x.1 == k) h

theorem settings_get (c : Lru κ ν) (k : κ) : (c.get k).1.settings = c.settings := by
  unfold get
  split <;> rfl

theorem exists_find?_of_get {k : κ} {v : ν} (h : (c.get k).2 = some v) :
    ∃ e, c.find? k = some e ∧ e.2 = v := by
  rcases c.get_cases k with ⟨e, hfind, hget⟩ | hget
  · rw [hget] at h
    exact ⟨e, hfind, Option.some.inj h⟩
  · rw [hget] at h
    cases h

theorem mem_of_mem_get {k : κ} {e : κ × ν} (h : e ∈ (c.get k).1.entries) : e ∈ c.entries := by
  rcases c.get_cases k with ⟨found, hfind, hget⟩ | hget
  · rw [hget] at h
    rcases List.mem_append.mp h with hleft | hmoved
    · exact List.mem_of_mem_eraseP hleft
    · rw [List.mem_singleton.mp hmoved]
      exact mem_of_find? hfind
  · rw [hget] at h
    exact h

theorem mem_of_mem_set {n : Nat} (hc : c.settings.HasLimit n) (hn : 0 < n) {k : κ} {v : ν}
    {e : κ × ν} (h : e ∈ (c.set k v).1.entries) : e ∈ c.entries ∨ e = (k, v) := by
  cases he : c.settings.isEnabled with
  | false =>
    rw [set_of_disabled he] at h
    exact Or.inl h
  | true =>
    rw [set_eq he hc hn] at h
    rcases List.mem_append.mp h with hleft | hnew
    · exact Or.inl (List.mem_of_mem_eraseP (List.mem_of_mem_drop hleft))
    · exact Or.inr (List.mem_singleton.mp hnew)

/-! Caches whose keys are renamed. -/
section mapKeys
variable {κ' : Type}

def mapKeys (f : κ → κ') (c : Lru κ ν) : Lru κ' ν :=
  ⟨c.settings, c.entries.map (Prod.map f id), c.hits, c.misses, c.evictions⟩

omit [BEq κ] in
theorem makeRoom_mapKeys (f : κ → κ') (c : Lru κ ν) (entries : List (κ × ν)) (evictions : Nat) :
    (c.mapKeys f).makeRoom (entries.map (Prod.map f id)) evictions =
      ((c.makeRoom entries evictions).1.mapKeys f, (c.makeRoom entries evictions).2) := by
  induction entries generalizing evictions with
  | nil =>
    cases h : c.settings.isReached 0 with
    | error e => simp [makeRoom, mapKeys, h]
    | ok b => cases b <;> simp [makeRoom, mapKeys, h]
  | cons e rest ih =>
    cases h : c.settings.isReached (rest.length + 1) with
    | error e => simp [makeRoom, mapKeys, h]
    | ok b =>
      cases b with
      | true =>
        have hstep : (c.mapKeys f).settings.isReached (rest.length + 1) = .ok true := h
        simp only [List.map_cons, makeRoom, List.length_map, hstep, ih, h]
      | false => simp [makeRoom, mapKeys, h]

variable [BEq κ'] {f : κ → κ'} (hf : ∀ a b, (f a == f b) = (a == b))
include hf

theorem find?_mapKeys (c : Lru κ ν) (k : κ) :
    (c.mapKeys f).find? (f k) = (c.find? k).map (Prod.map f id) := by
  simp only [find?, mapKeys, List.find?_map, Function.comp_def, Prod.map_fst, hf]

theorem erase_mapKeys (c : Lru κ ν) (k : κ) :
    (c.mapKeys f).erase (f k) = (c.erase k).mapKeys f := by
  simp only [erase, mapKeys, List.eraseP_map, Function.comp_def, Prod.map_fst, hf]

theorem get_mapKeys (c : Lru κ ν) (k : κ) :
    (c.mapKeys f).get (f k) = ((c.get k).1.mapKeys f, (c.get k).2) := by
  cases he : c.settings.isEnabled with
  | false =>
    rw [get_of_disabled he, get_of_disabled (c := c.mapKeys f) he]
    rfl
  | true =>
    have hfind := find?_mapKeys hf c k
    cases h : c.find? k with
    | none =>
      rw [h, Option.map_none] at hfind
      rw [get_of_find?_eq_none h, get_of_find?_eq_none hfind]
      rfl
    | some e =>
      rw [h, Option.map_some] at hfind
      have herase : (c.mapKeys f).entries.eraseP (·.1 == f k) =
          (c.entries.eraseP (·.1 == k)).map (Prod.map f id) :=
        congrArg entries (erase_mapKeys hf c k)
      rw [get_of_find?_eq_some he h, get_of_find?_eq_some (c := c.mapKeys f) he hfind, herase]
      simp [mapKeys]

theorem set_mapKeys (c : Lru κ ν) (k : κ) (v : ν) :
    (c.mapKeys f).set (f k) v = ((c.set k v).1.mapKeys f, (c.set k v).2) := by
  cases he : c.settings.isEnabled with
  | false =>
    rw [set_of_disabled he, set_of_disabled (c := c.mapKeys f) he]
  | true =>
    have he' : (c.mapKeys f).settings.isEnabled = true := he
    have hroom : ((c.erase k).mapKeys f).makeRoom ((c.erase k).mapKeys f).entries
        (c.mapKeys f).evictions = _ :=
      makeRoom_mapKeys f (c.erase k) (c.erase k).entries c.evictions
    simp only [set, he, he', if_true, erase_mapKeys hf, hroom]
    rcases (c.erase k).makeRoom (c.erase k).entries c.evictions with ⟨c', _ | _⟩
    · rfl
    · simp [mapKeys]

end mapKeys

/-! Keys that are values, if they can be keys. -/
section Hashable
variable {c : Lru Value ν} {key : Value} (hk : key.unhashable? = none)
include hk

theorem getKey_eq : c.getKey key = ((c.get key).1, .ok (c.get key).2) := by
  simp [getKey, withKey, hk]

theorem setKey_eq (v : ν) : c.setKey key v = c.set key v := by
  cases he : c.settings.isEnabled with
  | false => simp [setKey, he, set_of_disabled he]
  | true => simp [setKey, he, withKey, hk]

end Hashable
end Lru
end FileChecks
