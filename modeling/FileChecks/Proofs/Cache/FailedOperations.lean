import FileChecks.Proofs.Cache.Recency

/-!
Operations of a cache that fail. What cannot be a key stops an operation before anything changes.
The limit is looked at while entries are evicted, so that one without room for any entry is only
noticed when nothing is left to evict.
-/
namespace FileChecks

namespace CacheSettings

def IsWhole (s : CacheSettings) : Prop := ∃ i, wholeLimit? s.maxEntries = some i

/-- The limit has no room for any entry. A new cache cannot have such a limit. -/
def HasNoRoom (s : CacheSettings) : Prop := ∃ i, wholeLimit? s.maxEntries = some i ∧ i ≤ 0

theorem IsWhole.hasLimit_or_hasNoRoom {s : CacheSettings} (h : s.IsWhole) :
    (∃ n, 0 < n ∧ s.HasLimit n) ∨ s.HasNoRoom := by
  obtain ⟨i, hi⟩ := h
  by_cases hpositive : 0 < i
  · left
    have hnat : ((i.toNat : Nat) : Int) = i := by omega
    have hlimit : s.HasLimit i.toNat := hasLimit_of_wholeLimit? (by rw [hi, hnat])
    exact ⟨i.toNat, by omega, hlimit⟩
  · right
    exact ⟨i, hi, by omega⟩

theorem HasNoRoom.isReached {s : CacheSettings} (h : s.HasNoRoom) (count : Nat) :
    s.isReached count = .ok true := by
  obtain ⟨i, hi, hnonpos⟩ := h
  have hle : i ≤ count := by omega
  rw [isReached_of_wholeLimit? hi, decide_eq_true hle]

theorem not_hasNoRoom_of_hasLimit {s : CacheSettings} {n : Nat} (hn : 0 < n) (h : s.HasLimit n) :
    ¬ s.HasNoRoom := by
  intro hnone
  have hempty : Except.ok (decide (n ≤ 0)) = Except.ok true :=
    (h 0).symm.trans (hnone.isReached 0)
  have hle : n ≤ 0 := by simpa using hempty
  omega

end CacheSettings

namespace Lru
variable {κ ν : Type}

theorem settings_makeRoom (c : Lru κ ν) (entries : List (κ × ν)) (evictions : Nat) :
    (c.makeRoom entries evictions).1.settings = c.settings := by
  induction entries generalizing evictions with
  | nil =>
    unfold makeRoom
    dsimp only
    split <;> rfl
  | cons e rest ih =>
    unfold makeRoom
    split
    · exact ih (evictions + 1)
    · rfl
    · rfl

/-- Without room all entries are evicted, and then there is nothing left to evict. -/
theorem makeRoom_of_hasNoRoom (c : Lru κ ν) (h : c.settings.HasNoRoom) (entries : List (κ × ν))
    (evictions : Nat) :
    c.makeRoom entries evictions =
      ({ c with entries := [], evictions := evictions + entries.length },
        .error .cacheDrained) := by
  induction entries generalizing evictions with
  | nil => simp only [makeRoom, h.isReached, List.length_nil, Nat.add_zero]
  | cons e rest ih =>
    have hcount : evictions + 1 + rest.length = evictions + (rest.length + 1) := by omega
    simp only [makeRoom, h.isReached, ih, List.length_cons, hcount]

section BEq
variable [BEq κ]

theorem settings_set (c : Lru κ ν) (k : κ) (v : ν) : (c.set k v).1.settings = c.settings := by
  have hroom := (c.erase k).settings_makeRoom (c.erase k).entries c.evictions
  unfold set
  split
  · revert hroom
    rcases (c.erase k).makeRoom (c.erase k).entries c.evictions with ⟨c', f | u⟩
    · exact id
    · exact id
  · rfl

theorem set_of_hasNoRoom {c : Lru κ ν} (he : c.settings.isEnabled = true)
    (h : c.settings.HasNoRoom) (k : κ) (v : ν) :
    c.set k v =
      ({ c with entries := [], evictions := c.evictions + (c.erase k).size },
        .error .cacheDrained) := by
  have hroom := (c.erase k).makeRoom_of_hasNoRoom h (c.erase k).entries c.evictions
  simp only [set, he, if_true, hroom]
  rfl

end BEq

/-! What a key does that may not be one. -/
variable {c : Lru Value ν}

theorem getKey_cases (c : Lru Value ν) (key : Value) :
    (∃ typeName, key.unhashable? = some typeName ∧
      c.getKey key = (c, .error (.unhashable typeName))) ∨
    c.getKey key = ((c.get key).1, .ok (c.get key).2) := by
  cases he : c.settings.isEnabled with
  | false =>
    right
    simp [getKey, he]
  | true =>
    cases hkey : key.unhashable? with
    | none => exact .inr (getKey_eq hkey)
    | some typeName => exact .inl ⟨typeName, rfl, by simp [getKey, he, withKey, hkey]⟩

theorem setKey_cases (c : Lru Value ν) (key : Value) (v : ν) :
    (∃ typeName, key.unhashable? = some typeName ∧
      c.setKey key v = (c, .error (.unhashable typeName))) ∨
    (c.settings.isEnabled = true → key.unhashable? = none) ∧ c.setKey key v = c.set key v := by
  cases he : c.settings.isEnabled with
  | false =>
    right
    exact ⟨nofun, by simp [setKey, he, set_of_disabled he]⟩
  | true =>
    cases hkey : key.unhashable? with
    | none => exact .inr ⟨fun _ => rfl, setKey_eq hkey v⟩
    | some typeName => exact .inl ⟨typeName, rfl, by simp [setKey, he, withKey, hkey]⟩

end Lru

namespace Script.CacheSteps
variable {c : Lru Value Value}

def Operation.KeepsWhole : Operation → Prop
  | .configure maxEntries _ => ∀ v ∈ maxEntries, ∃ i, CacheSettings.wholeLimit? v = some i
  | .get _ | .set _ _ | .has _ | .len | .clear | .stats => True

theorem isWhole_perform (hc : c.settings.IsWhole) {op : Operation} (hop : op.KeepsWhole) :
    (op.perform c).1.settings.IsWhole := by
  cases op with
  | get key =>
    rw [Operation.perform]
    rcases c.getKey_cases key with ⟨typeName, -, hget⟩ | hget
    · rwa [hget]
    · rw [hget]
      exact c.settings_get key ▸ hc
  | set key v =>
    rw [Operation.perform]
    rcases c.setKey_cases key v with ⟨typeName, -, hset⟩ | ⟨-, hset⟩
    · rwa [hset]
    · rw [hset]
      exact c.settings_set key v ▸ hc
  | configure maxEntries enabled =>
    cases maxEntries with
    | none => exact hc
    | some v => exact hop v rfl
  | has | len | clear | stats => exact hc

theorem isWhole_run (hc : c.settings.IsWhole) {ops : List Operation}
    (hops : ∀ op ∈ ops, op.KeepsWhole) : (run c ops).settings.IsWhole := by
  induction ops generalizing c with
  | nil => exact hc
  | cons op ops ih =>
    obtain ⟨hop, hops⟩ := List.forall_mem_cons.mp hops
    exact ih (isWhole_perform hc hop) hops

/-- A set of what can be a key fails if the cache is in use without room for an entry. -/
theorem perform_set_cases (hc : c.settings.IsWhole) {key : Value} (hk : key.unhashable? = none)
    (v : Value) :
    ((Operation.set key v).perform c).2 = .ok .null ∧
        ¬ (c.settings.isEnabled = true ∧ c.settings.HasNoRoom) ∨
      c.settings.isEnabled = true ∧ c.settings.HasNoRoom ∧
        (Operation.set key v).perform c =
          ({ c with entries := [], evictions := c.evictions + (c.erase key).size },
            .error .cacheDrained) := by
  rw [Operation.perform, Lru.setKey_eq hk]
  cases he : c.settings.isEnabled with
  | false =>
    left
    rw [Lru.set_of_disabled he]
    exact ⟨rfl, fun h => Bool.false_ne_true h.1⟩
  | true =>
    rcases hc.hasLimit_or_hasNoRoom with ⟨n, hn, hlimit⟩ | hnone
    · left
      rw [Lru.set_eq he hlimit hn]
      exact ⟨rfl, fun h => CacheSettings.not_hasNoRoom_of_hasLimit hn hlimit h.2⟩
    · right
      rw [Lru.set_of_hasNoRoom he hnone]
      exact ⟨rfl, hnone, rfl⟩

/-- An operation fails before it changes anything, or it is a set without room for an entry. -/
theorem perform_eq_error (hc : c.settings.IsWhole) {op : Operation} {f : Failure}
    (h : (op.perform c).2 = .error f) :
    (∃ typeName, f = .unhashable typeName) ∧ (op.perform c).1 = c ∨
      ∃ key v, op = .set key v ∧ key.unhashable? = none ∧ c.settings.isEnabled = true ∧
        c.settings.HasNoRoom ∧ f = .cacheDrained ∧
        (op.perform c).1 =
          { c with entries := [], evictions := c.evictions + (c.erase key).size } := by
  cases op with
  | get key =>
    left
    rw [Operation.perform] at h ⊢
    rcases c.getKey_cases key with ⟨typeName, -, hget⟩ | hget
    · rw [hget] at h ⊢
      cases h
      exact ⟨⟨typeName, rfl⟩, rfl⟩
    · rw [hget] at h
      cases h
  | set key v =>
    rcases c.setKey_cases key v with ⟨typeName, -, hset⟩ | ⟨hkey, hset⟩
    · left
      rw [Operation.perform, hset] at h ⊢
      cases h
      exact ⟨⟨typeName, rfl⟩, rfl⟩
    · have he : c.settings.isEnabled = true := by
        by_contra hoff
        have hoff : c.settings.isEnabled = false := by simpa using hoff
        rw [Operation.perform, hset, Lru.set_of_disabled hoff] at h
        cases h
      right
      rcases perform_set_cases hc (hkey he) v with ⟨hok, -⟩ | ⟨-, hnone, hdrained⟩
      · rw [hok] at h
        cases h
      · rw [hdrained] at h ⊢
        cases h
        exact ⟨key, v, rfl, hkey he, he, hnone, rfl, rfl⟩
  | has key =>
    left
    refine ⟨?_, rfl⟩
    simp only [Operation.perform, Lru.hasKey, Lru.withKey] at h
    cases hkey : key.unhashable? with
    | none =>
      rw [hkey] at h
      cases h
    | some typeName =>
      rw [hkey] at h
      cases h
      exact ⟨typeName, rfl⟩
  | len | clear | stats | configure => cases h

/-- Whatever was done with a cache, and whatever whole number its limit was changed to, an operation
on what cannot be a key fails and changes nothing. The only other failure is that of a set while the
limit is not positive: all entries are evicted and no room is found. -/
theorem run_failures {settings : CacheSettings} {new : Lru Value Value}
    (hnew : Lru.new settings = .ok new) {ops : List Operation} (hops : ∀ op ∈ ops, op.KeepsWhole) :
    let c := run new ops
    (∀ (op : Operation) (f : Failure), (op.perform c).2 = .error f →
      (∃ typeName, f = .unhashable typeName) ∧ (op.perform c).1 = c ∨
        ∃ key v, op = .set key v ∧ key.unhashable? = none ∧ f = .cacheDrained ∧
          (op.perform c).1 =
            { c with entries := [], evictions := c.evictions + (c.erase key).size }) ∧
    ∀ key v, key.unhashable? = none →
      ((∃ f, ((Operation.set key v).perform c).2 = .error f) ↔
        c.settings.isEnabled = true ∧
          ∃ i, CacheSettings.wholeLimit? c.settings.maxEntries = some i ∧ i ≤ 0) := by
  intro c
  obtain ⟨hvalid, rfl⟩ := Lru.new_eq_ok_iff.mp hnew
  obtain ⟨n, -, hn⟩ := CacheSettings.exists_wholeLimit?_of_validate hvalid
  have hwhole : c.settings.IsWhole := isWhole_run ⟨n, hn⟩ hops
  constructor
  · intro op f h
    rcases perform_eq_error hwhole h with hsame | ⟨key, v, hop, hkey, -, -, hf, hdrained⟩
    · exact .inl hsame
    · exact .inr ⟨key, v, hop, hkey, hf, hdrained⟩
  · intro key v hkey
    rcases perform_set_cases hwhole hkey v with ⟨hok, hroom⟩ | ⟨he, hnone, hdrained⟩
    · refine ⟨fun ⟨f, hf⟩ => ?_, fun h => absurd h hroom⟩
      rw [hok] at hf
      cases hf
    · exact ⟨fun _ => ⟨he, hnone⟩, fun _ => ⟨.cacheDrained, by rw [hdrained]⟩⟩

/-- A list is no key, and asking for it leaves even a cache whose limit was taken away. -/
theorem run_failures_list_as_key :
    let ops : List Operation :=
      [.set (.int 1) (.int 10), .get (.int 1), .configure (some (.int 0)) none]
    (∀ op ∈ ops, op.KeepsWhole) ∧
      ∃ new, Lru.new ⟨.int 2, .bool true⟩ = .ok new ∧
        ((Operation.set (.list []) .null).perform (run new ops)).2 =
          .error (.unhashable "list") ∧
        ((Operation.set (.list []) .null).perform (run new ops)).1 = run new ops ∧
        ∃ f, ((Operation.set (.int 2) .null).perform (run new ops)).2 = .error f := by
  have hops : ∀ op ∈ [Operation.set (.int 1) (.int 10), .get (.int 1),
      .configure (some (.int 0)) none], op.KeepsWhole := by
    simp [Operation.KeepsWhole, CacheSettings.wholeLimit?]
  have hnew : Lru.new ⟨.int 2, .bool true⟩ =
      .ok (Lru.empty ⟨.int 2, .bool true⟩ : Lru Value Value) := Lru.new_int (by decide)
  obtain ⟨hfailed, hset⟩ := run_failures hnew hops
  have herror : ((Operation.set (.list []) .null).perform (run (Lru.empty ⟨.int 2, .bool true⟩)
      [.set (.int 1) (.int 10), .get (.int 1), .configure (some (.int 0)) none])).2 =
        .error (.unhashable "list") := by with_unfolding_all rfl
  refine ⟨hops, _, hnew, herror, ?_,
    (hset (.int 2) .null rfl).mpr ⟨by decide +kernel, 0, rfl, le_rfl⟩⟩
  rcases hfailed _ _ herror with ⟨-, hsame⟩ | ⟨key, v, hop, hkey, -⟩
  · exact hsame
  · cases hop
    cases hkey

/-- A set whose key can be one fails and takes all entries, after the limit was changed to zero. -/
theorem run_drained_by_failed_set :
    let ops : List Operation :=
      [.set (.text "a") (.int 1), .set (.text "b") (.int 2), .configure (some (.int 0)) none]
    (∀ op ∈ ops, op.KeepsWhole) ∧
      ∃ new, Lru.new ⟨.int 2, .bool true⟩ = .ok new ∧
        (run new ops).keys = [.text "a", .text "b"] ∧ (run new ops).evictions = 0 ∧
        ((Operation.set (.text "c") (.int 3)).perform (run new ops)).2 = .error .cacheDrained ∧
        ((Operation.set (.text "c") (.int 3)).perform (run new ops)).1.keys = [] ∧
        ((Operation.set (.text "c") (.int 3)).perform (run new ops)).1.evictions = 2 := by
  refine ⟨?_, _, Lru.new_int (by decide), ?_, ?_, ?_, ?_, ?_⟩
  · simp [Operation.KeepsWhole, CacheSettings.wholeLimit?]
  all_goals with_unfolding_all rfl

end Script.CacheSteps
end FileChecks
