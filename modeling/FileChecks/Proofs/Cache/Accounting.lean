import FileChecks.Proofs.Cache.Distinct

/-!
The counters of a cache agree with what was asked of it, whatever its settings are changed to in
between. A cache that is not in use keeps its entries.
-/
namespace FileChecks

/-- What was asked of a cache since it was cleared: look-ups, and sets of keys that it did not hold
while it was in use. -/
structure Tally where
  lookups : Nat
  insertions : Nat

/-- A cache with a positive limit whose counters and entries add up to a tally. -/
structure Lru.Balanced {κ ν : Type} [BEq κ] (c : Lru κ ν) (t : Tally) : Prop where
  limit : ∃ n : Nat, 0 < n ∧ CacheSettings.wholeLimit? c.settings.maxEntries = some (n : Int)
  distinct : c.Distinct
  lookups : c.hits + c.misses = t.lookups
  insertions : c.evictions + c.size = t.insertions

namespace Lru
variable {κ ν : Type} [BEq κ] {c : Lru κ ν} {t : Tally}

namespace Balanced

theorem empty {s : CacheSettings} (hs : s.validate = .ok ()) :
    (Lru.empty s : Lru κ ν).Balanced ⟨0, 0⟩ :=
  ⟨CacheSettings.exists_wholeLimit?_of_validate hs, List.Pairwise.nil, rfl, rfl⟩

theorem clear (hc : c.Balanced t) : c.clear.Balanced ⟨0, 0⟩ :=
  ⟨hc.limit, List.Pairwise.nil, rfl, rfl⟩

theorem configure (hc : c.Balanced t) {maxEntries : Option Value} (enabled : Option Value)
    (hm : ∀ v ∈ maxEntries, ∃ n : Nat, 0 < n ∧ CacheSettings.wholeLimit? v = some (n : Int)) :
    (c.configure maxEntries enabled).Balanced t := by
  refine ⟨?_, hc.distinct, hc.lookups, hc.insertions⟩
  cases maxEntries with
  | none => exact hc.limit
  | some v => exact hm v rfl

variable [PartialEquivBEq κ]

theorem get (hc : c.Balanced t) (k : κ) :
    (c.get k).1.Balanced { t with lookups := t.lookups + 1 } := by
  have hsettings := c.settings_get k
  have hevictions := c.evictions_get k
  have hlookups := c.hits_add_misses_get k
  have hsize := c.size_get k
  have hbefore := hc.lookups
  have hentries := hc.insertions
  refine ⟨hsettings ▸ hc.limit, hc.distinct.get k, ?_, ?_⟩
  · change _ = t.lookups + 1
    omega
  · change _ = t.insertions
    omega

theorem set (hc : c.Balanced t) (k : κ) (v : ν) :
    (c.set k v).1.Balanced
      { t with insertions := t.insertions + (c.settings.isEnabled && !c.has k).toNat } := by
  obtain ⟨n, hn, hwhole⟩ := hc.limit
  have hlimit := CacheSettings.hasLimit_of_wholeLimit? hwhole
  have hdistinct := hc.distinct.set hlimit hn k v
  have hbefore := hc.insertions
  cases he : c.settings.isEnabled with
  | false =>
    rw [set_of_disabled he]
    exact ⟨hc.limit, hc.distinct, hc.lookups, hbefore⟩
  | true =>
    have hinsertions := evictions_add_size_set he hlimit hn k v
    refine ⟨?_, hdistinct, ?_, ?_⟩
    · rw [set_eq he hlimit hn]
      exact ⟨n, hn, hwhole⟩
    · rw [set_eq he hlimit hn]
      exact hc.lookups
    · rw [hinsertions, hbefore, Bool.true_and]

end Balanced
end Lru

namespace Script.CacheSteps

/-- Operations on values that can be keys, and changes of the settings to a limit that a new cache
accepts. -/
def Operation.IsValid : Operation → Prop
  | .get key | .set key _ | .has key => key.unhashable? = none
  | .len | .clear | .stats => True
  | .configure maxEntries _ =>
    ∀ v ∈ maxEntries, ∃ n : Nat, 0 < n ∧ CacheSettings.wholeLimit? v = some (n : Int)

def Operation.tally (c : Lru Value Value) (t : Tally) : Operation → Tally
  | .get _ => { t with lookups := t.lookups + 1 }
  | .set key _ =>
    { t with insertions := t.insertions + (c.settings.isEnabled && !c.has key).toNat }
  | .clear => ⟨0, 0⟩
  | .has _ | .len | .stats | .configure _ _ => t

/-- A tally after operations, each on the cache that the earlier ones leave. -/
def tally (c : Lru Value Value) (t : Tally) : List Operation → Tally
  | [] => t
  | op :: ops => tally (op.perform c).1 (op.tally c t) ops

/-- A cache with values as keys is balanced if all its keys can be keys. -/
def Balances (c : Lru Value Value) (t : Tally) : Prop :=
  ∃ c' : Lru Key Value, c'.Balanced t ∧ c = c'.mapKeys Subtype.val

theorem Balances.step {c : Lru Value Value} {t : Tally} (hc : Balances c t) {op : Operation}
    (hop : op.IsValid) : Balances (op.perform c).1 (op.tally c t) := by
  obtain ⟨c, hb, rfl⟩ := hc
  cases op with
  | get key =>
    exact ⟨(c.get ⟨key, hop⟩).1, hb.get ⟨key, hop⟩, perform_get_mapKeys c hop⟩
  | set key v =>
    have hhas : (c.mapKeys Subtype.val).has key = c.has ⟨key, hop⟩ := by
      rw [Lru.has, Lru.find?_mapKeys val_beq c ⟨key, hop⟩, Option.isSome_map, Lru.has]
    refine ⟨(c.set ⟨key, hop⟩ v).1, ?_, perform_set_mapKeys c hop v⟩
    rw [Operation.tally, hhas]
    exact hb.set ⟨key, hop⟩ v
  | clear => exact ⟨c.clear, hb.clear, rfl⟩
  | configure maxEntries enabled => exact ⟨_, hb.configure enabled hop, rfl⟩
  | has key => exact ⟨c, hb, rfl⟩
  | len => exact ⟨c, hb, rfl⟩
  | stats => exact ⟨c, hb, rfl⟩

theorem Balances.run {c : Lru Value Value} {t : Tally} (hc : Balances c t) {ops : List Operation}
    (hops : ∀ op ∈ ops, op.IsValid) : Balances (run c ops) (tally c t ops) := by
  induction ops generalizing c t with
  | nil => exact hc
  | cons op ops ih =>
    obtain ⟨hop, hops⟩ := List.forall_mem_cons.mp hops
    exact ih (hc.step hop) hops

theorem Balances.balanced {c : Lru Value Value} {t : Tally} (hc : Balances c t) : c.Balanced t := by
  obtain ⟨c, hb, rfl⟩ := hc
  have hsize : (c.mapKeys Subtype.val).size = c.size := List.length_map _
  refine ⟨hb.limit, List.pairwise_map.mpr hb.distinct, hb.lookups, ?_⟩
  rw [hsize]
  exact hb.insertions

/-! Caches that are not in use. -/

def Operation.isGet : Operation → Bool
  | .get _ => true
  | _ => false

/-- Operations that neither clear a cache nor put it to use. -/
def Operation.StaysOff : Operation → Prop
  | .get _ | .set _ _ | .has _ | .len | .stats => True
  | .configure _ enabled => ∀ v ∈ enabled, v.isTruthy = false
  | .clear => False

theorem getKey_of_disabled {c : Lru Value Value} (he : c.settings.isEnabled = false)
    (key : Value) : c.getKey key = ({ c with misses := c.misses + 1 }, .ok none) := by
  simp [Lru.getKey, he, Lru.get_of_disabled he]

/-- Out of use, a cache counts misses and nothing else changes but its settings. -/
theorem perform_of_disabled {c : Lru Value Value} (he : c.settings.isEnabled = false)
    {op : Operation} (hop : op.StaysOff) :
    ∃ s : CacheSettings, s.isEnabled = false ∧
      (op.perform c).1 = { c with settings := s, misses := c.misses + op.isGet.toNat } := by
  cases op with
  | get key =>
    refine ⟨c.settings, he, ?_⟩
    rw [Operation.perform, getKey_of_disabled he]
    rfl
  | set key v =>
    refine ⟨c.settings, he, ?_⟩
    rw [Operation.perform, Lru.setKey, he]
    rfl
  | configure maxEntries enabled =>
    refine ⟨(c.configure maxEntries enabled).settings, ?_, rfl⟩
    cases enabled with
    | none => exact he
    | some v => exact hop v rfl
  | has key => exact ⟨c.settings, he, rfl⟩
  | len => exact ⟨c.settings, he, rfl⟩
  | stats => exact ⟨c.settings, he, rfl⟩
  | clear => exact hop.elim

theorem run_of_disabled {c : Lru Value Value} (he : c.settings.isEnabled = false)
    {ops : List Operation} (hops : ∀ op ∈ ops, op.StaysOff) :
    ∃ s : CacheSettings, s.isEnabled = false ∧
      run c ops = { c with settings := s, misses := c.misses + ops.countP Operation.isGet } := by
  induction ops generalizing c with
  | nil => exact ⟨c.settings, he, rfl⟩
  | cons op ops ih =>
    obtain ⟨hop, hops⟩ := List.forall_mem_cons.mp hops
    obtain ⟨s, hs, hstep⟩ := perform_of_disabled he hop
    have hoff : (op.perform c).1.settings.isEnabled = false := by
      rw [hstep]
      exact hs
    obtain ⟨s', hs', hrest⟩ := ih hoff hops
    have hcount : (op :: ops).countP Operation.isGet =
        op.isGet.toNat + ops.countP Operation.isGet := by
      rw [List.countP_cons]
      cases op.isGet <;> simp [Nat.add_comm]
    refine ⟨s', hs', ?_⟩
    change run (op.perform c).1 ops = _
    rw [hrest, hstep, hcount, Nat.add_assoc]

theorem isEnabled_configure (c : Lru Value Value) (maxEntries : Option Value) {on : Value}
    (hon : on.isTruthy = true) : (c.configure maxEntries (some on)).settings.isEnabled = true := hon

theorem get_answer_of_enabled {c : Lru Value Value} (he : c.settings.isEnabled = true)
    {key : Value} (hk : key.unhashable? = none) :
    ((Operation.get key).perform c).2 = .ok (((c.find? key).map (·.2)).getD .null) := by
  rw [Operation.perform, Lru.getKey_eq hk]
  cases h : c.find? key with
  | none =>
    rw [Lru.get_of_find?_eq_none h]
    rfl
  | some e =>
    rw [Lru.get_of_find?_eq_some he h]
    rfl

/-- A set in use makes its entry the most recently used one of at most as many as the limit is. -/
theorem perform_set_of_enabled {c : Lru Value Value} (he : c.settings.isEnabled = true) {n : Nat}
    (hn : 0 < n) (hwhole : CacheSettings.wholeLimit? c.settings.maxEntries = some (n : Int))
    {key : Value} (hk : key.unhashable? = none) (v : Value) :
    ((Operation.set key v).perform c).2 = .ok .null ∧
      ((Operation.set key v).perform c).1.entries.getLast? = some (key, v) ∧
      ((Operation.set key v).perform c).1.size ≤ n := by
  have hlimit := CacheSettings.hasLimit_of_wholeLimit? hwhole
  have hsize := Lru.size_set_le he hlimit hn key v
  rw [Operation.perform, Lru.setKey_eq hk]
  refine ⟨?_, ?_, hsize⟩
  · rw [Lru.set_eq he hlimit hn]
    rfl
  · rw [Lru.set_eq he hlimit hn]
    exact List.getLast?_concat

/-- After any operations and changes of the settings the keys of a cache are distinct, and its
counters are those of the operations since it was cleared. A set in use makes its entry the most
recently used one and keeps to the limit. Out of use the entries stay, look-ups miss, and what the
cache held is found again when it is back in use. -/
theorem run_conserves {settings : CacheSettings} {new : Lru Value Value}
    (hnew : Lru.new settings = .ok new) {ops : List Operation} (hops : ∀ op ∈ ops, op.IsValid) :
    let c := run new ops
    c.Distinct ∧
    c.hits + c.misses = (tally new ⟨0, 0⟩ ops).lookups ∧
    c.evictions + c.size = (tally new ⟨0, 0⟩ ops).insertions ∧
    (c.settings.isEnabled = true → ∀ key v, key.unhashable? = none →
      ∃ n : Nat, CacheSettings.wholeLimit? c.settings.maxEntries = some (n : Int) ∧
        ((Operation.set key v).perform c).2 = .ok .null ∧
        ((Operation.set key v).perform c).1.entries.getLast? = some (key, v) ∧
        ((Operation.set key v).perform c).1.size ≤ n) ∧
    (c.settings.isEnabled = false → ∀ pause : List Operation, (∀ op ∈ pause, op.StaysOff) →
      (run c pause).entries = c.entries ∧
      (run c pause).hits = c.hits ∧
      (run c pause).misses = c.misses + pause.countP Operation.isGet ∧
      (∀ key, ((Operation.get key).perform (run c pause)).2 = .ok .null) ∧
      ∀ maxEntries on key, on.isTruthy = true → key.unhashable? = none →
        ((Operation.get key).perform ((run c pause).configure maxEntries (some on))).2 =
          .ok (((c.find? key).map (·.2)).getD .null)) := by
  obtain ⟨hvalid, rfl⟩ := Lru.new_eq_ok_iff.mp hnew
  have hstart : Balances (Lru.empty settings) ⟨0, 0⟩ :=
    ⟨Lru.empty settings, Lru.Balanced.empty hvalid, rfl⟩
  have hbalanced := (hstart.run hops).balanced
  intro c
  refine ⟨hbalanced.distinct, hbalanced.lookups, hbalanced.insertions, ?_, ?_⟩
  · intro he key v hk
    obtain ⟨n, hn, hwhole⟩ := hbalanced.limit
    exact ⟨n, hwhole, perform_set_of_enabled he hn hwhole hk v⟩
  · intro he pause hpause
    obtain ⟨s, hs, hrun⟩ := run_of_disabled he hpause
    rw [hrun]
    refine ⟨rfl, rfl, rfl, fun key => ?_, fun maxEntries on key hon hk => ?_⟩
    · rw [Operation.perform, getKey_of_disabled hs]
      rfl
    · exact get_answer_of_enabled (isEnabled_configure _ maxEntries hon) hk

/-- A limit that is lowered takes two entries at the next set, and the entry that stays outlasts a
time out of use. -/
theorem run_conserves_lowered_limit :
    let ops : List Operation :=
      [.set (.int 1) (.int 10), .set (.int 2) (.int 20), .set (.int 3) (.int 30),
        .configure (some (.int 1)) none, .set (.int 2) (.int 21), .configure none (some (.int 0))]
    (∀ op ∈ ops, op.IsValid) ∧
      ∃ new, Lru.new ⟨.int 3, .bool true⟩ = .ok new ∧
        (run new ops).evictions + (run new ops).size = 3 ∧
        ((Operation.get (.int 2)).perform
            ((run (run new ops) [.set (.int 4) .null]).configure none (some (.int 1)))).2 =
          .ok (.int 21) := by
  have hops : ∀ op ∈ [Operation.set (.int 1) (.int 10), .set (.int 2) (.int 20),
      .set (.int 3) (.int 30), .configure (some (.int 1)) none, .set (.int 2) (.int 21),
      .configure none (some (.int 0))], op.IsValid := by
    simp [Operation.IsValid, Value.unhashable?, CacheSettings.wholeLimit?]
    exact ⟨1, by decide, rfl⟩
  have hnew : Lru.new ⟨.int 3, .bool true⟩ =
      .ok (Lru.empty ⟨.int 3, .bool true⟩ : Lru Value Value) := Lru.new_int (by decide)
  obtain ⟨-, -, hinsertions, -, hoff⟩ := run_conserves hnew hops
  obtain ⟨-, -, -, -, hon⟩ := hoff rfl [.set (.int 4) .null] (by simp [Operation.StaysOff])
  refine ⟨hops, _, hnew, hinsertions.trans (by decide +kernel), ?_⟩
  exact (hon none (.int 1) (.int 2) rfl rfl).trans (by with_unfolding_all rfl)

end Script.CacheSteps
end FileChecks
