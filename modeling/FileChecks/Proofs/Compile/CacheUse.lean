import FileChecks.Proofs.Cache.Distinct
import FileChecks.Proofs.Compile.Visits
import Mathlib.Data.Finset.Card
import Mathlib.Data.Finset.Dedup

/-!
How compilation uses its cache. The cache holds the path checks that were compiled most recently,
its counters count what was reached and compiled, and a path check that is reached again in time has
the assertion that it had.
-/
namespace FileChecks

/-! What compiling a path check does, if there is a cache. -/
section compilePath
variable {a : Ambient} {c : Lru String Compiled} (hc : a.cache = some c) {path : String}
include hc

/-- A path check that is found is the result, unless the message about it fails. -/
theorem run_compilePath_hit {x : Compiled} (hfound : (c.get path).2 = some x) :
    ((compilePath path).run.run a).2.cache = some (c.get path).1 ∧
      (((compilePath path).run.run a).1 = .ok x ∨
        ((compilePath path).run.run a).1 = .error .unwritable) := by
  obtain ⟨r, delivered, hrun, hr⟩ := exists_run_submit Registry.rulesName .debug
    "Path check cache hit" [("pattern", .text path)] { a with cache := some (c.get path).1 }
  have hreport : (report "Path check cache hit" [("pattern", .text path)]).run.run
      { a with cache := some (c.get path).1 } =
        (r, { a with cache := some (c.get path).1, delivered }) := hrun
  rw [compilePath, run_bind_of_ok (run_compileCache hc)]
  dsimp only
  rw [run_liftM_bind, hfound]
  rcases hr with rfl | ⟨rfl, -⟩
  · rw [show (setCache (some (c.get path).1)).run a = ((), { a with cache := some (c.get path).1 })
      from rfl, run_bind_of_ok hreport]
    exact ⟨rfl, Or.inl rfl⟩
  · rw [show (setCache (some (c.get path).1)).run a = ((), { a with cache := some (c.get path).1 })
      from rfl, run_bind_of_error hreport]
    exact ⟨rfl, Or.inr rfl⟩

theorem run_compilePath_fault {f : Failure} (hmiss : (c.get path).2 = none)
    (hpath : Assertion.ofPath path = .error f) :
    (compilePath path).run.run a = (.error f, { a with cache := some (c.get path).1 }) := by
  rw [compilePath, run_bind_of_ok (run_compileCache hc)]
  dsimp only
  rw [run_liftM_bind, hmiss, hpath]
  rfl

/-- A new assertion is the result and is stored, unless the message about it fails. -/
theorem run_compilePath_new {tree : Assertion} (hmiss : (c.get path).2 = none)
    (hpath : Assertion.ofPath path = .ok tree)
    (hset : ((c.get path).1.set path ⟨a.nextNumber, tree⟩).2 = .ok ()) :
    ((compilePath path).run.run a).1 = .ok ⟨a.nextNumber, tree⟩ ∧
        ((compilePath path).run.run a).2.cache =
          some ((c.get path).1.set path ⟨a.nextNumber, tree⟩).1 ∨
      ((compilePath path).run.run a).1 = .error .unwritable ∧
        ((compilePath path).run.run a).2.cache = some (c.get path).1 := by
  let b : Ambient := { a with cache := some (c.get path).1, nextNumber := a.nextNumber + 1 }
  obtain ⟨r, delivered, hrun, hr⟩ := exists_run_submit Registry.rulesName .debug
    "Compiled path check" [("pattern", .text path), ("type", .text tree.typeName)] b
  have hreport : (report "Compiled path check"
      [("pattern", .text path), ("type", .text tree.typeName)]).run.run b =
        (r, { b with delivered }) := hrun
  have hnew : (newCompiled tree).run { a with cache := some (c.get path).1 } =
      (⟨a.nextNumber, tree⟩, b) := rfl
  rw [compilePath, run_bind_of_ok (run_compileCache hc)]
  dsimp only
  rw [run_liftM_bind, hmiss, hpath]
  dsimp only
  rw [run_ofExcept_bind_ok rfl, run_liftM_bind,
    show (setCache (some (c.get path).1)).run a = ((), { a with cache := some (c.get path).1 })
      from rfl, hnew]
  rcases hr with rfl | ⟨rfl, -⟩
  · rw [run_bind_of_ok hreport, run_liftM_bind, run_ofExcept_bind_ok hset]
    exact Or.inl ⟨rfl, rfl⟩
  · rw [run_bind_of_error hreport]
    exact Or.inr ⟨rfl, rfl⟩

end compilePath

namespace Visit

/-- What a visit does with a cache: it finds its path check there, it fails, or a new assertion is
made and stored. -/
inductive Uses (v : Visit) (c : Lru String Compiled) : Lru String Compiled → Prop
  | hit {e : String × Compiled} (hfind : c.find? v.path = some e) (hfound : v.found? = some e.2)
      (hresult : v.result = .ok e.2 ∨ v.result = .error .unwritable) : Uses v c (c.get v.path).1
  | fault {f : Failure} (hfind : c.find? v.path = none) (hfound : v.found? = none)
      (hresult : v.result = .error f) : Uses v c (c.get v.path).1
  | new {x : Compiled} (hfind : c.find? v.path = none) (hfound : v.found? = none)
      (hresult : v.result = .ok x) : Uses v c ((c.get v.path).1.set v.path x).1

variable {v : Visit} {c c' : Lru String Compiled}

theorem exists_uses (hc : v.before.cache = some c) (he : c.settings.isEnabled = true)
    (hsound : c.Sound) : ∃ c', v.after.cache = some c' ∧ v.Uses c c' := by
  have hfound : v.found? = (c.get v.path).2 := by
    rw [found?, hc]
    rfl
  cases hfind : c.find? v.path with
  | some e =>
    have hget : (c.get v.path).2 = some e.2 := by rw [Lru.get_of_find?_eq_some he hfind]
    obtain ⟨hafter, hresult⟩ := run_compilePath_hit hc hget
    exact ⟨_, hafter, .hit hfind (hfound.trans hget) hresult⟩
  | none =>
    have hmiss : (c.get v.path).2 = none := by rw [Lru.get_of_find?_eq_none hfind]
    have hfound := hfound.trans hmiss
    cases hpath : Assertion.ofPath v.path with
    | error f =>
      have hrun := run_compilePath_fault hc hmiss hpath
      refine ⟨(c.get v.path).1, ?_, .fault (f := f) hfind hfound ?_⟩
      · rw [after, hrun]
      · rw [result, hrun]
    | ok tree =>
      have hset := ((hsound.get v.path).1.set (v := ⟨v.before.nextNumber, tree⟩) hpath).2
      rcases run_compilePath_new hc hmiss hpath hset with ⟨hresult, hafter⟩ | ⟨hresult, hafter⟩
      · exact ⟨_, hafter, .new hfind hfound hresult⟩
      · exact ⟨_, hafter, .fault hfind hfound hresult⟩

/-- The entry that a visit puts to use: the one that is found, or else the new one. -/
def touch? (v : Visit) : Option (String × Compiled) :=
  (v.found?.or v.result.toOption).map (v.path, ·)

end Visit

def touched (vs : List Visit) : List (String × Compiled) := (vs.filterMap Visit.touch?).reverse

def succeeded (vs : List Visit) : List String := (vs.filter Visit.succeeds).map (·.path)

/-- The last `n` distinct elements of a list in order of their last occurrence. -/
def lastDistinct {α : Type} [BEq α] (n : Nat) (l : List α) : List α :=
  (l.reverse.eraseDups.take n).reverse

theorem touched_concat (vs : List Visit) (v : Visit) :
    touched (vs ++ [v]) = v.touch?.toList ++ touched vs := by
  unfold touched
  rw [List.filterMap_append, List.reverse_append]
  cases h : v.touch? <;> simp [h]

/-- Keys of what was put to use. -/
theorem map_fst_touched (vs : List Visit) : (touched vs).map (·.1) = (succeeded vs).reverse := by
  unfold touched succeeded
  rw [List.map_reverse]
  refine congrArg List.reverse ?_
  induction vs with
  | nil => rfl
  | cons v vs ih =>
    cases hfound : v.found? <;> cases h : v.result <;>
      simp [Visit.touch?, Visit.succeeds, hfound, h, Except.toOption, Except.isOk, Except.toBool, ih]

/-- An element is among the first distinct ones if fewer others come before it. -/
theorem mem_take_eraseDups {α : Type} [DecidableEq α] {p : α} {n : Nat} (l r : List α)
    (h : (l.toFinset.erase p).card < n) : p ∈ (l ++ p :: r).eraseDups.take n := by
  obtain ⟨m, rfl⟩ : ∃ m, n = m + 1 := ⟨n - 1, by omega⟩
  induction l using eraseDupsBy_induction (r := fun a b : α => a == b) generalizing r m with
  | nil =>
    rw [List.nil_append, List.eraseDups_cons, List.take_succ_cons]
    exact List.mem_cons_self
  | cons a l ih =>
    rw [List.cons_append, List.eraseDups_cons, List.take_succ_cons]
    by_cases hap : a = p
    · rw [hap]
      exact List.mem_cons_self
    · have hkept : (!p == a) = true := by simpa using Ne.symm hap
      have hmem : a ∈ (a :: l).toFinset.erase p := by simp [hap]
      have hothers : ((l.filter (!· == a)).toFinset.erase p) =
          ((a :: l).toFinset.erase p).erase a := by
        ext b
        simp only [Finset.mem_erase, List.mem_toFinset, List.mem_filter, List.mem_cons,
          Bool.not_eq_true', beq_eq_false_iff_ne]
        tauto
      have hcard := Finset.card_erase_of_mem hmem
      have hpos := Finset.card_pos.mpr ⟨a, hmem⟩
      obtain ⟨k, rfl⟩ : ∃ k, m = k + 1 := ⟨m - 1, by omega⟩
      simp only [Bool.decide_eq_false, hothers] at ih
      rw [List.filter_append, List.filter_cons_of_pos (p := (!· == a)) hkept]
      exact List.mem_cons_of_mem a (ih _ k (by omega))

theorem mem_lastDistinct {α : Type} [DecidableEq α] {p : α} {n : Nat} (l r : List α)
    (h : (r.toFinset.erase p).card < n) : p ∈ lastDistinct n (l ++ p :: r) := by
  unfold lastDistinct
  rw [List.mem_reverse, List.reverse_append, List.reverse_cons, List.append_assoc]
  refine mem_take_eraseDups r.reverse l.reverse ?_
  rw [List.toFinset_reverse]
  exact h

namespace Visit.Uses
variable {n : Nat} {c c' : Lru String Compiled} {v : Visit} (hu : v.Uses c c')
include hu

/-- The result of a visit is the entry that it puts to use. -/
theorem touch?_of_ok {x : Compiled} (hx : v.result = .ok x) : v.touch? = some (v.path, x) := by
  unfold touch?
  cases hu with
  | hit hfind hfound hresult =>
    have heq := hresult.resolve_right (fun h => nomatch hx.symm.trans h)
    rw [hfound, Except.ok.inj (hx.symm.trans heq)]
    rfl
  | fault hfind hfound | new hfind hfound =>
    rw [hfound, hx]
    rfl

theorem tracks {vs : List Visit} {sets : List (String × Compiled)}
    (ht : Tracks n c ⟨touched vs, sets⟩) (hn : 0 < n) :
    ∃ sets, Tracks n c' ⟨touched (vs ++ [v]), sets⟩ := by
  have hget := (ht.get v.path).1
  rw [touched_concat, touch?]
  cases hu with
  | hit hfind hfound =>
    have hkey := eq_of_beq (ht.mem_of_find? hfind).2
    rw [ht.history_get_of_some hfind] at hget
    rw [hfound]
    refine ⟨sets, ?_⟩
    rw [← hkey] at hget ⊢
    exact hget
  | fault hfind hfound hresult =>
    rw [ht.history_get_of_none hfind] at hget
    rw [hfound, hresult]
    exact ⟨sets, hget⟩
  | new hfind hfound hresult =>
    rw [ht.history_get_of_none hfind] at hget
    rw [hfound, hresult]
    exact ⟨_, (hget.set hn v.path _).1⟩

section limit
variable (he : c.settings.isEnabled = true) (hlimit : c.settings.HasLimit n) (hn : 0 < n)
include he hlimit hn

theorem hits_add_misses : c'.hits + c'.misses = c.hits + c.misses + 1 := by
  have hget := c.hits_add_misses_get v.path
  have hsettings := c.settings_get v.path
  cases hu with
  | hit | fault => exact hget
  | new =>
    rw [Lru.set_eq (hsettings ▸ he) (hsettings ▸ hlimit) hn]
    exact hget

theorem evictions_add_size :
    c'.evictions + c'.size = c.evictions + c.size + v.compiles.toNat := by
  have hevictions := c.evictions_get v.path
  have hsize := c.size_get v.path
  have hsettings := c.settings_get v.path
  unfold compiles
  cases hu with
  | hit _ hfound =>
    rw [hfound, hevictions, hsize]
    rfl
  | fault _ hfound hresult =>
    rw [hfound, hresult, hevictions, hsize]
    rfl
  | new hfind hfound hresult =>
    have habsent : (c.get v.path).1.has v.path = false := by
      rw [Lru.get_of_find?_eq_none hfind]
      exact Lru.has_of_find?_eq_none hfind
    rw [Lru.evictions_add_size_set (hsettings ▸ he) (hsettings ▸ hlimit) hn, hevictions, hsize,
      habsent, hfound, hresult]
    rfl

end limit

/-- A visit does not change the assertion of a path check that was in the cache. -/
theorem find?_unique (hd : c.Distinct) (hlimit : c.settings.HasLimit n) (hn : 0 < n) {p : String}
    {e e' : String × Compiled} (hfind : c.find? p = some e) (hfind' : c'.find? p = some e') :
    e' = e := by
  have hmem := Lru.mem_of_find? hfind'
  have hkey := Lru.beq_of_find? hfind'
  have hold : e' ∈ c.entries → e' = e := fun hmem =>
    Option.some.inj ((hd.find?_of_mem hmem hkey).symm.trans hfind)
  have hsettings := c.settings_get v.path
  cases hu with
  | hit | fault => exact hold (Lru.mem_of_mem_get hmem)
  | new hnone =>
    rcases Lru.mem_of_mem_set (hsettings ▸ hlimit) hn hmem with hmem | rfl
    · exact hold (Lru.mem_of_mem_get hmem)
    · -- The path check is not that of the visit, which is not in the cache.
      rw [show v.path = p from eq_of_beq hkey, hfind] at hnone
      cases hnone

end Visit.Uses

structure Books (n : Nat) (c : Lru String Compiled) (vs : List Visit) : Prop where
  sound : c.Sound
  tracks : ∃ sets, Tracks n c ⟨touched vs, sets⟩
  looked : c.hits + c.misses = vs.length
  stored : c.evictions + c.size = vs.countP Visit.compiles

namespace Books
variable {n : Nat} {c : Lru String Compiled} {vs : List Visit}

theorem step (hb : Books n c vs) (hn : 0 < n) {v : Visit} (hc : v.before.cache = some c) :
    ∃ c', v.after.cache = some c' ∧ v.Uses c c' ∧ Books n c' (vs ++ [v]) := by
  obtain ⟨hsound, ⟨sets, htracks⟩, hlooked, hstored⟩ := hb
  have hcoherent : v.after.Coherent := KeepsCoherent.of_ensures (ensures_compilePath v.path) v.before
    fun _ h => Option.some.inj (hc.symm.trans h) ▸ hsound
  obtain ⟨c', hafter, huses⟩ := Visit.exists_uses hc htracks.enabled hsound
  have hlookups := huses.hits_add_misses htracks.enabled htracks.limit hn
  have hentries := huses.evictions_add_size htracks.enabled htracks.limit hn
  refine ⟨c', hafter, huses, hcoherent c' hafter, huses.tracks htracks hn, ?_, ?_⟩
  · rw [List.length_append, hlookups, hlooked]
    rfl
  · rw [List.countP_append, hentries, hstored, List.countP_singleton]
    cases v.compiles <;> rfl

/-- Visits one after another, from a cache in use on. -/
theorem run (hb : Books n c vs) (hn : 0 < n) {ws : List Visit} {last : Option (Lru String Compiled)}
    (ht : Trail (some c) ws last) : ∃ c', last = some c' ∧ Books n c' (vs ++ ws) := by
  induction ws generalizing c vs with
  | nil =>
    rw [ht.eq_of_nil, List.append_nil]
    exact ⟨c, rfl, hb⟩
  | cons w ws ih =>
    obtain ⟨hbefore, hrest⟩ := ht.visit_inv
    obtain ⟨c', hafter, -, hb'⟩ := hb.step hn hbefore.symm
    rw [hafter] at hrest
    obtain ⟨last, hlast, hb⟩ := ih hb' hrest
    rw [List.append_assoc] at hb
    exact ⟨last, hlast, hb⟩

/-- The keys are the last path checks that succeeded. -/
theorem keys_eq (hb : Books n c vs) : c.keys = lastDistinct n (succeeded vs) := by
  obtain ⟨sets, ht⟩ := hb.tracks
  rw [Lru.keys, ht.entries, History.recent, List.map_reverse, List.map_take,
    History.map_fst_distinct, map_fst_touched]
  rfl

theorem distinct (hb : Books n c vs) : c.Distinct := by
  obtain ⟨sets, ht⟩ := hb.tracks
  exact Lru.distinct_of_tracks ht

/-- The path check that was put to use last is in the cache. -/
theorem find?_of_touch? {v : Visit} (hb : Books n c (vs ++ [v])) (hn : 0 < n) {x : Compiled}
    (hx : v.touch? = some (v.path, x)) : c.find? v.path = some (v.path, x) := by
  have hd := hb.distinct
  obtain ⟨sets, ht⟩ := hb.tracks
  obtain ⟨m, rfl⟩ : ∃ m, n = m + 1 := ⟨n - 1, by omega⟩
  have htouched : touched (vs ++ [v]) = (v.path, x) :: touched vs := by
    rw [touched_concat, hx]
    rfl
  refine hd.find?_of_mem ?_ (beq_self_eq_true v.path)
  rw [ht.entries, History.recent, List.mem_reverse, History.distinct, htouched,
    List.eraseDupsBy_cons, List.take_succ_cons]
  exact List.mem_cons_self

/-- A path check that succeeded is in the cache until as many others as it has room for succeed. -/
theorem exists_find?_of_few {v : Visit} {m : List Visit} (hb : Books n c (vs ++ v :: m))
    {x : Compiled} (hx : v.result = .ok x)
    (hfew : ((succeeded m).toFinset.erase v.path).card < n) : ∃ e, c.find? v.path = some e := by
  have hsucceeds : v.succeeds = true := by
    rw [Visit.succeeds, hx]
    exact Bool.or_true _
  have hsucceeded : succeeded (vs ++ v :: m) = succeeded vs ++ v.path :: succeeded m := by
    simp [succeeded, hsucceeds]
  have hmem : v.path ∈ c.keys := by
    rw [hb.keys_eq, hsucceeded]
    exact mem_lastDistinct _ _ hfew
  obtain ⟨e, he, hkey⟩ := List.mem_map.mp hmem
  exact ⟨e, hb.distinct.find?_of_mem he (beq_of_eq hkey)⟩

/-- Until then it has the same assertion. -/
theorem find?_of_few (hb : Books n c vs) (hn : 0 < n) {v : Visit} {m : List Visit}
    {last : Option (Lru String Compiled)} (ht : Trail (some c) (v :: m) last) {x : Compiled}
    (hx : v.result = .ok x) (hfew : ((succeeded m).toFinset.erase v.path).card < n) :
    ∃ c', last = some c' ∧ Books n c' (vs ++ v :: m) ∧ c'.find? v.path = some (v.path, x) := by
  -- Along the visits that follow, the key stays and no visit changes the entry of a key that stays.
  induction m using List.reverseRecOn generalizing last with
  | nil =>
    obtain ⟨hbefore, hafter⟩ := ht.visit_inv
    obtain ⟨c', hc', huses, hb'⟩ := hb.step hn hbefore.symm
    exact ⟨c', hafter.eq_of_nil.trans hc', hb', hb'.find?_of_touch? hn (huses.touch?_of_ok hx)⟩
  | append_singleton m w ih =>
    have hfewer : ((succeeded m).toFinset.erase v.path).card < n := by
      refine Nat.lt_of_le_of_lt (Finset.card_le_card (Finset.erase_subset_erase _ ?_)) hfew
      rw [succeeded, succeeded, List.filter_append, List.map_append, List.toFinset_append]
      exact Finset.subset_union_left
    obtain ⟨middle, hm, hw⟩ := ht.split (v :: m)
    obtain ⟨c₁, rfl, hb₁, hfind₁⟩ := ih hm hfewer
    obtain ⟨hbefore, hafter⟩ := hw.visit_inv
    obtain ⟨c₂, hc₂, huses, hb₂⟩ := hb₁.step hn hbefore.symm
    rw [List.append_assoc] at hb₂
    obtain ⟨e, hfind₂⟩ := hb₂.exists_find?_of_few hx hfew
    obtain ⟨sets, htracks⟩ := hb₁.tracks
    have hsame := huses.find?_unique hb₁.distinct htracks.limit hn hfind₁ hfind₂
    exact ⟨c₂, hafter.eq_of_nil.trans hc₂, hb₂, hsame ▸ hfind₂⟩

/-- A visit to a path check that is in the cache has the assertion from there, unless it fails
because of a message. -/
theorem result_of_find? (hb : Books n c vs) (hn : 0 < n) {v : Visit} (hc : v.before.cache = some c)
    {e : String × Compiled} (hfind : c.find? v.path = some e) :
    v.result = .ok e.2 ∨ v.result = .error .unwritable := by
  obtain ⟨c', -, huses, -⟩ := hb.step hn hc
  cases huses with
  | hit hfind' _ hresult =>
    rw [hfind] at hfind'
    cases hfind'
    exact hresult
  | fault hnone | new hnone =>
    rw [hfind] at hnone
    cases hnone

/-- A path check that cannot be compiled is no key. -/
theorem not_mem_keys (hb : Books n c vs) {path : String} {f : Failure}
    (hpath : Assertion.ofPath path = .error f) : path ∉ c.keys := by
  intro hmem
  obtain ⟨e, he, hkey⟩ := List.mem_map.mp hmem
  have hok := hb.sound.entries e he
  rw [hkey, hpath] at hok
  cases hok

end Books

/-- A new cache that compiles checks one call after another. Its look-ups are the path checks that
are reached, its keys are the last of them that succeeded, without repetitions, and its evictions
are the compilations that it no longer holds. A path check that fails is never a key, and one that
is reached again, with fewer than `n` others succeeding in between, has the assertion that it
had. Only where a message cannot be written a call may end before it has reached what it would reach,
and what is in the cache may fail. -/
theorem performAll_accounts {n : Nat} (hn : 0 < n) (a : Ambient) (calls : List Call) :
    ∃ new, Lru.new ⟨.int n, .bool true⟩ = .ok new ∧
      let start := { a with cache := some new }
      let vs := visitsOf start calls
      let writes := start.Writes .debug (∀ call ∈ calls, call.check.canReport = true)
      (vs.map (·.path) = calls.flatMap Call.paths ∨ ¬ writes) ∧
      ∃ c, (performAll start calls).cache = some c ∧
        c.hits + c.misses = vs.length ∧
        c.keys = lastDistinct n (succeeded vs) ∧
        c.evictions + c.size = vs.countP Visit.compiles ∧
        (∀ v ∈ vs, ∀ f, v.result = .error f → v.path ∉ c.keys ∨ ¬ writes ∧ f = .unwritable) ∧
        ∀ l v m w r x, vs = l ++ v :: (m ++ w :: r) → v.result = .ok x → w.path = v.path →
          ((succeeded m).toFinset.erase v.path).card < n →
          w.result = .ok x ∨ ¬ writes ∧ w.result = .error .unwritable := by
  have hlimit : (⟨.int n, .bool true⟩ : CacheSettings).HasLimit n := CacheSettings.hasLimit_int n _
  have hsound : (Lru.empty ⟨.int n, .bool true⟩ : Lru String Compiled).Sound :=
    Lru.Sound.empty ⟨n, hn, hlimit⟩
  have hbooks : Books n (Lru.empty ⟨.int n, .bool true⟩) [] :=
    ⟨hsound, ⟨[], .empty rfl hlimit⟩, rfl, rfl⟩
  refine ⟨_, Lru.new_int hn, ?_⟩
  intro start vs writes
  have hstart : start.Coherent := fun c hc => Option.some.inj hc ▸ hsound
  obtain ⟨hfit, hpaths⟩ := reaches_visitsOf
    (hstart.fit .debug (∀ call ∈ calls, call.check.canReport = true)) calls id
  have htrail : Trail start.cache vs (performAll start calls).cache := trail_visitsOf start calls
  obtain ⟨c, hc, hend⟩ := hbooks.run hn htrail
  have hresult : ∀ v ∈ vs, v.result.map (·.assertion) = Assertion.ofPath v.path ∨
      ¬ writes ∧ v.result = .error .unwritable :=
    fun v hv => (ensures_compilePath v.path v.before (hfit v hv)).1
  refine ⟨hpaths, c, hc, hend.looked, hend.keys_eq, hend.stored, ?_, ?_⟩
  · intro v hv f hf
    rcases hresult v hv with hpath | ⟨hmay, hfails⟩
    · rw [hf] at hpath
      exact Or.inl (hend.not_mem_keys hpath.symm)
    · exact Or.inr ⟨hmay, Except.error.inj (hf.symm.trans hfails)⟩
  · intro l v m w r x hvs hx hpath hfew
    have hw : w ∈ vs := by
      rw [hvs]
      simp
    rw [hvs] at htrail
    obtain ⟨middle, hl, hrest⟩ := htrail.split l
    obtain ⟨c₁, rfl, hb₁⟩ := hbooks.run hn hl
    obtain ⟨middle, hm, hr⟩ := hrest.split (v :: m)
    obtain ⟨c₂, rfl, hb₂, hfind⟩ := hb₁.find?_of_few hn hm hx hfew
    rw [← hpath] at hfind
    rcases hb₂.result_of_find? hn hr.visit_inv.1.symm hfind with hsame | hfails
    · exact Or.inl hsame
    · refine (hresult w hw).elim (fun hread => ?_) Or.inr
      -- A path check in the cache can be read, so only a message can fail.
      have hread' := hb₂.sound.entries _ (Lru.mem_of_find? hfind)
      rw [hfails] at hread
      exact absurd (hread.trans hread') nofun

/-- Two of three calls fail, the strict one before it reaches anything. In a cache of two entries
the name outlasts the pattern. -/
theorem performAll_accounts_reached_again :
    let calls : List Call :=
      [⟨.list [.text "a", .tuple [.int 3, .text "b"]], false⟩, ⟨.list [.text "b", .int 3], true⟩,
        ⟨.tuple [.list [.text "*.md"], .text "a"], true⟩]
    0 < 2 ∧ ∃ new, Lru.new ⟨.int 2, .bool true⟩ = .ok new ∧
      ∃ u v w, visitsOf { Ambient.initial with cache := some new } calls = [u, v, w] ∧
        [u.path, v.path, w.path] = ["a", "*.md", "a"] ∧
        (∀ x, u.result = .ok x → w.result = .ok x) ∧
        ∃ c, (performAll { Ambient.initial with cache := some new } calls).cache = some c ∧
          c.hits + c.misses = 3 := by
  intro calls
  obtain ⟨new, hnew, hpaths, c, hc, hlookups, -, -, -, hsame⟩ :=
    performAll_accounts (n := 2) (by decide) Ambient.initial calls
  have hquiet : Registry.initial.passes Registry.rulesName Severity.debug.rank = false := by
    decide +kernel
  have hwrites : ({ Ambient.initial with cache := some new } : Ambient).Writes .debug
      (∀ call ∈ calls, call.check.canReport = true) :=
    ⟨fun hpasses => absurd (hquiet.symm.trans hpasses) nofun, nofun⟩
  have hreached : calls.flatMap Call.paths = ["a", "*.md", "a"] := by decide +kernel
  obtain ⟨u, vs, hvs, hu, hpaths⟩ := List.map_eq_cons_iff.mp
    ((hpaths.resolve_right (not_not_intro hwrites)).trans hreached)
  obtain ⟨v, vs, rfl, hv, hpaths⟩ := List.map_eq_cons_iff.mp hpaths
  obtain ⟨w, vs, rfl, hw, hpaths⟩ := List.map_eq_cons_iff.mp hpaths
  obtain rfl := List.map_eq_nil_iff.mp hpaths
  have hfew : ((succeeded [v]).toFinset.erase u.path).card < 2 := by
    have herase := (succeeded [v]).toFinset.card_erase_le (a := u.path)
    have hdistinct := (succeeded [v]).toFinset_card_le
    have hlength : (succeeded [v]).length ≤ 1 := by
      rw [succeeded, List.length_map]
      exact List.length_filter_le _ _
    omega
  refine ⟨by decide, new, hnew, u, v, w, hvs, by rw [hu, hv, hw], fun x hx => ?_, c, hc, ?_⟩
  · exact (hsame [] u [v] w [] x hvs hx (hw.trans hu.symm) hfew).resolve_right
      fun hfails => hfails.1 hwrites
  · rw [hlookups, hvs]
    rfl

end FileChecks
