import FileChecks.Proofs.Compile.CacheUse
import Mathlib.Logic.Relation

/-!
The compile cache from the time when it is built. It is built whatever the configuration holds,
unless that cannot be told, and from then on it is only used, until another one is put in its place.
-/
namespace FileChecks
open Relation (ReflTransGen)
variable {α β : Type} {a b : Ambient} {c : Lru String Compiled}

/-! Building the cache. -/

/-- Whether a warning about settings can be written: it can be told what is wrong with them, and the
contexts in force can be written if the warning passes. -/
def Ambient.CanWarn (a : Ambient) (fault : ConfigFault) : Prop :=
  (Failure.config fault).isWritable = true ∧
    (a.registry.passes Registry.cacheName Severity.warning.rank = true →
      (a.registry.contextOf [("error", .text fault.message)]).isWritable = true)

/-- Settings that are not as they should be are warned of, or the warning fails and ends the run. -/
theorem run_compileCache_of_raised (hnone : a.cache = none) {ref : ConfigRef}
    (hglobal : globalConfig.run a = (ref, b)) {fault : ConfigFault}
    (hs : (b.config ref).cacheSettings = .error (Failure.config fault).raised) :
    b.CanWarn fault ∧
        (∃ delivered,
          (warnOfSettings fault).run.run b = (.ok (), { b with delivered }) ∧
          compileCache.run.run a =
            (.ok (Lru.empty {}), { b with delivered, cache := some (Lru.empty {}) })) ∨
      ¬ b.CanWarn fault ∧ compileCache.run.run a = (.error .unwritable, b) := by
  rcases (Failure.config fault).raised_cases with ⟨htold, hraised⟩ | ⟨htold, hraised⟩
  · rw [hraised] at hs
    have hwarn := run_submit_cases Registry.cacheName .warning
      "Invalid cache configuration, using defaults" [("error", .text fault.message)] b
    rw [run_compileCache_of_fault hnone hglobal hs]
    rcases hwarn with ⟨delivered, hrun, hwrites⟩ | ⟨hrun, hpasses, hfails⟩
    · refine Or.inl ⟨⟨htold, hwrites⟩, delivered, hrun, ?_⟩
      rw [run_bind_of_ok (m := warnOfSettings fault) hrun]
      rfl
    · refine Or.inr ⟨fun hcan => ?_, run_bind_of_error (m := warnOfSettings fault) hrun⟩
      exact absurd ((hcan.2 hpasses).symm.trans hfails) nofun
  · rw [hraised] at hs
    refine Or.inr ⟨fun hcan => ?_, run_compileCache_of_unwritable hnone hglobal hs⟩
    exact absurd (hcan.1.symm.trans htold) nofun

/-- The cache that callers get is the one in use from then on. -/
theorem cache_of_run_compileCache (h : compileCache.run.run a = (.ok c, b)) : b.cache = some c := by
  cases hcache : a.cache with
  | some found =>
    obtain ⟨hc, rfl⟩ := Prod.mk.inj ((run_compileCache hcache).symm.trans h)
    rw [hcache, Except.ok.inj hc]
  | none =>
    obtain ⟨ref, configs, hglobal, -⟩ := exists_run_globalConfig a
    rw [run_compileCache_of_none hcache hglobal] at h
    rcases hrun : (settingsOrDefaults
      (Ambient.config { a with configs, globalConfig := some ref } ref).cacheSettings).run.run
      { a with configs, globalConfig := some ref } with ⟨f | settings, after⟩
    · rw [run_bind_of_error hrun] at h
      cases (Prod.mk.inj h).1
    · rw [run_bind_of_ok hrun] at h
      obtain ⟨hc, rfl⟩ := Prod.mk.inj h
      exact congrArg some (Except.ok.inj hc)

/-! Using the cache. -/

/-- What is done with a cache: something is looked up or set in it, or it is cleared. -/
inductive Lru.Use : Lru String Compiled → Lru String Compiled → Prop
  | get (c : Lru String Compiled) (path : String) : Use c (c.get path).1
  | set (c : Lru String Compiled) (path : String) (v : Compiled) : Use c (c.set path v).1
  | clear (c : Lru String Compiled) : Use c c.clear

/-- A cache that is there stays, and is only used. -/
def Kept (first last : Option (Lru String Compiled)) : Prop :=
  ∀ c, first = some c → ∃ c', last = some c' ∧ ReflTransGen Lru.Use c c'

namespace Kept
variable {first middle last : Option (Lru String Compiled)}

theorem of_eq (h : last = first) : Kept first last := fun c hc => ⟨c, h.trans hc, .refl⟩

theorem trans (h : Kept first middle) (h' : Kept middle last) : Kept first last := by
  intro c hc
  obtain ⟨c', hc', huse⟩ := h c hc
  obtain ⟨c'', hc'', huse'⟩ := h' c' hc'
  exact ⟨c'', hc'', huse.trans huse'⟩

end Kept

def OnlyUses (m : Run α) : Prop := ∀ a : Ambient, Kept a.cache (m.run.run a).2.cache

namespace OnlyUses

theorem of_cache_eq {m : Run α} (h : ∀ a : Ambient, (m.run.run a).2.cache = a.cache) : OnlyUses m :=
  fun a => .of_eq (h a)

theorem ofExcept (r : Except Failure α) : OnlyUses (Run.ofExcept r) := of_cache_eq fun _ => rfl

/-- A run goes on after a run that succeeds, and ends with one that fails. -/
theorem seq {m : Run α} {k : α → Run β} (hm : OnlyUses m) (hk : ∀ x, OnlyUses (k x)) :
    OnlyUses (m >>= k) := by
  intro a
  have hfirst := hm a
  rcases hrun : m.run.run a with ⟨f | x, b⟩
  · rw [hrun] at hfirst
    rw [run_bind_of_error hrun]
    exact hfirst
  · rw [hrun] at hfirst
    rw [run_bind_of_ok hrun]
    exact hfirst.trans (hk x b)

theorem compileCache : OnlyUses compileCache := by
  intro a c hc
  rw [run_compileCache hc]
  exact Kept.of_eq rfl c hc

theorem report (text : String) (own : Context) (severity : Severity) :
    OnlyUses (report text own severity) := of_cache_eq (cache_report text own severity)

/-- Compiling a path check looks it up, and may then set it. -/
theorem compilePath (path : String) : OnlyUses (compilePath path) := by
  intro a c hc
  rw [FileChecks.compilePath, run_bind_of_ok (run_compileCache hc)]
  dsimp only
  rw [run_liftM_bind]
  have hget : ReflTransGen Lru.Use c (c.get path).1 := .single (.get c path)
  have hrest {m : Run Compiled} (hm : OnlyUses m) {b : Ambient}
      (hb : b.cache = some (c.get path).1) :
      ∃ c', (m.run.run b).2.cache = some c' ∧ ReflTransGen Lru.Use c c' := by
    obtain ⟨c', hc', huse⟩ := hm b _ hb
    exact ⟨c', hc', hget.trans huse⟩
  cases (c.get path).2 with
  | some x => exact hrest (seq (report _ _ _) fun _ => ofExcept (.ok x)) rfl
  | none =>
    cases Assertion.ofPath path with
    | error f => exact ⟨_, rfl, hget⟩
    | ok tree =>
      let b : Ambient := { a with cache := some (c.get path).1, nextNumber := a.nextNumber + 1 }
      have hset := Lru.Use.set (c.get path).1 path ⟨a.nextNumber, tree⟩
      change ∃ c', (((do
        FileChecks.report "Compiled path check"
          [("pattern", .text path), ("type", .text tree.typeName)]
        setCache (some ((c.get path).1.set path ⟨a.nextNumber, tree⟩).1)
        Run.ofExcept ((c.get path).1.set path ⟨a.nextNumber, tree⟩).2
        return ⟨a.nextNumber, tree⟩ : Run Compiled)).run.run b).2.cache = some c' ∧ _
      rcases hrun : (FileChecks.report "Compiled path check"
        [("pattern", .text path), ("type", .text tree.typeName)]).run.run b with ⟨f | _, after⟩
      · have hsame := cache_report "Compiled path check"
          [("pattern", .text path), ("type", .text tree.typeName)] .debug b
        rw [hrun] at hsame
        rw [run_bind_of_error hrun]
        exact ⟨_, hsame, hget⟩
      · rw [run_bind_of_ok hrun, run_liftM_bind]
        exact ⟨_, cache_run_bind (Run.ofExcept _) (fun _ _ => rfl) _, hget.tail hset⟩

/-- Compiling uses the cache at its visits only. -/
theorem kept_of_trail {first last : Option (Lru String Compiled)} {vs : List Visit}
    (h : Trail first vs last) : Kept first last := by
  induction h with
  | stay cache => exact .of_eq rfl
  | @visit v vs last rest ih => exact Kept.trans (compilePath v.path v.before) ih

theorem compile (check : Value) (strict : Bool) : OnlyUses (compile check strict) :=
  fun a => kept_of_trail (Call.trail_visits a ⟨check, strict⟩)

theorem matchFile [Predicates] (file check : Value) (strict : Bool) :
    OnlyUses (matchFile file check strict) :=
  seq (compile check strict) fun _ => ofExcept (.ok _)

theorem setLevels (level : Value) : OnlyUses (setLevels level) := of_cache_eq fun _ => rfl

theorem resolve (source : CheckSource) : OnlyUses source.resolve := by
  cases source with
  | config ref | file name => exact of_cache_eq fun _ => rfl
  | checks entries => exact ofExcept _

theorem adapt {f : Failure → Failure} {m : Run α} (hm : OnlyUses m) :
    OnlyUses (ExceptT.adapt f m) := hm

theorem compileNamed (entries : Entries) : OnlyUses (compileNamed entries) := by
  induction entries with
  | nil => exact ofExcept (.ok [])
  | cons entry rest ih =>
    obtain ⟨name, check⟩ := entry
    exact seq (adapt (compile check true)) fun _ => seq ih fun _ => ofExcept (.ok _)

theorem loadChecks (source : CheckSource) : OnlyUses (loadChecks source) := by
  refine seq (resolve source) fun c => ?_
  cases c.checks with
  | map entries =>
    exact seq (compileNamed entries) fun _ => seq (report _ _ _) fun _ => ofExcept (.ok _)
  | _ => exact ofExcept _

theorem getCheck (source : CheckSource) (name : Value) : OnlyUses (getCheck source name) := by
  refine seq (resolve source) fun c => ?_
  cases c.checks with
  | map entries =>
    cases name.unhashable? with
    | some typeName => exact ofExcept _
    | none =>
      dsimp only
      cases Entries.get? entries name with
      | none => exact ofExcept (.ok none)
      | some check => exact seq (compile check true) fun _ => ofExcept (.ok _)
  | _ => exact ofExcept (.ok none)

end OnlyUses

namespace Act

/-- Whether something puts another cache in the place of the one in use. -/
def replacesCache : Act → Bool
  | globalCache _ | applyConfig _ => true
  | _ => false

/-- Whether something uses the cache. All else is about variables, files, configurations, logging
and other caches. -/
def usesCache : Act → Bool
  | lookUp _ | clear | convert _ _ | tryMatch _ _ _ | loadChecks _ | getCheck _ _ => true
  | _ => false

end Act

namespace World
variable [Predicates] {w : World} {act : Act}

theorem kept_perform (h : act.replacesCache = false) :
    Kept w.ambient.cache (w.perform act).ambient.cache := by
  cases act with
  | globalCache | applyConfig => cases h
  | environment | files | configs | logging | globalConfig => exact .of_eq rfl
  | setLevel level => exact OnlyUses.setLevels level w.ambient
  | newCache settings =>
    rw [perform]
    split <;> exact .of_eq rfl
  | buildCache => exact OnlyUses.compileCache w.ambient
  | lookUp path =>
    intro c hc
    refine ⟨(c.get path).1, ?_, .single (.get c path)⟩
    rw [perform, after, run_bind_of_ok (run_compileCache hc)]
    rfl
  | clear =>
    intro c hc
    refine ⟨c.clear, ?_, .single (.clear c)⟩
    rw [perform, after, run_bind_of_ok (run_compileCache hc)]
    rfl
  | convert check strict => exact OnlyUses.compile check strict w.ambient
  | tryMatch file check strict => exact OnlyUses.matchFile file check strict w.ambient
  | loadChecks source => exact OnlyUses.loadChecks source w.ambient
  | getCheck source name => exact OnlyUses.getCheck source name w.ambient

theorem cache_perform (hreplaces : act.replacesCache = false) (huses : act.usesCache = false)
    (hc : w.ambient.cache = some c) : (w.perform act).ambient.cache = some c := by
  cases act with
  | globalCache | applyConfig => cases hreplaces
  | lookUp | clear | convert | tryMatch | loadChecks | getCheck => cases huses
  | environment | files | configs | logging | globalConfig | setLevel => exact hc
  | newCache settings =>
    rw [perform]
    split <;> exact hc
  | buildCache =>
    rw [perform, after, run_compileCache hc]
    exact hc

theorem kept_foldl {acts : List Act} (h : ∀ act ∈ acts, act.replacesCache = false) :
    Kept w.ambient.cache (acts.foldl perform w).ambient.cache := by
  induction acts generalizing w with
  | nil => exact .of_eq rfl
  | cons act acts ih =>
    have hfirst := kept_perform (w := w) (h act List.mem_cons_self)
    exact hfirst.trans (ih fun other hmem => h other (List.mem_cons_of_mem act hmem))

theorem cache_foldl {acts : List Act} (hreplaces : ∀ act ∈ acts, act.replacesCache = false)
    (huses : ∀ act ∈ acts, act.usesCache = false) (hc : w.ambient.cache = some c) :
    (acts.foldl perform w).ambient.cache = some c := by
  induction acts generalizing w with
  | nil => exact hc
  | cons act acts ih =>
    refine ih (fun other hmem => hreplaces other (List.mem_cons_of_mem act hmem))
      (fun other hmem => huses other (List.mem_cons_of_mem act hmem)) ?_
    exact cache_perform (hreplaces act List.mem_cons_self) (huses act List.mem_cons_self) hc

/-- A cache that is not replaced is the one that callers get, and only what they do with it changes
it. -/
theorem exists_kept_foldl {acts : List Act} (h : ∀ act ∈ acts, act.replacesCache = false)
    (hc : w.ambient.cache = some c) :
    ∃ kept, compileCache.run.run (acts.foldl perform w).ambient =
        (.ok kept, (acts.foldl perform w).ambient) ∧
      ReflTransGen Lru.Use c kept ∧ ((∀ act ∈ acts, act.usesCache = false) → kept = c) := by
  obtain ⟨kept, hkept, huse⟩ := kept_foldl h c hc
  refine ⟨kept, run_compileCache hkept, huse, fun hidle => ?_⟩
  exact Option.some.inj (hkept.symm.trans (cache_foldl h hidle hc))

/-- Without a compile cache, one is built, whatever the configuration holds: with the settings of
the configuration if both are as they should be, else with those of a new cache and with one
warning. Only settings that cannot be warned of are a failure, and then none is built. A cache stays
until it is replaced, and if it is not used either, then just as it is. -/
theorem compileCache_of_any_configuration (a : Ambient) (spare : List (Lru String Compiled)) :
    let start := { a with cache := none }
    let c := a.configInForce
    let enabled := c.get Setting.cacheEnabled (.bool true)
    let size := c.get Setting.cacheMaxEntries (.int 256)
    (∃ configs ref,
      let installed := { start with configs, globalConfig := some ref }
      installed.config ref = c ∧
      ((∃ e m, enabled = .bool e ∧ size = .int m ∧ 0 < m ∧
          c.cacheSettings = .ok ⟨.int m, .bool e⟩ ∧
          let built := Lru.empty ⟨.int m, .bool e⟩
          compileCache.run.run start = (.ok built, { installed with cache := some built })) ∨
        (∀ e m, enabled = .bool e → size = .int m → m ≤ 0) ∧
        ∃ fault, ((fault = .cacheSwitch enabled ∧ ∀ e, enabled ≠ .bool e) ∨
            fault = .cacheSize size ∧ ∃ e, enabled = .bool e) ∧
          c.cacheSettings = .error (Failure.config fault).raised ∧
          (a.CanWarn fault ∧
              (∃ delivered,
                (warnOfSettings fault).run.run installed = (.ok (), { installed with delivered }) ∧
                let built := Lru.empty ⟨.int 256, .bool true⟩
                compileCache.run.run start =
                  (.ok built, { installed with delivered, cache := some built })) ∨
            ¬ a.CanWarn fault ∧ compileCache.run.run start = (.error .unwritable, installed)))) ∧
    ∀ built after, compileCache.run.run start = (.ok built, after) →
      ∀ acts : List Act, (∀ act ∈ acts, act.replacesCache = false) →
        let w := acts.foldl perform ⟨after, spare⟩
        ∃ kept, compileCache.run.run w.ambient = (.ok kept, w.ambient) ∧
          ReflTransGen Lru.Use built kept ∧
          ((∀ act ∈ acts, act.usesCache = false) → kept = built) := by
  intro start c enabled size
  obtain ⟨ref, configs, hglobal, hconfig⟩ := exists_run_globalConfig start
  have hforce : start.configInForce = c := rfl
  have hsettings := congrArg Config.cacheSettings (hconfig.trans hforce)
  have hfault (fault : ConfigFault) (hs : c.cacheSettings = .error (Failure.config fault).raised) :=
    run_compileCache_of_raised rfl hglobal (hsettings.trans hs)
  constructor
  · refine ⟨configs, ref, hconfig, ?_⟩
    rcases c.cacheSettings_cases with ⟨e, m, he, hm, hpositive, hs⟩ | ⟨he, hs⟩ | ⟨he, hm, hs⟩
    · exact Or.inl ⟨e, m, he, hm, hpositive, hs,
        run_compileCache_of_settings rfl hglobal (hsettings.trans hs)⟩
    · have hbad : ∀ e m, enabled = .bool e → size = .int m → m ≤ 0 := fun e _ h => absurd h (he e)
      exact Or.inr ⟨hbad, _, Or.inl ⟨rfl, he⟩, hs, hfault _ hs⟩
    · have hbad : ∀ e m, enabled = .bool e → size = .int m → m ≤ 0 := fun _ m _ => hm m
      exact Or.inr ⟨hbad, _, Or.inr ⟨rfl, he⟩, hs, hfault _ hs⟩
  · intro built after hrun acts hacts
    exact exists_kept_foldl (w := ⟨after, spare⟩) hacts (cache_of_run_compileCache hrun)

end World

/-- A size that is too long a number cannot be warned of, and no cache is built. -/
theorem World.compileCache_of_any_configuration_long_size :
    let c := (Config.initial.assign Setting.cacheMaxEntries (.int (-Numeral.tooLong)) .override).2
    let a := { Ambient.initial with configs := [c], globalConfig := some 0 }
    ∃ after, compileCache.run.run a = (.error .unwritable, after) ∧ after.cache = none := by
  intro c a
  have hsettings (i : Int) :
      let c := (Config.initial.assign Setting.cacheMaxEntries (.int i) .override).2
      c.get Setting.cacheMaxEntries (.int 256) = .int i ∧
        c.get Setting.cacheEnabled (.bool true) = .bool true :=
    ⟨by with_unfolding_all rfl, by with_unfolding_all rfl⟩
  have hlong : (Value.int (-Numeral.tooLong)).isWritable = false := by decide +kernel
  obtain ⟨hsize, henabled⟩ := hsettings (-Numeral.tooLong)
  obtain ⟨⟨configs, ref, -, hcases⟩, -⟩ := World.compileCache_of_any_configuration a []
  rcases hcases with ⟨e, m, -, hm, hpositive, -⟩ | ⟨-, fault, hfault, -, hends⟩
  · have hnegative : ¬ 0 < -Numeral.tooLong := by decide +kernel
    exact absurd (Value.int.inj (hsize.symm.trans hm) ▸ hpositive) hnegative
  · have hsize' : fault = .cacheSize (.int (-Numeral.tooLong)) := by
      rcases hfault with ⟨-, hother⟩ | ⟨hfault, -⟩
      · exact absurd henabled (hother true)
      · exact hfault.trans (congrArg ConfigFault.cacheSize hsize)
    have hcannot : ¬ a.CanWarn fault := by
      rintro ⟨htold, -⟩
      rw [hsize'] at htold
      exact Bool.false_ne_true (hlong.symm.trans htold)
    exact ⟨_, (hends.resolve_left fun hwarns => hcannot hwarns.1).2, rfl⟩

end FileChecks
