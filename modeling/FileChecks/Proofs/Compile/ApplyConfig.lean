import FileChecks.Proofs.Compile.Coherence
import FileChecks.Proofs.Log.Journal

/-!
Applying a configuration. Its settings are all in force afterwards, or it fails and nothing has
changed.
-/
namespace FileChecks
open Script
variable {a : Ambient} {c : Config} {level : Value} {l : Level} {f : Failure}

/-- With a shared logger there is one that rejects what is no level, before any is changed. -/
theorem run_setLevels_of_error (h : Level.ofValue level = .error f)
    (hne : a.registry.shared.map (·.2) ≠ []) : (setLevels level).run.run a = (.error f, a) := by
  have hrejected : a.registry.setSharedLevels level = (a.registry, .error f) :=
    Registry.setLevels_of_error h hne
  change (((a.registry.setSharedLevels level).2,
    { a with registry := (a.registry.setSharedLevels level).1 }) : Except Failure Unit × Ambient) = _
  rw [hrejected]

theorem run_setLevels_of_ok (h : Level.ofValue level = .ok l) (a : Ambient) :
    (setLevels level).run.run a =
      (.ok (), { a with
        registry := (a.registry.shared.map (·.2)).foldl
          (fun r logger => r.setLevel logger.channel l) a.registry }) := by
  have hset := Registry.setLevels_of_ok h a.registry (a.registry.shared.map (·.2))
  change (((a.registry.setSharedLevels level).2,
    { a with registry := (a.registry.setSharedLevels level).1 }) : Except Failure Unit × Ambient) = _
  rw [Registry.setSharedLevels, hset]

/-- Settings that a configuration gives are settings of a new cache. -/
theorem new_eq_ok_of_pos {m : Int} (hpositive : 0 < m) (e : Bool) :
    (Lru.new ⟨.int m, .bool e⟩ : Except Failure (Lru String Compiled)) =
      .ok (Lru.empty ⟨.int m, .bool e⟩) :=
  Lru.new_eq_ok_iff.mpr ⟨if_pos hpositive, rfl⟩

/-! The three steps of applying a configuration. -/
section applyConfig

theorem run_applyConfig_of_fault (h : c.cacheSettings = .error f) (a : Ambient) :
    (applyConfig c).run.run a = (.error f, a) := by
  unfold applyConfig
  refine run_bind_of_error ?_
  rw [h]
  rfl

variable {s : CacheSettings} (hs : c.cacheSettings = .ok s)
include hs

theorem run_applyConfig_of_settings (a : Ambient) :
    (applyConfig c).run.run a =
      (do
        setLevels (c.get Setting.logLevel (.text Severity.warning.name))
        let cache ← Run.ofExcept (Lru.new s)
        setCache (some cache) : Run Unit).run.run a := by
  unfold applyConfig
  refine run_bind_of_ok ?_
  rw [hs]
  rfl

theorem run_applyConfig_of_error
    (h : Level.ofValue (c.get Setting.logLevel (.text Severity.warning.name)) = .error f)
    (hne : a.registry.shared.map (·.2) ≠ []) : (applyConfig c).run.run a = (.error f, a) := by
  rw [run_applyConfig_of_settings hs]
  exact run_bind_of_error (run_setLevels_of_error h hne)

theorem run_applyConfig_of_ok
    (h : Level.ofValue (c.get Setting.logLevel (.text Severity.warning.name)) = .ok l)
    (hnew : Lru.new s = .ok (Lru.empty s : Lru String Compiled)) (a : Ambient) :
    (applyConfig c).run.run a =
      (.ok (), { a with
        registry := (a.registry.shared.map (·.2)).foldl
          (fun r logger => r.setLevel logger.channel l) a.registry
        cache := some (Lru.empty s) }) := by
  rw [run_applyConfig_of_settings hs, run_bind_of_ok (run_setLevels_of_ok h a), hnew]
  rfl

end applyConfig

/-- After any use of loggers, applying a configuration fails for the first of its settings that is
not as it should be, and changes nothing; or all channels of shared loggers get its level, all other
channels keep theirs, and a new cache with its settings is in use. -/
theorem applyConfig_all_or_nothing (steps : List LogSteps.Step) (a : Ambient) (c : Config) :
    let before := { a with registry := (LogSteps.State.reach steps).registry }
    let enabled := c.get Setting.cacheEnabled (.bool true)
    let size := c.get Setting.cacheMaxEntries (.int 256)
    let level := c.get Setting.logLevel (.text Severity.warning.name)
    (∃ f, (applyConfig c).run.run before = (.error f, before) ∧
      ((∀ e, enabled ≠ .bool e) ∧ f = (Failure.config (.cacheSwitch enabled)).raised ∨
        (∃ e, enabled = .bool e) ∧ (∀ m, size = .int m → m ≤ 0) ∧
          f = (Failure.config (.cacheSize size)).raised ∨
        (∃ e m, enabled = .bool e ∧ size = .int m ∧ 0 < m) ∧ Level.ofValue level = .error f)) ∨
    ∃ e m l registry, enabled = .bool e ∧ size = .int m ∧ 0 < m ∧ Level.ofValue level = .ok l ∧
      (applyConfig c).run.run before =
        (.ok (), { before with registry, cache := some (Lru.empty ⟨.int m, .bool e⟩) }) ∧
      registry.shared = before.registry.shared ∧
      ∀ n, registry.level n =
        if n ∈ (before.registry.shared.map (·.1)).map Registry.channelName then l
        else before.registry.level n := by
  intro before enabled size level
  obtain ⟨hdescribes, -, -⟩ := LogSteps.State.recorded_reach steps
  rcases c.cacheSettings_cases with ⟨e, m, he, hm, hpositive, hs⟩ | ⟨he, hs⟩ | ⟨he, hm, hs⟩
  · cases hlevel : Level.ofValue level with
    | error f =>
      have hrun := run_applyConfig_of_error (a := before) hs hlevel hdescribes.map_shared_ne_nil
      exact Or.inl ⟨f, hrun, Or.inr (Or.inr ⟨⟨e, m, he, hm, hpositive⟩, rfl⟩)⟩
    | ok l =>
      have hconsistent := hdescribes.consistent
      have hrun := run_applyConfig_of_ok hs hlevel (new_eq_ok_of_pos hpositive e) before
      refine Or.inr ⟨e, m, l, _, he, hm, hpositive, rfl, hrun, ?_, fun n => ?_⟩
      · exact Registry.shared_foldl_setLevel before.registry _ l
      · rw [← hconsistent.map_channel_shared]
        exact Registry.level_foldl_setLevel hconsistent.isSome_channel? n
  · have hrun := run_applyConfig_of_fault hs before
    exact Or.inl ⟨_, hrun, Or.inl ⟨he, rfl⟩⟩
  · have hrun := run_applyConfig_of_fault hs before
    exact Or.inl ⟨_, hrun, Or.inr (Or.inl ⟨he, hm, rfl⟩)⟩

end FileChecks
