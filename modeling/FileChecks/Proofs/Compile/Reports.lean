import FileChecks.NamedChecks
import FileChecks.Proofs.Value.Writing

/-!
What is reported while checks are compiled. Reports change nothing but what is delivered, and they
fail only where they would have to show a number that is too long to be written.
-/
namespace FileChecks

mutual

/-- Whether messages about a description can be written. They show the names of fields and how many
items lists have. -/
def Value.canReport : Value → Bool
  | .map checks => checks.all (·.1.isWritable)
  | .list items | .tuple items => Numeral.isWritable items.length && Value.canReportAll items
  | _ => true

def Value.canReportAll : List Value → Bool
  | [] => true
  | v :: rest => Value.canReport v && Value.canReportAll rest

end

/-! Runs from given surroundings. -/
section run
variable {α β : Type} {m : Run α} {k : α → Run β} {a a' : Ambient}

theorem run_bind_of_ok {x : α} (h : m.run.run a = (.ok x, a')) :
    (m >>= k).run.run a = (k x).run.run a' := by
  rw [ExceptT.run_bind, StateT.run_bind, h]
  rfl

theorem run_bind_of_error {f : Failure} (h : m.run.run a = (.error f, a')) :
    (m >>= k).run.run a = (.error f, a') := by
  rw [ExceptT.run_bind, StateT.run_bind, h]
  rfl

theorem run_liftM_bind (e : Effect α) (k : α → Run β) (a : Ambient) :
    (liftM e >>= k).run.run a = (k (e.run a).1).run.run (e.run a).2 := rfl

theorem run_get_bind (k : Ambient → Run β) (a : Ambient) :
    (get >>= k).run.run a = (k a).run.run a := rfl

theorem run_ofExcept_bind_ok {x : α} {r : Except Failure α} (h : r = .ok x) (k : α → Run β)
    (a : Ambient) : (Run.ofExcept r >>= k).run.run a = (k x).run.run a := by
  rw [h]
  rfl

theorem run_ofExcept_bind_error {f : Failure} {r : Except Failure α} (h : r = .error f)
    (k : α → Run β) (a : Ambient) : (Run.ofExcept r >>= k).run.run a = (.error f, a) := by
  rw [h]
  rfl

end run

/-- Submitting a message changes what is delivered only, or fails and changes nothing. It fails if
the message passes in a context that cannot be written. -/
theorem run_submit_cases (channel : String) (severity : Severity) (text : String) (own : Context)
    (a : Ambient) :
    (∃ delivered, (submit channel severity text own).run.run a = (.ok (), { a with delivered }) ∧
        (a.registry.passes channel severity.rank = true →
          (a.registry.contextOf own).isWritable = true)) ∨
      (submit channel severity text own).run.run a = (.error .unwritable, a) ∧
        a.registry.passes channel severity.rank = true ∧
          (a.registry.contextOf own).isWritable = false := by
  unfold submit
  rw [run_get_bind]
  cases hpasses : a.registry.passes channel severity.rank with
  | false =>
    rw [run_ofExcept_bind_ok (Registry.message?_of_not_passes hpasses)]
    exact Or.inl ⟨a.delivered, rfl, nofun⟩
  | true =>
    have hmessage : a.registry.message? channel severity text own = _ :=
      Registry.message?_of_passes hpasses
    unfold Context.render at hmessage
    cases hwritable : (a.registry.contextOf own).isWritable with
    | true =>
      rw [hwritable, if_pos rfl] at hmessage
      rw [run_ofExcept_bind_ok hmessage]
      exact Or.inl ⟨_, rfl, fun _ => rfl⟩
    | false =>
      rw [hwritable] at hmessage
      rw [run_ofExcept_bind_error hmessage]
      exact Or.inr ⟨rfl, rfl, rfl⟩

theorem exists_run_submit (channel : String) (severity : Severity) (text : String) (own : Context)
    (a : Ambient) :
    ∃ r delivered, (submit channel severity text own).run.run a = (r, { a with delivered }) ∧
      (r = .ok () ∨ r = .error .unwritable ∧ a.registry.passes channel severity.rank = true ∧
        (a.registry.contextOf own).isWritable = false) := by
  rcases run_submit_cases channel severity text own a with ⟨delivered, hrun, -⟩ | ⟨hrun, hfails⟩
  · exact ⟨_, delivered, hrun, Or.inl rfl⟩
  · exact ⟨_, a.delivered, hrun, Or.inr ⟨rfl, hfails⟩⟩

/-- Reporting on the fields of a check is submitting a message, or failing before that. -/
theorem exists_run_reportFields (checks : Entries) (a : Ambient) :
    ∃ r delivered, (reportFields checks).run.run a = (r, { a with delivered }) ∧
      (r = .ok () ∨ r = .error .unwritable ∧
        a.registry.passes Registry.rulesName Severity.debug.rank = true ∧
        (checks.all (·.1.isWritable) = true → ¬ a.registry.WritesContexts)) := by
  unfold reportFields
  rw [run_get_bind]
  cases hpasses : a.registry.passes Registry.rulesName Severity.debug.rank with
  | false => exact ⟨_, a.delivered, rfl, Or.inl rfl⟩
  | true =>
    rw [if_pos rfl]
    cases hnames : checks.all (·.1.isWritable) with
    | false =>
      rw [run_ofExcept_bind_error (f := .unwritable) (by rw [fieldNames, hnames]; rfl)]
      exact ⟨_, a.delivered, rfl, Or.inr ⟨rfl, rfl, nofun⟩⟩
    | true =>
      rw [run_ofExcept_bind_ok (by rw [fieldNames, if_pos hnames])]
      obtain ⟨r, delivered, hrun, h⟩ := exists_run_submit Registry.rulesName .debug
        "Compiling field check" [("fields", .text (",".intercalate (checks.map (·.1.display))))] a
      refine ⟨r, delivered, hrun, h.imp_right fun ⟨hr, _, hfails⟩ => ⟨hr, rfl, fun _ hcontexts => ?_⟩⟩
      rw [Registry.isWritable_contextOf hcontexts rfl] at hfails
      cases hfails

/-! Building the compile cache. -/

/-- The configuration that settings are taken from: the global one, or else one that holds nothing
but what variables tell. -/
def Ambient.configInForce (a : Ambient) : Config :=
  match a.globalConfig with
  | some ref => a.config ref
  | none => Config.initial.readEnvironment a.environment

/-- Whether nothing that is reported about a compilation fails. If messages of a severity pass, then
what they tell and the contexts in force can be written, and if the compile cache has to be built,
then what is wrong with its settings can be, too. -/
structure Ambient.Writes (a : Ambient) (severity : Severity) (told : Prop) : Prop where
  messages : a.registry.passes Registry.rulesName severity.rank = true →
    told ∧ a.registry.WritesContexts
  settings : a.cache = none → ∀ f, a.configInForce.cacheSettings = .error f → f ≠ .unwritable ∧
    (a.registry.passes Registry.cacheName Severity.warning.rank = true → a.registry.WritesContexts)

namespace Ambient
variable {a : Ambient} {severity severity' : Severity} {told told' : Prop}

/-- Less is easier to report. -/
theorem Writes.mono (h : a.Writes severity told) (hle : severity'.rank ≤ severity.rank)
    (htold : told → told') : a.Writes severity' told' where
  messages hpasses :=
    let ⟨htells, hcontexts⟩ := h.messages (Registry.passes_of_le hpasses hle)
    ⟨htold htells, hcontexts⟩
  settings := h.settings

/-- Where no message passes, and there are settings for a compile cache, nothing fails. -/
theorem writes_of_quiet (hquiet : a.registry.passes Registry.rulesName severity.rank = false)
    (hs : a.configInForce.cacheSettings.isOk = true) : a.Writes severity told := by
  constructor
  · rw [hquiet]
    nofun
  · intro _ f hf
    rw [hf] at hs
    cases hs

end Ambient

/-- The global configuration is there, or it is installed. -/
theorem exists_run_globalConfig (a : Ambient) :
    ∃ ref configs, globalConfig.run a = (ref, { a with configs, globalConfig := some ref }) ∧
      ({ a with configs, globalConfig := some ref } : Ambient).config ref = a.configInForce := by
  unfold Ambient.configInForce
  cases hglobal : a.globalConfig with
  | some ref =>
    refine ⟨ref, a.configs, ?_, rfl⟩
    unfold globalConfig
    simp only [StateT.run_bind, StateT.run_get, pure_bind, hglobal]
    rw [← hglobal]
    rfl
  | none =>
    let built := Config.initial.readEnvironment a.environment
    refine ⟨a.configs.length, a.configs ++ [built], ?_, ?_⟩
    · unfold globalConfig
      simp only [StateT.run_bind, StateT.run_get, pure_bind, hglobal]
      rfl
    · rw [Ambient.config, List.getElem?_concat_length]
      rfl

/-- The warning about settings that are not as they should be. -/
def warnOfSettings (fault : ConfigFault) : Run Unit :=
  submit Registry.cacheName .warning "Invalid cache configuration, using defaults"
    [("error", .text fault.message)]

/-- The settings of a cache that is built, after a warning about those that are not as they should
be. -/
def settingsOrDefaults : Except Failure CacheSettings → Run CacheSettings
  | .ok settings => pure settings
  | .error (.config fault) => do
    warnOfSettings fault
    pure {}
  | .error f => Run.ofExcept (.error f)

section compileCache
variable {a b : Ambient}

theorem run_compileCache {c : Lru String Compiled} (hc : a.cache = some c) :
    compileCache.run.run a = (.ok c, a) := by
  unfold compileCache
  rw [run_get_bind, hc]
  rfl

variable (hnone : a.cache = none) {ref : ConfigRef} (hglobal : globalConfig.run a = (ref, b))
include hnone hglobal

/-- A cache is built by the global configuration. -/
theorem run_compileCache_of_none :
    compileCache.run.run a =
      (do
        let settings ← settingsOrDefaults (b.config ref).cacheSettings
        setCache (some (Lru.empty settings))
        return Lru.empty settings : Run (Lru String Compiled)).run.run b := by
  have hconfig : (configOf ref).run b = (b.config ref, b) := rfl
  unfold compileCache
  rw [run_get_bind, hnone]
  dsimp only
  rw [run_liftM_bind, hglobal, run_liftM_bind, hconfig]
  dsimp only
  rcases (b.config ref).cacheSettings with f | settings
  · cases f with
    | config fault =>
      rw [settingsOrDefaults, bind_assoc]
      rfl
    | _ => rfl
  · rfl

theorem run_compileCache_of_settings {s : CacheSettings}
    (hs : (b.config ref).cacheSettings = .ok s) :
    compileCache.run.run a = (.ok (Lru.empty s), { b with cache := some (Lru.empty s) }) := by
  rw [run_compileCache_of_none hnone hglobal, hs]
  rfl

/-- Settings that are not as they should be are warned of; a warning that cannot be written ends the
run. -/
theorem run_compileCache_of_fault {fault : ConfigFault}
    (hs : (b.config ref).cacheSettings = .error (.config fault)) :
    compileCache.run.run a =
      (do
        warnOfSettings fault
        setCache (some (Lru.empty {}))
        return Lru.empty {} : Run (Lru String Compiled)).run.run b := by
  rw [run_compileCache_of_none hnone hglobal, hs, settingsOrDefaults, bind_assoc]
  rfl

theorem run_compileCache_of_unwritable
    (hs : (b.config ref).cacheSettings = .error .unwritable) :
    compileCache.run.run a = (.error .unwritable, b) := by
  rw [run_compileCache_of_none hnone hglobal, hs]
  rfl

end compileCache
end FileChecks
