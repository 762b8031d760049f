import FileChecks.Proofs.Log.Shared
import FileChecks.Proofs.Value.Writing
import FileChecks.Script.LogSteps

/-!
Levels and deliveries from the record of what callers did. Each name has the level that the last
step gave it, and a logger delivers a message once or not at all, whatever other loggers there are.
-/
namespace FileChecks.Script.LogSteps
open Registry (channelName rulesName cacheName)

namespace Journal

/-- Names for which a shared logger was asked, the latest first, and those that the library asks for
itself. -/
def sharedNames : List Step → List String
  | [] => [cacheName, rulesName]
  | .get _ name :: earlier => name :: sharedNames earlier
  | _ :: earlier => sharedNames earlier

/-- Channel of the logger that an id stands for, that is, of the latest one that was made or asked
for under this id. -/
def channel? (id : String) : List Step → Option String
  | [] => none
  | .new id' name level :: earlier =>
    if id = id' ∧ (Level.ofValue level).isOk then some (channelName name) else channel? id earlier
  | .get id' name :: earlier => if id = id' then some (channelName name) else channel? id earlier
  | _ :: earlier => channel? id earlier

/-- Level that a step gives to a channel, if it does and the level is one. Setting all levels goes to
the names for which shared loggers were asked before. -/
def given? (n : String) (earlier : List Step) : Step → Option Level
  | .new _ name level => if n = channelName name then (Level.ofValue level).toOption else none
  | .get _ name =>
    if n = channelName name ∧ name ∉ sharedNames earlier then some (.ofSeverity .warning) else none
  | .setAll level =>
    if n ∈ (sharedNames earlier).map channelName then (Level.ofValue level).toOption else none
  | .setLevel id level =>
    if channel? id earlier = some n then (Level.ofValue level).toOption else none
  | _ => none

/-- Level of a channel after some steps, the latest first: what the last step that gave it one gave
it. -/
def level (n : String) : List Step → Level
  | [] => if n ∈ [Channel.rootName, rulesName, cacheName] then .ofSeverity .warning else .number 0
  | step :: earlier => (given? n earlier step).getD (level n earlier)

/-- A journal tells the levels of channels and the names of shared loggers. -/
structure Describes (journal : List Step) (r : Registry) : Prop where
  consistent : r.Consistent
  level : ∀ n, r.level n = level n journal
  names : ∀ name, name ∈ r.shared.map (·.1) ↔ name ∈ sharedNames journal

variable {journal : List Step} {r r' : Registry} {step : Step}

theorem rulesName_mem_sharedNames (journal : List Step) : rulesName ∈ sharedNames journal := by
  induction journal using sharedNames.induct with
  | case1 => exact List.mem_cons_of_mem cacheName List.mem_cons_self
  | case2 id name earlier ih => exact List.mem_cons_of_mem name ih
  | case3 step earlier hstep ih => rwa [sharedNames.eq_3 step earlier hstep]

theorem describes_initial : Describes [] .initial where
  consistent := Registry.consistent_initial
  level n := by
    obtain ⟨r, hchannels, hshared, hinitial⟩ := Registry.exists_initial_eq
    have htop : r.level n = if n = Channel.rootName then .ofSeverity .warning else .number 0 := by
      rw [Registry.level, Registry.channel?, hchannels, List.find?_singleton]
      by_cases hn : n = Channel.rootName
      · simp [hn]
      · simp [hn, Ne.symm hn]
    have hrules : rulesName ∉ r.shared.map (·.1) := by
      rw [hshared]
      exact List.not_mem_nil
    have hcache : cacheName ∉ (r.sharedLogger rulesName).1.shared.map (·.1) := by
      rw [Registry.mem_names_sharedLogger, hshared]
      decide
    rw [hinitial, Registry.level_sharedLogger hcache, Registry.level_sharedLogger hrules, htop]
    change (if n = cacheName then _ else if n = rulesName then _ else _) = _
    rw [level]
    grind
  names name := by
    obtain ⟨r, -, hshared, hinitial⟩ := Registry.exists_initial_eq
    rw [hinitial, Registry.mem_names_sharedLogger, Registry.mem_names_sharedLogger, hshared]
    simp [sharedNames]

namespace Describes

/-- The loggers that setting all levels goes to are those of the names asked for. -/
theorem mem_channels_iff (h : Describes journal r) (n : String) :
    n ∈ (r.shared.map (·.2)).map (·.channel) ↔ n ∈ (sharedNames journal).map channelName := by
  rw [h.consistent.map_channel_shared, List.mem_map, List.mem_map]
  exact exists_congr fun name => and_congr_left fun _ => h.names name

/-- There are shared loggers, those of the library at least. -/
theorem map_shared_ne_nil (h : Describes journal r) : r.shared.map (·.2) ≠ [] := by
  intro hnil
  have hmem := (h.names rulesName).mpr (rulesName_mem_sharedNames journal)
  rw [List.map_eq_nil_iff.mp hnil] at hmem
  cases hmem

/-- A step that gives no level and asks for no shared logger. -/
theorem keep (h : Describes journal r) (hconsistent : r'.Consistent)
    (hlevel : ∀ n, r'.level n = r.level n) (hshared : r'.shared = r.shared)
    (hgiven : ∀ n, given? n journal step = none)
    (hnames : sharedNames (step :: journal) = sharedNames journal) :
    Describes (step :: journal) r' where
  consistent := hconsistent
  level n := by
    rw [hlevel, h.level, Journal.level, hgiven]
    rfl
  names name := by
    rw [hshared, hnames, h.names]

/-- A step that gives some channels a level and asks for no shared logger. -/
theorem give (h : Describes journal r) {l : Level} {p : String → Prop} [DecidablePred p]
    (hconsistent : r'.Consistent) (hlevel : ∀ n, r'.level n = if p n then l else r.level n)
    (hshared : r'.shared = r.shared)
    (hgiven : ∀ n, given? n journal step = if p n then some l else none)
    (hnames : sharedNames (step :: journal) = sharedNames journal) :
    Describes (step :: journal) r' where
  consistent := hconsistent
  level n := by
    rw [hlevel, h.level, Journal.level, hgiven]
    split <;> rfl
  names name := by
    rw [hshared, hnames, h.names]

theorem sharedLogger (h : Describes journal r) (id name : String) :
    Describes (.get id name :: journal) (r.sharedLogger name).1 where
  consistent := h.consistent.sharedLogger name
  level n := by
    rw [Journal.level, given?]
    by_cases hname : name ∈ r.shared.map (·.1)
    · obtain ⟨logger, -, hold⟩ := Registry.sharedLogger_of_mem hname
      have hasked := (h.names name).mp hname
      rw [hold, h.level, if_neg fun hboth => hboth.2 hasked]
      rfl
    · have hnew : name ∉ sharedNames journal := fun hasked => hname ((h.names name).mpr hasked)
      rw [Registry.level_sharedLogger hname, h.level]
      by_cases hn : n = channelName name
      · rw [if_pos hn, if_pos ⟨hn, hnew⟩]
        rfl
      · rw [if_neg hn, if_neg fun hboth => hn hboth.1]
        rfl
  names n := by
    rw [Registry.mem_names_sharedLogger, sharedNames, List.mem_cons, h.names]

end Describes
end Journal

namespace State
open Journal
variable {s : State} {journal : List Step}

def reach (steps : List Step) : State := steps.foldl (fun s step => (s.step step).2) .initial

/-- A journal, the latest step first, tells all that levels and deliveries depend on. -/
structure Recorded (s : State) (journal : List Step) : Prop where
  registry : Describes journal s.registry
  ids : ∀ id, (s.loggers.lookup id).map (·.channel) = channel? id journal
  setUp : ∀ {id logger}, s.loggers.lookup id = some logger → s.registry.IsSetUp logger.channel

namespace Recorded

/-- A step that binds no id. -/
theorem keep (h : s.Recorded journal) {registry : Registry} {step : Step}
    (hregistry : Describes (step :: journal) registry)
    (hids : ∀ id, channel? id (step :: journal) = channel? id journal)
    (hsetUp : ∀ n, s.registry.IsSetUp n → registry.IsSetUp n) :
    Recorded { s with registry } (step :: journal) where
  registry := hregistry
  ids id := (h.ids id).trans (hids id).symm
  setUp hlookup := hsetUp _ (h.setUp hlookup)

/-- A step that binds an id. -/
theorem bind (h : s.Recorded journal) {registry : Registry} {step : Step} {id : String}
    {logger : Logger} (hregistry : Describes (step :: journal) registry)
    (hids : ∀ id', channel? id' (step :: journal) =
      if id' = id then some logger.channel else channel? id' journal)
    (hsetUp : ∀ n, n = logger.channel ∨ s.registry.IsSetUp n → registry.IsSetUp n) :
    (State.bindLogger { s with registry } id logger).Recorded (step :: journal) where
  registry := hregistry
  ids id' := by
    rw [bindLogger, List.lookup_cons, hids, ← h.ids]
    by_cases hid : id' = id
    · rw [if_pos hid, hid, beq_self_eq_true]
      rfl
    · rw [if_neg hid, beq_eq_false_iff_ne.mpr hid]
  setUp hlookup := by
    rename_i id' bound
    rw [bindLogger, List.lookup_cons] at hlookup
    split at hlookup
    · obtain rfl := Option.some.inj hlookup
      exact hsetUp _ (Or.inl rfl)
    · exact hsetUp _ (Or.inr (h.setUp hlookup))

/-- A step that changes nothing but contexts. -/
theorem keepAll (h : s.Recorded journal) {step : Step} (contexts : List Context)
    (hgiven : ∀ n, given? n journal step = none)
    (hnames : sharedNames (step :: journal) = sharedNames journal)
    (hids : ∀ id, channel? id (step :: journal) = channel? id journal) :
    Recorded { s with registry := { s.registry with contexts } } (step :: journal) := by
  refine h.keep ?_ hids fun _ hn => hn
  exact h.registry.keep (h.registry.consistent.withContexts contexts) (fun _ => rfl) rfl hgiven hnames

theorem channel?_of_lookup (h : s.Recorded journal) {id : String} {logger : Logger}
    (hlookup : s.loggers.lookup id = some logger) : channel? id journal = some logger.channel := by
  rw [← h.ids, hlookup]
  rfl

theorem new (h : s.Recorded journal) (id name : String) (level : Value) :
    (s.step (.new id name level)).2.Recorded (.new id name level :: journal) := by
  rw [State.step]
  cases hlevel : Level.ofValue level with
  | ok l =>
    have hregistry : Describes (.new id name level :: journal) (s.registry.addLogger name l).1 := by
      refine h.registry.give (h.registry.consistent.addLogger name l)
        (Registry.level_addLogger s.registry name l) (Registry.shared_addLogger s.registry name l)
        (fun n => ?_) rfl
      rw [given?, hlevel]
      rfl
    rw [Registry.newLogger_of_ok hlevel]
    refine h.bind hregistry (fun id' => ?_) fun n hn => ?_
    · rw [channel?, hlevel]
      simp [Except.isOk, Except.toBool, Registry.addLogger]
    · rcases hn with rfl | hn
      · exact Registry.isSetUp_addLogger s.registry name l
      · exact hn.addLogger name l
  | error f =>
    -- The channel may be made before the level is found to be none.
    rw [Registry.newLogger_of_error hlevel]
    refine h.keep (h.registry.keep (h.registry.consistent.ensure (channelName name))
      (Registry.level_ensure s.registry (channelName name))
      (Registry.shared_ensure s.registry (channelName name)) (fun n => ?_) rfl)
      (fun id' => ?_) fun n hn => hn.ensure (channelName name)
    · rw [given?, hlevel]
      exact ite_self none
    · rw [channel?, hlevel]
      simp [Except.isOk, Except.toBool]

theorem get (h : s.Recorded journal) (id name : String) :
    (s.step (.get id name)).2.Recorded (.get id name :: journal) := by
  have hchannel := Registry.channel_sharedLogger s.registry name
    fun hmem => (h.registry.consistent.shared hmem).1
  have hstep : (s.step (.get id name)).2 =
      bindLogger { s with registry := (s.registry.sharedLogger name).1 } id
        (s.registry.sharedLogger name).2 := rfl
  rw [hstep]
  refine h.bind (h.registry.sharedLogger id name) (fun id' => ?_) fun n hn => ?_
  · rw [channel?, hchannel]
  · rw [hchannel] at hn
    exact h.registry.consistent.isSetUp_sharedLogger name hn

theorem setAll (h : s.Recorded journal) (level : Value) :
    (s.step (.setAll level)).2.Recorded (.setAll level :: journal) := by
  rw [State.step, Registry.setSharedLevels]
  cases hlevel : Level.ofValue level with
  | ok l =>
    have hconsistent := h.registry.consistent
    have hregistry : Describes (.setAll level :: journal)
        ((s.registry.shared.map (·.2)).foldl (fun r logger => r.setLevel logger.channel l)
          s.registry) := by
      refine h.registry.give (hconsistent.foldl_setLevel _ l)
        (Registry.level_foldl_setLevel hconsistent.isSome_channel?)
        (Registry.shared_foldl_setLevel s.registry _ l) (fun n => ?_) rfl
      rw [given?, hlevel]
      exact if_congr (h.registry.mem_channels_iff n).symm rfl rfl
    rw [Registry.setLevels_of_ok hlevel]
    exact h.keep hregistry (fun _ => rfl) fun n hn => hn.foldl_setLevel _ l
  | error f =>
    rw [Registry.setLevels_of_error hlevel h.registry.map_shared_ne_nil]
    refine h.keepAll s.registry.contexts (fun n => ?_) rfl fun _ => rfl
    rw [given?, hlevel]
    exact ite_self none

theorem setLevel (h : s.Recorded journal) (id : String) (level : Value) :
    (s.step (.setLevel id level)).2.Recorded (.setLevel id level :: journal) := by
  rw [State.step, withLogger]
  cases hlookup : s.loggers.lookup id with
  | none =>
    refine h.keepAll s.registry.contexts (fun n => ?_) rfl fun _ => rfl
    rw [given?, ← h.ids, hlookup]
    rfl
  | some logger =>
    have hchannel := h.channel?_of_lookup hlookup
    dsimp only
    cases hlevel : Level.ofValue level with
    | ok l =>
      rw [Registry.setLevelOf_of_ok hlevel]
      refine h.keep (h.registry.give (h.registry.consistent.setLevel logger.channel l)
        (Registry.level_setLevel (h.setUp hlookup).isSome) rfl (fun n => ?_) rfl)
        (fun _ => rfl) fun n hn => hn.setLevel logger.channel l
      rw [given?, hlevel, hchannel]
      exact if_congr (by rw [Option.some_inj, eq_comm]) rfl rfl
    | error f =>
      rw [Registry.setLevelOf_of_error hlevel]
      refine h.keepAll s.registry.contexts (fun n => ?_) rfl fun _ => rfl
      rw [given?, hlevel]
      exact ite_self none

/-- A step of a logger that changes at most contexts. -/
theorem withLogger (h : s.Recorded journal) {step : Step} {id : String}
    {go : Logger → Reply × State}
    (hgo : ∀ logger, ∃ contexts,
      (go logger).2 = { s with registry := { s.registry with contexts } })
    (hgiven : ∀ n, given? n journal step = none)
    (hnames : sharedNames (step :: journal) = sharedNames journal)
    (hids : ∀ id, channel? id (step :: journal) = channel? id journal) :
    (s.withLogger id go).2.Recorded (step :: journal) := by
  rw [State.withLogger]
  cases s.loggers.lookup id with
  | none => exact h.keepAll s.registry.contexts hgiven hnames hids
  | some logger =>
    obtain ⟨contexts, hcontexts⟩ := hgo logger
    dsimp only
    rw [hcontexts]
    exact h.keepAll contexts hgiven hnames hids

/-- A step adds itself to the journal. -/
theorem step (h : s.Recorded journal) (step : Step) :
    (s.step step).2.Recorded (step :: journal) := by
  cases step with
  | new id name level => exact h.new id name level
  | get id name => exact h.get id name
  | setAll level => exact h.setAll level
  | setLevel id level => exact h.setLevel id level
  | log severity id text own =>
    refine h.withLogger (fun logger => ⟨s.registry.contexts, ?_⟩) (fun _ => rfl) rfl fun _ => rfl
    split <;> rfl
  | push id context => exact h.withLogger (fun _ => ⟨_, rfl⟩) (fun _ => rfl) rfl fun _ => rfl
  | pop => exact h.keepAll _ (fun _ => rfl) rfl fun _ => rfl
  | enabled id level =>
    refine h.withLogger (fun logger => ⟨s.registry.contexts, ?_⟩) (fun _ => rfl) rfl fun _ => rfl
    split <;> rfl
  | same id other =>
    refine h.withLogger (fun logger => ⟨s.registry.contexts, ?_⟩) (fun _ => rfl) rfl fun _ => rfl
    unfold State.withLogger
    split <;> rfl

/-- Only steps that succeed give levels. -/
theorem given?_eq_none_of_failed (h : s.Recorded journal) {step : Step} {fault : StepFault}
    (hfailed : (s.step step).1.result = .error fault) (n : String) :
    given? n journal step = none := by
  cases step with
  | new id name level =>
    cases hlevel : Level.ofValue level with
    | ok l =>
      rw [State.step, Registry.newLogger_of_ok hlevel] at hfailed
      cases hfailed
    | error f =>
      rw [given?, hlevel]
      exact ite_self none
  | get id name => cases hfailed
  | setAll level =>
    cases hlevel : Level.ofValue level with
    | ok l =>
      rw [State.step, Registry.setSharedLevels, Registry.setLevels_of_ok hlevel] at hfailed
      cases hfailed
    | error f =>
      rw [given?, hlevel]
      exact ite_self none
  | setLevel id level =>
    cases hlevel : Level.ofValue level with
    | ok l =>
      rw [State.step, State.withLogger] at hfailed
      cases hlookup : s.loggers.lookup id with
      | some logger =>
        rw [hlookup] at hfailed
        dsimp only at hfailed
        rw [Registry.setLevelOf_of_ok hlevel] at hfailed
        cases hfailed
      | none =>
        rw [given?, ← h.ids, hlookup]
        rfl
    | error f =>
      rw [given?, hlevel]
      exact ite_self none
  | log | push | pop | enabled | same => rfl

theorem level_step_of_failed (h : s.Recorded journal) {step : Step} {fault : StepFault}
    (hfailed : (s.step step).1.result = .error fault) (n : String) :
    (s.step step).2.registry.level n = s.registry.level n := by
  rw [(h.step step).registry.level, Journal.level, h.given?_eq_none_of_failed hfailed,
    h.registry.level]
  rfl

/-- A logger delivers a message through one outlet, or it does not deliver it. What passes but cannot
be written is a failure. -/
theorem exists_step_log (h : s.Recorded journal) (severity : Severity) {id n : String}
    (text : String) (own : Context) (hid : channel? id journal = some n) :
    ∃ outlet, s.step (.log severity id text own) =
      (if s.registry.effectiveRank n ≤ severity.rank then
          if (s.registry.contextOf own).isWritable then
            ⟨.ok .null, some ⟨severity, n, (s.registry.contextOf own).line text⟩, [outlet]⟩
          else failed .unwritable
        else done .null, s) := by
  obtain ⟨logger, hlookup, hchannel⟩ := Option.map_eq_some_iff.mp ((h.ids id).trans hid)
  subst hchannel
  obtain ⟨outlet, houtlet⟩ := (h.setUp hlookup).exists_outlets
  have hpositive : 0 < severity.rank := by cases severity <;> decide
  refine ⟨outlet, ?_⟩
  rw [State.step, State.withLogger, hlookup]
  dsimp only
  by_cases hrank : s.registry.effectiveRank logger.channel ≤ severity.rank
  · have hpasses : s.registry.passes logger.channel severity.rank = true := by
      rw [Registry.passes, decide_eq_true hrank, decide_eq_true hpositive]
      rfl
    rw [if_pos hrank, Registry.message?_of_passes hpasses, houtlet, Context.render]
    cases (s.registry.contextOf own).isWritable <;> rfl
  · have hpasses : s.registry.passes logger.channel severity.rank = false := by
      rw [Registry.passes, decide_eq_false hrank, Bool.and_false]
    rw [if_neg hrank, Registry.message?_of_not_passes hpasses]

theorem isSome_channel? (h : s.Recorded journal) {id n : String}
    (hid : channel? id journal = some n) : (s.registry.channel? n).isSome := by
  obtain ⟨logger, hlookup, rfl⟩ := Option.map_eq_some_iff.mp ((h.ids id).trans hid)
  exact (h.setUp hlookup).isSome

end Recorded

theorem recorded_reach (steps : List Step) : (reach steps).Recorded steps.reverse := by
  induction steps using List.reverseRecOn with
  | nil => exact ⟨describes_initial, fun _ => rfl, fun hlookup => nomatch hlookup⟩
  | append_singleton steps step ih =>
    rw [reach, List.foldl_append, List.reverse_append]
    exact ih.step step

/-- Whatever callers do, each channel has the level that the last step that gave it one gave it; steps
that fail, and asking again for a shared logger, give none. A logger delivers a message through one
outlet if its severity reaches the rank in force on the channel, else not at all; where its context
cannot be written, the step fails instead. That rank is the first other than zero on a path up; for
ordinary names, the path has all names above. -/
theorem last_level_and_single_delivery (steps : List Step) :
    let s := reach steps
    let journal := steps.reverse
    (∀ n, s.registry.level n = level n journal) ∧
    (∀ step fault, (s.step step).1.result = .error fault →
      ∀ n, (s.step step).2.registry.level n = s.registry.level n) ∧
    (∀ id name, name ∈ sharedNames journal → (s.step (.get id name)).2.registry = s.registry) ∧
    ∀ id n, channel? id journal = some n →
      (∀ severity text own, ∃ outlet, s.step (.log severity id text own) =
        (if s.registry.effectiveRank n ≤ severity.rank then
            if (s.registry.contextOf own).isWritable then
              ⟨.ok .null, some ⟨severity, n, (s.registry.contextOf own).line text⟩, [outlet]⟩
            else failed .unwritable
          else done .null, s)) ∧
      (∃ path, Registry.IsPath (n :: path) ∧
        s.registry.effectiveRank n = Registry.rankAlong (level · journal) (n :: path)) ∧
      (Channel.IsOrdinary n →
        s.registry.effectiveRank n = Registry.rankAlong (level · journal) (Registry.lineage n)) := by
  intro s journal
  have h : s.Recorded journal := recorded_reach steps
  have hlevels : s.registry.level = fun n => level n journal := funext h.registry.level
  refine ⟨h.registry.level, fun step fault hfailed => h.level_step_of_failed hfailed,
    fun id name hname => ?_, fun id n hid => ⟨fun severity text own => ?_, ?_, fun hordinary => ?_⟩⟩
  · obtain ⟨logger, -, hsame⟩ := Registry.sharedLogger_of_mem ((h.registry.names name).mpr hname)
    change (s.registry.sharedLogger name).1 = s.registry
    rw [hsame]
  · exact h.exists_step_log severity text own hid
  · rw [← hlevels]
    exact h.registry.consistent.tree.exists_path (h.isSome_channel? hid)
  · rw [← hlevels]
    exact h.registry.consistent.tree.effectiveRank_eq_rankAlong (h.isSome_channel? hid) hordinary

/-- A logger below one that is shared by name passes messages on from its rank on. -/
theorem last_level_and_single_delivery_below_shared :
    let steps : List Step :=
      [.get "docs" "docs", .new "draft" "docs.draft" (.int 0), .setAll (.int 10)]
    Channel.IsOrdinary "docs.draft" ∧
      (reach steps).registry.effectiveRank "docs.draft" = Severity.debug.rank ∧
      ∃ outlet, (reach steps).step (.log .debug "draft" "read" []) =
        (⟨.ok .null, some ⟨.debug, "docs.draft", "read"⟩, [outlet]⟩, reach steps) := by
  intro steps
  have hordinary : Channel.IsOrdinary "docs.draft" :=
    ⟨by simp [List.infix_cons_iff], by decide +kernel⟩
  obtain ⟨-, -, -, hids⟩ := last_level_and_single_delivery steps
  obtain ⟨hlog, -, hrank⟩ := hids "draft" "docs.draft" (by decide +kernel)
  have hdebug : (reach steps).registry.effectiveRank "docs.draft" = Severity.debug.rank :=
    (hrank hordinary).trans (by decide +kernel)
  have hwritable : ((reach steps).registry.contextOf []).isWritable = true := by decide +kernel
  have hline : ((reach steps).registry.contextOf []).line "read" = "read" := by decide +kernel
  obtain ⟨outlet, hstep⟩ := hlog .debug "read" []
  rw [hdebug, if_pos le_rfl, hwritable, if_pos rfl, hline] at hstep
  exact ⟨hordinary, hdebug, outlet, hstep⟩

/-- A channel stays below the topmost one if the name of the one that is made above it starts the name
of that. Its messages are dropped that the nearest level above would let pass. -/
theorem last_level_passes_over_later_parent :
    let steps : List Step := [.new "lower" "r.x" (.int 0), .new "upper" "r" (.int 10)]
    let r := (reach steps).registry
    r.level "r.x" = .number 0 ∧ r.level "r" = .number 10 ∧
      Registry.rankAlong r.level (Registry.lineage "r.x") = 10 ∧ r.effectiveRank "r.x" = 30 ∧
      ((reach steps).step (.log .debug "lower" "read" [])).1.message.isNone = true := by
  decide +kernel

end State
end FileChecks.Script.LogSteps
