import FileChecks.Proofs.Log.Hierarchy

/-!
Loggers that are shared by name. Asking for one makes it at most once, and its channel stays set up
whatever other loggers are made.
-/
namespace FileChecks

namespace Registry
variable {r : Registry} {name n : String} {logger : Logger}

theorem shared_ensure (r : Registry) (name : String) : (r.ensure name).shared = r.shared := by
  unfold ensure
  split <;> rfl

theorem shared_addLogger (r : Registry) (name : String) (l : Level) :
    (r.addLogger name l).1.shared = r.shared :=
  shared_ensure r (channelName name)

theorem shared_foldl_setLevel (r : Registry) (loggers : List Logger) (l : Level) :
    (loggers.foldl (fun r logger => r.setLevel logger.channel l) r).shared = r.shared := by
  induction loggers generalizing r with
  | nil => rfl
  | cons logger rest ih => exact ih (r.setLevel logger.channel l)

theorem newLogger_of_error {level : Value} {f : Failure} (h : Level.ofValue level = .error f) :
    r.newLogger name level = (r.ensure (channelName name), .error f) := by
  rw [newLogger, h]

theorem newLogger_of_ok {level : Value} {l : Level} (h : Level.ofValue level = .ok l) :
    r.newLogger name level = ((r.addLogger name l).1, .ok (r.addLogger name l).2) := by
  rw [newLogger, h]

theorem sharedLogger_of_mem (h : name ∈ r.shared.map (·.1)) :
    ∃ logger, (name, logger) ∈ r.shared ∧ r.sharedLogger name = (r, logger) := by
  cases hlookup : r.shared.lookup name with
  | some logger =>
    obtain ⟨front, back, hshared, -⟩ := List.lookup_eq_some_iff.mp hlookup
    refine ⟨logger, ?_, ?_⟩
    · rw [hshared]
      exact List.mem_append_right front List.mem_cons_self
    · rw [sharedLogger, hlookup]
  | none =>
    obtain ⟨entry, hmem, hname⟩ := List.mem_map.mp h
    have hdiffer := List.lookup_eq_none_iff.mp hlookup entry hmem
    simp [hname] at hdiffer

theorem sharedLogger_of_not_mem (h : name ∉ r.shared.map (·.1)) :
    r.sharedLogger name =
      ({ (r.addLogger name (.ofSeverity .warning)).1 with
          shared := r.shared ++ [(name, (r.addLogger name (.ofSeverity .warning)).2)] },
        (r.addLogger name (.ofSeverity .warning)).2) := by
  have hlookup : r.shared.lookup name = none := by
    refine List.lookup_eq_none_iff.mpr fun entry hmem => bne_iff_ne.mpr ?_
    rintro rfl
    exact h (List.mem_map_of_mem hmem)
  rw [sharedLogger, hlookup]
  dsimp only
  rw [shared_addLogger]

/-- Asking for a shared logger adds its name, unless it is there. -/
theorem mem_names_sharedLogger (r : Registry) (name n : String) :
    n ∈ (r.sharedLogger name).1.shared.map (·.1) ↔ n = name ∨ n ∈ r.shared.map (·.1) := by
  by_cases h : name ∈ r.shared.map (·.1)
  · obtain ⟨logger, -, hshared⟩ := sharedLogger_of_mem h
    rw [hshared]
    refine ⟨Or.inr, fun hn => hn.elim (fun heq => ?_) id⟩
    rwa [heq]
  · rw [sharedLogger_of_not_mem h]
    dsimp only
    rw [List.map_append, List.mem_append, List.map_singleton, List.mem_singleton]
    exact Or.comm

/-- Asking for the shared logger of a new name gives its channel the level of warnings. -/
theorem level_sharedLogger (h : name ∉ r.shared.map (·.1)) (n : String) :
    (r.sharedLogger name).1.level n =
      if n = channelName name then .ofSeverity .warning else r.level n := by
  rw [sharedLogger_of_not_mem h]
  exact level_addLogger r name (.ofSeverity .warning) n

theorem channel_sharedLogger (r : Registry) (name : String)
    (hr : ∀ {name logger}, (name, logger) ∈ r.shared → logger.channel = channelName name) :
    (r.sharedLogger name).2.channel = channelName name := by
  by_cases h : name ∈ r.shared.map (·.1)
  · obtain ⟨logger, hmem, hshared⟩ := sharedLogger_of_mem h
    rw [hshared]
    exact hr hmem
  · rw [sharedLogger_of_not_mem h]
    rfl

/-- The channels are a tree, and the shared logger of each name has the channel of that name, which
was set up. -/
structure Consistent (r : Registry) : Prop where
  tree : r.IsTree
  shared : ∀ {name logger}, (name, logger) ∈ r.shared →
    logger.channel = channelName name ∧ r.IsSetUp logger.channel

namespace Consistent

theorem ensure (hr : r.Consistent) (name : String) : (r.ensure name).Consistent where
  tree := hr.tree.ensure name
  shared hmem := by
    rw [shared_ensure] at hmem
    exact ⟨(hr.shared hmem).1, (hr.shared hmem).2.ensure name⟩

theorem addLogger (hr : r.Consistent) (name : String) (l : Level) :
    (r.addLogger name l).1.Consistent where
  tree := hr.tree.addLogger name l
  shared hmem := by
    rw [shared_addLogger] at hmem
    exact ⟨(hr.shared hmem).1, (hr.shared hmem).2.addLogger name l⟩

theorem sharedLogger (hr : r.Consistent) (name : String) : (r.sharedLogger name).1.Consistent := by
  by_cases h : name ∈ r.shared.map (·.1)
  · obtain ⟨logger, -, hshared⟩ := sharedLogger_of_mem h
    rwa [hshared]
  · have hadd := hr.addLogger name (.ofSeverity .warning)
    rw [sharedLogger_of_not_mem h]
    refine ⟨hadd.tree.congr fun _ => rfl, fun hmem => ?_⟩
    rcases List.mem_append.mp hmem with hold | hnew
    · rw [← shared_addLogger r name (.ofSeverity .warning)] at hold
      exact hadd.shared hold
    · obtain ⟨rfl, rfl⟩ := Prod.mk.inj (List.mem_singleton.mp hnew)
      exact ⟨rfl, isSetUp_addLogger r _ _⟩

theorem setLevel (hr : r.Consistent) (name : String) (l : Level) :
    (r.setLevel name l).Consistent where
  tree := hr.tree.setLevel name l
  shared hmem := ⟨(hr.shared hmem).1, (hr.shared hmem).2.setLevel name l⟩

theorem foldl_setLevel (hr : r.Consistent) (loggers : List Logger) (l : Level) :
    (loggers.foldl (fun r logger => r.setLevel logger.channel l) r).Consistent := by
  induction loggers generalizing r with
  | nil => exact hr
  | cons logger rest ih => exact ih (hr.setLevel logger.channel l)

theorem withContexts (hr : r.Consistent) (contexts : List Context) :
    { r with contexts }.Consistent where
  tree := hr.tree.congr fun _ => rfl
  shared hmem := hr.shared hmem

/-- Names of shared loggers have loggers with channels. -/
theorem isSome_channel? (hr : r.Consistent) :
    ∀ logger ∈ r.shared.map (·.2), (r.channel? logger.channel).isSome := by
  intro logger hmem
  obtain ⟨⟨name, logger⟩, hentry, rfl⟩ := List.mem_map.mp hmem
  exact (hr.shared hentry).2.isSome

/-- Asking for a shared logger keeps what is set up. -/
theorem isSetUp_sharedLogger (hr : r.Consistent) (name : String)
    (hn : n = channelName name ∨ r.IsSetUp n) : (r.sharedLogger name).1.IsSetUp n := by
  by_cases h : name ∈ r.shared.map (·.1)
  · obtain ⟨logger, hmem, hshared⟩ := sharedLogger_of_mem h
    obtain ⟨hchannel, hsetUp⟩ := hr.shared hmem
    rw [hshared]
    rcases hn with rfl | hn
    · rwa [← hchannel]
    · exact hn
  · rw [sharedLogger_of_not_mem h]
    rcases hn with rfl | hn
    · exact isSetUp_addLogger r name _
    · exact hn.addLogger name (.ofSeverity .warning)

theorem map_channel_shared (hr : r.Consistent) :
    (r.shared.map (·.2)).map (·.channel) = (r.shared.map (·.1)).map channelName := by
  rw [List.map_map, List.map_map]
  exact List.map_congr_left fun entry hmem => (hr.shared hmem).1

end Consistent

/-- Logging starts from the topmost channel. -/
theorem exists_initial_eq : ∃ r : Registry,
    r.channels = [⟨Channel.rootName, .ofSeverity .warning, none, [], true⟩] ∧ r.shared = [] ∧
      Registry.initial = ((r.sharedLogger rulesName).1.sharedLogger cacheName).1 :=
  ⟨_, rfl, rfl, rfl⟩

theorem consistent_initial : Registry.initial.Consistent := by
  obtain ⟨r, hchannels, hshared, hinitial⟩ := exists_initial_eq
  rw [hinitial]
  refine Consistent.sharedLogger (Consistent.sharedLogger ⟨?_, fun hmem => ?_⟩ rulesName) cacheName
  · exact IsTree.of_singleton rfl rfl hchannels
  · rw [hshared] at hmem
    cases hmem

end Registry

end FileChecks
