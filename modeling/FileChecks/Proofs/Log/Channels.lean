import FileChecks.Log.Registry

/-!
What the operations on loggers do to channels. An operation that gives a level gives it to channels
of certain names and leaves the levels of all others, and a channel that a logger was made for has
one outlet from then on.
-/
namespace FileChecks.Registry
variable {r : Registry} {name n : String} {c : Channel}

theorem name_of_channel? (h : r.channel? name = some c) : c.name = name := by
  have hfound := List.find?_some h
  exact eq_of_beq hfound

/-- A change of one channel is seen at its name only. -/
theorem channel?_change (r : Registry) (name : String) {f : Channel → Channel}
    (hf : ∀ c, (f c).name = c.name) (n : String) :
    (r.change name f).channel? n = if n = name then (r.channel? n).map f else r.channel? n := by
  have hpred : ((·.name == n) ∘ fun c : Channel => if c.name == name then f c else c) =
      (·.name == n) := by
    funext c
    dsimp only [Function.comp]
    split
    · rw [hf]
    · rfl
  unfold channel? change
  rw [List.find?_map, hpred]
  cases hfind : r.channels.find? (·.name == n) with
  | none => simp
  | some c =>
    have hname : c.name = n := name_of_channel? hfind
    by_cases hn : n = name <;> simp [hname, hn]

theorem name_adopt (name : String) (c : Channel) : (adopt name c).name = c.name := by
  unfold adopt
  split
  · split <;> rfl
  · rfl

/-- Only the parent of a channel changes when a new one is put over it. -/
theorem adopt_eq (name : String) (c : Channel) :
    ∃ parent, adopt name c = { c with parent } := by
  unfold adopt
  split
  · split
    · exact ⟨_, rfl⟩
    · exact ⟨c.parent, rfl⟩
  · exact ⟨c.parent, rfl⟩

theorem ensure_of_some (h : r.channel? name = some c) : r.ensure name = r := by
  rw [ensure, h]
  rfl

theorem channel?_ensure_of_none (h : r.channel? name = none) (n : String) :
    (r.ensure name).channel? n =
      if n = name then some ⟨name, .number 0, some (r.nearestAbove name), [], true⟩
      else (r.channel? n).map (adopt name) := by
  have hpred : ((·.name == n) ∘ adopt name) = (·.name == n) := by
    funext c
    exact congrArg (· == n) (name_adopt name c)
  have hold : (r.channels.map (adopt name)).find? (·.name == n) =
      (r.channel? n).map (adopt name) := by
    rw [List.find?_map, hpred]
    rfl
  unfold ensure
  rw [h]
  unfold channel?
  change ((r.channels.map (adopt name)) ++ [_]).find? _ = _
  rw [List.find?_append, hold]
  by_cases hn : n = name
  · rw [hn, h]
    simp
  · have hne : (name == n) = false := by simpa using Ne.symm hn
    simp [hn, hne, channel?]

theorem exists_channel?_ensure (r : Registry) (name : String) :
    ∃ c, (r.ensure name).channel? name = some c := by
  cases h : r.channel? name with
  | none =>
    rw [channel?_ensure_of_none h, if_pos rfl]
    exact ⟨_, rfl⟩
  | some c =>
    rw [ensure_of_some h]
    exact ⟨c, h⟩

/-- Channels stay when another one is made, and only their parents may change. -/
theorem exists_channel?_ensure_of_some (name : String) (h : r.channel? n = some c) :
    ∃ parent, (r.ensure name).channel? n = some { c with parent } := by
  cases hname : r.channel? name with
  | some d =>
    rw [ensure_of_some hname]
    exact ⟨c.parent, h⟩
  | none =>
    have hne : n ≠ name := by
      rintro rfl
      rw [h] at hname
      cases hname
    obtain ⟨parent, hadopt⟩ := adopt_eq name c
    refine ⟨parent, ?_⟩
    rw [channel?_ensure_of_none hname, if_neg hne, h, Option.map_some, hadopt]

theorem isSome_channel?_ensure (name : String) (h : (r.channel? n).isSome) :
    ((r.ensure name).channel? n).isSome := by
  obtain ⟨c, hc⟩ := Option.isSome_iff_exists.mp h
  obtain ⟨parent, hensure⟩ := exists_channel?_ensure_of_some name hc
  rw [hensure]
  rfl

/-! Levels. -/

theorem level_of_some (h : r.channel? name = some c) : r.level name = c.level := by
  rw [level, h]
  rfl

theorem level_of_none (h : r.channel? name = none) : r.level name = .number 0 := by
  rw [level, h]
  rfl

/-- A new channel is at level zero, which is the level of a name without a channel. -/
theorem level_ensure (r : Registry) (name n : String) : (r.ensure name).level n = r.level n := by
  cases h : r.channel? n with
  | some c =>
    obtain ⟨parent, hensure⟩ := exists_channel?_ensure_of_some name h
    rw [level_of_some hensure, level_of_some h]
  | none =>
    rw [level_of_none h]
    cases hname : r.channel? name with
    | some d => rw [ensure_of_some hname, level_of_none h]
    | none =>
      rw [level, channel?_ensure_of_none hname, h]
      by_cases hn : n = name <;> simp [hn]

theorem channel?_setLevel (r : Registry) (name : String) (l : Level) (n : String) :
    (r.setLevel name l).channel? n =
      if n = name then (r.channel? n).map fun c => { c with level := l } else r.channel? n :=
  channel?_change (f := fun c => { c with level := l }) r name (fun _ => rfl) n

theorem level_setLevel {l : Level} (hname : (r.channel? name).isSome) (n : String) :
    (r.setLevel name l).level n = if n = name then l else r.level n := by
  obtain ⟨c, hc⟩ := Option.isSome_iff_exists.mp hname
  by_cases hn : n = name
  · rw [if_pos hn, level, channel?_setLevel, if_pos hn, hn, hc]
    rfl
  · rw [if_neg hn, level, channel?_setLevel, if_neg hn, level]

theorem isSome_channel?_setLevel (r : Registry) (name : String) (l : Level) (n : String) :
    ((r.setLevel name l).channel? n).isSome = (r.channel? n).isSome := by
  rw [channel?_setLevel]
  split
  · rw [Option.isSome_map]
  · rfl

theorem channel?_addLogger (r : Registry) (name : String) (l : Level) (n : String) :
    (r.addLogger name l).1.channel? n =
      if n = channelName name then
        ((r.ensure (channelName name)).channel? n).map (·.setUp l r.next)
      else (r.ensure (channelName name)).channel? n :=
  channel?_change (f := (·.setUp l r.next)) (r.ensure (channelName name)) (channelName name)
    (fun _ => rfl) n

/-- A new logger gives its level to its own channel. -/
theorem level_addLogger (r : Registry) (name : String) (l : Level) (n : String) :
    (r.addLogger name l).1.level n = if n = channelName name then l else r.level n := by
  rw [level, channel?_addLogger]
  by_cases hn : n = channelName name
  · obtain ⟨c, hc⟩ := exists_channel?_ensure r (channelName name)
    rw [if_pos hn, if_pos hn, hn, hc]
    rfl
  · rw [if_neg hn, if_neg hn, ← level_ensure r (channelName name) n, level]

/-! Setting the levels of several loggers, one after the other. -/

theorem setLevelOf_of_error {level : Value} {f : Failure} (h : Level.ofValue level = .error f)
    (logger : Logger) : r.setLevelOf logger level = (r, .error f) := by
  rw [setLevelOf, h]

theorem setLevelOf_of_ok {level : Value} {l : Level} (h : Level.ofValue level = .ok l)
    (logger : Logger) : r.setLevelOf logger level = (r.setLevel logger.channel l, .ok ()) := by
  rw [setLevelOf, h]

/-- Whether the level is one does not depend on the logger, so that the first logger decides. -/
theorem setLevels_of_error {level : Value} {f : Failure} (h : Level.ofValue level = .error f)
    {loggers : List Logger} (hne : loggers ≠ []) : r.setLevels level loggers = (r, .error f) := by
  cases loggers with
  | nil => exact absurd rfl hne
  | cons logger rest => rw [setLevels, setLevelOf_of_error h]

/-- A level that is one is given to the channels of all the loggers. -/
theorem setLevels_of_ok {level : Value} {l : Level} (h : Level.ofValue level = .ok l)
    (r : Registry) (loggers : List Logger) :
    r.setLevels level loggers =
      (loggers.foldl (fun r logger => r.setLevel logger.channel l) r, .ok ()) := by
  induction loggers generalizing r with
  | nil => rfl
  | cons logger rest ih =>
    rw [setLevels, setLevelOf_of_ok h]
    exact ih _

theorem level_foldl_setLevel {l : Level} {loggers : List Logger}
    (hloggers : ∀ logger ∈ loggers, (r.channel? logger.channel).isSome) (n : String) :
    (loggers.foldl (fun r logger => r.setLevel logger.channel l) r).level n =
      if n ∈ loggers.map (·.channel) then l else r.level n := by
  induction loggers generalizing r with
  | nil => rfl
  | cons logger rest ih =>
    have hrest : ∀ logger' ∈ rest,
        ((r.setLevel logger.channel l).channel? logger'.channel).isSome := by
      intro logger' hmem
      rw [isSome_channel?_setLevel]
      exact hloggers logger' (List.mem_cons_of_mem _ hmem)
    rw [List.foldl_cons, ih hrest, level_setLevel (hloggers logger List.mem_cons_self)]
    by_cases hn : n = logger.channel
    · simp [hn]
    · simp [hn]

/-! Outlets. -/

/-- A channel that a logger was made for: it has one outlet, and its messages end there. -/
def IsSetUp (r : Registry) (n : String) : Prop :=
  ∃ c outlet, r.channel? n = some c ∧ c.outlets = [outlet] ∧ c.passesOn = false

/-- A message on a channel that was set up reaches one outlet, whatever is above the channel. -/
theorem IsSetUp.exists_outlets (h : r.IsSetUp n) : ∃ outlet, r.outlets n = [outlet] := by
  obtain ⟨c, outlet, hc, houtlets, hends⟩ := h
  refine ⟨outlet, ?_⟩
  unfold Registry.outlets line
  rw [line.go, hc, outlets.go, houtlets, hends]
  rfl

theorem IsSetUp.ensure (h : r.IsSetUp n) (name : String) : (r.ensure name).IsSetUp n := by
  obtain ⟨c, outlet, hc, houtlets, hends⟩ := h
  obtain ⟨parent, hensure⟩ := exists_channel?_ensure_of_some name hc
  exact ⟨_, outlet, hensure, houtlets, hends⟩

theorem IsSetUp.setLevel (h : r.IsSetUp n) (name : String) (l : Level) :
    (r.setLevel name l).IsSetUp n := by
  obtain ⟨c, outlet, hc, houtlets, hends⟩ := h
  by_cases hn : n = name
  · refine ⟨{ c with level := l }, outlet, ?_, houtlets, hends⟩
    rw [channel?_setLevel, if_pos hn, hc]
    rfl
  · refine ⟨c, outlet, ?_, houtlets, hends⟩
    rw [channel?_setLevel, if_neg hn, hc]

theorem IsSetUp.foldl_setLevel (h : r.IsSetUp n) (loggers : List Logger) (l : Level) :
    (loggers.foldl (fun r logger => r.setLevel logger.channel l) r).IsSetUp n := by
  induction loggers generalizing r with
  | nil => exact h
  | cons logger rest ih => exact ih (h.setLevel logger.channel l)

theorem isSetUp_addLogger (r : Registry) (name : String) (l : Level) :
    (r.addLogger name l).1.IsSetUp (channelName name) := by
  obtain ⟨c, hc⟩ := exists_channel?_ensure r (channelName name)
  refine ⟨c.setUp l r.next, r.next, ?_, rfl, rfl⟩
  rw [channel?_addLogger, if_pos rfl, hc]
  rfl

/-- A new logger replaces the outlet of its channel and leaves those of others. -/
theorem IsSetUp.addLogger (h : r.IsSetUp n) (name : String) (l : Level) :
    (r.addLogger name l).1.IsSetUp n := by
  by_cases hn : n = channelName name
  · rw [hn]
    exact isSetUp_addLogger r name l
  · obtain ⟨c, outlet, hc, houtlets, hends⟩ := h.ensure (channelName name)
    refine ⟨c, outlet, ?_, houtlets, hends⟩
    rw [channel?_addLogger, if_neg hn, hc]

theorem IsSetUp.isSome (h : r.IsSetUp n) : (r.channel? n).isSome := by
  obtain ⟨c, outlet, hc, -⟩ := h
  rw [hc]
  rfl

end FileChecks.Registry
