import FileChecks.Ambient
import FileChecks.Proofs.Config.Layers

/-!
Updates of configurations that fail. The walk to a setting makes maps as it goes on, but nothing can
be in the way below a map that it has made, so a walk that fails has made none.
-/
namespace FileChecks

/-- Something else than a map is on the way to a setting, and this is the failure for it. -/
def Entries.IsBlocked (entries : Entries) (keys : KeyPath) (f : Failure) : Prop :=
  ∃ path next more other, path ++ next :: more = keys ∧
    (Value.map entries).atPath? path = some other ∧ (∀ inner, other ≠ .map inner) ∧
      f = if more.isEmpty then .noEntries other else .noSections other

namespace Entries
variable {entries inner : Entries} {key next : String} {v other : Value} {rest keys : KeyPath}
  {f : Failure}

theorem IsBlocked.of_map (h : entries.textKey? key = some (.map inner)) (hf : inner.IsBlocked keys f) :
    entries.IsBlocked (key :: keys) f := by
  obtain ⟨path, next, more, other, hway, hpath, hother, hcause⟩ := hf
  refine ⟨key :: path, next, more, other, ?_, ?_, hother, hcause⟩
  · rw [List.cons_append, hway]
  · rw [Value.atPath?_map_cons, h]
    exact hpath

/-- What is in the way is the value at the first key, or it is further on in the map there. -/
theorem IsBlocked.cases_cons (h : entries.IsBlocked (key :: keys) f) :
    (∃ inner, entries.textKey? key = some (.map inner) ∧ IsBlocked inner keys f) ∨
      ∃ other next more, entries.textKey? key = some other ∧ (∀ inner, other ≠ .map inner) ∧
        keys = next :: more ∧ f = if more.isEmpty then .noEntries other else .noSections other := by
  obtain ⟨path, next, more, other, hway, hpath, hother, hcause⟩ := h
  cases path with
  | nil =>
    have hmap : Value.map entries = other := Option.some.inj hpath
    exact absurd hmap.symm (hother entries)
  | cons first path =>
    obtain ⟨rfl, hkeys⟩ := List.cons.inj hway
    rw [Value.atPath?_map_cons] at hpath
    obtain ⟨found, hfound, hrest⟩ := Option.bind_eq_some_iff.mp hpath
    cases path with
    | nil =>
      have hsame : found = other := Option.some.inj hrest
      subst hsame
      exact .inr ⟨found, next, more, hfound, hother, hkeys.symm, hcause⟩
    | cons second path =>
      obtain ⟨inner, rfl⟩ : ∃ inner, found = .map inner := by
        by_contra hnot
        have hleaf := Value.atPath?_cons_of_not_map (fun inner heq => hnot ⟨inner, heq⟩) second path
        rw [hleaf] at hrest
        cases hrest
      exact .inl ⟨inner, hfound, second :: path, next, more, other, hkeys, hrest, hother, hcause⟩

theorem not_isBlocked_singleton : ¬ entries.IsBlocked [key] f := by
  intro h
  rcases h.cases_cons with ⟨inner, -, hinner⟩ | ⟨_, _, _, -, -, hkeys, -⟩
  · obtain ⟨path, _, _, _, hway, -⟩ := hinner
    cases path <;> cases hway
  · cases hkeys

theorem not_isBlocked_of_none (h : entries.textKey? key = none) :
    ¬ entries.IsBlocked (key :: keys) f := by
  intro hblocked
  rcases hblocked.cases_cons with ⟨_, hmap, -⟩ | ⟨_, _, _, hother, -⟩
  · rw [h] at hmap
    cases hmap
  · rw [h] at hother
    cases hother

theorem isBlocked_cons_iff_of_map (h : entries.textKey? key = some (.map inner)) :
    entries.IsBlocked (key :: keys) f ↔ inner.IsBlocked keys f := by
  constructor
  · intro hblocked
    rcases hblocked.cases_cons with ⟨found, hmap, hinner⟩ | ⟨other, _, _, hfound, hother, -⟩
    · rw [h] at hmap
      cases hmap
      exact hinner
    · rw [h] at hfound
      exact absurd (Option.some.inj hfound).symm (hother inner)
  · exact IsBlocked.of_map h

theorem isBlocked_cons_iff_of_other (h : entries.textKey? key = some other)
    (hother : ∀ inner, other ≠ .map inner) :
    entries.IsBlocked (key :: next :: rest) f ↔
      f = if rest.isEmpty then .noEntries other else .noSections other := by
  constructor
  · intro hblocked
    rcases hblocked.cases_cons with ⟨inner, hmap, -⟩ | ⟨_, _, _, hfound, -, hkeys, hcause⟩
    · rw [h] at hmap
      exact absurd (Option.some.inj hmap) (hother inner)
    · rw [h] at hfound
      cases hfound
      cases hkeys
      exact hcause
  · intro hcause
    have hpath : (Value.map entries).atPath? [key] = some other := by
      rw [Value.atPath?_map_cons, h]
      rfl
    exact ⟨[key], next, rest, other, rfl, hpath, hother, hcause⟩

/-! One step of the walk: a map is missing, it is there, or something else is. -/

theorem putAt_of_none (h : entries.textKey? key = none) :
    entries.putAt key v (next :: rest) =
      (putAt [] next v rest).map fun inner => entries.put (.text key) (.map inner) := by
  rw [putAt, h]
  rfl

theorem putAt_of_map (h : entries.textKey? key = some (.map inner)) :
    entries.putAt key v (next :: rest) =
      (inner.putAt next v rest).map fun inner => entries.put (.text key) (.map inner) := by
  rw [putAt, h]
  rfl

theorem putAt_of_other (h : entries.textKey? key = some other) (hother : ∀ inner, other ≠ .map inner) :
    entries.putAt key v (next :: rest) =
      .error (if rest.isEmpty then .noEntries other else .noSections other) := by
  rw [putAt, h]
  cases other with
  | map inner => exact absurd rfl (hother inner)
  | _ => rfl

theorem assignAt_of_none (h : entries.textKey? key = none) :
    entries.assignAt key v (next :: rest) =
      ((assignAt [] next v rest).1, entries.put (.text key) (.map (assignAt [] next v rest).2)) := by
  rw [assignAt, getOrMake, h]
  exact congrArg (Prod.mk _) (put_put _)

theorem assignAt_of_map (h : entries.textKey? key = some (.map inner)) :
    entries.assignAt key v (next :: rest) =
      ((inner.assignAt next v rest).1,
        entries.put (.text key) (.map (inner.assignAt next v rest).2)) := by
  rw [assignAt, getOrMake, h]

theorem assignAt_of_other (h : entries.textKey? key = some other)
    (hother : ∀ inner, other ≠ .map inner) :
    entries.assignAt key v (next :: rest) =
      (.error (if rest.isEmpty then .noEntries other else .noSections other), entries) := by
  rw [assignAt, getOrMake, h]
  cases other with
  | map inner => exact absurd rfl (hother inner)
  | _ => rfl

/-- Nothing is in the way in a map that has just been made. -/
theorem exists_putAt_nil (key : String) (v : Value) (rest : KeyPath) :
    ∃ entries, putAt [] key v rest = .ok entries := by
  induction rest generalizing key with
  | nil => exact ⟨_, rfl⟩
  | cons next rest ih =>
    obtain ⟨inner, hinner⟩ := ih next
    have hnone : textKey? [] key = none := rfl
    exact ⟨put [] (.text key) (.map inner), by rw [putAt_of_none hnone, hinner]; rfl⟩

/-- Putting a value fails exactly if something is in the way. -/
theorem putAt_eq_error_iff :
    entries.putAt key v rest = .error f ↔ entries.IsBlocked (key :: rest) f := by
  induction rest generalizing entries key with
  | nil => exact ⟨nofun, fun h => absurd h not_isBlocked_singleton⟩
  | cons next rest ih =>
    cases hkey : entries.textKey? key with
    | none =>
      obtain ⟨inner, hinner⟩ := exists_putAt_nil next v rest
      rw [putAt_of_none hkey, hinner]
      exact ⟨nofun, fun h => absurd h (not_isBlocked_of_none hkey)⟩
    | some found =>
      by_cases hfound : ∃ inner, found = .map inner
      · obtain ⟨inner, rfl⟩ := hfound
        rw [putAt_of_map hkey, isBlocked_cons_iff_of_map hkey, ← ih]
        cases putAt inner next v rest <;> simp [Except.map]
      · have hother : ∀ inner, found ≠ .map inner := fun inner heq => hfound ⟨inner, heq⟩
        rw [putAt_of_other hkey hother, isBlocked_cons_iff_of_other hkey hother, Except.error.injEq,
          eq_comm]

/-- A walk that fails leaves the tree as it was. -/
theorem assignAt_eq (entries : Entries) (key : String) (v : Value) (rest : KeyPath) :
    entries.assignAt key v rest =
      match entries.putAt key v rest with
      | .ok after => (.ok (), after)
      | .error f => (.error f, entries) := by
  induction rest generalizing entries key with
  | nil => rfl
  | cons next rest ih =>
    cases hkey : entries.textKey? key with
    | none =>
      obtain ⟨inner, hinner⟩ := exists_putAt_nil next v rest
      rw [assignAt_of_none hkey, putAt_of_none hkey, ih, hinner]
      rfl
    | some found =>
      by_cases hfound : ∃ inner, found = .map inner
      · obtain ⟨inner, rfl⟩ := hfound
        rw [assignAt_of_map hkey, putAt_of_map hkey, ih]
        cases putAt inner next v rest with
        | ok after => rfl
        | error f => exact congrArg (Prod.mk _) (put_of_textKey? hkey)
      · have hother : ∀ inner, found ≠ .map inner := fun inner heq => hfound ⟨inner, heq⟩
        rw [assignAt_of_other hkey hother, putAt_of_other hkey hother]

end Entries

namespace Config
variable {c : Config} {key : String} {v : Value} {l : Layer} {f : Failure}

theorem withLayer_layer (c : Config) (l : Layer) : c.withLayer (c.layer l) l = c := by
  cases l <;> rfl

theorem set_eq_error_iff :
    c.set key v l = .error f ↔ (c.layer l).IsBlocked (KeyPath.ofText key) f := by
  obtain ⟨first, rest, hpath⟩ := List.exists_cons_of_ne_nil (KeyPath.ofText_ne_nil key)
  rw [hpath, ← Entries.putAt_eq_error_iff (v := v)]
  unfold set
  rw [hpath]
  cases hput : (c.layer l).putAt first v rest <;> simp [hput, bind, Except.bind, pure, Except.pure]

/-- Setting a value step by step sets it, or fails and leaves the configuration as it was. -/
theorem assign_eq (c : Config) (key : String) (v : Value) (l : Layer) :
    c.assign key v l =
      match c.set key v l with
      | .ok after => (.ok (), after)
      | .error f => (.error f, c) := by
  obtain ⟨first, rest, hpath⟩ := List.exists_cons_of_ne_nil (KeyPath.ofText_ne_nil key)
  unfold assign set
  rw [hpath]
  dsimp only
  rw [Entries.assignAt_eq]
  cases (c.layer l).putAt first v rest with
  | ok entries => rfl
  | error f => exact congrArg (Prod.mk _) (c.withLayer_layer l)

end Config

/-- Putting the configuration of a number back changes nothing. -/
theorem Ambient.set_config (a : Ambient) (ref : ConfigRef) :
    a.configs.set ref (a.config ref) = a.configs := by
  unfold config
  by_cases h : ref < a.configs.length
  · rw [List.getElem?_eq_getElem h]
    exact List.set_getElem_self h
  · exact List.set_eq_of_length_le (Nat.le_of_not_lt h)

/-- A setting is set, or its update fails and nothing has changed. -/
theorem run_assignSetting (ref : ConfigRef) (key : String) (v : Value) (l : Layer) (a : Ambient) :
    (assignSetting ref key v l).run.run a =
      match (a.config ref).set key v l with
      | .ok c => (.ok (), { a with configs := a.configs.set ref c })
      | .error f => (.error f, a) := by
  have hrun : (assignSetting ref key v l).run.run a =
      (((a.config ref).assign key v l).1,
        { a with configs := a.configs.set ref ((a.config ref).assign key v l).2 }) := rfl
  rw [hrun, Config.assign_eq]
  cases (a.config ref).set key v l with
  | ok c => rfl
  | error f =>
    have hsame := a.set_config ref
    dsimp only
    rw [hsame]

theorem run_loadSettingsInto (ref : ConfigRef) (file : String) (l : Layer) (a : Ambient) :
    (loadSettingsInto ref file l).run.run a =
      match (a.config ref).loadFile a.files file l with
      | .ok c => (.ok (), { a with configs := a.configs.set ref c })
      | .error f => (.error f, a) := by
  have hrun : (loadSettingsInto ref file l).run.run a =
      (do
        let c ← Run.ofExcept ((a.config ref).loadFile a.files file l)
        replaceConfig ref c : Run Unit).run.run a := rfl
  rw [hrun]
  cases (a.config ref).loadFile a.files file l <;> rfl

/-- An update of a setting fails exactly if something else than a map is on the way to it, and an
update that fails, of a setting or by a file, has changed nothing: no configuration answers in
another way, and no map has been made in any layer. -/
theorem failed_update_leaves_no_trace (a : Ambient) (ref : ConfigRef) (l : Layer) :
    (∀ key v f, ((assignSetting ref key v l).run.run a).1 = .error f ↔
      ∃ path next more other, path ++ next :: more = KeyPath.ofText key ∧
        (Value.map ((a.config ref).layer l)).atPath? path = some other ∧
        (∀ inner, other ≠ .map inner) ∧
        f = if more.isEmpty then .noEntries other else .noSections other) ∧
    (∀ key v f, ((assignSetting ref key v l).run.run a).1 = .error f →
      ((assignSetting ref key v l).run.run a).2 = a) ∧
    ∀ file f, ((loadSettingsInto ref file l).run.run a).1 = .error f →
      ((loadSettingsInto ref file l).run.run a).2 = a := by
  refine ⟨fun key v f => ?_, fun key v f h => ?_, fun file f h => ?_⟩
  · have hset : (a.config ref).set key v l = .error f ↔ _ := Config.set_eq_error_iff
    rw [run_assignSetting]
    refine Iff.trans ?_ hset
    cases (a.config ref).set key v l <;> simp
  · rw [run_assignSetting] at h ⊢
    cases hset : (a.config ref).set key v l with
    | ok c =>
      rw [hset] at h
      cases h
    | error f => rfl
  · rw [run_loadSettingsInto] at h ⊢
    cases hload : (a.config ref).loadFile a.files file l with
    | ok c =>
      rw [hload] at h
      cases h
    | error f => rfl

theorem failed_update_leaves_no_trace_below_number :
    let a := { Ambient.initial with configs := [.initial] }
    let set := assignSetting 0 "filematch.cache.max_entries.limit.soft" (.int 1) .builtin
    let load := loadSettingsInto 0 "absent.yaml" .builtin
    (set.run.run a).1 = .error (.noSections (.int 256)) ∧ (set.run.run a).2 = a ∧
      (load.run.run a).1 = .error (.config (.fileNotFound "absent.yaml")) ∧
        (load.run.run a).2 = a := by
  intro a set load
  obtain ⟨hfails, hset, hload⟩ := failed_update_leaves_no_trace a 0 .builtin
  have hblocked : (set.run.run a).1 = .error (.noSections (.int 256)) :=
    (hfails _ _ _).mpr ⟨["filematch", "cache", "max_entries"], "limit", ["soft"], .int 256,
      by decide +kernel, by with_unfolding_all rfl, nofun, rfl⟩
  have hmissing : (a.config 0).loadFile a.files "absent.yaml" .builtin =
      .error (.config (.fileNotFound "absent.yaml")) := rfl
  have habsent : (load.run.run a).1 = .error (.config (.fileNotFound "absent.yaml")) := by
    rw [run_loadSettingsInto, hmissing]
  exact ⟨hblocked, hset _ _ _ hblocked, habsent, hload _ _ habsent⟩

end FileChecks
