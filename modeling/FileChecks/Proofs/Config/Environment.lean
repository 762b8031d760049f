import FileChecks.Config.File
import FileChecks.Proofs.Config.Layers
import FileChecks.Proofs.Value.Alike
import Mathlib.Data.List.Induction
import Mathlib.Data.List.TakeWhile

/-!
Settings of the environment. A setting is what the last variable with its name says, whatever the
other variables are and wherever they stand.
-/
namespace FileChecks

namespace Text
variable {separator : Char} {cs a b : List Char}

theorem cut_append (b : List Char) (h : separator ∉ a) :
    cut separator (a ++ separator :: b) = (a, b) := by
  have hpass : ∀ c ∈ a, (c != separator) = true := fun c hc =>
    bne_iff_ne.mpr fun heq => h (heq ▸ hc)
  unfold cut
  rw [List.takeWhile_append_of_pos hpass, List.dropWhile_append_of_pos hpass]
  simp

/-- If something is after a separator, the text is put together from what is around it. -/
theorem eq_append_of_cut (h : cut separator cs = (a, b)) (hb : b ≠ []) :
    cs = a ++ separator :: b ∧ separator ∉ a := by
  obtain ⟨ha, hrest⟩ := Prod.mk.inj h
  have hnot : separator ∉ a := by
    intro hmem
    rw [← ha] at hmem
    simpa using List.mem_takeWhile_imp hmem
  refine ⟨?_, hnot⟩
  cases hdrop : cs.dropWhile (· != separator) with
  | nil => simp [hdrop, ← hrest] at hb
  | cons c rest =>
    have hc : c = separator := by
      have hhead := List.head_dropWhile_not (· != separator) (l := cs) (by simp [hdrop])
      simpa [hdrop] using hhead
    have hcs := List.takeWhile_append_dropWhile (p := (· != separator)) (l := cs)
    rw [ha, hdrop] at hcs
    rw [hdrop] at hrest
    rw [← hcs, hc, ← hrest]
    rfl

theorem isSilent_underscore : isSilent '_' = false := by decide +kernel

theorem isCased_underscore : isCased '_' = false := by decide +kernel

theorem any_isCased_append_underscore (cs rest : List Char) :
    (((cs ++ '_' :: rest).dropWhile isSilent).head?.any isCased) =
      ((cs.dropWhile isSilent).head?.any isCased) := by
  rw [List.dropWhile_append]
  cases cs.dropWhile isSilent with
  | nil => simp [isSilent_underscore, isCased_underscore]
  | cons c cs => rfl

/-- An underscore is no letter, so the lower case of what is before it and of what is after it do not
depend on each other. -/
theorem lowerFrom_append_underscore (afterLetter : Bool) (cs rest : List Char) :
    lowerFrom afterLetter (cs ++ '_' :: rest) =
      lowerFrom afterLetter cs ++ '_' :: lowerFrom false rest := by
  induction cs generalizing afterLetter with
  | nil =>
    change lowerFrom afterLetter ('_' :: rest) = '_' :: lowerFrom false rest
    rw [lowerFrom, isSilent_underscore, isCased_underscore]
    rfl
  | cons c cs ih =>
    rw [List.cons_append, lowerFrom, lowerFrom, any_isCased_append_underscore, ih,
      List.append_assoc]

end Text

namespace Environment
variable {e e' : Environment} {sectionName key name : String}

/-- A variable of this name holds the setting of a key in a section. -/
def Names (sectionName key name : String) : Prop :=
  ∃ t, name = leader ++ t ∧ Text.lower t = sectionName ++ "_" ++ key

theorem lower_leader_append (t : String) :
    Text.lower (leader ++ t) = "filematch_" ++ Text.lower t := by
  have hword : Text.lowerFrom false "FILEMATCH".toList = "filematch".toList := by decide +kernel
  have hleader : (leader ++ t).toList = "FILEMATCH".toList ++ '_' :: t.toList := by
    rw [String.toList_append]
    rfl
  apply String.toList_inj.mp
  rw [Text.lower, hleader, Text.lowerFrom_append_underscore, hword]
  simp [Text.lower]

theorem lower_of_names (h : Names sectionName key name) :
    Text.lower name = "filematch_" ++ (sectionName ++ "_" ++ key) := by
  obtain ⟨t, rfl, hlower⟩ := h
  rw [lower_leader_append, hlower]

theorem setting?_leader_append (t : String) :
    setting? (leader ++ t) =
      let parts := Text.cut '_' (Text.lower t).toList
      if parts.1.isEmpty || parts.2.isEmpty then none
      else some (String.ofList parts.1, String.ofList parts.2) := by
  have hleader : leader.toList.isPrefixOf (leader ++ t).toList = true := by simp
  have hdrop : (leader ++ t).toList.drop leader.length = t.toList := by
    rw [String.toList_append, List.drop_left' String.length_toList]
  unfold setting?
  rw [if_pos hleader, hdrop, String.ofList_toList]

theorem exists_leader_append (h : setting? name ≠ none) : ∃ t, name = leader ++ t := by
  have hleader : leader.toList.isPrefixOf name.toList = true := by
    by_contra hnot
    exact h (if_neg hnot)
  obtain ⟨rest, hrest⟩ := List.isPrefixOf_iff_prefix.mp hleader
  refine ⟨String.ofList rest, String.toList_inj.mp ?_⟩
  simp [← hrest]

/-- A variable holds a setting whose section and key it names, neither of which is empty. -/
theorem setting?_eq_some_iff :
    setting? name = some (sectionName, key) ↔
      sectionName ≠ "" ∧ '_' ∉ sectionName.toList ∧ key ≠ "" ∧ Names sectionName key name := by
  constructor
  · intro h
    have hsome : setting? name ≠ none := by simp [h]
    obtain ⟨t, rfl⟩ := exists_leader_append hsome
    rw [setting?_leader_append] at h
    cases hcut : Text.cut '_' (Text.lower t).toList with
    | mk first last =>
      simp only [hcut, Option.ite_none_left_eq_some, Bool.or_eq_true, List.isEmpty_iff, not_or,
        Option.some.injEq, Prod.mk.injEq] at h
      obtain ⟨⟨hfirst, hlast⟩, rfl, rfl⟩ := h
      obtain ⟨hlower, hnot⟩ := Text.eq_append_of_cut hcut hlast
      refine ⟨by simpa using hfirst, by simpa using hnot, by simpa using hlast, t, rfl, ?_⟩
      apply String.toList_inj.mp
      simp [hlower]
  · rintro ⟨hfirst, hnot, hlast, t, rfl, hlower⟩
    have hwords : (Text.lower t).toList = sectionName.toList ++ '_' :: key.toList := by
      simp [hlower]
    rw [setting?_leader_append, hwords, Text.cut_append _ hnot]
    simp [hfirst, hlast]

/-- The variables that hold the setting of a key in a section, in their order. -/
def ofSetting (e : Environment) (sectionName key : String) : Environment :=
  e.filter (setting? ·.1 == some (sectionName, key))

theorem ofSetting_append (e e' : Environment) (sectionName key : String) :
    (e ++ e').ofSetting sectionName key =
      e.ofSetting sectionName key ++ e'.ofSetting sectionName key := List.filter_append ..

theorem sections_append_singleton (e : Environment) (v : String × String) :
    (e ++ [v]).sections =
      match setting? v.1 with
      | some (sectionName, key) => putSetting e.sections sectionName key (readValue v.2)
      | none => e.sections := by
  rw [sections, List.foldl_append]
  rfl

/-- The map of a section: it has the last value of every setting in it, and nothing else. -/
structure IsSection (e : Environment) (sectionName : String) (settings : Entries) : Prop where
  table : settings.IsTable
  last : ∀ key, settings.textKey? key =
    (e.ofSetting sectionName key).getLast?.map (readValue ·.2)

/-- A setting of another section, or none at all, leaves a section as it is. -/
theorem IsSection.append_of_ne {settings : Entries} (h : e.IsSection sectionName settings)
    {v : String × String} (hv : ∀ key, setting? v.1 ≠ some (sectionName, key)) :
    (e ++ [v]).IsSection sectionName settings := by
  refine ⟨h.table, fun key => ?_⟩
  have hnone : ofSetting [v] sectionName key = [] := by simp [ofSetting, hv key]
  rw [h.last, ofSetting_append, hnone, List.append_nil]

theorem IsSection.put {settings : Entries} (h : e.IsSection sectionName settings)
    {v : String × String} (hv : setting? v.1 = some (sectionName, key)) :
    (e ++ [v]).IsSection sectionName (settings.put (.text key) (readValue v.2)) := by
  refine ⟨h.table.put key _, fun key' => ?_⟩
  by_cases hkey : key = key'
  · subst hkey
    have hone : ofSetting [v] sectionName key = [v] := by simp [ofSetting, hv]
    rw [Entries.textKey?_put_self, ofSetting_append, hone, List.getLast?_concat]
    rfl
  · have hnone : ofSetting [v] sectionName key' = [] := by simp [ofSetting, hv, hkey]
    rw [Entries.textKey?_put_of_ne hkey, h.last, ofSetting_append, hnone, List.append_nil]

/-- The sections of an environment are those with a setting. -/
structure HasSections (e : Environment) (sections : Entries) : Prop where
  table : sections.IsTable
  find : ∀ sectionName, ∃ settings, e.IsSection sectionName settings ∧
    sections.textKey? sectionName = if settings.isEmpty then none else some (.map settings)

theorem HasSections.append_of_none {sections : Entries} (h : e.HasSections sections)
    {v : String × String} (hv : setting? v.1 = none) : (e ++ [v]).HasSections sections := by
  refine ⟨h.table, fun sectionName => ?_⟩
  obtain ⟨settings, hsection, hfind⟩ := h.find sectionName
  exact ⟨settings, hsection.append_of_ne (by simp [hv]), hfind⟩

theorem HasSections.putSetting {sections : Entries} (h : e.HasSections sections)
    {v : String × String} (hv : setting? v.1 = some (sectionName, key)) :
    (e ++ [v]).HasSections (putSetting sections sectionName key (readValue v.2)) := by
  obtain ⟨settings, hsection, hfind⟩ := h.find sectionName
  have hput : Environment.putSetting sections sectionName key (readValue v.2) =
      sections.put (.text sectionName) (.map (settings.put (.text key) (readValue v.2))) := by
    unfold Environment.putSetting
    rw [hfind]
    cases settings <;> rfl
  rw [hput]
  refine ⟨h.table.put sectionName _, fun other => ?_⟩
  by_cases hother : sectionName = other
  · subst hother
    refine ⟨_, hsection.put hv, ?_⟩
    rw [Entries.textKey?_put_self, Entries.isEmpty_put]
    rfl
  · obtain ⟨settings', hsection', hfind'⟩ := h.find other
    refine ⟨settings', hsection'.append_of_ne (by simp [hv, hother]), ?_⟩
    rw [Entries.textKey?_put_of_ne hother, hfind']

theorem hasSections (e : Environment) : e.HasSections e.sections := by
  induction e using List.reverseRecOn with
  | nil => exact ⟨.nil, fun _ => ⟨[], ⟨.nil, fun _ => rfl⟩, rfl⟩⟩
  | append_singleton e v ih =>
    rw [sections_append_singleton]
    cases hv : setting? v.1 with
    | none => exact ih.append_of_none hv
    | some setting => exact ih.putSetting hv

/-- A setting of the environment is the text of the last variable that holds it. -/
theorem atPath?_sections (e : Environment) (sectionName key : String) :
    (Value.map e.sections).atPath? [sectionName, key] =
      (e.ofSetting sectionName key).getLast?.map (readValue ·.2) := by
  obtain ⟨settings, hsection, hfind⟩ := (hasSections e).find sectionName
  have hlast := hsection.last key
  rw [Value.atPath?_map_cons, hfind, ← hlast]
  cases settings with
  | nil => rfl
  | cons first rest =>
    change (Value.map (first :: rest)).atPath? [key] = _
    rw [Value.atPath?_map_cons]
    cases Entries.textKey? (first :: rest) key <;> rfl

/-- Variables with the same settings in the same order make sections that are alike. -/
theorem alike_sections
    (h : ∀ sectionName key, e.ofSetting sectionName key = e'.ofSetting sectionName key) :
    Value.Alike (.map e.sections) (.map e'.sections) := by
  refine .of_isTable (hasSections e).table (hasSections e').table fun sectionName => ?_
  obtain ⟨settings, hsection, hfind⟩ := (hasSections e).find sectionName
  obtain ⟨settings', hsection', hfind'⟩ := (hasSections e').find sectionName
  have halike : Value.Alike (.map settings) (.map settings') := by
    refine .of_isTable hsection.table hsection'.table fun key => ?_
    rw [hsection.last, hsection'.last, h]
    exact Value.Alike.rel_refl _
  rw [hfind, hfind', ← halike.isEmpty_eq]
  cases settings.isEmpty with
  | true => exact .none
  | false => exact .some halike

/-- Variables in another order have the same settings in the same order if those whose names are the
same in lower case keep theirs. -/
theorem ofSetting_eq_of_filter_lower
    (h : ∀ name, e.filter (Text.lower ·.1 == name) = e'.filter (Text.lower ·.1 == name))
    (sectionName key : String) : e.ofSetting sectionName key = e'.ofSetting sectionName key := by
  have hnamed (e : Environment) : e.ofSetting sectionName key =
      ofSetting (e.filter (Text.lower ·.1 == "filematch_" ++ (sectionName ++ "_" ++ key)))
        sectionName key := by
    unfold ofSetting
    rw [List.filter_filter]
    apply List.filter_congr
    intro v _
    by_cases hv : setting? v.1 = some (sectionName, key)
    · have hnames := (setting?_eq_some_iff.mp hv).2.2.2
      simp [hv, lower_of_names hnames]
    · simp [hv]
  rw [hnamed e, hnamed e', h]

/-- A variable that holds no setting changes no section. -/
theorem sections_append_cons (e e' : Environment) {v : String × String} (hv : setting? v.1 = none) :
    (e ++ v :: e').sections = (e ++ e').sections := by
  unfold sections
  rw [List.foldl_append, List.foldl_append, List.foldl_cons]
  congr 1
  dsimp only
  rw [hv]

theorem readValue_ne_null (text : String) : readValue text ≠ .null := by
  unfold readValue
  split
  · simp
  split
  · simp
  split
  · simp
  split <;> simp

def entries (e : Environment) : Entries :=
  if e.sections.isEmpty then [] else [(.text Setting.root, .map e.sections)]

theorem entries_append_cons (e e' : Environment) {v : String × String} (hv : setting? v.1 = none) :
    entries (e ++ v :: e') = entries (e ++ e') := by
  unfold entries
  rw [sections_append_cons e e' hv]

theorem atPath?_entries (e : Environment) (sectionName key : String) :
    (Value.map e.entries).atPath? [Setting.root, sectionName, key] =
      (e.ofSetting sectionName key).getLast?.map (readValue ·.2) := by
  have hroot : Entries.textKey? [(.text Setting.root, .map e.sections)] Setting.root =
      some (.map e.sections) := by
    rw [Entries.textKey?_cons, Value.beq_text]
    simp [Value.text?]
  rw [← atPath?_sections]
  unfold entries
  cases hsections : e.sections with
  | nil => rfl
  | cons first rest =>
    rw [hsections] at hroot
    rw [List.isEmpty_cons, if_neg (by simp), Value.atPath?_map_cons, hroot]
    rfl

theorem alike_entries
    (h : ∀ sectionName key, e.ofSetting sectionName key = e'.ofSetting sectionName key) :
    Value.Alike (.map e.entries) (.map e'.entries) := by
  have halike := alike_sections h
  unfold entries
  rw [← halike.isEmpty_eq]
  cases e.sections.isEmpty with
  | true => exact .refl _
  | false =>
    change Value.Alike (.map [(.text Setting.root, .map e.sections)])
      (.map [(.text Setting.root, .map e'.sections)])
    refine .map (.refl _) fun key v w hv hw => ?_
    obtain ⟨rfl, rfl⟩ := Prod.mk.inj (List.mem_singleton.mp hv)
    obtain ⟨-, rfl⟩ := Prod.mk.inj (List.mem_singleton.mp hw)
    exact halike

end Environment

/-- Of values that are alike both are null or none is. -/
theorem Value.Alike.present? {v w : Value} (h : Value.Alike v w) :
    Option.Rel Value.Alike v.present? w.present? := by
  cases h with
  | refl => exact rel_refl _
  | map keys entries => exact .some (.map keys entries)

namespace Config
variable {c c' : Config} {e e' : Environment} {files : Files} {file : Option String}

theorem held?_alike {l : Layer} (h : Value.Alike (.map (c.layer l)) (.map (c'.layer l)))
    (path : KeyPath) : Option.Rel Value.Alike (c.held? path l) (c'.held? path l) := by
  have hanswer := h.atPath? path
  rw [held?_eq, held?_eq]
  revert hanswer
  generalize (Value.map (c.layer l)).atPath? path = v, (Value.map (c'.layer l)).atPath? path = w
  intro hanswer
  cases hanswer with
  | none => exact .none
  | some halike => exact halike.present?

/-- Configurations whose layers are alike give answers that are alike. -/
theorem get_alike (h : ∀ l, Value.Alike (.map (c.layer l)) (.map (c'.layer l))) (key : String)
    (default : Value) : Value.Alike (c.get key default) (c'.get key default) := by
  unfold get get?
  induction Layer.all.reverse with
  | nil => exact .refl _
  | cons l layers ih =>
    have hheld := held?_alike (h l) (KeyPath.ofText key)
    rw [List.findSome?_cons, List.findSome?_cons]
    revert hheld
    generalize c.held? (KeyPath.ofText key) l = v, c'.held? (KeyPath.ofText key) l = w
    intro hheld
    cases hheld with
    | none => exact ih
    | some halike => exact halike

theorem ofText_setting {sectionName key : String} (hsection : '.' ∉ sectionName.toList)
    (hkey : '.' ∉ key.toList) :
    KeyPath.ofText (Setting.root ++ "." ++ sectionName ++ "." ++ key) =
      [Setting.root, sectionName, key] := by
  have hroot : '.' ∉ Setting.root.toList := by decide
  rw [KeyPath.ofText_append, KeyPath.ofText_append, KeyPath.ofText_of_notMem hroot,
    KeyPath.ofText_of_notMem hsection, KeyPath.ofText_of_notMem hkey]
  rfl

theorem readEnvironment_eq (h : c.layer .environment = []) (e : Environment) :
    c.readEnvironment e = c.withLayer e.entries .environment := by
  unfold readEnvironment Environment.entries
  by_cases hsections : e.sections.isEmpty = true
  · rw [if_pos hsections, if_pos hsections, withLayer, ← h]
    rfl
  · rw [if_neg hsections, if_neg hsections]
    rfl

/-- A new configuration is one without the environment, to which that is added. -/
theorem exists_of_new (h : new files e file = .ok c) :
    ∃ base, base.layer .environment = [] ∧ base.layer .override = [] ∧
      (∀ e', new files e' file false = .ok base) ∧
      ∀ e', new files e' file = .ok (base.withLayer e'.entries .environment) := by
  obtain ⟨base, hempty, hnone, hbase⟩ : ∃ base : Config, base.layer .environment = [] ∧
      base.layer .override = [] ∧ ∀ e' withEnvironment, new files e' file withEnvironment =
        .ok (if withEnvironment then base.readEnvironment e' else base) := by
    unfold new at h ⊢
    cases file with
    | none => exact ⟨initial, rfl, rfl, fun e' withEnvironment => rfl⟩
    | some file =>
      by_cases hfile : file.isEmpty = true
      · simp only [hfile, if_true]
        exact ⟨initial, rfl, rfl, fun e' withEnvironment => rfl⟩
      · cases hload : loadSettings files file with
        | error f => simp [hfile, loadFile, hload] at h
        | ok entries =>
          simp only [hfile]
          refine ⟨initial.withLayer entries .file, rfl, rfl, fun e' withEnvironment => ?_⟩
          unfold loadFile
          rw [hload]
          rfl
  refine ⟨base, hempty, hnone, fun e' => hbase e' false, fun e' => ?_⟩
  rw [← readEnvironment_eq hempty]
  exact hbase e' true

theorem held?_of_layer_eq_nil {l : Layer} (h : c.layer l = []) (key : String) :
    c.held? (KeyPath.ofText key) l = none := by
  obtain ⟨first, rest, hpath⟩ := List.exists_cons_of_ne_nil (KeyPath.ofText_ne_nil key)
  rw [held?_eq, h, hpath]
  rfl

/-- Where nothing overrides it, what the environment holds is the answer, and else it is what it was
without the environment. -/
theorem get_withLayer_environment {base : Config} (hempty : base.layer .environment = [])
    (hnone : base.layer .override = []) (entries : Entries) (key : String) (default : Value) :
    (base.withLayer entries .environment).get key default =
      (((Value.map entries).atPath? (KeyPath.ofText key)).bind Value.present?).getD
        (base.get key default) := by
  have habove (c : Config) (h : c.layer .override = []) :
      Layer.environment.above.findSome? (c.held? (KeyPath.ofText key)) = none := by
    rw [List.findSome?_eq_none_iff]
    intro l hl
    obtain rfl : l = .override := by revert hl; cases l <;> simp [Layer.above, Layer.number]
    exact held?_of_layer_eq_nil h key
  have hbelow : Layer.environment.below.findSome?
      ((base.withLayer entries .environment).held? (KeyPath.ofText key)) =
        Layer.environment.below.findSome? (base.held? (KeyPath.ofText key)) := rfl
  have hbase : base.held? (KeyPath.ofText key) .environment = none :=
    held?_of_layer_eq_nil hempty key
  unfold get
  rw [get?_eq_or _ key .environment, get?_eq_or base key .environment,
    habove base hnone, habove (base.withLayer entries .environment) hnone, hbelow, hbase, held?_eq,
    layer_withLayer, if_pos rfl, Option.none_or, Option.none_or, Option.none_or]
  cases ((Value.map entries).atPath? (KeyPath.ofText key)).bind Value.present? <;> rfl

/-- A setting has the value of the last variable that holds it. -/
theorem get_setting {base : Config} (hempty : base.layer .environment = [])
    (hnone : base.layer .override = []) (e : Environment) {sectionName key : String}
    (hsection : '.' ∉ sectionName.toList) (hkey : '.' ∉ key.toList) (default : Value) :
    let path := Setting.root ++ "." ++ sectionName ++ "." ++ key
    (base.withLayer e.entries .environment).get path default =
      (((e.ofSetting sectionName key).getLast?.map (Environment.readValue ·.2)).bind
        Value.present?).getD (base.get path default) := by
  intro path
  have hpath : KeyPath.ofText path = [Setting.root, sectionName, key] := ofText_setting hsection hkey
  rw [get_withLayer_environment hempty hnone, hpath, Environment.atPath?_entries]

/-- Environments that have the same settings in the same order add layers that are alike. -/
theorem get_alike_of_ofSetting (base : Config)
    (h : ∀ sectionName key, e.ofSetting sectionName key = e'.ofSetting sectionName key)
    (key : String) (default : Value) :
    Value.Alike ((base.withLayer e.entries .environment).get key default)
      ((base.withLayer e'.entries .environment).get key default) := by
  apply get_alike
  intro l
  rw [layer_withLayer, layer_withLayer]
  by_cases hl : l = .environment
  · rw [if_pos hl, if_pos hl]
    exact Environment.alike_entries h
  · rw [if_neg hl, if_neg hl]
    exact .refl _

end Config

namespace Environment
variable {e : Environment} {sectionName key : String}

theorem ofSetting_eq_nil (h : ∀ v ∈ e, ¬ Names sectionName key v.1) :
    e.ofSetting sectionName key = [] := by
  rw [ofSetting, List.filter_eq_nil_iff]
  intro v hv hsame
  exact h v hv (setting?_eq_some_iff.mp (beq_iff_eq.mp hsame)).2.2.2

/-- Of the variables with the name of a setting the last one holds it. -/
theorem getLast?_ofSetting {before after : Environment} {name text : String}
    (hset : setting? name = some (sectionName, key))
    (hafter : ∀ v ∈ after, ¬ Names sectionName key v.1) :
    (ofSetting (before ++ (name, text) :: after) sectionName key).getLast? = some (name, text) := by
  have hfirst : ofSetting ((name, text) :: after) sectionName key = [(name, text)] := by
    rw [ofSetting, List.filter_cons_of_pos (by simpa using hset)]
    exact congrArg _ (ofSetting_eq_nil hafter)
  rw [ofSetting_append, hfirst, List.getLast?_concat]

theorem setting?_eq_none {name : String}
    (h : ∀ sectionName key, sectionName ≠ "" → '_' ∉ sectionName.toList → key ≠ "" →
      ¬ Names sectionName key name) : setting? name = none := by
  cases hset : setting? name with
  | none => rfl
  | some setting =>
    obtain ⟨hsection, hmark, hkey, hname⟩ := setting?_eq_some_iff.mp hset
    exact absurd hname (h _ _ hsection hmark hkey)

end Environment

namespace Config
variable {c : Config} {e : Environment} {files : Files} {file : Option String}

/-- In a new configuration the last variable whose name is that of a setting in lower case has its
value, whatever that is, and without one the setting is as it would be without the environment.
Variables in another order give answers that are alike, which no comparison tells apart, if those
whose names are the same in lower case keep theirs. A variable without a section or without a key
changes nothing. -/
theorem environment_settings (h : new files e file = .ok c) :
    (∀ sectionName key, sectionName ≠ "" → '_' ∉ sectionName.toList → '.' ∉ sectionName.toList →
      key ≠ "" → '.' ∉ key.toList → ∀ default,
        let path := Setting.root ++ "." ++ sectionName ++ "." ++ key
        (∀ before name text after, e = before ++ (name, text) :: after →
          Environment.Names sectionName key name →
          (∀ v ∈ after, ¬ Environment.Names sectionName key v.1) →
            c.get path default = Environment.readValue text) ∧
        ((∀ v ∈ e, ¬ Environment.Names sectionName key v.1) →
          ∃ base, new files e file false = .ok base ∧ c.get path default = base.get path default)) ∧
    (∀ e' : Environment,
      (∀ name, e.filter (Text.lower ·.1 == name) = e'.filter (Text.lower ·.1 == name)) →
        ∃ c', new files e' file = .ok c' ∧ ∀ key default,
          Value.Alike (c.get key default) (c'.get key default) ∧
            ∀ v, (v == c.get key default) = (v == c'.get key default)) ∧
    ∀ before name text after, e = before ++ (name, text) :: after →
      (∀ sectionName key, sectionName ≠ "" → '_' ∉ sectionName.toList → key ≠ "" →
        ¬ Environment.Names sectionName key name) →
      new files (before ++ after) file = .ok c := by
  obtain ⟨base, hempty, hnone, hbase, hnew⟩ := exists_of_new h
  obtain rfl : base.withLayer e.entries .environment = c := by
    rw [hnew] at h
    exact Except.ok.inj h
  refine ⟨fun sectionName key hsection hmark hdot hkey hdot' default => ⟨?_, ?_⟩, fun e' he' => ?_,
    fun before name text after he hnot => ?_⟩
  · intro before name text after he hname hafter
    have hset : Environment.setting? name = some (sectionName, key) :=
      Environment.setting?_eq_some_iff.mpr ⟨hsection, hmark, hkey, hname⟩
    rw [get_setting hempty hnone e hdot hdot', he, Environment.getLast?_ofSetting hset hafter]
    exact congrArg (Option.getD · _) (Value.present?_of_ne (Environment.readValue_ne_null text))
  · intro hnames
    refine ⟨base, hbase e, ?_⟩
    rw [get_setting hempty hnone e hdot hdot', Environment.ofSetting_eq_nil hnames]
    rfl
  · have hsame := Environment.ofSetting_eq_of_filter_lower he'
    refine ⟨_, hnew e', fun key default => ?_⟩
    have halike := get_alike_of_ofSetting base hsame key default
    exact ⟨halike, halike.beq_eq⟩
  · have hset : Environment.setting? name = none := Environment.setting?_eq_none hnot
    rw [hnew, he, Environment.entries_append_cons before after hset]

theorem environment_settings_cache_enabled :
    ∃ c, new [] [("FILEMATCH_CACHE_ENABLED", "on"), ("FILEMATCH_Cache_Enabled", "0"),
        ("FILEMATCH_CACHE_", "yes")] none = .ok c ∧
      c.get "filematch.cache.enabled" = .int 0 ∧
      c.get "filematch.cache.max_entries" = .int 256 ∧
      new [] [("FILEMATCH_CACHE_ENABLED", "on"), ("FILEMATCH_Cache_Enabled", "0")] none = .ok c ∧
      ∃ c', new [] [("FILEMATCH_CACHE_ENABLED", "on"), ("FILEMATCH_CACHE_", "yes"),
          ("FILEMATCH_Cache_Enabled", "0")] none = .ok c' ∧
        Value.Alike (c.get "filematch") (c'.get "filematch") := by
  have hnames {sectionName key name : String}
      (hset : Environment.setting? name ≠ some (sectionName, key)) (hsection : sectionName ≠ "")
      (hmark : '_' ∉ sectionName.toList) (hkey : key ≠ "") :
      ¬ Environment.Names sectionName key name := fun hname =>
    hset (Environment.setting?_eq_some_iff.mpr ⟨hsection, hmark, hkey, hname⟩)
  have hkeyless : Environment.setting? "FILEMATCH_CACHE_" = none := by decide +kernel
  have hon : Environment.setting? "FILEMATCH_CACHE_ENABLED" = some ("cache", "enabled") := by
    decide +kernel
  have hzero : Environment.setting? "FILEMATCH_Cache_Enabled" = some ("cache", "enabled") := by
    decide +kernel
  obtain ⟨c, h⟩ : ∃ c, new [] [("FILEMATCH_CACHE_ENABLED", "on"),
      ("FILEMATCH_Cache_Enabled", "0"), ("FILEMATCH_CACHE_", "yes")] none = .ok c := ⟨_, rfl⟩
  obtain ⟨hget, horder, hdrop⟩ := environment_settings h
  refine ⟨c, h, ?_, ?_, ?_, ?_⟩
  · obtain ⟨hlast, -⟩ := hget "cache" "enabled" (by decide) (by decide) (by decide) (by decide)
      (by decide) .null
    have hpath : Setting.root ++ "." ++ "cache" ++ "." ++ "enabled" = "filematch.cache.enabled" := by
      decide
    rw [← hpath, hlast [("FILEMATCH_CACHE_ENABLED", "on")] "FILEMATCH_Cache_Enabled" "0" _ rfl
      ⟨"Cache_Enabled", by decide, by decide +kernel⟩]
    · rfl
    · intro v hv
      rw [List.mem_singleton.mp hv]
      exact hnames (by simp [hkeyless]) (by decide) (by decide) (by decide)
  · obtain ⟨-, hnone⟩ := hget "cache" "max_entries" (by decide) (by decide) (by decide) (by decide)
      (by decide) .null
    have hpath : Setting.root ++ "." ++ "cache" ++ "." ++ "max_entries" =
        "filematch.cache.max_entries" := by decide
    obtain ⟨base, hbase, hset⟩ := hnone fun v hv => by
      apply hnames _ (by decide) (by decide) (by decide)
      simp only [List.mem_cons, List.not_mem_nil, or_false] at hv
      rcases hv with rfl | rfl | rfl <;> simp [hon, hzero, hkeyless]
    obtain rfl : initial = base := Except.ok.inj hbase
    rw [← hpath, hset, hpath]
    with_unfolding_all rfl
  · refine hdrop [_, _] "FILEMATCH_CACHE_" "yes" [] rfl fun sectionName key hsection hmark hkey => ?_
    exact hnames (by simp [hkeyless]) hsection hmark hkey
  · have hlower : Text.lower "FILEMATCH_Cache_Enabled" ≠ Text.lower "FILEMATCH_CACHE_" := by
      decide +kernel
    obtain ⟨c', h', halike⟩ := horder [("FILEMATCH_CACHE_ENABLED", "on"), ("FILEMATCH_CACHE_", "yes"),
      ("FILEMATCH_Cache_Enabled", "0")] fun name => by
        by_cases hname : Text.lower "FILEMATCH_CACHE_" = name
        · subst hname
          simp [List.filter_cons, hlower]
        · simp [List.filter_cons, hname]
    exact ⟨c', h', (halike _ _).1⟩

end Config
end FileChecks
