import FileChecks.Proofs.Compile.World
import FileChecks.Proofs.Config.Layers

/-!
Named checks of a configuration. All of them come from one layer, the highest with a section of
checks, and a check that only a lower layer has is none of them.
-/
namespace FileChecks

def Setting.check (name : String) : String := Setting.checks ++ "." ++ name

namespace Config
variable {c : Config} {path : KeyPath} {l : Layer} {entries : Entries} {name : String} {x : Value}

theorem held?_append_of_eq_none (h : c.held? path l = none) (name : String) :
    c.held? (path ++ [name]) l = none := by
  rw [held?_eq] at h ⊢
  rw [Value.atPath?_append]
  cases hv : (Value.map (c.layer l)).atPath? path with
  | none => rfl
  | some v =>
    rw [hv] at h
    cases v with
    | null => rfl
    | _ => cases h

theorem held?_append_of_map (h : c.held? path l = some (.map entries)) (name : String) :
    c.held? (path ++ [name]) l = (entries.textKey? name).bind Value.present? := by
  rw [held?_eq] at h ⊢
  rw [Value.atPath?_append]
  cases hv : (Value.map (c.layer l)).atPath? path with
  | none =>
    rw [hv] at h
    cases h
  | some v =>
    rw [hv] at h
    obtain rfl : v = .map entries := by
      cases v with
      | null => cases h
      | _ => exact Option.some.inj h
    rw [Option.bind_some, Value.atPath?_map_cons]
    cases entries.textKey? name <;> rfl

/-- What a section holds at a name is the value of the name's own key, unless it is null. -/
theorem get?_append_of_map {key : String} (h : c.get? key = some (.map entries))
    (hname : '.' ∉ name.toList) (hx : entries.textKey? name = some x) (hnull : x ≠ .null) :
    c.get? (key ++ "." ++ name) = some x := by
  obtain ⟨above, l, below, hlayers, hsection, habove⟩ := List.findSome?_eq_some_iff.mp h
  have hpresent := Value.present?_of_ne hnull
  refine List.findSome?_eq_some_iff.mpr ⟨above, l, below, hlayers, ?_, fun l' hl' => ?_⟩
  · rw [KeyPath.ofText_append, KeyPath.ofText_of_notMem hname, held?_append_of_map hsection, hx]
    exact hpresent
  · rw [KeyPath.ofText_append, KeyPath.ofText_of_notMem hname]
    exact held?_append_of_eq_none (habove l' hl') name

theorem checks_of_get? (h : c.get? Setting.checks = some (.map entries)) :
    c.checks = .map entries := by
  rw [checks, get, h, Option.getD_some]

end Config

theorem namedTrees?_cons_eq_ok_iff {name check : Value} {rest : Entries}
    {trees : List (Value × Assertion)} :
    namedTrees? ((name, check) :: rest) = .ok trees ↔
      ∃ tree others, readTree? check true = .ok tree ∧ namedTrees? rest = .ok others ∧
        (name, tree) :: others = trees := by
  rw [namedTrees?]
  constructor
  · intro h
    cases htree : readTree? check true with
    | error f =>
      rw [htree] at h
      cases h
    | ok tree =>
      cases hothers : namedTrees? rest with
      | error f =>
        rw [htree, hothers] at h
        cases h
      | ok others =>
        rw [htree, hothers] at h
        exact ⟨tree, others, rfl, rfl, Except.ok.inj h⟩
  · rintro ⟨tree, others, htree, hothers, rfl⟩
    rw [htree, hothers]
    rfl

/-- Trees are in the order of their descriptions. -/
theorem forall₂_of_namedTrees? {entries : Entries} {trees : List (Value × Assertion)}
    (h : namedTrees? entries = .ok trees) :
    List.Forall₂ (fun tree e => tree.1 = e.1 ∧ readTree? e.2 true = .ok tree.2) trees entries := by
  induction entries generalizing trees with
  | nil =>
    obtain rfl := Except.ok.inj h
    exact .nil
  | cons entry rest ih =>
    obtain ⟨tree, others, htree, hothers, rfl⟩ := namedTrees?_cons_eq_ok_iff.mp h
    exact .cons ⟨rfl, htree⟩ (ih hothers)

/-- Each named check has a tree of its own. -/
theorem exists_of_namedTrees? {entries : Entries} {trees : List (Value × Assertion)}
    (h : namedTrees? entries = .ok trees) (name : Value) :
    (∀ check, Assoc.get? entries name = some check →
      ∃ tree, readTree? check true = .ok tree ∧ Assoc.get? trees name = some tree) ∧
    (Assoc.get? entries name = none → Assoc.get? trees name = none) := by
  induction entries generalizing trees with
  | nil =>
    obtain rfl := Except.ok.inj h
    exact ⟨fun check h => (by cases h), fun _ => rfl⟩
  | cons entry rest ih =>
    obtain ⟨key, check⟩ := entry
    obtain ⟨tree, others, htree, hothers, rfl⟩ := namedTrees?_cons_eq_ok_iff.mp h
    unfold Assoc.get? at ih ⊢
    rw [List.find?_cons, List.find?_cons]
    cases key == name with
    | true =>
      refine ⟨fun found hfound => ⟨tree, ?_, rfl⟩, fun h => by cases h⟩
      rw [← Option.some.inj hfound]
      exact htree
    | false => exact ih hothers

theorem get?_treesOf (named : List (Value × Compiled)) (name : Value) :
    Assoc.get? (treesOf named) name = (Assoc.get? named name).map (·.assertion) := by
  unfold Assoc.get? treesOf
  rw [List.find?_map, Option.map_map, Option.map_map]
  rfl

def loadedTrees? : Value → Except Failure (List (Value × Assertion))
  | .map entries => namedTrees? entries
  | v => .error (.config (.checks v))

/-- Tree of one named check of a configuration, if there is one of that name. -/
def foundTree? (name : Value) : Value → Except Failure (Option Assertion)
  | .map entries =>
    match name.unhashable? with
    | some typeName => .error (.unhashable typeName)
    | none =>
      match Entries.get? entries name with
      | some check => (readTree? check true).map some
      | none => .ok none
  | _ => .ok none

def Value.canReportNamed : Value → Bool
  | .map entries => Numeral.isWritable entries.length && entries.all (·.2.canReport)
  | _ => true

namespace World
variable {acts : List Act} {source : CheckSource} {c : Config} {ref : ConfigRef} {entries : Entries}
  {name : String} {tree : Assertion}

section
variable [Predicates]

/-- Whether everything that loading named checks reports can be written then. -/
def WritesNamed (acts : List Act) (checks : Value) : Prop :=
  (reach acts).ambient.Writes .info (checks.canReportNamed = true)

/-- A source takes nothing with it but its configuration. -/
theorem result_bind_of_resolve {α : Type} {k : Config → Run α}
    (h : result acts source.resolve = .ok c) :
    result acts (source.resolve >>= k) = result acts (k c) := by
  have hkeeps : (source.resolve.run.run (reach acts).ambient).2 = (reach acts).ambient := by
    cases source <;> rfl
  exact congrArg Prod.fst (run_bind_of_ok (Prod.ext h hkeeps))

/-- What is loaded depends on the configuration of the source only. -/
theorem map_result_loadChecks_of_resolve (h : result acts source.resolve = .ok c) :
    (result acts (loadChecks source)).map treesOf = loadedTrees? c.checks ∨
      ¬ WritesNamed acts c.checks ∧ result acts (loadChecks source) = .error .unwritable := by
  rw [loadChecks, result_bind_of_resolve h]
  let post (r : Except Failure (List (Value × Compiled))) := r.map treesOf = loadedTrees? c.checks
  suffices hm : Ensures _ _ post from result_of_ensures acts hm
  unfold post
  cases c.checks with
  | map entries =>
    refine Ensures.seq (ensures_compileNamed entries fun htold e he => ?_)
      (fun named hnamed => ?_) fun f hf => hf
    · exact List.all_eq_true.mp (Bool.and_eq_true_iff.mp htold).2 e he
    · refine Ensures.seq (ensures_report _ le_rfl fun htold => ?_) (fun _ _ => Ensures.pure hnamed)
        fun _ hfails => by cases hfails
      have hlength : named.length = entries.length := by
        rw [← (forall₂_of_namedTrees? hnamed.symm).length_eq, treesOf, List.length_map]
      have hcount := (Bool.and_eq_true_iff.mp htold).1
      rw [← hlength] at hcount
      exact Bool.and_eq_true_iff.mpr ⟨hcount, rfl⟩
  | _ => exact Ensures.ofExcept rfl

theorem result_getCheck_of_get? (h : result acts source.resolve = .ok c)
    (hchecks : c.checks = .map entries) {name check : Value} (hname : name.unhashable? = none)
    (hget : Entries.get? entries name = some check) :
    result acts (getCheck source name) = (result acts (compile check true)).map some := by
  rw [getCheck, result_bind_of_resolve h, hchecks]
  dsimp only
  rw [hname]
  dsimp only
  rw [hget]
  dsimp only
  rcases hrun : (compile check true).run.run (reach acts).ambient with ⟨f | k, b⟩
  · rw [result, result, run_bind_of_error hrun, hrun]
    rfl
  · rw [result, result, run_bind_of_ok hrun, hrun]
    rfl

theorem result_getCheck_of_eq_none (h : result acts source.resolve = .ok c)
    (hchecks : c.checks = .map entries) {name : Value} (hname : name.unhashable? = none)
    (hnone : Entries.get? entries name = none) :
    result acts (getCheck source name) = .ok none := by
  rw [getCheck, result_bind_of_resolve h, hchecks]
  dsimp only
  rw [hname]
  dsimp only
  rw [hnone]
  rfl

theorem yields_getCheck (h : result acts source.resolve = .ok c)
    (hchecks : c.checks = .map entries) {name check : Value} (hname : name.unhashable? = none)
    (hget : Entries.get? entries name = some check) (htree : readTree? check true = .ok tree) :
    Yields acts check (getCheck source name) fun found =>
      found.map (·.assertion) = some tree := by
  have hsingle := result_getCheck_of_get? h hchecks hname hget
  rcases yields_of_readTree? acts htree with ⟨k, hk, rfl⟩ | ⟨hwrites, hfails⟩
  · rw [hk] at hsingle
    exact Or.inl ⟨some k, hsingle, rfl⟩
  · rw [hfails] at hsingle
    exact Or.inr ⟨hwrites, hsingle⟩

theorem result_resolve_config (acts : List Act) (ref : ConfigRef) :
    result acts (CheckSource.config ref).resolve = .ok ((reach acts).ambient.config ref) := rfl

/-- The named checks of a configuration are those of the map at their section. What that map holds
at a name is compiled, and it is what the name's own key gives unless it is null. A name that the
map lacks has no check, whatever lower layers hold at its key. -/
theorem result_loadChecks_entry {named : List (Value × Compiled)}
    (hchecks : ((reach acts).ambient.config ref).get? Setting.checks = some (.map entries))
    (hname : '.' ∉ name.toList) (hload : result acts (loadChecks (.config ref)) = .ok named) :
    (∀ x, entries.textKey? name = some x →
      (x ≠ .null → ((reach acts).ambient.config ref).get? (Setting.check name) = some x) ∧
      ∃ loaded, Assoc.get? named (.text name) = some loaded ∧
        (∀ after, Yields after x (compile x true) fun k => k.assertion = loaded.assertion) ∧
        Yields acts x (getCheck (.config ref) (.text name)) fun found =>
          found.map (·.assertion) = some loaded.assertion) ∧
    (entries.textKey? name = none →
      Assoc.get? named (.text name) = none ∧
        result acts (getCheck (.config ref) (.text name)) = .ok none) := by
  have hsource := result_resolve_config acts ref
  have hsection := Config.checks_of_get? hchecks
  have htrees := (map_result_loadChecks_of_resolve hsource).resolve_right
    fun hfails => nomatch hload.symm.trans hfails.2
  rw [hload, hsection] at htrees
  obtain ⟨hsome, hnone⟩ := exists_of_namedTrees? htrees.symm (.text name)
  constructor
  · intro x hx
    refine ⟨Config.get?_append_of_map hchecks hname hx, ?_⟩
    obtain ⟨tree, htree, hfound⟩ := hsome x hx
    rw [get?_treesOf, Option.map_eq_some_iff] at hfound
    obtain ⟨loaded, hloaded, rfl⟩ := hfound
    exact ⟨loaded, hloaded, fun after => yields_of_readTree? after htree,
      yields_getCheck hsource hsection rfl hx htree⟩
  · intro hmissing
    have hgone := hnone hmissing
    rw [get?_treesOf, Option.map_eq_none_iff] at hgone
    exact ⟨hgone, result_getCheck_of_eq_none hsource hsection rfl hmissing⟩

/-- To begin with, named checks are loaded if each has a tree. -/
theorem exists_result_loadChecks {configs : List Config} {c : Config} (hc : configs[0]? = some c)
    (h : c.checks = .map entries) {trees : List (Value × Assertion)}
    (htrees : namedTrees? entries = .ok trees) :
    ∃ named, result [.configs configs] (loadChecks (.config 0)) = .ok named ∧
      treesOf named = trees := by
  have hsource : result [.configs configs] (CheckSource.config 0).resolve = .ok c := by
    rw [result_resolve_config]
    exact congrArg Except.ok (congrArg (·.getD .initial) hc)
  have hquiet : Registry.initial.passes Registry.rulesName Severity.info.rank = false := by
    decide +kernel
  have hsettings : (Config.initial.readEnvironment []).cacheSettings.isOk = true := by
    decide +kernel
  have hwrites : WritesNamed [.configs configs] c.checks := Ambient.writes_of_quiet hquiet hsettings
  have hload := (map_result_loadChecks_of_resolve hsource).resolve_right
    fun hfails => hfails.1 hwrites
  rw [h, loadedTrees?, htrees] at hload
  cases hnamed : result [.configs configs] (loadChecks (.config 0)) with
  | error f =>
    rw [hnamed] at hload
    cases hload
  | ok named =>
    rw [hnamed] at hload
    exact ⟨named, rfl, Except.ok.inj hload⟩

end

theorem result_loadChecks_entry_docs :
    ∃ c, Config.initial.set "filematch.checks.docs" (.map [(.text "stem", .text "readme")]) .file =
        .ok c ∧
      ∃ named, result [.configs [c]] (loadChecks (.config 0)) = .ok named ∧
        c.get? "filematch.checks.docs" = some (.map [(.text "stem", .text "readme")]) ∧
        ∃ loaded, Assoc.get? named (.text "docs") = some loaded ∧
          loaded.assertion = .fields [(.text "stem", .text "readme")] := by
  obtain ⟨c, hc, hchecks⟩ : ∃ c,
      Config.initial.set "filematch.checks.docs" (.map [(.text "stem", .text "readme")]) .file =
        .ok c ∧
      c.get? Setting.checks = some (.map [(.text "docs", .map [(.text "stem", .text "readme")])]) :=
    ⟨_, by with_unfolding_all rfl, by with_unfolding_all rfl⟩
  have hsection : ((reach [.configs [c]]).ambient.config 0).get? Setting.checks = some (.map _) :=
    hchecks
  have htrees : namedTrees? [(.text "docs", .map [(.text "stem", .text "readme")])] = .ok _ := rfl
  obtain ⟨named, hload, -⟩ := exists_result_loadChecks (show [c][0]? = some c from rfl)
    (Config.checks_of_get? hchecks) htrees
  obtain ⟨hvalue, loaded, hloaded, hcompiled, -⟩ :=
    (result_loadChecks_entry hsection (by decide +kernel : '.' ∉ "docs".toList) hload).1
      (.map [(.text "stem", .text "readme")]) (by with_unfolding_all rfl)
  refine ⟨c, hc, named, hload, hvalue (by simp), loaded, hloaded, ?_⟩
  obtain ⟨k, hk, hsame⟩ := (hcompiled []).exists_of_writes (writes_nil _)
  rw [← hsame]
  exact (Except.ok.inj (readTree?_of_result hk)).symm

/-- A check in a higher layer hides those of the layers below, although their own keys give them. -/
theorem result_loadChecks_hides_lower :
    ∃ lower both,
      Config.initial.set "filematch.checks.docs" (.map [(.text "stem", .text "readme")]) .file =
        .ok lower ∧
      lower.set "filematch.checks.main" (.map [(.text "stem", .text "main")]) .override =
        .ok both ∧
      both.get? "filematch.checks.docs" = some (.map [(.text "stem", .text "readme")]) ∧
      (∃ entries, both.get? "filematch.checks" = some (.map entries)) ∧
      (∃ named, result [.configs [both]] (loadChecks (.config 0)) = .ok named ∧
        Assoc.get? named (.text "docs") = none) ∧
      result [.configs [both]] (getCheck (.config 0) (.text "docs")) = .ok none := by
  obtain ⟨lower, both, hlower, hboth, hdocs, hchecks⟩ : ∃ lower both,
      Config.initial.set "filematch.checks.docs" (.map [(.text "stem", .text "readme")]) .file =
        .ok lower ∧
      lower.set "filematch.checks.main" (.map [(.text "stem", .text "main")]) .override =
        .ok both ∧
      both.get? "filematch.checks.docs" = some (.map [(.text "stem", .text "readme")]) ∧
      both.get? Setting.checks =
        some (.map [(.text "main", .map [(.text "stem", .text "main")])]) :=
    ⟨_, _, by with_unfolding_all rfl, by with_unfolding_all rfl, by with_unfolding_all rfl,
      by with_unfolding_all rfl⟩
  have hsection : ((reach [.configs [both]]).ambient.config 0).checks = .map _ :=
    Config.checks_of_get? hchecks
  have hmissing : Entries.get? [(.text "main", .map [(.text "stem", .text "main")])]
      (.text "docs") = none := by with_unfolding_all rfl
  have hread : namedTrees? [(.text "main", .map [(.text "stem", .text "main")])] = .ok _ := rfl
  obtain ⟨named, hload, htrees⟩ := exists_result_loadChecks (show [both][0]? = some both from rfl)
    (Config.checks_of_get? hchecks) hread
  refine ⟨lower, both, hlower, hboth, hdocs, ⟨_, hchecks⟩, ⟨named, hload, ?_⟩,
    result_getCheck_of_eq_none (result_resolve_config _ 0) hsection rfl hmissing⟩
  have hnamed := get?_treesOf named (.text "docs")
  have hnone : Assoc.get? [(Value.text "main", Assertion.fields [(.text "stem", .text "main")])]
      (.text "docs") = none := by with_unfolding_all rfl
  rw [htrees, hnone] at hnamed
  exact Option.map_eq_none_iff.mp hnamed.symm

end World
end FileChecks
