import FileChecks.Proofs.Compile.NamedChecks

/-!
Loading all named checks, and getting one. Both agree with strict compilation of each check of the
configuration. Loading ends with the first check that fails, and tells its name, while getting one
check does not look at the others.
-/
namespace FileChecks

namespace Failure

/-- What can be written is told with the name of the check, if it is a fault of the description and
the name can be written, too. -/
theorem inNamedCheck_eq {f : Failure} (h : f.isWritable = true) (name : Value) :
    f.inNamedCheck name =
      if f.isCheckError then if name.isWritable then .namedCheck name f else .unwritable else f := by
  unfold inNamedCheck raised
  rw [isWritable, h, Bool.and_true]

/-- To tell the name of a check changes nothing but the notes. A name that is too long a number fails
instead. -/
theorem inNamedCheck_alike {f : Failure} (h : f.isWritable = true)
    (hf : f.IsRejection ∨ f = .expansionLimit) (name : Value) :
    let told := f.inNamedCheck name
    if f.isCheckError && !name.isWritable then told = .unwritable
    else told.className = f.className ∧ told.message = f.message ∧ told.code? = f.code? ∧
      told.field? = f.field? ∧
      told.notes = if f.isCheckError then ["In named check " ++ name.repr] else [] := by
  rw [inNamedCheck_eq h]
  rcases hf with (hcheck | rfl) | rfl
  · rw [hcheck]
    have hnotes : f.notes = [] := by
      cases f with
      | namedCheck => cases hcheck
      | _ => rfl
    cases name.isWritable with
    | false => rfl
    | true => exact ⟨rfl, rfl, rfl, rfl, congrArg (· ++ ["In named check " ++ name.repr]) hnotes⟩
  · exact ⟨rfl, rfl, rfl, rfl, rfl⟩
  · exact ⟨rfl, rfl, rfl, rfl, rfl⟩

end Failure

theorem isWritable_of_specFault? {entries : Entries} {f : Failure}
    (h : specFault? entries = some f) : f.isWritable = true := by
  induction entries with
  | nil => cases h
  | cons entry rest ih =>
    obtain ⟨name, spec⟩ := entry
    unfold specFault? at h
    split at h
    · exact ih h
    · rw [← Option.some.inj h]
      exact Failure.isWritable_raised _

mutual

theorem isWritable_of_strictFault? {f : Failure} (v : Value) (h : strictFault? v = some f) :
    f.isWritable = true := by
  cases v with
  | map entries => exact isWritable_of_specFault? h
  | list items | tuple items => exact isWritable_of_strictFaultIn? items h
  | null | text | predicate | assertion => cases h
  | _ =>
    cases h
    rfl

theorem isWritable_of_strictFaultIn? {f : Failure} (items : List Value)
    (h : strictFaultIn? items = some f) : f.isWritable = true := by
  cases items with
  | nil => cases h
  | cons v rest =>
    rcases Option.or_eq_some_iff.mp h with hv | ⟨-, hrest⟩
    · exact isWritable_of_strictFault? v hv
    · exact isWritable_of_strictFaultIn? rest hrest

end

/-- What reading everything first fails with can be written. There is one other way to fail than a
fault of the description. -/
theorem readTree?_failures {check : Value} {f : Failure} (h : readTree? check true = .error f) :
    f.isWritable = true ∧ (f.IsRejection ∨ f = .expansionLimit) := by
  unfold readTree? at h
  rw [validate_eq_stopAt] at h
  cases hstrict : strictFault? check with
  | some g =>
    rw [hstrict] at h
    obtain rfl := Except.error.inj h
    exact ⟨isWritable_of_strictFault? check hstrict,
      Or.inl (isRejection_of_strictFault? check hstrict)⟩
  | none =>
    rw [hstrict] at h
    have htree : tree? check = .error f := h
    obtain rfl := eq_expansionLimit_of_fault? check hstrict (fault?_of_tree?_error htree)
    exact ⟨rfl, Or.inr rfl⟩

theorem exists_namedTrees?_iff {entries : Entries} :
    (∃ trees, namedTrees? entries = .ok trees) ↔
      ∀ e ∈ entries, ∃ tree, readTree? e.2 true = .ok tree := by
  induction entries with
  | nil => exact ⟨fun _ => nofun, fun _ => ⟨[], rfl⟩⟩
  | cons entry rest ih =>
    rw [List.forall_mem_cons, ← ih]
    constructor
    · rintro ⟨trees, h⟩
      obtain ⟨tree, others, htree, hothers, -⟩ := namedTrees?_cons_eq_ok_iff.mp h
      exact ⟨⟨tree, htree⟩, ⟨others, hothers⟩⟩
    · rintro ⟨⟨tree, htree⟩, ⟨others, hothers⟩⟩
      exact ⟨_, namedTrees?_cons_eq_ok_iff.mpr ⟨tree, others, htree, hothers, rfl⟩⟩

/-- The first description that has no tree is at fault. -/
theorem namedTrees?_of_error {front back : Entries} {name check : Value} {f : Failure}
    (hfront : ∀ e ∈ front, ∃ tree, readTree? e.2 true = .ok tree)
    (h : readTree? check true = .error f) :
    namedTrees? (front ++ (name, check) :: back) = .error (f.inNamedCheck name) := by
  induction front with
  | nil =>
    rw [List.nil_append, namedTrees?, h]
    rfl
  | cons entry front ih =>
    obtain ⟨⟨tree, htree⟩, hrest⟩ := List.forall_mem_cons.mp hfront
    rw [List.cons_append, namedTrees?, htree, ih hrest]
    rfl

/-- A configuration with a map of checks finds in it what loading gives for the name. -/
theorem foundTree?_of_loadedTrees? {checks name : Value} {trees : List (Value × Assertion)}
    (hname : name.unhashable? = none) (h : loadedTrees? checks = .ok trees) :
    foundTree? name checks = .ok (Assoc.get? trees name) := by
  cases checks with
  | map entries =>
    obtain ⟨hsome, hnone⟩ := exists_of_namedTrees? h name
    rw [foundTree?, hname]
    dsimp only
    cases hget : Entries.get? entries name with
    | none =>
      rw [hnone hget]
    | some check =>
      obtain ⟨tree, htree, hfound⟩ := hsome check hget
      rw [hfound]
      dsimp only
      rw [htree]
      rfl
  | _ => cases h

namespace Config

/-- A map of names is all that the configuration made from it has for checks. -/
theorem checks_of_set {c : Config} {entries : Entries}
    (h : initial.set Setting.checks (.map entries) = .ok c) : c.checks = .map entries := by
  refine checks_of_get? ?_
  rw [get?_of_set_self h]
  rfl

theorem exists_set_checks (entries : Entries) :
    ∃ c, initial.set Setting.checks (.map entries) = .ok c := by
  have hpath : KeyPath.ofText Setting.checks = ["filematch", "checks"] := by decide +kernel
  rw [set, hpath]
  exact ⟨_, rfl⟩

end Config

namespace World
variable [Predicates] {acts after : List Act} {source : CheckSource} {c : Config} {check : Value}
  {f : Failure} {entries : Entries}

theorem writes_of_mem (h : WritesNamed acts c.checks) (hchecks : c.checks = .map entries)
    {e : Value × Value} (he : e ∈ entries) : Writes acts e.2 := by
  refine Ambient.Writes.mono h (Severity.debug_rank_le _) fun htold => ?_
  rw [hchecks] at htold
  exact List.all_eq_true.mp (Bool.and_eq_true_iff.mp htold).2 e he

theorem writes_of_get? (h : WritesNamed acts c.checks) (hchecks : c.checks = .map entries)
    {name : Value} (hget : Entries.get? entries name = some check) : Writes acts check := by
  obtain ⟨e, he, rfl⟩ := Option.map_eq_some_iff.mp hget
  exact writes_of_mem h hchecks (List.mem_of_find?_eq_some he)

/-! What is compiled where everything that is reported can be written. -/

theorem map_result_compile_of_writes (h : Writes acts check) :
    (result acts (compile check true)).map (·.assertion) = readTree? check true :=
  (map_result_compile acts check true).resolve_right fun hfails => hfails.1 h

theorem exists_result_compile_iff (h : Writes acts check) :
    (∃ k, result acts (compile check true) = .ok k) ↔
      ∃ tree, readTree? check true = .ok tree := by
  rw [← map_result_compile_of_writes h]
  cases result acts (compile check true) <;> simp [Except.map]

theorem readTree?_of_result_error (h : Writes acts check)
    (hf : result acts (compile check true) = .error f) : readTree? check true = .error f := by
  rw [← map_result_compile_of_writes h, hf]
  rfl

theorem map_result_loadChecks_of_writes (hsource : result acts source.resolve = .ok c)
    (h : WritesNamed acts c.checks) :
    (result acts (loadChecks source)).map treesOf = loadedTrees? c.checks :=
  (map_result_loadChecks_of_resolve hsource).resolve_right fun hfails => hfails.1 h

theorem result_getCheck_of_no_map (hsource : result acts source.resolve = .ok c) (name : Value)
    (h : ∀ entries, c.checks ≠ .map entries) : result acts (getCheck source name) = .ok none := by
  rw [getCheck, result_bind_of_resolve hsource]
  cases hchecks : c.checks with
  | map entries => exact absurd hchecks (h entries)
  | _ => rfl

theorem map_result_getCheck_of_writes (hsource : result acts source.resolve = .ok c)
    (h : WritesNamed acts c.checks) (name : Value) :
    (result acts (getCheck source name)).map (Option.map Compiled.assertion) =
      foundTree? name c.checks := by
  cases hchecks : c.checks with
  | map entries =>
    cases hname : name.unhashable? with
    | some typeName =>
      rw [getCheck, result_bind_of_resolve hsource, hchecks, foundTree?]
      dsimp only
      rw [hname]
      rfl
    | none =>
      rw [foundTree?, hname]
      dsimp only
      cases hget : Entries.get? entries name with
      | none =>
        rw [result_getCheck_of_eq_none hsource hchecks hname hget]
        rfl
      | some check =>
        dsimp only
        rw [result_getCheck_of_get? hsource hchecks hname hget,
          ← map_result_compile_of_writes (writes_of_get? h hchecks hget)]
        cases result acts (compile check true) <;> rfl
  | _ =>
    have hmap : ∀ entries, c.checks ≠ .map entries := by
      intro entries hentries
      cases hchecks.symm.trans hentries
    rw [result_getCheck_of_no_map hsource name hmap]
    rfl

/-! Loading all checks, and getting one. -/

theorem exists_result_loadChecks_iff (hsource : result acts source.resolve = .ok c)
    (hacts : WritesNamed acts c.checks) (hafter : WritesNamed after c.checks) :
    (∃ named, result acts (loadChecks source) = .ok named) ↔
      ∃ entries, c.checks = .map entries ∧
        ∀ e ∈ entries, ∃ k, result after (compile e.2 true) = .ok k := by
  have hloaded : (∃ named, result acts (loadChecks source) = .ok named) ↔
      ∃ trees, loadedTrees? c.checks = .ok trees := by
    rw [← map_result_loadChecks_of_writes hsource hacts]
    cases result acts (loadChecks source) <;> simp [Except.map]
  rw [hloaded]
  cases hchecks : c.checks with
  | map entries =>
    have hcompiled : (∀ e ∈ entries, ∃ k, result after (compile e.2 true) = .ok k) ↔
        ∀ e ∈ entries, ∃ tree, readTree? e.2 true = .ok tree :=
      forall₂_congr fun e he => exists_result_compile_iff (writes_of_mem hafter hchecks he)
    rw [loadedTrees?, exists_namedTrees?_iff, ← hcompiled]
    simp
  | _ => simp [loadedTrees?]

theorem exists_entries_of_result_loadChecks (hsource : result acts source.resolve = .ok c)
    {named : List (Value × Compiled)} (hnamed : result acts (loadChecks source) = .ok named) :
    ∃ entries, c.checks = .map entries ∧ namedTrees? entries = .ok (treesOf named) := by
  have hload := (map_result_loadChecks_of_resolve hsource).resolve_right
    fun hfails => nomatch hnamed.symm.trans hfails.2
  rw [hnamed] at hload
  cases hchecks : c.checks with
  | map entries =>
    rw [hchecks] at hload
    exact ⟨entries, rfl, hload.symm⟩
  | _ =>
    rw [hchecks] at hload
    cases hload

theorem result_loadChecks_of_no_map (hsource : result acts source.resolve = .ok c)
    (h : ∀ entries, c.checks ≠ .map entries) :
    result acts (loadChecks source) = .error (.config (.checks c.checks)) := by
  rw [loadChecks, result_bind_of_resolve hsource]
  cases hchecks : c.checks with
  | map entries => exact absurd hchecks (h entries)
  | _ => rfl

/-- What is loaded says of every file what its check says. -/
theorem forall₂_of_result_loadChecks (hsource : result acts source.resolve = .ok c)
    {named : List (Value × Compiled)} (hnamed : result acts (loadChecks source) = .ok named) :
    ∃ entries, c.checks = .map entries ∧ ∀ after,
      List.Forall₂ (fun loaded e => loaded.1 = e.1 ∧
        ∀ file, Yields after e.2 (matchFile file e.2 true) (· = loaded.2.assertion.call file))
        named entries := by
  obtain ⟨entries, hchecks, htrees⟩ := exists_entries_of_result_loadChecks hsource hnamed
  refine ⟨entries, hchecks, fun after => ?_⟩
  have hpairs := List.forall₂_map_left_iff.mp (forall₂_of_namedTrees? htrees)
  refine hpairs.imp fun loaded e hpair => ⟨hpair.1, fun file => ?_⟩
  refine (result_matchFile after file e.2 true).imp_left fun hmatch => ⟨_, hmatch.trans ?_, rfl⟩
  rw [interpret_eq, hpair.2]
  rfl

theorem result_loadChecks_of_first_error (hsource : result acts source.resolve = .ok c)
    (hacts : WritesNamed acts c.checks) (hafter : WritesNamed after c.checks)
    {front back : Entries} {name : Value}
    (hchecks : c.checks = .map (front ++ (name, check) :: back))
    (hfront : ∀ e ∈ front, ∃ k, result after (compile e.2 true) = .ok k)
    (hcheck : result after (compile check true) = .error f) :
    readTree? check true = .error f ∧
      result acts (loadChecks source) = .error (f.inNamedCheck name) := by
  have htrees : ∀ e ∈ front, ∃ tree, readTree? e.2 true = .ok tree := fun e he =>
    (exists_result_compile_iff (writes_of_mem hafter hchecks (List.mem_append_left _ he))).mp
      (hfront e he)
  have hread := readTree?_of_result_error
    (writes_of_mem hafter hchecks (List.mem_append_right front List.mem_cons_self)) hcheck
  have hload := map_result_loadChecks_of_writes hsource hacts
  rw [hchecks, loadedTrees?, namedTrees?_of_error htrees hread] at hload
  exact ⟨hread, eq_error_of_map hload⟩

/-- To get none is to have no check of the name. -/
theorem result_getCheck_eq_none_iff (hsource : result acts source.resolve = .ok c) {name : Value}
    (hname : name.unhashable? = none) :
    result acts (getCheck source name) = .ok none ↔
      ∀ entries, c.checks = .map entries → Entries.get? entries name = none := by
  constructor
  · intro hnone entries hchecks
    cases hget : Entries.get? entries name with
    | none => rfl
    | some check =>
      rw [result_getCheck_of_get? hsource hchecks hname hget] at hnone
      cases hresult : result acts (compile check true) <;> rw [hresult] at hnone <;> cases hnone
  · intro h
    by_cases hmap : ∃ entries, c.checks = .map entries
    · obtain ⟨entries, hchecks⟩ := hmap
      exact result_getCheck_of_eq_none hsource hchecks hname (h entries hchecks)
    · exact result_getCheck_of_no_map hsource name fun entries hchecks => hmap ⟨entries, hchecks⟩

/-- Loading gives the names in order, with assertions that say of every file what their checks say.
Getting a check is compiling it strictly, whatever the others are, and there is none exactly if the
map lacks the name. Where what is reported can be written, loading succeeds exactly if the section
of checks is a map and each check in it compiles strictly, else the first check that fails is
reported, and its name if the description is at fault; a name that is too long a number fails
instead. So both agree, and a map of names as a source takes nothing from the surroundings. -/
theorem named_checks_agree (acts : List Act) (source : CheckSource) (c : Config)
    (hsource : result acts source.resolve = .ok c) :
    (∀ named, result acts (loadChecks source) = .ok named →
      ∃ entries, c.checks = .map entries ∧ ∀ after,
        List.Forall₂ (fun loaded e => loaded.1 = e.1 ∧
          ∀ file, Yields after e.2 (matchFile file e.2 true) (· = loaded.2.assertion.call file))
          named entries) ∧
    ((∀ entries, c.checks ≠ .map entries) →
      result acts (loadChecks source) = .error (.config (.checks c.checks))) ∧
    (∀ name, name.unhashable? = none →
      (result acts (getCheck source name) = .ok none ↔
        ∀ entries, c.checks = .map entries → Entries.get? entries name = none) ∧
      ∀ entries check, c.checks = .map entries → Entries.get? entries name = some check →
        result acts (getCheck source name) = (result acts (compile check true)).map some) ∧
    (∀ entries, source = .checks entries → c.checks = .map entries) ∧
    (WritesNamed acts c.checks →
      (∀ named, result acts (loadChecks source) = .ok named → ∀ name, name.unhashable? = none →
        (result acts (getCheck source name)).map (Option.map Compiled.assertion) =
          .ok ((Assoc.get? named name).map Compiled.assertion)) ∧
      ∀ after, WritesNamed after c.checks →
        ((∃ named, result acts (loadChecks source) = .ok named) ↔
          ∃ entries, c.checks = .map entries ∧
            ∀ e ∈ entries, ∃ k, result after (compile e.2 true) = .ok k) ∧
        (∀ front name check back f, c.checks = .map (front ++ (name, check) :: back) →
          (∀ e ∈ front, ∃ k, result after (compile e.2 true) = .ok k) →
          result after (compile check true) = .error f →
          ∃ told, result acts (loadChecks source) = .error told ∧
            if f.isCheckError && !name.isWritable then told = .unwritable
            else told.className = f.className ∧ told.message = f.message ∧
              told.code? = f.code? ∧ told.field? = f.field? ∧
              told.notes = if f.isCheckError then ["In named check " ++ name.repr] else []) ∧
        (∀ name entries check, name.unhashable? = none → c.checks = .map entries →
          Entries.get? entries name = some check →
          (result acts (getCheck source name)).map (Option.map Compiled.assertion) =
            (result after (compile check true)).map fun k => some k.assertion) ∧
        ∀ entries, source = .checks entries →
          (result after (loadChecks source)).map treesOf =
            (result acts (loadChecks source)).map treesOf ∧
          ∀ name, (result after (getCheck source name)).map (Option.map Compiled.assertion) =
            (result acts (getCheck source name)).map (Option.map Compiled.assertion)) := by
  refine ⟨fun named hnamed => forall₂_of_result_loadChecks hsource hnamed,
    result_loadChecks_of_no_map hsource,
    fun name hname => ⟨result_getCheck_eq_none_iff hsource hname, fun entries check hchecks hget =>
      result_getCheck_of_get? hsource hchecks hname hget⟩,
    fun entries hmap => ?_, fun hacts => ⟨fun named hnamed name hname => ?_, fun after hafter =>
      ⟨exists_result_loadChecks_iff hsource hacts hafter,
        fun front name check back f hchecks hfront hcheck => ?_,
        fun name entries check hname hchecks hget => ?_, fun entries hmap => ?_⟩⟩⟩
  · subst hmap
    exact Config.checks_of_set hsource
  · obtain ⟨entries, hchecks, htrees⟩ := exists_entries_of_result_loadChecks hsource hnamed
    have hloaded : loadedTrees? c.checks = .ok (treesOf named) := by rw [hchecks, loadedTrees?, htrees]
    rw [map_result_getCheck_of_writes hsource hacts, foundTree?_of_loadedTrees? hname hloaded,
      get?_treesOf]
  · obtain ⟨hread, hload⟩ :=
      result_loadChecks_of_first_error hsource hacts hafter hchecks hfront hcheck
    obtain ⟨hwritable, hfailures⟩ := readTree?_failures hread
    exact ⟨_, hload, Failure.inNamedCheck_alike hwritable hfailures name⟩
  · have hfound (r : Except Failure Compiled) :
        (r.map some).map (Option.map Compiled.assertion) = (r.map (·.assertion)).map some := by
      cases r <;> rfl
    have hcompiled (r : Except Failure Compiled) :
        (r.map fun k => some k.assertion) = (r.map (·.assertion)).map some := by
      cases r <;> rfl
    rw [result_getCheck_of_get? hsource hchecks hname hget, hfound, hcompiled,
      map_result_compile_of_writes (writes_of_get? hacts hchecks hget),
      map_result_compile_of_writes (writes_of_get? hafter hchecks hget)]
  · subst hmap
    -- What the map resolves to does not depend on the surroundings.
    have hother : result after (CheckSource.checks entries).resolve = .ok c := hsource
    refine ⟨?_, fun name => ?_⟩
    · rw [map_result_loadChecks_of_writes hsource hacts, map_result_loadChecks_of_writes hother hafter]
    · rw [map_result_getCheck_of_writes hsource hacts, map_result_getCheck_of_writes hother hafter]

end World

/-- An invalid check in a map of names, and one under a name that is too long a number. -/
theorem World.named_checks_agree_invalid_between :
    let readme : Value := .map [(.text "stem", .text "readme")]
    let source (name : Value) : CheckSource :=
      .checks [(.text "all", .null), (name, .int 3), (.text "readme", readme)]
    (∃ c, result [] (source (.text "broken")).resolve = .ok c) ∧
    (∃ f, result [] (loadChecks (source (.text "broken"))) = .error f ∧
      f.className = "InvalidCheckKind" ∧ f.notes = ["In named check 'broken'"]) ∧
    result [] (loadChecks (source (.int Numeral.tooLong))) = .error .unwritable ∧
    (result [] (getCheck (source (.text "broken")) (.text "readme"))).map
      (Option.map Compiled.assertion) = .ok (some (.fields [(.text "stem", .text "readme")])) := by
  intro readme source
  have hquiet : Registry.initial.passes Registry.rulesName Severity.info.rank = false := by
    decide +kernel
  have hsettings : (Config.initial.readEnvironment []).cacheSettings.isOk = true := by
    decide +kernel
  have hwrites (checks : Value) : WritesNamed [] checks := Ambient.writes_of_quiet hquiet hsettings
  have hbroken : result [] (compile (.int 3) true) = .error (.checkKind (.int 3)) :=
    eq_error_of_map (map_result_compile_of_writes (writes_nil (.int 3)))
  have hall : ∃ k, result [] (compile .null true) = .ok k :=
    (exists_result_compile_iff (writes_nil .null)).mpr ⟨.anyFile, rfl⟩
  have hload (name : Value) : ∃ c, result [] (source name).resolve = .ok c ∧ ∃ told,
      result [] (loadChecks (source name)) = .error told ∧
        if !name.isWritable then told = .unwritable
        else told.className = "InvalidCheckKind" ∧
          told.notes = ["In named check " ++ name.repr] := by
    obtain ⟨c, hset⟩ := Config.exists_set_checks
      [(.text "all", .null), (name, .int 3), (.text "readme", readme)]
    have hsource : result [] (source name).resolve = .ok c := hset
    obtain ⟨-, -, -, hmap, hall'⟩ := named_checks_agree [] (source name) c hsource
    obtain ⟨told, htold, hgives⟩ := ((hall' (hwrites _)).2 [] (hwrites _)).2.1 [(.text "all", .null)]
      name (.int 3) [(.text "readme", readme)] _ (hmap _ rfl) (by simpa using hall) hbroken
    refine ⟨c, hsource, told, htold, ?_⟩
    cases hname : name.isWritable with
    | true =>
      rw [hname] at hgives
      exact ⟨hgives.1, hgives.2.2.2.2⟩
    | false =>
      rw [hname] at hgives
      exact hgives
  obtain ⟨c, hsource, told, htold, hgives⟩ := hload (.text "broken")
  obtain ⟨-, -, told', htold', hgives'⟩ := hload (.int Numeral.tooLong)
  have hnote : ["In named check " ++ (Value.text "broken").repr] = ["In named check 'broken'"] := by
    decide +kernel
  have hlong : (Value.int Numeral.tooLong).isWritable = false := Numeral.isWritable_tooLong
  rw [hlong] at hgives'
  refine ⟨⟨c, hsource⟩, ⟨told, htold, hgives.1, hgives.2.trans hnote⟩, ?_, ?_⟩
  · rw [htold']
    exact congrArg Except.error hgives'
  · obtain ⟨-, -, hget, hmap, -⟩ := named_checks_agree [] (source (.text "broken")) c hsource
    have hreadme := (hget (.text "readme") rfl).2 _ readme (hmap _ rfl) (by with_unfolding_all rfl)
    obtain ⟨k, hk, hsame⟩ := exists_result_nil (show readTree? readme true = .ok _ from rfl)
    rw [hreadme, hk]
    exact congrArg (fun tree => Except.ok (some tree)) hsame

end FileChecks
