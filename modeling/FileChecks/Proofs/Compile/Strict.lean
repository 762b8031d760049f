import FileChecks.Proofs.Check.Nesting
import FileChecks.Proofs.Compile.World

/-!
Strict compilation is compilation together with a look at every spec, and what it accepts never
turns out to be no description when a value is tested.
-/
namespace FileChecks

def Value.HasSpecs : Value → Prop
  | .map entries => ∀ e ∈ entries, e.2.isSpec = true
  | _ => True

theorem specFault?_eq_none_iff (entries : Entries) :
    specFault? entries = none ↔ ∀ e ∈ entries, e.2.isSpec = true := by
  induction entries with
  | nil => simp [specFault?]
  | cons entry rest ih =>
    obtain ⟨name, spec⟩ := entry
    cases hspec : spec.isSpec <;> simp [specFault?, hspec, ih]

mutual

theorem strictFault?_eq_none_iff (v : Value) (h : fault? v = none) :
    strictFault? v = none ↔ Everywhere Value.HasSpecs v := by
  rw [everywhere_iff]
  cases v with
  | map entries => simp [strictFault?, specFault?_eq_none_iff, Value.HasSpecs, Value.items]
  | list items | tuple items =>
    have hitems := strictFaultIn?_eq_none_iff items h
    simpa [strictFault?, Value.HasSpecs, Value.items] using hitems
  | null | text | predicate | assertion => simp [strictFault?, Value.HasSpecs, Value.items]
  | _ => cases h

theorem strictFaultIn?_eq_none_iff (items : List Value) (h : faultIn? items = none) :
    strictFaultIn? items = none ↔ ∀ v ∈ items, Everywhere Value.HasSpecs v := by
  cases items with
  | nil => simp [strictFaultIn?]
  | cons v rest =>
    obtain ⟨hv, hrest⟩ := Option.or_eq_none_iff.mp h
    rw [strictFaultIn?, Option.or_eq_none_iff, List.forall_mem_cons, strictFault?_eq_none_iff v hv,
      strictFaultIn?_eq_none_iff rest hrest]

end

/-- Failures that are reported as those of a description are. -/
def Failure.IsInvalidKind (f : Failure) : Prop :=
  f.className = "InvalidCheckKind" ∨ f.className = "InvalidFieldSpecKind"

/-- A predicate, if it is one, does not itself fail on a file like a description. -/
def Value.CallsCleanly [Predicates] (file : Value) : Value → Prop
  | .predicate _ action => ∀ f, action.run file = .error f → ¬ f.IsInvalidKind
  | .assertion a => ∀ f, (a.call file).result = .error f → ¬ f.IsInvalidKind
  | _ => True

theorem not_isInvalidKind_of_lookup {file name : Value} {f : Failure}
    (h : file.lookup name = .error f) : ¬ f.IsInvalidKind := by
  have htype : f.className = "TypeError" := by
    unfold Value.lookup at h
    split at h
    · split at h
      · cases h; rfl
      · cases h
    · cases h
    · cases h; rfl
  unfold Failure.IsInvalidKind
  rw [htype]
  decide

/-- All that can fail about a spec is the look-up of its field. -/
theorem lookup_eq_error_of_passes {file name spec : Value} {f : Failure}
    (hspec : spec.isSpec = true) (h : passes file name spec = .error f) :
    file.lookup name = .error f := by
  have hread : ∀ answer : Option Value → Except Failure Bool, (∀ v, ∃ b, answer v = .ok b) →
      (do let v ← file.lookup name; answer v) = .error f → file.lookup name = .error f := by
    intro answer hanswer hfail
    cases hlookup : file.lookup name with
    | error g =>
      rw [hlookup] at hfail
      cases hfail
      rfl
    | ok v =>
      obtain ⟨b, hb⟩ := hanswer v
      rw [hlookup] at hfail
      exact nomatch hb.symm.trans hfail
  cases spec with
  | null => cases h
  | bool b => exact hread _ (fun v => ⟨_, rfl⟩) h
  | text s => exact hread _ (fun v => ⟨_, rfl⟩) h
  | _ =>
    simp only [passes, show Value.isAffix _ = true from hspec, if_true] at h
    refine hread _ (fun v => ?_) h
    cases v.bind Value.text? <;> exact ⟨_, rfl⟩

theorem not_isInvalidKind_of_passesAll {file : Value} {entries : Entries} {f : Failure}
    (hspecs : ∀ e ∈ entries, e.2.isSpec = true) (h : passesAll file entries = .error f) :
    ¬ f.IsInvalidKind := by
  induction entries with
  | nil => cases h
  | cons entry rest ih =>
    obtain ⟨name, spec⟩ := entry
    obtain ⟨hspec, hrest⟩ := List.forall_mem_cons.mp hspecs
    unfold passesAll at h
    cases hpass : passes file name spec with
    | error g =>
      rw [hpass] at h
      cases h
      exact not_isInvalidKind_of_lookup (lookup_eq_error_of_passes hspec hpass)
    | ok b =>
      rw [hpass] at h
      cases b with
      | false => cases h
      | true => exact ih hrest h

section Evaluation
variable [Predicates] {file : Value} {f : Failure}

mutual

theorem not_isInvalidKind_of_evaluate (v : Value) (hspecs : Everywhere Value.HasSpecs v)
    (hcalls : Everywhere (Value.CallsCleanly file) v) (h : (evaluate file v).result = .error f) :
    ¬ f.IsInvalidKind := by
  obtain ⟨hhere, hspecs⟩ := everywhere_iff.mp hspecs
  obtain ⟨hcall, hcalls⟩ := everywhere_iff.mp hcalls
  cases v with
  | predicate name action =>
    cases hrun : action.run file with
    | error g =>
      simp only [evaluate, hrun] at h
      cases h
      exact hcall f hrun
    | ok r => simp [evaluate, hrun, Except.map] at h
  | assertion a => exact hcall f h
  | map entries => exact not_isInvalidKind_of_passesAll hhere h
  | list items | tuple items => exact not_isInvalidKind_of_evaluateAny items hspecs hcalls h
  | _ => cases h

theorem not_isInvalidKind_of_evaluateAny (items : List Value)
    (hspecs : ∀ v ∈ items, Everywhere Value.HasSpecs v)
    (hcalls : ∀ v ∈ items, Everywhere (Value.CallsCleanly file) v)
    (h : (evaluateAny file items).result = .error f) : ¬ f.IsInvalidKind := by
  cases items with
  | nil => cases h
  | cons v rest =>
    obtain ⟨hspec, hspecs⟩ := List.forall_mem_cons.mp hspecs
    obtain ⟨hcall, hcalls⟩ := List.forall_mem_cons.mp hcalls
    unfold evaluateAny at h
    rcases hv : evaluate file v with ⟨g | b, calls⟩
    · rw [hv] at h
      exact not_isInvalidKind_of_evaluate v hspec hcall (hv ▸ h)
    · rw [hv] at h
      cases b with
      | false => exact not_isInvalidKind_of_evaluateAny rest hspecs hcalls h
      | true => cases h

end
end Evaluation

theorem readTree?_true_eq_ok_iff {check : Value} {tree : Assertion} :
    readTree? check true = .ok tree ↔
      tree? check = .ok tree ∧ Everywhere Value.HasSpecs check := by
  unfold readTree?
  rw [validate_eq_stopAt]
  constructor
  · intro h
    cases hstrict : strictFault? check with
    | some f => rw [hstrict] at h; cases h
    | none =>
      rw [hstrict] at h
      have htree : tree? check = .ok tree := h
      exact ⟨htree, (strictFault?_eq_none_iff check (fault?_of_tree? htree)).mp hstrict⟩
  · rintro ⟨htree, hspecs⟩
    rw [(strictFault?_eq_none_iff check (fault?_of_tree? htree)).mpr hspecs]
    exact htree

theorem not_isInvalidKind_of_call [Predicates] {check file : Value} {tree : Assertion} {f : Failure}
    (htree : tree? check = .ok tree) (hspecs : Everywhere Value.HasSpecs check)
    (hcalls : Everywhere (Value.CallsCleanly file) check)
    (h : (tree.call file).result = .error f) : ¬ f.IsInvalidKind := by
  -- A file is tested as the description reads, so the induction over descriptions applies.
  rw [call_of_tree? htree] at h
  cases hfile : file.isFile with
  | false => simp [hfile, Outcome.quiet] at h
  | true =>
    rw [hfile, if_pos rfl] at h
    exact not_isInvalidKind_of_evaluate check hspecs hcalls h

/-- Strict compilation that finds no fault goes on as compilation does. -/
theorem World.result_compile_true [Predicates] {check : Value} (acts : List Act)
    (h : strictFault? check = none) :
    World.result acts (compile check true) = World.result acts (compile check) := by
  have hvalid : validate check = .ok () := by
    rw [validate_eq_stopAt, h]
    rfl
  have hrun := run_ofExcept_bind_ok hvalid (fun _ => compileLazy check) (World.reach acts).ambient
  exact congrArg Prod.fst hrun

/-- Strict compilation succeeds exactly if compilation does and all specs are specs. It gives the
same assertion, which never fails like a description does, unless a predicate in it does. -/
theorem result_compile_strict [Predicates] (before after : List Act) (check : Value) :
    ((∃ c, World.result before (compile check true) = .ok c) ↔
      (∃ c, World.result before (compile check) = .ok c) ∧ Everywhere Value.HasSpecs check) ∧
    ∀ c, World.result before (compile check true) = .ok c →
      (World.Yields after check (compile check) fun d => d.assertion = c.assertion) ∧
      (World.Yields after check (compile check true) fun d => d.assertion = c.assertion) ∧
      ∀ v, Everywhere (Value.CallsCleanly v) check →
        ∀ f, (c.assertion.call v).result = .error f → ¬ f.IsInvalidKind := by
  have hread {c : Compiled} (hc : World.result before (compile check true) = .ok c) :=
    readTree?_true_eq_ok_iff.mp (World.readTree?_of_result hc)
  have hsame {tree : Assertion} (htree : tree? check = .ok tree)
      (hspecs : Everywhere Value.HasSpecs check) :
      World.result before (compile check true) = World.result before (compile check) :=
    World.result_compile_true before
      ((readTree?_eq_ok_iff.mp (readTree?_true_eq_ok_iff.mpr ⟨htree, hspecs⟩)).1 rfl)
  constructor
  · constructor
    · rintro ⟨c, hc⟩
      obtain ⟨htree, hspecs⟩ := hread hc
      exact ⟨⟨c, hsame htree hspecs ▸ hc⟩, hspecs⟩
    · rintro ⟨⟨c, hc⟩, hspecs⟩
      have htree : tree? check = .ok c.assertion := World.readTree?_of_result hc
      exact ⟨c, (hsame htree hspecs).trans hc⟩
  · intro c hc
    obtain ⟨htree, hspecs⟩ := hread hc
    refine ⟨World.yields_of_readTree? after htree, ?_, fun v hcalls f hf => ?_⟩
    · exact World.yields_of_readTree? after (World.readTree?_of_result hc)
    · exact not_isInvalidKind_of_call htree hspecs hcalls hf

theorem result_compile_strict_nested :
    ∃ c, World.result [] (compile (.list [.map [(.text "stem", .affix (.text "re") .null)]]) true) =
        .ok c ∧
      ∀ v f, (c.assertion.call v).result = .error f → ¬ f.IsInvalidKind := by
  have hread : readTree? (.list [.map [(.text "stem", .affix (.text "re") .null)]]) true = .ok _ := rfl
  obtain ⟨c, hc, -⟩ := World.exists_result_nil hread
  refine ⟨c, hc, fun v => ((result_compile_strict [] [] _).2 c hc).2.2 v ?_⟩
  refine everywhere_iff.mpr ⟨trivial, fun item hitem => ?_⟩
  obtain rfl := List.mem_singleton.mp hitem
  exact everywhere_iff.mpr ⟨trivial, nofun⟩

end FileChecks
