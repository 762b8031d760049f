import FileChecks.Assertion
import FileChecks.Proofs.Check.Field
import FileChecks.Proofs.Value.Entries
import FileChecks.Proofs.Value.Writing

/-!
Checks of several fields as a conjunction. The specs are read in order, and the first that is none or
that the file does not meet ends the test.
-/
namespace FileChecks

/-- Entries with texts as keys, such as the specs of fields. -/
def Entries.ofFields (fields : List (String × Value)) : Entries :=
  fields.map fun f => (.text f.1, f.2)

/-- Whether the field of a file is what a spec says; no spec says anything that is not one. -/
def meets (file : Value) (name : String) : Value → Bool
  | .null => true
  | .bool b => file.hasField name == b
  | .text s => (file.field? name).bind Value.text? == some s
  | spec =>
    match (file.field? name).bind Value.text? with
    | some s =>
      (spec.partText Field.starting).isPrefixOf s.toList &&
        (spec.partText Field.ending).isSuffixOf s.toList
    | none => false

/-- An outcome, or what follows it if it is a match. -/
def Outcome.andThen (o next : Outcome) : Outcome :=
  match o with
  | ⟨.ok true, calls⟩ => next.after calls
  | o => o

/-- Why a field cannot be tested by a value that is no spec. -/
def specFault (name : String) (spec : Value) : Failure :=
  if spec.isWritable then .fieldSpec spec (.text name) else .unwritable

theorem raised_fieldSpec_text (name : String) (spec : Value) :
    (Failure.fieldSpec spec (.text name)).raised = specFault name spec := by
  unfold Failure.raised Failure.isWritable specFault
  rw [show (Value.text name).isWritable = true from rfl, Bool.and_true]

/-- No record fails the test of a field whose name is a text, and no value but a spec. -/
theorem checkField_text (file : Value) (name : String) (spec : Value) :
    checkField file (.text name) spec =
      if spec.isSpec then .ok (meets file name spec) else .error (specFault name spec) := by
  rw [checkField_eq_passes]
  cases spec with
  | null => rfl
  | bool | text =>
    unfold passes
    rw [Value.lookup_text]
    rfl
  | _ =>
    simp only [passes, meets, Value.isSpec, Value.lookup_text, raised_fieldSpec_text, bind,
      Except.bind]
    cases (file.field? name).bind Value.text? <;> rfl

section checkFields
variable {file : Value} {f : Failure}

theorem checkFields_append (file : Value) (a b : Entries) :
    checkFields file (a ++ b) =
      (do if ← checkFields file a then checkFields file b else return false) := by
  induction a with
  | nil => rfl
  | cons entry rest ih =>
    obtain ⟨name, spec⟩ := entry
    rw [List.cons_append, checkFields, checkFields, ih]
    rcases checkField file name spec with f | _ | _ <;> rfl

/-- Where the test of a field ends the test of a file, what the result is. -/
def ending? (file : Value) (field : String × Value) : Option (Except Failure Bool) :=
  if field.2.isSpec then
    if meets file field.1 field.2 then none else some (.ok false)
  else some (.error (specFault field.1 field.2))

variable {field : String × Value} {specs : List (String × Value)}

theorem ending?_eq_none_iff :
    ending? file field = none ↔ field.2.isSpec = true ∧ meets file field.1 field.2 = true := by
  unfold ending?
  cases field.2.isSpec <;> cases meets file field.1 field.2 <;> simp

theorem ending?_eq_false_iff :
    ending? file field = some (.ok false) ↔
      field.2.isSpec = true ∧ meets file field.1 field.2 = false := by
  unfold ending?
  cases field.2.isSpec <;> cases meets file field.1 field.2 <;> simp

theorem ending?_eq_error_iff :
    ending? file field = some (.error f) ↔
      field.2.isSpec = false ∧ f = specFault field.1 field.2 := by
  unfold ending?
  cases field.2.isSpec <;> cases meets file field.1 field.2 <;> simp [eq_comm]

theorem ending?_ne_true : ending? file field ≠ some (.ok true) := by
  unfold ending?
  cases field.2.isSpec <;> cases meets file field.1 field.2 <;> simp

/-- The first field at which the test ends has the result, and without one it is a match. -/
theorem checkFields_eq_findSome? (file : Value) (specs : List (String × Value)) :
    checkFields file (Entries.ofFields specs) = (specs.findSome? (ending? file)).getD (.ok true) := by
  induction specs with
  | nil => rfl
  | cons field rest ih =>
    have hfirst : checkFields file (Entries.ofFields (field :: rest)) =
        (do
          if ← checkField file (.text field.1) field.2 then
            checkFields file (Entries.ofFields rest)
          else return false) := rfl
    rw [hfirst, checkField_text, ih, List.findSome?_cons]
    unfold ending?
    cases field.2.isSpec <;> cases meets file field.1 field.2 <;> rfl

/-- The test fails for the first value that is no spec, if the file meets all specs before it. -/
theorem checkFields_eq_error_iff :
    checkFields file (Entries.ofFields specs) = .error f ↔
      ∃ before name spec after, specs = before ++ (name, spec) :: after ∧
        (∀ e ∈ before, e.2.isSpec = true ∧ meets file e.1 e.2 = true) ∧ spec.isSpec = false ∧
          f = specFault name spec := by
  have hfind : checkFields file (Entries.ofFields specs) = .error f ↔
      specs.findSome? (ending? file) = some (.error f) := by
    rw [checkFields_eq_findSome?]
    cases specs.findSome? (ending? file) <;> simp
  rw [hfind, List.findSome?_eq_some_iff]
  constructor
  · rintro ⟨before, field, after, hspecs, hfield, hbefore⟩
    obtain ⟨hspec, hf⟩ := ending?_eq_error_iff.mp hfield
    exact ⟨before, field.1, field.2, after, hspecs,
      fun e he => ending?_eq_none_iff.mp (hbefore e he), hspec, hf⟩
  · rintro ⟨before, name, spec, after, hspecs, hbefore, hspec, hf⟩
    exact ⟨before, (name, spec), after, hspecs, ending?_eq_error_iff.mpr ⟨hspec, hf⟩,
      fun e he => ending?_eq_none_iff.mpr (hbefore e he)⟩

theorem checkFields_eq_true_iff :
    checkFields file (Entries.ofFields specs) = .ok true ↔
      ∀ e ∈ specs, e.2.isSpec = true ∧ meets file e.1 e.2 = true := by
  have hfind : checkFields file (Entries.ofFields specs) = .ok true ↔
      specs.findSome? (ending? file) = none := by
    rw [checkFields_eq_findSome?]
    cases hresult : specs.findSome? (ending? file) with
    | none => simp
    | some result =>
      obtain ⟨field, -, hfield⟩ := List.exists_of_findSome?_eq_some hresult
      have hne : result ≠ .ok true := fun h => ending?_ne_true (h ▸ hfield)
      simpa using hne
  rw [hfind, List.findSome?_eq_none_iff]
  exact forall₂_congr fun e _ => ending?_eq_none_iff

/-- Of specs only, the file has to meet all. -/
theorem checkFields_of_isSpec (h : ∀ e ∈ specs, e.2.isSpec = true) :
    checkFields file (Entries.ofFields specs) = .ok (specs.all fun e => meets file e.1 e.2) := by
  rw [checkFields_eq_findSome?]
  induction specs with
  | nil => rfl
  | cons field rest ih =>
    obtain ⟨hspec, hrest⟩ := List.forall_mem_cons.mp h
    rw [List.findSome?_cons, List.all_cons]
    unfold ending?
    rw [if_pos hspec]
    cases meets file field.1 field.2 with
    | false => rfl
    | true => exact ih hrest

/-- A file is no match exactly if there is a spec that it does not meet after nothing but specs. -/
theorem checkFields_eq_false_iff :
    checkFields file (Entries.ofFields specs) = .ok false ↔
      ∃ before name spec after, specs = before ++ (name, spec) :: after ∧
        (∀ e ∈ before, e.2.isSpec = true) ∧ spec.isSpec = true ∧ meets file name spec = false := by
  constructor
  · intro h
    have hfind : specs.findSome? (ending? file) = some (.ok false) := by
      rw [checkFields_eq_findSome?] at h
      cases hresult : specs.findSome? (ending? file) with
      | none =>
        rw [hresult] at h
        cases h
      | some result =>
        rw [hresult] at h
        exact congrArg some h
    obtain ⟨before, field, after, hspecs, hfield, hbefore⟩ := List.findSome?_eq_some_iff.mp hfind
    obtain ⟨hspec, hmeets⟩ := ending?_eq_false_iff.mp hfield
    exact ⟨before, field.1, field.2, after, hspecs,
      fun e he => (ending?_eq_none_iff.mp (hbefore e he)).1, hspec, hmeets⟩
  · rintro ⟨before, name, spec, after, rfl, hbefore, hspec, hmeets⟩
    have hends : checkFields file (Entries.ofFields ((name, spec) :: after)) = .ok false := by
      rw [checkFields_eq_findSome?, List.findSome?_cons, ending?_eq_false_iff.mpr ⟨hspec, hmeets⟩]
      rfl
    have hparts : Entries.ofFields (before ++ (name, spec) :: after) =
        Entries.ofFields before ++ Entries.ofFields ((name, spec) :: after) := List.map_append
    rw [hparts, checkFields_append, checkFields_of_isSpec hbefore, hends]
    cases before.all fun e => meets file e.1 e.2 <;> rfl

end checkFields

namespace Entries

theorem put_of_notMem {fields : List (String × Value)} {name : String} (v : Value)
    (h : name ∉ fields.map (·.1)) :
    (ofFields fields).put (.text name) v = ofFields (fields ++ [(name, v)]) := by
  induction fields with
  | nil => rfl
  | cons field rest ih =>
    rw [List.map_cons, List.mem_cons, not_or] at h
    obtain ⟨hne, hrest⟩ := h
    have hkey : ¬ (Value.text field.1 == .text name) = true := by
      rw [Value.beq_text]
      simpa [Value.text?] using Ne.symm hne
    change put ((.text field.1, field.2) :: ofFields rest) (.text name) v = _
    rw [put_cons, if_neg hkey, ih hrest]
    rfl

/-- A map that is updated with fields that it does not have gets them at its end. -/
theorem update_ofFields {a b : List (String × Value)} (h : ((a ++ b).map (·.1)).Nodup) :
    Assoc.update (ofFields a) (ofFields b) = ofFields (a ++ b) := by
  induction b generalizing a with
  | nil => rw [List.append_nil]; rfl
  | cons field rest ih =>
    have hname : field.1 ∉ a.map (·.1) := by
      rw [List.map_append, List.nodup_append] at h
      intro hmem
      exact h.2.2 field.1 hmem field.1 (by simp) rfl
    have hmoved : (a ++ [field]) ++ rest = a ++ field :: rest := by simp
    have hput : Assoc.update (ofFields a) (ofFields (field :: rest)) =
        Assoc.update ((ofFields a).put (.text field.1) field.2) (ofFields rest) := rfl
    rw [hput, put_of_notMem field.2 hname, ih (by rwa [hmoved]), hmoved]

end Entries

theorem call_fields_append [Predicates] (v : Value) (a b : Entries) :
    (Assertion.fields (a ++ b)).call v =
      ((Assertion.fields a).call v).andThen ((Assertion.fields b).call v) := by
  unfold Assertion.call
  cases v.isFile with
  | false => rfl
  | true =>
    change Outcome.quiet (checkFields v (a ++ b)) =
      (Outcome.quiet (checkFields v a)).andThen (Outcome.quiet (checkFields v b))
    rw [checkFields_append]
    rcases checkFields v a with f | _ | _ <;> rfl

/-- Checks of fields are a conjunction that is read in order. Specs that are put behind others are
reached exactly if those are met; a test fails for the first value that is no spec, if the file meets
all specs before it, and tells that value if it can be written; it is no match if it does not meet
one after nothing but specs; a null spec is met by every file; and where there are only specs their
order does not matter. -/
theorem call_fields_conjunction [Predicates] (v : Value) :
    let test (specs : List (String × Value)) := (Assertion.fields (Entries.ofFields specs)).call v
    (∀ a b : List (String × Value), ((a ++ b).map (·.1)).Nodup →
      (Assertion.fields (Assoc.update (Entries.ofFields a) (Entries.ofFields b))).call v =
        (test a).andThen (test b)) ∧
    (v.isFile = true → ∀ specs,
      (∀ f, (test specs).result = .error f ↔
        ∃ before name spec after, specs = before ++ (name, spec) :: after ∧
          (∀ e ∈ before, e.2.isSpec = true ∧ meets v e.1 e.2 = true) ∧ spec.isSpec = false ∧
            f = if spec.isWritable then .fieldSpec spec (.text name) else .unwritable) ∧
      ((test specs).result = .ok false ↔
        ∃ before name spec after, specs = before ++ (name, spec) :: after ∧
          (∀ e ∈ before, e.2.isSpec = true) ∧ spec.isSpec = true ∧ meets v name spec = false) ∧
      ((test specs).result = .ok true ↔
        ∀ e ∈ specs, e.2.isSpec = true ∧ meets v e.1 e.2 = true)) ∧
    (∀ before name after, test (before ++ (name, .null) :: after) = test (before ++ after)) ∧
    ∀ specs specs', specs.Perm specs' → (∀ e ∈ specs, e.2.isSpec = true) →
      test specs = test specs' := by
  intro test
  have hcall (hfile : v.isFile = true) (specs : List (String × Value)) :
      test specs = .quiet (checkFields v (Entries.ofFields specs)) := if_pos hfile
  have hsame (specs specs' : List (String × Value))
      (h : checkFields v (Entries.ofFields specs) = checkFields v (Entries.ofFields specs')) :
      test specs = test specs' := by
    simp only [test, Assertion.call, Assertion.test, h]
  refine ⟨fun a b h => ?_, fun hfile specs => ?_, fun before name after => ?_,
    fun specs specs' hperm hspecs => ?_⟩
  · have hparts : Entries.ofFields (a ++ b) = Entries.ofFields a ++ Entries.ofFields b :=
      List.map_append
    rw [Entries.update_ofFields h, hparts, call_fields_append]
  · rw [hcall hfile]
    exact ⟨fun f => checkFields_eq_error_iff, checkFields_eq_false_iff, checkFields_eq_true_iff⟩
  · apply hsame
    rw [checkFields_eq_findSome?, checkFields_eq_findSome?, List.findSome?_append,
      List.findSome?_append]
    rfl
  · have hspecs' : ∀ e ∈ specs', e.2.isSpec = true := fun e he => hspecs e (hperm.mem_iff.mpr he)
    apply hsame
    rw [checkFields_of_isSpec hspecs, checkFields_of_isSpec hspecs', hperm.all_eq]

theorem call_fields_conjunction_readme :
    let file := Value.object [("messages", .list []), ("history", .null), ("stem", .text "readme")]
    let test (specs : List (String × Value)) := (Assertion.fields (Entries.ofFields specs)).call file
    let stem := ("stem", Value.affix (.text "read") (.text "me"))
    (Assertion.fields
        (Assoc.update (Entries.ofFields [stem]) (Entries.ofFields [("data", .int 3)]))).call file =
        (test [stem]).andThen (test [("data", .int 3)]) ∧
      (test [stem, ("data", .int 3)]).result = .error (.fieldSpec (.int 3) (.text "data")) ∧
      (test [stem, ("data", .int Numeral.tooLong)]).result = .error .unwritable ∧
      test [stem, ("data", .bool true)] = test [("data", .bool true), stem] := by
  intro file test stem
  obtain ⟨hupdate, hresult, -, hperm⟩ := call_fields_conjunction file
  have hstem : stem.2.isSpec = true ∧ meets file stem.1 stem.2 = true := by decide +kernel
  have hends (i : Int) : (test [stem, ("data", .int i)]).result =
      .error (if (Value.int i).isWritable then .fieldSpec (.int i) (.text "data") else .unwritable) :=
    ((hresult rfl _).1 _).mpr ⟨[stem], "data", .int i, [], rfl, by simpa using hstem, rfl, rfl⟩
  have hshort : (Value.int 3).isWritable = true := by decide +kernel
  have hlong : (Value.int Numeral.tooLong).isWritable = false := Numeral.isWritable_tooLong
  refine ⟨hupdate _ _ (by decide), ?_, ?_, hperm _ _ (List.Perm.swap _ _ _) ?_⟩
  · rw [hends, hshort]
    rfl
  · rw [hends, hlong]
    rfl
  · simpa using ⟨hstem.1, rfl⟩

end FileChecks
