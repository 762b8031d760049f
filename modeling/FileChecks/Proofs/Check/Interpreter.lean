import FileChecks.Compile
import FileChecks.Proofs.Check.Field
import FileChecks.Proofs.Value.Writing

/-!
Checks without compilation. A description is read for faults and then evaluated on a file as it
stands, with no cache, no compiled tree and no messages.
-/
namespace FileChecks

def stopAt : Option Failure → Except Failure Unit
  | some fault => .error fault
  | none => .ok ()

theorem stopAt_or (first second : Option Failure) :
    stopAt (first.or second) = (do stopAt first; stopAt second) := by
  cases first <;> rfl

def passesAll (file : Value) : Entries → Except Failure Bool
  | [] => .ok true
  | (name, spec) :: rest => do
    if ← passes file name spec then passesAll file rest else return false

theorem checkFields_eq_passesAll (file : Value) (entries : Entries) :
    checkFields file entries = passesAll file entries := by
  induction entries with
  | nil => rfl
  | cons entry rest ih =>
    obtain ⟨name, spec⟩ := entry
    simp only [checkFields, passesAll, checkField_eq_passes, ih]

def specFault? : Entries → Option Failure
  | [] => none
  | (name, spec) :: rest =>
    if spec.isSpec then specFault? rest else some (Failure.fieldSpec spec name).raised

mutual

/-- The first fault that reading everything nested in a description meets. -/
def strictFault? : Value → Option Failure
  | .null | .text _ | .predicate _ _ | .assertion _ => none
  | .map entries => specFault? entries
  | .list items | .tuple items => strictFaultIn? items
  | v => some (.checkKind v)

def strictFaultIn? : List Value → Option Failure
  | [] => none
  | v :: rest => (strictFault? v).or (strictFaultIn? rest)

end

theorem validateFields_eq_stopAt (entries : Entries) :
    validateFields entries = stopAt (specFault? entries) := by
  induction entries with
  | nil => rfl
  | cons entry rest ih =>
    obtain ⟨name, spec⟩ := entry
    unfold validateFields specFault?
    rw [FieldCheck.ofValue_eq]
    cases spec.isSpec with
    | false => rfl
    | true => exact ih

mutual

theorem validate_eq_stopAt (v : Value) : validate v = stopAt (strictFault? v) := by
  cases v with
  | map entries => exact validateFields_eq_stopAt entries
  | list items | tuple items => exact validateItems_eq_stopAt items
  | _ => rfl

theorem validateItems_eq_stopAt (items : List Value) :
    validateItems items = stopAt (strictFaultIn? items) := by
  cases items with
  | nil => rfl
  | cons v rest =>
    rw [strictFaultIn?, stopAt_or, ← validate_eq_stopAt v, ← validateItems_eq_stopAt rest]
    rfl

end

mutual

/-- The first fault of a description that leaves the specs of fields unread. -/
def fault? : Value → Option Failure
  | .null | .map _ | .predicate _ _ | .assertion _ => none
  | .text path => if (Glob.Pattern.compile? path).isSome then none else some .expansionLimit
  | .list items | .tuple items => faultIn? items
  | v => some (.checkKind v)

def faultIn? : List Value → Option Failure
  | [] => none
  | v :: rest => (fault? v).or (faultIn? rest)

end

/-- A fault of a description itself, or one that cannot be written. -/
def Failure.IsRejection (f : Failure) : Prop := f.isCheckError = true ∨ f = .unwritable

theorem isRejection_of_specFault? {entries : Entries} {f : Failure}
    (h : specFault? entries = some f) : f.IsRejection := by
  induction entries with
  | nil => cases h
  | cons entry rest ih =>
    obtain ⟨name, spec⟩ := entry
    unfold specFault? at h
    split at h
    · exact ih h
    · rw [← Option.some.inj h]
      rcases (Failure.fieldSpec spec name).raised_cases with ⟨-, hraised⟩ | ⟨-, hraised⟩
      · exact Or.inl (by rw [hraised]; rfl)
      · exact Or.inr hraised

mutual

/-- What reading a description meets is a fault of the description itself, unless that tells a
number that is too long to be written. -/
theorem isRejection_of_strictFault? {f : Failure} (v : Value) (h : strictFault? v = some f) :
    f.IsRejection := by
  cases v with
  | map entries => exact isRejection_of_specFault? h
  | list items | tuple items => exact isRejection_of_strictFaultIn? items h
  | null | text | predicate | assertion => cases h
  | _ =>
    cases h
    exact Or.inl rfl

theorem isRejection_of_strictFaultIn? {f : Failure} (items : List Value)
    (h : strictFaultIn? items = some f) : f.IsRejection := by
  cases items with
  | nil => cases h
  | cons v rest =>
    rcases Option.or_eq_some_iff.mp h with hv | ⟨-, hrest⟩
    · exact isRejection_of_strictFault? v hv
    · exact isRejection_of_strictFaultIn? rest hrest

end

mutual

/-- Once everything is read, only the expansion of a pattern can fail. -/
theorem eq_expansionLimit_of_fault? {f : Failure} (v : Value) (hstrict : strictFault? v = none)
    (h : fault? v = some f) : f = .expansionLimit := by
  cases v with
  | text path =>
    unfold fault? at h
    split at h
    · cases h
    · cases h
      rfl
  | list items | tuple items => exact eq_expansionLimit_of_faultIn? items hstrict h
  | null | predicate | assertion | map => cases h
  | _ => cases hstrict

theorem eq_expansionLimit_of_faultIn? {f : Failure} (items : List Value)
    (hstrict : strictFaultIn? items = none) (h : faultIn? items = some f) : f = .expansionLimit := by
  cases items with
  | nil => cases h
  | cons v rest =>
    obtain ⟨hv, hrest⟩ := Option.or_eq_none_iff.mp hstrict
    rcases Option.or_eq_some_iff.mp h with hfirst | ⟨-, hothers⟩
    · exact eq_expansionLimit_of_fault? v hv hfirst
    · exact eq_expansionLimit_of_faultIn? rest hrest hothers

end

/-- Whether a file is as a path check has it: a pattern matches the path, and a plain name is the
base name or the extension. -/
def holdsPath (file : Value) (path : String) : Bool :=
  match Glob.Pattern.compile? path with
  | none => false
  | some p =>
    if p.isMagic then
      match (file.getField Field.path).text? with
      | some s => p.accepts s
      | none => false
    else
      (file.getField Field.basename).text? == some path ||
        (file.getField Field.extname).text? == some path

/-- An outcome, or what follows it if it is no match. -/
def Outcome.orElse (o next : Outcome) : Outcome :=
  match o with
  | ⟨.ok false, calls⟩ => next.after calls
  | o => o

section
variable [Predicates]

theorem testAny_cons (file : Value) (a : Assertion) (rest : List Assertion) :
    Assertion.testAny file (a :: rest) = (a.test file).orElse (Assertion.testAny file rest) := rfl

mutual

def evaluate (file : Value) : Value → Outcome
  | .null => .quiet (.ok true)
  | .text path => .quiet (.ok (holdsPath file path))
  | .predicate name action => ⟨(action.run file).map Value.isTruthy, [name]⟩
  | .assertion a => a.call file
  | .map entries => .quiet (passesAll file entries)
  | .list items | .tuple items => evaluateAny file items
  | _ => .quiet (.ok false)

/-- Evaluates descriptions in order, up to the first that matches or fails. -/
def evaluateAny (file : Value) : List Value → Outcome
  | [] => .quiet (.ok false)
  | v :: rest => (evaluate file v).orElse (evaluateAny file rest)

end

/-- Tests a value by a description: its first fault, if there is one, or else what it says of a
file. What is no file never matches. -/
def interpret (file check : Value) (strict : Bool) : Except Failure Outcome := do
  if strict then stopAt (strictFault? check)
  stopAt (fault? check)
  return if file.isFile then evaluate file check else .quiet (.ok false)

end

end FileChecks
