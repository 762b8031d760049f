import FileChecks.Check.Field

/-! Which values are specs of fields, and which records pass them. -/
namespace FileChecks

namespace Value

theorem lookup_text (v : Value) (name : String) : v.lookup (.text name) = .ok (v.field? name) := by
  cases v <;> rfl

def isPart : Value → Bool
  | null | text _ => true
  | _ => false

/-- A part of an affix spec; one that is left out counts as null. -/
def part (spec : Value) (name : String) : Value := spec.getField name .null

def isSplit : Value → Bool
  | map _ => true
  | v => v.hasField Field.starting && v.hasField Field.ending

def isAffix (v : Value) : Bool :=
  v.isSplit && (v.part Field.starting).isPart && (v.part Field.ending).isPart

def isSpec : Value → Bool
  | null | bool _ | text _ => true
  | v => v.isAffix

def partText (spec : Value) (name : String) : List Char :=
  ((spec.part name).text?.getD "").toList

end Value

namespace Affix

theorem part?_eq (v : Value) : part? v = if v.isPart then some v.text? else none := by
  cases v <;> rfl

theorem ofParts?_eq (a b : Value) :
    (do
      let starting ← part? a
      let ending ← part? b
      some (⟨starting, ending⟩ : Affix)) =
      if a.isPart && b.isPart then some ⟨a.text?, b.text?⟩ else none := by
  rw [part?_eq, part?_eq]
  cases a.isPart <;> cases b.isPart <;> rfl

theorem parts?_eq (v : Value) :
    parts? v = if v.isSplit then some (v.part Field.starting, v.part Field.ending) else none := by
  have hread : ∀ fields : List (String × Value),
      (do
        let starting ← fields.lookup Field.starting
        let ending ← fields.lookup Field.ending
        some (starting, ending)) =
        if (fields.lookup Field.starting).isSome && (fields.lookup Field.ending).isSome then
          some ((fields.lookup Field.starting).getD .null, (fields.lookup Field.ending).getD .null)
        else none := by
    intro fields
    cases fields.lookup Field.starting <;> cases fields.lookup Field.ending <;> rfl
  cases v with
  | map entries => rfl
  | _ => exact hread _

theorem ofValue?_eq (v : Value) :
    ofValue? v =
      if v.isAffix then some ⟨(v.part Field.starting).text?, (v.part Field.ending).text?⟩
      else none := by
  unfold ofValue? Value.isAffix
  rw [parts?_eq]
  cases v.isSplit with
  | false => rfl
  | true => exact ofParts?_eq (v.part Field.starting) (v.part Field.ending)

end Affix

namespace FieldCheck

def meaning : Value → FieldCheck
  | .null => ignore
  | .bool b => presence b
  | .text s => equals s
  | spec => affix ⟨(spec.part Field.starting).text?, (spec.part Field.ending).text?⟩

/-- A value is read as the spec of a field exactly if it is one. -/
theorem ofValue_eq (spec name : Value) :
    ofValue spec name =
      if spec.isSpec then .ok (meaning spec) else .error (Failure.fieldSpec spec name).raised := by
  cases spec with
  | null | bool | text => rfl
  | _ =>
    simp only [ofValue, Affix.ofValue?_eq]
    change _ = if Value.isAffix _ then _ else _
    cases Value.isAffix _ <;> rfl

end FieldCheck

/-- Whether a field of a file is as a spec has it. What is no spec ends the test. -/
def passes (file name spec : Value) : Except Failure Bool :=
  match spec with
  | .null => return true
  | .bool b => return (← file.lookup name).isSome == b
  | .text s => return ((← file.lookup name).bind Value.text?) == some s
  | spec => do
    if spec.isAffix then
      match (← file.lookup name).bind Value.text? with
      | some s =>
        return (spec.partText Field.starting).isPrefixOf s.toList &&
          (spec.partText Field.ending).isSuffixOf s.toList
      | none => return false
    else throw (Failure.fieldSpec spec name).raised

theorem FieldCheck.holds_affix (file name spec : Value) :
    FieldCheck.holds file name
        (.affix ⟨(spec.part Field.starting).text?, (spec.part Field.ending).text?⟩) = do
      match (← file.lookup name).bind Value.text? with
      | some s =>
        return (spec.partText Field.starting).isPrefixOf s.toList &&
          (spec.partText Field.ending).isSuffixOf s.toList
      | none => return false := by
  unfold holds
  cases file.lookup name with
  | error f => rfl
  | ok v =>
    rcases v with _ | v
    · rfl
    · cases v <;> rfl

theorem checkField_eq_passes (file name spec : Value) :
    checkField file name spec = passes file name spec := by
  cases spec with
  | null | bool => rfl
  | text s =>
    simp only [checkField, FieldCheck.ofValue, FieldCheck.holds, passes]
    cases file.lookup name with
    | error f => rfl
    | ok v =>
      rcases v with _ | v
      · rfl
      · cases v with
        | text t => exact congrArg Except.ok (Option.some_beq_some (a := t) (b := s)).symm
        | _ => rfl
  | _ =>
    simp only [checkField, FieldCheck.ofValue, Affix.ofValue?_eq, passes]
    cases Value.isAffix _ with
    | false => rfl
    | true => exact FieldCheck.holds_affix file name _

end FileChecks
