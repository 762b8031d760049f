import FileChecks.Proofs.Check.Interpreter

/-! The tree that a description compiles to, and what it says of a file. -/
namespace FileChecks

mutual

/-- Tree of a description, whatever the surroundings are. -/
def tree? : Value → Except Failure Assertion
  | .null => .ok .anyFile
  | .text path => Assertion.ofPath path
  | .predicate name action => .ok (.predicate name action)
  | .assertion a => .ok (.reused a)
  | .map checks => .ok (.fields checks)
  | .list items | .tuple items => (trees? items).map .anyOf
  | v => .error (.checkKind v)

def trees? : List Value → Except Failure (List Assertion)
  | [] => .ok []
  | v :: rest => do
    let first ← tree? v
    let others ← trees? rest
    return first :: others

end

/-- Tree of a description, of which strict compilation reads everything first. -/
def readTree? (check : Value) (strict : Bool) : Except Failure Assertion := do
  if strict then validate check
  tree? check

theorem readTree?_eq_ok_iff {check : Value} {strict : Bool} {tree : Assertion} :
    readTree? check strict = .ok tree ↔
      (strict = true → strictFault? check = none) ∧ tree? check = .ok tree := by
  unfold readTree?
  cases strict with
  | false => exact ⟨fun h => ⟨nofun, h⟩, fun h => h.2⟩
  | true =>
    rw [validate_eq_stopAt]
    cases strictFault? check with
    | none => exact ⟨fun h => ⟨fun _ => rfl, h⟩, fun h => h.2⟩
    | some f => exact ⟨nofun, fun h => nomatch h.1 rfl⟩

/-- Trees of named descriptions. A failure tells the name of the description. -/
def namedTrees? : Entries → Except Failure (List (Value × Assertion))
  | [] => .ok []
  | (name, check) :: rest => do
    let tree ← (readTree? check true).mapError (·.inNamedCheck name)
    let others ← namedTrees? rest
    return (name, tree) :: others

section
variable [Predicates]

/-- A tree says what a description says: it has the same fault, or tests every file alike. -/
def Agrees (v : Value) : Except Failure Assertion → Prop
  | .error f => fault? v = some f
  | .ok tree => fault? v = none ∧ ∀ file, file.isFile = true → tree.test file = evaluate file v

def AgreesIn (items : List Value) : Except Failure (List Assertion) → Prop
  | .error f => faultIn? items = some f
  | .ok trees =>
    faultIn? items = none ∧
      ∀ file, file.isFile = true → Assertion.testAny file trees = evaluateAny file items

theorem agrees_ofPath (path : String) : Agrees (.text path) (Assertion.ofPath path) := by
  unfold Assertion.ofPath Agrees fault?
  cases h : Glob.Pattern.compile? path with
  | none => simp
  | some p =>
    refine ⟨by simp, fun file _ => ?_⟩
    simp only [evaluate, holdsPath, h]
    cases p.isMagic with
    | false => rfl
    | true =>
      simp only [if_true, Assertion.test, Assertion.holdsGlob]
      cases file.getField Field.path <;> rfl

mutual

theorem agrees_tree? (v : Value) : Agrees v (tree? v) := by
  cases v with
  | null => exact ⟨rfl, fun _ _ => rfl⟩
  | text path => exact agrees_ofPath path
  | predicate name action => exact ⟨rfl, fun _ _ => rfl⟩
  | assertion a => exact ⟨rfl, fun _ _ => rfl⟩
  | map checks =>
    exact ⟨rfl, fun file _ => congrArg Outcome.quiet (checkFields_eq_passesAll file checks)⟩
  | list items | tuple items =>
    have hitems := agreesIn_trees? items
    simp only [tree?]
    cases h : trees? items with
    | error f =>
      rw [h] at hitems
      exact hitems
    | ok trees =>
      rw [h] at hitems
      exact ⟨hitems.1, hitems.2⟩
  | _ => exact rfl

theorem agreesIn_trees? (items : List Value) : AgreesIn items (trees? items) := by
  cases items with
  | nil => exact ⟨rfl, fun _ _ => rfl⟩
  | cons v rest =>
    have hfirst := agrees_tree? v
    have hrest := agreesIn_trees? rest
    unfold trees?
    cases h : tree? v with
    | error f =>
      rw [h] at hfirst
      have hfault : fault? v = some f := hfirst
      exact congrArg (·.or (faultIn? rest)) hfault
    | ok tree =>
      rw [h] at hfirst
      obtain ⟨hnone, htest⟩ := hfirst
      have hskip : faultIn? (v :: rest) = faultIn? rest := by rw [faultIn?, hnone, Option.none_or]
      cases hs : trees? rest with
      | error f =>
        rw [hs] at hrest
        exact hskip.trans hrest
      | ok trees =>
        rw [hs] at hrest
        refine ⟨hskip.trans hrest.1, fun file hfile => ?_⟩
        rw [testAny_cons, evaluateAny, htest file hfile, hrest.2 file hfile]

end

/-- Calling a tree is testing a file as the description reads. -/
theorem call_of_tree? {check : Value} {tree : Assertion} (h : tree? check = .ok tree) (v : Value) :
    tree.call v = if v.isFile then evaluate v check else .quiet (.ok false) := by
  have hagrees := agrees_tree? check
  rw [h] at hagrees
  unfold Assertion.call
  cases hfile : v.isFile with
  | false => rfl
  | true => exact hagrees.2 v hfile

/-- Interpreting a description is testing by its tree. -/
theorem interpret_eq (file check : Value) (strict : Bool) :
    interpret file check strict = (readTree? check strict).map (·.call file) := by
  have htree : (do
      stopAt (fault? check)
      return if file.isFile then evaluate file check else .quiet (.ok false)) =
      (tree? check).map (·.call file) := by
    have hagrees := agrees_tree? check
    cases h : tree? check with
    | error f =>
      rw [h] at hagrees
      rw [show fault? check = some f from hagrees]
      rfl
    | ok tree =>
      rw [h] at hagrees
      rw [hagrees.1]
      exact congrArg Except.ok (call_of_tree? h file).symm
  unfold interpret readTree?
  rw [htree, ← validate_eq_stopAt]
  cases strict with
  | false => rfl
  | true => cases validate check <;> rfl

end

theorem fault?_of_tree?_error {check : Value} {f : Failure} (h : tree? check = .error f) :
    fault? check = some f := by
  have hagrees := agrees_tree? check
  rwa [h] at hagrees

theorem fault?_of_tree? {check : Value} {tree : Assertion} (h : tree? check = .ok tree) :
    fault? check = none := by
  have hagrees := agrees_tree? check
  rw [h] at hagrees
  exact hagrees.1

theorem exists_tree?_iff {check : Value} :
    (∃ tree, tree? check = .ok tree) ↔ fault? check = none := by
  cases h : tree? check with
  | error f =>
    rw [fault?_of_tree?_error h]
    exact ⟨fun ⟨_, htree⟩ => (nomatch htree), nofun⟩
  | ok tree => exact ⟨fun _ => fault?_of_tree? h, fun _ => ⟨tree, rfl⟩⟩

end FileChecks
