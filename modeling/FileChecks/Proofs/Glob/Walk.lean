import FileChecks.Glob.Path
import FileChecks.Proofs.Text.Split
import Mathlib.Data.List.Forall2

/-! Walks over marked positions: one test after the other, each taking one step. -/
namespace FileChecks.Glob

namespace Marks
variable {α : Type} {path : List α} {v : Marks}

def step (path : List α) (v : Marks) (test : α → Bool) : Marks :=
  false :: List.zipWith (fun b a => b && test a) v path

def walk (path : List α) (v : Marks) (tests : List (α → Bool)) : Marks := tests.foldl (step path) v

theorem length_step (h : v.length = path.length + 1) (test : α → Bool) :
    (step path v test).length = path.length + 1 := by
  simp [step, h]

theorem length_walk (h : v.length = path.length + 1) (tests : List (α → Bool)) :
    (walk path v tests).length = path.length + 1 := by
  induction tests generalizing v with
  | nil => exact h
  | cons test tests ih => exact ih (length_step h test)

/-- A mark at the end leads nowhere. -/
theorem step_take_append (h : path.length ≤ v.length) (w : Marks) (test : α → Bool) :
    step path (v.take path.length ++ w) test = step path v test := by
  have htake : (v.take path.length).length = path.length := List.length_take_of_le h
  have hdrop : ∀ w, step path (v.take path.length ++ w) test =
      step path (v.take path.length) test := by
    intro w
    have happend : List.zipWith (fun b a => b && test a) (v.take path.length ++ w) (path ++ []) =
        _ := List.zipWith_append htake
    rw [List.append_nil, List.zipWith_nil_right, List.append_nil] at happend
    exact congrArg (false :: ·) happend
  rw [hdrop, ← hdrop (v.drop path.length), List.take_append_drop]

/-- A step leads from a marked position behind what the test takes. -/
theorem getElem?_step {test : α → Bool} {k : Nat} :
    (step path v test)[k]? = some true ↔
      ∃ before a after, path = before ++ a :: after ∧ v[before.length]? = some true ∧
        test a = true ∧ k = before.length + 1 := by
  cases k with
  | zero => simp [step]
  | succ k =>
    have hmark : (step path v test)[k + 1]? = some true ↔
        v[k]? = some true ∧ ∃ a, path[k]? = some a ∧ test a = true := by
      simp only [step, List.getElem?_cons_succ, List.getElem?_zipWith]
      cases v[k]? <;> cases path[k]? <;> simp
    rw [hmark]
    constructor
    · rintro ⟨hv, a, ha, htest⟩
      obtain ⟨hk, rfl⟩ := List.getElem?_eq_some_iff.mp ha
      refine ⟨path.take k, path[k], path.drop (k + 1), ?_, ?_, htest, ?_⟩
      · simp
      · rw [List.length_take_of_le (Nat.le_of_lt hk), hv]
      · rw [List.length_take_of_le (Nat.le_of_lt hk)]
    · rintro ⟨before, a, after, rfl, hv, htest, hk⟩
      obtain rfl := Nat.succ.inj hk
      exact ⟨hv, a, by simp, htest⟩

/-- A walk leads from a marked position behind what the tests take one after the other. -/
theorem getElem?_walk {tests : List (α → Bool)} (h : v.length = path.length + 1) {k : Nat} :
    (walk path v tests)[k]? = some true ↔
      ∃ before taken after, path = before ++ taken ++ after ∧ v[before.length]? = some true ∧
        List.Forall₂ (fun test a => test a = true) tests taken ∧
        k = before.length + taken.length := by
  induction tests generalizing v with
  | nil =>
    constructor
    · intro hv
      obtain ⟨hk, -⟩ := List.getElem?_eq_some_iff.mp hv
      rw [length_walk h] at hk
      have hlength : (path.take k).length = k := List.length_take_of_le (by omega)
      exact ⟨path.take k, [], path.drop k, by simp, hlength.symm ▸ hv, .nil, by simp [hlength]⟩
    · rintro ⟨before, taken, after, rfl, hv, htaken, rfl⟩
      cases htaken
      exact hv
  | cons test tests ih =>
    have hwalk : walk path v (test :: tests) = walk path (step path v test) tests := rfl
    rw [hwalk, ih (length_step h test)]
    constructor
    · rintro ⟨before, taken, after, hpath, hmark, htaken, rfl⟩
      obtain ⟨before', a, after', hpath', hv, htest, hlength⟩ := getElem?_step.mp hmark
      obtain ⟨rfl, rfl⟩ : before = before' ++ [a] ∧ taken ++ after = after' := by
        refine List.append_inj ?_ (by simpa using hlength)
        rw [← List.append_assoc, ← hpath, hpath']
        simp
      exact ⟨before', a :: taken, after, by simpa using hpath', hv, .cons htest htaken,
        by simp; omega⟩
    · rintro ⟨before, taken, after, rfl, hv, htaken, rfl⟩
      cases htaken with
      | cons htest htaken =>
        rename_i a taken
        refine ⟨before ++ [a], taken, after, by simp, ?_, htaken, by simp; omega⟩
        exact getElem?_step.mpr ⟨before, a, taken ++ after, by simp, hv, htest, by simp⟩

theorem length_single (size position : Nat) : (single size position).length = size := by
  simp [single]

theorem getElem?_single {size position k : Nat} :
    (single size position)[k]? = some true ↔ k < size ∧ k = position := by
  simp [single, List.getElem?_eq_some_iff]

/-- From the start, a walk ends at the end if the tests take the path as a whole. -/
theorem atEnd_walk {tests : List (α → Bool)} :
    atEnd (walk path (single (path.length + 1) 0) tests) = true ↔
      List.Forall₂ (fun test a => test a = true) tests path := by
  have hlength := length_walk (length_single (path.length + 1) 0) tests
  have hend : atEnd (walk path (single (path.length + 1) 0) tests) = true ↔
      (walk path (single (path.length + 1) 0) tests)[path.length]? = some true := by
    rw [atEnd, List.getLast?_eq_getElem?, hlength, Nat.add_sub_cancel]
    cases (walk path (single (path.length + 1) 0) tests)[path.length]? <;> simp
  rw [hend, getElem?_walk (length_single _ _)]
  constructor
  · rintro ⟨before, taken, after, hpath, hstart, htaken, hk⟩
    have hbefore := List.length_eq_zero_iff.mp (getElem?_single.mp hstart).2
    have hlengths := congrArg List.length hpath
    rw [List.length_append, List.length_append] at hlengths
    have hafter : after = [] := List.length_eq_zero_iff.mp (by omega)
    rw [hpath, hbefore, hafter, List.nil_append, List.append_nil]
    exact htaken
  · intro htests
    exact ⟨[], path, [], by simp, getElem?_single.mpr ⟨Nat.succ_pos _, rfl⟩, htests, by simp⟩

end Marks

namespace Element

theorem run_expr_literals (rule : DotRule) (place : Place) (component cs : List Char) (v : Marks) :
    ((expr rule place (cs.map .literal)).step component).run v =
      Marks.walk component v (cs.map fun c d => c == d) := by
  induction cs generalizing place v with
  | nil => rfl
  | cons c cs ih => exact ih _ _

/-- Literals take the component that they spell and no other. -/
theorem accepts_expr_literals (rule : DotRule) (place : Place) (component cs : List Char) :
    (expr rule place (cs.map .literal)).accepts component = true ↔ cs = component := by
  have haccepts : (expr rule place (cs.map .literal)).accepts component =
      atEnd (Marks.walk component (Marks.single (component.length + 1) 0)
        (cs.map fun c d => c == d)) :=
    congrArg atEnd (run_expr_literals rule place component cs _)
  rw [haccepts, Marks.atEnd_walk, List.forall₂_map_left_iff]
  simp only [beq_iff_eq]
  exact iff_of_eq (congrFun (congrFun List.forall₂_eq_eq_eq cs) component)

end Element

/-- Where no component is empty, the separators behind one end at the next. -/
theorem sweep_isEmpty {path : List (List Char)} (h : [] ∉ path) {v : Marks}
    (hv : v.length = path.length + 1) : sweep List.isEmpty false v path = v := by
  induction path generalizing v with
  | nil =>
    obtain ⟨b, rfl⟩ := List.length_eq_one_iff.mp hv
    simp [sweep]
  | cons component path ih =>
    obtain ⟨hcomponent, hpath⟩ := List.ne_and_not_mem_of_not_mem_cons h
    cases v with
    | nil => cases hv
    | cons b v =>
      have hempty : component.isEmpty = false := by simpa using hcomponent.symm
      simp [sweep, hempty, ih hpath (Nat.succ.inj hv)]

section Tidy
variable {path : List (List Char)} (hpath : [] ∉ path.tail)
include hpath

/-- Where separators do not repeat, a segment takes one component. -/
theorem step_parts (rule : DotRule) {v : Marks} (hv : v.length = path.length + 1) (e : Expr) :
    (CompiledSegment.parts e).step rule path v = Marks.step path v e.accepts := by
  cases path with
  | nil => simp [CompiledSegment.step, CompiledSegment.step.past, Marks.step, sweep]
  | cons component path =>
    have hends : (List.zipWith (fun b c => b && e.accepts c) v (component :: path)).length =
        path.length + 1 := by simp [hv]
    have hsweep : sweep List.isEmpty false _ path = _ := sweep_isEmpty hpath hends
    simp only [CompiledSegment.step, CompiledSegment.step.past, sweep, Bool.or_false,
      Bool.false_and, hsweep]
    rfl

/-- Expressions for components take a path as the walk of their tests does. -/
theorem takes_parts (rule : DotRule) {v : Marks} (hv : v.length = path.length + 1)
    (es : List Expr) :
    takes rule path v (es.map .parts) = atEnd (Marks.walk path v (es.map Expr.accepts)) := by
  induction es generalizing v with
  | nil => rfl
  | cons e es ih =>
    have hstep := step_parts hpath rule hv e
    cases es with
    | nil => exact congrArg atEnd hstep
    | cons e' es =>
      have hlength := Marks.length_step hv e.accepts
      have htake : (List.take path.length (Marks.step path v e.accepts) ++ [false]).length =
          path.length + 1 := by simp [hlength]
      have hfirst : Marks.step path ((Marks.step path v e.accepts).take path.length ++ [false])
          e'.accepts = _ := Marks.step_take_append (by omega) [false] e'.accepts
      have hwalk : ∀ w : Marks, Marks.walk path w ((e' :: es).map Expr.accepts) =
          Marks.walk path (Marks.step path w e'.accepts) (es.map Expr.accepts) := fun _ => rfl
      rw [List.map_cons, List.map_cons, takes, hstep, ← List.map_cons, ih htake, hwalk, hfirst]
      · rfl
      · exact nofun

end Tidy

end FileChecks.Glob
