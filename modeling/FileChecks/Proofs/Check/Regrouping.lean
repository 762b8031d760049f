import FileChecks.Proofs.Check.Reading
import Mathlib.Logic.Relation

/-!
Lists of checks as disjunctions. How the elements of a list are grouped does not matter, nor does
their order unless a test fails.
-/
namespace FileChecks

/-! Outcomes one after another: a test that matches nothing is the unit. -/
namespace Outcome

theorem orElse_unit (o : Outcome) : o.orElse (.quiet (.ok false)) = o := by
  rcases o with ⟨f | _ | _, calls⟩
  · rfl
  · exact congrArg (Outcome.mk (.ok false)) (List.append_nil calls)
  · rfl

theorem orElse_assoc (o next last : Outcome) :
    (o.orElse next).orElse last = o.orElse (next.orElse last) := by
  rcases o with ⟨f | _ | _, calls⟩
  · rfl
  · rcases next with ⟨g | _ | _, others⟩
    · rfl
    · exact congrArg (Outcome.mk last.result) (List.append_assoc calls others last.calls)
    · rfl
  · rfl

end Outcome

theorem evaluateAny_append [Predicates] (file : Value) (xs ys : List Value) :
    evaluateAny file (xs ++ ys) = (evaluateAny file xs).orElse (evaluateAny file ys) := by
  induction xs with
  | nil => rfl
  | cons x xs ih => rw [List.cons_append, evaluateAny, ih, evaluateAny, Outcome.orElse_assoc]

theorem faultIn?_append (xs ys : List Value) :
    faultIn? (xs ++ ys) = (faultIn? xs).or (faultIn? ys) := by
  induction xs with
  | nil => rfl
  | cons x xs ih => rw [List.cons_append, faultIn?, ih, faultIn?, Option.or_assoc]

theorem strictFaultIn?_append (xs ys : List Value) :
    strictFaultIn? (xs ++ ys) = (strictFaultIn? xs).or (strictFaultIn? ys) := by
  induction xs with
  | nil => rfl
  | cons x xs ih => rw [List.cons_append, strictFaultIn?, ih, strictFaultIn?, Option.or_assoc]

/-- Lists of descriptions of which the second says what the first says. -/
structure SayAlike [Predicates] (xs ys : List Value) : Prop where
  fault : faultIn? ys = faultIn? xs
  strict : strictFaultIn? xs = none → strictFaultIn? ys = none
  evaluate : ∀ file, file.isFile = true → evaluateAny file ys = evaluateAny file xs

namespace SayAlike
variable [Predicates] {xs xs' ys ys' : List Value}

theorem refl (xs : List Value) : SayAlike xs xs := ⟨rfl, id, fun _ _ => rfl⟩

theorem trans {zs : List Value} (h : SayAlike xs ys) (h' : SayAlike ys zs) : SayAlike xs zs :=
  ⟨h'.fault.trans h.fault, h'.strict ∘ h.strict,
    fun file hfile => (h'.evaluate file hfile).trans (h.evaluate file hfile)⟩

theorem append (h : SayAlike xs ys) (h' : SayAlike xs' ys') :
    SayAlike (xs ++ xs') (ys ++ ys') := by
  refine ⟨?_, fun hstrict => ?_, fun file hfile => ?_⟩
  · rw [faultIn?_append, faultIn?_append, h.fault, h'.fault]
  · rw [strictFaultIn?_append, Option.or_eq_none_iff] at hstrict ⊢
    exact ⟨h.strict hstrict.1, h'.strict hstrict.2⟩
  · rw [evaluateAny_append, evaluateAny_append, h.evaluate file hfile, h'.evaluate file hfile]

theorem middle (h : SayAlike xs ys) (l r : List Value) :
    SayAlike (l ++ (xs ++ r)) (l ++ (ys ++ r)) := (refl l).append (h.append (refl r))

end SayAlike

inductive IsGroup (items : List Value) : Value → Prop
  | list : IsGroup items (.list items)
  | tuple : IsGroup items (.tuple items)

theorem faultIn?_singleton (v : Value) : faultIn? [v] = fault? v := Option.or_none

theorem strictFaultIn?_singleton (v : Value) : strictFaultIn? [v] = strictFault? v :=
  Option.or_none

theorem evaluateAny_singleton [Predicates] (file v : Value) :
    evaluateAny file [v] = evaluate file v :=
  Outcome.orElse_unit _

namespace IsGroup
variable {items : List Value} {g : Value} (h : IsGroup items g)
include h

theorem fault?_eq : fault? g = faultIn? items := by cases h <;> rfl

theorem strictFault?_eq : strictFault? g = strictFaultIn? items := by cases h <;> rfl

theorem evaluate_eq [Predicates] (file : Value) : evaluate file g = evaluateAny file items := by
  cases h <;> rfl

/-- A group says what its items say. -/
theorem sayAlike [Predicates] : SayAlike [g] items ∧ SayAlike items [g] := by
  constructor
  · refine ⟨?_, fun hnone => ?_, fun file _ => ?_⟩
    · rw [faultIn?_singleton, h.fault?_eq]
    · rwa [strictFaultIn?_singleton, h.strictFault?_eq] at hnone
    · rw [evaluateAny_singleton, h.evaluate_eq]
  · refine ⟨?_, fun hnone => ?_, fun file _ => ?_⟩
    · rw [faultIn?_singleton, h.fault?_eq]
    · rwa [strictFaultIn?_singleton, h.strictFault?_eq]
    · rw [evaluateAny_singleton, h.evaluate_eq]

end IsGroup

/-- A description is regrouped in one place: a nested list is spliced into the list around it, a
description becomes the one element of a list, or the assertion that it compiles to, or an empty
list is inserted. -/
inductive Regroups [Predicates] : Value → Value → Prop
  | splice {l inner r : List Value} {sub g g' : Value} (hsub : IsGroup inner sub)
      (hg : IsGroup (l ++ sub :: r) g) (hg' : IsGroup (l ++ (inner ++ r)) g') : Regroups g g'
  | wrap {x g : Value} (hg : IsGroup [x] g) : Regroups x g
  | reuse {x : Value} {acts : List Act} {strict : Bool} {c : Compiled}
      (hc : World.result acts (compile x strict) = .ok c) : Regroups x (.assertion c.assertion)
  | insertEmpty {l r : List Value} {e g g' : Value} (he : IsGroup [] e)
      (hg : IsGroup (l ++ r) g) (hg' : IsGroup (l ++ e :: r) g') : Regroups g g'
  | inside {l r : List Value} {x x' g g' : Value} (hx : Regroups x x')
      (hg : IsGroup (l ++ x :: r) g) (hg' : IsGroup (l ++ x' :: r) g') : Regroups g g'

/-- The assertion of a description says what the description says. -/
theorem sayAlike_assertion [Predicates] {x : Value} {tree : Assertion} (h : tree? x = .ok tree) :
    SayAlike [x] [.assertion tree] := by
  have hfault : fault? x = none := fault?_of_tree? h
  refine ⟨?_, fun _ => rfl, fun file hfile => ?_⟩
  · rw [faultIn?_singleton, faultIn?_singleton, hfault]
    rfl
  · rw [evaluateAny_singleton, evaluateAny_singleton, evaluate, call_of_tree? h, if_pos hfile]

theorem Regroups.sayAlike [Predicates] {x y : Value} (h : Regroups x y) : SayAlike [x] [y] := by
  -- What changes inside a group of items changes between the two groups.
  have hwithin : ∀ {l r xs ys : List Value} {g g' : Value}, SayAlike xs ys →
      IsGroup (l ++ (xs ++ r)) g → IsGroup (l ++ (ys ++ r)) g' → SayAlike [g] [g'] :=
    fun hxs hg hg' => (hg.sayAlike.1.trans (hxs.middle _ _)).trans hg'.sayAlike.2
  induction h with
  | splice hsub hg hg' => exact hwithin hsub.sayAlike.1 hg hg'
  | wrap hg => exact hg.sayAlike.2
  | @reuse x acts strict c hc =>
    exact sayAlike_assertion (readTree?_eq_ok_iff.mp (World.readTree?_of_result hc)).2
  | insertEmpty he hg hg' => exact hwithin he.sayAlike.2 hg hg'
  | inside hx hg hg' ih => exact hwithin ih hg hg'

theorem sayAlike_of_reflTransGen [Predicates] {x y : Value} (h : Relation.ReflTransGen Regroups x y) :
    SayAlike [x] [y] := by
  induction h with
  | refl => exact SayAlike.refl [x]
  | tail _ hstep ih => exact ih.trans hstep.sayAlike

/-! Compiling what says alike. -/
namespace World
variable [Predicates] {acts before after : List Act} {check : Value} {strict : Bool} {c : Compiled}

theorem yields_of_sayAlike {check' : Value} (h : SayAlike [check] [check'])
    (hc : World.result before (compile check strict) = .ok c) :
    World.Yields after check' (compile check' strict) fun d =>
      ∀ v, d.assertion.call v = c.assertion.call v := by
  obtain ⟨hfault, hstrict, hevaluate⟩ := h
  simp only [faultIn?_singleton, strictFaultIn?_singleton, evaluateAny_singleton] at *
  obtain ⟨hvalid, htree⟩ := readTree?_eq_ok_iff.mp (readTree?_of_result hc)
  obtain ⟨tree, htree'⟩ := exists_tree?_iff.mpr (hfault.trans (fault?_of_tree? htree))
  have hread : readTree? check' strict = .ok tree :=
    readTree?_eq_ok_iff.mpr ⟨fun hs => hstrict (hvalid hs), htree'⟩
  refine (yields_of_readTree? after hread).mono fun d hd v => ?_
  rw [hd, call_of_tree? htree, call_of_tree? htree']
  cases hfile : v.isFile with
  | false => rfl
  | true => exact hevaluate v hfile

end World

/-! Lists of checks in another order. -/

theorem faultIn?_eq_none_iff_forall (items : List Value) :
    faultIn? items = none ↔ ∀ v ∈ items, fault? v = none := by
  induction items with
  | nil => simp [faultIn?]
  | cons v items ih => simp [faultIn?, ih]

theorem strictFaultIn?_eq_none_iff_forall (items : List Value) :
    strictFaultIn? items = none ↔ ∀ v ∈ items, strictFault? v = none := by
  induction items with
  | nil => simp [strictFaultIn?]
  | cons v items ih => simp [strictFaultIn?, ih]

/-- A list none of whose tests fails matches if one of them does. -/
theorem exists_result_evaluateAny [Predicates] {file : Value} {items : List Value}
    (h : ∀ v ∈ items, ∃ b, (evaluate file v).result = .ok b) :
    ∃ b, (evaluateAny file items).result = .ok b ∧
      (b = true ↔ ∃ v ∈ items, (evaluate file v).result = .ok true) := by
  induction items with
  | nil => exact ⟨false, rfl, by simp⟩
  | cons v items ih =>
    obtain ⟨⟨first, hfirst⟩, hrest⟩ := List.forall_mem_cons.mp h
    obtain ⟨others, hothers, hmatch⟩ := ih hrest
    cases first with
    | true =>
      refine ⟨true, ?_, fun _ => ⟨v, List.mem_cons_self, hfirst⟩, fun _ => rfl⟩
      rw [evaluateAny, Outcome.result_orElse, hfirst]
    | false =>
      refine ⟨others, ?_, hmatch.trans ?_⟩
      · rw [evaluateAny, Outcome.result_orElse, hfirst]
        exact hothers
      · simp [hfirst]

theorem exists_result_evaluateAny_of_perm [Predicates] {file : Value} {items items' : List Value}
    (h : ∀ v ∈ items, ∃ b, (evaluate file v).result = .ok b) (hperm : items.Perm items') :
    ∃ b, (evaluateAny file items).result = .ok b ∧ (evaluateAny file items').result = .ok b := by
  obtain ⟨b, hb, hmatch⟩ := exists_result_evaluateAny h
  obtain ⟨b', hb', hmatch'⟩ :=
    exists_result_evaluateAny fun v hv => h v (hperm.mem_iff.mpr hv)
  have hsame : b = b' := by
    rw [Bool.eq_iff_iff, hmatch, hmatch']
    exact exists_congr fun v => and_congr_left' hperm.mem_iff
  exact ⟨b, hb, hsame ▸ hb'⟩

namespace World
variable [Predicates] {before after : List Act} {check check' : Value} {strict : Bool} {c : Compiled}

theorem yields_of_perm {items items' : List Value} (hg : IsGroup items check)
    (hperm : items.Perm items') (hg' : IsGroup items' check')
    (hc : World.result before (compile check strict) = .ok c) :
    World.Yields after check' (compile check' strict) fun d =>
      ∀ v, (∀ item ∈ items, ∀ acts e, World.result acts (compile item) = .ok e →
          ∃ b, (e.assertion.call v).result = .ok b) →
        ∃ b, (c.assertion.call v).result = .ok b ∧ (d.assertion.call v).result = .ok b := by
  obtain ⟨hvalid, htree⟩ := readTree?_eq_ok_iff.mp (readTree?_of_result hc)
  have hitems : ∀ item ∈ items, fault? item = none := by
    have hfault := fault?_of_tree? htree
    rwa [hg.fault?_eq, faultIn?_eq_none_iff_forall] at hfault
  have hfault' : fault? check' = none := by
    rw [hg'.fault?_eq, faultIn?_eq_none_iff_forall]
    exact fun item hitem => hitems item (hperm.mem_iff.mpr hitem)
  have hvalid' : strict = true → strictFault? check' = none := by
    intro hs
    have hstrict := hvalid hs
    rw [hg.strictFault?_eq, strictFaultIn?_eq_none_iff_forall] at hstrict
    rw [hg'.strictFault?_eq, strictFaultIn?_eq_none_iff_forall]
    exact fun item hitem => hstrict item (hperm.mem_iff.mpr hitem)
  obtain ⟨tree, htree'⟩ := exists_tree?_iff.mpr hfault'
  have hread : readTree? check' strict = .ok tree := readTree?_eq_ok_iff.mpr ⟨hvalid', htree'⟩
  refine (yields_of_readTree? after hread).mono fun d hd v hv => ?_
  rw [hd, call_of_tree? htree, call_of_tree? htree']
  cases hfile : v.isFile with
  | false => exact ⟨false, rfl, rfl⟩
  | true =>
    rw [if_pos rfl, if_pos rfl, hg.evaluate_eq, hg'.evaluate_eq]
    refine exists_result_evaluateAny_of_perm (fun item hitem => ?_) hperm
    -- To begin with, nothing keeps an element from being compiled.
    obtain ⟨tree, hitree⟩ := exists_tree?_iff.mpr (hitems item hitem)
    obtain ⟨e, he, rfl⟩ := (yields_of_tree? [] hitree).exists_of_writes (writes_nil item)
    obtain ⟨b, hb⟩ := hv item hitem [] e he
    rw [call_of_tree? hitree, if_pos hfile] at hb
    exact ⟨b, hb⟩

end World

/-- Regrouping a check at any depth leaves what its assertion does with any value, the calls of
predicates included. If no element of a list fails on a value, the elements can stand in any
order. -/
theorem result_compile_regrouped [Predicates] {before : List Act} (after : List Act) {strict : Bool}
    {check : Value} {c : Compiled} (hc : World.result before (compile check strict) = .ok c) :
    (∀ check', Relation.ReflTransGen Regroups check check' →
      World.Yields after check' (compile check' strict) fun d =>
        ∀ v, d.assertion.call v = c.assertion.call v) ∧
    ∀ items items' check', IsGroup items check → items.Perm items' → IsGroup items' check' →
      World.Yields after check' (compile check' strict) fun d =>
        ∀ v, (∀ item ∈ items, ∀ acts e, World.result acts (compile item) = .ok e →
            ∃ b, (e.assertion.call v).result = .ok b) →
          ∃ b, (c.assertion.call v).result = .ok b ∧ (d.assertion.call v).result = .ok b :=
  ⟨fun _ hregroups => World.yields_of_sayAlike (sayAlike_of_reflTransGen hregroups) hc,
    fun _ _ _ hg hperm hg' => World.yields_of_perm hg hperm hg' hc⟩

/-- A nested list is spliced, its element reused as an assertion, and an empty list put before it;
or the elements are exchanged. -/
theorem result_compile_regrouped_draft :
    let draft : Value := .predicate (some "isDraft") (.has "draft")
    let stem : Value := .map [(.text "stem", .text "readme")]
    let reused : Value := .assertion (.fields [(.text "stem", .text "readme")])
    let file : Value :=
      .object [("messages", .null), ("history", .null), ("stem", .text "readme")]
    ∃ c, World.result [] (compile (.list [draft, .list [stem]]) true) = .ok c ∧
      (∃ d, World.result [] (compile (.tuple [draft, .list [], reused]) true) = .ok d ∧
        ∀ v, d.assertion.call v = c.assertion.call v) ∧
      ∃ d, World.result [] (compile (.list [.list [stem], draft]) true) = .ok d ∧
        ∃ b, (c.assertion.call file).result = .ok b ∧ (d.assertion.call file).result = .ok b := by
  intro draft stem reused file
  obtain ⟨c, hc, -⟩ := World.exists_result_nil
    (show readTree? (.list [draft, .list [stem]]) true = .ok _ from rfl)
  obtain ⟨s, hs, htree⟩ := World.exists_result_nil
    (show readTree? stem false = .ok (.fields [(.text "stem", .text "readme")]) from rfl)
  have hsplice : Regroups (.list [draft, .list [stem]]) (.list [draft, stem]) :=
    .splice (l := [draft]) (r := []) .list .list .list
  have hreuse : Regroups stem reused := by
    have hstem : Regroups stem (.assertion s.assertion) := .reuse hs
    rwa [htree] at hstem
  have hinside : Regroups (.list [draft, stem]) (.list [draft, reused]) :=
    .inside (l := [draft]) (r := []) hreuse .list .list
  have hinsert : Regroups (.list [draft, reused]) (.tuple [draft, .list [], reused]) :=
    .insertEmpty (l := [draft]) (r := [reused]) .list .list .tuple
  obtain ⟨hregroups, hperm⟩ := result_compile_regrouped [] hc
  have hchain := ((Relation.ReflTransGen.single hsplice).tail hinside).tail hinsert
  refine ⟨c, hc, (hregroups _ hchain).exists_of_writes (World.writes_nil _), ?_⟩
  have hswapped := hperm _ _ _ .list (.swap (.list [stem]) draft []) .list
  obtain ⟨d, hd, hsame⟩ := hswapped.exists_of_writes (World.writes_nil _)
  refine ⟨d, hd, hsame file fun item hitem acts e he => ?_⟩
  have hread := World.readTree?_of_result he
  rcases List.mem_pair.mp hitem with rfl | rfl
  · have hdraft : Except.ok (.predicate (some "isDraft") (.has "draft")) = Except.ok e.assertion :=
      hread
    rw [← Except.ok.inj hdraft]
    exact ⟨false, rfl⟩
  · have hstem : Except.ok (.anyOf [.fields [(.text "stem", .text "readme")]]) =
        Except.ok e.assertion := hread
    rw [← Except.ok.inj hstem]
    exact ⟨true, by with_unfolding_all rfl⟩

end FileChecks
