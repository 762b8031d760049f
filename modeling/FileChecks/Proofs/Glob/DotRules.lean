import FileChecks.Glob.Path

/-! The two rules about dots differ on hidden components only. -/
namespace FileChecks.Glob

/-- A component that no rule about dots sets apart. -/
def IsShown (component : List Char) : Prop := component.head? ≠ some '.'

instance (component : List Char) : Decidable (IsShown component) :=
  inferInstanceAs (Decidable (_ ≠ _))

theorem IsShown.isDots {component : List Char} (h : IsShown component) :
    isDots component = false := by
  unfold Glob.isDots
  cases component with
  | nil => rfl
  | cons c rest =>
    have hc : c ≠ '.' := fun hdot => h (congrArg some hdot)
    simp [hc]

namespace Marks

theorem keep_eq_self {component : List Char} {g : Guard} (hg : ∀ i, g.holds component i = true)
    (position : Nat) (v : Marks) : keep component g position v = v := by
  induction v generalizing position with
  | nil => rfl
  | cons b v ih => simp [keep, hg, ih]

/-- What was marked stays marked further on. -/
theorem union_onward (seen : Bool) (v : Marks) : union v (onward seen v) = onward seen v := by
  induction v generalizing seen with
  | nil => rfl
  | cons b v ih =>
    simp only [onward, union, List.zipWith_cons_cons]
    congr 1
    · cases b <;> simp
    · exact ih (seen || b)

end Marks

namespace Expr
variable {component : List Char}

theorem step_guard {g : Guard} (hg : ∀ i, g.holds component i = true) (e : Expr) :
    (Expr.seq (.guard g) e).step component = e.step component := by
  simp only [step, Marks.keep_eq_self hg]

end Expr

namespace Element
variable {component : List Char}

theorem step_guarded {g : Guard} (hg : ∀ i, g.holds component i = true) (condition : Bool)
    (e : Expr) : (guarded condition g e).step component = e.step component := by
  cases condition with
  | false => rfl
  | true => exact Expr.step_guard hg e

theorem step_guarded_congr {a b : Expr} (h : a.step component = b.step component)
    (condition : Bool) (g : Guard) :
    (guarded condition g a).step component = (guarded condition g b).step component := by
  cases condition with
  | false => exact h
  | true => simp only [guarded, if_true, Expr.step, h]

theorem notHidden_holds (h : IsShown component) (i : Nat) :
    Guard.notHidden.holds component i = true := by
  simp only [Guard.holds, Bool.or_eq_true, bne_iff_ne]
  exact .inr h

theorem notDots_holds (h : IsShown component) (i : Nat) :
    Guard.notDots.holds component i = true := by
  simp [Guard.holds, h.isDots]

theorem step_oneChar (h : IsShown component) (place : Place) (s : CharSet) :
    (oneChar .hidden place s).step component = (oneChar .ordinary place s).step component := by
  simp only [oneChar, Expr.step_guard (notHidden_holds h), step_guarded (notDots_holds h)]

/-- Where a star may stop at a dot, stopping is no more than what it can do anyway. -/
theorem step_star (h : IsShown component) (place : Place) (optionalTail : Bool) :
    (star .hidden place optionalTail).step component =
      (star .ordinary place optionalTail).step component := by
  apply step_guarded_congr
  have hshown := Expr.step_guard (notHidden_holds h) .text
  have hstop : (Expr.alt .empty (.seq (.guard .notHidden) .text)).step component =
      Expr.text.step component := by
    change (⟨fun v => v.union (((Expr.seq (.guard .notHidden) .text).step component).run v)⟩ :
      Step) = _
    rw [hshown]
    simp only [Expr.step, Marks.union_onward]
  cases place.inGroup && optionalTail with
  | false => exact hshown.trans (step_guarded (notDots_holds h) _ .text).symm
  | true => exact hstop.trans (step_guarded (notDots_holds h) _ .text).symm

theorem step_groupOf (h : IsShown component) (place : Place) (kind : GroupKind) (dotted : Bool)
    {a b : Expr} (hbody : a.step component = b.step component) :
    (groupOf .hidden place kind dotted a).step component =
      (groupOf .ordinary place kind dotted b).step component := by
  have honce : (guarded (DotRule.hidden == .hidden && !dotted) .notHidden a).step component =
      (guarded (DotRule.ordinary == .hidden && !dotted) .notHidden b).step component :=
    (step_guarded (notHidden_holds h) _ a).trans hbody
  apply step_guarded_congr
  cases kind with
  | once => exact honce
  | optional | anyNumber | atLeastOnce => simp only [Expr.step, honce]
  | other =>
    apply step_guarded_congr
    have hother : (Expr.other a).step component = (Expr.other b).step component := by
      simp only [Expr.step, hbody]
    exact (step_guarded (notHidden_holds h) _ (.other a)).trans hother

mutual

theorem step_expr (h : IsShown component) (place : Place) (es : List Element) :
    (expr .hidden place es).step component = (expr .ordinary place es).step component := by
  cases es with
  | nil => rfl
  | cons e rest =>
    simp only [expr, Expr.step, step_exprOf h place _ e,
      step_expr h { place with first := false } rest]

theorem step_exprOf (h : IsShown component) (place : Place) (optionalTail : Bool) (e : Element) :
    (exprOf .hidden place optionalTail e).step component =
      (exprOf .ordinary place optionalTail e).step component := by
  cases e with
  | literal c => rfl
  | anyChar => exact step_oneChar h place .every
  | anyText => exact step_star h place optionalTail
  | oneOf k => exact step_oneChar h place (.oneOf k)
  | blocked => rfl
  | group kind alternatives =>
    exact step_groupOf h place kind _ (step_anyExpr h { place with inGroup := true } alternatives)

theorem step_anyExpr (h : IsShown component) (place : Place) (alternatives : List (List Element)) :
    (anyExpr .hidden place alternatives).step component =
      (anyExpr .ordinary place alternatives).step component := by
  cases alternatives with
  | nil => rfl
  | cons a rest => simp only [anyExpr, Expr.step, step_expr h place a, step_anyExpr h place rest]

end
end Element

def IsShownPath (path : List Char) : Prop := ∀ component ∈ components path, IsShown component

instance (path : List Char) : Decidable (IsShownPath path) :=
  inferInstanceAs (Decidable (∀ component ∈ components path, IsShown component))

theorem globstarTakes_hidden (component : List Char) :
    globstarTakes .hidden component = decide (IsShown component) := by
  by_cases h : component.head? = some '.' <;> simp [globstarTakes, IsShown, h]

theorem globstarTakes_of_isShown (rule : DotRule) {component : List Char} (h : IsShown component) :
    globstarTakes rule component = true := by
  cases rule with
  | hidden => rw [globstarTakes_hidden, decide_eq_true h]
  | ordinary => simp [globstarTakes, h.isDots]

theorem Element.accepts_expr {component : List Char} (h : IsShown component) (place : Place)
    (es : List Element) :
    (Element.expr .hidden place es).accepts component =
      (Element.expr .ordinary place es).accepts component := by
  simp only [Expr.accepts, Element.step_expr h]

theorem sweep_congr {f g : List Char → Bool} {path : List (List Char)} (h : ∀ c ∈ path, f c = g c)
    (carried : Bool) (v : Marks) : sweep f carried v path = sweep g carried v path := by
  induction path generalizing carried v with
  | nil => rcases v with _ | ⟨b, _ | ⟨b', v⟩⟩ <;> rfl
  | cons c path ih =>
    obtain ⟨hc, hpath⟩ := List.forall_mem_cons.mp h
    cases v with
    | nil => rfl
    | cons b v => simp only [sweep, hc, ih hpath]

theorem zipWith_and_congr {f g : List Char → Bool} {path : List (List Char)}
    (h : ∀ c ∈ path, f c = g c) (v : Marks) :
    List.zipWith (fun b c => b && f c) v path = List.zipWith (fun b c => b && g c) v path := by
  induction path generalizing v with
  | nil => cases v <;> rfl
  | cons c path ih =>
    obtain ⟨hc, hpath⟩ := List.forall_mem_cons.mp h
    cases v with
    | nil => rfl
    | cons b v => simp only [List.zipWith_cons_cons, hc, ih hpath]

section Shown
variable {path : List (List Char)} (h : ∀ c ∈ path, IsShown c)
include h

theorem step_compile (s : Segment) (v : Marks) :
    (Segment.compile .hidden s).step .hidden path v =
      (Segment.compile .ordinary s).step .ordinary path v := by
  cases s with
  | parts elements =>
    have hmarks := zipWith_and_congr
      (fun c hc => Element.accepts_expr (h c hc) ⟨true, false⟩ elements) v
    simp only [Segment.compile, CompiledSegment.step, hmarks]
  | globstar =>
    refine sweep_congr (fun c hc => ?_) false v
    rw [globstarTakes_of_isShown .hidden (h c hc), globstarTakes_of_isShown .ordinary (h c hc)]
  | close => rfl

theorem takes_compile (v : Marks) (segments : List Segment) :
    takes .hidden path v (segments.map (Segment.compile .hidden)) =
      takes .ordinary path v (segments.map (Segment.compile .ordinary)) := by
  induction segments generalizing v with
  | nil => rfl
  | cons s rest ih =>
    cases rest with
    | nil => simp only [List.map, takes, step_compile h]
    | cons s' rest =>
      simp only [List.map] at ih ⊢
      simp only [takes, step_compile h, ih]

end Shown

namespace Branch

/-- Texts match alike under both rules where nothing is hidden. -/
theorem accepts_ofText {path : List Char} (h : IsShownPath path) (text : List Char) :
    (ofText .hidden text).accepts path = (ofText .ordinary text).accepts path := by
  exact congrArg (fun taken => if isBlank (Segment.read text) then path.isEmpty else taken)
    (takes_compile h _ (Segment.read text))

theorem accepts_ofText_nil (rule : DotRule) {path : List Char} (h : path ≠ []) :
    (ofText rule []).accepts path = false := by
  cases path with
  | nil => exact absurd rfl h
  | cons c path => rfl

end Branch

theorem sweep_ne_nil (f : List Char → Bool) (carried : Bool) (v : Marks) (path : List (List Char)) :
    sweep f carried v path ≠ [] := by
  unfold sweep
  split <;> simp

/-- A sweep from the start reaches the end if it takes every component. -/
theorem atEnd_sweep (f : List Char → Bool) (carried b : Bool) (path : List (List Char)) :
    atEnd (sweep f carried (b :: List.replicate path.length false) path) =
      ((carried || b) && path.all f) := by
  induction path generalizing carried b with
  | nil => simp [sweep, atEnd]
  | cons c path ih =>
    have hlast : ∀ (x : Bool) (v : Marks), v ≠ [] → atEnd (x :: v) = atEnd v := by
      intro x v hv
      simp [atEnd, List.getLast?_cons, List.getLast?_eq_some_getLast hv]
    rw [List.length_cons, List.replicate_succ, sweep, hlast _ _ (sweep_ne_nil _ _ _ _), ih]
    simp [Bool.and_assoc]

/-- Two stars match the paths in which nothing is hidden. -/
theorem accepts_globstar (path : List Char) :
    (Branch.ofText .hidden ['*', '*']).accepts path = decide (IsShownPath path) := by
  have hstart : Marks.single ((components path).length + 1) 0 =
      true :: List.replicate (components path).length false := by
    simp [Marks.single, List.range_succ_eq_map, List.eq_replicate_iff]
  have hsweep : (Branch.ofText .hidden ['*', '*']).accepts path =
      atEnd (sweep (globstarTakes .hidden) false
        (Marks.single ((components path).length + 1) 0) (components path)) := rfl
  rw [hsweep, hstart, atEnd_sweep, Bool.false_or, Bool.true_and, Bool.eq_iff_iff,
    decide_eq_true_iff, List.all_eq_true]
  simp only [globstarTakes_hidden, decide_eq_true_iff, IsShownPath]

end FileChecks.Glob
