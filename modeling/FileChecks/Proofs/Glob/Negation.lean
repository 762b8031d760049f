import FileChecks.Glob.Pattern
import FileChecks.Proofs.Glob.DotRules
import FileChecks.Proofs.Glob.Expansion

/-!
Negated patterns. A lone exclamation mark takes paths away from those in which nothing is hidden,
so that it is a complement for these only.
-/
namespace FileChecks.Glob

/-- Whether a text starts with neither an exclamation mark nor a parenthesis. -/
def startsPlainly (cs : List Char) : Bool := cs.head? != some '!' && cs.head? != some '('

theorem head?_ne_of_startsPlainly {cs : List Char} (h : startsPlainly cs = true) :
    cs.head? ≠ some '!' ∧ cs.head? ≠ some '(' := by
  simpa [startsPlainly] using h

theorem isNegative_of_startsPlainly {cs : List Char} (h : startsPlainly cs = true) :
    isNegative cs = false := by
  cases cs with
  | nil => rfl
  | cons c rest =>
    have hc : c ≠ '!' := fun hbang => (head?_ne_of_startsPlainly h).1 (congrArg some hbang)
    unfold isNegative
    split <;> simp_all

theorem isNegative_cons_bang {cs : List Char} (h : cs.head? ≠ some '(') :
    isNegative ('!' :: cs) = true := by
  unfold isNegative
  split
  · rename_i heq
    cases heq
    exact absurd rfl h
  · rfl
  · rename_i hne
    exact absurd rfl (hne cs)

namespace Pattern

def alternatives (p : String) : List (List Char) := (Brace.expand? p.toList).getD []

/-- Whether some text matches a path as one of a pattern that is not negated does. -/
def anyAccepts (texts : List (List Char)) (path : String) : Bool :=
  texts.any fun text => (Branch.ofText .hidden text).accepts path.toList

theorem anyAccepts_congr {texts texts' : List (List Char)} {path : String} (hpath : path ≠ "")
    (h : ∀ t, t ≠ [] → (t ∈ texts ↔ t ∈ texts')) :
    anyAccepts texts path = anyAccepts texts' path := by
  have hcs : path.toList ≠ [] := fun hnil => hpath (String.toList_eq_nil_iff.mp hnil)
  have hblank := Branch.accepts_ofText_nil .hidden hcs
  rw [Bool.eq_iff_iff, anyAccepts, anyAccepts, List.any_eq_true, List.any_eq_true]
  refine exists_congr fun t => and_congr_left fun ht => ?_
  refine h t fun hnil => ?_
  rw [hnil, hblank] at ht
  cases ht

theorem anyAccepts_matchTexts (texts : List (List Char)) {path : String} (hpath : path ≠ "") :
    anyAccepts (matchTexts texts) path = anyAccepts texts path := by
  refine anyAccepts_congr hpath fun t ht => ?_
  cases texts with
  | nil => simpa [matchTexts] using ht
  | cons t' texts => rfl

/-- Patterns of which no text is negative only add paths. -/
theorem branches_of_forall_not_isNegative {texts : List (List Char)} (hne : texts ≠ [])
    (h : ∀ t ∈ texts, isNegative t = false) :
    positiveBranches texts = texts.map (Branch.ofText .hidden) ∧ negativeBranches texts = [] := by
  have hadding : texts.filter (! isNegative ·) = texts :=
    List.filter_eq_self.mpr fun t ht => by rw [h t ht]; rfl
  have htaking : texts.filter isNegative = [] :=
    List.filter_eq_nil_iff.mpr fun t ht => by rw [h t ht]; exact Bool.false_ne_true
  unfold positiveBranches negativeBranches
  simp [hadding, htaking, hne]

/-- Behind exclamation marks texts only take paths away. -/
theorem branches_map_cons_bang {inner : List (List Char)} (h : ∀ t ∈ inner, t.head? ≠ some '(') :
    positiveBranches (inner.map ('!' :: ·)) = [Branch.ofText .hidden ['*', '*']] ∧
      negativeBranches (inner.map ('!' :: ·)) = inner.map (Branch.ofText .ordinary) := by
  have hnegative : ∀ t ∈ inner.map ('!' :: ·), isNegative t = true := by
    intro t ht
    obtain ⟨inner', hmem, rfl⟩ := List.mem_map.mp ht
    exact isNegative_cons_bang (h inner' hmem)
  have hadding : (inner.map ('!' :: ·)).filter (! isNegative ·) = [] :=
    List.filter_eq_nil_iff.mpr fun t ht => by rw [hnegative t ht]; exact Bool.false_ne_true
  have htaking : (inner.map ('!' :: ·)).filter isNegative = inner.map ('!' :: ·) :=
    List.filter_eq_self.mpr hnegative
  unfold positiveBranches negativeBranches
  rw [hadding, htaking]
  constructor
  · rfl
  · simp

variable {p : String} {q : Pattern} {path : String}

/-- Acceptance depends on the texts that a pattern stands for and on nothing else of it. -/
theorem exists_of_compile? (hq : compile? p = some q) :
    ∃ texts, Brace.expand? p.toList = some texts ∧ ∀ path, q.accepts path =
      ((positiveBranches (matchTexts texts)).any (·.accepts path.toList) &&
        !(negativeBranches (matchTexts texts)).any (·.accepts path.toList)) := by
  simp only [compile?, Option.bind_eq_bind, Option.bind_eq_some_iff] at hq
  obtain ⟨_, -, texts, htexts, hq⟩ := hq
  refine ⟨texts, htexts, fun path => ?_⟩
  rw [← Option.some.inj hq]
  rfl

/-- Without a negative text, a pattern matches what some of its texts matches. -/
theorem accepts_of_forall_not_isNegative (hq : compile? p = some q)
    (h : ∀ t ∈ alternatives p, isNegative t = false) (hpath : path ≠ "") :
    q.accepts path = anyAccepts (alternatives p) path := by
  obtain ⟨texts, htexts, haccepts⟩ := exists_of_compile? hq
  have halternatives : alternatives p = texts := by rw [alternatives, htexts, Option.getD_some]
  rw [halternatives] at h ⊢
  have hpositive : ∀ t ∈ matchTexts texts, isNegative t = false := by
    intro t ht
    unfold matchTexts at ht
    split at ht
    · rw [List.mem_singleton.mp ht]
      rfl
    · exact h t ht
  have hne : matchTexts texts ≠ [] := by
    unfold matchTexts
    split <;> simp_all
  obtain ⟨hadding, htaking⟩ := branches_of_forall_not_isNegative hne hpositive
  rw [haccepts, hadding, htaking, ← anyAccepts_matchTexts texts hpath]
  simp [anyAccepts, List.any_map, Function.comp_def]

theorem expand?_bang_append (p : String) :
    Brace.expand? ("!" ++ p).toList =
      (Brace.expandBehind? p.toList).map (List.map ('!' :: ·)) := by
  rw [String.toList_append]
  exact Brace.expand?_cons_bang p.toList

/-- A negated pattern leaves out what is hidden and what it would match without the mark. -/
theorem accepts_cons_bang {inner : List (List Char)} {n : Pattern}
    (hn : compile? ("!" ++ p) = some n) (hinner : Brace.expandBehind? p.toList = some inner)
    (hplain : ∀ t ∈ inner, t.head? ≠ some '(') :
    n.accepts path = (decide (IsShownPath path.toList) && !anyAccepts inner path) := by
  obtain ⟨texts, htexts, haccepts⟩ := exists_of_compile? hn
  rw [expand?_bang_append, hinner, Option.map_some] at htexts
  obtain rfl := Option.some.inj htexts
  have hmatch : matchTexts (inner.map ('!' :: ·)) = inner.map ('!' :: ·) := by
    have hne := Brace.expandBehind?_ne_nil hinner
    simp [matchTexts, hne]
  obtain ⟨hadding, htaking⟩ := branches_map_cons_bang hplain
  rw [haccepts, hmatch, hadding, htaking, List.any_cons, List.any_nil, Bool.or_false,
    accepts_globstar]
  by_cases hshown : IsShownPath path.toList
  · simp [anyAccepts, List.any_map, Function.comp_def, Branch.accepts_ofText hshown]
  · simp [hshown]

theorem exists_compile?_cons_bang (hq : compile? p = some q) (hp : p.toList.head? ≠ some '(')
    {inner : List (List Char)} (hinner : Brace.expandBehind? p.toList = some inner) :
    ∃ n, compile? ("!" ++ p) = some n := by
  obtain ⟨texts, htexts, -⟩ := exists_of_compile? hq
  simp [compile?, isNegative_cons_bang hp, htexts, Brace.expand?_cons_bang, hinner]

/-- A pattern behind an exclamation mark matches a path exactly if it does not without it. -/
def Complements (p : String) (q : Pattern) (path : String) : Prop :=
  ∃ n, compile? ("!" ++ p) = some n ∧ (n.accepts path = true ↔ q.accepts path = false)

theorem complements_iff_of_compile? {n : Pattern} (hn : compile? ("!" ++ p) = some n) :
    Complements p q path ↔ (n.accepts path = true ↔ q.accepts path = false) := by
  constructor
  · rintro ⟨n', hn', h⟩
    rwa [Option.some.inj (hn.symm.trans hn')]
  · exact fun h => ⟨n, hn, h⟩

theorem complements_iff_of_expandBehind? (hq : compile? p = some q)
    (hp : startsPlainly p.toList = true) {inner : List (List Char)}
    (hinner : Brace.expandBehind? p.toList = some inner)
    (hplain : ∀ t ∈ inner, startsPlainly t = true) :
    Complements p q path ↔
      if IsShownPath path.toList then anyAccepts inner path = q.accepts path
      else q.accepts path = true := by
  have hparen : ∀ t ∈ inner, t.head? ≠ some '(' := fun t ht =>
    (head?_ne_of_startsPlainly (hplain t ht)).2
  obtain ⟨n, hn⟩ := exists_compile?_cons_bang hq (head?_ne_of_startsPlainly hp).2 hinner
  rw [complements_iff_of_compile? hn, accepts_cons_bang hn hinner hparen]
  by_cases hshown : IsShownPath path.toList
  · cases anyAccepts inner path <;> cases q.accepts path <;> simp [hshown]
  · cases q.accepts path <;> simp [hshown]

theorem complements_iff_of_opensEmpty_eq_false (hq : compile? p = some q)
    (hp : startsPlainly p.toList = true) (hplain : ∀ t ∈ alternatives p, startsPlainly t = true)
    (hpath : path ≠ "") (hopen : Brace.opensEmpty p.toList = false) :
    Complements p q path ↔ IsShownPath path.toList ∨ q.accepts path = true := by
  obtain ⟨texts, htexts, -⟩ := exists_of_compile? hq
  have halternatives : alternatives p = texts := by rw [alternatives, htexts, Option.getD_some]
  obtain ⟨inner, hinner, hsame⟩ := Brace.exists_expandBehind? hopen htexts
  have hinnerplain : ∀ t ∈ inner, startsPlainly t = true := by
    intro t ht
    by_cases hnil : t = []
    · rw [hnil]
      rfl
    · exact hplain t (halternatives ▸ (hsame t hnil).mp ht)
  have haccepts : anyAccepts inner path = q.accepts path := by
    have hpositive := fun t ht => isNegative_of_startsPlainly (hplain t ht)
    rw [accepts_of_forall_not_isNegative hq hpositive hpath, halternatives]
    exact anyAccepts_congr hpath hsame
  rw [complements_iff_of_expandBehind? hq hp hinner hinnerplain]
  by_cases hshown : IsShownPath path.toList <;> simp [hshown, haccepts]

/-- A pattern behind an exclamation mark is the complement of the pattern exactly on the paths in
which nothing is hidden and on those that the pattern itself matches. This is so unless the pattern
starts with braces that stay only there; then the texts that it stands for behind the mark decide. -/
theorem complements_iff (hq : compile? p = some q) (hp : startsPlainly p.toList = true)
    (hplain : ∀ t ∈ alternatives p, startsPlainly t = true) (hpath : path ≠ "") :
    (Brace.opensEmpty p.toList = false →
      (Complements p q path ↔ IsShownPath path.toList ∨ q.accepts path = true)) ∧
    ((∀ t ∈ (Brace.expandBehind? p.toList).getD [], startsPlainly t = true) →
      (Complements p q path ↔ ∃ inner, Brace.expandBehind? p.toList = some inner ∧
        if IsShownPath path.toList then anyAccepts inner path = q.accepts path
        else q.accepts path = true)) := by
  refine ⟨complements_iff_of_opensEmpty_eq_false hq hp hplain hpath, fun hbehind => ?_⟩
  cases hinner : Brace.expandBehind? p.toList with
  | none =>
    have hnone : ∀ n, compile? ("!" ++ p) ≠ some n := by
      intro n hn
      obtain ⟨texts, htexts, -⟩ := exists_of_compile? hn
      rw [expand?_bang_append, hinner] at htexts
      cases htexts
    simp [Complements, hnone]
  | some inner =>
    rw [hinner, Option.getD_some] at hbehind
    simp [complements_iff_of_expandBehind? hq hp hinner hbehind]

/-- A hidden file is matched neither by a pattern for other names nor by its negation. -/
theorem not_complements_hidden :
    ∃ q, compile? "*.md" = some q ∧ ¬ Complements "*.md" q ".gitignore" := by
  have hreject : (compile? "*.md").map (·.accepts ".gitignore") = some false := by decide +kernel
  obtain ⟨q, hq, haccepts⟩ := Option.map_eq_some_iff.mp hreject
  refine ⟨q, hq, fun h => ?_⟩
  have hiff : Complements "*.md" q ".gitignore" ↔
      IsShownPath ".gitignore".toList ∨ q.accepts ".gitignore" = true :=
    (complements_iff hq (by decide) (by decide) (by decide)).1 (by decide)
  rcases hiff.mp h with hshown | hmatch
  · exact absurd hshown (by decide)
  · rw [haccepts] at hmatch
    cases hmatch

end Pattern
end FileChecks.Glob
