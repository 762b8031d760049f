import FileChecks.Glob.Magic
import FileChecks.Glob.Path
import FileChecks.Proofs.Text.Split

/-! Texts in which the matcher reads no syntax, so that every character stands for itself. -/
namespace FileChecks.Glob

namespace SegmentType

theorem dropEscapes_of_notMem {cs : List Char} (h : '\\' ∉ cs) : dropEscapes cs = cs := by
  fun_induction dropEscapes cs with
  | case1 => rfl
  | case2 => rfl
  | case3 c d rest hc => exact absurd hc.1 fun heq => h (heq ▸ List.mem_cons_self)
  | case4 c d rest _ ih => rw [ih fun hmem => h (List.mem_cons_of_mem c hmem)]

theorem hasSyntax_of_suffix {a b : List Char} (h : a <:+ b) (ha : hasSyntax a = true) :
    hasSyntax b = true := by
  induction b with
  | nil => rwa [List.suffix_nil.mp h] at ha
  | cons c b ih =>
    rcases List.suffix_cons_iff.mp h with rfl | hsuffix
    · exact ha
    · simp [hasSyntax, ih hsuffix]

end SegmentType

namespace CharClass

theorem mem_takeWhile_of_startOf? {cs : List Char} {k : NamedClass}
    (h : NamedClass.startOf? cs = some k) : ']' ∈ cs.takeWhile (· != '/') := by
  have hclosing : ']' ∈ k.spelling := by simp [NamedClass.spelling]
  have hinside : k.spelling.all (· != '/') = true := by cases k <;> rfl
  have hprefix : k.spelling.isPrefixOf cs = true :=
    List.find?_some (p := fun k => NamedClass.spelling k |>.isPrefixOf cs) h
  obtain ⟨rest, rfl⟩ := List.isPrefixOf_iff_prefix.mp hprefix
  rw [List.takeWhile_append_of_pos (List.all_eq_true.mp hinside)]
  exact List.mem_append_left _ hclosing

/-- A class is not read unless it is closed before the next separator. -/
theorem marks?_eq_none {cs : List Char} (hescape : '\\' ∉ cs)
    (h : ']' ∉ cs.takeWhile (· != '/')) : marks? 0 cs = none := by
  induction cs with
  | nil => rfl
  | cons c rest ih =>
    obtain ⟨hc, hescape⟩ := List.ne_and_not_mem_of_not_mem_cons hescape
    by_cases hslash : c = '/'
    · unfold marks?
      simp [hslash]
    · rw [List.takeWhile_cons_of_pos (by simpa using hslash)] at h
      obtain ⟨hclosing, hrest⟩ := List.ne_and_not_mem_of_not_mem_cons h
      have hbehind := ih hescape hrest
      have hnamed : NamedClass.startOf? rest = none :=
        Option.eq_none_iff_forall_ne_some.mpr fun k hk => hrest (mem_takeWhile_of_startOf? hk)
      unfold marks?
      simp [hslash, Ne.symm hclosing, Ne.symm hc, hnamed, hbehind]

theorem bodyMarks?_eq_none {cs : List Char} (hescape : '\\' ∉ cs)
    (h : ']' ∉ (cs.takeWhile (· != '/')).drop 1) : bodyMarks? cs = none := by
  cases cs with
  | nil => rfl
  | cons c rest =>
    by_cases hslash : c = '/'
    · unfold bodyMarks? marks?
      simp [hslash]
    · rw [List.takeWhile_cons_of_pos (by simpa using hslash), List.drop_one, List.tail_cons] at h
      have hbehind := marks?_eq_none (List.not_mem_of_not_mem_cons hescape) h
      by_cases hc : c = ']' ∨ c = '-'
      · simp only [bodyMarks?, if_pos hc, hbehind, Option.map_none]
      · have hclosing : ']' ∉ (c :: rest).takeWhile (· != '/') := by
          rw [List.takeWhile_cons_of_pos (by simpa using hslash)]
          exact List.not_mem_cons_of_ne_of_not_mem (fun heq => hc (.inl heq.symm)) h
        simp only [bodyMarks?, if_neg hc, marks?_eq_none hescape hclosing]

theorem read?_eq_none {cs : List Char} (hescape : '\\' ∉ cs)
    (h : ']' ∉ (cs.takeWhile (· != '/')).drop 1) : read? cs = none := by
  cases cs with
  | nil => rfl
  | cons c rest =>
    unfold read?
    by_cases hc : c = '!' ∨ c = '^'
    · have hslash : c ≠ '/' := by
        rintro rfl
        exact absurd hc (by decide)
      rw [List.takeWhile_cons_of_pos (by simpa using hslash), List.drop_one, List.tail_cons] at h
      have hbody := bodyMarks?_eq_none (List.not_mem_of_not_mem_cons hescape) fun hmem =>
        h (List.mem_of_mem_drop hmem)
      simp only [if_pos hc, hbody, Option.map_none]
    · simp only [if_neg hc, bodyMarks?_eq_none hescape h, Option.map_none]

end CharClass

/-- Texts of which every character is read as itself where no group is read. -/
def IsBare (cs : List Char) : Prop :=
  ∀ c rest, c :: rest <:+ cs → c ≠ '\\' ∧ Element.simple c rest = (.literal c, rest)

theorem IsBare.of_suffix {a b : List Char} (hb : IsBare b) (h : a <:+ b) : IsBare a :=
  fun c rest hsuffix => hb c rest (hsuffix.trans h)

namespace Element

theorem opening?_eq_some_iff {c : Char} {rest inside : List Char} {kind : GroupKind} :
    opening? c rest = some (kind, inside) ↔
      GroupKind.ofMark? c = some kind ∧ rest = '(' :: inside := by
  unfold opening?
  split
  · rename_i hmark
    simp [hmark]
  · rename_i hne
    simp only [reduceCtorEq, false_iff, not_and]
    rintro hmark rfl
    exact hne _ _ hmark rfl

theorem readGroup?_eq_none (fuel : Nat) {cs : List Char} (hbare : IsBare cs) (h : ')' ∉ cs)
    (alternatives : List (List Element)) (reversed : List Element) :
    readGroup? fuel cs alternatives reversed = none := by
  induction fuel generalizing cs alternatives reversed with
  | zero => cases cs <;> rfl
  | succ fuel ih =>
    cases cs with
    | nil => rfl
    | cons c rest =>
      obtain ⟨hc, hsimple⟩ := hbare c rest List.suffix_rfl
      have hclosing : c ≠ ')' := fun heq => h (heq ▸ List.mem_cons_self)
      have hbehind : ∀ {cs'}, cs' <:+ rest → ∀ alternatives reversed,
          readGroup? fuel cs' alternatives reversed = none := by
        intro cs' hsuffix
        have hsuffix := hsuffix.trans (List.suffix_cons c rest)
        exact ih (hbare.of_suffix hsuffix) fun hmem => h (hsuffix.subset hmem)
      unfold readGroup?
      rw [if_neg hclosing, if_neg hc, hsimple]
      split
      · exact hbehind List.suffix_rfl _ _
      · split
        · exact hbehind List.suffix_rfl _ _
        · split
          · rename_i hopening
            obtain ⟨-, rfl⟩ := opening?_eq_some_iff.mp hopening
            rw [hbehind (List.suffix_cons _ _)]
          · exact hbehind List.suffix_rfl _ _

end Element

namespace Segment

def literalPiece (c : Char) : Piece := .element (.literal c)

def plainPiece (c : Char) : Piece := if c = '/' then .separator else literalPiece c

/-- The segment of a component of which every character stands for itself. -/
def ofLiteral (component : List Char) : Segment := .parts (component.map .literal)

def literalExpr (rule : DotRule) (component : List Char) : Expr :=
  Element.expr rule ⟨true, false⟩ (component.map .literal)

theorem pieces_eq_map (fuel : Nat) (groups : Bool) {cs : List Char} (hfuel : cs.length ≤ fuel)
    (hbare : IsBare cs) (hgroups : ∀ mark inside, mark :: '(' :: inside <:+ cs →
      (GroupKind.ofMark? mark).isSome = true → ')' ∉ inside) :
    pieces fuel groups cs = cs.map plainPiece := by
  induction fuel generalizing groups cs with
  | zero =>
    rw [List.length_eq_zero_iff.mp (Nat.le_zero.mp hfuel)]
    rfl
  | succ fuel ih =>
    cases cs with
    | nil => rfl
    | cons c rest =>
      obtain ⟨hc, hsimple⟩ := hbare c rest List.suffix_rfl
      have hbehind : ∀ groups, pieces fuel groups rest = rest.map plainPiece := fun groups =>
        ih groups (Nat.le_of_succ_le_succ hfuel) (hbare.of_suffix (List.suffix_cons c rest))
          fun mark inside hsuffix => hgroups mark inside (hsuffix.trans (List.suffix_cons c rest))
      have hcons : ∀ groups, Piece.cons (.literal c) (pieces fuel groups rest) =
          literalPiece c :: rest.map plainPiece := fun groups =>
        congrArg (literalPiece c :: ·) (hbehind groups)
      unfold pieces
      rw [List.map_cons, plainPiece]
      by_cases hslash : c = '/'
      · rw [if_pos hslash, if_pos hslash, hbehind]
      · rw [if_neg hslash, if_neg hslash, if_neg hc, hsimple]
        split
        · -- The group that opens is never closed, so all it does is turn groups off.
          rename_i kind inside hopening
          have hopen : Element.opening? c rest = some (kind, inside) := by
            split at hopening
            · exact hopening
            · cases hopening
          obtain ⟨hmark, rfl⟩ := Element.opening?_eq_some_iff.mp hopen
          have hinside : IsBare inside :=
            hbare.of_suffix ((List.suffix_cons '(' inside).trans (List.suffix_cons c _))
          have hclosing := hgroups c inside List.suffix_rfl (hmark ▸ rfl)
          rw [Element.readGroup?_eq_none _ hinside hclosing]
          exact hcons false
        · exact hcons groups

theorem splitPieces_map (cs : List Char) :
    splitPieces (cs.map plainPiece) = (components cs).map (List.map literalPiece) := by
  induction cs with
  | nil => rfl
  | cons c rest ih =>
    rw [List.map_cons, plainPiece, components]
    by_cases hc : c = '/'
    · rw [if_pos hc, hc, Text.split_separator_cons]
      exact congrArg ([] :: ·) ih
    · obtain ⟨part, parts, hrest⟩ := List.exists_cons_of_ne_nil (Text.split_ne_nil '/' rest)
      rw [components, hrest] at ih
      rw [if_neg hc, Text.split_cons_of_ne hc hrest]
      simp [splitPieces, literalPiece, ih]

theorem ofPieces_map (component : List Char) :
    ofPieces (component.map literalPiece) = ofLiteral component := by
  cases component with
  | nil => rfl
  | cons c component =>
    refine congrArg Segment.parts ?_
    change List.filterMap _ ((c :: component).map literalPiece) = _
    rw [List.filterMap_map]
    exact congrFun List.filterMap_eq_map (c :: component)

theorem following_eq_map {slices : List (List Piece)} (h : [] ∉ slices) :
    following slices = slices.map ofPieces := by
  induction slices with
  | nil => rfl
  | cons slice slices ih =>
    obtain ⟨hslice, hslices⟩ := List.ne_and_not_mem_of_not_mem_cons h
    cases slice with
    | nil => exact absurd rfl hslice
    | cons p slice => rw [following, ih hslices, List.map_cons] <;> exact nofun

/-- A text without syntax is read as its components. -/
theorem read_eq_map {cs : List Char} (hbare : IsBare cs)
    (hgroups : ∀ mark inside, mark :: '(' :: inside <:+ cs →
      (GroupKind.ofMark? mark).isSome = true → ')' ∉ inside)
    (hcomponents : [] ∉ (components cs).tail) : read cs = (components cs).map ofLiteral := by
  have hpieces := splitPieces_map cs
  rw [← pieces_eq_map cs.length true (Nat.le_refl _) hbare hgroups] at hpieces
  obtain ⟨first, behind, hcs⟩ := List.exists_cons_of_ne_nil (Text.split_ne_nil '/' cs)
  rw [components, hcs] at hpieces hcomponents ⊢
  have hslices : [] ∉ behind.map (List.map literalPiece) := by
    simpa using hcomponents
  rw [read, hpieces, List.map_cons, List.map_cons]
  dsimp only
  rw [following_eq_map hslices, ofPieces_map, List.map_map]
  exact congrArg _ (List.map_congr_left fun component _ => ofPieces_map component)

end Segment
end FileChecks.Glob
