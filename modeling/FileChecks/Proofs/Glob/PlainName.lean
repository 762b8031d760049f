import FileChecks.Proofs.Glob.Literal
import FileChecks.Proofs.Glob.Negation
import FileChecks.Proofs.Glob.Walk
import Mathlib.Data.List.Infix

/-!
Patterns that are plain names. The segments of a text are classified one by one, after a reading of
the braces, and the matcher reads the text as a whole; on plain names the two agree.
-/
namespace FileChecks.Glob

/-- A path that is not empty and has no repeated or trailing separators. -/
structure IsTidy (path : List Char) : Prop where
  ne_nil : path ≠ []
  unrepeated : ¬ ['/', '/'] <:+: path
  ends : path.getLast? ≠ some '/'

instance (path : List Char) : Decidable (IsTidy path) :=
  decidable_of_iff (path ≠ [] ∧ ¬ ['/', '/'] <:+: path ∧ path.getLast? ≠ some '/')
    ⟨fun h => ⟨h.1, h.2.1, h.2.2⟩, fun h => ⟨h.ne_nil, h.unrepeated, h.ends⟩⟩

theorem notMem_tail_components {path : List Char} (hrepeated : ¬ ['/', '/'] <:+: path)
    (hends : path.getLast? ≠ some '/') : [] ∉ (components path).tail := by
  induction path with
  | nil => simp [components, Text.split]
  | cons c rest ih =>
    obtain ⟨parts, hsplit⟩ := Text.exists_split_eq_takeWhile_cons '/' rest
    have hrest : [] ∉ parts := by
      have htail := ih (fun h => hrepeated (h.trans (List.suffix_cons c rest).isInfix)) <| by
        cases rest with
        | nil => simp
        | cons d rest => rwa [List.getLast?_cons_cons] at hends
      rwa [components, hsplit] at htail
    by_cases hc : c = '/'
    · subst hc
      rw [components, Text.split_separator_cons, List.tail_cons, hsplit]
      refine List.not_mem_cons_of_ne_of_not_mem ?_ hrest
      cases rest with
      | nil => exact absurd rfl hends
      | cons d rest =>
        have hd : d ≠ '/' := by
          rintro rfl
          exact hrepeated (List.prefix_append ['/', '/'] rest).isInfix
        rw [List.takeWhile_cons_of_pos (by simpa using hd)]
        exact (List.cons_ne_nil _ _).symm
    · rw [components, Text.split_cons_of_ne hc hsplit]
      exact hrest

theorem IsTidy.notMem_tail {path : List Char} (h : IsTidy path) : [] ∉ (components path).tail :=
  notMem_tail_components h.unrepeated h.ends

/-- Texts that the matcher takes to pieces at their separators first, as the classification does:
no group that opens in one segment is closed in a later one, and no class that starts with a line
break is closed in its segment. Nor does the text take paths away. -/
structure ReadsPlainly (text : List Char) : Prop where
  positive : isNegative text = false
  groups : ∀ mark ∈ ['+', '@', '!'], ∀ inside, mark :: '(' :: inside <:+ text →
    ')' ∉ inside.dropWhile (· != '/')
  classes : ∀ rest, '[' :: '\n' :: rest <:+ text → ']' ∉ rest.takeWhile (· != '/')

/-- A class that is not closed for the classification is not closed for the matcher either. -/
theorem notMem_of_closesClass {rest : List Char}
    (hclass : SegmentType.closesClass (rest.takeWhile (· != '/')) = false)
    (hbreak : ∀ behind, rest = '\n' :: behind → ']' ∉ behind.takeWhile (· != '/')) :
    ']' ∉ (rest.takeWhile (· != '/')).drop 1 := by
  cases rest with
  | nil => exact nofun
  | cons c behind =>
    by_cases hslash : c = '/'
    · simp [hslash]
    · rw [List.takeWhile_cons_of_pos (by simpa using hslash)] at hclass ⊢
      rw [List.drop_one, List.tail_cons]
      by_cases hc : c = '\n'
      · exact hbreak behind (by rw [hc])
      · simpa [SegmentType.closesClass, hc] using hclass

section Literal
variable {text : List Char} (hescape : '\\' ∉ text)
  (hliteral : (MatchSet.ofText text).isLiteral = true)
include hescape hliteral

theorem hasSyntax_of_isLiteral : ∀ part ∈ components text, SegmentType.hasSyntax part = false := by
  intro part hpart
  have htype : SegmentType.ofSegment part = .literal := by
    simp only [MatchSet.isLiteral, MatchSet.types, MatchSet.ofText, List.all_map,
      List.all_eq_true] at hliteral
    exact beq_iff_eq.mp (hliteral part hpart)
  have hdrop := SegmentType.dropEscapes_of_notMem fun h => hescape (Text.mem_of_mem_split hpart h)
  rw [SegmentType.ofSegment, hdrop] at htype
  split at htype
  · cases htype
  · rename_i hsyntax
    exact Bool.eq_false_iff.mpr hsyntax

/-- No syntax starts at a character of a text of plain segments, as far as its segment goes. -/
theorem hasSyntax_of_suffix {c : Char} {rest : List Char} (hsuffix : c :: rest <:+ text)
    (hc : c ≠ '/') : SegmentType.hasSyntax (c :: rest.takeWhile (· != '/')) = false := by
  obtain ⟨part, hmem, hpart⟩ := Text.exists_mem_split_of_suffix hc hsuffix
  refine Bool.eq_false_iff.mpr fun h => ?_
  have hsyntax := SegmentType.hasSyntax_of_suffix hpart h
  rw [hasSyntax_of_isLiteral hescape hliteral part hmem] at hsyntax
  cases hsyntax

/-- A group that the classification does not see is not closed for the matcher either. -/
theorem notMem_of_ofMark? {mark : Char} {inside : List Char}
    (hsuffix : mark :: '(' :: inside <:+ text) (hmark : (GroupKind.ofMark? mark).isSome = true)
    (hgroups : mark ∈ ['+', '@', '!'] → ')' ∉ inside.dropWhile (· != '/')) : ')' ∉ inside := by
  have hslash : mark ≠ '/' := by
    rintro rfl
    cases hmark
  have hplain := hasSyntax_of_suffix hescape hliteral hsuffix hslash
  rw [List.takeWhile_cons_of_pos (by decide)] at hplain
  simp only [SegmentType.hasSyntax, SegmentType.closesGroup, Bool.or_eq_false_iff,
    beq_eq_false_iff_ne] at hplain
  obtain ⟨⟨⟨⟨hstar, hquestion⟩, -⟩, hclosed⟩, -⟩ := hplain
  have hmarks : mark = '+' ∨ mark = '@' ∨ mark = '!' := by
    unfold GroupKind.ofMark? at hmark
    grind
  have hbefore : ')' ∉ inside.takeWhile (· != '/') := by
    rcases hmarks with rfl | rfl | rfl <;> simpa using hclosed
  have hbehind := hgroups (by simpa using hmarks)
  rw [← List.takeWhile_append_dropWhile (p := (· != '/')) (l := inside)]
  exact List.not_mem_append hbefore hbehind

/-- A text of plain segments has no syntax, but for classes that start with a line break. -/
theorem isBare_of_isLiteral
    (hclasses : ∀ rest, '[' :: '\n' :: rest <:+ text → ']' ∉ rest.takeWhile (· != '/')) :
    IsBare text := by
  intro c rest hsuffix
  have hc : c ≠ '\\' := fun heq => hescape (hsuffix.subset (heq ▸ List.mem_cons_self))
  refine ⟨hc, ?_⟩
  by_cases hslash : c = '/'
  · rw [hslash]
    rfl
  · have hplain := hasSyntax_of_suffix hescape hliteral hsuffix hslash
    simp only [SegmentType.hasSyntax, Bool.or_eq_false_iff, beq_eq_false_iff_ne] at hplain
    obtain ⟨⟨⟨⟨hstar, hmark⟩, hclass⟩, -⟩, -⟩ := hplain
    unfold Element.simple
    rw [if_neg hstar, if_neg hmark]
    split
    · rename_i hbracket
      subst hbracket
      have hclosed := notMem_of_closesClass (by simpa using hclass) fun behind heq =>
        hclasses behind (heq ▸ hsuffix)
      have hbehind : '\\' ∉ rest := fun h => hescape (hsuffix.subset (List.mem_cons_of_mem _ h))
      rw [CharClass.read?_eq_none hbehind hclosed]
    · rfl

/-- A plain text that the matcher takes to pieces at separators is read as its components. -/
theorem read_of_isLiteral (htidy : IsTidy text) (hreads : ReadsPlainly text) :
    Segment.read text = (components text).map Segment.ofLiteral := by
  have hbare := isBare_of_isLiteral hescape hliteral hreads.classes
  refine Segment.read_eq_map hbare (fun mark inside hsuffix hmark => ?_) htidy.notMem_tail
  exact notMem_of_ofMark? hescape hliteral hsuffix hmark fun hmem =>
    hreads.groups mark hmem inside hsuffix

end Literal

theorem isBlank_map_ofLiteral {parts : List (List Char)} (h : parts ≠ [[]]) :
    isBlank (parts.map Segment.ofLiteral) = false := by
  rcases parts with _ | ⟨_ | ⟨c, part⟩, _ | ⟨part', parts⟩⟩
  · rfl
  · exact absurd rfl h
  all_goals rfl

namespace Branch

/-- A text that is read as its components matches itself only. -/
theorem accepts_ofText_iff {text path : List Char} (rule : DotRule)
    (hread : Segment.read text = (components text).map Segment.ofLiteral) (htext : text ≠ [])
    (hpath : [] ∉ (components path).tail) :
    (ofText rule text).accepts path = true ↔ path = text := by
  have hblank : isBlank (Segment.read text) = false := by
    rw [hread, isBlank_map_ofLiteral]
    exact fun h => htext (Text.split_injective '/' h)
  have hsegments : (Segment.read text).map (Segment.compile rule) =
      ((components text).map (Segment.literalExpr rule)).map .parts := by
    rw [hread, List.map_map, List.map_map]
    rfl
  have haccepts : (ofText rule text).accepts path =
      takes rule (components path) (Marks.single ((components path).length + 1) 0)
        ((Segment.read text).map (Segment.compile rule)) := by
    change (if isBlank (Segment.read text) then _ else _) = _
    rw [hblank]
    rfl
  rw [haccepts, hsegments, takes_parts hpath rule (Marks.length_single _ _), Marks.atEnd_walk,
    List.map_map, List.forall₂_map_left_iff]
  simp only [Function.comp_apply, Segment.literalExpr, Element.accepts_expr_literals]
  rw [List.forall₂_eq_eq_eq]
  exact ⟨fun h => (Text.split_injective '/' h).symm, fun h => congrArg components h.symm⟩

end Branch

namespace Pattern
variable {p : String} {pattern : Pattern}

theorem exists_of_isMagic_eq_false (hpattern : compile? p = some pattern)
    (hplain : pattern.isMagic = false) :
    ∃ text, Brace.expand? p.toList = some [text] ∧ (MatchSet.ofText text).isLiteral = true := by
  simp only [compile?, Option.bind_eq_bind, Option.bind_eq_some_iff] at hpattern
  obtain ⟨described, hdescribed, texts, htexts, hpattern⟩ := hpattern
  obtain rfl := Option.some.inj hpattern
  simp only [isMagic, Bool.or_eq_false_iff] at hplain
  obtain ⟨hnegated, hsets⟩ := hplain
  rw [hnegated] at hdescribed
  obtain rfl := Option.some.inj (hdescribed.symm.trans htexts)
  rcases described with _ | ⟨text, _ | ⟨text', described⟩⟩
  · cases hsets
  · exact ⟨text, htexts, by simpa using hsets⟩
  · cases hsets

/-- A plain pattern stands for one text, which is its own text if its braces open no choice and no
range. It matches this text and no other path, unless the matcher reads syntax in it that the
classification does not see: a group over a separator, a class with a line break or a negation. -/
theorem accepts_iff_of_isMagic_eq_false {path : String} (hp : '\\' ∉ p.toList)
    (hpattern : compile? p = some pattern) (hplain : pattern.isMagic = false)
    (hpath : IsTidy path.toList) :
    ∃ text, Brace.expand? p.toList = some [text] ∧
      ((∀ b ∈ Brace.read p.toList, b.IsVerbatim) → text = p.toList) ∧
      (IsTidy text → ReadsPlainly text → (pattern.accepts path = true ↔ path.toList = text)) := by
  obtain ⟨text, htext, hliteral⟩ := exists_of_isMagic_eq_false hpattern hplain
  refine ⟨text, htext, fun hread => ?_, fun htidy hreads => ?_⟩
  · have hne : p.toList ≠ [] := by
      intro hnil
      rw [hnil] at htext
      cases htext
    exact List.singleton_inj.mp (Brace.expand?_of_isVerbatim htext hread hne)
  · have hescape := Brace.notMem_of_expand? hp htext text List.mem_cons_self
    have hread := read_of_isLiteral hescape hliteral htidy hreads
    have halternatives : alternatives p = [text] := by rw [alternatives, htext, Option.getD_some]
    have hne : path ≠ "" := fun h => hpath.ne_nil (by rw [h]; rfl)
    rw [accepts_of_forall_not_isNegative hpattern ?_ hne, halternatives, anyAccepts, List.any_cons,
      List.any_nil, Bool.or_false]
    · exact Branch.accepts_ofText_iff .hidden hread htidy.ne_nil hpath.notMem_tail
    · rw [halternatives]
      exact List.forall_mem_singleton.mpr hreads.positive

theorem accepts_of_unclosed_syntax :
    ∃ pattern, compile? "c++(old/a[\x7bb\x7d.js" = some pattern ∧ pattern.isMagic = false ∧
      pattern.accepts "c++(old/a[\x7bb\x7d.js" = true := by
  have hplain : (compile? "c++(old/a[\x7bb\x7d.js").map isMagic = some false := by decide +kernel
  obtain ⟨pattern, hpattern, hmagic⟩ := Option.map_eq_some_iff.mp hplain
  have htidy : IsTidy "c++(old/a[\x7bb\x7d.js".toList := by decide +kernel
  obtain ⟨text, -, htext, haccepts⟩ :=
    accepts_iff_of_isMagic_eq_false (by decide +kernel) hpattern hmagic htidy
  obtain rfl := htext (by decide +kernel)
  have hreads : ReadsPlainly "c++(old/a[\x7bb\x7d.js".toList := by
    have hclosing : ')' ∉ "c++(old/a[\x7bb\x7d.js".toList := by decide +kernel
    have hbreak : '\n' ∉ "c++(old/a[\x7bb\x7d.js".toList := by decide +kernel
    refine ⟨by decide +kernel, fun mark _ inside hsuffix hmem => ?_, fun rest hsuffix => ?_⟩
    · have hinside := (List.dropWhile_suffix _).subset hmem
      exact hclosing (hsuffix.subset (List.mem_cons_of_mem _ (List.mem_cons_of_mem _ hinside)))
    · exact absurd (hsuffix.subset (List.mem_cons_of_mem _ List.mem_cons_self)) hbreak
  exact ⟨pattern, hpattern, hmagic, (haccepts htidy hreads).mpr rfl⟩

/-- Braces that stand for a single text make a plain pattern, which matches that text. -/
theorem accepts_single_text :
    '\\' ∉ "\x7b1..1\x7d".toList ∧ IsTidy "\x7b1..1\x7d".toList ∧ IsTidy "1".toList ∧
      ∃ pattern, compile? "\x7b1..1\x7d" = some pattern ∧ pattern.isMagic = false ∧
        ¬ (pattern.accepts "1" = true ↔ "1" = "\x7b1..1\x7d") := by
  have hpattern : (compile? "\x7b1..1\x7d").map (fun pattern =>
      (pattern.isMagic, pattern.accepts "1")) = some (false, true) := by decide +kernel
  obtain ⟨pattern, hcompile, hvalues⟩ := Option.map_eq_some_iff.mp hpattern
  obtain ⟨hmagic, haccepts⟩ := Prod.mk.inj hvalues
  refine ⟨by decide +kernel, by decide +kernel, by decide +kernel, pattern, hcompile, hmagic, ?_⟩
  rw [haccepts]
  decide +kernel

-- Three plain patterns, one for each condition on the text, which do not match just their text.
example :
    (compile? "\x7b!a,\x7d").map (fun q => (q.isMagic, q.accepts "b")) = some (false, true) ∧
    (compile? "+(a/b)").map (fun q => (q.isMagic, q.accepts "+(a/b)")) = some (false, false) ∧
    (compile? "[\na]").map (fun q => (q.isMagic, q.accepts "[\na]")) = some (false, false) := by
  decide +kernel

end Pattern
end FileChecks.Glob
