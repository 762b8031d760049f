import FileChecks.Glob.Magic
import Mathlib.Data.List.Basic

/-!
Segments read from left to right, a backslash and the character after it being one unit. What the
type of a segment depends on, and how this differs from the documented syntax: escaped members at
the start of a class hide it, and escaped characters between a mark and a parenthesis make a group.
-/
namespace FileChecks.Glob

inductive CharUnit
  | plain (c : Char)
  | escaped (c : Char)
  deriving DecidableEq

namespace CharUnit

/-- The units of a segment. A backslash at the end stands for itself. -/
def units : List Char → List CharUnit
  | [] => []
  | [c] => [plain c]
  | c :: d :: rest => if c = '\\' then escaped d :: units rest else plain c :: units (d :: rest)

def chars : CharUnit → List Char
  | plain c => [c]
  | escaped c => ['\\', c]

def isDropped : CharUnit → Bool
  | plain _ => false
  | escaped c => c != '\n'

def kept (u : CharUnit) : List Char := if u.isDropped then [] else u.chars

variable {c : Char} {u : CharUnit} {us back : List CharUnit}

/-- The units of a segment make up the segment. -/
theorem flatMap_chars_units (segment : List Char) : (units segment).flatMap chars = segment := by
  induction segment using units.induct with
  | case1 => rfl
  | case2 c => rfl
  | case3 d rest ih =>
    rw [units, if_pos rfl, List.flatMap_cons, ih]
    rfl
  | case4 c d rest hc ih =>
    rw [units, if_neg hc, List.flatMap_cons, ih]
    rfl

theorem mem_kept_iff (hc : c ≠ '\\') (hc' : c ≠ '\n') : c ∈ u.kept ↔ u = plain c := by
  cases u with
  | plain d => simp [kept, isDropped, chars, eq_comm]
  | escaped d =>
    by_cases hd : d = '\n'
    · simp [kept, isDropped, chars, hd, hc, hc']
    · simp [kept, isDropped, hd]

theorem mem_flatMap_kept_iff (hc : c ≠ '\\') (hc' : c ≠ '\n') :
    c ∈ us.flatMap kept ↔ plain c ∈ us := by
  rw [List.mem_flatMap]
  constructor
  · rintro ⟨u, hu, hmem⟩
    rwa [← (mem_kept_iff hc hc').mp hmem]
  · exact fun h => ⟨plain c, h, List.mem_singleton_self c⟩

theorem flatMap_kept_dropWhile (us : List CharUnit) :
    (us.dropWhile isDropped).flatMap kept = us.flatMap kept := by
  induction us with
  | nil => rfl
  | cons u us ih =>
    cases hu : u.isDropped with
    | true =>
      have hkept : u.kept = [] := if_pos hu
      rw [List.dropWhile_cons_of_pos hu, List.flatMap_cons, hkept, ih]
      rfl
    | false => rw [List.dropWhile_cons_of_neg (Bool.eq_false_iff.mp hu)]

theorem isDropped_of_dropWhile_eq (h : us.dropWhile isDropped = u :: back) :
    u.isDropped = false := by
  have hhead := List.head?_dropWhile_not isDropped us
  rw [h] at hhead
  exact hhead

end CharUnit

namespace SegmentType
open CharUnit (units kept plain escaped isDropped)
variable {u : CharUnit} {us rest : List CharUnit}

theorem dropEscapes_cons_of_ne {c : Char} (hc : c ≠ '\\') (rest : List Char) :
    dropEscapes (c :: rest) = c :: dropEscapes rest := by
  cases rest with
  | nil => rfl
  | cons d rest => rw [dropEscapes, if_neg fun h => hc h.1]

/-- Dropping escapes drops units. -/
theorem dropEscapes_eq (segment : List Char) :
    dropEscapes segment = (units segment).flatMap kept := by
  induction segment using CharUnit.units.induct with
  | case1 => rfl
  | case2 c => rfl
  | case3 d rest ih =>
    rw [units, if_pos rfl, List.flatMap_cons, ← ih]
    by_cases hd : d = '\n'
    · rw [dropEscapes, if_neg fun h => h.2 hd, hd, dropEscapes_cons_of_ne (by decide)]
      rfl
    · have hkept : kept (escaped d) = [] := if_pos (bne_iff_ne.mpr hd)
      rw [dropEscapes, if_pos ⟨rfl, hd⟩, hkept, List.nil_append]
  | case4 c d rest hc ih =>
    rw [units, if_neg hc, List.flatMap_cons, ← ih, dropEscapes_cons_of_ne hc]
    rfl

def IsGroupMark (c : Char) : Prop := c = '+' ∨ c = '@' ∨ c = '!'

/-- Whether some unit of a segment is a wildcard, or opens a class or a group, by what comes after a
bracket or after a mark. -/
def HasSyntax (isClass isGroup : List CharUnit → Prop) (us : List CharUnit) : Prop :=
  ∃ front c rest, us = front ++ plain c :: rest ∧
    (c = '*' ∨ c = '?' ∨ c = '[' ∧ isClass rest ∨ IsGroupMark c ∧ isGroup rest)

/-! The documented syntax. -/

/-- What comes after the opening bracket of a class: perhaps a mark of negation, a member, which may
be a closing bracket, other members, and a closing bracket. -/
def ClosesClass (rest : List CharUnit) : Prop :=
  ∃ mark first members back, rest = mark ++ first :: members ++ plain ']' :: back ∧
    (mark = [] ∨ mark = [plain '!'] ∨ mark = [plain '^']) ∧ plain ']' ∉ members

/-- What comes after the mark of a group: an opening parenthesis, and later a closing one. -/
def ClosesGroup (rest : List CharUnit) : Prop :=
  ∃ inside back, rest = plain '(' :: inside ++ plain ')' :: back

/-! What is looked for: the same without the units that are dropped. -/

/-- A closing bracket comes after the first unit that is not dropped, which is no line break. -/
def ShowsClass (rest : List CharUnit) : Prop :=
  ∃ first back, rest.dropWhile isDropped = first :: back ∧ first ≠ plain '\n' ∧ plain ']' ∈ back

/-- The first unit that is not dropped is an opening parenthesis, and a closing one comes later. -/
def ShowsGroup (rest : List CharUnit) : Prop :=
  ∃ back, rest.dropWhile isDropped = plain '(' :: back ∧ plain ')' ∈ back

/-- A unit that is left is a character or a backslash with a line break. -/
theorem flatMap_kept_cons (h : u.isDropped = false) (us : List CharUnit) :
    (∃ c, u = plain c ∧ (u :: us).flatMap kept = c :: us.flatMap kept) ∨
      u = escaped '\n' ∧ (u :: us).flatMap kept = '\\' :: '\n' :: us.flatMap kept := by
  have hkept : u.kept = u.chars := if_neg (Bool.eq_false_iff.mp h)
  rw [List.flatMap_cons, hkept]
  cases u with
  | plain c => exact Or.inl ⟨c, rfl, rfl⟩
  | escaped c =>
    obtain rfl : c = '\n' := by simpa [isDropped] using h
    exact Or.inr ⟨rfl, rfl⟩

theorem closesClass_iff (rest : List CharUnit) :
    closesClass (rest.flatMap kept) = true ↔ ShowsClass rest := by
  rw [← CharUnit.flatMap_kept_dropWhile]
  unfold ShowsClass
  cases hdrop : rest.dropWhile isDropped with
  | nil => exact ⟨nofun, nofun⟩
  | cons first back =>
    have hclosing : ']' ∈ back.flatMap kept ↔ plain ']' ∈ back :=
      CharUnit.mem_flatMap_kept_iff (by decide) (by decide)
    rcases flatMap_kept_cons (CharUnit.isDropped_of_dropWhile_eq hdrop) back with
      ⟨c, rfl, hcs⟩ | ⟨rfl, hcs⟩
    · rw [hcs]
      simp [closesClass, hclosing]
    · rw [hcs]
      simp [closesClass, hclosing]

theorem closesGroup_iff (rest : List CharUnit) :
    closesGroup (rest.flatMap kept) = true ↔ ShowsGroup rest := by
  rw [← CharUnit.flatMap_kept_dropWhile]
  unfold ShowsGroup
  cases hdrop : rest.dropWhile isDropped with
  | nil => exact ⟨nofun, nofun⟩
  | cons first back =>
    have hclosing : ')' ∈ back.flatMap kept ↔ plain ')' ∈ back :=
      CharUnit.mem_flatMap_kept_iff (by decide) (by decide)
    rcases flatMap_kept_cons (CharUnit.isDropped_of_dropWhile_eq hdrop) back with
      ⟨c, rfl, hcs⟩ | ⟨rfl, hcs⟩
    · rw [hcs]
      by_cases hc : c = '('
      · simp [closesGroup, hc, hclosing]
      · simp [closesGroup, hc]
    · rw [hcs]
      simp [closesGroup]

theorem hasSyntax_cons_iff (c : Char) (cs : List Char) :
    hasSyntax (c :: cs) = true ↔
      (c = '*' ∨ c = '?' ∨ c = '[' ∧ closesClass cs = true ∨
        IsGroupMark c ∧ closesGroup cs = true) ∨ hasSyntax cs = true := by
  rw [hasSyntax, IsGroupMark]
  simp only [Bool.or_eq_true, Bool.and_eq_true, beq_iff_eq]
  tauto

theorem hasSyntax_cons_units_iff {isClass isGroup : List CharUnit → Prop} :
    HasSyntax isClass isGroup (u :: us) ↔
      (∃ c, u = plain c ∧
        (c = '*' ∨ c = '?' ∨ c = '[' ∧ isClass us ∨ IsGroupMark c ∧ isGroup us)) ∨
      HasSyntax isClass isGroup us := by
  constructor
  · rintro ⟨front, c, rest, h, hc⟩
    cases front with
    | nil =>
      obtain ⟨rfl, rfl⟩ := List.cons.inj h
      exact Or.inl ⟨c, rfl, hc⟩
    | cons v front => exact Or.inr ⟨front, c, rest, (List.cons.inj h).2, hc⟩
  · rintro (⟨c, rfl, hc⟩ | ⟨front, c, rest, rfl, hc⟩)
    · exact ⟨[], c, us, rfl, hc⟩
    · exact ⟨u :: front, c, rest, rfl, hc⟩

/-- Syntax is found without the escapes where the units show it. -/
theorem hasSyntax_iff (us : List CharUnit) :
    hasSyntax (us.flatMap kept) = true ↔ HasSyntax ShowsClass ShowsGroup us := by
  induction us with
  | nil =>
    refine ⟨nofun, fun ⟨front, c, rest, h, _⟩ => ?_⟩
    cases front <;> cases h
  | cons u us ih =>
    rw [hasSyntax_cons_units_iff, ← ih]
    cases hu : u.isDropped with
    | true =>
      have hkept : u.kept = [] := if_pos hu
      rw [List.flatMap_cons, hkept, List.nil_append]
      refine ⟨Or.inr, fun h => h.resolve_left ?_⟩
      rintro ⟨c, rfl, -⟩
      cases hu
    | false =>
      rcases flatMap_kept_cons hu us with ⟨c, rfl, hcs⟩ | ⟨rfl, hcs⟩
      · rw [hcs, hasSyntax_cons_iff, closesClass_iff, closesGroup_iff]
        refine or_congr_left ⟨fun h => ⟨c, rfl, h⟩, ?_⟩
        rintro ⟨d, hd, h⟩
        rwa [CharUnit.plain.inj hd]
      · rw [hcs, hasSyntax_cons_iff, hasSyntax_cons_iff]
        simp [IsGroupMark]

/-! The documented syntax and the syntax that is found. -/

/-- A class needs a member and a closing bracket after it. -/
theorem closesClass_iff_mem : ClosesClass rest ↔ ∃ u tail, rest = u :: tail ∧ plain ']' ∈ tail := by
  constructor
  · rintro ⟨mark, first, members, back, rfl, rfl | rfl | rfl, -⟩
    · exact ⟨first, _, rfl, by simp⟩
    · exact ⟨plain '!', _, rfl, by simp⟩
    · exact ⟨plain '^', _, rfl, by simp⟩
  · rintro ⟨u, tail, rfl, hmem⟩
    obtain ⟨members, back, rfl, hmembers⟩ := List.eq_append_cons_of_mem hmem
    exact ⟨[], u, members, back, rfl, Or.inl rfl, hmembers⟩

theorem closesGroup_iff_mem :
    ClosesGroup rest ↔ ∃ tail, rest = plain '(' :: tail ∧ plain ')' ∈ tail := by
  constructor
  · rintro ⟨inside, back, rfl⟩
    exact ⟨_, rfl, by simp⟩
  · rintro ⟨tail, rfl, hmem⟩
    obtain ⟨inside, back, rfl⟩ := List.append_of_mem hmem
    exact ⟨inside, back, rfl⟩

theorem closesClass_of_showsClass (h : ShowsClass rest) : ClosesClass rest := by
  obtain ⟨first, back, hdrop, -, hmem⟩ := h
  cases rest with
  | nil => cases hdrop
  | cons u tail =>
    refine closesClass_iff_mem.mpr ⟨u, tail, rfl, ?_⟩
    cases hu : u.isDropped with
    | true =>
      rw [List.dropWhile_cons_of_pos hu] at hdrop
      refine (List.dropWhile_suffix isDropped).subset ?_
      rw [hdrop]
      exact List.mem_cons_of_mem first hmem
    | false =>
      rw [List.dropWhile_cons_of_neg (Bool.eq_false_iff.mp hu)] at hdrop
      rwa [(List.cons.inj hdrop).2]

theorem showsClass_of_closesClass (h : ClosesClass rest) :
    ShowsClass rest ∨ ∃ u tail, rest = u :: tail ∧ (u.isDropped ∨ u = plain '\n') := by
  obtain ⟨u, tail, rfl, hmem⟩ := closesClass_iff_mem.mp h
  by_cases hhidden : u.isDropped ∨ u = plain '\n'
  · exact Or.inr ⟨u, tail, rfl, hhidden⟩
  · obtain ⟨hkept, hbreak⟩ := not_or.mp hhidden
    exact Or.inl ⟨u, tail, List.dropWhile_cons_of_neg hkept, hbreak, hmem⟩

theorem showsGroup_of_closesGroup (h : ClosesGroup rest) : ShowsGroup rest := by
  obtain ⟨tail, rfl, hmem⟩ := closesGroup_iff_mem.mp h
  exact ⟨tail, List.dropWhile_cons_of_neg nofun, hmem⟩

theorem closesGroup_of_showsGroup (h : ShowsGroup rest) :
    ClosesGroup rest ∨ ∃ u tail, rest = u :: tail ∧ u.isDropped := by
  obtain ⟨back, hdrop, hmem⟩ := h
  cases rest with
  | nil => cases hdrop
  | cons u tail =>
    cases hu : u.isDropped with
    | true => exact Or.inr ⟨u, tail, rfl, hu⟩
    | false =>
      rw [List.dropWhile_cons_of_neg (Bool.eq_false_iff.mp hu)] at hdrop
      exact Or.inl (closesGroup_iff_mem.mpr ⟨back, hdrop, hmem⟩)

/-- Documented syntax is found, or the bracket of a class hides it. -/
theorem hasSyntax_of_documented (h : HasSyntax ClosesClass ClosesGroup us) :
    HasSyntax ShowsClass ShowsGroup us ∨
      ∃ front u back, us = front ++ plain '[' :: u :: back ∧ (u.isDropped ∨ u = plain '\n') := by
  obtain ⟨front, c, rest, rfl, hc | hc | ⟨hc, hclass⟩ | ⟨hc, hgroup⟩⟩ := h
  · exact Or.inl ⟨front, c, rest, rfl, Or.inl hc⟩
  · exact Or.inl ⟨front, c, rest, rfl, Or.inr (Or.inl hc)⟩
  · rcases showsClass_of_closesClass hclass with hshows | ⟨u, tail, rfl, hhidden⟩
    · exact Or.inl ⟨front, c, rest, rfl, Or.inr (Or.inr (Or.inl ⟨hc, hshows⟩))⟩
    · exact Or.inr ⟨front, u, tail, by rw [hc], hhidden⟩
  · have hshows := showsGroup_of_closesGroup hgroup
    exact Or.inl ⟨front, c, rest, rfl, Or.inr (Or.inr (Or.inr ⟨hc, hshows⟩))⟩

/-- What is found is documented syntax, or a mark and a parenthesis with escapes between them. -/
theorem documented_of_hasSyntax (h : HasSyntax ShowsClass ShowsGroup us) :
    HasSyntax ClosesClass ClosesGroup us ∨
      ∃ front c u back, us = front ++ plain c :: u :: back ∧ IsGroupMark c ∧ u.isDropped := by
  obtain ⟨front, c, rest, rfl, hc | hc | ⟨hc, hclass⟩ | ⟨hc, hgroup⟩⟩ := h
  · exact Or.inl ⟨front, c, rest, rfl, Or.inl hc⟩
  · exact Or.inl ⟨front, c, rest, rfl, Or.inr (Or.inl hc)⟩
  · have hcloses := closesClass_of_showsClass hclass
    exact Or.inl ⟨front, c, rest, rfl, Or.inr (Or.inr (Or.inl ⟨hc, hcloses⟩))⟩
  · rcases closesGroup_of_showsGroup hgroup with hcloses | ⟨u, tail, rfl, hdropped⟩
    · exact Or.inl ⟨front, c, rest, rfl, Or.inr (Or.inr (Or.inr ⟨hc, hcloses⟩))⟩
    · exact Or.inr ⟨front, c, u, tail, rfl, hc, hdropped⟩

theorem ofSegment_eq_magic_iff_hasSyntax (segment : List Char) :
    ofSegment segment = magic ↔ HasSyntax ShowsClass ShowsGroup (units segment) := by
  rw [← hasSyntax_iff, ← dropEscapes_eq, ofSegment]
  cases hasSyntax (dropEscapes segment) with
  | true => exact ⟨fun _ => rfl, fun _ => rfl⟩
  | false => exact ⟨nofun, nofun⟩

/-- A segment is magic if it shows syntax once the escaped units are dropped. Documented syntax that
is missed is a class with an escaped unit or a line break right after its bracket, and a magic
segment without documented syntax has an escaped unit right after the mark of a group. -/
theorem magic_iff_shows_and_documented (segment : List Char) :
    (ofSegment segment = magic ↔ HasSyntax ShowsClass ShowsGroup (units segment)) ∧
    (HasSyntax ClosesClass ClosesGroup (units segment) → ofSegment segment = magic ∨
      ∃ front u back, units segment = front ++ plain '[' :: u :: back ∧
        (u.isDropped ∨ u = plain '\n')) ∧
    (ofSegment segment = magic → HasSyntax ClosesClass ClosesGroup (units segment) ∨
      ∃ front c u back, units segment = front ++ plain c :: u :: back ∧
        IsGroupMark c ∧ u.isDropped) := by
  have hmagic := ofSegment_eq_magic_iff_hasSyntax segment
  refine ⟨hmagic, fun h => ?_, fun h => ?_⟩
  · rw [hmagic]
    exact hasSyntax_of_documented h
  · exact documented_of_hasSyntax (hmagic.mp h)

/-- A class with an escaped member is missed. -/
example : HasSyntax ClosesClass ClosesGroup (units ['[', '\\', 'a', ']']) ∧
    ofSegment ['[', '\\', 'a', ']'] = literal :=
  ⟨⟨[], '[', _, rfl, Or.inr (Or.inr (Or.inl ⟨rfl, [], .escaped 'a', [], [], rfl, Or.inl rfl, nofun⟩))⟩,
    by decide⟩

end SegmentType
end FileChecks.Glob
