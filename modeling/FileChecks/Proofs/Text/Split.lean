import FileChecks.Text.Split

/-! Cutting a text at a separator. -/
namespace FileChecks.Text

theorem split_ne_nil (separator : Char) (cs : List Char) : split separator cs ≠ [] := by
  cases cs with
  | nil => simp [split]
  | cons c rest =>
    unfold split
    split
    · simp
    · split <;> simp

variable {separator : Char}

theorem split_separator_cons (cs : List Char) :
    split separator (separator :: cs) = [] :: split separator cs := by
  rw [split, if_pos rfl]

theorem split_cons_of_ne {c : Char} (hc : c ≠ separator) {rest part : List Char}
    {parts : List (List Char)} (h : split separator rest = part :: parts) :
    split separator (c :: rest) = (c :: part) :: parts := by
  rw [split, if_neg hc, h]

theorem split_append_separator (a b : List Char) :
    split separator (a ++ separator :: b) = split separator a ++ split separator b := by
  induction a with
  | nil => exact split_separator_cons b
  | cons c a ih =>
    by_cases hc : c = separator
    · subst hc
      rw [List.cons_append, split_separator_cons, split_separator_cons, ih, List.cons_append]
    · obtain ⟨part, parts, ha⟩ := List.exists_cons_of_ne_nil (split_ne_nil separator a)
      rw [ha, List.cons_append] at ih
      rw [List.cons_append, split_cons_of_ne hc ih, split_cons_of_ne hc ha, List.cons_append]

theorem split_of_notMem {cs : List Char} (h : separator ∉ cs) : split separator cs = [cs] := by
  induction cs with
  | nil => rfl
  | cons c rest ih =>
    have hc : c ≠ separator := fun heq => h (heq ▸ List.mem_cons_self)
    have hrest : separator ∉ rest := fun hmem => h (List.mem_cons_of_mem c hmem)
    exact split_cons_of_ne hc (ih hrest)

theorem split_eq_splitOn (separator : Char) (cs : List Char) :
    split separator cs = cs.splitOn separator := by
  induction cs with
  | nil => rfl
  | cons c rest ih =>
    rw [List.splitOn, List.splitOnP_cons_eq_if_modifyHead, ← List.splitOn, ← ih]
    by_cases hc : c = separator
    · rw [hc, split_separator_cons, if_pos (beq_self_eq_true separator)]
    · obtain ⟨part, parts, hrest⟩ := List.exists_cons_of_ne_nil (split_ne_nil separator rest)
      rw [split_cons_of_ne hc hrest, hrest, if_neg (by simpa using hc), List.modifyHead_cons]

theorem split_injective (separator : Char) : Function.Injective (split separator) := by
  intro a b h
  rw [split_eq_splitOn, split_eq_splitOn] at h
  calc
    a = [separator].intercalate (a.splitOn separator) := (List.intercalate_splitOn _).symm
    _ = [separator].intercalate (b.splitOn separator) := by rw [h]
    _ = b := List.intercalate_splitOn _

theorem mem_of_mem_split {cs part : List Char} {c : Char} (hpart : part ∈ split separator cs)
    (hc : c ∈ part) : c ∈ cs := by
  induction cs generalizing part with
  | nil =>
    rw [List.mem_singleton.mp hpart] at hc
    cases hc
  | cons d cs ih =>
    by_cases hd : d = separator
    · subst hd
      rw [split_separator_cons] at hpart
      rcases List.mem_cons.mp hpart with rfl | hpart
      · cases hc
      · exact List.mem_cons_of_mem d (ih hpart hc)
    · obtain ⟨first, parts, hsplit⟩ := List.exists_cons_of_ne_nil (split_ne_nil separator cs)
      rw [split_cons_of_ne hd hsplit] at hpart
      rw [hsplit] at ih
      rcases List.mem_cons.mp hpart with rfl | hpart
      · rcases List.mem_cons.mp hc with rfl | hc
        · exact List.mem_cons_self
        · exact List.mem_cons_of_mem d (ih List.mem_cons_self hc)
      · exact List.mem_cons_of_mem d (ih (List.mem_cons_of_mem first hpart) hc)

/-- The first part is the text before the first separator. -/
theorem exists_split_eq_takeWhile_cons (separator : Char) (cs : List Char) :
    ∃ parts, split separator cs = cs.takeWhile (· != separator) :: parts := by
  induction cs with
  | nil => exact ⟨[], rfl⟩
  | cons c rest ih =>
    by_cases hc : c = separator
    · subst hc
      exact ⟨split c rest, by simp [split_separator_cons]⟩
    · obtain ⟨parts, hrest⟩ := ih
      exact ⟨parts, by rw [split_cons_of_ne hc hrest]; simp [hc]⟩

/-- What follows a character up to the next separator belongs to some part. -/
theorem exists_mem_split_of_suffix {c : Char} (hc : c ≠ separator) {rest cs : List Char}
    (h : c :: rest <:+ cs) :
    ∃ part ∈ split separator cs, c :: rest.takeWhile (· != separator) <:+ part := by
  induction cs with
  | nil => simp at h
  | cons d cs ih =>
    rcases List.suffix_cons_iff.mp h with heq | hsuffix
    · obtain ⟨parts, hsplit⟩ := exists_split_eq_takeWhile_cons separator (d :: cs)
      have htake : (c :: rest).takeWhile (· != separator) = c :: rest.takeWhile (· != separator) :=
        List.takeWhile_cons_of_pos (by simpa using hc)
      refine ⟨_, hsplit ▸ List.mem_cons_self, ?_⟩
      rw [← heq]
      exact ⟨[], htake.symm⟩
    · obtain ⟨part, hmem, hpart⟩ := ih hsuffix
      by_cases hd : d = separator
      · subst hd
        rw [split_separator_cons]
        exact ⟨part, List.mem_cons_of_mem _ hmem, hpart⟩
      · obtain ⟨first, parts, hsplit⟩ := List.exists_cons_of_ne_nil (split_ne_nil separator cs)
        rw [split_cons_of_ne hd hsplit]
        rw [hsplit] at hmem
        rcases List.mem_cons.mp hmem with rfl | hmem
        · exact ⟨d :: part, List.mem_cons_self, hpart.trans (List.suffix_cons d part)⟩
        · exact ⟨part, List.mem_cons_of_mem _ hmem, hpart⟩

end FileChecks.Text
