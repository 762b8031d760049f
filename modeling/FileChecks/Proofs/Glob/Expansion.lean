import FileChecks.Proofs.Glob.Braces

/-! The texts that a text with braces stands for, at its start and behind another character. -/
namespace FileChecks.Glob.Brace

/-- Whether a text starts with braces that stay, which they do only there. -/
def opensEmpty (cs : List Char) : Bool := ['{', '}'].isPrefixOf cs

/-- The texts that a text stands for behind other text. Choices that write nothing are kept. -/
def expandBehind? (cs : List Char) : Option (List (List Char)) :=
  let parts := readFrom cs.length false cs
  (count? parts).map fun _ => (words parts).map (·.getD [])

theorem readGroup?_bare (fuel : Nat) (nested : Bool) (g : Open) {cs : List Char}
    (h : cs.head? ≠ some '}') :
    readGroup? fuel nested true g cs = readGroup? fuel nested false g cs := by
  cases fuel with
  | zero => cases cs <;> rfl
  | succ fuel =>
    cases cs with
    | nil => rfl
    | cons c rest =>
      have hc : c ≠ '}' := fun hbrace => h (congrArg some hbrace)
      simp only [readGroup?, if_neg hc]

theorem readFrom_start (fuel : Nat) {cs : List Char} (h : opensEmpty cs = false) :
    readFrom fuel true cs = readFrom fuel false cs := by
  cases fuel with
  | zero => cases cs <;> rfl
  | succ fuel =>
    cases cs with
    | nil => rfl
    | cons c rest =>
      by_cases hc : c = '{'
      · have hrest : rest.head? ≠ some '}' := by
          intro hbrace
          obtain ⟨rest', rfl⟩ := List.head?_eq_some_iff.mp hbrace
          simp [opensEmpty, hc] at h
        simp only [readFrom, readGroup?_bare _ _ _ hrest]
      · simp only [readFrom, if_neg hc]

theorem count?_le {bs : List Brace} {n : Nat} (h : count? bs = some n) : n ≤ limit := by
  have hwithin : ∀ {k m : Nat}, withinLimit k = some m → m ≤ limit := by
    intro k m hk
    unfold withinLimit at hk
    split at hk
    · cases hk
      assumption
    · cases hk
  cases bs with
  | nil =>
    cases h
    decide
  | cons b rest =>
    simp only [count?, Option.bind_eq_bind, Option.bind_eq_some_iff] at h
    obtain ⟨_, -, _, -, h⟩ := h
    exact hwithin h

theorem count?_verbatim_cons (cs : List Char) (bs : List Brace) :
    count? (.verbatim cs :: bs) = count? bs := by
  cases h : count? bs with
  | none => simp [count?, h]
  | some n => simp [count?, countOf?, h, withinLimit, count?_le h]

theorem words_verbatim_cons (cs : List Char) (bs : List Brace) :
    words (.verbatim cs :: bs) = (words bs).map fun w => some (cs ++ w.getD []) := by
  have happend : ∀ w, Word.append (some cs) w = some (cs ++ w.getD []) := by
    intro w
    cases w <;> simp [Word.append]
  simp only [words, wordsOf, joins, List.flatMap_singleton]
  exact List.map_congr_left fun w _ => happend w

/-- A mark before a text stands before everything that the text stands for. -/
theorem expand?_cons_bang (cs : List Char) :
    expand? ('!' :: cs) = (expandBehind? cs).map (List.map ('!' :: ·)) := by
  have hread : read ('!' :: cs) = .verbatim ['!'] :: readFrom cs.length false cs := by
    simp [read, readFrom, protected?]
  simp only [expand?, expandBehind?, hread, count?_verbatim_cons, words_verbatim_cons,
    Option.map_map]
  congr 1
  funext
  simp [List.filterMap_map, Function.comp_def]

theorem words_ne_nil {bs : List Brace} (h : ∀ b ∈ bs, wordsOf b ≠ []) : words bs ≠ [] := by
  induction bs with
  | nil => simp [words]
  | cons b rest ih =>
    obtain ⟨hb, hrest⟩ := List.forall_mem_cons.mp h
    obtain ⟨x, hx⟩ := List.exists_mem_of_ne_nil _ hb
    obtain ⟨y, hy⟩ := List.exists_mem_of_ne_nil _ (ih hrest)
    have hjoin : x.append y ∈ words (b :: rest) :=
      List.mem_flatMap.mpr ⟨x, hx, List.mem_map.mpr ⟨y, hy, rfl⟩⟩
    exact List.ne_nil_of_mem hjoin

theorem mem_wordsOfAny {w : Word} {alternatives : List (List Brace)} :
    w ∈ wordsOfAny alternatives ↔ ∃ a ∈ alternatives, w ∈ words a := by
  induction alternatives with
  | nil => simp [wordsOfAny]
  | cons a rest ih => simp [wordsOfAny, ih]

/-- Every part that is read writes at least one word. -/
theorem readable_wordsOf_ne_nil : Readable (fun _ => True) (wordsOf · ≠ []) where
  opening := trivial
  closing := trivial
  verbatim := by simp [wordsOf]
  range := by
    intro cs b after h
    rcases (range?_cases h).2 with ⟨first, last, step, width, rfl⟩ | ⟨first, last, step, rfl⟩ <;>
      simp [wordsOf, strides]
  choice := by
    intro alternatives hne hall
    obtain ⟨a, ha⟩ := List.exists_mem_of_ne_nil _ hne
    obtain ⟨w, hw⟩ := List.exists_mem_of_ne_nil _ (words_ne_nil (hall a ha))
    exact List.ne_nil_of_mem (mem_wordsOfAny.mpr ⟨a, ha, hw⟩)

def Unescaped (w : Word) : Prop := '\\' ∉ w.getD []

theorem Word.getD_append (v w : Word) : (v.append w).getD [] = v.getD [] ++ w.getD [] := by
  cases v <;> cases w <;> simp [Word.append]

theorem unescaped_words {bs : List Brace} (h : ∀ b ∈ bs, ∀ w ∈ wordsOf b, Unescaped w) :
    ∀ w ∈ words bs, Unescaped w := by
  induction bs with
  | nil =>
    intro w hw
    rw [List.mem_singleton.mp hw]
    exact nofun
  | cons b rest ih =>
    obtain ⟨hb, hrest⟩ := List.forall_mem_cons.mp h
    intro w hw
    obtain ⟨x, hx, hw⟩ := List.mem_flatMap.mp hw
    obtain ⟨y, hy, rfl⟩ := List.mem_map.mp hw
    rw [Unescaped, Word.getD_append]
    exact List.not_mem_append (hb x hx) (ih hrest y hy)

theorem unescaped_padded (width : Nat) (i : Int) : Unescaped (some (padded width i)) := by
  have hdigits : '\\' ∉ (toString i.natAbs).toList := by
    intro h
    have hmem : '\\' ∈ Nat.toDigits 10 i.natAbs := by simpa using h
    have hdigit := Nat.isDigit_of_mem_toDigits (by decide) (by decide) hmem
    cases hdigit
  have hsign : '\\' ∉ if i < 0 then ['-'] else [] := by
    split <;> simp
  simp only [Unescaped, padded, Option.getD_some, List.mem_append, List.mem_replicate]
  rintro ((h | h) | h)
  · exact hsign h
  · exact absurd h.2 (by decide)
  · exact hdigits h

theorem unescaped_letter (code : Nat) : Unescaped (some (letter code)) := by
  simp only [Unescaped, letter, Option.getD_some]
  split
  · simp
  · simpa using Ne.symm ‹_›

theorem readable_unescaped : Readable (· ≠ '\\') fun b => ∀ w ∈ wordsOf b, Unescaped w where
  opening := by decide
  closing := by decide
  verbatim := by
    intro text htext w hw
    rw [List.mem_singleton.mp hw]
    exact fun hmem => htext _ hmem rfl
  range := by
    intro cs b after h w hw
    rcases (range?_cases h).2 with ⟨first, last, step, width, rfl⟩ | ⟨first, last, step, rfl⟩
    · obtain ⟨d, -, rfl⟩ := List.mem_map.mp hw
      exact unescaped_padded width _
    · obtain ⟨d, -, rfl⟩ := List.mem_map.mp hw
      exact unescaped_letter _
  choice := by
    intro alternatives _ hall w hw
    obtain ⟨a, ha, hw⟩ := mem_wordsOfAny.mp hw
    exact unescaped_words (hall a ha) w hw

/-- Texts that a text without escapes stands for have no escapes. -/
theorem notMem_of_expand? {cs : List Char} {texts : List (List Char)} (hcs : '\\' ∉ cs)
    (h : expand? cs = some texts) : ∀ t ∈ texts, '\\' ∉ t := by
  obtain ⟨_, -, rfl⟩ := Option.map_eq_some_iff.mp h
  intro t ht
  obtain ⟨w, hw, rfl⟩ := List.mem_filterMap.mp ht
  have hok : ∀ c ∈ cs, c ≠ '\\' := fun c hc heq => hcs (heq ▸ hc)
  exact unescaped_words (readable_unescaped.readFrom hok) _ hw

theorem words_of_isVerbatim {bs : List Brace} (h : ∀ b ∈ bs, b.IsVerbatim) (hne : bs ≠ []) :
    words bs = [some (bs.flatMap text)] := by
  induction bs with
  | nil => exact absurd rfl hne
  | cons b rest ih =>
    obtain ⟨hb, hrest⟩ := List.forall_mem_cons.mp h
    cases b with
    | verbatim cs =>
      by_cases hrestnil : rest = []
      · subst hrestnil
        simp [words, wordsOf, joins, text, Word.append]
      · rw [words_verbatim_cons, ih hrest hrestnil]
        simp [text]
    | _ => cases hb

/-- Braces of which none opens a choice or a range stay as they are written. -/
theorem expand?_of_isVerbatim {cs : List Char} {texts : List (List Char)}
    (h : expand? cs = some texts) (hread : ∀ b ∈ read cs, b.IsVerbatim) (hcs : cs ≠ []) :
    texts = [cs] := by
  obtain ⟨_, -, rfl⟩ := Option.map_eq_some_iff.mp h
  have htext := text_readFrom (Nat.le_refl cs.length) hread
  have hne : read cs ≠ [] := by
    intro hnil
    exact hcs (by rw [← htext]; exact congrArg _ hnil)
  rw [words_of_isVerbatim hread hne]
  exact congrArg (fun t => [t]) htext

/-- Every text stands for some text behind a character. -/
theorem expandBehind?_ne_nil {cs : List Char} {texts : List (List Char)}
    (h : expandBehind? cs = some texts) : texts ≠ [] := by
  obtain ⟨_, -, rfl⟩ := Option.map_eq_some_iff.mp h
  simpa using words_ne_nil (readable_wordsOf_ne_nil.readFrom fun _ _ => trivial)

/-- A text stands for the same texts behind a character, unless braces at its start stay only
there. An empty text counts for nothing here. -/
theorem exists_expandBehind? {cs : List Char} {texts : List (List Char)}
    (hopen : opensEmpty cs = false) (h : expand? cs = some texts) :
    ∃ inner, expandBehind? cs = some inner ∧ ∀ t, t ≠ [] → (t ∈ inner ↔ t ∈ texts) := by
  have hread : read cs = readFrom cs.length false cs := readFrom_start cs.length hopen
  obtain ⟨n, hn, rfl⟩ := Option.map_eq_some_iff.mp h
  rw [hread] at hn ⊢
  refine ⟨_, Option.map_eq_some_iff.mpr ⟨n, hn, rfl⟩, fun t ht => ?_⟩
  simp only [List.mem_map, List.mem_filterMap, id]
  constructor
  · rintro ⟨w, hw, rfl⟩
    cases w with
    | none => exact absurd rfl ht
    | some t => exact ⟨_, hw, rfl⟩
  · rintro ⟨w, hw, rfl⟩
    exact ⟨_, hw, rfl⟩

end FileChecks.Glob.Brace
