import FileChecks.Glob.Braces

/-! The reading of braces: what holds of every part that is read, and which texts are read without
loss. -/
namespace FileChecks.Glob.Brace

theorem takeClosed_append (cs : List Char) : (takeClosed cs).1 ++ (takeClosed cs).2 = cs := by
  fun_induction takeClosed cs with
  | case1 => rfl
  | case2 rest => rfl
  | case3 c rest text after h ih =>
    rw [h] at ih
    simpa using ih
  | case4 c rest _ _ text after h ih =>
    rw [h] at ih
    simpa using ih

theorem protected?_append {cs text after : List Char} (h : protected? cs = some (text, after)) :
    text ++ after = cs := by
  unfold protected? at h
  split at h
  · cases h
    rfl
  · rename_i rest
    cases h
    simpa using takeClosed_append rest
  · cases h

theorem protected?_ne_nil {cs text after : List Char} (h : protected? cs = some (text, after)) :
    text ≠ [] := by
  unfold protected? at h
  split at h <;> cases h <;> exact List.cons_ne_nil _ _

theorem operand?_suffix {cs digits after : List Char} (h : operand? cs = some (digits, after)) :
    after <:+ cs := by
  unfold operand? at h
  split at h
  rename_i sign rest hsign
  dsimp only at h
  split at h
  · cases h
  · cases h
    refine (List.dropWhile_suffix _).trans ?_
    split at hsign
    · split at hsign <;> cases hsign
      · exact List.suffix_cons _ _
      · exact List.suffix_rfl
    · cases hsign
      exact List.suffix_rfl

theorem stepAndRest?_suffix {cs after : List Char} {step : Nat}
    (h : stepAndRest? cs = some (step, after)) : after <:+ cs := by
  unfold stepAndRest? at h
  split at h
  · cases h
    exact List.suffix_cons _ _
  · split at h
    · rename_i hoperand
      obtain ⟨_, -, heq⟩ := Option.map_eq_some_iff.mp h
      cases heq
      have hsuffix := operand?_suffix hoperand
      exact ((List.suffix_cons _ _).trans hsuffix).trans ⟨['.', '.'], rfl⟩
    · cases h
  · cases h

/-- A range is one of numbers or of letters, and what follows it is an end of the text. -/
theorem range?_cases {cs after : List Char} {b : Brace} (h : range? cs = some (b, after)) :
    after <:+ cs ∧ ((∃ first last step width, b = .numbers first last step width) ∨
      ∃ first last step, b = .letters first last step) := by
  unfold range? at h
  split at h
  · rename_i hfirst
    split at h
    · rename_i hlast
      simp only [Option.bind_eq_bind, Option.bind_eq_some_iff, Option.some.injEq,
          Prod.mk.injEq, Prod.exists] at h
      obtain ⟨step, rest, hstep, _, -, _, -, rfl, rfl⟩ := h
      have hdots := operand?_suffix hfirst
      have hbehind := (stepAndRest?_suffix hstep).trans (operand?_suffix hlast)
      have htext := List.IsSuffix.trans ⟨['.', '.'], rfl⟩ hdots
      exact ⟨hbehind.trans htext, .inl ⟨_, _, _, _, rfl⟩⟩
    · cases h
  · split at h
    · split at h
      · simp only [Option.map_eq_some_iff, Prod.mk.injEq, Prod.exists] at h
        obtain ⟨step, rest, hstep, rfl, rfl⟩ := h
        refine ⟨(stepAndRest?_suffix hstep).trans ?_, .inr ⟨_, _, _, rfl⟩⟩
        exact ⟨[_, _, _, _], rfl⟩
      · cases h
    · cases h

/-- What is true of every part that is read from characters of a kind. -/
structure Readable (ok : Char → Prop) (P : Brace → Prop) : Prop where
  opening : ok '{'
  closing : ok '}'
  verbatim : ∀ {text}, (∀ c ∈ text, ok c) → P (.verbatim text)
  range : ∀ {cs b after}, range? cs = some (b, after) → P b
  choice : ∀ {alternatives}, alternatives ≠ [] → (∀ a ∈ alternatives, ∀ b ∈ a, P b) →
    P (.choice alternatives)

/-- A group of which every part that was read has a property. -/
structure Open.All (P : Brace → Prop) (g : Open) : Prop where
  alternatives : ∀ a ∈ g.alternatives, ∀ b ∈ a, P b
  parts : ∀ b ∈ g.parts, P b

namespace Open.All
variable {P : Brace → Prop} {g : Open}

theorem empty : Open.All P ⟨[], false, []⟩ := ⟨nofun, nofun⟩

theorem add {b : Brace} (hg : g.All P) (hb : P b) : (g.add b).All P :=
  ⟨hg.alternatives, List.forall_mem_cons.mpr ⟨hb, hg.parts⟩⟩

theorem addGroup {bs : List Brace} (hg : g.All P) (hbs : ∀ b ∈ bs, P b) :
    Open.All P { g with parts := bs.reverse ++ g.parts } :=
  ⟨hg.alternatives, List.forall_mem_append.mpr
    ⟨fun b hb => hbs b (List.mem_reverse.mp hb), hg.parts⟩⟩

theorem reverse_parts (hg : g.All P) : ∀ b ∈ g.parts.reverse, P b :=
  fun b hb => hg.parts b (List.mem_reverse.mp hb)

theorem next (hg : g.All P) : Open.All P ⟨g.parts.reverse :: g.alternatives, true, []⟩ :=
  ⟨List.forall_mem_cons.mpr ⟨hg.reverse_parts, hg.alternatives⟩, nofun⟩

end Open.All

namespace Readable
variable {ok : Char → Prop} {P : Brace → Prop} (hP : Readable ok P)
include hP

theorem close {g : Open} (hg : g.All P) : ∀ b ∈ g.close, P b := by
  unfold Open.close
  cases g.comma with
  | false =>
    intro b hb
    simp only [Bool.false_eq_true, if_false, List.mem_cons, List.mem_append,
      List.not_mem_nil, or_false] at hb
    rcases hb with rfl | hb | rfl
    · exact hP.verbatim (List.forall_mem_singleton.mpr hP.opening)
    · exact hg.reverse_parts b hb
    · exact hP.verbatim (List.forall_mem_singleton.mpr hP.closing)
  | true =>
    rw [if_pos rfl]
    refine List.forall_mem_singleton.mpr (hP.choice (by simp) fun a ha => ?_)
    rcases List.mem_cons.mp (List.mem_reverse.mp ha) with rfl | ha
    · exact hg.reverse_parts
    · exact hg.alternatives a ha

theorem readGroup? {fuel : Nat} {nested bare : Bool} {g : Open} {cs after : List Char}
    {bs : List Brace} (hcs : ∀ c ∈ cs, ok c) (hg : g.All P)
    (h : readGroup? fuel nested bare g cs = some (bs, after)) :
    (∀ b ∈ bs, P b) ∧ ∀ c ∈ after, ok c := by
  induction fuel generalizing nested bare g cs after bs with
  | zero => cases cs <;> cases h
  | succ fuel ih =>
    cases cs with
    | nil => cases h
    | cons c rest =>
      obtain ⟨hc, hrest⟩ := List.forall_mem_cons.mp hcs
      have hsingle := hg.add (hP.verbatim (List.forall_mem_singleton.mpr hc))
      unfold Brace.readGroup? at h
      split at h
      · rename_i hprotected
        rw [← protected?_append hprotected, List.forall_mem_append] at hcs
        exact ih hcs.2 (hg.add (hP.verbatim hcs.1)) h
      · split at h
        · split at h
          · cases h
            exact ⟨hP.close hg, hrest⟩
          · exact ih hrest hsingle h
        · split at h
          · exact ih hrest hg.next h
          · split at h
            · split at h
              · rename_i hrange
                have hbehind := fun c hc => hrest c ((range?_cases hrange).1.subset hc)
                exact ih hbehind (hg.add (hP.range hrange)) h
              · split at h
                · rename_i hgroup
                  obtain ⟨hinner, hbehind⟩ := ih hrest .empty hgroup
                  exact ih hbehind (hg.addGroup hinner) h
                · cases h
            · exact ih hrest hsingle h

theorem readFrom {fuel : Nat} {start : Bool} {cs : List Char} (hcs : ∀ c ∈ cs, ok c) :
    ∀ b ∈ readFrom fuel start cs, P b := by
  induction fuel generalizing start cs with
  | zero => cases cs <;> exact nofun
  | succ fuel ih =>
    cases cs with
    | nil => exact nofun
    | cons c rest =>
      obtain ⟨hc, hrest⟩ := List.forall_mem_cons.mp hcs
      have hsingle := hP.verbatim (List.forall_mem_singleton.mpr hc)
      unfold Brace.readFrom
      split
      · rename_i hprotected
        rw [← protected?_append hprotected, List.forall_mem_append] at hcs
        exact List.forall_mem_cons.mpr ⟨hP.verbatim hcs.1, ih hcs.2⟩
      · split
        · split
          · rename_i hrange
            have hbehind := fun c hc => hrest c ((range?_cases hrange).1.subset hc)
            exact List.forall_mem_cons.mpr ⟨hP.range hrange, ih hbehind⟩
          · split
            · rename_i hgroup
              obtain ⟨hinner, hbehind⟩ := hP.readGroup? hrest .empty hgroup
              exact List.forall_mem_append.mpr ⟨hinner, ih hbehind⟩
            · exact List.forall_mem_cons.mpr ⟨hsingle, ih hrest⟩
        · exact List.forall_mem_cons.mpr ⟨hsingle, ih hrest⟩

end Readable

def IsVerbatim : Brace → Prop
  | .verbatim _ => True
  | _ => False

instance : DecidablePred IsVerbatim
  | .verbatim _ => .isTrue trivial
  | .numbers .. | .letters .. | .choice _ => .isFalse id

def text : Brace → List Char
  | .verbatim cs => cs
  | _ => []

theorem not_isVerbatim_of_range? {cs after : List Char} {b : Brace}
    (h : range? cs = some (b, after)) : ¬ b.IsVerbatim := by
  rcases (range?_cases h).2 with ⟨_, _, _, _, rfl⟩ | ⟨_, _, _, rfl⟩ <;> exact nofun

/-- What is true of an open group whose parts all stay once it is read to its end: its text, with
the brace before it, is what was read and what follows. -/
structure Open.Stays (g : Open) (cs : List Char) (bs : List Brace) (after : List Char) : Prop where
  comma : g.comma = false
  parts : ∀ b ∈ g.parts, b.IsVerbatim
  shorter : after.length < cs.length
  text_eq : bs.flatMap text ++ after = '{' :: (g.parts.reverse.flatMap text ++ cs)

theorem Open.Stays.of_add {g : Open} {part rest after : List Char} {bs : List Brace}
    (h : (g.add (.verbatim part)).Stays rest bs after) : g.Stays (part ++ rest) bs after where
  comma := h.comma
  parts := (List.forall_mem_cons.mp h.parts).2
  shorter := by
    have hshorter := h.shorter
    rw [List.length_append]
    omega
  text_eq := h.text_eq.trans (by simp [Open.add, text])

theorem stays_readGroup? {fuel : Nat} {nested bare : Bool} {g : Open} {cs after : List Char}
    {bs : List Brace} (h : readGroup? fuel nested bare g cs = some (bs, after))
    (hbs : ∀ b ∈ bs, b.IsVerbatim) : g.Stays cs bs after := by
  induction fuel generalizing nested bare g cs after bs with
  | zero => cases cs <;> cases h
  | succ fuel ih =>
    cases cs with
    | nil => cases h
    | cons c rest =>
      unfold readGroup? at h
      split at h
      · rename_i hprotected
        rw [← protected?_append hprotected]
        exact (ih h hbs).of_add
      · split at h
        · rename_i hc
          split at h
          · cases h
            cases hcomma : g.comma with
            | true =>
              have hchoice := hbs (.choice (g.parts.reverse :: g.alternatives).reverse)
                (by simp [Open.close, hcomma])
              cases hchoice
            | false =>
              refine ⟨hcomma, fun b hb => hbs b (by simp [Open.close, hcomma, hb]), ?_, ?_⟩
              · exact Nat.lt_add_one _
              · simp [Open.close, hcomma, text, hc]
          · exact (ih h hbs).of_add
        · -- A comma or a range leaves a part that does not stay.
          split at h
          · cases (ih h hbs).comma
          · split at h
            · rename_i hc
              split at h
              · rename_i hrange
                have hparts := (ih h hbs).parts
                exact absurd (List.forall_mem_cons.mp hparts).1 (not_isVerbatim_of_range? hrange)
              · split at h
                · rename_i hgroup
                  obtain ⟨hcomma, hparts, hshorter, htext⟩ := ih h hbs
                  obtain ⟨hinner, hparts⟩ := List.forall_mem_append.mp hparts
                  have hstays := ih hgroup fun b hb => hinner b (List.mem_reverse.mpr hb)
                  refine ⟨hcomma, hparts, ?_, htext.trans ?_⟩
                  · exact Nat.lt_trans hshorter (Nat.lt_succ_of_lt hstays.shorter)
                  · simp [hstays.text_eq, hc]
                · cases h
            · exact (ih h hbs).of_add

theorem text_readFrom {fuel : Nat} {start : Bool} {cs : List Char} (hfuel : cs.length ≤ fuel)
    (h : ∀ b ∈ readFrom fuel start cs, b.IsVerbatim) :
    (readFrom fuel start cs).flatMap text = cs := by
  induction fuel generalizing start cs with
  | zero =>
    rw [List.length_eq_zero_iff.mp (Nat.le_zero.mp hfuel)]
    rfl
  | succ fuel ih =>
    cases cs with
    | nil => rfl
    | cons c rest =>
      have hrest : rest.length ≤ fuel := Nat.le_of_succ_le_succ hfuel
      unfold readFrom at h ⊢
      split at h
      · rename_i part after hprotected
        have happend := protected?_append hprotected
        have hafter : after.length ≤ fuel := by
          have hpart := List.length_pos_iff.mpr (protected?_ne_nil hprotected)
          have hlength := congrArg List.length happend
          rw [List.length_append, List.length_cons] at hlength
          omega
        rw [List.flatMap_cons, ih hafter (List.forall_mem_cons.mp h).2]
        exact happend
      · split at h
        · rename_i hc
          rw [if_pos hc]
          split at h
          · rename_i hrange
            exact absurd (List.forall_mem_cons.mp h).1 (not_isVerbatim_of_range? hrange)
          · split at h
            · rename_i hgroup
              obtain ⟨hinner, hbehind⟩ := List.forall_mem_append.mp h
              have hstays := stays_readGroup? hgroup hinner
              have hafter := Nat.le_trans (Nat.le_of_lt hstays.shorter) hrest
              rw [List.flatMap_append, ih hafter hbehind, hstays.text_eq, hc]
              rfl
            · rw [List.flatMap_cons, ih hrest (List.forall_mem_cons.mp h).2]
              rfl
        · rename_i hc
          rw [if_neg hc, List.flatMap_cons, ih hrest (List.forall_mem_cons.mp h).2]
          rfl

end FileChecks.Glob.Brace
