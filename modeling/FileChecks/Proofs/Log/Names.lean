import FileChecks.Log.Registry
import Mathlib.Data.List.Infix

/-!
Names above a dotted name. They are starts of it, the longest first, and without two dots in a row
the names above each of them are those that come after it.
-/
namespace FileChecks

namespace Channel

theorem isAbove_iff {upper lower : String} :
    isAbove upper lower = true ↔ upper.toList ∈ above lower.toList :=
  List.contains_iff_mem

theorem go_cons_of_ne {c : Char} (hc : c ≠ '.') (rest : List Char) :
    above.go (c :: rest) = above.go rest := by
  cases rest <;> simp [above.go, hc]

theorem go_dot_cons (d : Char) (more : List Char) :
    above.go ('.' :: d :: more) = (d :: more).reverse :: above.go more := by
  simp [above.go]

/-- What is above a text, both read backwards, is what follows one of its dots. -/
theorem exists_append_of_mem_go {text p : List Char} (h : p ∈ above.go text) :
    ∃ front, text = front ++ '.' :: p.reverse ∧ p ≠ [] := by
  induction text using above.go.induct with
  | case1 => cases h
  | case2 => cases h
  | case3 d more ih =>
    rw [go_dot_cons] at h
    rcases List.mem_cons.mp h with rfl | h
    · refine ⟨[], by simp, by simp⟩
    · obtain ⟨front, hmore, hp⟩ := ih h
      refine ⟨'.' :: d :: front, ?_, hp⟩
      rw [hmore]
      rfl
  | case4 c rest hc ih =>
    rw [go_cons_of_ne hc] at h
    obtain ⟨front, hrest, hp⟩ := ih h
    refine ⟨c :: front, ?_, hp⟩
    rw [hrest]
    rfl

/-- A name above another one is a start of it, and neither empty nor all of it. -/
theorem prefix_of_mem_above {n p : List Char} (h : p ∈ above n) :
    p <+: n ∧ p.length < n.length ∧ p ≠ [] := by
  obtain ⟨front, hn, hp⟩ := exists_append_of_mem_go h
  have hname : n = p ++ '.' :: front.reverse := by
    have hreverse := congrArg List.reverse hn
    simpa using hreverse
  refine ⟨⟨_, hname.symm⟩, ?_, hp⟩
  rw [hname, List.length_append, List.length_cons]
  omega

/-- Names above get shorter. -/
theorem pairwise_length_above (n : List Char) :
    (above n).Pairwise fun nearer further => further.length < nearer.length := by
  unfold above
  induction n.reverse using above.go.induct with
  | case1 => exact List.Pairwise.nil
  | case2 => exact List.Pairwise.nil
  | case3 d more ih =>
    rw [go_dot_cons]
    refine List.Pairwise.cons (fun p hp => ?_) ih
    obtain ⟨front, hmore, -⟩ := exists_append_of_mem_go hp
    rw [hmore, List.length_reverse, List.length_cons, List.length_append, List.length_cons,
      List.length_reverse]
    omega
  | case4 c rest hc ih =>
    rw [go_cons_of_ne hc]
    exact ih

theorem not_mem_above_self (n : List Char) : n ∉ above n := by
  intro h
  have hshorter := (prefix_of_mem_above h).2.1
  omega

theorem go_of_go_eq {text p : List Char} {nearer further : List (List Char)}
    (hdots : ¬ ['.', '.'] <:+: text) (h : above.go text = nearer ++ p :: further) :
    above.go p.reverse = further := by
  induction text using above.go.induct generalizing nearer with
  | case1 => cases nearer <;> cases h
  | case2 => cases nearer <;> cases h
  | case3 d more ih =>
    rw [go_dot_cons] at h
    cases nearer with
    | nil =>
      obtain ⟨rfl, rfl⟩ := List.cons.inj h
      have hd : d ≠ '.' := by
        rintro rfl
        exact hdots ⟨[], more, rfl⟩
      rw [List.reverse_reverse, go_cons_of_ne hd]
    | cons x nearer =>
      refine ih (fun hmore => hdots ?_) (List.cons.inj h).2
      exact hmore.trans ⟨['.', d], [], by simp⟩
  | case4 c rest hc ih =>
    rw [go_cons_of_ne hc] at h
    refine ih (fun hrest => hdots ?_) h
    exact hrest.trans ⟨[c], [], by simp⟩

/-- Without two dots in a row, the names above a name above are those that come after it. -/
theorem above_of_above_eq {n p : List Char} {nearer further : List (List Char)}
    (hdots : ¬ ['.', '.'] <:+: n) (h : above n = nearer ++ p :: further) : above p = further := by
  refine go_of_go_eq (fun hinfix => hdots ?_) h
  have hreverse := List.reverse_infix.mpr hinfix
  rwa [List.reverse_reverse] at hreverse

/-- Names whose place in the tree does not depend on the order in which channels are made: no two of
their dots are in a row, and no name above starts the name of the topmost channel. -/
structure IsOrdinary (n : String) : Prop where
  dots : ¬ ['.', '.'] <:+: n.toList
  root : ∀ p ∈ above n.toList, p <+: rootName.toList → p = rootName.toList

/-- The names above an ordinary name are ordinary. -/
theorem IsOrdinary.above {n : String} (hn : IsOrdinary n) {p : List Char}
    {nearer further : List (List Char)} (h : above n.toList = nearer ++ p :: further) :
    IsOrdinary (String.ofList p) := by
  have hmem : p ∈ Channel.above n.toList := by
    rw [h]
    exact List.mem_append_right nearer List.mem_cons_self
  have hfurther := above_of_above_eq hn.dots h
  constructor
  · rw [String.toList_ofList]
    exact fun hdots => hn.dots (hdots.trans (prefix_of_mem_above hmem).1.isInfix)
  · rw [String.toList_ofList, hfurther]
    intro q hq
    refine hn.root q ?_
    rw [h]
    exact List.mem_append_right nearer (List.mem_cons_of_mem p hq)

end Channel

end FileChecks
