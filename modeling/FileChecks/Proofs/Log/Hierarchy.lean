import FileChecks.Proofs.Log.Channels
import FileChecks.Proofs.Log.Names
import Mathlib.Data.List.Find

/-!
The tree of channels. A channel at level zero has the rank of a channel above it. For names without
two dots in a row this is the nearest channel above by name with another level, in whatever order the
channels were made, unless its name starts the name of the topmost channel.
-/
namespace FileChecks

namespace Registry
open Channel (rootName isAbove IsOrdinary)
variable {r : Registry} {name n p : String} {c : Channel}

/-- The nearest channel above a name is one of those above it or the topmost one. -/
theorem nearestAbove_cases (r : Registry) (n : String) :
    (∃ nearer p further, Channel.above n.toList = nearer ++ p :: further ∧
      r.nearestAbove n = String.ofList p ∧ (r.channel? (String.ofList p)).isSome ∧
      ∀ q ∈ nearer, r.channel? (String.ofList q) = none) ∨
    (r.nearestAbove n = rootName ∧
      ∀ q ∈ Channel.above n.toList, r.channel? (String.ofList q) = none) := by
  unfold nearestAbove
  rw [List.find?_map]
  cases hfind : (Channel.above n.toList).find?
      ((fun m => (r.channel? m).isSome) ∘ String.ofList) with
  | some p =>
    obtain ⟨hp, nearer, further, habove, hnearer⟩ := List.find?_eq_some_iff_append.mp hfind
    exact Or.inl ⟨nearer, p, further, habove, rfl, hp, fun q hq => by simpa using hnearer q hq⟩
  | none => exact Or.inr ⟨rfl, fun q hq => by simpa using List.find?_eq_none.mp hfind q hq⟩

theorem nearestAbove_congr {r' : Registry}
    (h : ∀ p ∈ Channel.above n.toList,
      (r'.channel? (String.ofList p)).isSome = (r.channel? (String.ofList p)).isSome) :
    r'.nearestAbove n = r.nearestAbove n := by
  unfold nearestAbove
  rw [List.find?_map, List.find?_map]
  refine congrArg (fun found => (Option.map String.ofList found).getD rootName) ?_
  exact List.find?_congr h

theorem nearestAbove_eq {p : List Char} {nearer further : List (List Char)}
    (habove : Channel.above n.toList = nearer ++ p :: further)
    (hp : (r.channel? (String.ofList p)).isSome)
    (hnearer : ∀ q ∈ nearer, r.channel? (String.ofList q) = none) :
    r.nearestAbove n = String.ofList p := by
  have hfind : (Channel.above n.toList).find?
      ((fun m => (r.channel? m).isSome) ∘ String.ofList) = some p := by
    refine List.find?_eq_some_iff_append.mpr ⟨hp, nearer, further, habove, fun q hq => ?_⟩
    simp [hnearer q hq]
  unfold nearestAbove
  rw [List.find?_map, hfind]
  rfl

theorem channel?_ensure_of_ne (hnew : r.channel? name = none) {q : List Char}
    (hq : q ≠ name.toList) :
    (r.ensure name).channel? (String.ofList q) =
      (r.channel? (String.ofList q)).map (adopt name) := by
  have hne : String.ofList q ≠ name := by
    rintro rfl
    exact hq (String.toList_ofList).symm
  rw [channel?_ensure_of_none hnew, if_neg hne]

/-- A new channel is the nearest one above a name if there is none that is nearer. -/
theorem nearestAbove_ensure_self (hnew : r.channel? name = none) {nearer further : List (List Char)}
    (hsplit : Channel.above n.toList = nearer ++ name.toList :: further)
    (hnearer : ∀ q ∈ nearer, r.channel? (String.ofList q) = none) :
    (r.ensure name).nearestAbove n = name := by
  rw [nearestAbove_eq hsplit, String.ofList_toList]
  · obtain ⟨d, hd⟩ := exists_channel?_ensure r name
    rw [String.ofList_toList, hd]
    rfl
  · intro q hq
    have hne : q ≠ name.toList := by
      rintro rfl
      have hlengths := Channel.pairwise_length_above n.toList
      rw [hsplit] at hlengths
      have hlt := (List.pairwise_append.mp hlengths).2.2 _ hq _ List.mem_cons_self
      omega
    rw [channel?_ensure_of_ne hnew hne, hnearer q hq]
    rfl

/-- The nearest channel above a name stays so if the new one is not nearer. -/
theorem nearestAbove_ensure_of_nearer (hnew : r.channel? name = none) {p : List Char}
    {nearer further : List (List Char)} (hsplit : Channel.above n.toList = nearer ++ p :: further)
    (hexists : (r.channel? (String.ofList p)).isSome)
    (hnearer : ∀ q ∈ nearer, r.channel? (String.ofList q) = none)
    (hname : name.toList ∉ nearer) :
    (r.ensure name).nearestAbove n = String.ofList p := by
  refine nearestAbove_eq hsplit ?_ fun q hq => ?_
  · obtain ⟨c, hc⟩ := Option.isSome_iff_exists.mp hexists
    obtain ⟨parent, hensure⟩ := exists_channel?_ensure_of_some name hc
    rw [hensure]
    rfl
  · have hne : q ≠ name.toList := by
      rintro rfl
      exact hname hq
    rw [channel?_ensure_of_ne hnew hne, hnearer q hq]
    rfl

theorem nearestAbove_ensure_of_not_above (hnew : r.channel? name = none)
    (habove : name.toList ∉ Channel.above n.toList) :
    (r.ensure name).nearestAbove n = r.nearestAbove n := by
  refine nearestAbove_congr fun q hq => ?_
  have hne : q ≠ name.toList := by
    rintro rfl
    exact habove hq
  rw [channel?_ensure_of_ne hnew hne, Option.isSome_map]

/-- A new channel between a name and the nearest channel above it takes the place of that one. Both
are starts of the name, so that the nearer one is not a start of the other. -/
theorem nearestAbove_ensure_of_above (hnew : r.channel? name = none) {p : List Char}
    {nearer further : List (List Char)} (hsplit : Channel.above n.toList = nearer ++ p :: further)
    (hexists : (r.channel? (String.ofList p)).isSome)
    (hnone : ∀ q ∈ nearer, r.channel? (String.ofList q) = none)
    (habove : name.toList ∈ Channel.above n.toList) :
    (r.ensure name).nearestAbove n = if name.toList <+: p then String.ofList p else name := by
  have hne : name.toList ≠ p := by
    rintro rfl
    rw [String.ofList_toList, hnew] at hexists
    cases hexists
  have hpmem : p ∈ Channel.above n.toList := by simp [hsplit]
  have hlengths := Channel.pairwise_length_above n.toList
  have hmem := habove
  rw [hsplit] at hmem hlengths
  obtain ⟨-, hfurther, hacross⟩ := List.pairwise_append.mp hlengths
  rcases List.mem_append.mp hmem with hmem | hmem
  · have hlonger := hacross _ hmem p List.mem_cons_self
    have hnot : ¬ name.toList <+: p := fun hprefix => by
      have hle := hprefix.length_le
      omega
    obtain ⟨before, behind, rfl⟩ := List.append_of_mem hmem
    have hbefore : Channel.above n.toList = before ++ name.toList :: (behind ++ p :: further) := by
      rw [hsplit, List.append_assoc, List.cons_append]
    rw [if_neg hnot]
    exact nearestAbove_ensure_self hnew hbefore fun q hq => hnone q (List.mem_append_left _ hq)
  · have hmem := (List.mem_cons.mp hmem).resolve_left hne
    have hlonger := List.rel_of_pairwise_cons hfurther hmem
    have hprefix : name.toList <+: p :=
      List.prefix_of_prefix_length_le (Channel.prefix_of_mem_above habove).1
        (Channel.prefix_of_mem_above hpmem).1 (by omega)
    rw [if_pos hprefix]
    refine nearestAbove_ensure_of_nearer hnew hsplit hexists hnone fun hnearer => ?_
    have hshorter := hacross _ hnearer _ (List.mem_cons_of_mem p hmem)
    omega

theorem nearestAbove_eq_or_isAbove (r : Registry) (n : String) :
    r.nearestAbove n = rootName ∨ isAbove (r.nearestAbove n) n = true := by
  rcases nearestAbove_cases r n with ⟨nearer, p, further, hsplit, hp, -⟩ | ⟨hp, -⟩
  · right
    rw [hp, Channel.isAbove_iff, String.toList_ofList, hsplit]
    exact List.mem_append_right nearer List.mem_cons_self
  · exact Or.inl hp

/-- The channels are a tree: each but the topmost one has a parent above it by name, and one with an
ordinary name has the nearest. -/
structure IsTree (r : Registry) : Prop where
  root : ∃ c, r.channel? rootName = some c ∧ c.parent = none
  parent : ∀ {n c}, r.channel? n = some c → n ≠ rootName →
    ∃ p, c.parent = some p ∧ (r.channel? p).isSome ∧ (p = rootName ∨ isAbove p n = true)
  nearest : ∀ {n c}, r.channel? n = some c → n ≠ rootName → IsOrdinary n →
    c.parent = some (r.nearestAbove n)

namespace IsTree

/-- The tree depends on nothing but the parents. -/
theorem congr (hr : r.IsTree) {r' : Registry}
    (h : ∀ n, (r'.channel? n).map (·.parent) = (r.channel? n).map (·.parent)) : r'.IsTree := by
  have hsome : ∀ n, (r'.channel? n).isSome = (r.channel? n).isSome := by
    intro n
    have hmap := congrArg Option.isSome (h n)
    rwa [Option.isSome_map, Option.isSome_map] at hmap
  have hback : ∀ {n c'}, r'.channel? n = some c' →
      ∃ c, r.channel? n = some c ∧ c'.parent = c.parent := by
    intro n c' hc'
    have hmap := h n
    rw [hc'] at hmap
    obtain ⟨c, hc, hparent⟩ := Option.map_eq_some_iff.mp hmap.symm
    exact ⟨c, hc, hparent.symm⟩
  constructor
  · obtain ⟨c, hc, hparent⟩ := hr.root
    have hmap := h rootName
    rw [hc] at hmap
    obtain ⟨c', hc', hsame⟩ := Option.map_eq_some_iff.mp hmap
    exact ⟨c', hc', hsame.trans hparent⟩
  · intro n c' hc' hn
    obtain ⟨c, hc, hparent⟩ := hback hc'
    obtain ⟨p, hp, hexists, habove⟩ := hr.parent hc hn
    exact ⟨p, hparent.trans hp, (hsome p).trans hexists, habove⟩
  · intro n c' hc' hn hordinary
    obtain ⟨c, hc, hparent⟩ := hback hc'
    rw [hparent, hr.nearest hc hn hordinary, nearestAbove_congr fun p _ => hsome (String.ofList p)]

theorem change (hr : r.IsTree) (name : String) {f : Channel → Channel}
    (hname : ∀ c, (f c).name = c.name) (hparent : ∀ c, (f c).parent = c.parent) :
    (r.change name f).IsTree := by
  refine hr.congr fun n => ?_
  rw [channel?_change r name hname]
  split
  · rw [Option.map_map]
    exact congrArg (Option.map · (r.channel? n)) (funext hparent)
  · rfl

theorem setLevel (hr : r.IsTree) (name : String) (l : Level) : (r.setLevel name l).IsTree :=
  hr.change name (fun _ => rfl) fun _ => rfl

/-- The topmost channel alone is a tree. -/
theorem of_singleton {top : Channel} (hname : top.name = rootName) (hparent : top.parent = none)
    (hr : r.channels = [top]) : r.IsTree := by
  have hroot : ∀ {n c}, r.channel? n = some c → n = rootName := by
    intro n c hc
    have hmem := List.mem_of_find?_eq_some hc
    rw [hr, List.mem_singleton] at hmem
    rw [← name_of_channel? hc, hmem, hname]
  constructor
  · refine ⟨top, ?_, hparent⟩
    rw [channel?, hr, List.find?_singleton, hname]
    rfl
  · intro n c hc hn
    exact absurd (hroot hc) hn
  · intro n c hc hn _
    exact absurd (hroot hc) hn

/-- A channel whose parent is further up than a new one gets the new one as its parent. -/
theorem parent_adopt_of_parent (hparent : c.parent = some p) (habove : isAbove name c.name = true) :
    (adopt name c).parent = some (if name.toList <+: p.toList then p else name) := by
  unfold adopt
  rw [hparent]
  dsimp only
  by_cases hprefix : name.toList <+: p.toList
  · have htest := List.isPrefixOf_iff_prefix.mpr hprefix
    rw [if_pos hprefix, habove, htest]
    exact hparent
  · have htest : name.toList.isPrefixOf p.toList = false :=
      Bool.eq_false_iff.mpr fun h => hprefix (List.isPrefixOf_iff_prefix.mp h)
    rw [if_neg hprefix, habove, htest]
    rfl

theorem adopt_of_not_above (habove : isAbove name c.name = false) : adopt name c = c := by
  unfold adopt
  rw [habove]
  cases c.parent <;> rfl

theorem adopt_of_parent_eq_none (hparent : c.parent = none) : adopt name c = c := by
  rw [adopt, hparent]

theorem name_ne_root (hr : r.IsTree) (hnew : r.channel? name = none) : name ≠ rootName := by
  rintro rfl
  obtain ⟨d, hd, -⟩ := hr.root
  rw [hd] at hnew
  cases hnew

/-- The parents of ordinary channels are the nearest ones again after a channel is made. -/
theorem parent_adopt (hr : r.IsTree) (hnew : r.channel? name = none) (hc : r.channel? n = some c)
    (hn : n ≠ rootName) (hordinary : IsOrdinary n) :
    (adopt name c).parent = some ((r.ensure name).nearestAbove n) := by
  have hparent := hr.nearest hc hn hordinary
  have hcname := name_of_channel? hc
  by_cases habove : name.toList ∈ Channel.above n.toList
  · have hisAbove : isAbove name c.name = true := by rwa [hcname, Channel.isAbove_iff]
    rw [parent_adopt_of_parent hparent hisAbove]
    rcases nearestAbove_cases r n with ⟨nearer, p, further, hsplit, hp, hexists, hnone⟩ | ⟨hp, hnone⟩
    · rw [nearestAbove_ensure_of_above hnew hsplit hexists hnone habove, hp, String.toList_ofList]
    · have hnot : ¬ name.toList <+: rootName.toList := fun hprefix =>
        hr.name_ne_root hnew (String.toList_inj.mp (hordinary.root _ habove hprefix))
      obtain ⟨nearer, further, hsplit⟩ := List.append_of_mem habove
      have hnearer : ∀ q ∈ nearer, r.channel? (String.ofList q) = none := by
        intro q hq
        refine hnone q ?_
        rw [hsplit]
        exact List.mem_append_left _ hq
      rw [hp, if_neg hnot, nearestAbove_ensure_self hnew hsplit hnearer]
  · have hisAbove : isAbove name c.name = false := by
      rw [hcname]
      exact Bool.eq_false_iff.mpr fun h => habove (Channel.isAbove_iff.mp h)
    rw [adopt_of_not_above hisAbove, nearestAbove_ensure_of_not_above hnew habove]
    exact hparent

theorem isSome_nearestAbove (hr : r.IsTree) (n : String) : (r.channel? (r.nearestAbove n)).isSome := by
  rcases nearestAbove_cases r n with ⟨nearer, p, further, hsplit, hp, hexists, -⟩ | ⟨hp, -⟩
  · rwa [hp]
  · obtain ⟨c, hc, -⟩ := hr.root
    rw [hp, hc]
    rfl

/-- The parent of each channel is there, and above it, after a channel is made. -/
theorem exists_parent_adopt (hr : r.IsTree) (hc : r.channel? n = some c) (hn : n ≠ rootName) :
    ∃ p, (adopt name c).parent = some p ∧ ((r.ensure name).channel? p).isSome ∧
      (p = rootName ∨ isAbove p n = true) := by
  obtain ⟨p, hp, hexists, habove⟩ := hr.parent hc hn
  have hstays := isSome_channel?_ensure name hexists
  cases hisAbove : isAbove name c.name with
  | false =>
    rw [adopt_of_not_above hisAbove]
    exact ⟨p, hp, hstays, habove⟩
  | true =>
    rw [parent_adopt_of_parent hp hisAbove]
    split
    · exact ⟨p, rfl, hstays, habove⟩
    · obtain ⟨d, hd⟩ := exists_channel?_ensure r name
      rw [name_of_channel? hc] at hisAbove
      refine ⟨name, rfl, ?_, Or.inr hisAbove⟩
      rw [hd]
      rfl

/-- Making a channel puts it into the tree. -/
theorem ensure (hr : r.IsTree) (name : String) : (r.ensure name).IsTree := by
  cases hnew : r.channel? name with
  | some d => rwa [ensure_of_some hnew]
  | none =>
    constructor
    · obtain ⟨c, hc, hparent⟩ := hr.root
      refine ⟨c, ?_, hparent⟩
      rw [channel?_ensure_of_none hnew, if_neg (Ne.symm (hr.name_ne_root hnew)), hc]
      exact congrArg some (adopt_of_parent_eq_none hparent)
    · intro n c' hc' hn
      rw [channel?_ensure_of_none hnew] at hc'
      split at hc'
      · rename_i hname
        obtain rfl := Option.some.inj hc'
        have hexists := isSome_channel?_ensure name (hr.isSome_nearestAbove name)
        rw [hname]
        exact ⟨_, rfl, hexists, nearestAbove_eq_or_isAbove r name⟩
      · obtain ⟨c, hc, rfl⟩ := Option.map_eq_some_iff.mp hc'
        exact hr.exists_parent_adopt hc hn
    · intro n c' hc' hn hordinary
      rw [channel?_ensure_of_none hnew] at hc'
      split at hc'
      · rename_i hname
        obtain rfl := Option.some.inj hc'
        rw [hname, nearestAbove_ensure_of_not_above hnew (Channel.not_mem_above_self _)]
      · obtain ⟨c, hc, rfl⟩ := Option.map_eq_some_iff.mp hc'
        exact hr.parent_adopt hnew hc hn hordinary

theorem addLogger (hr : r.IsTree) (name : String) (l : Level) : (r.addLogger name l).1.IsTree := by
  have hsetUp := (hr.ensure (channelName name)).change (channelName name)
    (f := (·.setUp l r.next)) (fun _ => rfl) fun _ => rfl
  exact hsetUp.congr fun _ => rfl

/-! The channels that a message passes on its way up. -/

theorem length_lt_of_isAbove (h : isAbove p n = true) : p.length < n.length :=
  (Channel.prefix_of_mem_above (Channel.isAbove_iff.mp h)).2.1

theorem go_root (hr : r.IsTree) : ∃ c, r.channel? rootName = some c ∧
    ∀ fuel, line.go r (fuel + 1) rootName = [c] := by
  obtain ⟨c, hc, hparent⟩ := hr.root
  refine ⟨c, hc, fun fuel => ?_⟩
  rw [line.go, hc]
  dsimp only
  rw [hparent]

/-- More steps than a name has characters, and one more, lead to the topmost channel. -/
theorem go_eq_go (hr : r.IsTree) {fuel fuel' : Nat} (h : n.length + 1 < fuel)
    (h' : n.length + 1 < fuel') : line.go r fuel n = line.go r fuel' n := by
  induction fuel generalizing fuel' n with
  | zero => omega
  | succ fuel ih =>
    obtain ⟨fuel', rfl⟩ : ∃ k, fuel' = k + 1 := ⟨fuel' - 1, by omega⟩
    obtain ⟨top, htop, hgo⟩ := hr.go_root
    rw [line.go, line.go]
    cases hc : r.channel? n with
    | none => rfl
    | some c =>
      by_cases hn : n = rootName
      · have hthis := hgo fuel
        have hother := hgo fuel'
        rw [line.go, ← hn, hc] at hthis hother
        exact hthis.trans hother.symm
      · obtain ⟨p, hp, -, hroot | habove⟩ := hr.parent hc hn
        · obtain ⟨k, rfl⟩ : ∃ k, fuel = k + 1 := ⟨fuel - 1, by omega⟩
          obtain ⟨k', rfl⟩ : ∃ k, fuel' = k + 1 := ⟨fuel' - 1, by omega⟩
          dsimp only
          rw [hp, hroot]
          dsimp only
          rw [hgo k, hgo k']
        · have hshorter := length_lt_of_isAbove habove
          dsimp only
          rw [hp]
          exact congrArg (c :: ·) (ih (by omega) (by omega))

/-- A channel comes before those of its parent. -/
theorem line_of_parent (hr : r.IsTree) (hc : r.channel? n = some c) (hn : n ≠ rootName)
    (hp : c.parent = some p) : r.line n = c :: r.line p := by
  unfold line
  rw [line.go, hc]
  dsimp only
  rw [hp]
  refine congrArg (c :: ·) ?_
  obtain ⟨top, htop, hgo⟩ := hr.go_root
  obtain ⟨q, hq, -, hroot | habove⟩ := hr.parent hc hn
  · obtain rfl := Option.some.inj (hp.symm.trans hq)
    rw [hroot]
    exact (hgo n.length).trans (hgo (rootName.length + 1)).symm
  · obtain rfl := Option.some.inj (hp.symm.trans hq)
    have hshorter := length_lt_of_isAbove habove
    exact hr.go_eq_go (by omega) (by omega)

end IsTree

/-! Ranks in force. -/

/-- Rank that the levels of names give: that of the first one other than zero. -/
def rankAlong (level : String → Level) : List String → Int
  | [] => 0
  | n :: names => if (level n).rank ≠ 0 then (level n).rank else rankAlong level names

theorem rankAlong_append_of_zero {level : String → Level} {front : List String}
    (h : ∀ n ∈ front, (level n).rank = 0) (names : List String) :
    rankAlong level (front ++ names) = rankAlong level names := by
  induction front with
  | nil => rfl
  | cons n front ih =>
    have hn : ¬ (level n).rank ≠ 0 := not_not_intro (h n List.mem_cons_self)
    rw [List.cons_append, rankAlong, if_neg hn]
    exact ih fun m hm => h m (List.mem_cons_of_mem n hm)

/-- A name and all names above it, with that of the topmost channel at the end. -/
def lineage (n : String) : List String :=
  n :: (Channel.above n.toList).map String.ofList ++ [rootName]

/-- Names from one on to the topmost one, each above the one before it. -/
inductive IsPath : List String → Prop
  | root : IsPath [rootName]
  | up {n p : String} {path : List String} (above : p = rootName ∨ isAbove p n = true)
      (rest : IsPath (p :: path)) : IsPath (n :: p :: path)

namespace IsTree

theorem effectiveRank_root (hr : r.IsTree) :
    r.effectiveRank rootName = rankAlong r.level [rootName] := by
  obtain ⟨top, htop, hgo⟩ := hr.go_root
  have hline : r.line rootName = [top] := hgo (rootName.length + 1)
  rw [effectiveRank, hline, rankAlong, rankAlong, level_of_some htop, List.map_singleton]
  by_cases hzero : top.level.rank = 0 <;> simp [hzero]

/-- A channel at level zero has the rank that its parent has. -/
theorem effectiveRank_of_parent (hr : r.IsTree) (hc : r.channel? n = some c) (hn : n ≠ rootName)
    (hp : c.parent = some p) :
    r.effectiveRank n =
      if (r.level n).rank ≠ 0 then (r.level n).rank else r.effectiveRank p := by
  unfold effectiveRank
  rw [hr.line_of_parent hc hn hp, level_of_some hc, List.map_cons, List.find?_cons]
  by_cases hzero : c.level.rank = 0 <;> simp [hzero]

/-- The rank in force is that of the first level other than zero on a path up. -/
theorem exists_path (hr : r.IsTree) (hn : (r.channel? n).isSome) :
    ∃ path, IsPath (n :: path) ∧ r.effectiveRank n = rankAlong r.level (n :: path) := by
  induction hlength : n.length using Nat.strong_induction_on generalizing n with
  | _ length ih =>
    by_cases hname : n = rootName
    · rw [hname]
      exact ⟨[], .root, hr.effectiveRank_root⟩
    · obtain ⟨c, hc⟩ := Option.isSome_iff_exists.mp hn
      obtain ⟨p, hp, hexists, habove⟩ := hr.parent hc hname
      have hrest : ∃ path, IsPath (p :: path) ∧
          r.effectiveRank p = rankAlong r.level (p :: path) := by
        rcases habove with rfl | hisAbove
        · exact ⟨[], .root, hr.effectiveRank_root⟩
        · exact ih p.length (hlength ▸ length_lt_of_isAbove hisAbove) hexists rfl
      obtain ⟨path, hpath, hrank⟩ := hrest
      refine ⟨p :: path, .up habove hpath, ?_⟩
      rw [hr.effectiveRank_of_parent hc hname hp, hrank]
      rfl

theorem rank_level_of_none (h : r.channel? n = none) : (r.level n).rank = 0 := by
  rw [level_of_none h]
  rfl

/-- The rank in force on a channel with an ordinary name is that of the nearest name with a level
other than zero, among its own and all those above. -/
theorem effectiveRank_eq_rankAlong (hr : r.IsTree) (hn : (r.channel? n).isSome)
    (hordinary : IsOrdinary n) : r.effectiveRank n = rankAlong r.level (lineage n) := by
  induction hlength : n.length using Nat.strong_induction_on generalizing n with
  | _ length ih =>
    by_cases hname : n = rootName
    · have hlineage : lineage rootName = [rootName, rootName] := by decide
      rw [hname, hr.effectiveRank_root, hlineage]
      by_cases hzero : (r.level rootName).rank = 0 <;> simp [rankAlong, hzero]
    · obtain ⟨c, hc⟩ := Option.isSome_iff_exists.mp hn
      rw [hr.effectiveRank_of_parent hc hname (hr.nearest hc hname hordinary), lineage,
        List.cons_append, rankAlong]
      refine if_congr Iff.rfl rfl ?_
      rcases nearestAbove_cases r n with ⟨nearer, p, further, hsplit, hp, hexists, hnone⟩ | ⟨hp, hnone⟩
      · have hmem : p ∈ Channel.above n.toList := by simp [hsplit]
        have hshorter : (String.ofList p).length < n.length := by
          refine length_lt_of_isAbove (Channel.isAbove_iff.mpr ?_)
          rwa [String.toList_ofList]
        have hfurther := Channel.above_of_above_eq hordinary.dots hsplit
        rw [hp, ih _ (hlength ▸ hshorter) hexists (hordinary.above hsplit) rfl, lineage,
          String.toList_ofList, hfurther, hsplit, List.map_append, List.append_assoc]
        refine (rankAlong_append_of_zero (fun m hm => ?_) _).symm
        obtain ⟨q, hq, rfl⟩ := List.mem_map.mp hm
        exact rank_level_of_none (hnone q hq)
      · rw [hp, hr.effectiveRank_root]
        refine (rankAlong_append_of_zero (fun m hm => ?_) _).symm
        obtain ⟨q, hq, rfl⟩ := List.mem_map.mp hm
        exact rank_level_of_none (hnone q hq)

end IsTree
end Registry
end FileChecks
