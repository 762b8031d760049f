import FileChecks.Proofs.Cache.Operations
import FileChecks.Proofs.Value.Key
import FileChecks.Script.CacheSteps

/-!
A cache holds exactly the keys that were used most recently. Its entries are compared with the
history of the operations on it, which forgets nothing.
-/
namespace FileChecks

/-- What happened to a cache since it was cleared, the latest first: the entries that were touched,
because they were set or found, and the entries that were set. -/
structure History (κ ν : Type) where
  touches : List (κ × ν)
  sets : List (κ × ν)

namespace History
variable {κ ν : Type}

def empty : History κ ν := ⟨[], []⟩

variable [BEq κ]

/-- Entries of the distinct touched keys, the one touched last first. -/
def distinct (h : History κ ν) : List (κ × ν) := h.touches.eraseDupsBy fun a b => a.1 == b.1

/-- Entries of the last `n` distinct touched keys, in order of their last touch. -/
def recent (h : History κ ν) (n : Nat) : List (κ × ν) := (h.distinct.take n).reverse

def holds (h : History κ ν) (n : Nat) (k : κ) : Bool := (h.recent n).any (·.1 == k)

def latest? (h : History κ ν) (k : κ) : Option (κ × ν) := h.sets.find? (·.1 == k)

def IsLatest (h : History κ ν) (e : κ × ν) : Prop :=
  ∃ later earlier, h.sets = later ++ e :: earlier ∧ ∀ x ∈ later, (x.1 == e.1) = false

/-- Value of a key among the last `n`: that of its most recent set. -/
def lookup? (h : History κ ν) (n : Nat) (k : κ) : Option ν :=
  if h.holds n k then (h.latest? k).map (·.2) else none

/-- A look-up touches a key that it finds. -/
def get (h : History κ ν) (n : Nat) (k : κ) : History κ ν :=
  if h.holds n k then { h with touches := (h.latest? k).toList ++ h.touches } else h

def set (h : History κ ν) (k : κ) (v : ν) : History κ ν :=
  ⟨(k, v) :: h.touches, (k, v) :: h.sets⟩

end History

/-! Lists without two elements that are related. -/
section Distinct
variable {α : Type} {r : α → α → Bool} {p : α → Bool}

/-- Induction along the removal of what is related to the first element. -/
theorem eraseDupsBy_induction {motive : List α → Prop} (nil : motive [])
    (cons : ∀ a l, motive (l.filter fun b => r b a = false) → motive (a :: l)) (l : List α) :
    motive l := by
  match l with
  | [] => exact nil
  | a :: l => exact cons a l (eraseDupsBy_induction nil cons _)
termination_by l.length
decreasing_by exact Nat.lt_succ_of_le (List.length_filter_le _ _)

theorem filter_eraseDupsBy (hp : ∀ a b, r b a = true → p b = p a) (l : List α) :
    (l.eraseDupsBy r).filter p = (l.filter p).eraseDupsBy r := by
  induction l using eraseDupsBy_induction (r := r) with
  | nil => rfl
  | cons a l ih =>
    rw [List.eraseDupsBy_cons]
    cases ha : p a with
    | true =>
      rw [List.filter_cons_of_pos ha, List.filter_cons_of_pos ha, List.eraseDupsBy_cons, ih,
        List.filter_filter, List.filter_filter]
      simp only [Bool.and_comm]
    | false =>
      have hsame : (l.filter fun b => r b a = false).filter p = l.filter p := by
        rw [List.filter_filter]
        refine List.filter_congr fun b _ => ?_
        cases hb : r b a with
        | true => simp [hp a b hb, ha]
        | false => simp
      rw [List.filter_cons_of_neg (by simp [ha]), List.filter_cons_of_neg (by simp [ha]), ih, hsame]

theorem eraseDupsBy_sublist (l : List α) : (l.eraseDupsBy r).Sublist l := by
  induction l using eraseDupsBy_induction (r := r) with
  | nil => exact List.nil_sublist _
  | cons a l ih =>
    rw [List.eraseDupsBy_cons]
    exact (ih.trans List.filter_sublist).cons_cons a

theorem pairwise_eraseDupsBy (l : List α) :
    (l.eraseDupsBy r).Pairwise fun a b => r b a = false := by
  induction l using eraseDupsBy_induction (r := r) with
  | nil => exact List.Pairwise.nil
  | cons a l ih =>
    rw [List.eraseDupsBy_cons]
    refine List.pairwise_cons.mpr ⟨fun b hb => ?_, ih⟩
    simpa using (List.mem_filter.mp ((eraseDupsBy_sublist _).subset hb)).2

theorem eraseP_eq_filter_of_pairwise {l : List α}
    (hl : l.Pairwise fun a b => p a = true → p b = false) :
    l.eraseP p = l.filter fun a => !p a := by
  induction l with
  | nil => rfl
  | cons a l ih =>
    obtain ⟨ha, hl⟩ := List.pairwise_cons.mp hl
    cases hp : p a with
    | true =>
      have hall : ∀ b ∈ l, (!p b) = true := fun b hb => by simp [ha b hb hp]
      rw [List.eraseP_cons_of_pos hp, List.filter_cons_of_neg (by simp [hp]),
        List.filter_eq_self.mpr hall]
    | false =>
      rw [List.eraseP_cons_of_neg (by simp [hp]), List.filter_cons_of_pos (by simp [hp]), ih hl]

/-- Of a list with at most one element to leave out, one more element has to be taken. -/
theorem take_filter_take_succ {l : List α} (hl : l.Pairwise fun a b => p a = true → p b = false)
    (n : Nat) :
    ((l.take (n + 1)).filter fun a => !p a).take n = (l.filter fun a => !p a).take n := by
  induction l generalizing n with
  | nil => simp
  | cons a l ih =>
    obtain ⟨ha, hl⟩ := List.pairwise_cons.mp hl
    cases hp : p a with
    | true =>
      have hall : ∀ b ∈ l, (!p b) = true := fun b hb => by simp [ha b hb hp]
      rw [List.take_succ_cons, List.filter_cons_of_neg (by simp [hp]),
        List.filter_cons_of_neg (by simp [hp]), List.filter_eq_self.mpr hall,
        List.filter_eq_self.mpr fun b hb => hall b (List.mem_of_mem_take hb), List.take_take,
        Nat.min_self]
    | false =>
      cases n with
      | zero => rfl
      | succ n =>
        rw [List.take_succ_cons, List.filter_cons_of_pos (by simp [hp]),
          List.filter_cons_of_pos (by simp [hp]), List.take_succ_cons, List.take_succ_cons, ih hl]

end Distinct

namespace History
variable {κ ν : Type} [BEq κ]

/-- Keys of the distinct touched entries. -/
theorem map_fst_distinct (h : History κ ν) :
    h.distinct.map (·.1) = (h.touches.map (·.1)).eraseDups := by
  unfold distinct
  induction h.touches using eraseDupsBy_induction (r := fun a b : κ × ν => a.1 == b.1) with
  | nil => rfl
  | cons e rest ih =>
    rw [List.eraseDupsBy_cons, List.map_cons, List.map_cons, List.eraseDups_cons, ih,
      List.filter_map]
    simp [Function.comp_def]

variable [PartialEquivBEq κ]

theorem beq_congr_right {a b : κ} (h : a == b) (x : κ) : (x == a) = (x == b) := by
  rw [Bool.eq_iff_iff]
  exact ⟨fun hx => PartialEquivBEq.trans hx h,
    fun hx => PartialEquivBEq.trans hx (PartialEquivBEq.symm h)⟩

theorem beq_eq_comm (a b : κ) : (a == b) = (b == a) := by
  rw [Bool.eq_iff_iff]
  exact ⟨PartialEquivBEq.symm, PartialEquivBEq.symm⟩

/-- At most one of the distinct entries has a given key. -/
theorem distinct_pairwise (h : History κ ν) (k : κ) :
    h.distinct.Pairwise fun a b => (a.1 == k) = true → (b.1 == k) = false := by
  refine (pairwise_eraseDupsBy h.touches).imp fun {a b} hab ha => ?_
  rw [← beq_congr_right ha b.1]
  exact hab

/-- A touch puts its entry in front and drops an earlier one of its key. -/
theorem distinct_touch (h : History κ ν) (e : κ × ν) (sets : List (κ × ν)) :
    (History.mk (e :: h.touches) sets).distinct =
      e :: h.distinct.filter fun x => !(x.1 == e.1) := by
  have hp : ∀ a b : κ × ν, (b.1 == a.1) = true → (!(b.1 == e.1)) = !(a.1 == e.1) := by
    intro a b hab
    rw [beq_eq_comm b.1 e.1, beq_eq_comm a.1 e.1, beq_congr_right hab]
  rw [distinct, List.eraseDupsBy_cons, distinct, filter_eraseDupsBy hp]
  simp only [Bool.decide_eq_false]

theorem IsLatest.latest? {h : History κ ν} {e : κ × ν} (he : h.IsLatest e) {k : κ}
    (hk : (e.1 == k) = true) : h.latest? k = some e := by
  obtain ⟨later, earlier, hsets, hlater⟩ := he
  have hnone : later.find? (·.1 == k) = none := by
    refine List.find?_eq_none.mpr fun x hx => ?_
    rw [← beq_congr_right hk]
    simp [hlater x hx]
  simp [History.latest?, hsets, List.find?_append, hnone, hk]

end History

/-- A cache in use with a limit of `n` has the entries of its history. -/
structure Tracks {κ ν : Type} [BEq κ] (n : Nat) (c : Lru κ ν) (h : History κ ν) : Prop where
  enabled : c.settings.isEnabled = true
  limit : c.settings.HasLimit n
  entries : c.entries = h.recent n
  latest : ∀ e ∈ h.distinct, h.IsLatest e

namespace Tracks
variable {κ ν : Type} [BEq κ] [PartialEquivBEq κ] {n : Nat} {c : Lru κ ν} {h : History κ ν}

omit [PartialEquivBEq κ] in
theorem empty {s : CacheSettings} (he : s.isEnabled = true) (hlimit : s.HasLimit n) :
    Tracks n (Lru.empty s : Lru κ ν) .empty :=
  ⟨he, hlimit, by simp [Lru.empty, History.empty, History.recent, History.distinct], nofun⟩

omit [PartialEquivBEq κ] in
theorem find?_isSome (ht : Tracks n c h) (k : κ) : (c.find? k).isSome = h.holds n k := by
  rw [Lru.find?, ht.entries, History.holds, List.isSome_find?]

omit [PartialEquivBEq κ] in
theorem mem_of_find? (ht : Tracks n c h) {k : κ} {e : κ × ν} (hf : c.find? k = some e) :
    e ∈ h.distinct.take n ∧ (e.1 == k) = true := by
  have hmem : e ∈ h.recent n := ht.entries ▸ Lru.mem_of_find? hf
  exact ⟨List.mem_reverse.mp hmem, Lru.beq_of_find? hf⟩

/-- What is left of the entries without a key. -/
theorem erase_eq (ht : Tracks n c h) (k : κ) :
    (c.erase k).entries = ((h.distinct.take n).filter fun x => !(x.1 == k)).reverse := by
  have hpair : (h.recent n).Pairwise fun a b => (a.1 == k) = true → (b.1 == k) = false := by
    refine List.pairwise_reverse.mpr (((h.distinct_pairwise k).sublist
      (List.take_sublist n _)).imp fun {a b} hab hb => ?_)
    by_contra ha
    simp [hab (by simpa using ha)] at hb
  rw [Lru.erase, ht.entries]
  change (h.recent n).eraseP _ = _
  rw [eraseP_eq_filter_of_pairwise hpair, History.recent, List.filter_reverse]

/-- A set touches its key, and the last `n` distinct keys stay. -/
theorem set (ht : Tracks n c h) (hn : 0 < n) (k : κ) (v : ν) :
    Tracks n (c.set k v).1 (h.set k v) ∧ (c.set k v).2 = .ok () := by
  obtain ⟨m, rfl⟩ : ∃ m, n = m + 1 := ⟨n - 1, by omega⟩
  have hdistinct : (h.set k v).distinct = (k, v) :: h.distinct.filter fun x => !(x.1 == k) :=
    h.distinct_touch (k, v) _
  rw [Lru.set_eq ht.enabled ht.limit hn]
  refine ⟨⟨ht.enabled, ht.limit, ?_, ?_⟩, rfl⟩
  · have hroom : (c.erase k).entries.drop ((c.erase k).size + 1 - (m + 1)) =
        ((h.distinct.filter fun x => !(x.1 == k)).take m).reverse := by
      rw [← take_filter_take_succ (h.distinct_pairwise k) m, Lru.size, ht.erase_eq k,
        List.drop_reverse, List.length_reverse]
      congr 1
      rw [List.take_eq_take_iff]
      omega
    change (c.erase k).entries.drop _ ++ [(k, v)] = _
    rw [hroom, History.recent, hdistinct, List.take_succ_cons, List.reverse_cons]
  · intro e he
    rw [hdistinct] at he
    rcases List.mem_cons.mp he with rfl | he
    · exact ⟨[], h.sets, rfl, by simp⟩
    · obtain ⟨hmem, hne⟩ := List.mem_filter.mp he
      obtain ⟨later, earlier, hsets, hlater⟩ := ht.latest e hmem
      refine ⟨(k, v) :: later, earlier, by simp [History.set, hsets], ?_⟩
      intro x hx
      rcases List.mem_cons.mp hx with rfl | hx
      · rw [History.beq_eq_comm]
        simpa using hne
      · exact hlater x hx

theorem latest?_of_find? (ht : Tracks n c h) {k : κ} {e : κ × ν} (hf : c.find? k = some e) :
    h.latest? k = some e := by
  obtain ⟨hmem, hk⟩ := ht.mem_of_find? hf
  exact (ht.latest e (List.mem_of_mem_take hmem)).latest? hk

theorem history_get_of_some (ht : Tracks n c h) {k : κ} {e : κ × ν} (hf : c.find? k = some e) :
    h.get n k = ⟨e :: h.touches, h.sets⟩ := by
  have hhit : h.holds n k = true := by simp [← ht.find?_isSome k, hf]
  simp [History.get, hhit, ht.latest?_of_find? hf]

omit [PartialEquivBEq κ] in
theorem history_get_of_none (ht : Tracks n c h) {k : κ} (hf : c.find? k = none) :
    h.get n k = h := by
  have hmiss : h.holds n k = false := by simp [← ht.find?_isSome k, hf]
  simp [History.get, hmiss]

/-- A look-up that finds an entry finds the most recent set of the key and touches it. -/
theorem get_hit (ht : Tracks n c h) {k : κ} {e : κ × ν} (hf : c.find? k = some e) :
    Tracks n (c.get k).1 (h.get n k) ∧ (c.get k).2 = h.lookup? n k := by
  obtain ⟨hmem, hk⟩ := ht.mem_of_find? hf
  have hlatest := ht.latest?_of_find? hf
  have hhit : h.holds n k = true := by simp [← ht.find?_isSome k, hf]
  have hget := ht.history_get_of_some hf
  have hdistinct : (h.get n k).distinct = e :: h.distinct.filter fun x => !(x.1 == k) := by
    rw [hget, h.distinct_touch e]
    congr 2
    funext x
    rw [History.beq_congr_right hk]
  obtain ⟨m, rfl⟩ : ∃ m, n = m + 1 := by
    cases n with
    | zero => simp at hmem
    | succ m => exact ⟨m, rfl⟩
  rw [Lru.get_of_find?_eq_some ht.enabled hf]
  refine ⟨⟨ht.enabled, ht.limit, ?_, ?_⟩, by simp [History.lookup?, hhit, hlatest]⟩
  · have hshort : ((h.distinct.take (m + 1)).filter fun x => !(x.1 == k)).length <
        (h.distinct.take (m + 1)).length :=
      List.length_filter_lt_length_iff_exists.mpr ⟨e, hmem, by simp [hk]⟩
    have hrest : (h.distinct.filter fun x => !(x.1 == k)).take m =
        (h.distinct.take (m + 1)).filter fun x => !(x.1 == k) := by
      rw [← take_filter_take_succ (h.distinct_pairwise k) m]
      refine List.take_of_length_le ?_
      have := List.length_take_le (m + 1) h.distinct
      omega
    change (c.erase k).entries ++ [e] = _
    rw [ht.erase_eq k, History.recent, hdistinct, List.take_succ_cons, List.reverse_cons, hrest]
  · intro x hx
    rw [hdistinct] at hx
    have hx' : x ∈ h.distinct := by
      rcases List.mem_cons.mp hx with rfl | hx
      · exact List.mem_of_mem_take hmem
      · exact (List.mem_filter.mp hx).1
    rw [hget]
    exact ht.latest x hx'

theorem get (ht : Tracks n c h) (k : κ) :
    Tracks n (c.get k).1 (h.get n k) ∧ (c.get k).2 = h.lookup? n k := by
  cases hf : c.find? k with
  | none =>
    have hmiss : h.holds n k = false := by simp [← ht.find?_isSome k, hf]
    rw [Lru.get_of_find?_eq_none hf, History.get, History.lookup?, hmiss]
    exact ⟨⟨ht.enabled, ht.limit, ht.entries, ht.latest⟩, rfl⟩
  | some e => exact ht.get_hit hf

end Tracks

/-! Histories whose keys are renamed. -/
namespace History
variable {κ κ' ν : Type}

def mapKeys (f : κ → κ') (h : History κ ν) : History κ' ν :=
  ⟨h.touches.map (Prod.map f id), h.sets.map (Prod.map f id)⟩

variable [BEq κ] [BEq κ'] {f : κ → κ'} (hf : ∀ a b, (f a == f b) = (a == b))
include hf

theorem distinct_mapKeys (h : History κ ν) :
    (h.mapKeys f).distinct = h.distinct.map (Prod.map f id) := by
  simp only [distinct, mapKeys]
  induction h.touches using eraseDupsBy_induction
    (r := fun a b : κ × ν => a.1 == b.1) with
  | nil => rfl
  | cons e rest ih =>
    rw [List.map_cons, List.eraseDupsBy_cons, List.eraseDupsBy_cons, List.map_cons, ← ih,
      List.filter_map]
    simp only [Function.comp_def, Prod.map_fst, hf]

theorem recent_mapKeys (h : History κ ν) (n : Nat) :
    (h.mapKeys f).recent n = (h.recent n).map (Prod.map f id) := by
  rw [recent, distinct_mapKeys hf, recent, List.map_reverse, List.map_take]

theorem holds_mapKeys (h : History κ ν) (n : Nat) (k : κ) :
    (h.mapKeys f).holds n (f k) = h.holds n k := by
  simp only [holds, recent_mapKeys hf, List.any_map, Function.comp_def, Prod.map_fst, hf]

theorem latest?_mapKeys (h : History κ ν) (k : κ) :
    (h.mapKeys f).latest? (f k) = (h.latest? k).map (Prod.map f id) := by
  simp only [latest?, mapKeys, List.find?_map, Function.comp_def, Prod.map_fst, hf]

theorem lookup?_mapKeys (h : History κ ν) (n : Nat) (k : κ) :
    (h.mapKeys f).lookup? n (f k) = h.lookup? n k := by
  simp only [lookup?, holds_mapKeys hf, latest?_mapKeys hf, Option.map_map, Function.comp_def,
    Prod.map_snd, id]

theorem get_mapKeys (h : History κ ν) (n : Nat) (k : κ) :
    (h.mapKeys f).get n (f k) = (h.get n k).mapKeys f := by
  rw [get, get, holds_mapKeys hf, latest?_mapKeys hf]
  cases h.holds n k with
  | false => rfl
  | true => cases h.latest? k <;> simp [mapKeys]

theorem IsLatest.mapKeys {h : History κ ν} {e : κ × ν} (he : h.IsLatest e) :
    (h.mapKeys f).IsLatest (Prod.map f id e) := by
  obtain ⟨later, earlier, hsets, hlater⟩ := he
  refine ⟨later.map (Prod.map f id), earlier.map (Prod.map f id), ?_, ?_⟩
  · simp [History.mapKeys, hsets]
  · intro x hx
    obtain ⟨y, hy, rfl⟩ := List.mem_map.mp hx
    rw [Prod.map_fst, Prod.map_fst, hf]
    exact hlater y hy

end History

/-! Scripts of operations. -/
namespace Script.CacheSteps

def run (c : Lru Value Value) (ops : List Operation) : Lru Value Value :=
  ops.foldl (fun c op => (op.perform c).1) c

/-- Operations that leave the settings alone, on values that can be keys. -/
def Operation.IsPlain : Operation → Prop
  | .get key | .set key _ | .has key => key.unhashable? = none
  | .len | .clear | .stats => True
  | .configure _ _ => False

def Operation.record (n : Nat) (h : History Value Value) : Operation → History Value Value
  | .get key => h.get n key
  | .set key v => h.set key v
  | .clear => .empty
  | .has _ | .len | .stats | .configure _ _ => h

/-- Operations that only look: they find nothing or look nothing up. -/
def Operation.OnlyLooks (n : Nat) (h : History Value Value) : Operation → Prop
  | .get key => key.unhashable? = none ∧ h.holds n key = false
  | .has _ | .len | .stats => True
  | .set _ _ | .clear | .configure _ _ => False

/-- The history of operations on a new cache with a limit of `n`. -/
def history (n : Nat) (ops : List Operation) : History Value Value :=
  ops.foldl (Operation.record n) .empty

/-- A cache with values as keys has the entries of its history. -/
def Follows (n : Nat) (c : Lru Value Value) (h : History Value Value) : Prop :=
  ∃ (c' : Lru Key Value) (h' : History Key Value),
    Tracks n c' h' ∧ c = c'.mapKeys Subtype.val ∧ h = h'.mapKeys Subtype.val

theorem val_beq (a b : Key) : (a.1 == b.1) = (a == b) := rfl

/-! Operations on a cache whose keys can be keys. -/
section mapKeys
variable (c : Lru Key Value) {key : Value} (hk : key.unhashable? = none)
include hk

theorem getKey_mapKeys : (c.mapKeys Subtype.val).getKey key =
    ((c.get ⟨key, hk⟩).1.mapKeys Subtype.val, .ok (c.get ⟨key, hk⟩).2) := by
  rw [Lru.getKey_eq hk, Lru.get_mapKeys val_beq c ⟨key, hk⟩]

theorem perform_get_mapKeys : ((Operation.get key).perform (c.mapKeys Subtype.val)).1 =
    (c.get ⟨key, hk⟩).1.mapKeys Subtype.val := by
  rw [Operation.perform, getKey_mapKeys c hk]

theorem perform_set_mapKeys (v : Value) :
    ((Operation.set key v).perform (c.mapKeys Subtype.val)).1 =
      (c.set ⟨key, hk⟩ v).1.mapKeys Subtype.val := by
  rw [Operation.perform, Lru.setKey_eq hk, Lru.set_mapKeys val_beq c ⟨key, hk⟩]

end mapKeys

namespace Follows
variable {n : Nat} {c : Lru Value Value} {h : History Value Value}

theorem step (hf : Follows n c h) (hn : 0 < n) {op : Operation} (hop : op.IsPlain) :
    Follows n (op.perform c).1 (op.record n h) := by
  obtain ⟨c, h, ht, rfl, rfl⟩ := hf
  cases op with
  | get key =>
    exact ⟨_, _, (ht.get ⟨key, hop⟩).1, perform_get_mapKeys c hop,
      History.get_mapKeys val_beq h n ⟨key, hop⟩⟩
  | set key v =>
    exact ⟨_, _, (ht.set hn ⟨key, hop⟩ v).1, perform_set_mapKeys c hop v, rfl⟩
  | clear => exact ⟨c.clear, .empty, .empty ht.enabled ht.limit, rfl, rfl⟩
  | has key => exact ⟨c, h, ht, rfl, rfl⟩
  | len => exact ⟨c, h, ht, rfl, rfl⟩
  | stats => exact ⟨c, h, ht, rfl, rfl⟩
  | configure maxEntries enabled => exact hop.elim

theorem run (hf : Follows n c h) (hn : 0 < n) {ops : List Operation}
    (hops : ∀ op ∈ ops, op.IsPlain) :
    Follows n (run c ops) (ops.foldl (Operation.record n) h) := by
  induction ops generalizing c h with
  | nil => exact hf
  | cons op ops ih =>
    exact ih (hf.step hn (hops op List.mem_cons_self))
      fun o ho => hops o (List.mem_cons_of_mem _ ho)

theorem entries_eq (hf : Follows n c h) : c.entries = h.recent n := by
  obtain ⟨c, h, ht, rfl, rfl⟩ := hf
  rw [History.recent_mapKeys val_beq, ← ht.entries]
  rfl

theorem isLatest (hf : Follows n c h) : ∀ e ∈ c.entries, h.IsLatest e := by
  obtain ⟨c, h, ht, rfl, rfl⟩ := hf
  intro e he
  obtain ⟨x, hx, rfl⟩ := List.mem_map.mp he
  rw [ht.entries] at hx
  exact (ht.latest x (List.mem_of_mem_take (List.mem_reverse.mp hx))).mapKeys val_beq

theorem get_answer (hf : Follows n c h) {key : Value} (hk : key.unhashable? = none) :
    ((Operation.get key).perform c).2 = .ok ((h.lookup? n key).getD .null) := by
  obtain ⟨c, h, ht, rfl, rfl⟩ := hf
  have hget := congrArg Prod.snd (Lru.get_mapKeys val_beq c ⟨key, hk⟩)
  have hlookup := History.lookup?_mapKeys val_beq h n ⟨key, hk⟩
  rw [Operation.perform, Lru.getKey_eq hk, hlookup, ← (ht.get ⟨key, hk⟩).2]
  exact congrArg (fun found => Except.ok (found.getD Value.null)) hget

theorem entries_of_onlyLooks (hf : Follows n c h) {op : Operation} (hop : op.OnlyLooks n h) :
    (op.perform c).1.entries = c.entries := by
  cases op with
  | get key =>
    obtain ⟨hk, hmiss⟩ := hop
    have hentries : (c.getKey key).1.entries = c.entries := by
      have hfind : c.find? key = none := by
        have hnone : (c.find? key).isSome = false := by
          rw [Lru.find?, hf.entries_eq, List.isSome_find?]
          exact hmiss
        simpa using hnone
      rw [Lru.getKey_eq hk, Lru.get_of_find?_eq_none hfind]
    exact hentries
  | has key => rfl
  | len => rfl
  | stats => rfl
  | set key v => exact hop.elim
  | clear => exact hop.elim
  | configure maxEntries enabled => exact hop.elim

end Follows

/-- After any operations a cache holds the last `n` distinct touched keys in order of their last
touch, each with the value that was set last; a look-up finds exactly these, and operations that
only look change nothing. -/
theorem run_holds_recent (n : Nat) (hn : 0 < n) (ops : List Operation)
    (hops : ∀ op ∈ ops, op.IsPlain) :
    ∃ c, Lru.new ⟨.int n, .bool true⟩ = .ok c ∧
      (run c ops).entries = (history n ops).recent n ∧
      (∀ e ∈ (run c ops).entries, (history n ops).IsLatest e) ∧
      (∀ key, key.unhashable? = none →
        ((Operation.get key).perform (run c ops)).2 =
          .ok (((history n ops).lookup? n key).getD .null)) ∧
      ∀ op : Operation, op.OnlyLooks n (history n ops) →
        (op.perform (run c ops)).1.entries = (run c ops).entries := by
  have hnew : Lru.new ⟨.int n, .bool true⟩ =
      .ok (Lru.empty ⟨.int n, .bool true⟩ : Lru Value Value) := by
    have hpos : (0 : Int) < n := by omega
    simp only [Lru.new, CacheSettings.validate, CacheSettings.wholeLimit?, hpos, if_true]
    rfl
  have hstart : Follows n (Lru.empty ⟨.int n, .bool true⟩) .empty := by
    have hempty : (History.empty : History Key Value).distinct = [] := rfl
    refine ⟨Lru.empty ⟨.int n, .bool true⟩, .empty, ⟨rfl, CacheSettings.hasLimit_int n _, ?_, ?_⟩,
      rfl, rfl⟩
    · simp [Lru.empty, History.recent, hempty]
    · simp [hempty]
  have hend := hstart.run hn hops
  exact ⟨_, hnew, hend.entries_eq, hend.isLatest, fun key hk => hend.get_answer hk,
    fun op hop => hend.entries_of_onlyLooks hop⟩

/-- In a cache of two entries, finding the key `1` as true saves it from eviction. -/
theorem run_holds_recent_number_as_truth_value :
    let ops : List Operation :=
      [.set (.int 1) (.int 10), .set (.int 2) (.int 20), .get (.bool true), .set (.int 3) .null]
    (∀ op ∈ ops, op.IsPlain) ∧
      ∃ c, Lru.new ⟨.int 2, .bool true⟩ = .ok c ∧
        (run c ops).entries = [(.int 1, .int 10), (.int 3, .null)] := by
  have hops : ∀ op ∈ [Operation.set (.int 1) (.int 10), .set (.int 2) (.int 20),
      .get (.bool true), .set (.int 3) .null], op.IsPlain := by
    simp [Operation.IsPlain, Value.unhashable?]
  obtain ⟨c, hnew, hentries, -⟩ := run_holds_recent 2 (by decide) _ hops
  exact ⟨hops, c, hnew, hentries.trans (by with_unfolding_all rfl)⟩

end Script.CacheSteps
end FileChecks
