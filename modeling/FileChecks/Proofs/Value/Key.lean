import FileChecks.Value.Equality
import Mathlib.Data.Rat.Lemmas
import Mathlib.Tactic.FieldSimp

/-!
Values as keys. Each value that can be a key has a form, and two of them are equal exactly if they
have the same one. A value that equals nothing, not even itself, has no form.
-/
namespace FileChecks

/-- Form of a key. A number of any type is its value. -/
inductive KeyForm
  | null
  | missing
  | text (s : String)
  | bytes (bs : List UInt8)
  | number (q : ℚ)
  | infinite (negative : Bool)
  | tuple (items : List KeyForm)
  | affix (starting ending : KeyForm)
  | anyFile
  | name (s : String)
  | glob (text : String)

namespace Binary64

def keyForm? : Binary64 → Option KeyForm
  | .infinite negative => some (.infinite negative)
  | x => x.ratio?.map fun (n, d) => .number (n / d)

theorem ratio?_pos {x : Binary64} {n : Int} {d : Nat} (h : x.ratio? = some (n, d)) : 0 < d := by
  cases x with
  | nan => simp [ratio?] at h
  | infinite negative => simp [ratio?] at h
  | finite negative m e =>
    simp only [ratio?, scaled, Option.some.injEq, Prod.mk.injEq] at h
    obtain ⟨-, rfl⟩ := h
    split <;> simp [twoPow]

theorem div_eq_div_iff_cross (n n' : Int) {d d' : Nat} (hd : 0 < d) (hd' : 0 < d') :
    (n / d : ℚ) = n' / d' ↔ n * d' = n' * d := by
  have hq : (d : ℚ) ≠ 0 := by exact_mod_cast hd.ne'
  have hq' : (d' : ℚ) ≠ 0 := by exact_mod_cast hd'.ne'
  rw [div_eq_div_iff hq hq']
  exact_mod_cast Iff.rfl

theorem keyForm?_eq_some_iff (x : Binary64) (c : KeyForm) :
    x.keyForm? = some c ↔
      (∃ negative, x = .infinite negative ∧ c = .infinite negative) ∨
        ∃ n d, x.ratio? = some (n, d) ∧ c = .number (n / d) := by
  cases x with
  | nan => simp [keyForm?, ratio?]
  | infinite negative => simp [keyForm?, ratio?, eq_comm]
  | finite negative m e => simp [keyForm?, ratio?, eq_comm]

theorem sameInt_iff (x : Binary64) (i : Int) :
    x.sameInt i = true ↔ x.keyForm? = some (.number i) := by
  rw [keyForm?_eq_some_iff]
  cases h : x.ratio? with
  | none => simp [sameInt, h]
  | some r =>
    obtain ⟨n, d⟩ := r
    have hcross := div_eq_div_iff_cross n i (ratio?_pos h) one_pos
    simp only [Nat.cast_one, div_one, mul_one] at hcross
    simpa [sameInt, h] using hcross.symm.trans eq_comm

theorem same_iff (x y : Binary64) :
    x.same y = true ↔ ∃ c, x.keyForm? = some c ∧ y.keyForm? = some c := by
  cases x with
  | nan => simp [same, keyForm?, ratio?]
  | infinite a =>
    cases y with
    | nan => simp [same, keyForm?, ratio?]
    | infinite b => simpa [same, keyForm?] using eq_comm
    | finite negative m e => simp [same, keyForm?, ratio?]
  | finite negative m e =>
    cases y with
    | nan => simp [same, keyForm?, ratio?]
    | infinite b => simp [same, keyForm?, ratio?]
    | finite negative' m' e' =>
      obtain ⟨⟨n, d⟩, hx⟩ : ∃ r, (finite negative m e).ratio? = some r := ⟨_, rfl⟩
      obtain ⟨⟨n', d'⟩, hy⟩ : ∃ r, (finite negative' m' e').ratio? = some r := ⟨_, rfl⟩
      have hcross := div_eq_div_iff_cross n n' (ratio?_pos hx) (ratio?_pos hy)
      simpa [same, keyForm?, hx, hy] using hcross.symm.trans eq_comm

end Binary64

/-- Only assertions of every file and of path checks are equal to others. -/
def Assertion.keyForm? : Assertion → Option KeyForm
  | .anyFile => some .anyFile
  | .name s => some (.name s)
  | .glob p => some (.glob p.text)
  | _ => none

theorem Assertion.keyForm?_eq_some_iff (a : Assertion) (c : KeyForm) :
    a.keyForm? = some c ↔
      (a = .anyFile ∧ c = .anyFile) ∨ (∃ s, a = .name s ∧ c = .name s) ∨
        ∃ p, a = .glob p ∧ c = .glob p.text := by
  cases a <;> simp [keyForm?, eq_comm]

namespace Value

mutual

def keyForm? : Value → Option KeyForm
  | .null => some .null
  | .missing => some .missing
  | .text s => some (.text s)
  | .bytes bs => some (.bytes bs)
  | .float x => x.keyForm?
  | .int i => some (.number i)
  | .bool b => some (.number b.toInt)
  | .tuple items => (keyForms? items).map .tuple
  | .affix a b => do
    let starting ← keyForm? a
    let ending ← keyForm? b
    some (.affix starting ending)
  | .assertion a => a.keyForm?
  | _ => none

def keyForms? : List Value → Option (List KeyForm)
  | [] => some []
  | v :: rest => do
    let first ← keyForm? v
    let others ← keyForms? rest
    some (first :: others)

end

/-- Two pairs of parts agree exactly if their joins do. -/
theorem exists_join_iff {α β γ : Type} {f : α → β → γ}
    (hf : ∀ a b a' b', f a b = f a' b' ↔ a = a' ∧ b = b') (x x' : Option α) (y y' : Option β) :
    (∃ c, (x.bind fun a => y.bind fun b => some (f a b)) = some c ∧
        (x'.bind fun a => y'.bind fun b => some (f a b)) = some c) ↔
      (∃ a, x = some a ∧ x' = some a) ∧ ∃ b, y = some b ∧ y' = some b := by
  cases x <;> cases x' <;> cases y <;> cases y' <;> simp [hf]

theorem sameAssertion_iff (a b : Assertion) :
    same (.assertion a) (.assertion b) = true ↔
      ∃ c, a.keyForm? = some c ∧ b.keyForm? = some c := by
  cases a <;> cases b <;> simp [same, sameAtom, Assertion.keyForm?] <;> exact eq_comm

mutual

/-- Keys are equal exactly if they have the same form. -/
theorem same_iff (a b : Value) (ha : a.unhashable? = none) (hb : b.unhashable? = none) :
    a.same b = true ↔ ∃ c, a.keyForm? = some c ∧ b.keyForm? = some c := by
  cases a with
  | tuple xs =>
    cases b with
    | tuple ys =>
      have h := sameItems_iff xs ys (by simpa [unhashable?] using ha)
        (by simpa [unhashable?] using hb)
      simp [same, keyForm?, h]
    | _ =>
      simp [same, sameAtom, keyForm?, Binary64.keyForm?_eq_some_iff,
        Assertion.keyForm?_eq_some_iff, Option.bind_eq_some_iff]
  | affix a a' =>
    cases b with
    | affix b b' =>
      have h := same_iff a b (by grind [unhashable?]) (by grind [unhashable?])
      have h' := same_iff a' b' (by grind [unhashable?]) (by grind [unhashable?])
      simp only [same, Bool.and_eq_true, h, h', keyForm?]
      exact (exists_join_iff (by simp) ..).symm
    | _ =>
      simp [same, sameAtom, keyForm?, Binary64.keyForm?_eq_some_iff,
        Assertion.keyForm?_eq_some_iff, Option.bind_eq_some_iff]
  | assertion x =>
    cases b with
    | assertion y => exact sameAssertion_iff x y
    | float y =>
      cases x <;>
        simp [same, sameAtom, keyForm?, Assertion.keyForm?, Binary64.keyForm?_eq_some_iff]
    | _ =>
      simp [same, sameAtom, keyForm?, Assertion.keyForm?_eq_some_iff, Option.bind_eq_some_iff]
  | float x =>
    cases b with
    | float y => simpa [same, sameAtom, keyForm?] using Binary64.same_iff x y
    | int j => simpa [same, sameAtom, keyForm?] using Binary64.sameInt_iff x j
    | bool c => simpa [same, sameAtom, keyForm?] using Binary64.sameInt_iff x c.toInt
    | assertion y =>
      cases y <;>
        simp [same, sameAtom, keyForm?, Assertion.keyForm?, Binary64.keyForm?_eq_some_iff]
    | _ => simp [same, sameAtom, keyForm?, Binary64.keyForm?_eq_some_iff, Option.bind_eq_some_iff]
  | int i =>
    cases b with
    | float y => simpa [same, sameAtom, keyForm?] using Binary64.sameInt_iff y i
    | int j => simpa [same, sameAtom, keyForm?] using eq_comm
    | bool c => simpa [same, sameAtom, keyForm?] using eq_comm
    | _ =>
      simp [same, sameAtom, keyForm?, Assertion.keyForm?_eq_some_iff, Option.bind_eq_some_iff]
  | bool d =>
    cases b with
    | float y => simpa [same, sameAtom, keyForm?] using Binary64.sameInt_iff y d.toInt
    | int j => simp [same, sameAtom, keyForm?]
    | bool c => cases d <;> cases c <;> simp [same, sameAtom, keyForm?]
    | _ =>
      simp [same, sameAtom, keyForm?, Assertion.keyForm?_eq_some_iff, Option.bind_eq_some_iff]
  | text s =>
    cases b with
    | text t => simpa [same, sameAtom, keyForm?] using eq_comm
    | _ =>
      simp [same, sameAtom, keyForm?, Binary64.keyForm?_eq_some_iff,
        Assertion.keyForm?_eq_some_iff, Option.bind_eq_some_iff]
  | bytes bs =>
    cases b with
    | bytes cs => simpa [same, sameAtom, keyForm?] using eq_comm
    | buffer cs => simp [unhashable?] at hb
    | _ =>
      simp [same, sameAtom, keyForm?, Binary64.keyForm?_eq_some_iff,
        Assertion.keyForm?_eq_some_iff, Option.bind_eq_some_iff]
  | null | missing | stub | predicate _ _ =>
    cases b <;>
      simp [same, sameAtom, keyForm?, Binary64.keyForm?_eq_some_iff,
        Assertion.keyForm?_eq_some_iff, Option.bind_eq_some_iff]
  | list _ | set _ | map _ | object _ | buffer _ => simp [unhashable?] at ha

theorem sameItems_iff (xs ys : List Value) (ha : unhashableItem? xs = none)
    (hb : unhashableItem? ys = none) :
    sameItems xs ys = true ↔ ∃ c, keyForms? xs = some c ∧ keyForms? ys = some c := by
  cases xs with
  | nil => cases ys <;> simp [sameItems, keyForms?, Option.bind_eq_some_iff]
  | cons x xs =>
    cases ys with
    | nil => simp [sameItems, keyForms?, Option.bind_eq_some_iff]
    | cons y ys =>
      have h := same_iff x y (by grind [unhashableItem?]) (by grind [unhashableItem?])
      have h' := sameItems_iff xs ys (by grind [unhashableItem?]) (by grind [unhashableItem?])
      simp only [sameItems, Bool.and_eq_true, h, h', keyForms?]
      exact (exists_join_iff (by simp) ..).symm

end

end Value

abbrev Key := { v : Value // v.unhashable? = none }

instance : PartialEquivBEq Key where
  symm {a b} h := by
    obtain ⟨c, ha, hb⟩ := (Value.same_iff a.1 b.1 a.2 b.2).mp h
    exact (Value.same_iff b.1 a.1 b.2 a.2).mpr ⟨c, hb, ha⟩
  trans {a b d} h h' := by
    obtain ⟨c, ha, hb⟩ := (Value.same_iff a.1 b.1 a.2 b.2).mp h
    obtain ⟨c', hb', hd⟩ := (Value.same_iff b.1 d.1 b.2 d.2).mp h'
    have hc : c = c' := Option.some.inj (hb.symm.trans hb')
    exact (Value.same_iff a.1 d.1 a.2 d.2).mpr ⟨c, ha, hc ▸ hd⟩

end FileChecks
