import FileChecks.Log.Registry

/-!
What is written and what cannot be. A failure that tells a number that is too long to be written
gives way to the failure to write it, and so does a message.
-/
namespace FileChecks

/-- The least number that is too long to be written. -/
def Numeral.tooLong : Int := Int.ofNat (Binary64.tenPow maxDigits)

theorem Numeral.isWritable_tooLong : isWritable tooLong = false := by decide +kernel

namespace Failure
variable {f : Failure}

theorem raised_of_isWritable (h : f.isWritable = true) : f.raised = f := if_pos h

theorem raised_of_not_isWritable (h : f.isWritable = false) : f.raised = unwritable := by
  unfold raised
  rw [h]
  rfl

theorem raised_cases (f : Failure) :
    f.isWritable = true ∧ f.raised = f ∨ f.isWritable = false ∧ f.raised = unwritable := by
  cases h : f.isWritable with
  | true => exact Or.inl ⟨rfl, raised_of_isWritable h⟩
  | false => exact Or.inr ⟨rfl, raised_of_not_isWritable h⟩

/-- What is raised can be written. -/
theorem isWritable_raised (f : Failure) : f.raised.isWritable = true := by
  rcases f.raised_cases with ⟨hf, hraised⟩ | ⟨-, hraised⟩
  · rw [hraised, hf]
  · rw [hraised]
    rfl

end Failure

/-! Contexts. -/

namespace Assoc
variable {κ ν : Type} [BEq κ] {p : ν → Prop} {m later : List (κ × ν)}

theorem forall_put (hm : ∀ e ∈ m, p e.2) (key : κ) {v : ν} (hv : p v) :
    ∀ e ∈ put m key v, p e.2 := by
  induction m with
  | nil => exact List.forall_mem_singleton.mpr hv
  | cons entry rest ih =>
    obtain ⟨hentry, hrest⟩ := List.forall_mem_cons.mp hm
    rw [put]
    split
    · exact List.forall_mem_cons.mpr ⟨hv, hrest⟩
    · exact List.forall_mem_cons.mpr ⟨hentry, ih hrest⟩

theorem forall_update (hm : ∀ e ∈ m, p e.2) (hlater : ∀ e ∈ later, p e.2) :
    ∀ e ∈ update m later, p e.2 := by
  induction later generalizing m with
  | nil => exact hm
  | cons entry rest ih =>
    obtain ⟨hentry, hrest⟩ := List.forall_mem_cons.mp hlater
    exact ih (forall_put hm entry.1 hentry) hrest

end Assoc

namespace Context
variable {c later : Context} {contexts : List Context}

theorem isWritable_update (hc : c.isWritable = true) (hlater : later.isWritable = true) :
    (c.update later).isWritable = true := by
  unfold isWritable at *
  rw [List.all_eq_true] at *
  exact Assoc.forall_update (p := fun v : Value => v.isWritable = true) hc hlater

theorem isWritable_merge (h : ∀ c ∈ contexts, c.isWritable = true) :
    (merge contexts).isWritable = true := by
  have hfold : ∀ first : Context, first.isWritable = true →
      (contexts.foldl update first).isWritable = true := by
    induction contexts with
    | nil => exact fun _ hfirst => hfirst
    | cons c rest ih =>
      obtain ⟨hc, hrest⟩ := List.forall_mem_cons.mp h
      exact fun first hfirst => ih hrest _ (isWritable_update hfirst hc)
  exact hfold [] rfl

end Context

namespace Registry
variable {r : Registry} {channel text : String} {severity severity' : Severity} {own : Context}

def WritesContexts (r : Registry) : Prop := ∀ c ∈ r.contexts, c.isWritable = true

theorem isWritable_contextOf (hr : r.WritesContexts) (hown : own.isWritable = true) :
    (r.contextOf own).isWritable = true := by
  have hmerged := Context.isWritable_merge fun c hc => hr c (List.mem_reverse.mp hc)
  exact Context.isWritable_update hmerged hown

theorem message?_of_not_passes (h : r.passes channel severity.rank = false) :
    r.message? channel severity text own = .ok none := by
  unfold message?
  rw [h]
  rfl

theorem message?_of_passes (h : r.passes channel severity.rank = true) :
    r.message? channel severity text own =
      ((r.contextOf own).render text).map fun t => some ⟨severity, channel, t⟩ := by
  unfold message?
  rw [if_pos h]
  cases (r.contextOf own).render text <;> rfl

/-- A channel that lets a message pass lets all more severe ones pass. -/
theorem passes_of_le (h : r.passes channel severity.rank = true)
    (hle : severity.rank ≤ severity'.rank) : r.passes channel severity'.rank = true := by
  unfold passes at *
  simp only [Bool.and_eq_true, decide_eq_true_eq] at *
  omega

end Registry
end FileChecks
