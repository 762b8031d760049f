import FileChecks.Value.Basic

/-! What is nested in a description through lists. -/
namespace FileChecks

def Value.items : Value → List Value
  | .list items | .tuple items => items
  | _ => []

/-- A value is nested in a description through lists. -/
inductive Within (v : Value) : Value → Prop
  | self : Within v v
  | item {item check : Value} : item ∈ check.items → Within v item → Within v check

/-- Something holds of a description and of everything nested in it. -/
def Everywhere (p : Value → Prop) (check : Value) : Prop := ∀ v, Within v check → p v

theorem everywhere_iff {p : Value → Prop} {check : Value} :
    Everywhere p check ↔ p check ∧ ∀ item ∈ check.items, Everywhere p item := by
  constructor
  · intro h
    exact ⟨h check .self, fun item hitem v hv => h v (.item hitem hv)⟩
  · rintro ⟨hself, hitems⟩ v hv
    cases hv with
    | self => exact hself
    | item hitem hv => exact hitems _ hitem v hv

end FileChecks
