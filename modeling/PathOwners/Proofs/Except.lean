import Mathlib.Logic.Basic

/-!
# Results

When a computation that may fail gives a result, said of its parts.
-/

namespace PathOwners

theorem Except.map_eq_ok_iff {ε α β : Type} {f : α → β} {x : Except ε α} {b : β} :
    x.map f = .ok b ↔ ∃ a, x = .ok a ∧ f a = b := by
  cases x <;> simp [Except.map]

theorem Except.map_map {ε α β γ : Type} (f : α → β) (g : β → γ) (x : Except ε α) :
    (x.map f).map g = x.map fun a => g (f a) := by cases x <;> rfl

theorem Except.map_bind {ε α β γ : Type} (f : α → β) (g : β → Except ε γ) (x : Except ε α) :
    (x.map f).bind g = x.bind fun a => g (f a) := by cases x <;> rfl

theorem Except.bind_assoc {ε α β γ : Type} (f : α → Except ε β) (g : β → Except ε γ) (x : Except ε α) :
    (x.bind f).bind g = x.bind fun a => (f a).bind g := by cases x <;> rfl

theorem Except.bind_eq_ok_iff {ε α β : Type} {f : α → Except ε β} {x : Except ε α} {b : β} :
    x.bind f = .ok b ↔ ∃ a, x = .ok a ∧ f a = .ok b := by
  cases x <;> simp [Except.bind]

theorem Except.mapError_ok {ε ε' α : Type} (f : ε → ε') (a : α) : (Except.ok a).mapError f = .ok a := rfl

end PathOwners
