/-!
# How a JSON text can be rejected

A text is read from left to right, and the first fault that is met decides.
-/

namespace HierarchyAccessors.Json

/-- Why a text is rejected. -/
inductive Fault
  /-- The text stops before the value is complete. -/
  | ended
  /-- The text breaks the grammar, or a limit of the format. -/
  | malformed
  /-- The text is well formed but does not say what is wanted. -/
  | unfit
deriving DecidableEq

/-- Two steps succeed when the first does, and the second on its result. -/
theorem bind_eq_ok_iff {ε α β : Type} {x : Except ε α} {f : α → Except ε β} {b : β} :
    (x >>= f) = .ok b ↔ ∃ a, x = .ok a ∧ f a = .ok b := by
  cases x <;> simp [bind, Except.bind]

theorem map_eq_ok_iff {ε α β : Type} {x : Except ε α} {f : α → β} {b : β} :
    x.map f = .ok b ↔ ∃ a, x = .ok a ∧ f a = b := by
  cases x <;> simp [Except.map]

end HierarchyAccessors.Json
