import Mathlib.Tactic.Common

/-!
# Fallible computations

Inversion rules for computations in `Except`: a sequence of steps that succeeded is taken apart
into the steps that did.

## Main results

* `Fallible.map_eq_ok` — what a success went through.
-/

namespace Fallible

variable {ε α β : Type*}

lemma map_eq_ok {x : Except ε α} {f : α → β} {b : β} :
    x.map f = .ok b ↔ ∃ a, x = .ok a ∧ f a = b := by
  cases x with
  | error e => simp [Except.map]
  | ok a => simp [Except.map]

end Fallible
