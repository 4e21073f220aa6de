import Mathlib.Algebra.Order.BigOperators.Group.List
import Mathlib.Algebra.Order.Monoid.Canonical.Defs

/-!
# Budgets over sliding windows

A log of weighted instants keeps a budget over every window of a length if each entry, when it was
added, kept it over the window that ends with it.

## Main definitions

* `Budget.weight` — the weight of the entries at given instants.
* `Budget.within` — the weight in the window from an instant on.
* `Budget.recent` — the weight in the window up to an instant.

## Main results

* `Budget.within_concat_le` — one more entry keeps the budget over every window.
-/

namespace Budget

variable {M : Type*} [AddCommMonoid M] [PartialOrder M] [IsOrderedAddMonoid M]
  [CanonicallyOrderedAdd M]

/-- The weight of the entries at the instants that pass. -/
def weight {M : Type*} [AddCommMonoid M] (p : ℕ → Bool) (log : List (ℕ × M)) : M :=
  ((log.filter fun e => p e.1).map Prod.snd).sum

/-- The weight in the window of length `W` from `a` on. -/
def within {M : Type*} [AddCommMonoid M] (W a : ℕ) (log : List (ℕ × M)) : M :=
  weight (fun t => decide (a ≤ t) && decide (t < a + W)) log

/-- The weight in the window of length `W` up to `now`. -/
def recent {M : Type*} [AddCommMonoid M] (W now : ℕ) (log : List (ℕ × M)) : M :=
  weight (fun t => decide (now < t + W)) log

omit [PartialOrder M] [IsOrderedAddMonoid M] [CanonicallyOrderedAdd M] in
lemma weight_concat (p : ℕ → Bool) (log : List (ℕ × M)) (t : ℕ) (w : M) :
    weight p (log ++ [(t, w)]) = weight p log + if p t then w else 0 := by
  unfold weight
  rw [List.filter_append, List.map_append, List.sum_append]
  cases h : p t <;> simp [h]

/-- More instants weigh more. -/
lemma weight_mono {p q : ℕ → Bool} {log : List (ℕ × M)}
    (h : ∀ e ∈ log, p e.1 = true → q e.1 = true) : weight p log ≤ weight q log := by
  unfold weight
  induction log with
  | nil => exact le_rfl
  | cons e log ih =>
    have ih := ih fun e he => h e (List.mem_cons_of_mem _ he)
    have he := h e (List.mem_cons_self ..)
    rw [List.filter_cons, List.filter_cons]
    cases hp : p e.1 with
    | false =>
      rw [if_neg Bool.false_ne_true]
      cases hq : q e.1 with
      | false => rwa [if_neg Bool.false_ne_true]
      | true =>
        rw [if_pos rfl, List.map_cons, List.sum_cons]
        exact ih.trans le_add_self
    | true =>
      rw [if_pos rfl, if_pos (he hp), List.map_cons, List.map_cons, List.sum_cons, List.sum_cons]
      exact add_le_add le_rfl ih

/-- **One more entry** that keeps the budget over the window up to it keeps it over every
window. -/
lemma within_concat_le {W : ℕ} {B w : M} {log : List (ℕ × M)} {t : ℕ}
    (h : ∀ a, within W a log ≤ B) (hnew : recent W t log + w ≤ B) (a : ℕ) :
    within W a (log ++ [(t, w)]) ≤ B := by
  have hold := h a
  unfold within at hold ⊢
  rw [weight_concat]
  split_ifs with hin
  · -- what lies in the window with the new entry is recent at the new entry
    rw [Bool.and_eq_true, decide_eq_true_eq, decide_eq_true_eq] at hin
    refine le_trans (add_le_add (weight_mono fun e _ he => ?_) le_rfl) hnew
    rw [Bool.and_eq_true, decide_eq_true_eq, decide_eq_true_eq] at he
    exact decide_eq_true (by omega)
  · rwa [add_zero]

end Budget
