import Mathlib.Data.Nat.Init
import Mathlib.Order.Basic

/-!
# Loops that count down

A loop takes a step as long as there is one, and every step lowers a measure of the state. The
measure is the fuel, so the loop is total and always ends in a state without a step.

## Main definitions

* `Loop` — a partial step together with the measure it lowers.
* `Loop.run` — the state the loop ends in.

## Main results

* `Loop.step_run` — the loop ends where there is no step.
* `Loop.run_induction` — what every step preserves holds at the end.
-/

/-- A partial step that lowers a measure. -/
structure Loop (σ : Type*) where
  /-- One step, `none` where the loop ends. -/
  step : σ → Option σ
  /-- How many steps are left at most. -/
  measure : σ → ℕ
  /-- Every step lowers the measure. -/
  measure_lt : ∀ {s t : σ}, step s = some t → measure t < measure s

namespace Loop

variable {σ : Type*} (l : Loop σ)

/-- At most `n` steps. -/
def steps : ℕ → σ → σ
  | 0, s => s
  | n + 1, s =>
    match l.step s with
    | none => s
    | some t => steps n t

/-- All the steps there are. -/
def run (s : σ) : σ := l.steps (l.measure s) s

/-! ## Unfolding -/

/-- Fuel beyond the measure changes nothing. -/
lemma steps_eq_steps {n : ℕ} : ∀ {m : ℕ} {s : σ}, l.measure s ≤ n → l.measure s ≤ m →
    l.steps n s = l.steps m s := by
  induction n with
  | zero =>
    intro m s hn _
    cases m with
    | zero => rfl
    | succ m =>
      cases hs : l.step s with
      | none => simp only [steps, hs]
      | some t =>
        have hlt := l.measure_lt hs
        omega
  | succ n ih =>
    intro m s hn hm
    cases hs : l.step s with
    | none => cases m <;> simp only [steps, hs]
    | some t =>
      have hlt := l.measure_lt hs
      obtain ⟨k, rfl⟩ : ∃ k, m = k + 1 := ⟨m - 1, by omega⟩
      simp only [steps, hs]
      exact ih (by omega) (by omega)

lemma run_of_none {s : σ} (h : l.step s = none) : l.run s = s := by
  unfold run
  cases l.measure s <;> simp only [steps, h]

lemma run_of_some {s t : σ} (h : l.step s = some t) : l.run s = l.run t := by
  have hlt := l.measure_lt h
  calc l.run s = l.steps (l.measure s - 1 + 1) s := l.steps_eq_steps (Nat.le_refl _) (by omega)
    _ = l.steps (l.measure s - 1) t := by simp only [steps, h]
    _ = l.run t := l.steps_eq_steps (by omega) (Nat.le_refl _)

/-! ## Induction -/

/-- **Loop induction.** A relation between the states before and after the loop holds once it holds
where the loop is over and each step carries it backwards. -/
lemma induction {R : σ → σ → Prop} (hdone : ∀ s, l.step s = none → R s s)
    (hstep : ∀ s t, l.step s = some t → R t (l.run t) → R s (l.run t)) (s : σ) :
    R s (l.run s) := by
  generalize hn : l.measure s = n
  induction n using Nat.strong_induction_on generalizing s with
  | _ n ih =>
    cases hs : l.step s with
    | none =>
      rw [l.run_of_none hs]
      exact hdone s hs
    | some t =>
      rw [l.run_of_some hs]
      exact hstep s t hs (ih (l.measure t) (hn ▸ l.measure_lt hs) t rfl)

@[simp]
lemma step_run (s : σ) : l.step (l.run s) = none :=
  l.induction (R := fun _ u => l.step u = none) (fun _ h => h) (fun _ _ _ h => h) s

lemma run_induction {P : σ → Prop} (hstep : ∀ s t, l.step s = some t → P s → P t) {s : σ}
    (hs : P s) : P (l.run s) :=
  l.induction (R := fun s u => P s → P u) (fun _ _ h => h)
    (fun s t h ih hp => ih (hstep s t h hp)) s hs

lemma run_eq {α : Type*} {f : σ → α} (hstep : ∀ s t, l.step s = some t → f t = f s) (s : σ) :
    f (l.run s) = f s :=
  l.induction (R := fun s u => f u = f s) (fun _ _ => rfl)
    (fun s t h ih => ih.trans (hstep s t h)) s

/-! ## Two loops -/

end Loop
