import Mathlib.Data.Nat.ModEq
import Mathlib.Order.Monotone.Basic

/-!
# Scaling a range of numbers onto a smaller one

A number below `size` is scaled to one below `n` by a product and a quotient. The numbers with one
value are an interval, which starts at the first number whose value is as large.

## Main definitions

* `Scale.scale`, `Scale.first` — the value of a number, and the first number with a value.

## Main results

* `Scale.scale_eq_iff` — the numbers with one value.
* `Scale.first_succ` — how many there are, up to one.
-/

namespace Scale

variable {size n u v : ℕ}

/-- The value of a number. -/
def scale (size n u : ℕ) : ℕ := u * n / size

/-- The first number with at least the value `v`. -/
def first (size n v : ℕ) : ℕ := (v * size + (n - 1)) / n

lemma scale_mono : Monotone (scale size n) :=
  fun _ _ h => Nat.div_le_div_right (Nat.mul_le_mul_right n h)

lemma scale_lt (hu : u < size) (hn : 0 < n) : scale size n u < n :=
  Nat.div_lt_of_lt_mul (Nat.mul_lt_mul_of_pos_right hu hn)

lemma le_scale_iff (hsize : 0 < size) (hn : 0 < n) : v ≤ scale size n u ↔ first size n v ≤ u := by
  rw [scale, first, Nat.le_div_iff_mul_le hsize, ← Nat.lt_succ_iff (n := u),
    Nat.div_lt_iff_lt_mul hn,
    Nat.succ_mul]
  omega

/-- **The numbers with one value** are those from the first one up to the first of the next
value. -/
lemma scale_eq_iff (hsize : 0 < size) (hn : 0 < n) :
    scale size n u = v ↔ first size n v ≤ u ∧ u < first size n (v + 1) := by
  rw [← le_scale_iff hsize hn, ← not_le, ← le_scale_iff hsize hn]
  omega

/-- **How many numbers have one value.** It is the quotient of the sizes, or one more. -/
lemma first_succ (v : ℕ) :
    first size n v + size / n ≤ first size n (v + 1) ∧
      first size n (v + 1) ≤ first size n v + size / n + 1 := by
  have hsum : (v + 1) * size + (n - 1) = v * size + (n - 1) + size := by
    rw [Nat.succ_mul]
    omega
  rw [first, first, hsum]
  exact ⟨Nat.div_add_div_le_add_div, Nat.add_div_le_div_add_div_add_one _ _ _⟩

lemma first_le (hn : 0 < n) (hv : v ≤ n) : first size n v ≤ size := by
  have hmul : v * size ≤ n * size := Nat.mul_le_mul_right size hv
  rw [first, ← Nat.lt_succ_iff, Nat.div_lt_iff_lt_mul hn, Nat.succ_mul, Nat.mul_comm size n]
  omega

lemma first_lt (hn : 0 < n) (hle : n ≤ size) (hv : v < n) : first size n v < size := by
  have hquot : 1 ≤ size / n := Nat.div_pos hle hn
  have hnext := (@first_succ size n v).1
  have hend : first size n (v + 1) ≤ size := first_le hn hv
  omega

/-- Every value has a number. -/
lemma scale_first (hn : 0 < n) (hle : n ≤ size) : scale size n (first size n v) = v := by
  have hquot : 1 ≤ size / n := Nat.div_pos hle hn
  have hnext := (@first_succ size n v).1
  exact (scale_eq_iff (hn.trans_le hle) hn).2 ⟨le_rfl, by omega⟩

end Scale
