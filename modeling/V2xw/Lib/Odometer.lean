import Mathlib.Algebra.BigOperators.Group.List.Basic
import Mathlib.Algebra.Order.BigOperators.Group.List
import Mathlib.Data.List.Lex

/-!
# Odometers

An odometer has a wheel for each of some radices. Its reading for a number is found from the last
wheel on: the digit is the remainder by the radix, and the quotient is left for the wheels before
it. Counting up, the readings are the tuples of valid digits in lexicographic order.

## Main definitions

* `Odometer.digits` — the reading for a number.
* `Odometer.Valid` — a digit below its radix for each wheel.

## Main results

* `Odometer.pairwise_digits` — counting up, the readings ascend.
* `Odometer.mem_map_digits` — counting up, each tuple of valid digits is read.
-/

namespace Odometer

/-- One wheel turned: what is left of the number, and one digit more. -/
def turn (radix : ℕ) (acc : ℕ × List ℕ) : ℕ × List ℕ := (acc.1 / radix, acc.1 % radix :: acc.2)

/-- The reading of an odometer. -/
def digits (radices : List ℕ) (n : ℕ) : List ℕ := (radices.foldr turn (n, [])).2

/-- Each digit is below its radix. -/
def Valid (ds radices : List ℕ) : Prop := List.Forall₂ (· < ·) ds radices

lemma fst_foldr_turn (radices : List ℕ) (n : ℕ) :
    (radices.foldr turn (n, [])).1 = n / radices.prod := by
  induction radices with
  | nil => exact (Nat.div_one n).symm
  | cons r rs ih => rw [List.foldr_cons, turn, ih, List.prod_cons, Nat.div_div_eq_div_mul, mul_comm]

lemma digits_cons (r : ℕ) (rs : List ℕ) (n : ℕ) :
    digits (r :: rs) n = n / rs.prod % r :: digits rs n := by
  rw [digits, List.foldr_cons, turn, fst_foldr_turn]
  rfl

lemma digits_mod (radices : List ℕ) (n : ℕ) : digits radices (n % radices.prod) =
    digits radices n := by
  induction radices generalizing n with
  | nil => rfl
  | cons r rs ih =>
    have hmod : n % (r * rs.prod) % rs.prod = n % rs.prod := Nat.mod_mul_left_mod n r rs.prod
    have hdiv : n % (r * rs.prod) / rs.prod = n / rs.prod % r := by
      rw [mul_comm, Nat.mod_mul_right_div_self]
    rw [List.prod_cons, digits_cons, digits_cons, hdiv, Nat.mod_mod, ← ih, hmod, ih]

lemma valid_digits {radices : List ℕ} (hpos : ∀ r ∈ radices, 0 < r) (n : ℕ) :
    Valid (digits radices n) radices := by
  induction radices with
  | nil => exact .nil
  | cons r rs ih =>
    obtain ⟨hr, hrs⟩ := List.forall_mem_cons.1 hpos
    rw [digits_cons]
    exact .cons (Nat.mod_lt _ hr) (ih hrs)

/-- A greater number has a greater reading. -/
lemma digits_lt {radices : List ℕ} {m n : ℕ} (hmn : m < n) (hn : n < radices.prod) :
    List.Lex (· < ·) (digits radices m) (digits radices n) := by
  induction radices generalizing m n with
  | nil =>
    rw [List.prod_nil] at hn
    omega
  | cons r rs ih =>
    rw [List.prod_cons] at hn
    have hpos : 0 < rs.prod := by
      obtain h | h := Nat.eq_zero_or_pos rs.prod
      · rw [h] at hn
        omega
      · exact h
    have hnr : n / rs.prod < r := (Nat.div_lt_iff_lt_mul hpos).2 hn
    have hle : m / rs.prod ≤ n / rs.prod := Nat.div_le_div_right hmn.le
    rw [digits_cons, digits_cons, Nat.mod_eq_of_lt hnr, Nat.mod_eq_of_lt (hle.trans_lt hnr)]
    obtain hlt | heq := hle.lt_or_eq
    · exact .rel hlt
    · -- the first digits are equal, so the rest of the number grows
      have hm := Nat.div_add_mod m rs.prod
      have hn' := Nat.div_add_mod n rs.prod
      rw [heq] at hm ⊢
      refine .cons ?_
      rw [← digits_mod rs m, ← digits_mod rs n]
      exact ih (by omega) (Nat.mod_lt n hpos)

lemma pairwise_digits (radices : List ℕ) :
    ((List.range radices.prod).map (digits radices)).Pairwise (List.Lex (· < ·)) := by
  rw [List.pairwise_map]
  refine List.pairwise_lt_range.imp_of_mem fun {m n} _ hn hmn => ?_
  exact digits_lt hmn (List.mem_range.1 hn)

/-- The number of a reading. -/
lemma exists_digits_eq {radices ds : List ℕ} (h : Valid ds radices) :
    ∃ n < radices.prod, digits radices n = ds := by
  induction h with
  | nil => exact ⟨0, Nat.one_pos, rfl⟩
  | @cons d r ds rs hd _ ih =>
    obtain ⟨n, hn, hdigits⟩ := ih
    refine ⟨d * rs.prod + n, ?_, ?_⟩
    · rw [List.prod_cons]
      calc d * rs.prod + n < d * rs.prod + rs.prod := Nat.add_lt_add_left hn _
        _ = (d + 1) * rs.prod := (Nat.succ_mul d rs.prod).symm
        _ ≤ r * rs.prod := Nat.mul_le_mul_right _ hd
    · have hpos : 0 < rs.prod := Nat.zero_lt_of_lt hn
      have hdiv : (d * rs.prod + n) / rs.prod = d := by
        rw [mul_comm, Nat.mul_add_div hpos, Nat.div_eq_of_lt hn, add_zero]
      have hmod : (d * rs.prod + n) % rs.prod = n := by
        rw [mul_comm, Nat.mul_add_mod, Nat.mod_eq_of_lt hn]
      rw [digits_cons, hdiv, Nat.mod_eq_of_lt hd, ← digits_mod, hmod, hdigits]

lemma mem_map_digits {radices : List ℕ} (hpos : ∀ r ∈ radices, 0 < r) {ds : List ℕ} :
    ds ∈ (List.range radices.prod).map (digits radices) ↔ Valid ds radices := by
  rw [List.mem_map]
  constructor
  · rintro ⟨n, _, rfl⟩
    exact valid_digits hpos n
  · intro h
    obtain ⟨n, hn, hdigits⟩ := exists_digits_eq h
    exact ⟨n, List.mem_range.2 hn, hdigits⟩

end Odometer
