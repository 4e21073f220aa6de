import Mathlib.Data.Nat.Cast.Commute
import Mathlib.Data.Nat.Digits.Defs
import Mathlib.Tactic.Ring

/-!
# Big-endian digit strings

The number a string of digits stands for, most significant digit first, over digits of any type
with a valuation into the base. Arithmetic on such strings (Horner's rule, lexicographic comparison,
cutting into limbs) is then arithmetic on numbers.

## Main definitions

* `BigEndian.value` — the number of a digit string.
* `BigEndian.Block` — strings of a fixed length.
* `BigEndian.chunks` — a string cut into blocks of one length.

## Main results

* `BigEndian.horner` — Horner's rule, in any semiring.
* `BigEndian.compareLex_eq` — lexicographic order is numeric order.
* `BigEndian.value_flatten`, `BigEndian.flatten_chunks` — the number of a string is the number of
  its blocks.
-/

namespace BigEndian

variable {α : Type} (b : ℕ) (v : α → ℕ)

/-- The number a digit string stands for, most significant digit first. -/
def value (xs : List α) : ℕ := Nat.ofDigits b (xs.map v).reverse

@[simp] lemma value_nil : value b v [] = 0 := rfl

@[simp] lemma value_singleton (x : α) : value b v [x] = v x := by
  simp [value]

lemma value_append (xs ys : List α) :
    value b v (xs ++ ys) = value b v xs * b ^ ys.length + value b v ys := by
  simp only [value, List.map_append, List.reverse_append, Nat.ofDigits_append,
    List.length_reverse, List.length_map]
  ring

lemma value_cons (x : α) (xs : List α) :
    value b v (x :: xs) = v x * b ^ xs.length + value b v xs := by
  rw [← List.singleton_append, value_append, value_singleton]

lemma value_concat (xs : List α) (x : α) : value b v (xs ++ [x]) = value b v xs * b + v x := by
  rw [value_append, value_singleton, List.length_singleton, pow_one]

lemma value_replicate_append {z : α} (hz : v z = 0) (k : ℕ) (xs : List α) :
    value b v (List.replicate k z ++ xs) = value b v xs := by
  rw [value_append]
  have h : value b v (List.replicate k z) = 0 := by
    simp [value, hz, Nat.ofDigits_replicate_zero]
  rw [h, Nat.zero_mul, Nat.zero_add]

variable {b} {v}

lemma value_lt (hb : 1 < b) (hv : ∀ x, v x < b) (xs : List α) :
    value b v xs < b ^ xs.length := by
  have h : Nat.ofDigits b (xs.map v).reverse < b ^ (xs.map v).reverse.length := by
    apply Nat.ofDigits_lt_base_pow_length hb
    intro d hd
    obtain ⟨x, -, rfl⟩ := List.mem_map.mp (List.mem_reverse.mp hd)
    exact hv x
  rwa [List.length_reverse, List.length_map] at h

lemma horner {R : Type*} [CommSemiring R] (xs : List α) (a : R) :
    xs.foldl (fun acc x => acc * (b : R) + (v x : R)) a =
      a * (b : R) ^ xs.length + (value b v xs : R) := by
  induction xs generalizing a with
  | nil => simp
  | cons x xs ih =>
    rw [List.foldl_cons, ih, value_cons, List.length_cons]
    push_cast
    ring

/-- On strings of one length the lexicographic order is the order of the numbers. -/
lemma compareLex_eq {cmp : α → α → Ordering} (hcmp : ∀ x y, cmp x y = compare (v x) (v y))
    (hb : 1 < b) (hv : ∀ x, v x < b) {xs ys : List α} (hlen : xs.length = ys.length) :
    List.compareLex cmp xs ys = compare (value b v xs) (value b v ys) := by
  induction xs generalizing ys with
  | nil =>
    obtain rfl : ys = [] := List.length_eq_zero_iff.mp hlen.symm
    rw [List.compareLex_nil_nil, value_nil, compare_eq_iff_eq.mpr rfl]
  | cons x xs ih =>
    obtain _ | ⟨y, ys⟩ := ys
    · exact absurd hlen (by simp)
    have hlen' : xs.length = ys.length := by simpa using hlen
    rw [List.compareLex_cons_cons, hcmp, ih hlen', value_cons, value_cons, hlen']
    have hx : value b v xs < b ^ ys.length := hlen' ▸ value_lt hb hv xs
    have hy : value b v ys < b ^ ys.length := value_lt hb hv ys
    -- A larger first digit outweighs everything behind it.
    have hstep {m n p q : ℕ} (h : m < n) (hp : p < b ^ ys.length) :
        m * b ^ ys.length + p < n * b ^ ys.length + q := by
      have hmul : (m + 1) * b ^ ys.length ≤ n * b ^ ys.length := Nat.mul_le_mul_right _ h
      rw [Nat.succ_mul] at hmul
      omega
    rcases Nat.lt_trichotomy (v x) (v y) with h | h | h
    · rw [compare_lt_iff_lt.mpr h, compare_lt_iff_lt.mpr (hstep h hx)]
      rfl
    · rw [h, compare_eq_iff_eq.mpr rfl]
      rcases Nat.lt_trichotomy (value b v xs) (value b v ys) with h' | h' | h'
      · rw [compare_lt_iff_lt.mpr h', compare_lt_iff_lt.mpr (Nat.add_lt_add_left h' _)]
        rfl
      · rw [h', compare_eq_iff_eq.mpr rfl, compare_eq_iff_eq.mpr rfl]
        rfl
      · rw [compare_gt_iff_gt.mpr h', compare_gt_iff_gt.mpr (Nat.add_lt_add_left h' _)]
        rfl
    · rw [compare_gt_iff_gt.mpr h, compare_gt_iff_gt.mpr (hstep h hy)]
      rfl

/-! ## Blocks -/

variable (b v)

lemma value_flatten {k : ℕ} {ls : List (List α)} (h : ∀ l ∈ ls, l.length = k) :
    value b v ls.flatten = value (b ^ k) (value b v) ls := by
  induction ls with
  | nil => rfl
  | cons l ls ih =>
    have ih' := ih fun l' hl' => h l' (List.mem_cons_of_mem _ hl')
    have hlen : ls.flatten.length = ls.length * k := by
      rw [List.length_flatten, List.map_congr_left fun l' hl' => h l' (List.mem_cons_of_mem _ hl'),
        List.map_const', List.sum_replicate_nat]
    rw [List.flatten_cons, value_append, value_cons, ih', hlen, ← pow_mul, Nat.mul_comm k]

/-- A string of exactly `k` digits. -/
abbrev Block (α : Type) (k : ℕ) := {xs : List α // xs.length = k}

/-- The first `n` blocks of length `k` of a string. -/
def chunks (k : ℕ) : (n : ℕ) → (xs : List α) → n * k ≤ xs.length → List (Block α k)
  | 0, _, _ => []
  | n + 1, xs, h =>
    ⟨xs.take k, by rw [List.length_take, Nat.min_eq_left]; rw [Nat.succ_mul] at h; omega⟩ ::
      chunks k n (xs.drop k) (by rw [List.length_drop]; rw [Nat.succ_mul] at h; omega)

lemma flatten_chunks (k : ℕ) :
    ∀ (n : ℕ) (xs : List α) (h : n * k ≤ xs.length),
      ((chunks k n xs h).map Subtype.val).flatten = xs.take (n * k)
  | 0, xs, _ => by rw [Nat.zero_mul, List.take_zero]; rfl
  | n + 1, xs, h => by
    rw [chunks, List.map_cons, List.flatten_cons, flatten_chunks k n]
    rw [Nat.succ_mul, Nat.add_comm (n * k), List.take_add]

end BigEndian
