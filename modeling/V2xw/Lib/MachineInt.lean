import Mathlib.Algebra.Order.Ring.Int

/-!
# Exact machine integers

Signed 64-bit arithmetic wraps around. Where the values stay in range it is integer arithmetic: each
operation of two words that stand for integers stands for the result, once that is in range.

## Main definitions

* `MachineInt.Fits` — the range of a signed 64-bit word.
* `MachineInt.divEuclid`, `MachineInt.remEuclid` — division that rounds down, by a positive word.
* `MachineInt.asU8` — truncation to a byte.

## Main results

* `MachineInt.toInt_add`, `MachineInt.toInt_sub`, `MachineInt.toInt_mul`, `MachineInt.toInt_div` —
  exact operations.
-/

namespace MachineInt

/-- An integer is a signed 64-bit word. -/
def Fits (z : ℤ) : Prop := -2 ^ 63 ≤ z ∧ z < 2 ^ 63

lemma Fits.bmod {z : ℤ} (h : Fits z) : z.bmod (2 ^ 64) = z :=
  Int.bmod_eq_of_le h.1 h.2

variable {a b : Int64} {x y : ℤ}

lemma toInt_add (ha : a.toInt = x) (hb : b.toInt = y) (h : Fits (x + y)) :
    (a + b).toInt = x + y := by
  rw [Int64.toInt_add, ha, hb, h.bmod]

lemma toInt_sub (ha : a.toInt = x) (hb : b.toInt = y) (h : Fits (x - y)) :
    (a - b).toInt = x - y := by
  rw [Int64.toInt_sub, ha, hb, h.bmod]

lemma toInt_mul (ha : a.toInt = x) (hb : b.toInt = y) (h : Fits (x * y)) :
    (a * b).toInt = x * y := by
  rw [Int64.toInt_mul, ha, hb, h.bmod]

lemma toInt_div (ha : a.toInt = x) (hb : b.toInt = y) (hx : 0 ≤ x) (hy : 0 < y) :
    (a / b).toInt = x / y := by
  have hfits : Fits (x / y) := by
    have hlt := a.toInt_lt
    rw [ha] at hlt
    have hle : x / y ≤ x := Int.ediv_le_self y hx
    have hnonneg : 0 ≤ x / y := Int.ediv_nonneg hx hy.le
    exact ⟨by omega, by omega⟩
  rw [Int64.toInt_div, ha, hb, Int.tdiv_eq_ediv_of_nonneg hx, hfits.bmod]

lemma toInt_div_of_neg (ha : a.toInt = x) (hb : b.toInt = y) (hx : x < 0) (hy : 0 < y) :
    (a / b).toInt = -(-x / y) := by
  have htdiv : x.tdiv y = -(-x / y) := by
    rw [← Int.tdiv_eq_ediv_of_nonneg (by omega), Int.neg_tdiv, neg_neg]
  have hfits : Fits (-(-x / y)) := by
    have hge := a.le_toInt
    rw [ha] at hge
    have hle : -x / y ≤ -x := Int.ediv_le_self y (by omega)
    have hnonneg : 0 ≤ -x / y := Int.ediv_nonneg (by omega) hy.le
    exact ⟨by omega, by omega⟩
  rw [Int64.toInt_div, ha, hb, htdiv, hfits.bmod]

/-! ## Division that rounds down -/

/-- The quotient by a positive word, rounded down. -/
def divEuclid (a b : Int64) : Int64 := Int64.ofInt (a.toInt / b.toInt)

/-- The remainder of it. -/
def remEuclid (a b : Int64) : Int64 := Int64.ofInt (a.toInt % b.toInt)

lemma toInt_divEuclid (ha : a.toInt = x) (hb : b.toInt = y) (h : Fits (x / y)) :
    (divEuclid a b).toInt = x / y := by
  rw [divEuclid, ha, hb, Int64.toInt_ofInt_of_le h.1 h.2]

lemma toInt_remEuclid (ha : a.toInt = x) (hb : b.toInt = y) (h : Fits (x % y)) :
    (remEuclid a b).toInt = x % y := by
  rw [remEuclid, ha, hb, Int64.toInt_ofInt_of_le h.1 h.2]

/-! ## Conversions -/

/-- A byte as a word. -/
def ofU8 (b : UInt8) : Int64 := Int64.ofNat b.toNat

/-- The lowest byte of a word. -/
def asU8 (a : Int64) : UInt8 := a.toUInt64.toUInt8

lemma toInt_ofU8 (b : UInt8) : (ofU8 b).toInt = b.toNat := by
  have hlt := b.toNat_lt
  exact Int64.toInt_ofNat_of_lt (by omega)

lemma toNat_asU8 (ha : a.toInt = x) (h0 : 0 ≤ x) (h : x < 256) : ((asU8 a).toNat : ℤ) = x := by
  have hle : 0 ≤ a := Int64.le_iff_toInt_le.2 (by rw [ha]; exact h0)
  rw [asU8, UInt64.toNat_toUInt8, Int64.toNat_toUInt64_of_le hle, Int64.toNatClampNeg, ha]
  omega

end MachineInt
