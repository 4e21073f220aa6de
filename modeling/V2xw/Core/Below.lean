import V2xw.Core.Rng
import V2xw.Lib.Scale
import Mathlib.Data.Set.Card
import Mathlib.Order.Interval.Finset.Nat

/-!
# Uniform integers

The draw of an integer below a bound, from one draw of 64 bits and without rejection: the upper half
of the 128-bit product.

## Main definitions

* `Core.RngStream.below` — the draw.
* `Core.multiplyShift` — the integer that 64 bits give.

## Main results

* `Core.below_uniform` — what it draws, and how evenly.
-/

namespace V2xw.Core

open Scale

/-- The next 64 bits. -/
def RngStream.u64 (c : Cipher) (s : RngStream) : UInt64 × RngStream :=
  match s.draw c .u64 with
  | (.u64 v, s') => (v, s')
  | (_, s') => (0, s')

/-- A 64-bit number as a 128-bit one. -/
def widen (x : UInt64) : BitVec 128 := x.toBitVec.setWidth 128

/-- The upper half of the product. -/
def multiplyShift (u n : UInt64) : UInt64 := ⟨((widen u * widen n) >>> 64).setWidth 64⟩

/-- A uniform integer below `n`, none if it panics. -/
def RngStream.below (c : Cipher) (s : RngStream) (n : UInt64) : Option (UInt64 × RngStream) :=
  if 0 < n then
    let (u, s) := s.u64 c
    some (multiplyShift u n, s)
  else none

/-! ## The product -/

lemma toNat_widen (x : UInt64) : (widen x).toNat = x.toNat := by
  rw [widen, BitVec.toNat_setWidth, UInt64.toNat_toBitVec]
  exact Nat.mod_eq_of_lt (x.toNat_lt.trans (by decide))

/-- The product of two 64-bit numbers has at most 128 bits. -/
lemma toNat_mul_lt (u n : UInt64) : (widen u).toNat * (widen n).toNat < 2 ^ 128 := by
  rw [toNat_widen, toNat_widen]
  exact (Nat.mul_lt_mul'' u.toNat_lt n.toNat_lt).trans_eq (by decide)

lemma toNat_multiplyShift (u n : UInt64) :
    (multiplyShift u n).toNat = scale (2 ^ 64) n.toNat u.toNat := by
  have hlt : u.toNat * n.toNat / 2 ^ 64 < 2 ^ 64 := by
    rw [Nat.div_lt_iff_lt_mul (by decide)]
    exact Nat.mul_lt_mul'' u.toNat_lt n.toNat_lt
  have hmul : (widen u * widen n).toNat = u.toNat * n.toNat := by
    rw [BitVec.toNat_mul, Nat.mod_eq_of_lt (toNat_mul_lt u n), toNat_widen, toNat_widen]
  rw [multiplyShift, ← UInt64.toNat_toBitVec, BitVec.toNat_setWidth, BitVec.toNat_ushiftRight, hmul,
    Nat.shiftRight_eq_div_pow, Nat.mod_eq_of_lt hlt, scale]

/-! ## The distribution -/

section Distribution

variable {n : UInt64}

lemma multiplyShift_eq_iff (hn : 0 < n) (u v : UInt64) :
    multiplyShift u n = v ↔
      first (2 ^ 64) n.toNat v.toNat ≤ u.toNat ∧
        u.toNat < first (2 ^ 64) n.toNat (v.toNat + 1) := by
  rw [← UInt64.toNat_inj, toNat_multiplyShift]
  exact scale_eq_iff (by decide) hn

lemma multiplyShift_mono {u v : UInt64} (h : u ≤ v) : multiplyShift u n ≤ multiplyShift v n := by
  rw [UInt64.le_iff_toNat_le, toNat_multiplyShift, toNat_multiplyShift]
  exact scale_mono h

lemma multiplyShift_lt (hn : 0 < n) (u : UInt64) : multiplyShift u n < n := by
  rw [UInt64.lt_iff_toNat_lt, toNat_multiplyShift]
  exact scale_lt u.toNat_lt hn

lemma multiplyShift_surjective (hn : 0 < n) {v : UInt64} (hv : v < n) :
    ∃ u, multiplyShift u n = v := by
  have hlt : first (2 ^ 64) n.toNat v.toNat < 2 ^ 64 := first_lt hn n.toNat_lt.le hv
  refine ⟨.ofNat (first (2 ^ 64) n.toNat v.toNat), UInt64.toNat_inj.1 ?_⟩
  rw [toNat_multiplyShift, UInt64.toNat_ofNat_of_lt' hlt]
  exact scale_first hn n.toNat_lt.le

/-- The draws with one value are counted by the ends of their interval. -/
lemma ncard_multiplyShift (hn : 0 < n) {v : UInt64} (hv : v < n) :
    Set.ncard {u | multiplyShift u n = v} =
      first (2 ^ 64) n.toNat (v.toNat + 1) - first (2 ^ 64) n.toNat v.toNat := by
  have hend : first (2 ^ 64) n.toNat (v.toNat + 1) ≤ 2 ^ 64 := first_le hn hv
  have himage : UInt64.toNat '' {u | multiplyShift u n = v} =
      Finset.Ico (first (2 ^ 64) n.toNat v.toNat) (first (2 ^ 64) n.toNat (v.toNat + 1)) := by
    ext k
    rw [Finset.coe_Ico, Set.mem_image, Set.mem_Ico]
    constructor
    · rintro ⟨u, hu, rfl⟩
      exact (multiplyShift_eq_iff hn u v).1 hu
    · rintro ⟨hle, hlt⟩
      have hk : (UInt64.ofNat k).toNat = k := UInt64.toNat_ofNat_of_lt' (hlt.trans_le hend)
      exact ⟨.ofNat k, (multiplyShift_eq_iff hn _ v).2 (by rw [hk]; exact ⟨hle, hlt⟩), hk⟩
  rw [← Set.ncard_image_of_injective _ fun _ _ => UInt64.toNat_inj.1, himage, Set.ncard_coe_finset,
    Nat.card_Ico]

end Distribution

/-- **The draw of an integer below a bound** takes one draw of 64 bits, whose product with the bound
fits 128 bits. It maps the draws monotonically onto the integers below the bound, and no integer has
two draws more than another. -/
theorem below_uniform (n : UInt64) (hn : 0 < n) :
    (∀ (c : Cipher) (s : RngStream),
      s.below c n = some (multiplyShift (s.u64 c).1 n, (s.u64 c).2)) ∧
    (∀ u, (widen u).toNat * (widen n).toNat < 2 ^ 128) ∧
    (∀ u v, u ≤ v → multiplyShift u n ≤ multiplyShift v n) ∧
    (Set.range fun u => multiplyShift u n) = {v | v < n} ∧
    ∀ v w, v < n → w < n →
      Set.ncard {u | multiplyShift u n = v} ≤ Set.ncard {u | multiplyShift u n = w} + 1 := by
  refine ⟨fun c s => if_pos hn, fun u => toNat_mul_lt u n, fun _ _ h => multiplyShift_mono h,
    ?_, fun v w hv hw => ?_⟩
  · ext v
    refine ⟨?_, multiplyShift_surjective hn⟩
    rintro ⟨u, rfl⟩
    exact multiplyShift_lt hn u
  · rw [ncard_multiplyShift hn hv, ncard_multiplyShift hn hw]
    have hv' := @first_succ (2 ^ 64) n.toNat v.toNat
    have hw' := @first_succ (2 ^ 64) n.toNat w.toNat
    omega

/-- The draws of an integer below the largest bound. -/
theorem below_uniform_max :
    (Set.range fun u => multiplyShift u 18446744073709551615) = {v | v < 18446744073709551615} :=
  (below_uniform 18446744073709551615 (by decide)).2.2.2.1

end V2xw.Core
