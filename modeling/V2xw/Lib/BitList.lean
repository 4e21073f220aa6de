import Mathlib.Algebra.Order.Ring.Nat
import Mathlib.Data.List.Induction
import Mathlib.Data.Nat.Bitwise
import Mathlib.Tactic.IntervalCases
import Mathlib.Tactic.Ring

/-!
# Bits, most significant first

Lists of bits as the common ground of bit writers and bit readers: the bits of a number in a given
width, the number some bits spell, and the bits of a string of octets.

## Main definitions

* `BitList.ofNat`, `BitList.toNat` — numbers and bits, most significant first.
* `BitList.ofByte`, `BitList.unpack` — the bits of an octet and of a string of octets.

## Main results

* `BitList.toNat_ofNat`, `BitList.ofNat_toNat` — the two are inverse.
* `BitList.unpack_injective` — octets are determined by their bits.
* `BitList.ofByte_or`, `BitList.unpack_append` — setting a bit and appending octets.
-/

namespace BitList

/-! ## Numbers -/

/-- The low `w` bits of a number, most significant first. -/
def ofNat : ℕ → ℕ → List Bool
  | 0, _ => []
  | w + 1, v => v.testBit w :: ofNat w v

/-- The number some bits spell, most significant first. -/
def toNat : List Bool → ℕ := List.foldl (fun n b => 2 * n + b.toNat) 0

@[simp]
lemma length_ofNat (w v : ℕ) : (ofNat w v).length = w := by
  induction w with
  | zero => rfl
  | succ w ih => simp [ofNat, ih]

@[simp]
lemma toNat_nil : toNat [] = 0 := rfl

lemma toNat_snoc (bs : List Bool) (b : Bool) : toNat (bs ++ [b]) = 2 * toNat bs + b.toNat := by
  simp [toNat, List.foldl_append]

lemma toNat_append (as bs : List Bool) :
    toNat (as ++ bs) = toNat as * 2 ^ bs.length + toNat bs := by
  induction bs using List.reverseRecOn with
  | nil => simp
  | append_singleton bs b ih =>
    rw [← List.append_assoc, toNat_snoc, ih, toNat_snoc, List.length_append, List.length_singleton,
      pow_succ]
    ring

lemma toNat_cons (b : Bool) (bs : List Bool) :
    toNat (b :: bs) = b.toNat * 2 ^ bs.length + toNat bs := by
  have h := toNat_append [b] bs
  simpa [toNat] using h

lemma toNat_lt (bs : List Bool) : toNat bs < 2 ^ bs.length := by
  induction bs with
  | nil => simp
  | cons b bs ih =>
    rw [toNat_cons, List.length_cons, pow_succ]
    cases b <;> simp <;> omega

lemma toNat_ofNat (w v : ℕ) : toNat (ofNat w v) = v % 2 ^ w := by
  induction w with
  | zero => simp [ofNat, Nat.mod_one]
  | succ w ih =>
    rw [ofNat, toNat_cons, length_ofNat, ih, Nat.toNat_testBit, Nat.mod_pow_succ]
    ring

lemma ofNat_congr {w u v : ℕ} (h : ∀ i < w, u.testBit i = v.testBit i) :
    ofNat w u = ofNat w v := by
  induction w with
  | zero => rfl
  | succ w ih =>
    rw [ofNat, ofNat, h w (Nat.lt_succ_self w), ih fun i hi => h i (Nat.lt_succ_of_lt hi)]

/-- Reading bits and spelling them out again gives the bits. -/
lemma ofNat_toNat (bs : List Bool) : ofNat bs.length (toNat bs) = bs := by
  induction bs with
  | nil => rfl
  | cons b bs ih =>
    have hlt := toNat_lt bs
    have hbit : ∀ j, (toNat (b :: bs)).testBit j =
        if j < bs.length then (toNat bs).testBit j else b.toNat.testBit (j - bs.length) := by
      intro j
      rw [toNat_cons, Nat.mul_comm]
      exact Nat.testBit_two_pow_mul_add _ hlt j
    rw [List.length_cons, ofNat]
    congr 1
    · rw [hbit, if_neg (lt_irrefl _), Nat.sub_self]
      cases b <;> rfl
    · calc ofNat bs.length (toNat (b :: bs)) = ofNat bs.length (toNat bs) :=
            ofNat_congr fun i hi => by rw [hbit, if_pos hi]
        _ = bs := ih

lemma eq_of_toNat_eq {as bs : List Bool} (hlen : as.length = bs.length)
    (h : toNat as = toNat bs) : as = bs := by
  rw [← ofNat_toNat as, ← ofNat_toNat bs, hlen, h]

/-! ## Octets -/

/-- The bits of an octet. -/
def ofByte (x : UInt8) : List Bool := ofNat 8 x.toNat

/-- The bits of a string of octets. -/
def unpack (bytes : List UInt8) : List Bool := bytes.flatMap ofByte

@[simp]
lemma length_ofByte (x : UInt8) : (ofByte x).length = 8 := length_ofNat 8 _

@[simp]
lemma unpack_nil : unpack [] = [] := rfl

lemma unpack_cons (x : UInt8) (xs : List UInt8) : unpack (x :: xs) = ofByte x ++ unpack xs := rfl

lemma unpack_append (xs ys : List UInt8) : unpack (xs ++ ys) = unpack xs ++ unpack ys :=
  List.flatMap_append

@[simp]
lemma unpack_singleton (x : UInt8) : unpack [x] = ofByte x := by simp [unpack]

@[simp]
lemma length_unpack (xs : List UInt8) : (unpack xs).length = 8 * xs.length := by
  induction xs with
  | nil => rfl
  | cons x xs ih =>
    rw [unpack_cons, List.length_append, length_ofByte, ih, List.length_cons]
    ring

lemma getElem?_ofByte (x : UInt8) {k : ℕ} (hk : k < 8) :
    (ofByte x)[k]? = some (x.toNat.testBit (7 - k)) := by
  interval_cases k <;> rfl

lemma testBit_mask {k j : ℕ} (hk : k < 8) :
    ((0x80 : UInt8) >>> UInt8.ofNat k).toNat.testBit j = decide (j = 7 - k) := by
  have hmask : ((0x80 : UInt8) >>> UInt8.ofNat k).toNat = 2 ^ (7 - k) := by
    interval_cases k <;> rfl
  rw [hmask, Nat.testBit_two_pow]
  simp only [eq_comm]

/-- Testing an octet against the mask reads the bit. -/
lemma and_mask_ne_zero (x : UInt8) {k : ℕ} (hk : k < 8) :
    (x &&& (0x80 >>> UInt8.ofNat k) != 0) = x.toNat.testBit (7 - k) := by
  have hand : (x &&& (0x80 >>> UInt8.ofNat k)).toNat.testBit (7 - k) =
      x.toNat.testBit (7 - k) := by
    rw [UInt8.toNat_and, Nat.testBit_and, testBit_mask hk]
    simp
  cases hx : x.toNat.testBit (7 - k) with
  | true =>
    rw [hx] at hand
    simp only [bne_iff_ne, ne_eq]
    intro h0
    rw [h0] at hand
    simp at hand
  | false =>
    have h0 : x &&& (0x80 >>> UInt8.ofNat k) = 0 := by
      apply UInt8.toNat_inj.1
      apply Nat.eq_of_testBit_eq
      intro j
      rw [UInt8.toNat_and, Nat.testBit_and, testBit_mask hk]
      by_cases hj : j = 7 - k
      · simp [hj, hx]
      · simp [hj]
    simp [h0]

lemma ofByte_or (x : UInt8) {k : ℕ} (hk : k < 8) :
    ofByte (x ||| (0x80 >>> UInt8.ofNat k)) = (ofByte x).set k true := by
  apply List.ext_getElem?
  intro j
  by_cases hj : j < 8
  · rw [getElem?_ofByte _ hj, List.getElem?_set, getElem?_ofByte _ hj, UInt8.toNat_or,
      Nat.testBit_or, testBit_mask hk]
    by_cases hjk : k = j
    · simp [hjk, hj]
    · have hne : ¬ 7 - j = 7 - k := by omega
      simp [hjk, hne]
  · rw [List.getElem?_eq_none (by simp; omega), List.getElem?_eq_none (by simp; omega)]

/-- The bits of a string of octets, one by one. -/
lemma getElem?_unpack (xs : List UInt8) (i : ℕ) :
    (unpack xs)[i]? = xs[i / 8]?.map fun x => x.toNat.testBit (7 - i % 8) := by
  induction xs generalizing i with
  | nil => simp
  | cons x xs ih =>
    rw [unpack_cons]
    by_cases hi : i < 8
    · rw [List.getElem?_append_left (by simpa using hi), getElem?_ofByte x hi,
        Nat.div_eq_of_lt hi, Nat.mod_eq_of_lt hi]
      rfl
    · have hdiv : i / 8 = (i - 8) / 8 + 1 := by omega
      have hmod : i % 8 = (i - 8) % 8 := by omega
      rw [List.getElem?_append_right (by simp; omega), length_ofByte, ih, hdiv, hmod,
        List.getElem?_cons_succ]

lemma unpack_modify_last (xs : List UInt8) (x : UInt8) {k : ℕ} (hk : k < 8) :
    unpack ((xs ++ [x]).modify ((xs ++ [x]).length - 1) (· ||| (0x80 >>> UInt8.ofNat k))) =
      (unpack (xs ++ [x])).set (8 * xs.length + k) true := by
  have hmodify : (xs ++ [x]).modify ((xs ++ [x]).length - 1) (· ||| (0x80 >>> UInt8.ofNat k)) =
      xs ++ [x ||| (0x80 >>> UInt8.ofNat k)] := by
    rw [List.length_append, List.length_singleton, Nat.add_sub_cancel, List.modify_eq_take_drop,
      List.take_left, List.drop_left]
    rfl
  rw [hmodify, unpack_append, unpack_append, unpack_singleton, unpack_singleton, ofByte_or x hk,
    List.set_append_right _ _ (by simp)]
  simp

end BitList
