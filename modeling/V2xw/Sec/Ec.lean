import Mathlib.Data.ZMod.Basic
import Mathlib.Tactic.LinearCombination
import V2xw.Lib.BigEndian
import V2xw.Lib.OrdMap

/-!
# Scalars from bytes

`crates/v2xw-sec/src/ec.rs`: the two reductions of the credential scheme, `mod n` of a byte string
of any whole number of 128-bit limbs and `mod (n - 1)` of 32 bytes, where `n` is the order of the
P-256 group. Scalars are the integers modulo `n`. A precondition the source asserts is an argument
here, so that a call that would panic cannot be written.

## Main definitions

* `Scalar` — the integers modulo the group order.
* `scalarFromBeModN` — Horner's rule over 128-bit limbs.
* `reduceModNMinus1` — one conditional subtraction over bytes.

## Main results

* `scalarFromBeModN_eq` — the limbs are reduced modulo `n`.
* `beNat_reduceModNMinus1` — one subtraction reduces modulo `n - 1`.
-/

namespace V2xw.Sec

/-- A byte array of a fixed size. -/
abbrev U8Array (n : ℕ) := BigEndian.Block UInt8 n

/-- The number of a big-endian byte string. -/
def beNat (bytes : List UInt8) : ℕ := BigEndian.value 256 UInt8.toNat bytes

lemma beNat_lt (bytes : List UInt8) : beNat bytes < 256 ^ bytes.length :=
  BigEndian.value_lt (by decide) UInt8.toNat_lt bytes

/-- A cryptographic primitive's identifier. -/
structure PrimitiveId where
  name : String
  deriving DecidableEq

/-- ECDSA over P-256. -/
def PrimitiveId.ecdsaP256Sha256 : PrimitiveId := ⟨"primitive/ecdsa-p256-sha256"⟩

/-- Implicit certificates over P-256. -/
def PrimitiveId.ecqvP256 : PrimitiveId := ⟨"primitive/ecqv-p256"⟩

/-- The errors of scalars, keys and backends. -/
inductive SecError where
  | badLength (what : String) (expected got : ℕ)
  | crypto (op : String) (primitive : PrimitiveId) (detail : String)
  | unknownPrimitive (primitive : PrimitiveId)
  | unsupportedPrimitive (backend : String) (primitive : PrimitiveId)
  | wrongBackend (backend owner : String) (key : ℕ)
  | unknownKey (backend : String) (key : ℕ)
  | publicKeyOnly (backend : String) (key : ℕ)
  deriving DecidableEq

/-! ## The group order -/

/-- The order of the P-256 group. -/
def groupOrder : ℕ := 0xffffffff00000000ffffffffffffffffbce6faada7179e84f3b9cac2fc632551

instance : NeZero groupOrder := ⟨by decide⟩

/-- The scalars of P-256. -/
abbrev Scalar := ZMod groupOrder

/-- The order of the P-256 group, big-endian. -/
def nBe : U8Array 32 :=
  ⟨[0xff, 0xff, 0xff, 0xff, 0x00, 0x00, 0x00, 0x00, 0xff, 0xff, 0xff, 0xff, 0xff, 0xff, 0xff, 0xff,
    0xbc, 0xe6, 0xfa, 0xad, 0xa7, 0x17, 0x9e, 0x84, 0xf3, 0xb9, 0xca, 0xc2, 0xfc, 0x63, 0x25, 0x51],
    rfl⟩

/-- One less than the group order: the last byte decreased. -/
def nMinus1Be : U8Array 32 :=
  ⟨nBe.1.set 31 ((nBe.1.getD 31 0) - 1), by rw [List.length_set, nBe.2]⟩

lemma beNat_nMinus1Be : beNat nMinus1Be.1 = groupOrder - 1 := by decide +kernel

/-! ## Scalars -/

/-- The scalar of 32 bytes that are below the group order. -/
def Scalar.fromRepr (repr : U8Array 32) : Option Scalar :=
  if beNat repr.1 < groupOrder then some (beNat repr.1 : Scalar) else none

/-- A scalar that is known to be below the group order. -/
def scalarFromRepr (repr : U8Array 32) (h : beNat repr.1 < groupOrder) : Scalar :=
  (Scalar.fromRepr repr).get (by rw [Scalar.fromRepr, if_pos h]; rfl)

lemma scalarFromRepr_eq (repr : U8Array 32) (h : beNat repr.1 < groupOrder) :
    scalarFromRepr repr h = (beNat repr.1 : Scalar) := by
  simp only [scalarFromRepr, Scalar.fromRepr, if_pos h, Option.get_some]

/-- The scalar `2 ^ 128`: byte 15 of the representation is one. -/
def two128 : Scalar :=
  scalarFromRepr ⟨(List.replicate 32 0).set 15 1, rfl⟩ (by decide +kernel)

lemma two128_eq : two128 = ((256 ^ 16 : ℕ) : Scalar) := by
  rw [two128, scalarFromRepr_eq]
  congr 1

/-- A limb in the low half of a representation. -/
def limbRepr (limb : U8Array 16) : U8Array 32 :=
  ⟨List.replicate 16 0 ++ limb.1, by rw [List.length_append, List.length_replicate, limb.2]⟩

lemma beNat_limbRepr (limb : U8Array 16) : beNat (limbRepr limb).1 = beNat limb.1 :=
  BigEndian.value_replicate_append 256 UInt8.toNat rfl 16 limb.1

lemma limbRepr_lt (limb : U8Array 16) : beNat (limbRepr limb).1 < groupOrder := by
  rw [beNat_limbRepr]
  calc beNat limb.1 < 256 ^ limb.1.length := beNat_lt limb.1
    _ = 256 ^ 16 := by rw [limb.2]
    _ < groupOrder := by decide +kernel

/-- The blocks of 16 bytes of a byte string. -/
def limbs (bytes : List UInt8) : List (U8Array 16) :=
  BigEndian.chunks 16 (bytes.length / 16) bytes (Nat.div_mul_le_self _ _)

/-- A scalar from a big-endian byte string of a positive number of limbs, reduced modulo the group
order by Horner's rule. -/
def scalarFromBeModN (bytes : List UInt8) (_h : bytes ≠ [] ∧ bytes.length % 16 = 0) : Scalar :=
  (limbs bytes).foldl
    (fun acc limb => acc * two128 + scalarFromRepr (limbRepr limb) (limbRepr_lt limb)) 0

/-- Horner's rule over the limbs is the number of the byte string modulo the group order. -/
lemma scalarFromBeModN_eq (bytes : List UInt8) (h : bytes ≠ [] ∧ bytes.length % 16 = 0) :
    scalarFromBeModN bytes h = (beNat bytes : Scalar) := by
  have hflat : ((limbs bytes).map Subtype.val).flatten = bytes := by
    rw [limbs, BigEndian.flatten_chunks, Nat.div_mul_cancel (Nat.dvd_of_mod_eq_zero h.2),
      List.take_length]
  have hvalue : BigEndian.value (256 ^ 16) (fun l : U8Array 16 => beNat l.1) (limbs bytes) =
      beNat bytes := by
    have hblocks : ∀ l ∈ (limbs bytes).map Subtype.val, l.length = 16 := by
      intro l hl
      obtain ⟨l', -, rfl⟩ := List.mem_map.mp hl
      exact l'.2
    have hf := BigEndian.value_flatten 256 UInt8.toNat hblocks
    rw [hflat] at hf
    rw [beNat, hf, BigEndian.value, BigEndian.value, List.map_map]
    rfl
  have hstep : (fun (acc : Scalar) (limb : U8Array 16) =>
      acc * two128 + scalarFromRepr (limbRepr limb) (limbRepr_lt limb)) =
      fun acc limb => acc * ((256 ^ 16 : ℕ) : Scalar) + (beNat limb.1 : Scalar) := by
    funext acc limb
    rw [two128_eq, scalarFromRepr_eq, beNat_limbRepr]
  rw [scalarFromBeModN, hstep, BigEndian.horner, hvalue, zero_mul, zero_add]

/-- A scalar from 32 bytes that have to be below the group order. -/
def scalarFromBe32 (bytes : U8Array 32) : Except SecError Scalar :=
  match Scalar.fromRepr bytes with
  | some s => .ok s
  | none => .error (.crypto "scalar decode" .ecdsaP256Sha256
      "the value is not below the P-256 group order")

lemma scalarFromBe32_of_lt {bytes : U8Array 32} (h : beNat bytes.1 < groupOrder) :
    scalarFromBe32 bytes = .ok (beNat bytes.1 : Scalar) := by
  rw [scalarFromBe32, Scalar.fromRepr, if_pos h]

/-! ## Reduction modulo `n - 1` -/

/-- Comparison of two byte arrays, the first byte that differs deciding. -/
def cmpBe (a b : U8Array 32) : Ordering := List.compareLex compare a.1 b.1

lemma cmpBe_eq (a b : U8Array 32) : cmpBe a b = compare (beNat a.1) (beNat b.1) := by
  apply BigEndian.compareLex_eq _ (by decide) UInt8.toNat_lt (a.2.trans b.2.symm)
  intro x y
  simp only [compare, compareOfLessAndEq, UInt8.lt_iff_toNat_lt, UInt8.toNat_inj]

/-- The difference from the last byte on, with the borrow into the byte before. -/
def subBorrow : List UInt8 → List UInt8 → List UInt8 × ℤ
  | x :: xs, y :: ys =>
    let (out, borrow) := subBorrow xs ys
    let d := (x.toNat : ℤ) - y.toNat - borrow
    if d < 0 then (UInt8.ofInt (d + 256) :: out, 1) else (UInt8.ofInt d :: out, 0)
  | _, _ => ([], 0)

/-- What the loop of the subtraction computes. -/
structure Borrows (xs ys out : List UInt8) (borrow : ℤ) : Prop where
  length_eq : out.length = xs.length
  borrow_bit : borrow = 0 ∨ borrow = 1
  value_eq : (beNat xs : ℤ) + borrow * 256 ^ xs.length = beNat ys + beNat out

lemma toNat_ofInt_of_lt {d : ℤ} (h0 : 0 ≤ d) (h : d < 256) : ((UInt8.ofInt d).toNat : ℤ) = d := by
  have hmod : d % 2 ^ 8 = d := Int.emod_eq_of_lt h0 (by simpa using h)
  rw [UInt8.ofInt, hmod, UInt8.toNat_ofNat', Nat.mod_eq_of_lt (by omega), Int.toNat_of_nonneg h0]

/-- The borrow chain subtracts. -/
lemma subBorrow_spec :
    ∀ {xs ys : List UInt8}, xs.length = ys.length →
      Borrows xs ys (subBorrow xs ys).1 (subBorrow xs ys).2
  | [], [], _ => ⟨rfl, .inl rfl, by simp [subBorrow, beNat]⟩
  | [], _ :: _, h => absurd h (by simp)
  | _ :: _, [], h => absurd h (by simp)
  | x :: xs, y :: ys, h => by
    have hlen : xs.length = ys.length := by simpa using h
    obtain ⟨hout, hborrow, hvalue⟩ := subBorrow_spec hlen
    have hx := x.toNat_lt
    have hy := y.toNat_lt
    simp only [subBorrow]
    -- The value of the longer strings, with the power of the tail's length factored out.
    have hcons (d : UInt8) (borrow : ℤ)
        (hd : (d.toNat : ℤ) = x.toNat - y.toNat - (subBorrow xs ys).2 + borrow * 256) :
        (beNat (x :: xs) : ℤ) + borrow * 256 ^ (x :: xs).length =
          beNat (y :: ys) + beNat (d :: (subBorrow xs ys).1) := by
      simp only [beNat, BigEndian.value_cons, List.length_cons, hout, ← hlen] at hvalue ⊢
      push_cast at hvalue ⊢
      rw [hd, pow_succ]
      linear_combination hvalue
    split
    case isTrue hneg =>
      refine ⟨by simp [hout], .inr rfl, hcons _ 1 ?_⟩
      rw [toNat_ofInt_of_lt] <;> omega
    case isFalse hneg =>
      refine ⟨by simp [hout], .inl rfl, hcons _ 0 ?_⟩
      rw [toNat_ofInt_of_lt] <;> omega

/-- The difference of two byte arrays of which the first is not the smaller. -/
def subBe (a b : U8Array 32) : U8Array 32 :=
  ⟨(subBorrow a.1 b.1).1, by rw [(subBorrow_spec (a.2.trans b.2.symm)).length_eq, a.2]⟩

/-- It is the difference of the numbers. -/
lemma beNat_subBe {a b : U8Array 32} (h : beNat b.1 ≤ beNat a.1) :
    beNat (subBe a b).1 = beNat a.1 - beNat b.1 := by
  obtain ⟨hlen, hborrow, hvalue⟩ := subBorrow_spec (a.2.trans b.2.symm)
  have hlt := beNat_lt (subBorrow a.1 b.1).1
  rw [hlen] at hlt
  show beNat (subBorrow a.1 b.1).1 = _
  rcases hborrow with h0 | h1
  · rw [h0] at hvalue
    omega
  · -- A borrow out of the first byte would make the difference too large.
    rw [h1] at hvalue
    have hlt' : (beNat (subBorrow a.1 b.1).1 : ℤ) < 256 ^ a.1.length := by exact_mod_cast hlt
    omega

/-- 32 bytes modulo one less than the group order. -/
def reduceModNMinus1 (value : U8Array 32) : U8Array 32 :=
  if cmpBe value nMinus1Be = .lt then value else subBe value nMinus1Be

/-- One subtraction suffices: twice the modulus exceeds every 32 bytes. -/
lemma beNat_reduceModNMinus1 (value : U8Array 32) :
    beNat (reduceModNMinus1 value).1 = beNat value.1 % (groupOrder - 1) := by
  have hcmp := cmpBe_eq value nMinus1Be
  rw [beNat_nMinus1Be] at hcmp
  unfold reduceModNMinus1
  split
  case isTrue h =>
    rw [h] at hcmp
    rw [Nat.mod_eq_of_lt (compare_lt_iff_lt.mp hcmp.symm)]
  case isFalse h =>
    have hle : groupOrder - 1 ≤ beNat value.1 := by
      by_contra hlt
      exact h (hcmp.trans (compare_lt_iff_lt.mpr (Nat.not_le.mp hlt)))
    have hbound : beNat value.1 < 2 * (groupOrder - 1) := by
      calc beNat value.1 < 256 ^ value.1.length := beNat_lt value.1
        _ = 256 ^ 32 := by rw [value.2]
        _ < 2 * (groupOrder - 1) := by decide +kernel
    rw [beNat_subBe (by rw [beNat_nMinus1Be]; exact hle), beNat_nMinus1Be,
      Nat.mod_eq_sub_mod hle, Nat.mod_eq_of_lt (by omega)]

end V2xw.Sec
