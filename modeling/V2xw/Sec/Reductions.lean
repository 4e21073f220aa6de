import V2xw.Sec.Ec

/-!
# The reductions do not panic

The two reductions of `crates/v2xw-sec/src/ec.rs` with their assertions: a call that panics has no
result. The scalars are those of the curve library, whatever it computes with. They stand for the
integers modulo the group order.

## Main definitions

* `Scalars` — the scalars of the curve library.
* `Scalars.scalarFromBeModN`, `reduceChecked` — the reductions.

## Main results

* `reductions_total` — they reduce, and do not panic.
-/

namespace V2xw.Sec

/-- The scalars of the curve library. -/
structure Scalars where
  Elem : Type
  zero : Elem
  add : Elem → Elem → Elem
  mul : Elem → Elem → Elem
  fromRepr : U8Array 32 → Option Elem

namespace Scalars

variable (S : Scalars)

/-- They compute modulo the group order, and 32 bytes below that are a scalar. -/
structure Lawful (value : S.Elem → ZMod groupOrder) : Prop where
  zero : value S.zero = 0
  add : ∀ a b, value (S.add a b) = value a + value b
  mul : ∀ a b, value (S.mul a b) = value a * value b
  fromRepr : ∀ repr : U8Array 32, beNat repr.1 < groupOrder →
    ∃ s, S.fromRepr repr = some s ∧ value s = beNat repr.1

lemma length_two128 : ((List.replicate 32 (0 : UInt8)).set 15 1).length = 32 := rfl

/-- A scalar from a big-endian byte string by Horner's rule, none if it panics. -/
def scalarFromBeModN (bytes : List UInt8) : Option S.Elem :=
  if bytes = [] ∨ bytes.length % 16 ≠ 0 then none
  else do
    let two128 ← S.fromRepr ⟨(List.replicate 32 0).set 15 1, length_two128⟩
    (limbs bytes).foldlM
      (fun acc limb => do
        let s ← S.fromRepr (limbRepr limb)
        pure (S.add (S.mul acc two128) s)) S.zero

/-- The integers modulo the group order. -/
def zmod : Scalars := ⟨Scalar, 0, (· + ·), (· * ·), Scalar.fromRepr⟩

lemma zmod_lawful : zmod.Lawful id :=
  ⟨rfl, fun _ _ => rfl, fun _ _ => rfl, fun _ h => ⟨_, if_pos h, rfl⟩⟩

end Scalars

/-- The difference of two byte arrays, none if a borrow is left. -/
def subChecked (a b : U8Array 32) : Option (U8Array 32) :=
  if (subBorrow a.1 b.1).2 = 0 then some (subBe a b) else none

/-- 32 bytes modulo one less than the group order, none if it panics. -/
def reduceChecked (value : U8Array 32) : Option (U8Array 32) :=
  if cmpBe value nMinus1Be = .lt then some value else subChecked value nMinus1Be

variable {S : Scalars} {value : S.Elem → ZMod groupOrder}

lemma Scalars.Lawful.foldlM (hS : S.Lawful value) {two128 : S.Elem}
    (htwo : value two128 = ((256 ^ 16 : ℕ) : Scalar)) (ls : List (U8Array 16)) : ∀ acc : S.Elem,
      ∃ s, ls.foldlM (fun acc limb => do
          let s ← S.fromRepr (limbRepr limb)
          pure (S.add (S.mul acc two128) s)) acc = some s ∧
        value s = ls.foldl (fun acc limb => acc * Sec.two128 +
          scalarFromRepr (limbRepr limb) (limbRepr_lt limb)) (value acc) := by
  induction ls with
  | nil => exact fun acc => ⟨acc, rfl, rfl⟩
  | cons limb ls ih =>
    intro acc
    obtain ⟨l, hl, hvalue⟩ := hS.fromRepr (limbRepr limb) (limbRepr_lt limb)
    obtain ⟨s, hs, heq⟩ := ih (S.add (S.mul acc two128) l)
    refine ⟨s, ?_, ?_⟩
    · rw [List.foldlM_cons, hl]
      exact hs
    · rw [heq, List.foldl_cons, hS.add, hS.mul, htwo, hvalue, two128_eq, scalarFromRepr_eq]

/-- The assertion on the borrow holds where the first array is not the smaller. -/
lemma subChecked_eq {a b : U8Array 32} (h : beNat b.1 ≤ beNat a.1) :
    (subBorrow a.1 b.1).2 = 0 ∧ subChecked a b = some (subBe a b) := by
  have hborrow : (subBorrow a.1 b.1).2 = 0 := by
    obtain ⟨hlen, hbit, hvalue⟩ := subBorrow_spec (a.2.trans b.2.symm)
    refine hbit.resolve_right fun h1 => ?_
    have hlt := beNat_lt (subBorrow a.1 b.1).1
    rw [hlen] at hlt
    rw [h1] at hvalue
    have hlt' : (beNat (subBorrow a.1 b.1).1 : ℤ) < 256 ^ a.1.length := by exact_mod_cast hlt
    omega
  exact ⟨hborrow, if_pos hborrow⟩

/-- **The reductions do not panic**: a byte string of a positive number of limbs is reduced modulo
the group order, and 32 bytes are reduced modulo one less, by a subtraction that leaves no
borrow. -/
theorem reductions_total (hS : S.Lawful value) :
    (∀ bytes : List UInt8, bytes ≠ [] → bytes.length % 16 = 0 →
      ∃ s, S.scalarFromBeModN bytes = some s ∧ value s = (beNat bytes : ZMod groupOrder)) ∧
    ∀ v : U8Array 32, reduceChecked v = some (reduceModNMinus1 v) ∧
      beNat (reduceModNMinus1 v).1 = beNat v.1 % (groupOrder - 1) ∧
      (cmpBe v nMinus1Be ≠ .lt → (subBorrow v.1 nMinus1Be.1).2 = 0) := by
  refine ⟨fun bytes hne hlen => ?_, fun v => ?_⟩
  · obtain ⟨two128, htwo, hvalue⟩ :=
      hS.fromRepr ⟨(List.replicate 32 0).set 15 1, rfl⟩ (by decide +kernel)
    obtain ⟨s, hs, heq⟩ := hS.foldlM (hvalue.trans (by congr 1)) (limbs bytes) S.zero
    refine ⟨s, ?_, ?_⟩
    · rw [Scalars.scalarFromBeModN, if_neg (not_or.2 ⟨hne, not_not.2 hlen⟩), htwo]
      exact hs
    · rw [heq, hS.zero]
      exact scalarFromBeModN_eq bytes ⟨hne, hlen⟩
  · have hle : cmpBe v nMinus1Be ≠ .lt → beNat nMinus1Be.1 ≤ beNat v.1 := by
      intro h
      rw [cmpBe_eq] at h
      exact not_lt.1 fun hlt => h (compare_lt_iff_lt.2 hlt)
    refine ⟨?_, beNat_reduceModNMinus1 v, fun h => (subChecked_eq (hle h)).1⟩
    unfold reduceChecked reduceModNMinus1
    split_ifs with h
    · rfl
    · exact (subChecked_eq (hle h)).2

/-- The reductions with the integers modulo the group order. -/
theorem reductions_total_zmod :
    ∃ s, Scalars.zmod.scalarFromBeModN (List.replicate 32 0xff) = some s ∧
      id s = (beNat (List.replicate 32 0xff) : ZMod groupOrder) :=
  (reductions_total Scalars.zmod_lawful).1 (List.replicate 32 0xff) (by decide) (by decide)

/-- The empty byte string has a length that is a multiple of 16, and it panics. -/
theorem scalarFromBeModN_empty :
    ([] : List UInt8).length % 16 = 0 ∧ Scalars.zmod.scalarFromBeModN [] = none :=
  ⟨rfl, if_pos (.inl rfl)⟩

end V2xw.Sec
