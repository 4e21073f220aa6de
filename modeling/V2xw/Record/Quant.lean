import Mathlib.Algebra.Order.Group.Abs
import Mathlib.Algebra.Order.Group.Int
import V2xw.Core.Time
import V2xw.Record.Snapshot

/-!
# Pose quantisation

The quantisation of `crates/v2xw-record/src/quant.rs`. Floats are the `Float` of the language, whose
arithmetic is that of binary64; rounding half away from zero and the remainder, which have no
logical model there, are defined here on the unpacked number.

A delta carries the difference against the value transmitted before, which a `PoseRef` holds. Its
`z` is an `i64` in the source; `q` keeps it within `2 ^ 62`, so its differences do not overflow and
it is an integer here.

## Main definitions

* `Quant.q` — scaling, rounding and clamping.
* `Quant.xMm`, `Quant.zMm`, `Quant.headingBrad`,
  `Quant.speedCq`, `Quant.accelCq` — the quantised fields.
* `PoseRef`, `PoseRef.step` — the transmitted reference and its update.

## Main results

* `PoseRef.step_apply` — a receiver that adds a step lands on the target.
* `PoseRef.step_unchanged` — a step that moves nothing leaves the reference in place.
-/

namespace V2xw.Record

/-! ## Floating-point operations -/

/-- The number with a bit pattern. -/
def F64.toFloat (a : F64) : Float := Float.ofBits a.bits

/-- The bit pattern of positive zero. -/
def F64.zero : F64 := ⟨0⟩

namespace Quant

open Float.Model UnpackedFloat

/-- The number nearest to an integer, the cast `as f64`. -/
def ofInt (n : ℤ) : Float := .ofModel (.ofInt n)

/-- The nearest integer, halves away from zero, the method `round`. -/
def roundHalfAwayFromZero (v : Float) : Float :=
  match v.toModel.unpack with
  | .finite s m e _ =>
    let n := if 0 ≤ e then m <<< e.toNat else (m + 2 ^ ((-e).toNat - 1)) / 2 ^ (-e).toNat
    .ofModel (.pack (normalize .binary64 (s.apply n) 0 s))
  | _ => v

/-- The remainder of the truncated division, the operator `%`. -/
def rem (v w : Float) : Float :=
  match v.toModel.unpack, w.toModel.unpack with
  | .finite s m e _, .finite _ m' e' _ =>
    let low := min e e'
    let r := (m <<< (e - low).toNat) % (m' <<< (e' - low).toNat)
    .ofModel (.pack (normalize .binary64 (s.apply r) low s))
  | .finite .., .infinity _ | .zero _, .finite .. | .zero _, .infinity _ => v
  | _, _ => .ofModel (.pack .notANumber)

/-- The least non-negative remainder, the method `rem_euclid`. -/
def remEuclid (v w : Float) : Float :=
  let r := rem v w
  if r < 0.0 then r + w.abs else r

/-! ## The quantised fields -/

/-- Millimetres per metre. -/
def mmPerM : Float := 1000.0

/-- Binary radians in a full turn. -/
def bradPerTurn : Float := 65536.0

/-- A full turn in radians, the constant `TAU`. -/
def tau : Float := Float.ofBits 0x401921FB54442D18

/-- Speed steps per metre a second. -/
def speedScale : Float := 128.0

/-- Acceleration steps per metre a second squared. -/
def accelScale : Float := 64.0

/-- Deciseconds per second. -/
def decisecondsPerS : Float := 10.0

/-- The largest displacement of a step before the absolute escape is used. -/
def deltaEscapeMm : ℤ := 32000

/-- Scales, rounds and clamps; a number that is not finite maps to zero. -/
def q (v scale : Float) (lo hi : ℤ) : ℤ :=
  if v.isFinite then
    let scaled := roundHalfAwayFromZero (v * scale)
    if scaled ≤ ofInt lo then lo
    else if ofInt hi ≤ scaled then hi
    else scaled.toModel.toInt64.toInt
  else 0

/-- Absolute x or y: millimetres from the origin. -/
def xMm (value origin : F64) : Int32 :=
  Int32.ofInt (q (value.toFloat - origin.toFloat) mmPerM (-2 ^ 31) (2 ^ 31 - 1))

/-- z on the millimetre grid. -/
def zMm (value origin : F64) : ℤ :=
  q (value.toFloat - origin.toFloat) mmPerM (-2 ^ 62) (2 ^ 62 - 1)

/-- Heading in binary radians; it wraps by construction. -/
def headingBrad (rad : F64) : UInt16 :=
  let turns := rad.toFloat * bradPerTurn / tau
  if !rad.toFloat.isFinite || !turns.isFinite then 0
  else
    let wrapped := remEuclid (roundHalfAwayFromZero turns) bradPerTurn
    if bradPerTurn ≤ wrapped then 0 else wrapped.toModel.toUInt16

/-- Speed in steps of 1/128 m/s. -/
def speedCq (mps : F64) : Int16 :=
  Int16.ofInt (q mps.toFloat speedScale (-2 ^ 15) (2 ^ 15 - 1))

/-- Acceleration in steps of 1/64 m/s². -/
def accelCq (mps2 : F64) : Int16 :=
  Int16.ofInt (q mps2.toFloat accelScale (-2 ^ 15) (2 ^ 15 - 1))

/-- A span in seconds. -/
def asSecsF64 (d : Core.Duration) : Float := ofInt d.ns / 1000000000.0

/-- Time to change in deciseconds, all ones if unknown. -/
def timeToChangeDs : Option Core.Duration → UInt16
  | none => u16None
  | some d => UInt16.ofNat (q (asSecsF64 d) decisecondsPerS 0 (2 ^ 16 - 2)).toNat

/-- The centimetres an absolute escape carries for a millimetre target. -/
def escapeZCm (zMm : ℤ) : Int16 :=
  let cm := roundHalfAwayFromZero (ofInt zMm / 10.0)
  if cm ≤ ofInt (-2 ^ 15) then Int16.minValue
  else if ofInt (2 ^ 15 - 1) ≤ cm then Int16.maxValue
  else cm.toModel.toInt16

example : xMm ⟨(12.345 : Float).toBits⟩ ⟨(-500.0 : Float).toBits⟩ = 512345 := by decide +kernel

example : headingBrad ⟨(-1.5707963267948966 : Float).toBits⟩ = 49152 := by decide +kernel

example : escapeZCm (-25) = -3 := by decide +kernel

end Quant

/-! ## The transmitted reference -/

/-- A slot's pose exactly as it was last put on the wire. -/
structure PoseRef where
  xMm : Int32
  yMm : Int32
  /-- The transmitted height in millimetres. -/
  zMm : ℤ
  headingBrad : UInt16
  speedCq : Int16
  accelCq : Int16
  state : UInt8
  verifiedNeighbors : UInt8
  laneId : UInt32
  deriving DecidableEq, Repr

/-- What one step of quantisation produced for one slot. -/
structure DeltaStep where
  next : PoseRef
  /-- The displacement, zero for an absolute step. -/
  dMm : Axes Int16
  /-- Whether the step needs an entry in the absolute block. -/
  absolute : Bool

/-- The centimetres of a row, in millimetres. -/
def cmToMm (zCm : Int16) : ℤ := zCm.toInt * 10

namespace PoseRef

/-- Whether a target is too far from the reference for a displacement. -/
def escapes (r : PoseRef) (x y : Int32) (z : ℤ) : Bool :=
  decide (Quant.deltaEscapeMm < |x.toInt - r.xMm.toInt|) ||
    decide (Quant.deltaEscapeMm < |y.toInt - r.yMm.toInt|) ||
    decide (Quant.deltaEscapeMm < |z - r.zMm|)

/-- Quantises a new pose against the reference and says how to transmit it. -/
def step (r : PoseRef) (targetX targetY : Int32) (targetZ : ℤ) : DeltaStep :=
  let dx := targetX.toInt - r.xMm.toInt
  let dy := targetY.toInt - r.yMm.toInt
  let dz := targetZ - r.zMm
  let absolute := r.escapes targetX targetY targetZ
  let next := { r with
    xMm := targetX
    yMm := targetY
    -- An escape transmits z on the centimetre grid, and that is the reference it leaves.
    zMm := if absolute then cmToMm (Quant.escapeZCm targetZ) else targetZ }
  { next
    dMm := if absolute then ⟨0, 0, 0⟩ else ⟨Int16.ofInt dx, Int16.ofInt dy, Int16.ofInt dz⟩
    absolute }

lemma toInt_ofInt_of_abs_le {d : ℤ} (h : |d| ≤ Quant.deltaEscapeMm) :
    (Int16.ofInt d).toInt = d := by
  rw [Quant.deltaEscapeMm, abs_le] at h
  refine Int16.toInt_ofInt_of_le ?_ ?_
  · show (-2 : ℤ) ^ 15 ≤ d
    omega
  · show d < (2 : ℤ) ^ 15
    omega

variable {r : PoseRef} {x y : Int32} {z : ℤ}

lemma escapes_eq_false_iff : r.escapes x y z = false ↔
    |x.toInt - r.xMm.toInt| ≤ Quant.deltaEscapeMm ∧
      |y.toInt - r.yMm.toInt| ≤ Quant.deltaEscapeMm ∧ |z - r.zMm| ≤ Quant.deltaEscapeMm := by
  simp only [escapes, Bool.or_eq_false_iff, decide_eq_false_iff_not, not_lt, and_assoc]

@[simp]
lemma step_absolute : (r.step x y z).absolute = r.escapes x y z := rfl

/-- **A receiver that adds a step lands on the target.** -/
theorem step_apply (h : r.escapes x y z = false) :
    r.xMm.toInt + (r.step x y z).dMm.x.toInt = x.toInt ∧
      r.yMm.toInt + (r.step x y z).dMm.y.toInt = y.toInt ∧
      r.zMm + (r.step x y z).dMm.z.toInt = z := by
  obtain ⟨hx, hy, hz⟩ := escapes_eq_false_iff.1 h
  have hd : (r.step x y z).dMm = ⟨Int16.ofInt (x.toInt - r.xMm.toInt),
      Int16.ofInt (y.toInt - r.yMm.toInt), Int16.ofInt (z - r.zMm)⟩ := by
    simp only [step, h, Bool.false_eq_true, if_false]
  rw [hd, toInt_ofInt_of_abs_le hx, toInt_ofInt_of_abs_le hy, toInt_ofInt_of_abs_le hz]
  refine ⟨?_, ?_, ?_⟩ <;> omega

/-- **A step that moves nothing** has the reference for its target. -/
theorem step_unchanged (h : r.escapes x y z = false) (hd : (r.step x y z).dMm = ⟨0, 0, 0⟩) :
    x = r.xMm ∧ y = r.yMm ∧ z = r.zMm := by
  obtain ⟨hx, hy, hz⟩ := step_apply h
  rw [hd] at hx hy hz
  have hzero : (0 : Int16).toInt = 0 := rfl
  rw [hzero, add_zero] at hx hy hz
  exact ⟨Int32.toInt_inj.1 hx.symm, Int32.toInt_inj.1 hy.symm, hz.symm⟩

end PoseRef

end V2xw.Record
