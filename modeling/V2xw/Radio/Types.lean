import V2xw.Core.Time

/-!
# Frames, access categories and draws

What the medium access models of `crates/v2xw-radio` share, from `types.rs`, `phy.rs` and the random
streams of `crates/v2xw-core/src/rng.rs`.

## Main definitions

* `Mcs`, `airTime` — the rates, and the air time of a frame.
* `AccessCategory` — the categories, with their windows and waiting times.
* `MacSdu`, `TxGrant`, `DropCause` — what a medium access model
  takes, grants and refuses.
* `below` — a random number below a bound.
-/

namespace V2xw.Radio

open Core (SimTime Duration)

/-- The modulation and coding schemes. -/
inductive Mcs
  | r3Bpsk12
  | r4p5Bpsk34
  | r6Qpsk12
  | r9Qpsk34
  | r12Qam16_12
  | r18Qam16_34
  | r24Qam64_23
  | r27Qam64_34
  deriving DecidableEq, Repr

/-- Data bits per symbol. -/
def Mcs.dataBitsPerSymbol : Mcs → ℕ
  | r3Bpsk12 => 24
  | r4p5Bpsk34 => 36
  | r6Qpsk12 => 48
  | r9Qpsk34 => 72
  | r12Qam16_12 => 96
  | r18Qam16_34 => 144
  | r24Qam64_23 => 192
  | r27Qam64_34 => 216

/-- A slot, in nanoseconds. -/
def slotNs : ℕ := 13000

/-- The short interframe space, in nanoseconds. -/
def sifsNs : ℕ := 32000

/-- The largest service data unit, in bytes. -/
def maxMsduBytes : ℕ := 2304

/-- The bits of the data field of a frame, with the service and tail bits. -/
def dataFieldBits (bytes : ℕ) : ℕ := 16 + 8 * bytes + 6

/-- The air time of a frame: preamble, signal and data symbols. -/
def airTime (bytes : ℕ) (mcs : Mcs) : Duration :=
  let dbps := mcs.dataBitsPerSymbol
  ⟨32000 + 8000 + 8000 * ((dataFieldBits bytes + dbps - 1) / dbps)⟩

/-! ## Access categories -/

/-- The access categories: background, best effort, video and voice. -/
inductive AccessCategory
  | bk
  | be
  | vi
  | vo
  deriving DecidableEq, Repr

namespace AccessCategory

/-- The contention window, which is never doubled. -/
def cwMin : AccessCategory → ℕ
  | vo => 3
  | vi => 7
  | be | bk => 15

/-- The number of slots of the waiting time. -/
def aifsn : AccessCategory → ℕ
  | vo => 2
  | vi => 3
  | be => 6
  | bk => 9

/-- The waiting time. -/
def aifs (ac : AccessCategory) : Duration := ⟨slotNs * ac.aifsn + sifsNs⟩

/-- The spelling in errors. -/
def label : AccessCategory → String
  | vo => "AC_VO"
  | vi => "AC_VI"
  | be => "AC_BE"
  | bk => "AC_BK"

end AccessCategory

/-! ## Frames -/

/-- The service data unit a frame carries. -/
structure SduRef where
  sdu : ℕ
  /-- The frame counter of the node. -/
  seq : ℕ
  deriving DecidableEq, Repr

/-- A frame, as far as medium access looks into it. -/
structure FrameDescriptor where
  bytes : ℕ
  mcs : Mcs
  channel : ℕ
  sduRef : SduRef
  deriving DecidableEq, Repr

/-- A frame handed down to medium access. -/
structure MacSdu where
  frame : FrameDescriptor
  enqueuedAt : SimTime
  deriving DecidableEq, Repr

/-- Why a frame was refused. -/
inductive DropCause
  | tooLarge (bytes cap : ℕ)
  | queueFull (ac : String) (depth : ℕ)
  deriving DecidableEq, Repr

/-- A queued frame may go on the air. -/
structure TxGrant where
  sdu : MacSdu
  ac : AccessCategory
  time : SimTime
  /-- The slots counted down for it. -/
  backoffSlots : ℕ
  aifsNs : ℕ
  attempt : ℕ
  deriving DecidableEq, Repr

/-! ## Draws -/

/-- A number below `n` from one draw. -/
def below (draw : UInt64) (n : ℕ) : ℕ := draw.toNat * n / 2 ^ 64

lemma below_lt (draw : UInt64) {n : ℕ} (hn : 0 < n) : below draw n < n := by
  refine Nat.div_lt_of_lt_mul ?_
  exact Nat.mul_lt_mul_of_pos_right draw.toNat_lt hn

end V2xw.Radio
