import Mathlib.Data.Rat.Floor
import V2xw.Radio.Types

/-!
# The resources of a sidelink

The arithmetic of a resource pool, from `crates/v2xw-radio/src/sidelink.rs`: slots, sub-channels,
reservation periods, and the tables of congestion control. LTE and NR share it.

Slot numbers and instants do not wrap around. Fractions are rational.

## Main definitions

* `Numerology`, `SlResource`, `PoolConfig` — slots, resources and
  the pool they are taken from.
* `PoolConfig.subchannelsFor` — the sub-channels a transport block needs.
* `Rri.cReselRange` — for how many transmissions a reservation is held.
* `SidelinkOccupancy` — what a UE used, by slot and sub-channel.
* `CrLimitTable` — the limits of congestion control.
-/

namespace V2xw.Radio

open Core (SimTime Duration)

/-- The two sidelinks. -/
inductive SlRat
  | lteMode4
  | nrMode2
  deriving DecidableEq, Repr

/-! ## Slots -/

/-- The numerologies. LTE has the first. -/
inductive Numerology
  | mu0
  | mu1
  | mu2
  | mu3
  deriving DecidableEq, Repr

namespace Numerology

/-- The exponent. -/
def mu : Numerology → ℕ
  | mu0 => 0
  | mu1 => 1
  | mu2 => 2
  | mu3 => 3

/-- Slots in a millisecond. -/
def slotsPerMs (m : Numerology) : ℕ := 2 ^ m.mu

/-- The length of a slot. -/
def slot (m : Numerology) : Duration := ⟨1000000 / m.slotsPerMs⟩

/-- The processing gap before the selection window, in slots. -/
def tProc1Slots : Numerology → ℕ
  | mu0 => 3
  | mu1 => 5
  | mu2 => 9
  | mu3 => 17

end Numerology

/-! ## Resources -/

/-- Contiguous sub-channels of a slot. -/
structure SlResource where
  slot : ℕ
  subch : ℕ
  len : ℕ
  deriving DecidableEq, Repr

/-- The sub-channels of a resource. -/
def SlResource.range (r : SlResource) : List ℕ := List.range' r.subch r.len

/-- A modulation order and a code rate, in 1/1024ths. -/
structure SlMcsSpec where
  qm : ℕ
  r1024 : ℕ
  deriving DecidableEq, Repr

/-- The reference mapping of 190 bytes to 10 resource blocks. -/
def lteQpskR070 : SlMcsSpec := ⟨2, 732⟩

/-- The resource pool. -/
structure PoolConfig where
  rat : SlRat
  mu : Numerology
  /-- The bandwidth, in resource blocks. -/
  bandwidthPrb : ℕ
  /-- A sub-channel, in resource blocks. -/
  subchannelPrb : ℕ
  /-- The control channel, in resource blocks. -/
  pscchPrb : ℕ
  /-- Whether the control channel takes blocks of the first sub-channel. -/
  pscchAdjacent : Bool
  dataSymbols : ℕ
  mcs : SlMcsSpec
  minSubchannels : ℕ
  deriving DecidableEq, Repr

/-- The check sum of a transport block, in bits. -/
def tbCrcBits : ℕ := 24

namespace PoolConfig

/-- The data elements of a resource block. -/
def dataResPerPrb (p : PoolConfig) : ℕ := 12 * p.dataSymbols

/-- How many sub-channels there are. -/
def subchannels (p : PoolConfig) : ℕ := p.bandwidthPrb / p.subchannelPrb

/-- The resource blocks an allocation has for data. -/
def dataPrbFor (p : PoolConfig) (len : ℕ) : ℕ :=
  if p.pscchAdjacent then p.subchannelPrb * len - p.pscchPrb else p.subchannelPrb * len

/-- The bits an allocation carries, without the check sum. -/
def payloadBits (p : PoolConfig) (len : ℕ) : ℕ :=
  p.dataResPerPrb * p.dataPrbFor len * p.mcs.qm * p.mcs.r1024 / 1024 - tbCrcBits

/-- The smallest allocation that carries a number of bytes. -/
def subchannelsFor (p : PoolConfig) (bytes : ℕ) : Option ℕ :=
  let want := bytes * 8 % 2 ^ 32
  let first := max 1 (min p.minSubchannels (max p.subchannels 1))
  (List.range' first (p.subchannels + 1 - first)).find? fun len => decide (want ≤ p.payloadBits len)

/-- The share of a sub-channel in the whole bandwidth. -/
def subchannelShare (p : PoolConfig) : ℚ := (p.subchannelPrb : ℚ) / (max p.bandwidthPrb 1 : ℕ)

/-- The slot an instant falls in. -/
def slotOf (p : PoolConfig) (t : SimTime) : ℕ := t / p.mu.slot.ns

/-- The start of a slot. -/
def slotStart (p : PoolConfig) (s : ℕ) : SimTime := s * p.mu.slot.ns

/-- The validation pool of LTE: 10 MHz in four sub-channels. -/
def molinaMasegosaHighway : PoolConfig where
  rat := .lteMode4
  mu := .mu0
  bandwidthPrb := 50
  subchannelPrb := 12
  pscchPrb := 2
  pscchAdjacent := true
  dataSymbols := 9
  mcs := lteQpskR070
  minSubchannels := 1

/-- The validation pool of NR. -/
def todiscoNr (mu : Numerology) (mcs : SlMcsSpec) : PoolConfig where
  rat := .nrMode2
  mu := mu
  bandwidthPrb :=
    match mu with
    | .mu0 => 52
    | .mu1 => 24
    | .mu2 | .mu3 => 11
  subchannelPrb := 10
  pscchPrb := 10
  pscchAdjacent := false
  dataSymbols := 10
  mcs := mcs
  minSubchannels := 1

variable {p : PoolConfig} {s t : SimTime}

lemma slotOf_mono (h : s ≤ t) : p.slotOf s ≤ p.slotOf t := Nat.div_le_div_right h

end PoolConfig

/-! ## Reservations -/

/-- The reservation interval, in milliseconds. Zero is no reservation. -/
structure Rri where
  ms : ℕ
  deriving DecidableEq, Repr

namespace Rri

/-- The interval of messages at 10 Hz. -/
def ms100 : Rri := ⟨100⟩

/-- The range the number of transmissions of a reservation is drawn from. -/
def cReselRange (r : Rri) (rat : SlRat) : ℕ × ℕ :=
  if r.ms = 0 then (1, 1)
  else
    match rat with
    | .lteMode4 => if r.ms ≤ 20 then (25, 75) else if r.ms ≤ 50 then (10, 30) else (5, 15)
    | .nrMode2 =>
      if 100 ≤ r.ms then (5, 15)
      else
        let c := 100 / max r.ms 20
        (5 * c, 15 * c)

/-- The interval in slots. -/
def slots (r : Rri) (mu : Numerology) : ℕ := r.ms * mu.slotsPerMs

end Rri

/-- The probability that a UE keeps its resource, in fifths. -/
structure ProbResourceKeep where
  fifths : ℕ
  deriving DecidableEq, Repr

/-- The probability. -/
def ProbResourceKeep.probability (p : ProbResourceKeep) : ℚ := p.fifths / 5

/-- The share of the candidates that is kept. -/
inductive TxPercentage
  | p20
  | p35
  | p50
  deriving DecidableEq, Repr

/-- The share. -/
def TxPercentage.fraction : TxPercentage → ℚ
  | p20 => 1 / 5
  | p35 => 7 / 20
  | p50 => 1 / 2

/-! ## Congestion control -/

/-- The priority of a packet. Lower numbers go first. -/
structure Pppp where
  k : ℕ
  deriving DecidableEq, Repr

/-- The priority of an access category. -/
def Pppp.ofAccessCategory : AccessCategory → Pppp
  | .vo => ⟨2⟩
  | .vi => ⟨5⟩
  | .be => ⟨6⟩
  | .bk => ⟨8⟩

/-- What a UE used. -/
structure SidelinkOccupancy where
  subchannels : ℕ
  crWindowSlots : ℕ
  crPastSlots : ℕ
  /-- Slots and sub-channels, with the priority of the packet. -/
  used : List ((ℕ × ℕ) × ℕ)
  deriving DecidableEq, Repr

namespace SidelinkOccupancy

/-- Nothing used in a pool. -/
def new (p : PoolConfig) : SidelinkOccupancy :=
  ⟨p.subchannels, 1000 * p.mu.slotsPerMs, 500 * p.mu.slotsPerMs, []⟩

/-- The past and the future part of the window. -/
def crSplit (o : SidelinkOccupancy) : ℕ × ℕ := (o.crPastSlots, o.crWindowSlots - o.crPastSlots - 1)

/-- The sub-channels of the window. -/
def crCapacity (o : SidelinkOccupancy) : ℕ := o.crWindowSlots * o.subchannels

/-- A packet used a sub-channel of a slot. -/
def noteUsedBy (o : SidelinkOccupancy) (slot subch : ℕ) (k : Pppp) : SidelinkOccupancy :=
  if o.used.any fun e => e.1 == (slot, subch) then
    { o with used := o.used.map fun e => if e.1 = (slot, subch) then (e.1, min e.2 k.k) else e }
  else { o with used := o.used ++ [((slot, subch), k.k)] }

/-- The UE used a sub-channel of a slot. -/
def noteUsed (o : SidelinkOccupancy) (slot subch : ℕ) : SidelinkOccupancy :=
  o.noteUsedBy slot subch ⟨8⟩

/-- The sub-channels used in some slots by packets that do not go before a priority. -/
def usedAtOrBelow (o : SidelinkOccupancy) (start stop : ℕ) (k : Pppp) : ℕ :=
  o.used.countP fun e => decide (start ≤ e.1.1 ∧ e.1.1 < stop ∧ k.k ≤ e.2)

/-- Forgets what is before the window. -/
def prune (o : SidelinkOccupancy) (nowSlot : ℕ) : SidelinkOccupancy :=
  { o with used := o.used.filter fun e => decide (nowSlot - o.crWindowSlots ≤ e.1.1) }

end SidelinkOccupancy

/-- Which end of a range is in it. -/
inductive RangeClosure
  | upperInclusive
  | lowerInclusive
  deriving DecidableEq, Repr

/-- The limits of congestion control: ranges of the load, and a limit per range for each class of
priorities. A limit of nothing is no limit. -/
structure CrLimitTable where
  /-- The upper bounds of the ranges. -/
  cbrBounds : List ℚ
  closure : RangeClosure
  /-- First and last priority, and a limit per range. -/
  classes : List (ℕ × ℕ × List (Option ℚ))
  deriving DecidableEq, Repr

namespace CrLimitTable

/-- The range a load falls in. -/
def rangeOf (t : CrLimitTable) (cbr : ℚ) : ℕ :=
  let inside := fun upper : ℚ =>
    match t.closure with
    | .upperInclusive => decide (cbr ≤ upper)
    | .lowerInclusive => decide (cbr < upper)
  (t.cbrBounds.findIdx? inside).getD (t.cbrBounds.length - 1)

/-- The limit for a priority at a load. -/
def limit (t : CrLimitTable) (cbr : ℚ) (k : Pppp) : Option ℚ :=
  ((t.classes.find? fun c => decide (c.1 ≤ k.k ∧ k.k ≤ c.2.1)).bind fun c =>
    c.2.2[t.rangeOf cbr]?).join

end CrLimitTable

end V2xw.Radio
