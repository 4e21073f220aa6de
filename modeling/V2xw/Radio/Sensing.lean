import Mathlib.Algebra.BigOperators.Group.List.Basic
import Mathlib.Logic.Function.Basic
import Mathlib.Order.WithBot
import V2xw.Radio.Sidelink

/-!
# The sensing window of a UE

What a UE heard in the last slots, from `crates/v2xw-radio/src/sps.rs`: a ring of cells, by slot and
sub-channel, that are overwritten when their slot comes round; the slots the UE transmitted in; and
the energy of jammers.

## Main definitions

* `SensedCell` — what was heard on a sub-channel of a slot.
* `SensingHistory` — the window, with `noteSensed`, `noteEnergy`, `noteJam` and
  `noteTransmitted`.
* `SensingHistory.srssiMw` — the energy on a sub-channel of a slot.
-/

namespace V2xw.Radio

/-- What was heard on a sub-channel of a slot. -/
structure SensedCell where
  slot : ℕ
  /-- The strongest announcement. Minus infinity where none was decoded. -/
  rsrpDbm : WithBot ℚ
  /-- The announced period, zero for none. -/
  rriSlots : ℕ
  len : ℕ
  srssiMw : ℚ
  deriving DecidableEq

/-- Nothing heard. -/
def SensedCell.empty : SensedCell := ⟨2 ^ 64 - 1, ⊥, 0, 0, 0⟩

/-- The window. -/
structure SensingHistory where
  windowSlots : ℕ
  subchannels : ℕ
  /-- By slot in the window, then by sub-channel. -/
  cells : ℕ → SensedCell
  /-- The slots the UE transmitted in. -/
  txSlot : ℕ → ℕ
  /-- From a slot up to another, the energy of a jammer on each sub-channel. -/
  jam : List (ℕ × ℕ × ℚ)

namespace SensingHistory

/-- An empty window. -/
def new (subchannels windowSlots : ℕ) : SensingHistory :=
  ⟨windowSlots, subchannels, fun _ => SensedCell.empty, fun _ => 2 ^ 64 - 1, []⟩

/-- A jammer puts energy on every sub-channel. -/
def noteJam (h : SensingHistory) (fromSlot toSlot : ℕ) (mwPerSubch : ℚ) : SensingHistory :=
  if toSlot ≤ fromSlot ∨ ¬ 0 < mwPerSubch then h
  else
    let keepFrom := toSlot - 2 * h.windowSlots
    { h with
      jam := (h.jam.filter fun j => decide (keepFrom < j.2.1)) ++ [(fromSlot, toSlot, mwPerSubch)] }

/-- The energy of the jammers on a sub-channel of a slot. -/
def jamMw (h : SensingHistory) (slot : ℕ) : ℚ :=
  ((h.jam.filter fun j => decide (j.1 ≤ slot ∧ slot < j.2.1)).map fun j => j.2.2).sum

/-- Where the ring has a sub-channel of a slot. -/
def index (h : SensingHistory) (slot subch : ℕ) : ℕ := slot % h.windowSlots * h.subchannels + subch

/-- An announcement was decoded, for a resource that is reserved. -/
def noteSensed (h : SensingHistory) (res : SlResource) (rsrpDbm : ℚ) (rriSlots : ℕ) :
    SensingHistory :=
  ((res.range.take h.subchannels).takeWhile fun sc => decide (sc < h.subchannels)).foldl
    (fun h sc =>
      let i := h.index res.slot sc
      let cell := h.cells i
      if cell.slot ≠ res.slot then
        { h with cells := Function.update h.cells i ⟨res.slot, rsrpDbm, rriSlots, res.len, 0⟩ }
      else if cell.rsrpDbm < (rsrpDbm : WithBot ℚ) then
        { h with cells := Function.update h.cells i { cell with rsrpDbm, rriSlots, len := res.len } }
      else h) h

/-- Energy was received on a sub-channel of a slot. -/
def noteEnergy (h : SensingHistory) (slot subch : ℕ) (mw : ℚ) : SensingHistory :=
  if h.subchannels ≤ subch then h
  else
    let i := h.index slot subch
    let cell := h.cells i
    if cell.slot ≠ slot then
      { h with cells := Function.update h.cells i { SensedCell.empty with slot, srssiMw := mw } }
    else { h with cells := Function.update h.cells i { cell with srssiMw := cell.srssiMw + mw } }

/-- The UE transmitted in a slot. -/
def noteTransmitted (h : SensingHistory) (slot : ℕ) : SensingHistory :=
  { h with txSlot := Function.update h.txSlot (slot % h.windowSlots) slot }

/-- Whether the UE transmitted in a slot. -/
def transmittedIn (h : SensingHistory) (slot : ℕ) : Bool :=
  h.txSlot (slot % h.windowSlots) == slot

/-- The cell of a sub-channel of a slot, unless it holds another slot. -/
def cell (h : SensingHistory) (slot subch : ℕ) : Option SensedCell :=
  if h.subchannels ≤ subch then none
  else
    let c := h.cells (h.index slot subch)
    if c.slot = slot then some c else none

/-- The energy on a sub-channel of a slot. A UE that transmitted measured nothing. -/
def srssiMw (h : SensingHistory) (slot subch : ℕ) : ℚ :=
  if h.subchannels ≤ subch ∨ h.transmittedIn slot then 0
  else
    let own := ((h.cell slot subch).map SensedCell.srssiMw).getD 0
    if h.jam.isEmpty then own else own + h.jamMw slot

end SensingHistory

end V2xw.Radio
