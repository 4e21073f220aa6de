import V2xw.Client.Mirrors
import V2xw.Lib.Atomic

/-!
# The buffer of poses, in place

The buffer of poses with the columns it derives, and the calls on it as they write its columns one
after another. A call that throws keeps what it has written until then. A delta is checked in loops
of its own, and the loops behind them write the spawned rows, the moved rows and the despawned rows.

Reading a side block behind its end gives a value that a typed array stores as zero. A write behind
the end of a column is ignored.

## Main definitions

* `Client.PoseColumns.applyDelta` — a delta.
* `Client.PoseColumns.after` — the buffer after some calls.
-/

namespace V2xw.Client

open Record Stream

/-! ## Slots -/

/-- The height in centimetres, rounded half away from zero and clamped. -/
def zCmOf (zMm : Int32) : Int16 :=
  let z := zMm.toInt
  let cm := if 0 ≤ z then (z + 5) / 10 else -((5 - z) / 10)
  Int16.ofInt (max (-2 ^ 15) (min cm (2 ^ 15 - 1)))

/-- Millimetres about an origin in metres, as a column of single precision keeps them. -/
def dequantisePositionM (mm : Int32) (originM : F64) : Float32 :=
  (originM.toFloat + Float.ofInt mm.toInt / Quant.mmPerM).toFloat32

/-- The columns of a slot, with the derived ones. -/
structure PoseSlot where
  row : PoseRow
  zCm : Int16
  position : Axes Float32
  heading : Float32
  speed : Float32

namespace PoseSlot

/-- A slot without an actor. -/
def empty : PoseSlot := ⟨PoseRow.empty, 0, ⟨0, 0, 0⟩, 0, 0⟩

/-- Derives the columns again. -/
def refresh (origin : Axes F64) (p : PoseSlot) : PoseSlot :=
  { p with
    zCm := zCmOf p.row.zMm
    position := ⟨dequantisePositionM p.row.xMm origin.x, dequantisePositionM p.row.yMm origin.y,
      dequantisePositionM p.row.zMm origin.z⟩
    heading := (p.row.headingBrad.toNat.toFloat * (Quant.tau / Quant.bradPerTurn)).toFloat32
    speed := (Float.ofInt p.row.speedCq.toInt / Quant.speedScale).toFloat32 }

end PoseSlot

/-! ## The buffer -/

/-- The buffer of poses. -/
structure PoseColumns where
  slots : List PoseSlot
  slotBound : ℕ
  count : ℕ
  gopIndex : ℤ
  stepIndex : ℕ
  hasKeyframe : Bool
  simTimeNs : SimTime
  origin : Axes F64

namespace PoseColumns

/-- An empty buffer. -/
def new (capacity : ℕ) : PoseColumns where
  slots := List.replicate (max 1 capacity) PoseSlot.empty
  slotBound := maxActorSlots
  count := 0
  gopIndex := -1
  stepIndex := 0
  hasKeyframe := false
  simTimeNs := 0
  origin := ⟨F64.zero, F64.zero, F64.zero⟩

/-- The slots that there is room for. -/
def capacity (b : PoseColumns) : ℕ := b.slots.length

/-- The bound on the slots that a delta may name. -/
def slotLimit (b : PoseColumns) : ℕ := max b.slotBound b.capacity

/-- Sets the bound on slots. -/
def setSlotBound (b : PoseColumns) (actorCapacity : ℕ) : PoseColumns :=
  if actorCapacity = 0 then b else { b with slotBound := min maxActorSlots actorCapacity }

/-- Grows the buffer. -/
def ensureCapacity (b : PoseColumns) (capacity : ℕ) : PoseColumns :=
  { b with slots := grow PoseSlot.empty b.slots capacity }

/-- Drops all stream state. -/
def reset (b : PoseColumns) : PoseColumns :=
  { b with
    slots := b.slots.map fun p =>
      { p with row := { p.row with actorId := u32None, laneId := u32None, occupied := false } }
    count := 0
    gopIndex := -1
    stepIndex := 0
    hasKeyframe := false
    simTimeNs := 0 }

/-- A keyframe overwrites the slots it has rows for, and releases those above. -/
def applyKeyframe (b : PoseColumns) (kf : KeyframeBody) : PoseColumns :=
  let A := kf.actors.length
  let b' := b.ensureCapacity (max A 1)
  { b' with
    slots :=
      kf.actors.map (fun a => PoseSlot.refresh kf.origin { PoseSlot.empty with row := .ofActorRow a })
        ++ (b'.slots.drop A).mapIdx fun i p =>
          if A + i < b.count then
            { p with row := { p.row with occupied := false, actorId := u32None } }
          else p
    origin := kf.origin
    count := A
    gopIndex := kf.gopIndex.toNat
    stepIndex := 0
    hasKeyframe := true
    simTimeNs := kf.simTimeNs }

/-! ## Checks -/

/-- A slot must be below the bound. -/
def checkSlot (what : String) (slot : UInt32) : Proc PoseColumns ProtocolError Unit := do
  let limit := (← get).slotLimit
  if limit ≤ slot.toNat then
    throw ⟨.badOffset,
      s!"Delta {what} slot {slot} is at or beyond the actor-capacity bound {limit} (§3.1.1)",
      some what⟩

/-- Checks the spawned rows, for the capacity they need. -/
def checkSpawns : List SpawnRow → ℕ → Proc PoseColumns ProtocolError ℕ
  | [], growTo => pure growTo
  | sp :: spawns, growTo => do
    checkSlot "spawns" sp.slot
    checkSpawns spawns (max growTo (sp.slot.toNat + 1))

/-- Does a moved row announce an entry of a side block? -/
def announces (flag : UInt8) (m : MovedRow) : Bool := m.mflags &&& flag != 0

/-- Checks a moved row against the capacity there will be. -/
def checkMoved (bound : ℕ) (m : MovedRow) : Proc PoseColumns ProtocolError Unit := do
  checkSlot "moved" m.slot
  if bound ≤ m.slot.toNat then
    throw ⟨.badState, s!"Delta moves slot {m.slot} beyond capacity {bound}", none⟩

/-- Checks the moved rows, for the entries they need of the two side blocks. -/
def checkMovedRows (bound : ℕ) :
    List MovedRow → ℕ → ℕ → Proc PoseColumns ProtocolError (ℕ × ℕ)
  | [], absNeeded, laneNeeded => pure (absNeeded, laneNeeded)
  | m :: moved, absNeeded, laneNeeded => do
    checkMoved bound m
    checkMovedRows bound moved (absNeeded + (announces mflagAbsolute m).toNat)
      (laneNeeded + (announces mflagLaneChanged m).toNat)

/-- Everything about a delta that can be refused, before any column is written. -/
def validate (d : DeltaBody) : Proc PoseColumns ProtocolError Unit := do
  let growTo ← checkSpawns d.spawns 0
  let needed ← checkMovedRows (max (← get).capacity growTo) d.moved 0 0
  if d.abs.length < needed.1 then
    throw ⟨.badState,
      s!"Delta sets MFLAG_ABSOLUTE on {needed.1} moved rows but the absolute block holds only {d.abs.length} entries (§3.4.3)",
      some "Delta.absolute"⟩
  if d.lanes.length < needed.2 then
    throw ⟨.badState,
      s!"Delta sets MFLAG_LANE_CHANGED on {needed.2} moved rows but the lane block holds only {d.lanes.length} entries (§3.4.4)",
      some "Delta.lanes"⟩

/-! ## Writes -/

/-- Writes columns of a slot. -/
def write (slot : UInt32) (f : PoseRow → PoseRow) : Proc PoseColumns ProtocolError Unit :=
  modify fun b =>
    { b with slots := b.slots.modify slot.toNat fun p => { p with row := f p.row } }

/-- Derives the columns of a slot again. -/
def refresh (slot : UInt32) : Proc PoseColumns ProtocolError Unit :=
  modify fun b => { b with slots := b.slots.modify slot.toNat (PoseSlot.refresh b.origin) }

/-- Writes the spawned rows, each of which may be beyond the capacity. -/
def spawnRows : List SpawnRow → Proc PoseColumns ProtocolError Unit
  | [] => pure ()
  | sp :: spawns => do
    modify fun b => b.ensureCapacity (sp.slot.toNat + 1)
    write sp.slot fun _ => .ofSpawnRow sp
    modify fun b => { b with count := max b.count (sp.slot.toNat + 1) }
    refresh sp.slot
    spawnRows spawns

/-- Moves a row to the next entry of the absolute block, or by its displacement. -/
def place (abs : List AbsRow) (m : MovedRow) (absCursor : ℕ) :
    Proc PoseColumns ProtocolError ℕ :=
  if announces mflagAbsolute m then do
    let a := abs.getD absCursor ⟨0, 0, 0⟩
    write m.slot fun r => { r with xMm := a.xMm, yMm := a.yMm, zMm := a.zCm.toInt32 * 10 }
    return absCursor + 1
  else do
    write m.slot fun r =>
      { r with
        xMm := r.xMm + m.dxMm.toInt32
        yMm := r.yMm + m.dyMm.toInt32
        zMm := r.zMm + m.dzMm.toInt32 }
    return absCursor

/-- Takes the next entry of the lane block, if the row has one. -/
def changeLane (lanes : List UInt32) (m : MovedRow) (laneCursor : ℕ) :
    Proc PoseColumns ProtocolError ℕ :=
  if announces mflagLaneChanged m then do
    write m.slot fun r => { r with laneId := lanes.getD laneCursor 0 }
    return laneCursor + 1
  else return laneCursor

/-- Writes the moved rows, with a cursor into each side block. -/
def moveRows (abs : List AbsRow) (lanes : List UInt32) :
    List MovedRow → ℕ → ℕ → Proc PoseColumns ProtocolError Unit
  | [], _, _ => pure ()
  | m :: moved, absCursor, laneCursor => do
    let absCursor ← place abs m absCursor
    let laneCursor ← changeLane lanes m laneCursor
    write m.slot fun r =>
      { r with
        headingBrad := m.headingBrad
        speedCq := m.speedCq
        accelCq := m.accelCq
        state := m.state
        verifiedNeighbors := m.verifiedNeighbors
        occupied := true }
    refresh m.slot
    moveRows abs lanes moved absCursor laneCursor

/-- Writes the despawned rows. -/
def despawnRows : List DespawnRow → Proc PoseColumns ProtocolError Unit
  | [] => pure ()
  | dp :: despawns => do
    write dp.slot fun r => { r with occupied := false, actorId := u32None, laneId := u32None }
    despawnRows despawns

/-- Applies a delta. -/
def applyDelta (d : DeltaBody) : Proc PoseColumns ProtocolError DeltaApplyResult := do
  let b ← get
  if !b.hasKeyframe then return .refused .noKeyframe
  else if (d.gopIndex.toNat : ℤ) ≠ b.gopIndex then return .refused .gopMismatch
  else if d.stepIndex.toNat ≠ b.stepIndex + 1 then return .refused .stepGap
  else
    validate d
    spawnRows d.spawns
    moveRows d.abs d.lanes d.moved 0 0
    despawnRows d.despawns
    modify fun b => { b with stepIndex := d.stepIndex.toNat, simTimeNs := d.simTimeNs }
    return .applied d.moved.length d.spawns.length d.despawns.length

/-! ## Calls -/

/-- A call on the buffer. -/
inductive Call
  | setSlotBound (actorCapacity : ℕ)
  | applyKeyframe (kf : KeyframeBody)
  | applyDelta (d : DeltaBody)
  | reset

/-- The buffer after a call, which keeps what the call wrote if it throws. -/
def call (b : PoseColumns) : Call → PoseColumns
  | .setSlotBound actorCapacity => b.setSlotBound actorCapacity
  | .applyKeyframe kf => b.applyKeyframe kf
  | .applyDelta d => ((applyDelta d).exec b).2
  | .reset => b.reset

/-- The buffer after some calls. -/
def after (capacity : ℕ) (calls : List Call) : PoseColumns := calls.foldl call (new capacity)

end PoseColumns

end V2xw.Client
