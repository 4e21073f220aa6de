import V2xw.Record.Wire

/-!
# Snapshot bodies

The bodies of the `Keyframe` and `Delta` frames of `crates/v2xw-record/src/wire/snapshot.rs`, and
their codecs. Both are structures of arrays: a fixed prefix with the counts and offsets of the
sections, and then each section, column by column.

The source fills a buffer sized in advance; here the sections are appended in the order they are
written, which gives the same bytes.

## Main definitions

* `KeyframeBody`, `DeltaBody` — the decoded bodies and their rows.
* `KeyframeBody.encode`, `KeyframeBody.decode`.
* `DeltaBody.encode`, `DeltaBody.decode`.
-/

namespace V2xw.Record

open Layout

/-! ## Constants -/

/-- The length of the fixed part of a keyframe. -/
def keyframePrefixBytes : ℕ := 64

/-- Bytes per keyframe actor row. -/
def actorStride : ℕ := 28

/-- Bytes per signal row. -/
def signalStride : ℕ := 8

/-- The length of the fixed part of a delta. -/
def deltaPrefixBytes : ℕ := 64

/-- Bytes per moved row. -/
def movedStride : ℕ := 20

/-- Bytes per absolute-escape entry. -/
def absStride : ℕ := 12

/-- Bytes per lane entry. -/
def laneStride : ℕ := 4

/-- Bytes per spawn row. -/
def spawnStride : ℕ := 36

/-- Bytes per despawn row. -/
def despawnStride : ℕ := 8

/-- State bit 0: the actor runs an attacker. Ground truth. -/
def stAttacker : UInt8 := 0x01

/-- State bit 3: the actor carries a device. -/
def stEquipped : UInt8 := 0x08

/-- Row flag 0: the row has an entry in the absolute block. -/
def mflagAbsolute : UInt8 := 0x01

/-- Row flag 1: the row has an entry in the lane block. -/
def mflagLaneChanged : UInt8 := 0x02

/-- The profile of a full stream. -/
def profileFull : UInt16 := 0

/-- The profile of a `node` stream. -/
def profileNode : UInt16 := 1

/-! ## Rows -/

/-- Three values, one an axis. -/
structure Axes (α : Type) where
  x : α
  y : α
  z : α
  deriving DecidableEq, Repr

/-- One keyframe actor row; rows are indexed by slot. -/
structure ActorRow where
  /-- The actor; all ones for an empty slot. -/
  actorId : UInt32
  xMm : Int32
  yMm : Int32
  /-- The lane, all ones if off-lane or withheld. Ground truth. -/
  laneId : UInt32
  zCm : Int16
  headingBrad : UInt16
  speedCq : Int16
  /-- The acceleration. Ground truth. -/
  accelCq : Int16
  classIdx : UInt8
  state : UInt8
  verifiedNeighbors : UInt8
  flags8 : UInt8
  deriving DecidableEq, Repr

namespace ActorRow

/-- The row of an unoccupied slot. -/
def empty : ActorRow := ⟨u32None, 0, 0, 0, 0, 0, 0, 0, 0, 0, 0, 0⟩

/-- Whether the slot of the row is occupied. -/
def isOccupied (r : ActorRow) : Bool := r.actorId != u32None

/-- The columns of the actor rows. -/
def table : Table ActorRow where
  columns :=
    [field ActorRow.actorId fun v r => { r with actorId := v },
     field ActorRow.xMm fun v r => { r with xMm := v },
     field ActorRow.yMm fun v r => { r with yMm := v },
     field ActorRow.laneId fun v r => { r with laneId := v },
     field ActorRow.zCm fun v r => { r with zCm := v },
     field ActorRow.headingBrad fun v r => { r with headingBrad := v },
     field ActorRow.speedCq fun v r => { r with speedCq := v },
     field ActorRow.accelCq fun v r => { r with accelCq := v },
     field ActorRow.classIdx fun v r => { r with classIdx := v },
     field ActorRow.state fun v r => { r with state := v },
     field ActorRow.verifiedNeighbors fun v r => { r with verifiedNeighbors := v },
     field ActorRow.flags8 fun v r => { r with flags8 := v }]
  empty := empty
  complete r := by simp only [refill_cons, refill_nil, field_fill]

end ActorRow

/-- One signal row, shared by keyframes and deltas. -/
structure SignalRow where
  signalId : UInt32
  /-- Deciseconds to the next change, all ones if unknown. -/
  timeToChangeDs : UInt16
  phase : UInt8
  deriving DecidableEq, Repr

/-- The columns of the signal rows. -/
def SignalRow.table : Table SignalRow where
  columns :=
    [field SignalRow.signalId fun v r => { r with signalId := v },
     field SignalRow.timeToChangeDs fun v r => { r with timeToChangeDs := v },
     field SignalRow.phase fun v r => { r with phase := v }]
  empty := ⟨0, 0, 0⟩
  complete r := by simp only [refill_cons, refill_nil, field_fill]

/-- One moved row of a delta. -/
structure MovedRow where
  slot : UInt32
  dxMm : Int16
  dyMm : Int16
  dzMm : Int16
  headingBrad : UInt16
  speedCq : Int16
  /-- The acceleration. Ground truth. -/
  accelCq : Int16
  state : UInt8
  verifiedNeighbors : UInt8
  mflags : UInt8
  deriving DecidableEq, Repr

/-- The columns of the moved rows. -/
def MovedRow.table : Table MovedRow where
  columns :=
    [field MovedRow.slot fun v r => { r with slot := v },
     field MovedRow.dxMm fun v r => { r with dxMm := v },
     field MovedRow.dyMm fun v r => { r with dyMm := v },
     field MovedRow.dzMm fun v r => { r with dzMm := v },
     field MovedRow.headingBrad fun v r => { r with headingBrad := v },
     field MovedRow.speedCq fun v r => { r with speedCq := v },
     field MovedRow.accelCq fun v r => { r with accelCq := v },
     field MovedRow.state fun v r => { r with state := v },
     field MovedRow.verifiedNeighbors fun v r => { r with verifiedNeighbors := v },
     field MovedRow.mflags fun v r => { r with mflags := v }]
  empty := ⟨0, 0, 0, 0, 0, 0, 0, 0, 0, 0⟩
  complete r := by simp only [refill_cons, refill_nil, field_fill]

/-- One absolute-escape entry, in the order of the moved rows that announce one. -/
structure AbsRow where
  xMm : Int32
  yMm : Int32
  zCm : Int16
  deriving DecidableEq, Repr

/-- The fields of an absolute-escape entry. -/
def AbsRow.table : Table AbsRow where
  columns :=
    [field AbsRow.xMm fun v r => { r with xMm := v },
     field AbsRow.yMm fun v r => { r with yMm := v },
     field AbsRow.zCm fun v r => { r with zCm := v }]
  empty := ⟨0, 0, 0⟩
  complete r := by simp only [refill_cons, refill_nil, field_fill]

/-- The lane block is a single column. -/
def laneTable : Table UInt32 where
  columns := [field (fun v : UInt32 => v) fun v _ => v]
  empty := 0
  complete r := by simp only [refill_cons, refill_nil, field_fill]

/-- One spawn row. -/
structure SpawnRow where
  slot : UInt32
  actorId : UInt32
  nodeId : UInt32
  xMm : Int32
  yMm : Int32
  laneId : UInt32
  zCm : Int16
  headingBrad : UInt16
  speedCq : Int16
  /-- Why the actor appeared. Ground truth. -/
  cause : UInt16
  classIdx : UInt8
  state : UInt8
  verifiedNeighbors : UInt8
  deriving DecidableEq, Repr

/-- The columns of the spawn rows. -/
def SpawnRow.table : Table SpawnRow where
  columns :=
    [field SpawnRow.slot fun v r => { r with slot := v },
     field SpawnRow.actorId fun v r => { r with actorId := v },
     field SpawnRow.nodeId fun v r => { r with nodeId := v },
     field SpawnRow.xMm fun v r => { r with xMm := v },
     field SpawnRow.yMm fun v r => { r with yMm := v },
     field SpawnRow.laneId fun v r => { r with laneId := v },
     field SpawnRow.zCm fun v r => { r with zCm := v },
     field SpawnRow.headingBrad fun v r => { r with headingBrad := v },
     field SpawnRow.speedCq fun v r => { r with speedCq := v },
     field SpawnRow.cause fun v r => { r with cause := v },
     field SpawnRow.classIdx fun v r => { r with classIdx := v },
     field SpawnRow.state fun v r => { r with state := v },
     field SpawnRow.verifiedNeighbors fun v r => { r with verifiedNeighbors := v }]
  empty := ⟨0, 0, u32None, 0, 0, u32None, 0, 0, 0, 0, 0, 0, 0⟩
  complete r := by simp only [refill_cons, refill_nil, field_fill]

/-- One despawn row. -/
structure DespawnRow where
  slot : UInt32
  /-- Why the actor left. Ground truth. -/
  cause : UInt16
  deriving DecidableEq, Repr

/-- The columns of the despawn rows. -/
def DespawnRow.table : Table DespawnRow where
  columns :=
    [field DespawnRow.slot fun v r => { r with slot := v },
     field DespawnRow.cause fun v r => { r with cause := v }]
  empty := ⟨0, 0⟩
  complete r := by simp only [refill_cons, refill_nil, field_fill]

/-! ## Sections -/

/-- The offset written for a section: zero says that it is absent. -/
def sectionOff (n off : ℕ) : ℕ := if 0 < n then off else 0

/-- Checks the offset of a section against its count and the size of the body. -/
def checkSection (what name : String) (count off rowBytes bodyLen : ℕ) : Except RecordError Unit :=
  if count = 0 then
    if off ≠ 0 then
      .error (.malformed what
        s!"{name} is empty but off_{name} = {off}, which must be 0 (§2.2)")
    else .ok ()
  else if off = 0 then
    .error (.malformed what
      s!"{name} has {count} rows but off_{name} = 0, which means absent (§2.2)")
  else if bodyLen < off + rowBytes * count then
    .error (.truncated what off (rowBytes * count) (bodyLen - off))
  else .ok ()

/-- The signal section, with a reserved byte a row. -/
def encodeSignals (signals : List SignalRow) : Bytes :=
  emit (SignalRow.table.columns ++ [reserved 1 Nat.one_pos]) signals

/-- Reads the signal section. -/
def decodeSignals (body : Bytes) (off n : ℕ) (what : String) :
    Except RecordError (List SignalRow) :=
  SignalRow.table.readRows (.truncated what) body off n

/-! ## Keyframes -/

/-- A decoded keyframe body. -/
structure KeyframeBody where
  simTimeNs : SimTime
  origin : Axes F64
  gopIndex : UInt32
  profile : UInt16
  /-- The rows, dense and indexed by slot. -/
  actors : List ActorRow
  signals : List SignalRow
  deriving DecidableEq, Repr

/-- The fixed part of a keyframe. -/
structure KeyframePrefix where
  simTimeNs : SimTime
  originX : F64
  originY : F64
  originZ : F64
  actorCount : UInt32
  signalCount : UInt32
  offActors : UInt32
  offSignals : UInt32
  gopIndex : UInt32
  profile : UInt16

/-- The fields of the fixed part of a keyframe. -/
def KeyframePrefix.table : Table KeyframePrefix where
  columns :=
    [field KeyframePrefix.simTimeNs fun v r => { r with simTimeNs := v },
     field KeyframePrefix.originX fun v r => { r with originX := v },
     field KeyframePrefix.originY fun v r => { r with originY := v },
     field KeyframePrefix.originZ fun v r => { r with originZ := v },
     field KeyframePrefix.actorCount fun v r => { r with actorCount := v },
     field KeyframePrefix.signalCount fun v r => { r with signalCount := v },
     field KeyframePrefix.offActors fun v r => { r with offActors := v },
     field KeyframePrefix.offSignals fun v r => { r with offSignals := v },
     field KeyframePrefix.gopIndex fun v r => { r with gopIndex := v },
     field KeyframePrefix.profile fun v r => { r with profile := v }]
  empty := ⟨0, ⟨0⟩, ⟨0⟩, ⟨0⟩, 0, 0, 0, 0, 0, 0⟩
  complete r := by simp only [refill_cons, refill_nil, field_fill]

namespace KeyframeBody

/-- The fixed part the body is written with. -/
def fixed (b : KeyframeBody) : KeyframePrefix where
  simTimeNs := b.simTimeNs
  originX := b.origin.x
  originY := b.origin.y
  originZ := b.origin.z
  actorCount := UInt32.ofNat b.actors.length
  signalCount := UInt32.ofNat b.signals.length
  offActors := UInt32.ofNat (sectionOff b.actors.length keyframePrefixBytes)
  offSignals := UInt32.ofNat
    (sectionOff b.signals.length (keyframePrefixBytes + actorStride * b.actors.length))
  gopIndex := b.gopIndex
  profile := b.profile

/-- Encodes the body; the ten bytes after the profile are reserved. -/
def encode (b : KeyframeBody) : Bytes :=
  emit KeyframePrefix.table.columns [b.fixed] ++ (List.replicate 10 0 ++
    (emit ActorRow.table.columns b.actors ++ encodeSignals b.signals))

/-- The whole frame. -/
def toFrame (b : KeyframeBody) (seq : UInt64) (flags : UInt16) : Except RecordError Frame :=
  Frame.new .keyframe seq flags b.encode

/-- Decodes a body. -/
def decode (body : Bytes) : Except RecordError KeyframeBody := do
  let what := "vwp Keyframe"
  let p ← KeyframePrefix.table.readRecord (.truncated what) body 0
  let a := p.actorCount.toNat
  let s := p.signalCount.toNat
  checkSection what "actors" a p.offActors.toNat actorStride body.length
  checkSection what "signals" s p.offSignals.toNat signalStride body.length
  let actors ← ActorRow.table.fillColumns (.truncated what) body p.offActors.toNat a
  let signals ← decodeSignals body p.offSignals.toNat s what
  .ok ⟨p.simTimeNs, ⟨p.originX, p.originY, p.originZ⟩, p.gopIndex, p.profile, actors, signals⟩

end KeyframeBody

/-! ## Deltas -/

/-- A decoded delta body. -/
structure DeltaBody where
  simTimeNs : SimTime
  /-- The group of pictures the delta belongs to. -/
  gopIndex : UInt32
  /-- The index within the group, from one. -/
  stepIndex : UInt32
  moved : List MovedRow
  abs : List AbsRow
  lanes : List UInt32
  spawns : List SpawnRow
  despawns : List DespawnRow
  signals : List SignalRow
  deriving DecidableEq, Repr

/-- The fixed part of a delta. -/
structure DeltaPrefix where
  simTimeNs : SimTime
  gopIndex : UInt32
  stepIndex : UInt32
  movedCount : UInt32
  absCount : UInt32
  laneCount : UInt32
  spawnCount : UInt32
  despawnCount : UInt32
  signalCount : UInt32
  offMoved : UInt32
  offAbs : UInt32
  offLanes : UInt32
  offSpawns : UInt32
  offDespawns : UInt32
  offSignals : UInt32

/-- The fields of the fixed part of a delta. -/
def DeltaPrefix.table : Table DeltaPrefix where
  columns :=
    [field DeltaPrefix.simTimeNs fun v r => { r with simTimeNs := v },
     field DeltaPrefix.gopIndex fun v r => { r with gopIndex := v },
     field DeltaPrefix.stepIndex fun v r => { r with stepIndex := v },
     field DeltaPrefix.movedCount fun v r => { r with movedCount := v },
     field DeltaPrefix.absCount fun v r => { r with absCount := v },
     field DeltaPrefix.laneCount fun v r => { r with laneCount := v },
     field DeltaPrefix.spawnCount fun v r => { r with spawnCount := v },
     field DeltaPrefix.despawnCount fun v r => { r with despawnCount := v },
     field DeltaPrefix.signalCount fun v r => { r with signalCount := v },
     field DeltaPrefix.offMoved fun v r => { r with offMoved := v },
     field DeltaPrefix.offAbs fun v r => { r with offAbs := v },
     field DeltaPrefix.offLanes fun v r => { r with offLanes := v },
     field DeltaPrefix.offSpawns fun v r => { r with offSpawns := v },
     field DeltaPrefix.offDespawns fun v r => { r with offDespawns := v },
     field DeltaPrefix.offSignals fun v r => { r with offSignals := v }]
  empty := ⟨0, 0, 0, 0, 0, 0, 0, 0, 0, 0, 0, 0, 0, 0, 0⟩
  complete r := by simp only [refill_cons, refill_nil, field_fill]

namespace DeltaBody

/-- Where the absolute block starts. -/
def atAbs (d : DeltaBody) : ℕ := deltaPrefixBytes + movedStride * d.moved.length

/-- Where the lane block starts. -/
def atLanes (d : DeltaBody) : ℕ := d.atAbs + absStride * d.abs.length

/-- Where the spawn block starts. -/
def atSpawns (d : DeltaBody) : ℕ := d.atLanes + laneStride * d.lanes.length

/-- Where the despawn block starts. -/
def atDespawns (d : DeltaBody) : ℕ := d.atSpawns + spawnStride * d.spawns.length

/-- Where the signal block starts. -/
def atSignals (d : DeltaBody) : ℕ := d.atDespawns + despawnStride * d.despawns.length

/-- The fixed part the body is written with. -/
def fixed (d : DeltaBody) : DeltaPrefix where
  simTimeNs := d.simTimeNs
  gopIndex := d.gopIndex
  stepIndex := d.stepIndex
  movedCount := UInt32.ofNat d.moved.length
  absCount := UInt32.ofNat d.abs.length
  laneCount := UInt32.ofNat d.lanes.length
  spawnCount := UInt32.ofNat d.spawns.length
  despawnCount := UInt32.ofNat d.despawns.length
  signalCount := UInt32.ofNat d.signals.length
  offMoved := UInt32.ofNat (sectionOff d.moved.length deltaPrefixBytes)
  offAbs := UInt32.ofNat (sectionOff d.abs.length d.atAbs)
  offLanes := UInt32.ofNat (sectionOff d.lanes.length d.atLanes)
  offSpawns := UInt32.ofNat (sectionOff d.spawns.length d.atSpawns)
  offDespawns := UInt32.ofNat (sectionOff d.despawns.length d.atDespawns)
  offSignals := UInt32.ofNat (sectionOff d.signals.length d.atSignals)

/-- The moved block, with a reserved byte a row. -/
def movedBlock (d : DeltaBody) : Bytes :=
  emit (MovedRow.table.columns ++ [reserved 1 Nat.one_pos]) d.moved

/-- The bytes of an absolute entry, the last two reserved. -/
def absEntry (r : AbsRow) : Bytes := emit AbsRow.table.columns [r] ++ List.replicate 2 0

/-- The absolute block, entry by entry. -/
def absBlock (d : DeltaBody) : Bytes := d.abs.flatMap absEntry

/-- The lane block. -/
def laneBlock (d : DeltaBody) : Bytes := emit laneTable.columns d.lanes

/-- The spawn block, with a reserved byte a row. -/
def spawnBlock (d : DeltaBody) : Bytes :=
  emit (SpawnRow.table.columns ++ [reserved 1 Nat.one_pos]) d.spawns

/-- The despawn block, with two reserved bytes a row. -/
def despawnBlock (d : DeltaBody) : Bytes :=
  emit (DespawnRow.table.columns ++ [reserved 2 Nat.two_pos]) d.despawns

/-- Encodes the body. -/
def encode (d : DeltaBody) : Bytes :=
  emit DeltaPrefix.table.columns [d.fixed] ++ (d.movedBlock ++ (d.absBlock ++ (d.laneBlock ++
    (d.spawnBlock ++ (d.despawnBlock ++ encodeSignals d.signals)))))

/-- The whole frame. -/
def toFrame (d : DeltaBody) (seq : UInt64) (flags : UInt16) : Except RecordError Frame :=
  Frame.new .delta seq flags d.encode

/-- How many moved rows set a flag. -/
def flagged (flag : UInt8) (moved : List MovedRow) : ℕ :=
  (moved.filter fun r => r.mflags &&& flag != 0).length

/-- Checks that the blocks beside the moved rows have an entry for each row that announces one. -/
def checkFlagged (what : String) (moved : List MovedRow) (absCount laneCount : ℕ) :
    Except RecordError Unit :=
  let flaggedAbs := flagged mflagAbsolute moved
  let flaggedLane := flagged mflagLaneChanged moved
  if flaggedAbs ≠ absCount then
    .error (.malformed what
      s!"{flaggedAbs} rows set MFLAG_ABSOLUTE but the absolute block has {absCount} entries")
  else if flaggedLane ≠ laneCount then
    .error (.malformed what
      s!"{flaggedLane} rows set MFLAG_LANE_CHANGED but the lane block has {laneCount} entries")
  else .ok ()

/-- Decodes a body. -/
def decode (body : Bytes) : Except RecordError DeltaBody := do
  let what := "vwp Delta"
  let p ← DeltaPrefix.table.readRecord (.truncated what) body 0
  checkSection what "moved" p.movedCount.toNat p.offMoved.toNat movedStride body.length
  checkSection what "abs" p.absCount.toNat p.offAbs.toNat absStride body.length
  checkSection what "lanes" p.laneCount.toNat p.offLanes.toNat laneStride body.length
  checkSection what "spawns" p.spawnCount.toNat p.offSpawns.toNat spawnStride body.length
  checkSection what "despawns" p.despawnCount.toNat p.offDespawns.toNat despawnStride body.length
  checkSection what "signals" p.signalCount.toNat p.offSignals.toNat signalStride body.length
  let moved ← MovedRow.table.fillColumns (.truncated what) body p.offMoved.toNat p.movedCount.toNat
  let abs ← AbsRow.table.readRecords (.truncated what) body p.offAbs.toNat absStride
    p.absCount.toNat
  let lanes ← laneTable.readRows (.truncated what) body p.offLanes.toNat p.laneCount.toNat
  checkFlagged what moved p.absCount.toNat p.laneCount.toNat
  let spawns ← SpawnRow.table.fillColumns (.truncated what) body p.offSpawns.toNat
    p.spawnCount.toNat
  let despawns ← DespawnRow.table.readRows (.truncated what) body p.offDespawns.toNat
    p.despawnCount.toNat
  let signals ← decodeSignals body p.offSignals.toNat p.signalCount.toNat what
  .ok ⟨p.simTimeNs, p.gopIndex, p.stepIndex, moved, abs, lanes, spawns, despawns, signals⟩

end DeltaBody

end V2xw.Record
