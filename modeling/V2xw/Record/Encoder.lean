import V2xw.Lib.Machine
import V2xw.Lib.OrdMap
import V2xw.Record.Quant

/-!
# The snapshot producer

The encoder of `crates/v2xw-record/src/encoder.rs`: it turns one snapshot a mobility step into a
keyframe or a delta, quantises every pose against what it transmitted before, and numbers its
frames. A call returns its outcome together with the encoder after it, since a call that fails
late has already changed the encoder.

Counters wrap, as they do in a release build.

## Main definitions

* `Cadence`, `Profile` — how often keyframes come, and who may see what.
* `Snapshot` — the input of one step.
* `SnapshotEncoder` — the state of the encoder.
* `SnapshotEncoder.encode` — one step.
* `SnapshotEncoder.requestKeyframe` — the next frame is a keyframe.
* `producer` — the encoder driven by its caller.
-/

namespace V2xw.Record

/-! ## Cadence -/

/-- The snapshot cadence, in nanoseconds. -/
structure Cadence where
  keyframePeriod : UInt64
  mobilityStep : UInt64
  deriving DecidableEq, Repr

namespace Cadence

/-- Keyframes every second, steps of 100 ms. -/
def default : Cadence := ⟨1000000000, 100000000⟩

/-- A cadence from a scenario: both periods are positive, and keyframes land on steps. -/
def new (keyframePeriod mobilityStep : UInt64) : Except RecordError Cadence :=
  if keyframePeriod = 0 ∨ mobilityStep = 0 then
    .error (.malformed "cadence" "keyframe_period and mobility_step must both be non-zero")
  else if keyframePeriod % mobilityStep ≠ 0 then
    .error (.malformed "cadence"
      s!"keyframe_period {keyframePeriod} ns is not a whole number of {mobilityStep} ns mobility steps")
  else .ok ⟨keyframePeriod, mobilityStep⟩

/-- The largest number of deltas a group of pictures can hold. -/
def maxDeltasPerGop (c : Cadence) : UInt64 := c.keyframePeriod / c.mobilityStep

end Cadence

/-! ## Profiles -/

/-- Which of the two streams a producer or a reader is on. -/
inductive Profile
  /-- Everything, ground truth included. -/
  | full
  | nodeOnly
  deriving DecidableEq, Repr

namespace Profile

/-- The profile field of a keyframe. -/
def wireValue : Profile → UInt16
  | full => profileFull
  | nodeOnly => profileNode

/-- The flag every canonical frame of the profile carries. -/
def frameFlag : Profile → UInt16
  | full => 0
  | nodeOnly => flagNodeOnly

/-- Whether ground truth is withheld. -/
def isNodeOnly : Profile → Bool
  | full => false
  | nodeOnly => true

end Profile

/-! ## Snapshots -/

/-- One actor's pose at a mobility step, as the producer holds it. -/
structure ActorPose where
  slot : UInt32
  actor : UInt32
  node : Option UInt32
  posM : Axes F64
  headingRad : F64
  speedMps : F64
  /-- The acceleration. Ground truth. -/
  accelMps2 : F64
  /-- The lane, if the actor is on one. Ground truth. -/
  lane : Option UInt32
  classIdx : UInt8
  state : UInt8
  verifiedNeighbors : UInt8
  deriving DecidableEq, Repr

/-- Whether a state byte has the equipped bit. -/
def equipped (state : UInt8) : Bool := state &&& stEquipped != 0

/-- One signal head's state at a mobility step. -/
structure SignalState where
  signal : UInt32
  phase : UInt8
  timeToChange : Option Core.Duration
  deriving DecidableEq, Repr

/-- Everything the producer needs for one mobility step. -/
structure Snapshot where
  simTime : SimTime
  actors : List ActorPose
  signals : List SignalState
  /-- Why a new slot appeared. Ground truth. -/
  spawnCauses : OrdMap UInt32 UInt16
  /-- Why a slot disappeared. Ground truth. -/
  despawnCauses : OrdMap UInt32 UInt16

/-- The frame a step produced. -/
inductive SnapshotFrame
  | keyframe (f : Frame)
  | delta (f : Frame)
  deriving DecidableEq, Repr

namespace SnapshotFrame

/-- The frame, whichever kind it is. -/
def frame : SnapshotFrame → Frame
  | keyframe f => f
  | delta f => f

/-- Whether the frame is a keyframe. -/
def isKeyframe : SnapshotFrame → Bool
  | keyframe _ => true
  | delta _ => false

end SnapshotFrame

/-- The quantised pose of an occupied slot. -/
structure Target where
  actorId : UInt32
  nodeId : UInt32
  xMm : Int32
  yMm : Int32
  zMm : ℤ
  headingBrad : UInt16
  speedCq : Int16
  accelCq : Int16
  laneId : UInt32
  classIdx : UInt8
  state : UInt8
  verifiedNeighbors : UInt8
  deriving DecidableEq, Repr

namespace Target

/-- The quantised pose of an actor. -/
def ofPose (origin : Axes F64) (a : ActorPose) : Target where
  actorId := a.actor
  nodeId := a.node.getD u32None
  xMm := Quant.xMm a.posM.x origin.x
  yMm := Quant.xMm a.posM.y origin.y
  zMm := Quant.zMm a.posM.z origin.z
  headingBrad := Quant.headingBrad a.headingRad
  speedCq := Quant.speedCq a.speedMps
  accelCq := Quant.accelCq a.accelMps2
  laneId := a.lane.getD u32None
  classIdx := a.classIdx
  state := a.state
  verifiedNeighbors := a.verifiedNeighbors

/-- The centimetres a keyframe, a spawn or an escape transmits. -/
def zCm (t : Target) : Int16 := Quant.escapeZCm t.zMm

/-- The reference a row with the whole pose leaves: its height is on the centimetre grid. -/
def poseRef (t : Target) : PoseRef where
  xMm := t.xMm
  yMm := t.yMm
  zMm := cmToMm t.zCm
  headingBrad := t.headingBrad
  speedCq := t.speedCq
  accelCq := t.accelCq
  state := t.state
  verifiedNeighbors := t.verifiedNeighbors
  laneId := t.laneId

/-- The keyframe row of the pose. -/
def actorRow (t : Target) : ActorRow where
  actorId := t.actorId
  xMm := t.xMm
  yMm := t.yMm
  laneId := t.laneId
  zCm := t.zCm
  headingBrad := t.headingBrad
  speedCq := t.speedCq
  accelCq := t.accelCq
  classIdx := t.classIdx
  state := t.state
  verifiedNeighbors := t.verifiedNeighbors
  flags8 := 0

/-- The spawn row of the pose. -/
def spawnRow (t : Target) (slot : UInt32) (cause : UInt16) : SpawnRow where
  slot
  actorId := t.actorId
  nodeId := t.nodeId
  xMm := t.xMm
  yMm := t.yMm
  laneId := t.laneId
  zCm := t.zCm
  headingBrad := t.headingBrad
  speedCq := t.speedCq
  cause
  classIdx := t.classIdx
  state := t.state
  verifiedNeighbors := t.verifiedNeighbors

end Target

/-! ## The encoder -/

/-- Produces keyframes and deltas from snapshots. -/
structure SnapshotEncoder where
  origin : Axes F64
  cadence : Cadence
  profile : Profile
  nextSeq : UInt64
  gopsEmitted : UInt32
  stepIndex : UInt32
  lastKeyframeTime : Option SimTime
  lastTime : Option SimTime
  /-- The transmitted reference of every occupied slot. -/
  refs : OrdMap UInt32 PoseRef
  /-- The transmitted phase and countdown of every signal. -/
  signals : OrdMap UInt32 (UInt8 × UInt16)
  forceKeyframe : Bool

/-- What the loop over the rows of a delta has gathered. -/
structure DeltaRows where
  refs : OrdMap UInt32 PoseRef
  moved : List MovedRow
  abs : List AbsRow
  lanes : List UInt32
  spawns : List SpawnRow

/-- One occupied slot of a delta against the reference it was transmitted with, if any. -/
def DeltaRows.push (causes : OrdMap UInt32 UInt16) (acc : DeltaRows) (row : UInt32 × Target) :
    DeltaRows :=
  let (slot, t) := row
  match acc.refs[slot]? with
  | none =>
    { acc with
      spawns := acc.spawns ++ [t.spawnRow slot (causes[slot]?.getD u16None)]
      refs := acc.refs.insert slot t.poseRef }
  | some r =>
    let step := r.step t.xMm t.yMm t.zMm
    let poseChanged := step.absolute || step.dMm != ⟨0, 0, 0⟩
    let laneChanged := t.laneId != r.laneId
    -- Heading, speed and acceleration ride along on a row; they do not cause one.
    let changed := poseChanged || laneChanged || t.state != r.state ||
      t.verifiedNeighbors != r.verifiedNeighbors
    let next := { step.next with
      headingBrad := t.headingBrad
      speedCq := t.speedCq
      accelCq := t.accelCq
      state := t.state
      verifiedNeighbors := t.verifiedNeighbors
      laneId := t.laneId }
    if changed then
      let mflags := (if step.absolute then mflagAbsolute else 0) |||
        (if laneChanged then mflagLaneChanged else 0)
      { acc with
        refs := acc.refs.insert slot next
        abs := if step.absolute then acc.abs ++ [⟨t.xMm, t.yMm, t.zCm⟩] else acc.abs
        lanes := if laneChanged then acc.lanes ++ [t.laneId] else acc.lanes
        moved := acc.moved ++
          [{ slot
             dxMm := step.dMm.x
             dyMm := step.dMm.y
             dzMm := step.dMm.z
             headingBrad := t.headingBrad
             speedCq := t.speedCq
             accelCq := t.accelCq
             state := t.state
             verifiedNeighbors := t.verifiedNeighbors
             mflags }] }
    else { acc with refs := acc.refs.insert slot next }

namespace SnapshotEncoder

/-- An encoder that has produced nothing. -/
def new (origin : Axes F64) (cadence : Cadence) (profile : Profile) (firstSeq : UInt64) :
    SnapshotEncoder where
  origin
  cadence
  profile
  nextSeq := firstSeq
  gopsEmitted := 0
  stepIndex := 0
  lastKeyframeTime := none
  lastTime := none
  refs := ∅
  signals := ∅
  forceKeyframe := false

/-- Requests a keyframe at the next step. -/
def requestKeyframe (e : SnapshotEncoder) : SnapshotEncoder := { e with forceKeyframe := true }

/-- The pose of an actor without its ground truth. -/
def blankPose (a : ActorPose) : ActorPose :=
  { a with lane := none, accelMps2 := F64.zero, state := a.state &&& ~~~stAttacker }

/-- Under the `node` profile the ground truth is gone before quantisation. -/
def blankInput (e : SnapshotEncoder) (snap : Snapshot) : Snapshot :=
  if e.profile.isNodeOnly then
    { snap with
      actors := (snap.actors.filter fun a => equipped a.state).map blankPose
      spawnCauses := ∅
      despawnCauses := ∅ }
  else snap

/-- One actor of the loop over the actors of a snapshot. -/
def addRow (origin : Axes F64) (out : OrdMap UInt32 Target) (a : ActorPose) :
    Except RecordError (OrdMap UInt32 Target) :=
  match out[a.slot]? with
  | some _ => .error (.malformed "snapshot" s!"slot {a.slot} appears twice in one snapshot")
  | none => .ok (out.insert a.slot (Target.ofPose origin a))

/-- The quantised pose of every occupied slot; no slot may appear twice. -/
def rowsOf (e : SnapshotEncoder) (snap : Snapshot) : Except RecordError (OrdMap UInt32 Target) :=
  snap.actors.foldlM (addRow e.origin) ∅

/-- Time advances by whole mobility steps. -/
def checkTime (e : SnapshotEncoder) (t : SimTime) : Except RecordError Unit :=
  match e.lastTime with
  | none => .ok ()
  | some prev =>
    if t ≤ prev then
      .error (.malformed "snapshot"
        s!"sim_time {t} does not advance on the previous step's {prev}")
    else if (t - prev) % e.cadence.mobilityStep ≠ 0 then
      .error (.malformed "snapshot"
        s!"sim_time {t} is {t - prev} ns after the previous step, not a whole number of {e.cadence.mobilityStep} ns steps")
    else .ok ()

/-- Whether the step is encoded as a keyframe: on request, at the start, and when the period since
the last one has passed. -/
def wantKeyframe (e : SnapshotEncoder) (t : SimTime) : Bool :=
  e.forceKeyframe ||
    match e.lastKeyframeTime with
    | none => true
    | some k => decide (e.cadence.keyframePeriod.toNat ≤ t.toNat - k.toNat)

/-- The phase and countdown of every signal of a snapshot; the last state of a signal counts. -/
def signalMap (snap : Snapshot) : OrdMap UInt32 (UInt8 × UInt16) :=
  snap.signals.foldl (fun seen s =>
    seen.insert s.signal (s.phase, Quant.timeToChangeDs s.timeToChange)) ∅

/-- The signal rows of a keyframe. -/
def allSignals (snap : Snapshot) : List SignalRow :=
  (signalMap snap).toList.map fun (id, phase, ds) => ⟨id, ds, phase⟩

/-- The signals whose state changed, and the states transmitted after that. -/
def changedSignals (signals : OrdMap UInt32 (UInt8 × UInt16)) (snap : Snapshot) :
    OrdMap UInt32 (UInt8 × UInt16) × List SignalRow :=
  let (signals, out) := snap.signals.foldl (fun (acc : _ × List SignalRow) s =>
    let now := (s.phase, Quant.timeToChangeDs s.timeToChange)
    if acc.1[s.signal]? = some now then acc
    else (acc.1.insert s.signal now, acc.2 ++ [⟨s.signal, now.2, s.phase⟩])) (signals, [])
  (signals, out.mergeSort fun r r' => decide (r.signalId ≤ r'.signalId))

/-- The dense rows of a keyframe, indexed by slot. -/
def denseRows (rows : OrdMap UInt32 Target) : List ActorRow :=
  let actorCount := match rows.keys.getLast? with
    | none => 0
    | some s => s.toNat + 1
  rows.toList.foldl (fun actors row => actors.set row.1.toNat row.2.actorRow)
    (List.replicate actorCount ActorRow.empty)

/-- The body of a keyframe, with the encoder after it: every row is transmitted, and the
references start over from them. -/
def keyframeBody (e : SnapshotEncoder) (snap : Snapshot) (rows : OrdMap UInt32 Target) :
    KeyframeBody × SnapshotEncoder :=
  ({ simTimeNs := snap.simTime
     origin := e.origin
     gopIndex := e.gopsEmitted
     profile := e.profile.wireValue
     actors := denseRows rows
     signals := allSignals snap },
   { e with
     refs := rows.map fun _ t => t.poseRef
     signals := signalMap snap
     gopsEmitted := e.gopsEmitted + 1
     stepIndex := 0
     lastKeyframeTime := some snap.simTime
     nextSeq := e.nextSeq + 1 })

/-- Encodes a keyframe. It re-seeds interpolation, which a transport flag says. -/
def encodeKeyframe (e : SnapshotEncoder) (snap : Snapshot) (rows : OrdMap UInt32 Target) :
    Except RecordError Frame × SnapshotEncoder :=
  let (body, e') := e.keyframeBody snap rows
  (body.toFrame e.nextSeq (e.profile.frameFlag ||| flagResync), e')

/-- The body of a delta, with the encoder after it: what changed since the frame before it. -/
def deltaBody (e : SnapshotEncoder) (snap : Snapshot) (rows : OrdMap UInt32 Target) :
    DeltaBody × SnapshotEncoder :=
  let acc := rows.toList.foldl (DeltaRows.push snap.spawnCauses) ⟨e.refs, [], [], [], []⟩
  let gone := acc.refs.keys.filter fun s => !rows.contains s
  let (signals, changed) := changedSignals e.signals snap
  ({ simTimeNs := snap.simTime
     -- Saturating: no delta comes before the first keyframe.
     gopIndex := if e.gopsEmitted = 0 then 0 else e.gopsEmitted - 1
     stepIndex := e.stepIndex + 1
     moved := acc.moved
     abs := acc.abs
     lanes := acc.lanes
     spawns := acc.spawns
     despawns := gone.map fun s => ⟨s, snap.despawnCauses[s]?.getD u16None⟩
     signals := changed },
   { e with
     refs := gone.foldl (fun m s => m.erase s) acc.refs
     signals := signals
     stepIndex := e.stepIndex + 1
     nextSeq := e.nextSeq + 1 })

/-- Encodes a delta. -/
def encodeDelta (e : SnapshotEncoder) (snap : Snapshot) (rows : OrdMap UInt32 Target) :
    Except RecordError Frame × SnapshotEncoder :=
  let (body, e') := e.deltaBody snap rows
  (body.toFrame e.nextSeq e.profile.frameFlag, e')

/-- Encodes one mobility step. -/
def encode (e : SnapshotEncoder) (snap : Snapshot) :
    Except RecordError SnapshotFrame × SnapshotEncoder :=
  match e.checkTime snap.simTime with
  | .error err => (.error err, e)
  | .ok () =>
    let blanked := e.blankInput snap
    match e.rowsOf blanked with
    | .error err => (.error err, e)
    | .ok rows =>
      let (outcome, e') :=
        if e.wantKeyframe blanked.simTime then
          ((e.encodeKeyframe blanked rows).1.map SnapshotFrame.keyframe,
            (e.encodeKeyframe blanked rows).2)
        else
          ((e.encodeDelta blanked rows).1.map SnapshotFrame.delta, (e.encodeDelta blanked rows).2)
      match outcome with
      | .error err => (.error err, e')
      | .ok frame =>
        (.ok frame, { e' with lastTime := some blanked.simTime, forceKeyframe := false })

end SnapshotEncoder

/-! ## Runs -/

/-- What the caller of an encoder asks for. -/
inductive ProducerOp
  | encode (snap : Snapshot)
  /-- A keyframe at the next step. -/
  | requestKeyframe

/-- The encoder driven by its caller. A step yields its frame, a request yields none, and a step
that is not accepted ends the run. -/
def producer (e : SnapshotEncoder) :
    Machine SnapshotEncoder ProducerOp (Option SnapshotFrame) RecordError where
  init := e
  step e op := match op with
    | .encode snap => (e.encode snap).1.map fun f => (some f, (e.encode snap).2)
    | .requestKeyframe => .ok (none, e.requestKeyframe)

end V2xw.Record
