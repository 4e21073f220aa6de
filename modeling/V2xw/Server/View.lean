import V2xw.Record.Receiver
import V2xw.Server.Frame

/-!
# What a client shows

A client that decodes the keyframes and deltas of its stream and applies them in order: the actors
by slot, the signals, and the simulated time. Other frames do not change the picture.

## Main definitions

* `View` — what a client shows.
* `View.apply`, `View.applyAll` — one frame, and a stream.

## Main results

* `View.apply_keyframe` — a keyframe replaces everything.
-/

namespace V2xw.Server

open Record (SimTime RecordError KeyframeBody DeltaBody ActorRow MovedRow AbsRow SpawnRow SignalRow
  nextEntry cmToMm)

/-- What a client shows of an actor. -/
structure Shown where
  actorId : UInt32
  xMm : ℤ
  yMm : ℤ
  zMm : ℤ
  headingBrad : UInt16
  speedCq : Int16
  accelCq : Int16
  laneId : UInt32
  classIdx : UInt8
  state : UInt8
  verifiedNeighbors : UInt8
  deriving DecidableEq, Repr

namespace Shown

/-- The actor of a keyframe row. -/
def ofActorRow (r : ActorRow) : Shown :=
  ⟨r.actorId, r.xMm.toInt, r.yMm.toInt, cmToMm r.zCm, r.headingBrad, r.speedCq, r.accelCq, r.laneId,
    r.classIdx, r.state, r.verifiedNeighbors⟩

/-- The actor of a spawn row. Its acceleration is not transmitted. -/
def ofSpawnRow (r : SpawnRow) : Shown :=
  ⟨r.actorId, r.xMm.toInt, r.yMm.toInt, cmToMm r.zCm, r.headingBrad, r.speedCq, 0, r.laneId,
    r.classIdx, r.state, r.verifiedNeighbors⟩

/-- An actor after a moved row, with the entries the row announced. -/
def move (a : Shown) (m : MovedRow) (abs : Option AbsRow) (lane : Option UInt32) : Shown :=
  let a :=
    match abs with
    | some p => { a with xMm := p.xMm.toInt, yMm := p.yMm.toInt, zMm := cmToMm p.zCm }
    | none =>
      { a with
        xMm := a.xMm + m.dxMm.toInt
        yMm := a.yMm + m.dyMm.toInt
        zMm := a.zMm + m.dzMm.toInt }
  { a with
    headingBrad := m.headingBrad
    speedCq := m.speedCq
    accelCq := m.accelCq
    laneId := lane.getD a.laneId
    state := m.state
    verifiedNeighbors := m.verifiedNeighbors }

end Shown

/-- What a client shows. -/
structure View where
  actors : OrdMap UInt32 Shown
  /-- The phase of a signal and the time to its next change. -/
  signals : OrdMap UInt32 (UInt8 × UInt16)
  simTime : SimTime
  deriving DecidableEq

namespace View

/-- Nothing yet. -/
def empty : View := ⟨∅, ∅, 0⟩

/-- The signals after some signal rows. -/
def setSignals (signals : OrdMap UInt32 (UInt8 × UInt16)) (rows : List SignalRow) :
    OrdMap UInt32 (UInt8 × UInt16) :=
  rows.foldl (fun m r => m.insert r.signalId (r.phase, r.timeToChangeDs)) signals

/-- A keyframe replaces everything. -/
def ofKeyframe (kf : KeyframeBody) : View where
  actors := kf.occupiedRows.foldl (fun m p => m.insert p.1 (Shown.ofActorRow p.2)) ∅
  signals := setSignals ∅ kf.signals
  simTime := kf.simTimeNs

/-- The actors after the moved rows of a delta, with the entries of its side blocks. -/
def moveAll : OrdMap UInt32 Shown → List MovedRow → List AbsRow → List UInt32 → OrdMap UInt32 Shown
  | actors, [], _, _ => actors
  | actors, m :: moved, abs, lanes =>
    let (entry, abs) := nextEntry (m.mflags &&& Record.mflagAbsolute != 0) abs
    let (lane, lanes) := nextEntry (m.mflags &&& Record.mflagLaneChanged != 0) lanes
    moveAll (actors.alter m.slot (Option.map fun a => a.move m entry lane)) moved abs lanes

/-- A delta moves, inserts and removes actors, and changes signals. -/
def applyDelta (v : View) (d : DeltaBody) : View where
  actors :=
    let actors := moveAll v.actors d.moved d.abs d.lanes
    let actors := d.spawns.foldl (fun m s => m.insert s.slot (Shown.ofSpawnRow s)) actors
    d.despawns.foldl (fun m x => m.erase x.slot) actors
  signals := setSignals v.signals d.signals
  simTime := d.simTimeNs

/-- Decodes and applies one frame. -/
def apply (v : View) (f : Frame) : Except RecordError View :=
  match f.kind, f.body with
  | some .keyframe, .raw bytes => (KeyframeBody.decode bytes).map ofKeyframe
  | some .delta, .raw bytes => (DeltaBody.decode bytes).map v.applyDelta
  | _, _ => .ok v

/-- Decodes and applies a stream. -/
def applyAll (v : View) (fs : List Frame) : Except RecordError View := fs.foldlM apply v

/-- **A keyframe** replaces everything a client shows. -/
theorem apply_keyframe {kf : KeyframeBody} (hlen : kf.encode.length < 2 ^ 32) (v : View)
    (flags : UInt16) (seq : ℕ) :
    v.apply ⟨Record.MsgType.id .keyframe, flags, seq, .raw kf.encode⟩ = .ok (ofKeyframe kf) := by
  show (KeyframeBody.decode kf.encode).map ofKeyframe = _
  rw [kf.decode_encode hlen]
  rfl

end View

end V2xw.Server
