import V2xw.Server.Session

/-!
# Steps, greetings and seeks

How a session turns steps into frames, in `crates/v2xw-server/src/session.rs`: a step of the stream,
the state at the stream position for a connection that attaches to a run that is not moving, and the
answer to a seek. The subscriptions that decide which rows are sent are here too.

## Main definitions

* `Session.encodeStep` — the frames of one step.
* `Session.encodeCurrent`, `Session.greet`,
  `Session.regreet` — the start of a stream.
* `Session.encodeSeek` — the answer to a seek.
* `Session.follow`, `Session.setEvents` — subscriptions.
-/

namespace V2xw.Server

open Record (SimTime RecordError MsgType SnapshotEncoder)

namespace Session

/-! ## Steps -/

/-- Whether a snapshot at or after the instant of the step was encoded already. -/
def covers (s : Session) (out : StepOutput) : Bool :=
  out.generation == s.generation &&
    s.encoder.lastTime.any fun prev => decide (out.snapshot.simTime ≤ prev)

/-- The provenance of the run, which follows the first keyframe. -/
def takeProvenance (keyframe : Bool) (fx : StepEffects) : SessionM StepEffects := do
  if keyframe then
    let s ← get
    modify fun s => { s with provenance := none }
    pushProvenance s.provenance fx
  else return fx

/-- The notice of what was dropped, if it is not sent yet. -/
def noticeDrops (fx : StepEffects) : SessionM StepEffects := do
  let s ← get
  if s.pendingDrops.isEmpty then return fx
  else
    match s.dropSpan with
    | none => return fx
    | some (first, last) =>
      modify fun s => { s with dropSpan := none, pendingDrops := DropCounts.zero }
      return { fx with dropNotice := some (first, last, s.pendingDrops, s.seq) }

/-- An owed resync asks the encoder for a keyframe. -/
def armed (s : Session) : SnapshotEncoder :=
  if s.resyncPending then s.encoder.requestKeyframe else s.encoder

/-- The frame of a step with the flags of the transport and of the end of the run. -/
def stepFrame (frame : Frame) (owed endOfRun : Bool) : Frame :=
  let frame := if owed then frame.withFlags (frame.flags ||| Record.flagResync) else frame
  if endOfRun then frame.withFlags (frame.flags ||| flagEndOfRun) else frame

/-- The snapshot of a step, queued, and whether it is a keyframe. -/
def pushSnapshot (out : StepOutput) : SessionM (StepEffects × Bool) := do
  modify fun s => { s with encoder := s.armed }
  let p ← snapshotFrame out.snapshot
  let s ← get
  let owed := p.2 && s.resyncPending
  modify fun s => { s with resyncPending := s.resyncPending && !owed }
  let fx ← push (stepFrame p.1 owed out.endOfRun) p.2 StepEffects.default
  return (fx, p.2)

/-- What comes with the snapshot of a step, queued. -/
def pushRows (out : StepOutput) (fx : StepEffects) : SessionM StepEffects := do
  let telemetry ← telemetryFrame out
  let fx ← pushOption telemetry fx
  let events ← eventFrames out
  let fx ← pushAll events fx
  let metric ← metricFrame out
  pushOption metric fx

/-- Encodes a step that is not covered. -/
def encodeFresh (out : StepOutput) : SessionM StepEffects := do
  let p ← pushSnapshot out
  let fx ← takeProvenance p.2 p.1
  let fx ← pushProvenance out.provenance fx
  let fx ← pushRows out fx
  let fx ← noticeDrops fx
  let frames ← drainQueue
  return { fx with frames }

/-- Encodes one mobility step into the frames this connection may see. -/
def encodeStep (out : StepOutput) : SessionM StepEffects := do
  if out.recorded.isEmpty then
    let s ← get
    -- A step that the greeting covered already is not sent again.
    if s.covers out then return StepEffects.default
    else encodeFresh out
  else forwardRecorded out

/-! ## Greetings -/

/-- An encoder that starts with a keyframe at the number the session is at. -/
def freshEncoder (s : Session) : SnapshotEncoder :=
  (SnapshotEncoder.new s.originM s.cadence s.profile (UInt64.ofNat s.seq)).requestKeyframe

/-- Encodes the state at the stream position: events and metrics are of before this connection. -/
def encodeCurrent (out : StepOutput) : SessionM (List Frame) := do
  modify fun s => { s with encoder := s.freshEncoder, resyncPending := true }
  let fx ← encodeStep { out with events := [], metrics := [], endOfRun := false }
  return fx.frames

/-- The `Hello` and, when the run is not advancing, the state at its stream position. -/
def greet (d : RunDescriptor) (state : RunState) (live : Option (List NodeFacts × List String))
    (simTime : SimTime) (current : Option StepOutput) : SessionM (List Frame) := do
  let s ← get
  let hello ← helloFrameWithNodes d state simTime s.sessionToken live
  let s ← get
  match current.filter fun out => out.generation == s.generation with
  | some out =>
    if s.resumed = false ∧ state ≠ .running then
      let frames ← encodeCurrent out
      return hello :: frames
    else return [hello]
  | none => return [hello]

/-- Moves a connection onto another generation of the run. -/
def regreet (generation : ℕ) (d : RunDescriptor) (state : RunState)
    (live : Option (List NodeFacts × List String)) (simTime : SimTime)
    (current : Option StepOutput) : SessionM (List Frame) := do
  modify fun s => { s.forNewRun d with generation }
  greet d state live simTime current

/-! ## Seeks -/

/-- Retains a frame of a seek: it is answered directly, and not queued. -/
def retainSeek (frame : Frame) (keyframe : Bool) (s : Session) : Session :=
  { s with ring := s.retained frame keyframe, produced := s.produced ++ [frame] }

/-- The frame of an output of a seek: a keyframe is marked as its result. -/
def seekMarked (frame : Frame) (keyframe : Bool) : Frame :=
  if keyframe then frame.withFlags (frame.flags ||| Record.flagResync ||| flagSeekResult)
  else frame

/-- The snapshot of one output of a seek, retained, and whether it is a keyframe. -/
def seekFrame (out : StepOutput) : SessionM (Frame × Bool) := do
  let p ← snapshotFrame out.snapshot
  modify (retainSeek (seekMarked p.1 p.2) p.2)
  return (seekMarked p.1 p.2, p.2)

/-- What a seek has gathered: its frames, the number of the last keyframe, and how many deltas there
were. -/
structure SeekAnswer where
  frames : List Frame
  keyframeSeq : ℕ
  deltas : ℕ

/-- One more frame of a seek. -/
def SeekAnswer.add (a : SeekAnswer) (p : Frame × Bool) : SeekAnswer where
  frames := a.frames ++ [p.1]
  keyframeSeq := if p.2 then p.1.seq else a.keyframeSeq
  deltas := if p.2 then a.deltas else a.deltas + 1

/-- The snapshots of the outputs of a seek. -/
def seekLoop : List StepOutput → SeekAnswer → SessionM SeekAnswer
  | [], acc => return acc
  | out :: outs, acc => do
    let p ← seekFrame out
    seekLoop outs (acc.add p)

/-- The telemetry that comes with a seek. It takes a number and is not retained. -/
def seekCompanion (out : StepOutput) : SessionM (List Frame) := do
  match ← telemetryFrame out with
  | none => return []
  | some frame =>
    let frame := frame.withFlags (frame.flags ||| flagSeekResult)
    modify fun s => { s with produced := s.produced ++ [frame] }
    return [frame]

/-- Encodes the answer to a seek: a keyframe and the deltas after it. -/
def encodeSeek (outs : List StepOutput) : SessionM SeekAnswer := do
  let s ← get
  match outs.getLast? with
  | none => return ⟨[], s.seq, 0⟩
  | some last =>
    -- A seek goes anywhere, so the encoder starts over.
    modify fun s => { s with encoder := s.freshEncoder }
    let answer ← seekLoop outs ⟨[], s.seq, 0⟩
    let companion ← seekCompanion last
    return { answer with frames := answer.frames ++ companion }

/-! ## Subscriptions -/

/-- Follows a node, with the telemetry of others if asked, or drops what was followed. -/
def follow (node : Option UInt32) (clear telemetry : Bool) (extra : List UInt32) (s : Session) :
    Session :=
  if clear then { s with following := none, telemetryNodes := ∅ }
  else
    match node with
    | none => s
    | some node =>
      { s with
        following := some node
        telemetryNodes :=
          if telemetry then s.telemetryNodes ∪ insert node extra.toFinset else s.telemetryNodes }

/-- The channel id a name stands for, if this connection may subscribe it. -/
def resolveChannel (s : Session) (name : String) : Except ServerError UInt16 :=
  match channelByName name with
  | none =>
    .error (.param "/subscribe" s!"unknown channel `{name}`"
      "call events.set with \x7b\"list\": true\x7d for the catalogue")
  | some spec =>
    if s.profile.isNodeOnly && spec.groundTruth then .error (.visibilityDenied name "GT")
    else
      match spec.wireId with
      | some id => .ok id
      | none =>
        .error (.param "/subscribe" s!"`{name}` is never carried in an Event frame"
          "subscribe to a channel with a wire id; see events.set \x7b\"list\": true\x7d")

/-- Subscribes channels, up to the first that is refused. -/
def subscribe : List String → SessionM Unit
  | [] => return
  | name :: names => do
    let s ← get
    let id ← ofExcept (s.resolveChannel name)
    modify fun s => { s with eventChannels := insert id s.eventChannels }
    subscribe names

/-- Changes what events are sent. A refusal keeps the subscriptions made before it. -/
def setEvents (names unsubscribe : List String) (only : Option (List String))
    (nodes : Option (List UInt32)) (sample1In maxEventsPerStep : Option ℕ) : SessionM Unit := do
  let s ← get
  match only with
  | some only =>
    let ids ← ofExcept (only.mapM s.resolveChannel)
    modify fun s => { s with eventChannels := ids.toFinset }
  | none => pure ()
  subscribe names
  modify fun s =>
    { s with
      eventChannels :=
        s.eventChannels \ (unsubscribe.filterMap fun n =>
          (channelByName n).bind ChannelSpec.wireId).toFinset
      eventNodes := (nodes.map List.toFinset).getD s.eventNodes
      sample1In := (sample1In.map fun n => max n 1).getD s.sample1In
      maxEventsPerStep := maxEventsPerStep.getD s.maxEventsPerStep }

end Session

end V2xw.Server
