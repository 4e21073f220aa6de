import V2xw.Lib.Stream
import V2xw.Server.Ring

/-!
# The session of a connection

The state machine of one client stream, in `crates/v2xw-server/src/session.rs`: the handshake and
its resume, subscriptions, and the frames of each step, of the greeting and of a seek.

A call that fails keeps the changes it made before, so every operation is a procedure on the
session. The frames a session has made are recorded in `produced`, which no operation reads.
The overlays of a connection are kept apart from it, and its camera and message feed are left out:
no frame depends on them.

## Main definitions

* `StepOutput`, `RunDescriptor` — what an engine hands over.
* `Session` — the state of a connection.
* `Session.helloFrameWithNodes` — the handshake.
* `Session.encodeStep`, `Session.encodeCurrent`,
  `Session.encodeSeek` — the frames of a step, of the greeting and of a seek.
* `Session.canResume`, `Session.resumeBacklog` — the resume.
* `Session.follow`, `Session.setEvents` — subscriptions.
-/

namespace V2xw.Server

open Record (SimTime RecordError MsgType Axes F64 F32 Profile Cadence Snapshot SnapshotEncoder
  NodeProfileStripper)

/-! ## What an engine hands over -/

/-- The states of a run. -/
inductive RunState
  | idle
  | loading
  | running
  | paused
  | seeking
  | finished
  | error
  deriving DecidableEq, Repr

/-- What does not change while a run exists. -/
structure RunDescriptor where
  /-- The `Hello` of the run, with its own symbol table. -/
  hello : HelloBody
  cadence : Cadence
  originM : Axes F64
  duration : SimTime
  /-- Whether an engine produces the stream, or a recording. -/
  live : Bool
  /-- Whether the run can be sought. -/
  seekable : Bool
  /-- What the ids of the run resolve through. -/
  provenance : Option ProvenanceBody

/-- A node as the engine knows it now. -/
structure NodeFacts where
  nodeId : UInt32
  actorId : UInt32
  posM : Axes F32
  label : String
  profileId : String
  flags : UInt16
  kind : UInt8
  classIdx : UInt8
  deriving DecidableEq, Repr

/-- One mobility step: everything a connection could be shown. -/
structure StepOutput where
  simTime : SimTime
  snapshot : Snapshot
  telemetry : List NodeTelemetry
  events : List EventEntry
  metrics : List MetricRow
  /-- Provenance to send before anything that references it. -/
  provenance : Option ProvenanceBody
  /-- Whether this is the last step of the run. -/
  endOfRun : Bool
  /-- Frames to forward instead of encoding the state. -/
  recorded : List Frame
  /-- Which run of the process produced the step. -/
  generation : ℕ

/-- The step of an engine that has nothing to show. -/
def StepOutput.default : StepOutput where
  simTime := 0
  snapshot := ⟨0, [], [], ∅, ∅⟩
  telemetry := []
  events := []
  metrics := []
  provenance := none
  endOfRun := false
  recorded := []
  generation := 0

/-! ## Channels -/

/-- One channel of the catalogue. -/
structure ChannelSpec where
  name : String
  /-- Its id in event frames, if it is carried in them. -/
  wireId : Option UInt16
  /-- Whether the `node` profile withholds it. -/
  groundTruth : Bool

/-- The catalogue. -/
def channelTable : List ChannelSpec :=
  [⟨"app.warning", some 40, false⟩, ⟨"det.observation", some 30, false⟩,
   ⟨"gt.attack.action", some 2, true⟩, ⟨"gt.despawn", some 4, true⟩,
   ⟨"gt.kinematics", some 1, true⟩, ⟨"gt.spawn", some 3, true⟩, ⟨"ma.case", some 32, false⟩,
   ⟨"ma.decision", some 33, false⟩, ⟨"ma.report", some 31, false⟩, ⟨"mac.cbr", some 12, false⟩,
   ⟨"manifest", some 70, false⟩, ⟨"metric.sample", some 50, false⟩, ⟨"msg.latency", none, false⟩,
   ⟨"net.bytes", none, false⟩, ⟨"net.frag", some 13, false⟩, ⟨"net.reassembly", none, true⟩,
   ⟨"node.neighbor", some 16, false⟩, ⟨"node.rx", none, false⟩, ⟨"node.security", none, false⟩,
   ⟨"node.telemetry", some 15, false⟩, ⟨"node.tx", some 10, false⟩,
   ⟨"node.verify", some 14, false⟩, ⟨"phy.prr", none, true⟩, ⟨"phy.rx", some 11, false⟩,
   ⟨"privacy.link", none, false⟩, ⟨"privacy.track", none, false⟩, ⟨"proto.msg", some 21, false⟩,
   ⟨"proto.revocation", some 22, false⟩, ⟨"scenario.event", none, false⟩,
   ⟨"sec.cert", some 20, false⟩, ⟨"sec.pseudonym", none, false⟩,
   ⟨"snapshot.delta", some 61, false⟩, ⟨"snapshot.keyframe", some 60, false⟩]

/-- The channel with a name. -/
def channelByName (name : String) : Option ChannelSpec :=
  channelTable.find? fun c => c.name == name

/-- The channels of ground truth, by their ids in event frames. -/
def groundTruthChannels : List UInt16 :=
  (channelTable.filter ChannelSpec.groundTruth).filterMap ChannelSpec.wireId

/-! ## Sessions -/

/-- What a client asked for when it connected. -/
structure ConnectParams where
  resume : Option ℕ
  profile : Profile

/-- One client stream. -/
structure Session where
  params : ConnectParams
  profile : Profile
  /-- The number the next canonical frame takes. -/
  seq : ℕ
  /-- Blanks a recording for a `node` client. -/
  stripper : Option NodeProfileStripper
  encoder : SnapshotEncoder
  ring : ResumeRing
  queue : SendQueue
  strings : StrTable
  /-- The nodes whose telemetry is sent. -/
  telemetryNodes : Finset UInt32
  /-- The event channels that are sent. -/
  eventChannels : Finset UInt16
  /-- The nodes whose events are sent; empty for all. -/
  eventNodes : Finset UInt32
  maxEventsPerStep : ℕ
  sample1In : ℕ
  /-- The node the client follows. -/
  following : Option UInt32
  resyncPending : Bool
  pendingDrops : DropCounts
  /-- The numbers those drops covered. -/
  dropSpan : Option (ℕ × ℕ)
  /-- The provenance of the run, until a keyframe has carried it. -/
  provenance : Option ProvenanceBody
  originM : Axes F64
  cadence : Cadence
  /-- How many strings the table of the run held. -/
  helloBase : ℕ
  greeted : Bool
  /-- Whether the handshake resumed an existing stream. -/
  resumed : Bool
  /-- The generation of the run the `Hello` described. -/
  generation : ℕ
  sessionToken : String
  /-- Where the symbol table grew: the number of a frame, and the length before it. -/
  stringMarks : List (ℕ × ℕ)
  /-- The canonical frames the session has made. -/
  produced : List Frame

/-- A fallible operation on a session. -/
abbrev SessionM := Stream.Proc Session ServerError

/-- What the transport has to do after a step. -/
structure StepEffects where
  frames : List Frame
  /-- The first and the last number dropped, what was dropped, and the number of the resync. -/
  dropNotice : Option (ℕ × ℕ × DropCounts × ℕ)
  /-- The connection must be closed. -/
  fatal : Bool

/-- Nothing to do. -/
def StepEffects.default : StepEffects := ⟨[], none, false⟩

/-- Reports what the recording layer refused. -/
def ofRecord {α : Type} : Except RecordError α → SessionM α
  | .ok a => pure a
  | .error e => throw (.internal e)

/-- Reports what cannot be built. -/
def ofExcept {α : Type} : Except ServerError α → SessionM α
  | .ok a => pure a
  | .error e => throw e

namespace Session

/-- A session for a connection to a run. -/
def new (params : ConnectParams) (d : RunDescriptor) : Session where
  params
  profile := params.profile
  seq := 0
  stripper :=
    if params.profile.isNodeOnly && !d.live then some NodeProfileStripper.new else none
  encoder := SnapshotEncoder.new d.originM d.cadence params.profile 0
  ring := ResumeRing.new (d.cadence.maxDeltasPerGop.toNat + 1)
  queue := SendQueue.new SendQueue.defaultMaxFrames SendQueue.defaultMaxBytes
  strings := d.hello.strings
  telemetryNodes := ∅
  eventChannels := ∅
  eventNodes := ∅
  maxEventsPerStep := 5000
  sample1In := 1
  following := none
  resyncPending := false
  pendingDrops := DropCounts.zero
  dropSpan := none
  provenance := d.provenance
  originM := d.originM
  cadence := d.cadence
  helloBase := d.hello.strings.strings.length
  greeted := false
  resumed := false
  generation := 0
  sessionToken := ""
  stringMarks := []
  produced := []

/-- Binds a session to the run its first `Hello` describes and to the token it echoes. -/
def bind (s : Session) (generation : ℕ) (token : String) : Session :=
  { s with generation, sessionToken := token }

/-- Hands a retained session to a new connection. What belonged to the old socket goes. -/
def reattach (s : Session) (resume : Option ℕ) : Session :=
  { s with
    params := { s.params with resume }
    queue := SendQueue.new SendQueue.defaultMaxFrames SendQueue.defaultMaxBytes
    pendingDrops := DropCounts.zero
    dropSpan := none
    greeted := false
    resumed := false }

/-- Whether the stream can be resumed at a number: the ring can, or nothing was missed. -/
def canResume (s : Session) (seq : ℕ) : Bool := seq == s.seq || s.ring.canResume seq

/-- The length of the symbol table when a frame was about to be sent. -/
def tableLenAt (s : Session) (seq : ℕ) : ℕ :=
  match s.stringMarks.find? fun m => decide (seq ≤ m.1) with
  | some m => m.2
  | none => s.strings.strings.length

/-- The session of the same connection on another run. -/
def forNewRun (s : Session) (d : RunDescriptor) : Session :=
  { new { s.params with resume := none } d with
    eventChannels := s.eventChannels
    maxEventsPerStep := s.maxEventsPerStep
    sample1In := s.sample1In
    sessionToken := s.sessionToken }

/-- Marks a resync keyframe as owed. -/
def requestResync (s : Session) : Session := { s with resyncPending := true }

/-- The frames a resumed handshake replays. -/
def resumeBacklog (s : Session) : List Frame :=
  match s.params.resume.filter fun seq => s.canResume seq with
  | some seq => (s.ring.replayFrom seq).map RingEntry.frame
  | none => []

/-! ## The handshake -/

/-- A `Hello` as this connection may see it, with the channels it subscribed. -/
def shown (s : Session) (body : HelloBody) : HelloBody :=
  { body with
    channels :=
      (if s.profile.isNodeOnly then
        body.channels.filter fun c => !groundTruthChannels.contains c.channelId
      else body.channels).map fun row =>
        { row with enabled := if row.channelId ∈ s.eventChannels then 1 else 0 }
    nodes :=
      if s.profile.isNodeOnly then
        body.nodes.map fun n => { n with flags := n.flags &&& ~~~nodeIsAttacker }
      else body.nodes }

/-- The session after its `Hello`: a fresh one is followed by a resync keyframe. -/
def welcomed (s : Session) : Session :=
  { s with
    greeted := true
    encoder := if s.resumed then s.encoder else s.encoder.requestKeyframe
    resyncPending := s.resyncPending || !s.resumed }

/-- The part of a `Hello` that is the same for a fresh and for a resumed one. -/
def finishHello (body : HelloBody) : SessionM Frame := do
  let s ← get
  modify welcomed
  ofExcept (toFrame .hello body.resumeSeq 0 (.hello (s.shown body)))

/-- The node rows of a `Hello`, their strings appended to its table if they are new. -/
def internNodes : List NodeFacts → StrTable → List NodeRow × StrTable
  | [], t => ([], t)
  | n :: nodes, t =>
    let (label, t) := t.intern n.label
    let (profile, t) := t.intern n.profileId
    let (rows, t) := internNodes nodes t
    (⟨n.nodeId, n.actorId, n.posM, label, profile, n.flags, n.kind, n.classIdx⟩ :: rows, t)

/-- The node rows of a `Hello` that appends nothing to its table. -/
def findNodes (nodes : List NodeFacts) (t : StrTable) : List NodeRow :=
  nodes.map fun n =>
    ⟨n.nodeId, n.actorId, n.posM, t.find n.label, t.find n.profileId, n.flags, n.kind, n.classIdx⟩

/-- The flags of a `Hello`. -/
def helloFlags (s : Session) (d : RunDescriptor) (state : RunState) (resumed : Bool) : UInt32 :=
  ((if d.live then helloLive else helloReplay) ||| helloWritable) |||
    (if d.seekable then helloSeekable else 0) |||
    (if s.profile.isNodeOnly then helloNodeOnly else 0) |||
    (if state ≠ .running then helloPaused else 0) |||
    (if resumed then helloResumed else 0)

/-- The table of a resumed `Hello`: as it stood before a frame, with nothing appended. -/
def stringsAt (s : Session) (seq : ℕ) : StrTable := ⟨s.strings.strings.take (s.tableLenAt seq)⟩

/-- A `Hello` that resumes the stream at a frame. -/
def resumedHello (s : Session) (d : RunDescriptor) (state : RunState) (simTime : SimTime)
    (token : String) (nodes : Option (List NodeFacts × List String)) (seq : ℕ) : HelloBody :=
  { d.hello with
    helloFlags := s.helloFlags d state true
    resumeSeq := seq
    simTimeNs := simTime
    strings := s.stringsAt seq
    nodes :=
      match nodes with
      | some (nodes, _) => findNodes nodes (s.stringsAt seq)
      | none => d.hello.nodes
    strSessionToken := (s.stringsAt seq).find token }

/-- The node rows of a fresh `Hello` and its table: the strings the run appended come first, so that
two connections agree on their ids. -/
def freshNodes (d : RunDescriptor) (nodes : Option (List NodeFacts × List String)) :
    List NodeRow × StrTable :=
  match nodes with
  | some (nodes, appended) =>
    internNodes nodes (appended.foldl (fun t x => (t.intern x).2) d.hello.strings)
  | none => (d.hello.nodes, d.hello.strings)

/-- The table of a fresh `Hello`. -/
def freshStrings (d : RunDescriptor) (token : String)
    (nodes : Option (List NodeFacts × List String)) : StrTable :=
  ((freshNodes d nodes).2.intern token).2

/-- A fresh `Hello`. -/
def freshHello (s : Session) (d : RunDescriptor) (state : RunState) (simTime : SimTime)
    (token : String) (nodes : Option (List NodeFacts × List String)) : HelloBody :=
  { d.hello with
    helloFlags := s.helloFlags d state false
    resumeSeq := s.seq
    simTimeNs := simTime
    strings := freshStrings d token nodes
    nodes := (freshNodes d nodes).1
    strSessionToken := ((freshNodes d nodes).2.intern token).1 }

/-- The number a handshake resumes at, if it can. -/
def resumeTarget (s : Session) : Option ℕ := s.params.resume.filter fun seq => s.canResume seq

/-- The `Hello` of a connection, with the nodes the run has now and the strings it appended. It
resumes the stream where the client asked for, if that is possible. -/
def helloFrameWithNodes (d : RunDescriptor) (state : RunState) (simTime : SimTime)
    (token : String) (nodes : Option (List NodeFacts × List String)) : SessionM Frame := do
  let s ← get
  match s.resumeTarget with
  | some seq =>
    modify fun s => { s with resumed := true }
    finishHello (s.resumedHello d state simTime token nodes seq)
  | none =>
    -- The client throws its table away, and what the provenance had appended with it.
    modify fun s =>
      { s with
        resumed := false
        stringMarks := []
        provenance := d.provenance
        strings := freshStrings d token nodes }
    finishHello (s.freshHello d state simTime token nodes)

/-! ## Frames -/

/-- Takes the next canonical number. -/
def takeSeq : SessionM ℕ := do
  let s ← get
  modify fun s => { s with seq := s.seq + 1 }
  return s.seq

/-- The ring with one more canonical frame. -/
def retained (s : Session) (frame : Frame) (keyframe : Bool) : ResumeRing :=
  s.ring.push ⟨frame.seq, keyframe, frame.canonical⟩

/-- The marks of the symbol table without those before the oldest retained frame. -/
def prunedMarks (ring : ResumeRing) (marks : List (ℕ × ℕ)) : List (ℕ × ℕ) :=
  match ring.firstSeq with
  | some first => marks.dropWhile fun m => decide (m.1 < first)
  | none => marks

/-- Retains a frame, if it is canonical. -/
def retain (frame : Frame) (keyframe : Bool) (s : Session) : Session :=
  let canonical := frame.kind.any MsgType.isCanonical
  let ring := if canonical then s.retained frame keyframe else s.ring
  { s with
    ring
    stringMarks := if canonical then prunedMarks ring s.stringMarks else s.stringMarks
    produced := s.produced ++ [frame] }

/-- The numbers that drops covered, with those of one more. -/
def spanWith : Option (ℕ × ℕ) → Option (ℕ × ℕ) → Option (ℕ × ℕ)
  | some (first, last), some (f, l) => some (min f first, max l last)
  | some span, none => some span
  | none, span => span

/-- Records what queueing a frame shed. -/
def absorb (r : EnqueueReport) (s : Session) : Session :=
  { s with
    resyncPending := s.resyncPending || r.resyncPending
    pendingDrops := if r.dropped.isEmpty then s.pendingDrops else s.pendingDrops.merge r.dropped
    dropSpan := if r.dropped.isEmpty then s.dropSpan else spanWith r.span s.dropSpan }

/-- Queues a frame, and retains it if it is canonical. -/
def push (frame : Frame) (keyframe : Bool) (fx : StepEffects) : SessionM StepEffects := do
  modify (retain frame keyframe)
  let s ← get
  let (report, queue) := s.queue.enqueue frame
  modify fun s => absorb report { s with queue }
  return { fx with fatal := fx.fatal || report.fatal }

/-- Takes everything the queue holds, in order. -/
def drainQueue : SessionM (List Frame) := do
  let s ← get
  let (frames, queue) := s.queue.drain
  modify fun s => { s with queue }
  return frames

/-- The frame of a snapshot, numbered, and whether it is a keyframe. -/
def snapshotFrame (snap : Snapshot) : SessionM (Frame × Bool) := do
  let s ← get
  let (outcome, encoder) := s.encoder.encode snap
  modify fun s => { s with encoder }
  let f ← ofRecord outcome
  let seq ← takeSeq
  let frame ← ofRecord (Frame.ofRecord f.frame)
  return (frame.renumbered seq, f.isKeyframe)

/-- A string id of the run in the table of a connection that appended strings of its own. -/
def bumpId (base shift : ℕ) (id : UInt32) : UInt32 :=
  let base := if base < 2 ^ 32 then base else 2 ^ 32 - 1
  let step := if shift < 2 ^ 32 then shift else 0
  if base ≤ id.toNat then UInt32.ofNat (min (id.toNat + step) (2 ^ 32 - 1)) else id

/-- The frame of a provenance body: its ids are moved past the strings of this connection, and its
strings are appended to the table. -/
def provenanceFrame (prov : ProvenanceBody) : SessionM Frame := do
  let s ← get
  match prov.strings with
  | none =>
    let seq ← takeSeq
    ofExcept (toFrame .provenance seq s.profile.frameFlag (.provenance prov))
  | some ext =>
    let shift := s.strings.strings.length - s.helloBase
    let body := if 0 < shift then prov.mapIds (bumpId s.helloBase shift) else prov
    modify fun s =>
      { s with
        stringMarks :=
          if ext.strings.isEmpty then s.stringMarks
          else s.stringMarks ++ [(s.seq, s.strings.strings.length)]
        strings := ⟨s.strings.strings ++ ext.strings⟩ }
    let seq ← takeSeq
    ofExcept (toFrame .provenance seq s.profile.frameFlag (.provenance body))

/-- The telemetry of the nodes a client follows, if there is any. -/
def telemetryFrame (out : StepOutput) : SessionM (Option Frame) := do
  let s ← get
  let records := out.telemetry.filter fun r => decide (r.nodeId ∈ s.telemetryNodes)
  if records.isEmpty then return none
  else
    let body : TelemetryBody :=
      ⟨out.simTime, 1000000000, records.mergeSort fun r r' => decide (r.nodeId ≤ r'.nodeId)⟩
    let body := if s.profile.isNodeOnly then body.blank else body
    let seq ← takeSeq
    let frame ← ofExcept (toFrame .telemetry seq s.profile.frameFlag (.telemetry body))
    return some frame

/-- The four bytes at an offset of a payload. -/
def payloadWord (payload : Layout.Bytes) (off : ℕ) : Option UInt32 :=
  if off + 4 ≤ payload.length then some (Layout.take ((payload.drop off).take 4)) else none

/-- Whether an event passes the node filter. One channel has its node at another place. -/
def nodePasses (s : Session) (e : EventEntry) : Bool :=
  decide (s.eventNodes = ∅) ||
    match payloadWord e.payload (if e.channelId = 11 then 16 else 0) with
    | some node => decide (node ∈ s.eventNodes)
    | none => true

/-- The events that pass the filters of a session: every so many of them, up to a cap. -/
def keepEvents (s : Session) : ℕ → List EventEntry → List EventEntry → List EventEntry
  | _, kept, [] => kept
  | seen, kept, e :: events =>
    if e.channelId ∉ s.eventChannels ∨ s.nodePasses e = false then keepEvents s seen kept events
    else if 1 < s.sample1In ∧ (seen + 1) % s.sample1In ≠ 0 then
      keepEvents s (seen + 1) kept events
    else if 0 < s.maxEventsPerStep ∧ s.maxEventsPerStep ≤ kept.length then kept
    else
      match
        if s.profile.isNodeOnly then blankEventPayload e.channelId e.payload else some e.payload
      with
      | some payload => keepEvents s (seen + 1) (kept ++ [{ e with payload }]) events
      | none => keepEvents s (seen + 1) kept events

/-- The order of events in a batch. -/
def eventLe (e e' : EventEntry) : Bool :=
  decide (e.simTimeNs < e'.simTimeNs) ||
    decide (e.simTimeNs = e'.simTimeNs) && decide (e.channelId ≤ e'.channelId)

/-- The events of the channels a client subscribed, if there are any. -/
def eventFrames (out : StepOutput) : SessionM (List Frame) := do
  let s ← get
  if s.eventChannels = ∅ then return []
  else
    let kept := s.keepEvents 0 [] out.events
    if kept.isEmpty then return []
    else
      let body : EventBody := ⟨out.simTime, out.simTime, kept.mergeSort eventLe⟩
      let seq ← takeSeq
      let frame ← ofExcept (toFrame .event seq s.profile.frameFlag (.event body))
      return [frame]

/-- The metric samples of a step, if there are any. -/
def metricFrame (out : StepOutput) : SessionM (Option Frame) := do
  let s ← get
  let samples := out.metrics.filter fun m => !(s.profile.isNodeOnly && m.visibility == 0)
  if samples.isEmpty then return none
  else
    let seq ← takeSeq
    let frame ← ofExcept
      (toFrame .metricSample seq s.profile.frameFlag (.metric ⟨out.simTime, 1000000000, samples⟩))
    return some frame

/-! ## Steps -/

/-- Queues a frame, if there is one. -/
def pushOption (frame : Option Frame) (fx : StepEffects) : SessionM StepEffects :=
  match frame with
  | some frame => push frame false fx
  | none => return fx

/-- Queues frames that are no keyframes. -/
def pushAll : List Frame → StepEffects → SessionM StepEffects
  | [], fx => return fx
  | frame :: frames, fx => do
    let fx ← push frame false fx
    pushAll frames fx

/-- The frame of provenance, if there is some, queued. -/
def pushProvenance (prov : Option ProvenanceBody) (fx : StepEffects) : SessionM StepEffects :=
  match prov with
  | some prov => do
    let frame ← provenanceFrame prov
    push frame false fx
  | none => return fx

/-- Forwards recorded frames without encoding them again. -/
def forwardLoop : List Frame → StepEffects → SessionM StepEffects
  | [], fx => return fx
  | frame :: frames, fx => do
    let s ← get
    let stripped ← match s.stripper with
      | some stripper => do
        let (outcome, stripper) := stripFrame stripper frame
        modify fun s => { s with stripper := some stripper }
        ofRecord outcome
      | none => pure (some frame)
    match stripped with
    | none => forwardLoop frames fx
    | some frame =>
      let keyframe := frame.msgType == MsgType.id .keyframe
      let owed := keyframe && s.resyncPending
      let frame := if owed then frame.withFlags (frame.flags ||| Record.flagResync) else frame
      modify fun s =>
        { s with resyncPending := s.resyncPending && !owed, seq := frame.seq + 1 }
      let fx ← push frame keyframe fx
      forwardLoop frames fx

/-- Forwards the recorded frames of a step. -/
def forwardRecorded (out : StepOutput) : SessionM StepEffects := do
  let fx ← forwardLoop out.recorded StepEffects.default
  let frames ← drainQueue
  return { fx with frames }

end Session

end V2xw.Server
