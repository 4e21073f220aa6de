import Mathlib.Data.Finset.Sort
import V2xw.Lib.Mealy
import V2xw.Record.Stripper

/-!
# The frames of a connection

What `crates/v2xw-server` sends to a client. A connection looks into the bodies of the frames it
builds itself: they are kept decoded, with the length of their encoding
(`crates/v2xw-record/src/wire/`). The bodies of keyframes and deltas, and those of messages that are
only passed on, are kept as bytes. A full recording is served to a `node` client through
`NodeProfileStripper::strip` of `crates/v2xw-record/src/profile.rs`: every frame is blanked and
renumbered, and a frame of which nothing is left is withheld.

Sequence numbers are naturals: a stream of `2 ^ 64` frames is not reached.

## Main definitions

* `ServerError` — what the server reports.
* `StrTable` — the symbol table of a connection.
* `HelloBody`, `ProvenanceBody`, `TelemetryBody`,
  `EventBody`, `MetricBody` — the bodies a connection builds.
* `Frame` — a frame.
* `toFrame` — a frame from a body, if the body fits its length field.
* `Frame.canonical` — the frame without its transport flags.
* `stripFrame` — a frame without its ground truth.
-/

namespace V2xw.Server

open Layout (Bytes)
open Record (SimTime RecordError MsgType Axes F64 F32 Profile Cadence Snapshot)

/-! ## Errors -/

/-- A parameter that was refused: where, why, and what to pass instead. -/
structure ParamError where
  path : String
  message : String
  hint : String
  deriving DecidableEq, Repr

/-- What the server reports. -/
inductive ServerError
  /-- The parameters of a call are refused. -/
  | invalidParams (errors : List ParamError)
  /-- The recording layer refused a frame or a body. -/
  | internal (e : RecordError)
  /-- There is nothing to pause, to resume or to step. -/
  | runNotRunning (why : String)
  /-- The target of a seek is not in the seekable range. -/
  | seekOutOfRange (minNs maxNs : SimTime)
  /-- The recording holds no `Hello`. -/
  | worldNotFound (what : String)
  /-- The run or the connection cannot do this. -/
  | notSupportedHere (why : String)
  /-- The profile of the connection forbids this. -/
  | visibilityDenied (field visibility : String)
  deriving DecidableEq, Repr

/-- One refused parameter. -/
def ServerError.param (path message hint : String) : ServerError :=
  .invalidParams [⟨path, message, hint⟩]

/-! ## Symbol tables -/

/-- A symbol table: the string with id `i` is at index `i`. -/
structure StrTable where
  strings : List String
  deriving DecidableEq, Repr

namespace StrTable

/-- The id of a string, appended if the table does not have it. -/
def intern (t : StrTable) (s : String) : UInt32 × StrTable :=
  match t.strings.idxOf? s with
  | some i => (UInt32.ofNat i, t)
  | none => (UInt32.ofNat t.strings.length, ⟨t.strings ++ [s]⟩)

/-- The id of a string the table has, and that of the empty string otherwise. -/
def find (t : StrTable) (s : String) : UInt32 :=
  match t.strings.idxOf? s with
  | some i => if i < 2 ^ 32 then UInt32.ofNat i else 0
  | none => 0

/-- The length of the encoding. -/
def encodedLen (t : StrTable) : ℕ :=
  8 + 4 * (t.strings.length + 1) + Record.ceil4 (t.strings.map String.utf8ByteSize).sum

end StrTable

/-! ## Hello -/

/-- One row of the node table. -/
structure NodeRow where
  nodeId : UInt32
  actorId : UInt32
  posM : Axes F32
  strLabel : UInt32
  strProfileId : UInt32
  /-- Node flags; bit 1 is ground truth. -/
  flags : UInt16
  kind : UInt8
  classIdx : UInt8
  deriving DecidableEq, Repr

/-- One row of the actor-class table. -/
structure ClassRow where
  strName : UInt32
  lengthM : F32
  widthM : F32
  heightM : F32
  colorRgba : UInt32
  category : UInt8
  deriving DecidableEq, Repr

/-- One row of the channel table. -/
structure ChannelRow where
  strId : UInt32
  channelId : UInt16
  visibility : UInt8
  /-- One if the server will send it now. -/
  enabled : UInt8
  deriving DecidableEq, Repr

/-- The part of a `Hello` the server looks into. -/
structure HelloBody where
  helloFlags : UInt32
  simDurationNs : UInt64
  mobilityStepNs : UInt64
  keyframePeriodNs : UInt64
  /-- The number of the next canonical frame. -/
  resumeSeq : ℕ
  /-- The current stream position. -/
  simTimeNs : SimTime
  /-- The lower corner of the bounding box. -/
  bboxMin : F64 × F64
  nodes : List NodeRow
  classes : List ClassRow
  channels : List ChannelRow
  strSessionToken : UInt32
  /-- The symbol table the `Hello` establishes. -/
  strings : StrTable
  deriving DecidableEq, Repr

/-- The stream is produced by a live engine. -/
def helloLive : UInt32 := 0x00000001

/-- The stream is served from a recording. -/
def helloReplay : UInt32 := 0x00000002

/-- Ground truth is withheld. -/
def helloNodeOnly : UInt32 := 0x00000004

/-- The run is not advancing. -/
def helloPaused : UInt32 := 0x00000010

/-- The handshake resumed an existing stream. -/
def helloResumed : UInt32 := 0x00000020

/-- The run can be sought. -/
def helloSeekable : UInt32 := 0x00000040

/-- The client can control the run. -/
def helloWritable : UInt32 := 0x00000080

/-- The node is an attacker. Ground truth. -/
def nodeIsAttacker : UInt16 := 0x0002

namespace HelloBody

/-- The length of the encoding. -/
def encodedLen (b : HelloBody) : ℕ :=
  256 + 32 * b.nodes.length + 24 * b.classes.length + 8 * b.channels.length + 16 +
    b.strings.encodedLen

/-- The quantisation origin: the corner of the bounding box, rounded down. -/
def keyframeOrigin (b : HelloBody) : Axes F64 :=
  let floor (v : F64) : F64 := ⟨(Float.ofBits v.bits).floor.toBits⟩
  ⟨floor b.bboxMin.1, floor b.bboxMin.2, F64.zero⟩

end HelloBody

/-! ## Provenance -/

/-- One provenance entry. -/
structure ProvEntry where
  provId : UInt32
  strModelId : UInt32
  strModelVersion : UInt32
  strParamSetId : UInt32
  strCardUrl : UInt32
  family : UInt16
  subjectKind : UInt16
  deriving DecidableEq, Repr

/-- One entry of the dimension dictionary. -/
structure DimEntry where
  dimKey : UInt32
  strDims : UInt32
  deriving DecidableEq, Repr

/-- What the ids of a run mean, and the strings the explanation adds to the symbol table. -/
structure ProvenanceBody where
  simTimeNs : SimTime
  entries : List ProvEntry
  dims : List DimEntry
  /-- The extension of the symbol table: its entries follow the strings of the table. -/
  strings : Option StrTable
  flags : UInt32
  deriving DecidableEq, Repr

/-- The string ids of an entry. -/
def ProvEntry.ids (e : ProvEntry) : List UInt32 :=
  [e.strModelId, e.strModelVersion, e.strParamSetId, e.strCardUrl]

/-- The entry with each of its string ids replaced. -/
def ProvEntry.mapIds (f : UInt32 → UInt32) (e : ProvEntry) : ProvEntry :=
  { e with
    strModelId := f e.strModelId
    strModelVersion := f e.strModelVersion
    strParamSetId := f e.strParamSetId
    strCardUrl := f e.strCardUrl }

/-- The entry with its string id replaced. -/
def DimEntry.mapIds (f : UInt32 → UInt32) (d : DimEntry) : DimEntry :=
  { d with strDims := f d.strDims }

namespace ProvenanceBody

/-- The string ids of a body. -/
def ids (b : ProvenanceBody) : List UInt32 :=
  b.entries.flatMap ProvEntry.ids ++ b.dims.map DimEntry.strDims

/-- The body with each of its string ids replaced. -/
def mapIds (f : UInt32 → UInt32) (b : ProvenanceBody) : ProvenanceBody :=
  { b with entries := b.entries.map (ProvEntry.mapIds f), dims := b.dims.map (DimEntry.mapIds f) }

/-- The strings a body appends to the table. -/
def extension (b : ProvenanceBody) : List String :=
  match b.strings with
  | some t => t.strings
  | none => []

/-- The length of the encoding. -/
def encodedLen (b : ProvenanceBody) : ℕ :=
  32 + 24 * b.entries.length + 8 * b.dims.length +
    match b.strings with
    | some t => t.encodedLen
    | none => 0

end ProvenanceBody

/-! ## Telemetry, events and metrics -/

/-- What one node reports of itself. -/
structure NodeTelemetry where
  nodeId : UInt32
  /-- The offset of its clock. Ground truth. -/
  clockOffsetNs : Int64
  /-- The error of its position. Ground truth. -/
  posErrorM : F32
  nodeState : UInt8
  /-- The other gauges, which are only passed on. -/
  gauges : Bytes
  deriving DecidableEq, Repr

/-- The reports of a sampling window. -/
structure TelemetryBody where
  simTimeNs : SimTime
  windowNs : UInt64
  records : List NodeTelemetry
  deriving DecidableEq, Repr

/-- The absent `f32`. -/
def f32Nan : F32 := ⟨0x7FC00000⟩

/-- A report without its ground truth: a compromised node calls itself active. -/
def NodeTelemetry.blank (r : NodeTelemetry) : NodeTelemetry :=
  { r with
    clockOffsetNs := 0
    posErrorM := f32Nan
    nodeState := if r.nodeState = 6 then 2 else r.nodeState }

namespace TelemetryBody

/-- Telemetry without its ground truth. -/
def blank (b : TelemetryBody) : TelemetryBody :=
  { b with records := b.records.map NodeTelemetry.blank }

/-- The length of the encoding. -/
def encodedLen (b : TelemetryBody) : ℕ := 32 + 208 * b.records.length

end TelemetryBody

/-- One event of a batch. -/
structure EventEntry where
  simTimeNs : SimTime
  channelId : UInt16
  payload : Bytes
  deriving DecidableEq, Repr

/-- A batch of events. -/
structure EventBody where
  tStartNs : SimTime
  tEndNs : SimTime
  entries : List EventEntry
  deriving DecidableEq, Repr

/-- The length of the encoding: an index and the padded payloads. -/
def EventBody.encodedLen (b : EventBody) : ℕ :=
  32 + 16 * b.entries.length + (b.entries.map fun e => Record.ceil8 e.payload.length).sum

/-- An event payload without its ground truth, or nothing if the event is withheld. -/
def blankEventPayload (channelId : UInt16) (payload : Bytes) : Option Bytes :=
  let long (n : ℕ) (blanked : Bytes) : Option Bytes :=
    some (if n ≤ payload.length then blanked else payload)
  if 1 ≤ channelId ∧ channelId ≤ 4 then none
  else if channelId = 11 then
    long 48 (Layout.poke (Layout.poke (Layout.poke payload 20 (Layout.put Record.u32None)) 36
      (Layout.put f32Nan)) 42 (Layout.put Record.u8None))
  else if channelId = 16 then long 32 (Layout.poke payload 24 (Layout.put Record.u32None))
  else if channelId = 22 then if payload[28]?.getD 0 ≤ 4 then none else some payload
  else if channelId = 30 then long 32 (Layout.poke payload 20 (Layout.put Record.u32None))
  else if 31 ≤ channelId ∧ channelId ≤ 33 then
    long 40 (Layout.poke payload 28 (Layout.put Record.u32None))
  else if channelId = 40 then
    long 32 (Layout.poke (Layout.poke payload 26 (Layout.put (0 : UInt8))) 28
      (Layout.put Record.u32None))
  else some payload

/-- One metric sample. -/
structure MetricRow where
  value : F64
  strMetric : UInt32
  dimKey : UInt32
  nodeId : UInt32
  count : UInt32
  agg : UInt16
  visibility : UInt8
  provId : UInt32
  deriving DecidableEq, Repr

/-- The samples of a time bin. -/
structure MetricBody where
  simTimeNs : SimTime
  binWidthNs : UInt64
  samples : List MetricRow
  deriving DecidableEq, Repr

/-- The length of the encoding. -/
def MetricBody.encodedLen (b : MetricBody) : ℕ := 32 + 32 * b.samples.length

/-! ## Frames -/

/-- What a frame carries. -/
inductive Body
  /-- A keyframe, a delta, or a message that is only passed on. -/
  | raw (bytes : Bytes)
  /-- The preamble of a connection. -/
  | hello (b : HelloBody)
  /-- Telemetry of the nodes a client follows. -/
  | telemetry (b : TelemetryBody)
  /-- Events of the channels a client subscribed. -/
  | event (b : EventBody)
  | metric (b : MetricBody)
  | provenance (b : ProvenanceBody)
  deriving DecidableEq, Repr

/-- The length of the encoding. -/
def Body.encodedLen : Body → ℕ
  | raw bytes => bytes.length
  | hello b => b.encodedLen
  | telemetry b => b.encodedLen
  | event b => b.encodedLen
  | metric b => b.encodedLen
  | provenance b => b.encodedLen

/-- The last canonical frame of the run. A canonical flag. -/
def flagEndOfRun : UInt16 := 0x0008

/-- The frame answers a seek. A transport flag. -/
def flagSeekResult : UInt16 := 0x0020

/-- One frame. -/
structure Frame where
  msgType : UInt16
  flags : UInt16
  seq : ℕ
  body : Body
  deriving DecidableEq, Repr

namespace Frame

/-- The message type, if this build knows it. -/
def kind (f : Frame) : Option MsgType := MsgType.fromId f.msgType

/-- Whether a frame is a snapshot. -/
def isSnapshot (f : Frame) : Bool := f.kind == some .keyframe || f.kind == some .delta

/-- The length of the frame in bytes. -/
def size (f : Frame) : ℕ := Record.headerBytes + f.body.encodedLen

/-- The same frame with its flags replaced. -/
def withFlags (f : Frame) (flags : UInt16) : Frame := { f with flags }

/-- The same frame with another sequence number. -/
def renumbered (f : Frame) (seq : ℕ) : Frame := { f with seq }

/-- The frame with its transport flags cleared. -/
def canonical (f : Frame) : Frame := f.withFlags (f.flags &&& Record.canonicalFlagMask)

/-- The strings a frame appends to the table of the client that applies it. -/
def extension (f : Frame) : List String :=
  match f.body with
  | .provenance b => b.extension
  | _ => []

/-- A frame of the recording layer, with a body that is only passed on. -/
def ofRecord (f : Record.Frame) : Except RecordError Frame := do
  let h ← f.header
  .ok ⟨h.msgType, h.flags, h.seq.toNat, .raw f.body⟩

@[simp]
lemma canonical_seq (f : Frame) : f.canonical.seq = f.seq := rfl

end Frame

/-- A frame of a message type, or an error for a body too long for its length field. -/
def toFrame (kind : MsgType) (seq : ℕ) (flags : UInt16) (body : Body) :
    Except ServerError Frame :=
  if body.encodedLen < 2 ^ 32 then .ok ⟨kind.id, flags, seq, body⟩
  else
    .error (.internal (.unrepresentable "frame body_len" s!"{body.encodedLen}" "u32"))

/-- **When a frame can be built**: its body fits the length field. -/
lemma toFrame_eq_ok {kind : MsgType} {seq : ℕ} {flags : UInt16} {body : Body} {f : Frame} :
    toFrame kind seq flags body = .ok f ↔
      body.encodedLen < 2 ^ 32 ∧ f = ⟨kind.id, flags, seq, body⟩ := by
  rw [toFrame]
  split_ifs with h
  · simp only [Except.ok.injEq, h, true_and, eq_comm]
  · simp only [h, false_and, reduceCtorEq]

/-! ## Rewriting the frames of a recording -/

open Record (NodeProfileStripper KeyframeBody DeltaBody)

/-- A `Hello` without its ground truth. -/
def HelloBody.blank (b : HelloBody) : HelloBody :=
  { b with
    helloFlags := b.helloFlags ||| helloNodeOnly
    nodes := b.nodes.map fun n => { n with flags := n.flags &&& ~~~nodeIsAttacker }
    channels := b.channels.filter fun c => c.visibility != 0 }

/-- Metrics without those of ground truth. -/
def MetricBody.blank (b : MetricBody) : MetricBody :=
  { b with samples := b.samples.filter fun s => s.visibility != 0 }

/-- The events that survive the blanking. -/
def EventBody.blank (b : EventBody) : EventBody :=
  { b with
    entries := b.entries.filterMap fun e =>
      (blankEventPayload e.channelId e.payload).map fun payload => { e with payload } }

/-- A body that does not fit its length field is refused. -/
def checkLen (body : Body) : Except RecordError Body :=
  if body.encodedLen < 2 ^ 32 then .ok body
  else .error (.unrepresentable "frame body_len" s!"{body.encodedLen}" "u32")

/-- The body of a frame without its ground truth, if anything of it is left, and what the rewriting
remembers then. -/
def stripBody (t : NodeProfileStripper) (kind : Option MsgType) (body : Body) :
    Except RecordError (Option Body) × NodeProfileStripper :=
  match kind, body with
  | some .keyframe, .raw bytes =>
    match KeyframeBody.decode bytes with
    | .ok kf =>
      let (b, t) := t.stripKeyframe kf
      ((checkLen (.raw b.encode)).map some, t)
    | .error e => (.error e, t)
  | some .delta, .raw bytes =>
    match DeltaBody.decode bytes with
    | .ok d =>
      let (b, t) := t.stripDelta d
      ((checkLen (.raw b.encode)).map some, t)
    | .error e => (.error e, t)
  | _, .hello b => ((checkLen (.hello b.blank)).map some, t)
  | _, .telemetry b => ((checkLen (.telemetry b.blank)).map some, t)
  | _, .metric b => ((checkLen (.metric b.blank)).map some, t)
  | _, .event b =>
    if b.blank.entries.isEmpty then (.ok none, t)
    else ((checkLen (.event b.blank)).map some, t)
  -- Provenance is no ground truth, and what is only passed on is kept.
  | _, body => (.ok (some body), t)

/-- Blanks one frame, or withholds it. -/
def stripFrame (t : NodeProfileStripper) (f : Frame) :
    Except RecordError (Option Frame) × NodeProfileStripper :=
  let flags :=
    if f.kind = some .hello then f.flags
    else (f.flags &&& ~~~Record.transportFlagMask) ||| Record.flagNodeOnly
  match stripBody t f.kind f.body with
  | (.error e, t) => (.error e, t)
  | (.ok none, t) => (.ok none, t)
  | (.ok (some body), t') =>
    (.ok (some { f with flags, seq := t.nextSeq.toNat, body }),
     { t' with
       nextSeq := if f.kind.any MsgType.isCanonical then t.nextSeq + 1 else t.nextSeq })

/-! ## The numbers of a rewritten stream -/

/-- The canonical frames of a list are numbered on from a number, and the others have the number of
the next one; all but the `Hello` are marked as blind, without transport flags. -/
def NumberedFrom : UInt64 → List Frame → Prop
  | _, [] => True
  | n, g :: gs => g.seq = n.toNat ∧
      (g.kind ≠ some .hello → g.flags ||| Record.flagNodeOnly = g.flags ∧
        g.flags &&& Record.transportFlagMask = 0) ∧
      NumberedFrom (if g.kind.any MsgType.isCanonical then n + 1 else n) gs

lemma stripBody_nextSeq (t : NodeProfileStripper) (kind : Option MsgType) (body : Body) :
    (stripBody t kind body).2.nextSeq = t.nextSeq := by
  unfold stripBody
  split <;> (try split) <;> rfl

/-- **The blind stream is numbered without gaps**, whatever is withheld or refused. -/
theorem strip_numbered (frames : List Frame) : ∀ t : NodeProfileStripper,
    NumberedFrom t.nextSeq
      ((Mealy.outputs stripFrame t frames).filterMap fun o => o.toOption.join) := by
  induction frames with
  | nil => exact fun _ => trivial
  | cons f frames ih =>
    intro t
    have hseq := stripBody_nextSeq t f.kind f.body
    rw [Mealy.outputs]
    cases hbody : stripBody t f.kind f.body with
    | mk outcome t' =>
      rw [hbody] at hseq
      cases outcome with
      | error e =>
        rw [show stripFrame t f = (.error e, t') by rw [stripFrame, hbody], ← hseq]
        exact ih t'
      | ok o =>
        cases o with
        | none =>
          rw [show stripFrame t f = (.ok none, t') by rw [stripFrame, hbody], ← hseq]
          exact ih t'
        | some body =>
          have hnext := ih { t' with
            nextSeq := if f.kind.any MsgType.isCanonical then t.nextSeq + 1 else t.nextSeq }
          rw [stripFrame, hbody]
          refine ⟨rfl, fun hkind => ?_, hnext⟩
          have hdistrib : ∀ x y z : UInt16, (x ||| y) &&& z = x &&& z ||| y &&& z :=
            fun _ _ _ => UInt16.toBitVec_inj.1 BitVec.and_or_distrib_right
          dsimp only
          rw [if_neg (show f.kind ≠ some .hello from hkind), UInt16.or_assoc, UInt16.or_self,
            hdistrib, UInt16.and_assoc, UInt16.not_and_self, UInt16.and_zero]
          exact ⟨rfl, by decide⟩

end V2xw.Server
