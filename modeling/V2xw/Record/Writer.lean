import Mathlib.Data.List.Destutter
import Mathlib.Data.List.Sort
import V2xw.Record.Encoder
import V2xw.Record.Event

/-!
# The recording writer

A recording is a sequence of messages in chunks. The container closes the open chunk when it is
told to, and whenever an attachment or a metadata record is written; where a chunk ends is the
writer's business otherwise. It keeps three counters for this: the bytes in the open chunk, the
bytes since the last keyframe, and the keyframes in the open chunk.

Frames and records pass a number of checks before they are stored. The check of their numbers
against the grid and the table of channels are parameters here.

## Main definitions

* `Record.Message`, `Record.Mcap` — stored messages and the container.
* `Record.WireFrame` — a frame with a header that fits its body.
* `Record.RecordingWriter` — the writer.
* `Record.RecordingWriter.endChunkIfOverTarget` — where a chunk ends.
* `Record.RecordingWriter.writeFrame`, `Record.RecordingWriter.writeRecord` — the calls.
* `Record.RecordingWriter.run` — the writer after some calls.
-/

namespace V2xw.Record

open Layout

/-! ## Frames -/

/-- A frame of this version whose header has the length of its body. -/
structure WireFrame where
  header : FrameHeader
  body : Bytes
  version_eq : header.version = versionMajor
  bodyLen_eq : header.bodyLen.toNat = body.length

namespace WireFrame

/-- The frame as it stands in memory. -/
def frame (f : WireFrame) : Frame := .build f.header f.body

/-- A frame of a message type, or an error for a body too long for its length field. -/
def new (kind : MsgType) (seq : UInt64) (flags : UInt16) (body : Bytes) :
    Except RecordError WireFrame :=
  if h : body.length < 2 ^ 32 then
    .ok { header := ⟨versionMajor, kind.id, UInt32.ofNat body.length, flags, 0, seq⟩, body
          version_eq := rfl, bodyLen_eq := toNat_ofNat_of_lt h }
  else .error (.unrepresentable "frame body_len" s!"{body.length}" "u32")

/-- The frame with its transport flags cleared. -/
def canonical (f : WireFrame) : WireFrame :=
  { f with header := { f.header with flags := f.header.flags &&& canonicalFlagMask } }

end WireFrame

/-! ## Event batches -/

namespace EventBody

/-- The channels of a batch, ascending and without repetitions. -/
def channelIds (b : EventBody) : List UInt16 :=
  ((b.entries.map EventEntry.channelId).insertionSort (· ≤ ·)).destutter (· ≠ ·)

/-- The batch restricted to one channel, if it has anything on it. -/
def onlyChannel (b : EventBody) (channelId : UInt16) : Option EventBody :=
  let entries := b.entries.filter (·.channelId == channelId)
  if entries.isEmpty then none
  else
    let times := entries.map EventEntry.simTimeNs
    some { tStartNs := times.min?.getD b.tStartNs, tEndNs := times.max?.getD b.tEndNs, entries }

/-- The whole frame. -/
def toFrame (b : EventBody) (seq : UInt64) (flags : UInt16) : Except RecordError WireFrame :=
  WireFrame.new .event seq flags b.encode

end EventBody

/-! ## The container -/

/-- What a message is stored under. No topic carries both frames and records. -/
inductive Topic
  | hello
  | keyframe
  | delta
  | telemetry
  | metric
  | provenance
  | event (channelId : UInt16)
  | unknown (msgType : UInt16)
  | record (channel : String)
deriving DecidableEq

/-- A stored message. -/
structure Message where
  topic : Topic
  logTime : SimTime
  data : Bytes
deriving DecidableEq

/-- The bytes of a message. -/
def Message.size (m : Message) : ℕ := m.data.length

/-- The bytes of some messages. -/
def sizeOf (ms : List Message) : ℕ := (ms.map Message.size).sum

/-- The container: the chunks closed so far and the messages of the open one. -/
structure Mcap where
  closed : List (List Message) := []
  opened : List Message := []

namespace Mcap

/-- Appends a message to the open chunk. -/
def writeToKnownChannel (c : Mcap) (m : Message) : Mcap := { c with opened := c.opened ++ [m] }

/-- Closes the open chunk, if there is one. -/
def flush (c : Mcap) : Mcap :=
  if c.opened.isEmpty then c else { closed := c.closed ++ [c.opened], opened := [] }

/-- The messages in the order they were stored. -/
def stored (c : Mcap) : List Message := c.closed.flatten ++ c.opened

/-- The chunks, and the open one if it has messages. -/
def chunks (c : Mcap) : List (List Message) := c.flush.closed

end Mcap

/-! ## The writer -/

/-- How the recorder is configured for a run. -/
structure RecordingOptions where
  profile : Profile := .full
  chunkTargetBytes : ℕ := 4 * 1024 * 1024

/-- What a finished recording holds. -/
structure RecordingSummary where
  messageCount : ℕ := 0
  frameCount : ℕ := 0
  recordCount : ℕ := 0
  chunkCount : ℕ := 0
  largestChunkBytes : ℕ := 0
  largestGopBytes : ℕ := 0
deriving DecidableEq

/-- Who may know the contents of a record. -/
inductive Visibility
  | gt
  | node
  | nodeAndGt
  | «public»
  | derived
  | mixed
  | «meta»
deriving DecidableEq

/-- The record has something no node could have known. -/
def Visibility.isGtTainted : Visibility → Bool
  | .gt | .nodeAndGt | .mixed => true
  | _ => false

/-- The record may be written to a channel of nodes as it is. -/
def Visibility.allowedOnNodeChannel : Visibility → Bool
  | .node | .public => true
  | _ => false

/-- A record with its channel and its JSON encoding. -/
structure OwnedRecord where
  channel : String
  visibility : Visibility
  json : Bytes

/-- Why a recording is not written or read. -/
inductive RecordingError
  | record (e : RecordError)
  | unknownChannel (channel : String)
  | visibilityDenied (channel : String) (visibility : Visibility)
  | seekOutOfRange (target min max : SimTime)
  | uncheckedChunk (chunk : ℕ)
deriving DecidableEq

/-- The checks of frames and records against the grid, and the table of channels. -/
structure Gates where
  scanFrame : Frame → Except RecordError Unit
  scanRecord : String → Bytes → Except RecordError Unit
  byName : String → Option Visibility

/-- The writer of a recording. -/
structure RecordingWriter where
  opts : RecordingOptions
  mcap : Mcap := {}
  bytesSinceFlush : ℕ := 0
  bytesSinceKeyframe : ℕ := 0
  keyframesSinceFlush : ℕ := 0
  summary : RecordingSummary := {}
  lastLogTime : SimTime := 0

namespace RecordingWriter

/-- Records the bytes one stored message added to the open chunk and to the open GOP. -/
def account (w : RecordingWriter) (bytes : ℕ) : RecordingWriter :=
  let flushed := w.bytesSinceFlush + bytes
  let gop := w.bytesSinceKeyframe + bytes
  { w with
    bytesSinceFlush := flushed
    bytesSinceKeyframe := gop
    summary :=
      { w.summary with
        largestChunkBytes := max w.summary.largestChunkBytes flushed
        largestGopBytes := max w.summary.largestGopBytes gop } }

/-- Closes the current chunk and starts counting a new one. -/
def endChunk (w : RecordingWriter) : RecordingWriter :=
  { w with
    mcap := w.mcap.flush
    bytesSinceFlush := 0
    keyframesSinceFlush := 0
    summary := { w.summary with chunkCount := w.summary.chunkCount + 1 } }

/-- An attachment or a metadata record finishes the open chunk inside the container. -/
def chunkClosedByContainer (w : RecordingWriter) : RecordingWriter :=
  { w with
    mcap := w.mcap.flush
    bytesSinceFlush := 0
    keyframesSinceFlush := 0
    summary :=
      if 0 < w.bytesSinceFlush then
        { w.summary with chunkCount := w.summary.chunkCount + 1 }
      else w.summary }

/-- Ends the open chunk if the next message would take it past the target, and if a boundary is
legal here. -/
def endChunkIfOverTarget (w : RecordingWriter) (atKeyframe : Bool) : RecordingWriter :=
  let target := w.opts.chunkTargetBytes
  -- the GOP that ends here did not fit the target, so the next one opens a chunk
  if atKeyframe ∧ 0 < w.bytesSinceFlush ∧ target ≤ w.bytesSinceKeyframe then w.endChunk
  else if w.bytesSinceFlush < target then w
  else
    let insideGop := 0 < w.keyframesSinceFlush ∧ w.bytesSinceKeyframe < target
    if atKeyframe ∨ ¬ insideGop then w.endChunk else w

/-- A keyframe opens a GOP. -/
def openGop (w : RecordingWriter) (isKeyframe : Bool) : RecordingWriter :=
  if isKeyframe then
    { w with keyframesSinceFlush := w.keyframesSinceFlush + 1, bytesSinceKeyframe := 0 }
  else w

/-- Appends a message to the open chunk. -/
def append (w : RecordingWriter) (m : Message) : RecordingWriter :=
  let w := { w with mcap := w.mcap.writeToKnownChannel m }
  let w := w.account m.size
  { w with
    summary := { w.summary with messageCount := w.summary.messageCount + 1 }
    lastLogTime := max w.lastLogTime m.logTime }

/-- Stores a frame under a topic. -/
def store (w : RecordingWriter) (f : WireFrame) (topic : Topic) (kind : Option MsgType) :
    Except RecordingError Unit × RecordingWriter :=
  let logTime : Except RecordError SimTime :=
    match f.frame.simTime with
    | .ok t => .ok t
    -- a type this build does not know is filed at the time of the frame before it
    | .error e => if kind.isNone then .ok w.lastLogTime else .error e
  match logTime with
  | .error e => (.error (.record e), w)
  | .ok logTime =>
    let isKeyframe := kind == some .keyframe
    let w := w.endChunkIfOverTarget isKeyframe
    let w := w.openGop isKeyframe
    let w := w.append ⟨topic, logTime, f.canonical.frame.bytes⟩
    (.ok (), { w with summary := { w.summary with frameCount := w.summary.frameCount + 1 } })

/-- Stores the part of a batch on one channel. -/
def storePart (w : RecordingWriter) (f : WireFrame) (b : EventBody) (id : UInt16) :
    Except RecordingError Unit × RecordingWriter :=
  match b.onlyChannel id with
  | none => (.ok (), w)
  | some split =>
    match split.toFrame f.header.seq f.header.flags with
    | .error e => (.error (.record e), w)
    | .ok g => w.store g (.event id) (some .event)

/-- Stores the parts of a batch, one channel after the other, up to the first refusal. -/
def storeSplit (w : RecordingWriter) (f : WireFrame) (b : EventBody) (ids : List UInt16) :
    Except RecordingError Unit × RecordingWriter :=
  ids.foldl
    (fun r id =>
      match r.1 with
      | .error _ => r
      | .ok _ => r.2.storePart f b id)
    (.ok (), w)

/-- The topic of the frames that are not split by channel. -/
def frameTopic : MsgType → Option Topic
  | .hello => some .hello
  | .keyframe => some .keyframe
  | .delta => some .delta
  | .telemetry => some .telemetry
  | .metricSample => some .metric
  | .provenance => some .provenance
  | .event | .error | .bye | .worldChunk => none

/-- Stores one frame verbatim, but for its transport flags. A batch of several channels is split
into one message for each. -/
def writeFrame (gates : Gates) (w : RecordingWriter) (f : WireFrame) :
    Except RecordingError Unit × RecordingWriter :=
  let refuse (detail : String) : Except RecordingError Unit × RecordingWriter :=
    (.error (.record (.malformed "vwp frame" detail)), w)
  match f.header.kind with
  | none => w.store f (.unknown f.header.msgType) none
  | some kind =>
    if kind = .error ∨ kind = .bye then
      refuse (kind.schemaName ++
        " is a connection frame and is not part of the canonical stream (§0.1)")
    else if kind = .worldChunk then
      refuse "a recording carries the world as the `world.vwb` attachment, not as WorldChunk frames (§7.1)"
    else if w.opts.profile.isNodeOnly ∧ kind.isCanonical ∧ f.header.flags &&& flagNodeOnly = 0 then
      refuse "a node-profile recording accepts only canonical frames carrying FLAG_NODE_ONLY (§5.3)"
    else
      match gates.scanFrame f.frame with
      | .error e => (.error (.record e), w)
      | .ok _ =>
        match frameTopic kind with
        | some topic => w.store f topic (some kind)
        | none =>
          match EventBody.decode f.body with
          | .error e => (.error (.record e), w)
          | .ok b =>
            match b.channelIds with
            | [] =>
              (.error (.record (.malformed "vwp Event"
                "an Event batch with no entries names no channel, so there is no topic to record it on; a producer with nothing to say sends no frame")), w)
            | [id] => w.store f (.event id) (some .event)
            | ids => w.storeSplit f b ids

/-- Writes one record. -/
def writeRecord (gates : Gates) (w : RecordingWriter) (time : SimTime) (r : OwnedRecord) :
    Except RecordingError Unit × RecordingWriter :=
  match gates.byName r.channel with
  | none => (.error (.unknownChannel r.channel), w)
  | some spec =>
    if spec.allowedOnNodeChannel ∧ r.visibility.isGtTainted then
      (.error (.visibilityDenied r.channel r.visibility), w)
    else if w.opts.profile.isNodeOnly ∧ r.visibility.isGtTainted then
      (.error (.visibilityDenied r.channel r.visibility), w)
    else
      match gates.scanRecord r.channel r.json with
      | .error e => (.error (.record e), w)
      | .ok _ =>
        let w := w.endChunkIfOverTarget false
        let w := w.append ⟨.record r.channel, time, r.json⟩
        (.ok (), { w with summary := { w.summary with recordCount := w.summary.recordCount + 1 } })

/-- Finishes the recording: closes the last chunk. -/
def finish (w : RecordingWriter) : RecordingSummary × List (List Message) :=
  (if 0 < w.bytesSinceFlush then { w.summary with chunkCount := w.summary.chunkCount + 1 }
    else w.summary, w.mcap.chunks)

/-! ## Runs -/

/-- What a caller does with a writer. A manifest and an attachment go to the container. -/
inductive Call
  | writeFrame (f : WireFrame)
  | writeRecord (time : SimTime) (r : OwnedRecord)
  | writeManifest
  | attach

/-- The payload of a call that stores a message is not empty. Frames have a header. -/
def Call.NonEmpty : Call → Prop
  | .writeRecord _ r => r.json ≠ []
  | _ => True

/-- The call closes the open chunk inside the container. -/
def Call.closes : Call → Bool
  | .writeManifest | .attach => true
  | _ => false

/-- The writer after a call. -/
def call (gates : Gates) (w : RecordingWriter) : Call → RecordingWriter
  | .writeFrame f => (w.writeFrame gates f).2
  | .writeRecord time r => (w.writeRecord gates time r).2
  | .writeManifest | .attach => w.chunkClosedByContainer

/-- The writer after some calls, refused ones among them. -/
def run (gates : Gates) (opts : RecordingOptions) (calls : List Call) : RecordingWriter :=
  calls.foldl (call gates) { opts }

end RecordingWriter

end V2xw.Record
