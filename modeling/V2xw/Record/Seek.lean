import V2xw.Record.Chunks

/-!
# Seeking in a recording

A reader has an index of the chunks and of the keyframes and deltas in them. To seek, it finds the
last keyframe at or before an instant, reads on from its chunk as long as the next chunk starts in
time, and keeps the keyframe and the deltas behind it. How large a chunk is with the framing of the
container, and which checksum it carries, is a parameter.

## Main definitions

* `Record.Chunk`, `Record.chunkOf` — the chunks of a file.
* `Record.SeekIndex` — the index of a file.
* `Record.Reader.walk` — reading chunks one after the other.
* `Record.Reader.seek` — a seek.
-/

namespace V2xw.Record

open Layout

/-! ## Files -/

/-- What the container adds to the messages of a chunk. -/
structure Container where
  uncompressedSize : List Message → ℕ
  uncompressedCrc : List Message → UInt32

/-- A chunk as it stands in a file, with the messages it holds. -/
structure Chunk where
  messageStartTime : SimTime
  messageEndTime : SimTime
  uncompressedSize : ℕ
  uncompressedCrc : UInt32
  messages : List Message

/-- The chunk of some messages: its span is that of their times. -/
def chunkOf (container : Container) (ms : List Message) : Chunk where
  messageStartTime := (ms.map Message.logTime).min?.getD 0
  messageEndTime := (ms.map Message.logTime).max?.getD 0
  uncompressedSize := container.uncompressedSize ms
  uncompressedCrc := container.uncompressedCrc ms
  messages := ms

/-! ## The index -/

/-- One message's position: its time, the number of its chunk and its place there. -/
structure MessageSlot where
  simTime : SimTime
  chunk : UInt32
  offset : ℕ

/-- The order of the index: by time, then by position. -/
def MessageSlot.le (a b : MessageSlot) : Bool :=
  if a.simTime ≠ b.simTime then a.simTime ≤ b.simTime
  else if a.chunk ≠ b.chunk then a.chunk ≤ b.chunk
  else a.offset ≤ b.offset

/-- The positions of the messages of a topic in the chunk with number `chunk`. -/
def slotsIn (topic : Topic) (chunk : ℕ) (ms : List Message) : List MessageSlot :=
  ms.zipIdx.filterMap fun (m, offset) =>
    if m.topic = topic then some ⟨m.logTime, UInt32.ofNat chunk, offset⟩ else none

/-- The index of a file: the positions of its keyframes and deltas, ascending by time. -/
structure SeekIndex where
  chunks : List Chunk
  keyframes : List MessageSlot
  deltas : List MessageSlot

namespace SeekIndex

/-- The index of some chunks. -/
def read (chunks : List Chunk) : SeekIndex :=
  let slots (topic : Topic) :=
    (chunks.zipIdx.flatMap fun (c, i) => slotsIn topic i c.messages).mergeSort MessageSlot.le
  { chunks, keyframes := slots .keyframe, deltas := slots .delta }

/-- The last keyframe at or before `t`. -/
def keyframeAtOrBefore (index : SeekIndex) (t : SimTime) : Option MessageSlot :=
  (index.keyframes.takeWhile (·.simTime ≤ t)).getLast?

/-- The recorded snapshot interval, if there is a keyframe. -/
def snapshotSpan (index : SeekIndex) : Option (SimTime × SimTime) :=
  match index.keyframes.head?, index.keyframes.getLast? with
  | some first, some last =>
    some (first.simTime, max ((index.deltas.getLast?.map MessageSlot.simTime).getD 0) last.simTime)
  | _, _ => none

end SeekIndex

/-! ## Reading -/

/-- The largest uncompressed chunk the reader decompresses. -/
def maxChunkUncompressedBytes : ℕ := 256 * 1024 * 1024

/-- The flag of a frame that answers a seek. -/
def flagSeekResult : UInt16 := 0x0020

/-- What a seek has found so far. -/
structure Found where
  keyframe : Option Frame := none
  deltas : List Frame := []

/-- What a seek returns. -/
structure SeekResult where
  keyframe : Frame
  deltas : List Frame
  keyframeTime : SimTime
  chunksRead : ℕ

/-- A reader of a recording. -/
structure Reader where
  index : SeekIndex
  requireChunkChecksums : Bool := false

namespace Reader

/-- Keeps the keyframe at the instant `start` and the deltas behind it up to `t`. -/
def readMessages (start t : SimTime) : List Message → Found → Except RecordError Found
  | [], found => .ok found
  | m :: ms, found =>
    if m.topic = .keyframe ∧ m.logTime = start then
      match Frame.fromBytes m.data with
      | .error e => .error e
      | .ok f => readMessages start t ms { found with keyframe := some f }
    else if m.topic = .delta ∧ start < m.logTime ∧ m.logTime ≤ t then
      match Frame.fromBytes m.data with
      | .error e => .error e
      | .ok f => readMessages start t ms { found with deltas := found.deltas ++ [f] }
    else readMessages start t ms found

/-- Reads one chunk. A chunk that is too large is refused, and one without a checksum if the reader
requires one. -/
def readChunk (r : Reader) (start t : SimTime) (i : ℕ) (c : Chunk) (found : Found) :
    Except RecordingError Found :=
  if maxChunkUncompressedBytes < c.uncompressedSize then
    .error (.record (.malformed "mcap chunk"
      s!"chunk {i} declares {c.uncompressedSize} uncompressed bytes, past the {maxChunkUncompressedBytes}-byte                      ceiling this reader will allocate for"))
  else
    match readMessages start t c.messages found with
    | .error e => .error (.record e)
    | .ok found =>
      if r.requireChunkChecksums ∧ c.uncompressedCrc = 0 then .error (.uncheckedChunk i)
      else .ok found

/-- Reads chunks from number `i` on, as long as the next one starts in time. -/
def walk (r : Reader) (start t limit : SimTime) :
    ℕ → List Chunk → Found → Except RecordingError (Found × ℕ)
  | i, [], _ => .error (.record (.malformed "mcap chunk index" s!"no chunk {i}"))
  | i, c :: rest, found =>
    match r.readChunk start t i c found with
    | .error e => .error e
    | .ok found =>
      match rest with
      | [] => .ok (found, 1)
      | next :: _ =>
        if next.messageStartTime ≤ limit then
          (r.walk start t limit (i + 1) rest found).map fun (found, read) => (found, read + 1)
        else .ok (found, 1)

/-- The last instant of the GOP that starts at an instant. -/
def gopEnd (index : SeekIndex) (start : SimTime) : SimTime :=
  match (index.keyframes.map MessageSlot.simTime).find? (fun s => decide (start < s)) with
  -- `s` is after `start`, so it is not zero
  | some s => s - 1
  | none => 0xFFFFFFFFFFFFFFFF

/-- Reads the keyframe at a position and the deltas behind it up to `t`. -/
def collectGop (r : Reader) (slot : MessageSlot) (t : SimTime) :
    Except RecordingError SeekResult :=
  let limit := min t (gopEnd r.index slot.simTime)
  let chunk := slot.chunk.toNat
  match r.walk slot.simTime t limit chunk (r.index.chunks.drop chunk) {} with
  | .error e => .error e
  | .ok (found, chunksRead) =>
    match found.keyframe with
    | none =>
      .error (.record (.inconsistent slot.simTime 0
        s!"the keyframe index points at chunk {slot.chunk} for t = {slot.simTime} but no keyframe with that time is in it"))
    | some keyframe =>
      let time (f : Frame) : SimTime := f.simTime.toOption.getD 0
      let deltas := found.deltas.mergeSort fun a b => time a ≤ time b
      match keyframe.header with
      | .error e => .error (.record e)
      | .ok h =>
        let flags := h.flags &&& canonicalFlagMask ||| flagResync ||| flagSeekResult
        .ok {
          keyframe := keyframe.withFlags flags, deltas, keyframeTime := slot.simTime, chunksRead }

/-- Seeks to `t`: the last keyframe at or before it and the deltas behind that. -/
def seek (r : Reader) (t : SimTime) : Except RecordingError SeekResult :=
  match r.index.keyframeAtOrBefore t, r.index.snapshotSpan with
  | some slot, some span =>
    if t < span.1 then .error (.seekOutOfRange t span.1 span.2) else r.collectGop slot t
  | _, _ =>
    .error (.seekOutOfRange t
      ((r.index.keyframes.head?.map MessageSlot.simTime).getD 0)
      ((r.index.keyframes.getLast?.map MessageSlot.simTime).getD 0))

end Reader

end V2xw.Record
