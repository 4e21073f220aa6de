import Mathlib.Data.List.Basic
import V2xw.Lib.Layout

/-!
# Frames

The binary framing of `crates/v2xw-record/src/wire/mod.rs`: a 24-byte header followed by a body, as
the recorder stores it and the reader hands it back. A frame is its bytes; the header is decoded on
demand, every read is bounds-checked, and the only edits made to stored bytes are to the flags and
to the sequence number.

Offsets and lengths are naturals: they come from `u32` fields, so the `usize` arithmetic of the
source does not overflow.

## Main definitions

* `RecordError` — what the codecs, the recorder and the reader report.
* `MsgType`, `FrameHeader`, `Frame` — frames.
* `Frame.new`, `Frame.fromBytes`, `Frame.header` — building and
  reading frames.

## Main results

* `Frame.header_build`, `Frame.body_build` — a built frame reads back.
* `Frame.new_eq_ok` — when a frame can be built.
-/

namespace V2xw.Record

open Layout

/-! ## Floats as bit patterns -/

/-- An `f64`, by its bit pattern. -/
structure F64 where
  bits : UInt64
  deriving DecidableEq, Repr

/-- An `f32`, by its bit pattern. -/
structure F32 where
  bits : UInt32
  deriving DecidableEq, Repr

instance : Word F64 where
  width := 8
  toNat a := a.bits.toNat
  ofNat n := ⟨UInt64.ofNat n⟩
  width_pos := @Word.width_pos UInt64 _
  toNat_lt a := a.bits.toNat_lt
  ofNat_toNat a := by rw [UInt64.ofNat_toNat]

instance : Word F32 where
  width := 4
  toNat a := a.bits.toNat
  ofNat n := ⟨UInt32.ofNat n⟩
  width_pos := @Word.width_pos UInt32 _
  toNat_lt a := a.bits.toNat_lt
  ofNat_toNat a := by rw [UInt32.ofNat_toNat]

/-! ## Errors -/

/-- An instant of simulated time on the wire, in nanoseconds. -/
abbrev SimTime := UInt64

/-- What can go wrong writing, reading or verifying a recording. -/
inductive RecordError
  /-- A structure ended before the field being read. -/
  | truncated (what : String) (off need have_ : ℕ)
  /-- A fixed field holds a value that is not allowed. -/
  | malformed (what : String) (detail : String)
  /-- The frame's magic is not the one of the format. -/
  | badMagic (found expected : UInt32)
  /-- The frame declares a major version this build cannot parse. -/
  | unsupportedVersion (found supported : UInt16)
  /-- A value does not fit the wire type of its field. -/
  | unrepresentable (what value ty : String)
  /-- The recording is internally inconsistent. -/
  | inconsistent (time : SimTime) (frames : UInt64) (detail : String)
  /-- A value is not on the grid its field declares. -/
  | offGrid (file channel field : String) (value quantum : F64) (row : ℕ)
  /-- Arithmetic on a value of the file would not fit. -/
  | wireOverflow (what : String) (detail : String)
  /-- A row count is too large for the buffer it describes. -/
  | implausibleCount (what : String) (detail : String)
  deriving DecidableEq, Repr

/-! ## Constants -/

/-- The magic of a frame; its little-endian bytes are `V W P 1`. -/
def magic : UInt32 := 0x31505756

/-- The length of the header. -/
def headerBytes : ℕ := 24

/-- The protocol major version this build speaks. -/
def versionMajor : UInt16 := 1

/-- The body is compressed. A transport flag. -/
def flagCompressed : UInt16 := 0x0001

/-- The keyframe re-seeds interpolation state. A transport flag. -/
def flagResync : UInt16 := 0x0002

/-- The frame was produced under the `node` profile. A canonical flag. -/
def flagNodeOnly : UInt16 := 0x0004

/-- The flag bits that are part of the recorded frame. -/
def canonicalFlagMask : UInt16 := 0x000C

/-- The flag bits the sender owns. -/
def transportFlagMask : UInt16 := 0x0033

/-- The absent `u32`. -/
def u32None : UInt32 := 0xFFFFFFFF

/-- The absent `u16`. -/
def u16None : UInt16 := 0xFFFF

/-- The absent `u8`. -/
def u8None : UInt8 := 0xFF

/-! ## Message types -/

/-- The message types. -/
inductive MsgType
  | hello
  | keyframe
  | delta
  | telemetry
  | event
  | metricSample
  | provenance
  | worldChunk
  | error
  | bye
  deriving DecidableEq, Repr

namespace MsgType

/-- The wire id of a message type. -/
def id : MsgType → UInt16
  | hello => 0x0001
  | keyframe => 0x0002
  | delta => 0x0003
  | telemetry => 0x0004
  | event => 0x0005
  | metricSample => 0x0006
  | provenance => 0x0007
  | worldChunk => 0x0008
  | error => 0x00FE
  | bye => 0x00FF

/-- The message type with a wire id, if this build knows it. -/
def fromId (i : UInt16) : Option MsgType :=
  if i = 0x0001 then some hello
  else if i = 0x0002 then some keyframe
  else if i = 0x0003 then some delta
  else if i = 0x0004 then some telemetry
  else if i = 0x0005 then some event
  else if i = 0x0006 then some metricSample
  else if i = 0x0007 then some provenance
  else if i = 0x0008 then some worldChunk
  else if i = 0x00FE then some error
  else if i = 0x00FF then some bye
  else none

/-- Whether the frame consumes a sequence number and belongs to the recorded stream. -/
def isCanonical : MsgType → Bool
  | keyframe | delta | telemetry | event | metricSample | provenance | worldChunk => true
  | hello | error | bye => false

/-- The name of the schema record of a message type. -/
def schemaName : MsgType → String
  | hello => "vwp.v1.Hello"
  | keyframe => "vwp.v1.Keyframe"
  | delta => "vwp.v1.Delta"
  | telemetry => "vwp.v1.Telemetry"
  | event => "vwp.v1.Event"
  | metricSample => "vwp.v1.MetricSample"
  | provenance => "vwp.v1.Provenance"
  | worldChunk => "vwp.v1.WorldChunk"
  | error => "vwp.v1.Error"
  | bye => "vwp.v1.Bye"

@[simp]
lemma fromId_id (k : MsgType) : fromId k.id = some k := by
  cases k <;> rfl

end MsgType

/-! ## Bounds-checked accessors -/

/-- The word at an offset of a buffer. -/
def getAt {α : Type} [Word α] (buf : Bytes) (off : ℕ) (what : String) : Except RecordError α :=
  (readAt (RecordError.truncated what) buf off (Word.width α)).map take

lemma getAt_of_drop {α : Type} [Word α] {buf rest : Bytes} {off : ℕ} {a : α} (what : String)
    (h : buf.drop off = put a ++ rest) : getAt buf off what = .ok a := by
  rw [getAt, readAt_of_drop _ h (length_put a) Word.width_pos]
  show Except.ok (take (put a)) = .ok a
  rw [take_put]

/-- A row count checked against the bytes its rows need. -/
def checkedCount (count rowBytes bufLen : ℕ) (what name : String) : Except RecordError ℕ :=
  if bufLen < count * rowBytes then
    .error (.implausibleCount what
      s!"{name} declares {count} rows of at least {rowBytes} bytes, which is {count * rowBytes} bytes inside a                  {bufLen}-byte body; the count is not describing this body")
  else .ok count

lemma toNat_ofNat_of_lt {n : ℕ} (h : n < 2 ^ 32) : (UInt32.ofNat n).toNat = n :=
  UInt32.toNat_ofNat_of_lt' h

/-- The next multiple of four. -/
def ceil4 (n : ℕ) : ℕ := (n + 3) / 4 * 4

/-- The next multiple of eight. -/
def ceil8 (n : ℕ) : ℕ := (n + 7) / 8 * 8

/-- A word in hexadecimal with at least four digits, as `{:#06x}` prints it. -/
def hex16 (n : UInt16) : String :=
  let digits := Nat.toDigits 16 n.toNat
  "0x" ++ String.ofList (List.replicate (4 - digits.length) '0' ++ digits)

/-! ## Frames -/

/-- A decoded frame header. -/
structure FrameHeader where
  /-- The protocol major version. -/
  version : UInt16
  msgType : UInt16
  bodyLen : UInt32
  flags : UInt16
  /-- The reserved word, ignored. -/
  reserved : UInt16
  /-- The canonical sequence number. -/
  seq : UInt64
  deriving DecidableEq, Repr

/-- The message type of a header, if this build knows it. -/
def FrameHeader.kind (h : FrameHeader) : Option MsgType := MsgType.fromId h.msgType

/-- The layout of the header after the magic. -/
def FrameHeader.table : Table FrameHeader where
  columns :=
    [field FrameHeader.version fun v r => { r with version := v },
     field FrameHeader.msgType fun v r => { r with msgType := v },
     field FrameHeader.bodyLen fun v r => { r with bodyLen := v },
     field FrameHeader.flags fun v r => { r with flags := v },
     field FrameHeader.reserved fun v r => { r with reserved := v },
     field FrameHeader.seq fun v r => { r with seq := v }]
  empty := ⟨0, 0, 0, 0, 0, 0⟩
  complete r := by simp only [refill_cons, refill_nil, field_fill]

/-- One frame: the header followed by the body. -/
structure Frame where
  bytes : Bytes
  deriving DecidableEq, Repr

namespace Frame

/-- The frame with a header and a body. -/
def build (h : FrameHeader) (body : Bytes) : Frame :=
  ⟨put magic ++ (emit FrameHeader.table.columns [h] ++ body)⟩

/-- A frame of a message type, or an error for a body too long for its length field. -/
def new (kind : MsgType) (seq : UInt64) (flags : UInt16) (body : Bytes) :
    Except RecordError Frame :=
  if body.length < 2 ^ 32 then
    .ok (build ⟨versionMajor, kind.id, UInt32.ofNat body.length, flags, 0, seq⟩ body)
  else .error (.unrepresentable "frame body_len" s!"{body.length}" "u32")

/-- The decoded header. The reserved word is read and ignored. -/
def header (f : Frame) : Except RecordError FrameHeader := do
  let m : UInt32 ← getAt f.bytes 0 "vwp frame header"
  if m ≠ magic then .error (.badMagic m magic)
  else FrameHeader.table.readRecord (.truncated "vwp frame header") f.bytes 4

/-- The body, without the header. -/
def body (f : Frame) : Bytes := f.bytes.drop (min headerBytes f.bytes.length)

/-- Adopts bytes that are already a frame, checking the header against the body. -/
def fromBytes (bytes : Bytes) : Except RecordError Frame := do
  let f : Frame := ⟨bytes⟩
  let h ← f.header
  if h.version ≠ versionMajor then .error (.unsupportedVersion h.version versionMajor)
  else if h.flags &&& flagCompressed ≠ 0 then
    .error (.malformed "vwp frame"
      "FLAG_COMPRESSED is set: the recorder stores uncompressed bodies (§7.1)")
  else
    let present := f.bytes.length - headerBytes
    if present ≠ h.bodyLen.toNat then
      .error (.malformed "vwp frame" s!"body_len = {h.bodyLen} but {present} body bytes present")
    else .ok f

/-- The same frame with its flags replaced. -/
def withFlags (f : Frame) (flags : UInt16) : Frame :=
  if headerBytes ≤ f.bytes.length then ⟨poke f.bytes 12 (put flags)⟩ else f

/-- The instant the frame belongs at. -/
def simTime (f : Frame) : Except RecordError SimTime := do
  let h ← f.header
  match h.kind with
  | some .event => getAt f.body 8 "vwp Event.t_end_ns"
  | some .hello => getAt f.body 144 "vwp Hello.sim_time_ns"
  | some .worldChunk | none =>
    .error (.malformed "vwp frame" s!"message type {hex16 h.msgType} carries no sim time")
  | some _ => getAt f.body 0 "vwp body.sim_time_ns"

/-! ## Built frames -/

lemma length_header (h : FrameHeader) :
    (emit FrameHeader.table.columns [h]).length = 20 := by
  rw [length_emit]
  rfl

lemma length_build (h : FrameHeader) (b : Bytes) :
    (build h b).bytes.length = headerBytes + b.length := by
  show (put magic ++ (emit FrameHeader.table.columns [h] ++ b)).length = _
  rw [List.length_append, List.length_append, length_header, length_put]
  show 4 + (20 + b.length) = 24 + b.length
  omega

@[simp]
lemma header_build (h : FrameHeader) (b : Bytes) : (build h b).header = .ok h := by
  have hmagic : getAt (build h b).bytes 0 "vwp frame header" = .ok magic :=
    getAt_of_drop _ rfl
  have hrec := FrameHeader.table.readRecord_emit (RecordError.truncated "vwp frame header")
    (show (build h b).bytes.drop 4 = emit FrameHeader.table.columns [h] ++ b from
      List.drop_left' (length_put magic))
  unfold header
  rw [hmagic]
  exact hrec

@[simp]
lemma body_build (h : FrameHeader) (b : Bytes) : (build h b).body = b := by
  have hlen := length_build h b
  have hmin : min headerBytes (build h b).bytes.length = headerBytes := by omega
  rw [body, hmin]
  show (put magic ++ (emit FrameHeader.table.columns [h] ++ b)).drop 24 = b
  rw [← List.append_assoc]
  refine List.drop_left' ?_
  rw [List.length_append, length_header, length_put]
  rfl

/-- **When a frame can be built**: the body fits its length field. -/
theorem new_eq_ok {kind : MsgType} {seq : UInt64} {flags : UInt16} {b : Bytes} {f : Frame} :
    new kind seq flags b = .ok f ↔ b.length < 2 ^ 32 ∧
      f = build ⟨versionMajor, kind.id, UInt32.ofNat b.length, flags, 0, seq⟩ b := by
  rw [new]
  split_ifs with h
  · simp only [Except.ok.injEq, h, true_and, eq_comm]
  · simp only [h, false_and]

end Frame

end V2xw.Record
