import V2xw.Record.Symbols

/-!
# Hello and provenance bodies

The connection preamble and the dictionaries of `crates/v2xw-record/src/wire/hello.rs` and
`wire/provenance.rs`: a fixed part with counts and offsets, tables laid out column by column, and a
symbol table behind them.

The node, class and channel rows, the provenance entries and the symbol table are those the server
builds. The `Hello` of a recording has all its fields here.

## Main definitions

* `HelloBody`, with `encode` and `decode`.
* `ProvenanceBody.encode`, `ProvenanceBody.decode`.

## Main results

* `HelloBody.decode_encode`, `ProvenanceBody.decode_encode` — round trips.
* `symbols_roundTrip` — what is encoded is decoded.
-/

namespace V2xw.Record

open Layout
open Server (StrTable NodeRow ClassRow ChannelRow ProvEntry DimEntry)

/-! ## Tables -/

/-- The columns of the node table. -/
def nodeTable : Table NodeRow where
  columns :=
    [field NodeRow.nodeId fun v r => { r with nodeId := v },
     field NodeRow.actorId fun v r => { r with actorId := v },
     field (fun r => r.posM.x) fun v r => { r with posM := { r.posM with x := v } },
     field (fun r => r.posM.y) fun v r => { r with posM := { r.posM with y := v } },
     field (fun r => r.posM.z) fun v r => { r with posM := { r.posM with z := v } },
     field NodeRow.strLabel fun v r => { r with strLabel := v },
     field NodeRow.strProfileId fun v r => { r with strProfileId := v },
     field NodeRow.flags fun v r => { r with flags := v },
     field NodeRow.kind fun v r => { r with kind := v },
     field NodeRow.classIdx fun v r => { r with classIdx := v }]
  empty := ⟨0, 0, ⟨⟨0⟩, ⟨0⟩, ⟨0⟩⟩, 0, 0, 0, 0, 0⟩
  complete r := by simp only [refill_cons, refill_nil, field_fill]

/-- The columns of the class table: two reserved bytes a row before the category, one behind it. -/
def classColumns : List (Column ClassRow) :=
  [field ClassRow.strName fun v r => { r with strName := v },
   field ClassRow.lengthM fun v r => { r with lengthM := v },
   field ClassRow.widthM fun v r => { r with widthM := v },
   field ClassRow.heightM fun v r => { r with heightM := v },
   field ClassRow.colorRgba fun v r => { r with colorRgba := v },
   reserved 2 Nat.two_pos,
   field ClassRow.category fun v r => { r with category := v },
   reserved 1 Nat.one_pos]

/-- The columns of the channel table. -/
def channelTable : Table ChannelRow where
  columns :=
    [field ChannelRow.strId fun v r => { r with strId := v },
     field ChannelRow.channelId fun v r => { r with channelId := v },
     field ChannelRow.visibility fun v r => { r with visibility := v },
     field ChannelRow.enabled fun v r => { r with enabled := v }]
  empty := ⟨0, 0, 0, 0⟩
  complete r := by simp only [refill_cons, refill_nil, field_fill]

/-- The columns of the provenance entries. -/
def entryTable : Table ProvEntry where
  columns :=
    [field ProvEntry.provId fun v r => { r with provId := v },
     field ProvEntry.strModelId fun v r => { r with strModelId := v },
     field ProvEntry.strModelVersion fun v r => { r with strModelVersion := v },
     field ProvEntry.strParamSetId fun v r => { r with strParamSetId := v },
     field ProvEntry.strCardUrl fun v r => { r with strCardUrl := v },
     field ProvEntry.family fun v r => { r with family := v },
     field ProvEntry.subjectKind fun v r => { r with subjectKind := v }]
  empty := ⟨0, 0, 0, 0, 0, 0, 0⟩
  complete r := by simp only [refill_cons, refill_nil, field_fill]

/-- The columns of the dimension dictionary. -/
def dimTable : Table DimEntry where
  columns :=
    [field DimEntry.dimKey fun v r => { r with dimKey := v },
     field DimEntry.strDims fun v r => { r with strDims := v }]
  empty := ⟨0, 0⟩
  complete r := by simp only [refill_cons, refill_nil, field_fill]

/-! ## Hello -/

/-- The world reference. -/
structure WorldRef where
  mode : UInt8
  format : UInt8
  payloadBytes : UInt32
  strUrl : UInt32
  deriving DecidableEq, Repr

/-- The fields of a `Hello` before its counts. -/
structure HelloHead where
  versionMinor : UInt16
  helloFlags : UInt32
  runId : Octets 16
  scenarioHash : Octets 32
  worldHash : Octets 32
  t0WallNs : Int64
  simDurationNs : UInt64
  mobilityStepNs : UInt64
  keyframePeriodNs : UInt64
  telemetryPeriodNs : UInt64
  metricPeriodNs : UInt64
  resumeSeq : UInt64
  simTimeNs : UInt64
  originLatDeg : F64
  originLonDeg : F64
  originAltM : F64
  /-- The bounding box: the lower corner, and the upper one. -/
  bboxMinX : F64
  bboxMinY : F64
  bboxMaxX : F64
  bboxMaxY : F64
  actorCapacity : UInt32
  deriving DecidableEq, Repr

/-- The layout of the fields before the counts, from the third byte on. -/
def HelloHead.table : Table HelloHead where
  columns :=
    [field HelloHead.versionMinor fun v r => { r with versionMinor := v },
     field HelloHead.helloFlags fun v r => { r with helloFlags := v },
     field HelloHead.runId fun v r => { r with runId := v },
     field HelloHead.scenarioHash fun v r => { r with scenarioHash := v },
     field HelloHead.worldHash fun v r => { r with worldHash := v },
     field HelloHead.t0WallNs fun v r => { r with t0WallNs := v },
     field HelloHead.simDurationNs fun v r => { r with simDurationNs := v },
     field HelloHead.mobilityStepNs fun v r => { r with mobilityStepNs := v },
     field HelloHead.keyframePeriodNs fun v r => { r with keyframePeriodNs := v },
     field HelloHead.telemetryPeriodNs fun v r => { r with telemetryPeriodNs := v },
     field HelloHead.metricPeriodNs fun v r => { r with metricPeriodNs := v },
     field HelloHead.resumeSeq fun v r => { r with resumeSeq := v },
     field HelloHead.simTimeNs fun v r => { r with simTimeNs := v },
     field HelloHead.originLatDeg fun v r => { r with originLatDeg := v },
     field HelloHead.originLonDeg fun v r => { r with originLonDeg := v },
     field HelloHead.originAltM fun v r => { r with originAltM := v },
     field HelloHead.bboxMinX fun v r => { r with bboxMinX := v },
     field HelloHead.bboxMinY fun v r => { r with bboxMinY := v },
     field HelloHead.bboxMaxX fun v r => { r with bboxMaxX := v },
     field HelloHead.bboxMaxY fun v r => { r with bboxMaxY := v },
     field HelloHead.actorCapacity fun v r => { r with actorCapacity := v }]
  empty := ⟨0, 0, ⟨List.replicate 16 0, rfl⟩, ⟨List.replicate 32 0, rfl⟩,
    ⟨List.replicate 32 0, rfl⟩, 0, 0, 0, 0, 0, 0, 0, 0, ⟨0⟩, ⟨0⟩, ⟨0⟩, ⟨0⟩, ⟨0⟩, ⟨0⟩, ⟨0⟩, 0⟩
  complete r := by simp only [refill_cons, refill_nil, field_fill]

/-- The counts and the offsets of a `Hello`. -/
structure HelloCounts where
  nodeCount : UInt32
  classCount : UInt16
  channelCount : UInt16
  offNodes : UInt32
  offClasses : UInt32
  offChannels : UInt32
  offWorldRef : UInt32
  offStrings : UInt32

/-- The layout of the counts. -/
def HelloCounts.table : Table HelloCounts where
  columns :=
    [field HelloCounts.nodeCount fun v r => { r with nodeCount := v },
     field HelloCounts.classCount fun v r => { r with classCount := v },
     field HelloCounts.channelCount fun v r => { r with channelCount := v },
     field HelloCounts.offNodes fun v r => { r with offNodes := v },
     field HelloCounts.offClasses fun v r => { r with offClasses := v },
     field HelloCounts.offChannels fun v r => { r with offChannels := v },
     field HelloCounts.offWorldRef fun v r => { r with offWorldRef := v },
     field HelloCounts.offStrings fun v r => { r with offStrings := v }]
  empty := ⟨0, 0, 0, 0, 0, 0, 0, 0⟩
  complete r := by simp only [refill_cons, refill_nil, field_fill]

/-- The string ids of a `Hello`, after its counts. -/
structure HelloNames where
  strEngineVersion : UInt32
  strScenarioName : UInt32
  strRunLabel : UInt32
  strSessionToken : UInt32
  deriving DecidableEq, Repr

/-- The layout of the string ids. -/
def HelloNames.table : Table HelloNames where
  columns :=
    [field HelloNames.strEngineVersion fun v r => { r with strEngineVersion := v },
     field HelloNames.strScenarioName fun v r => { r with strScenarioName := v },
     field HelloNames.strRunLabel fun v r => { r with strRunLabel := v },
     field HelloNames.strSessionToken fun v r => { r with strSessionToken := v }]
  empty := ⟨0, 0, 0, 0⟩
  complete r := by simp only [refill_cons, refill_nil, field_fill]

/-- A decoded `Hello` body. -/
structure HelloBody extends HelloHead, HelloNames where
  nodes : List NodeRow
  classes : List ClassRow
  channels : List ChannelRow
  worldRef : WorldRef
  /-- The symbol table the `Hello` establishes. -/
  strings : StrTable
  deriving DecidableEq, Repr

/-- The length of the fixed part of a `Hello`. -/
def helloPrefixBytes : ℕ := 256

/-- The length of the world reference. -/
def worldRefBytes : ℕ := 16

/-- The world reference, with its reserved bytes. -/
def WorldRef.encode (w : WorldRef) : Bytes :=
  put w.mode ++ (put w.format ++ (List.replicate 2 0 ++ (put w.payloadBytes ++
    (put w.strUrl ++ List.replicate 4 0))))

/-- Reads row `i` of `c` of the class table. -/
def decodeClass (body : Bytes) (off c i : ℕ) : Except RecordError ClassRow := do
  let what := "vwp Hello"
  let strName ← getAt body (off + 4 * i) what
  let lengthM ← getAt body (off + 4 * c + 4 * i) what
  let widthM ← getAt body (off + 8 * c + 4 * i) what
  let heightM ← getAt body (off + 12 * c + 4 * i) what
  let colorRgba ← getAt body (off + 16 * c + 4 * i) what
  let category ← getAt body (off + 22 * c + i) what
  .ok ⟨strName, lengthM, widthM, heightM, colorRgba, category⟩

/-- Reads the world reference. -/
def decodeWorldRef (body : Bytes) (off : ℕ) : Except RecordError WorldRef := do
  let what := "vwp Hello"
  let mode ← getAt body off what
  let format ← getAt body (off + 1) what
  let payloadBytes ← getAt body (off + 4) what
  let strUrl ← getAt body (off + 8) what
  .ok ⟨mode, format, payloadBytes, strUrl⟩

namespace HelloBody

/-- Where the class table stands. -/
def atClasses (b : HelloBody) : ℕ := helloPrefixBytes + 32 * b.nodes.length

/-- Where the channel table stands. -/
def atChannels (b : HelloBody) : ℕ := b.atClasses + 24 * b.classes.length

/-- Where the world reference stands. -/
def atWorldRef (b : HelloBody) : ℕ := b.atChannels + 8 * b.channels.length

/-- Where the symbol table stands. -/
def atStrings (b : HelloBody) : ℕ := b.atWorldRef + worldRefBytes

/-- The length of the encoding. -/
def encodedLen (b : HelloBody) : ℕ := b.atStrings + b.strings.encodedLen

/-- The counts and offsets the body is written with. -/
def counts (b : HelloBody) : HelloCounts where
  nodeCount := UInt32.ofNat b.nodes.length
  classCount := UInt16.ofNat b.classes.length
  channelCount := UInt16.ofNat b.channels.length
  offNodes := UInt32.ofNat (sectionOff b.nodes.length helloPrefixBytes)
  offClasses := UInt32.ofNat (sectionOff b.classes.length b.atClasses)
  offChannels := UInt32.ofNat (sectionOff b.channels.length b.atChannels)
  offWorldRef := UInt32.ofNat b.atWorldRef
  offStrings := UInt32.ofNat b.atStrings

/-- Encodes the body. -/
def encode (b : HelloBody) : Bytes :=
  put versionMajor ++ (emit HelloHead.table.columns [b.toHelloHead] ++
    (emit HelloCounts.table.columns [b.counts] ++ (emit HelloNames.table.columns [b.toHelloNames] ++
      (emit nodeTable.columns b.nodes ++ (emit classColumns b.classes ++
        (emit channelTable.columns b.channels ++ (b.worldRef.encode ++ b.strings.encode)))))))

/-- Decodes a body: the counts and the tables, and then the fixed fields. -/
def decode (explain : Bytes → String) (body : Bytes) : Except RecordError HelloBody := do
  let what := "vwp Hello"
  let p ← HelloCounts.table.readRecord (.truncated what) body 212
  let n ← checkedCount p.nodeCount.toNat 32 body.length what "node_count"
  let c ← checkedCount p.classCount.toNat 22 body.length what "class_count"
  let k ← checkedCount p.channelCount.toNat 8 body.length what "channel_count"
  let nodes ← nodeTable.readRows (.truncated what) body p.offNodes.toNat n
  let classes ← (List.range c).mapM fun i => decodeClass body p.offClasses.toNat c i
  let channels ← channelTable.readRows (.truncated what) body p.offChannels.toNat k
  let worldRef ← decodeWorldRef body p.offWorldRef.toNat
  let strings ← StrTable.decode explain body p.offStrings.toNat
  let head ← HelloHead.table.readRecord (.truncated what) body 2
  let names ← HelloNames.table.readRecord (.truncated what) body 240
  .ok { head, names with nodes, classes, channels, worldRef, strings := strings.1 }

/-! ### Where the sections stand -/

variable (b : HelloBody)

lemma length_encode : b.encode.length = b.encodedLen := by
  have hworld : b.worldRef.encode.length = 16 := rfl
  have hhead : (put versionMajor).length = 2 := rfl
  simp only [encode, List.length_append, length_emit, StrTable.length_encode, hworld, hhead]
  show 2 + (210 * 1 + (28 * 1 + (16 * 1 + (32 * b.nodes.length + (24 * b.classes.length +
    (8 * b.channels.length + (16 + b.strings.encodedLen))))))) =
      256 + 32 * b.nodes.length + 24 * b.classes.length + 8 * b.channels.length + 16 +
        b.strings.encodedLen
  omega

lemma drop_head : ∃ rest, b.encode.drop 2 = emit HelloHead.table.columns [b.toHelloHead] ++ rest :=
  ⟨_, List.drop_left' rfl⟩

lemma drop_counts : b.encode.drop 212 = emit HelloCounts.table.columns [b.counts] ++
    (emit HelloNames.table.columns [b.toHelloNames] ++ (emit nodeTable.columns b.nodes ++
      (emit classColumns b.classes ++ (emit channelTable.columns b.channels ++
        (b.worldRef.encode ++ b.strings.encode))))) := by
  have h : b.encode.drop 2 = _ := List.drop_left' rfl
  exact drop_add_of_drop h (length_emit _ _)

lemma drop_names : b.encode.drop 240 = emit HelloNames.table.columns [b.toHelloNames] ++
    (emit nodeTable.columns b.nodes ++ (emit classColumns b.classes ++
      (emit channelTable.columns b.channels ++ (b.worldRef.encode ++ b.strings.encode)))) :=
  drop_add_of_drop b.drop_counts (length_emit _ _)

lemma drop_nodes : b.encode.drop helloPrefixBytes = emit nodeTable.columns b.nodes ++
    (emit classColumns b.classes ++ (emit channelTable.columns b.channels ++
      (b.worldRef.encode ++ b.strings.encode))) :=
  drop_add_of_drop b.drop_names (length_emit _ _)

lemma drop_classes : b.encode.drop b.atClasses = emit classColumns b.classes ++
    (emit channelTable.columns b.channels ++ (b.worldRef.encode ++ b.strings.encode)) :=
  drop_add_of_drop b.drop_nodes (length_emit _ _)

lemma drop_channels : b.encode.drop b.atChannels = emit channelTable.columns b.channels ++
    (b.worldRef.encode ++ b.strings.encode) :=
  drop_add_of_drop b.drop_classes (length_emit _ _)

lemma drop_worldRef : b.encode.drop b.atWorldRef = b.worldRef.encode ++ b.strings.encode :=
  drop_add_of_drop b.drop_channels (length_emit _ _)

lemma drop_strings : b.encode.drop b.atStrings = b.strings.encode ++ [] := by
  rw [List.append_nil]
  exact drop_add_of_drop b.drop_worldRef rfl

/-! ### Reading the sections back -/

/-- A row of the class table is read back past the reserved bytes. -/
lemma read_class {off : ℕ} {rest : Bytes}
    (h : b.encode.drop off = emit classColumns b.classes ++ rest) {i : ℕ} {r : ClassRow}
    (hr : b.classes[i]? = some r) :
    decodeClass b.encode off b.classes.length i = .ok r := by
  have hcol : ∀ {α : Type} [Word α] (get : ClassRow → α) (set : α → ClassRow → ClassRow)
      (k pre at' : ℕ), classColumns[k]? = some (field get set) →
      stride (classColumns.take k) = pre →
      off + pre * b.classes.length + Word.width α * i = at' →
      getAt b.encode at' "vwp Hello" = .ok (get r) := by
    rintro α _ get set k pre at' hk rfl rfl
    obtain ⟨rest', hdrop⟩ := Table.drop_field hk hr h
    exact getAt_of_drop _ hdrop
  have h₀ := hcol ClassRow.strName _ 0 0 (off + 4 * i) rfl rfl (by simp [Word.width])
  have h₁ := hcol ClassRow.lengthM _ 1 4 (off + 4 * b.classes.length + 4 * i) rfl rfl rfl
  have h₂ := hcol ClassRow.widthM _ 2 8 (off + 8 * b.classes.length + 4 * i) rfl rfl rfl
  have h₃ := hcol ClassRow.heightM _ 3 12 (off + 12 * b.classes.length + 4 * i) rfl rfl rfl
  have h₄ := hcol ClassRow.colorRgba _ 4 16 (off + 16 * b.classes.length + 4 * i) rfl rfl rfl
  have h₆ := hcol ClassRow.category _ 6 22 (off + 22 * b.classes.length + i) rfl rfl
    (by simp [Word.width])
  simp only [decodeClass, h₀, h₁, h₂, h₃, h₄, h₆, bind, Except.bind]

/-- The world reference is read back. -/
lemma read_worldRef : decodeWorldRef b.encode b.atWorldRef = .ok b.worldRef := by
  have h := b.drop_worldRef
  rw [WorldRef.encode] at h
  simp only [List.append_assoc] at h
  have h₁ := drop_add_of_drop h (length_put _)
  have h₂ := drop_add_of_drop h₁ (length_put _)
  have h₄ := drop_add_of_drop h₂ List.length_replicate
  have h₈ := drop_add_of_drop h₄ (length_put _)
  have hmode := getAt_of_drop "vwp Hello" h
  have hformat := getAt_of_drop "vwp Hello" h₁
  have hbytes := getAt_of_drop "vwp Hello" h₄
  have hurl := getAt_of_drop "vwp Hello" h₈
  change getAt b.encode (b.atWorldRef + 1) _ = _ at hformat
  change getAt b.encode (b.atWorldRef + 4) _ = _ at hbytes
  change getAt b.encode (b.atWorldRef + 8) _ = _ at hurl
  simp only [decodeWorldRef, hmode, hformat, hbytes, hurl, bind, Except.bind]

/-- **A `Hello` that fits a frame decodes to itself.** -/
theorem decode_encode (explain : Bytes → String) (hlen : b.encodedLen < 2 ^ 32)
    (hclasses : b.classes.length < 2 ^ 16) (hchannels : b.channels.length < 2 ^ 16) :
    decode explain b.encode = .ok b := by
  have htotal : b.encode.length = b.atStrings + b.strings.encodedLen := b.length_encode
  have h₁ : b.atClasses = 256 + 32 * b.nodes.length := rfl
  have h₂ : b.atChannels = b.atClasses + 24 * b.classes.length := rfl
  have h₃ : b.atWorldRef = b.atChannels + 8 * b.channels.length := rfl
  have h₄ : b.atStrings = b.atWorldRef + 16 := rfl
  rw [← b.length_encode] at hlen
  have hoff : ∀ {n off : ℕ}, off < 2 ^ 32 → (UInt32.ofNat (sectionOff n off)).toNat =
      sectionOff n off := fun {n off} h =>
    toNat_ofNat_of_lt (lt_of_le_of_lt (sectionOff_le n off) h)
  have hfits : ∀ {count rowBytes : ℕ} {name : String}, count * rowBytes ≤ b.encode.length →
      checkedCount count rowBytes b.encode.length "vwp Hello" name = .ok count := fun h =>
    if_neg (not_lt.2 h)
  have hcounts : HelloCounts.table.readRecord (RecordError.truncated "vwp Hello") b.encode 212 =
      .ok b.counts := HelloCounts.table.readRecord_emit _ b.drop_counts
  obtain ⟨rest, hdropHead⟩ := b.drop_head
  have hhead : HelloHead.table.readRecord (RecordError.truncated "vwp Hello") b.encode 2 =
      .ok b.toHelloHead := HelloHead.table.readRecord_emit _ hdropHead
  have hnames : HelloNames.table.readRecord (RecordError.truncated "vwp Hello") b.encode 240 =
      .ok b.toHelloNames := HelloNames.table.readRecord_emit _ b.drop_names
  obtain ⟨rest, hdropN⟩ := drop_sectionOff b.drop_nodes emit_of_length_zero
  have hnodes := nodeTable.readRows_emit (RecordError.truncated "vwp Hello") hdropN
  obtain ⟨rest, hdropC⟩ := drop_sectionOff b.drop_classes emit_of_length_zero
  have hclassRows : (List.range b.classes.length).mapM (fun i =>
      decodeClass b.encode (sectionOff b.classes.length b.atClasses) b.classes.length i) =
      .ok b.classes := Table.mapM_range fun i r hr => b.read_class hdropC hr
  obtain ⟨rest, hdropK⟩ := drop_sectionOff b.drop_channels emit_of_length_zero
  have hchannelRows := channelTable.readRows_emit (RecordError.truncated "vwp Hello") hdropK
  have hstrings := StrTable.decode_of_drop explain (by omega) b.drop_strings
  simp only [decode, hcounts, bind, Except.bind, counts,
    toNat_ofNat_of_lt (show b.nodes.length < 2 ^ 32 by omega),
    UInt16.toNat_ofNat_of_lt' hclasses, UInt16.toNat_ofNat_of_lt' hchannels,
    hoff (show helloPrefixBytes < 2 ^ 32 by decide), hoff (show b.atClasses < 2 ^ 32 by omega),
    hoff (show b.atChannels < 2 ^ 32 by omega),
    toNat_ofNat_of_lt (show b.atWorldRef < 2 ^ 32 by omega),
    toNat_ofNat_of_lt (show b.atStrings < 2 ^ 32 by omega)]
  rw [hfits (by omega), hfits (by omega), hfits (by omega)]
  simp only [hnodes, hclassRows, hchannelRows, b.read_worldRef, hstrings, hhead, hnames]

end HelloBody

/-! ## Provenance -/

/-- The fixed part of a provenance body. -/
structure ProvPrefix where
  simTimeNs : SimTime
  entryCount : UInt32
  offEntries : UInt32
  dimCount : UInt32
  offDims : UInt32
  offStrings : UInt32
  flags : UInt32

/-- The fields of the fixed part. -/
def ProvPrefix.table : Table ProvPrefix where
  columns :=
    [field ProvPrefix.simTimeNs fun v r => { r with simTimeNs := v },
     field ProvPrefix.entryCount fun v r => { r with entryCount := v },
     field ProvPrefix.offEntries fun v r => { r with offEntries := v },
     field ProvPrefix.dimCount fun v r => { r with dimCount := v },
     field ProvPrefix.offDims fun v r => { r with offDims := v },
     field ProvPrefix.offStrings fun v r => { r with offStrings := v },
     field ProvPrefix.flags fun v r => { r with flags := v }]
  empty := ⟨0, 0, 0, 0, 0, 0, 0⟩
  complete r := by simp only [refill_cons, refill_nil, field_fill]

end V2xw.Record

namespace V2xw.Server.ProvenanceBody

open Layout Record

/-- Where the dimension dictionary stands. -/
def atDims (b : ProvenanceBody) : ℕ := 32 + 24 * b.entries.length

/-- Where the symbol table stands. -/
def atStrings (b : ProvenanceBody) : ℕ := b.atDims + 8 * b.dims.length

/-- The fixed part the body is written with. -/
def fixed (b : ProvenanceBody) : ProvPrefix where
  simTimeNs := b.simTimeNs
  entryCount := UInt32.ofNat b.entries.length
  offEntries := UInt32.ofNat (sectionOff b.entries.length 32)
  dimCount := UInt32.ofNat b.dims.length
  offDims := UInt32.ofNat (sectionOff b.dims.length b.atDims)
  offStrings := UInt32.ofNat (if b.strings.isSome then b.atStrings else 0)
  flags := b.flags

/-- The extension of the symbol table, if there is one. -/
def encodeStrings (b : ProvenanceBody) : Bytes := b.strings.elim [] StrTable.encode

/-- Encodes the body. -/
def encode (b : ProvenanceBody) : Bytes :=
  emit ProvPrefix.table.columns [b.fixed] ++ (emit entryTable.columns b.entries ++
    (emit dimTable.columns b.dims ++ b.encodeStrings))

/-- Reads the extension of the symbol table; the offset zero says that there is none. -/
def decodeStrings (explain : Bytes → String) (body : Bytes) (off : ℕ) :
    Except RecordError (Option StrTable) :=
  if off = 0 then .ok none else (StrTable.decode explain body off).map fun t => some t.1

/-- Decodes a body. -/
def decode (explain : Bytes → String) (body : Bytes) : Except RecordError ProvenanceBody := do
  let what := "vwp Provenance"
  let p ← ProvPrefix.table.readRecord (.truncated what) body 0
  let n ← checkedCount p.entryCount.toNat 24 body.length what "entry_count"
  let d ← checkedCount p.dimCount.toNat 8 body.length what "dim_count"
  let entries ← entryTable.readRows (.truncated what) body p.offEntries.toNat n
  let dims ← dimTable.readRows (.truncated what) body p.offDims.toNat d
  let strings ← decodeStrings explain body p.offStrings.toNat
  .ok ⟨p.simTimeNs, entries, dims, strings, p.flags⟩

variable (b : ProvenanceBody)

/-- The body has the length the source computes in advance. -/
lemma length_encode : b.encode.length = b.encodedLen := by
  have hstrings : b.encodeStrings.length = b.strings.elim 0 StrTable.encodedLen := by
    rw [encodeStrings]
    cases b.strings with
    | none => rfl
    | some t => exact t.length_encode
  have hlen : b.encodedLen = 32 + 24 * b.entries.length + 8 * b.dims.length +
      b.strings.elim 0 StrTable.encodedLen := by
    rw [encodedLen]
    cases b.strings with
    | none => rfl
    | some t => rfl
  simp only [encode, List.length_append, length_emit, hstrings, hlen]
  show 32 * 1 + (24 * b.entries.length + (8 * b.dims.length + _)) = _
  omega

lemma drop_entries : b.encode.drop 32 =
    emit entryTable.columns b.entries ++ (emit dimTable.columns b.dims ++ b.encodeStrings) :=
  List.drop_left' (length_emit _ _)

lemma drop_dims : b.encode.drop b.atDims = emit dimTable.columns b.dims ++ b.encodeStrings :=
  drop_add_of_drop b.drop_entries (length_emit _ _)

lemma drop_strings : b.encode.drop b.atStrings = b.encodeStrings ++ [] := by
  rw [List.append_nil]
  exact drop_add_of_drop b.drop_dims (length_emit _ _)

/-- The extension is read back, or found absent. -/
lemma read_strings (explain : Bytes → String) (hlen : b.encodedLen < 2 ^ 32) :
    decodeStrings explain b.encode (if b.strings.isSome then b.atStrings else 0) =
      .ok b.strings := by
  have hdrop := b.drop_strings
  have hat : b.atStrings = 32 + 24 * b.entries.length + 8 * b.dims.length := rfl
  rw [encodedLen] at hlen
  rw [encodeStrings] at hdrop
  cases hs : b.strings with
  | none => rfl
  | some t =>
    rw [hs] at hdrop hlen
    have hread := StrTable.decode_of_drop explain (t := t) (by dsimp only at hlen; omega) hdrop
    rw [Option.isSome_some, if_pos rfl, decodeStrings, if_neg (by omega), hread]
    rfl

/-- **A provenance body that fits a frame decodes to itself.** -/
theorem decode_encode (explain : Bytes → String) (hlen : b.encodedLen < 2 ^ 32) :
    decode explain b.encode = .ok b := by
  have hstrings := b.read_strings explain hlen
  rw [← b.length_encode] at hlen
  have htotal : b.encode.length = b.atStrings + b.encodeStrings.length := by
    simp only [encode, List.length_append, length_emit]
    show 32 * 1 + (24 * b.entries.length + (8 * b.dims.length + _)) =
      32 + 24 * b.entries.length + 8 * b.dims.length + _
    omega
  have h₁ : b.atDims = 32 + 24 * b.entries.length := rfl
  have h₂ : b.atStrings = b.atDims + 8 * b.dims.length := rfl
  have hoff : ∀ {n off : ℕ}, off < 2 ^ 32 → (UInt32.ofNat (sectionOff n off)).toNat =
      sectionOff n off := fun {n off} h =>
    toNat_ofNat_of_lt (lt_of_le_of_lt (sectionOff_le n off) h)
  have hat : (if b.strings.isSome then b.atStrings else 0) < 2 ^ 32 := by
    split_ifs
    · omega
    · decide
  have hfits : ∀ {count rowBytes : ℕ} {name : String}, count * rowBytes ≤ b.encode.length →
      checkedCount count rowBytes b.encode.length "vwp Provenance" name = .ok count := fun h =>
    if_neg (not_lt.2 h)
  have hfixed : ProvPrefix.table.readRecord (RecordError.truncated "vwp Provenance") b.encode 0 =
      .ok b.fixed := ProvPrefix.table.readRecord_emit _ rfl
  obtain ⟨rest, hdropE⟩ := drop_sectionOff b.drop_entries emit_of_length_zero
  have hentries := entryTable.readRows_emit (RecordError.truncated "vwp Provenance") hdropE
  obtain ⟨rest, hdropD⟩ := drop_sectionOff b.drop_dims emit_of_length_zero
  have hdims := dimTable.readRows_emit (RecordError.truncated "vwp Provenance") hdropD
  simp only [decode, hfixed, bind, Except.bind, fixed,
    toNat_ofNat_of_lt (show b.entries.length < 2 ^ 32 by omega),
    toNat_ofNat_of_lt (show b.dims.length < 2 ^ 32 by omega),
    hoff (show 32 < 2 ^ 32 by decide), hoff (show b.atDims < 2 ^ 32 by omega),
    toNat_ofNat_of_lt hat]
  rw [hfits (by omega), hfits (by omega)]
  simp only [hentries, hdims, hstrings]

end V2xw.Server.ProvenanceBody

namespace V2xw.Record

open Layout
open Server (StrTable ProvenanceBody)

/-- **What is encoded is decoded**: a symbol table at any offset of a buffer, with the length of its
encoding, and the bodies that end with one, if the encoding fits the length field of a frame and the
counts of a `Hello` fit theirs. -/
theorem symbols_roundTrip (explain : Bytes → String) :
    (∀ (t : StrTable) (before after : Bytes), t.encodedLen < 2 ^ 32 →
      StrTable.decode explain (before ++ (t.encode ++ after)) before.length =
        .ok (t, t.encodedLen)) ∧
    (∀ b : ProvenanceBody, b.encodedLen < 2 ^ 32 →
      ProvenanceBody.decode explain b.encode = .ok b) ∧
    (∀ b : HelloBody, b.classes.length ≤ 65535 → b.channels.length ≤ 65535 →
      b.encodedLen < 2 ^ 32 → HelloBody.decode explain b.encode = .ok b) := by
  refine ⟨?_, ?_, ?_⟩
  · intro t before after hlen
    exact StrTable.decode_of_drop explain hlen (List.drop_left' rfl)
  · intro b hlen
    exact b.decode_encode explain hlen
  · intro b hclasses hchannels hlen
    exact b.decode_encode explain hlen (Nat.lt_succ_of_le hclasses) (Nat.lt_succ_of_le hchannels)

/-- A table of two strings behind three bytes. -/
theorem symbols_roundTrip_table :
    StrTable.decode (fun _ => "") ([1, 2, 3] ++ ((StrTable.mk ["", "é"]).encode ++ [4])) 3 =
      .ok (⟨["", "é"]⟩, 24) ∧ (StrTable.mk ["", "é"]).encode.length = 24 := by
  have hlen : (StrTable.mk ["", "é"]).encodedLen = 24 := by decide +kernel
  have hread := (symbols_roundTrip fun _ => "").1 ⟨["", "é"]⟩ [1, 2, 3] [4] (by rw [hlen]; decide)
  rw [hlen] at hread
  exact ⟨hread, by rw [StrTable.length_encode, hlen]⟩

end V2xw.Record
