import V2xw.Record.Receiver

/-!
# The mirrors of the browser client

What the client of `ui/packages/protocol` keeps of a stream: a table of strings, a buffer of poses
by slot, and a table of the actor in each slot. The router applies every message to them in the
order of arrival. The buffer refuses a delta that does not continue what it holds.

The columns of the buffer are one list of rows, and the dequantised copies are left out. A typed
array ignores a write behind its end, as `List.set` and `List.modify` do.

## Main definitions

* `Client.PoseBuffer.applyKeyframe`, `Client.PoseBuffer.applyDelta` — the buffer of poses.
* `Client.SlotTable.adoptKeyframe`, `Client.SlotTable.adoptSpawn`, `Client.SlotTable.release` — the
  table of slots.
* `Client.Mirrors.route` — one message.
-/

namespace V2xw.Client

open Record

/-! ## Protocol errors -/

/-- The kinds of protocol violation. -/
inductive ProtocolErrorCode
  | badMagic
  | badVersion
  | truncated
  | badLength
  | badOffset
  | misaligned
  | unknownMsgType
  | compressedUnsupported
  | badState
  | hashMismatch
  deriving DecidableEq, Repr

/-- A protocol violation, with its text and the field it is about. -/
structure ProtocolError where
  code : ProtocolErrorCode
  message : String
  field : Option String
  deriving DecidableEq, Repr

/-- The code that the socket is closed with. -/
def ProtocolError.closeCode (e : ProtocolError) : ℕ := if e.code = .badVersion then 4406 else 1002

/-! ## Capacity -/

/-- The largest bound on slots. -/
def maxActorSlots : ℕ := 2 ^ 20

/-- The capacity doubled until it is enough. -/
def doubled (next capacity : ℕ) : ℕ :=
  if h : 0 < next ∧ next < capacity then doubled (next * 2) capacity else next
termination_by capacity - next
decreasing_by omega

/-- A column grown to a capacity. -/
def grow {α : Type} (empty : α) (column : List α) (capacity : ℕ) : List α :=
  if capacity ≤ column.length then column
  else column ++ List.replicate (doubled column.length capacity - column.length) empty

lemma le_doubled {next capacity : ℕ} (h : 0 < next) : capacity ≤ doubled next capacity := by
  fun_induction doubled next capacity with
  | case1 next hlt ih => exact ih (by omega)
  | case2 next hge => omega

lemma doubled_le (next capacity : ℕ) : doubled next capacity ≤ max next (2 * capacity) := by
  fun_induction doubled next capacity with
  | case1 next hlt ih => omega
  | case2 next hge => omega

section Columns

variable {α : Type} {empty : α} {column : List α} {capacity s : ℕ}

lemma getD_grow : (grow empty column capacity).getD s empty = column.getD s empty := by
  unfold grow
  split_ifs with h
  · rfl
  · rw [List.getD_eq_getElem?_getD, List.getD_eq_getElem?_getD]
    by_cases hs : s < column.length
    · rw [List.getElem?_append_left hs]
    · rw [List.getElem?_append_right (Nat.le_of_not_lt hs),
        List.getElem?_eq_none (Nat.le_of_not_lt hs),
        List.getElem?_replicate]
      split_ifs <;> rfl

lemma length_le_grow : column.length ≤ (grow empty column capacity).length := by
  unfold grow
  split_ifs with h
  · exact le_rfl
  · rw [List.length_append]
    exact Nat.le_add_right _ _

lemma le_length_grow (h : 0 < column.length) :
    capacity ≤ (grow empty column capacity).length := by
  have hdoubled := @le_doubled _ capacity h
  unfold grow
  split_ifs with hle
  · exact hle
  · rw [List.length_append, List.length_replicate]
    omega

lemma length_grow_le (capacity : ℕ) :
    (grow empty column capacity).length ≤ max column.length (2 * capacity) := by
  have hdoubled := doubled_le column.length capacity
  unfold grow
  split_ifs with h
  · omega
  · rw [List.length_append, List.length_replicate]
    omega

lemma getD_set {i : ℕ} (hi : i < column.length) (a : α) :
    (column.set i a).getD s empty = if s = i then a else column.getD s empty := by
  rw [List.getD_eq_getElem?_getD, List.getElem?_set]
  split_ifs with h h' h'
  · rfl
  · exact absurd h.symm h'
  · exact absurd h'.symm h
  · rw [List.getD_eq_getElem?_getD]

lemma getD_modify (i : ℕ) (f : α → α) :
    (column.modify i f).getD s empty =
      if s = i ∧ i < column.length then f (column.getD s empty) else column.getD s empty := by
  rw [List.getD_eq_getElem?_getD, List.getD_eq_getElem?_getD, List.getElem?_modify]
  by_cases hs : s = i
  · subst hs
    by_cases hlt : s < column.length
    · rw [if_pos ⟨rfl, hlt⟩, List.getElem?_eq_getElem hlt]
      simp
    · rw [if_neg fun h => hlt h.2, List.getElem?_eq_none (Nat.le_of_not_lt hlt)]
      rfl
  · rw [if_neg fun h => hs h.1]
    cases column[s]? with
    | none => rfl
    | some r => simp [Ne.symm hs]

end Columns

/-! ## The buffer of poses -/

/-- The columns of a slot. -/
structure PoseRow where
  actorId : UInt32
  xMm : Int32
  yMm : Int32
  zMm : Int32
  headingBrad : UInt16
  speedCq : Int16
  accelCq : Int16
  laneId : UInt32
  classIdx : UInt8
  state : UInt8
  verifiedNeighbors : UInt8
  occupied : Bool
  deriving DecidableEq, Repr

namespace PoseRow

/-- A slot without an actor. -/
def empty : PoseRow := ⟨u32None, 0, 0, 0, 0, 0, 0, u32None, 0, 0, 0, false⟩

/-- The slot of a keyframe row. -/
def ofActorRow (a : ActorRow) : PoseRow where
  actorId := a.actorId
  xMm := a.xMm
  yMm := a.yMm
  zMm := a.zCm.toInt32 * 10
  headingBrad := a.headingBrad
  speedCq := a.speedCq
  accelCq := a.accelCq
  laneId := a.laneId
  classIdx := a.classIdx
  state := a.state
  verifiedNeighbors := a.verifiedNeighbors
  occupied := a.actorId != u32None

/-- The slot of a spawn row. -/
def ofSpawnRow (sp : SpawnRow) : PoseRow where
  actorId := sp.actorId
  xMm := sp.xMm
  yMm := sp.yMm
  zMm := sp.zCm.toInt32 * 10
  headingBrad := sp.headingBrad
  speedCq := sp.speedCq
  accelCq := 0
  laneId := sp.laneId
  classIdx := sp.classIdx
  state := sp.state
  verifiedNeighbors := sp.verifiedNeighbors
  occupied := true

/-- A slot after a moved row, with the entries the row announced. -/
def move (r : PoseRow) (m : MovedRow) (abs : Option AbsRow) (lane : Option UInt32) : PoseRow :=
  let placed := match abs with
    | some a => { r with xMm := a.xMm, yMm := a.yMm, zMm := a.zCm.toInt32 * 10 }
    | none =>
      { r with
        xMm := r.xMm + m.dxMm.toInt32
        yMm := r.yMm + m.dyMm.toInt32
        zMm := r.zMm + m.dzMm.toInt32 }
  { placed with
    laneId := lane.getD r.laneId
    headingBrad := m.headingBrad
    speedCq := m.speedCq
    accelCq := m.accelCq
    state := m.state
    verifiedNeighbors := m.verifiedNeighbors
    occupied := true }

end PoseRow

/-- The buffer of poses. The index of the group of pictures is −1 before the first keyframe. -/
structure PoseBuffer where
  rows : List PoseRow
  slotBound : ℕ
  count : ℕ
  gopIndex : ℤ
  stepIndex : ℕ
  hasKeyframe : Bool
  simTimeNs : SimTime
  origin : Axes F64

/-- Why a delta is refused. -/
inductive DeltaRejectReason
  | noKeyframe
  | gopMismatch
  | stepGap
  deriving DecidableEq, Repr

/-- The outcome of a delta. -/
inductive DeltaApplyResult
  | applied (moved spawned despawned : ℕ)
  | refused (reason : DeltaRejectReason)
  deriving DecidableEq, Repr

namespace PoseBuffer

/-- An empty buffer. -/
def new (capacity : ℕ) : PoseBuffer where
  rows := List.replicate (max 1 capacity) PoseRow.empty
  slotBound := maxActorSlots
  count := 0
  gopIndex := -1
  stepIndex := 0
  hasKeyframe := false
  simTimeNs := 0
  origin := ⟨F64.zero, F64.zero, F64.zero⟩

/-- The slots that there is room for. -/
def capacity (b : PoseBuffer) : ℕ := b.rows.length

/-- The bound on the slots that a delta may name. -/
def slotLimit (b : PoseBuffer) : ℕ := max b.slotBound b.capacity

/-- Sets the bound on slots. -/
def setSlotBound (b : PoseBuffer) (actorCapacity : ℕ) : PoseBuffer :=
  if actorCapacity = 0 then b else { b with slotBound := min maxActorSlots actorCapacity }

/-- Grows the buffer. -/
def ensureCapacity (b : PoseBuffer) (capacity : ℕ) : PoseBuffer :=
  { b with rows := grow PoseRow.empty b.rows capacity }

/-- Drops all stream state. -/
def reset (b : PoseBuffer) : PoseBuffer :=
  { b with
    rows := b.rows.map fun r => { r with actorId := u32None, laneId := u32None, occupied := false }
    count := 0
    gopIndex := -1
    stepIndex := 0
    hasKeyframe := false
    simTimeNs := 0 }

/-- A keyframe overwrites the slots it has rows for, and releases those above. -/
def applyKeyframe (b : PoseBuffer) (kf : KeyframeBody) : PoseBuffer :=
  let A := kf.actors.length
  let b' := b.ensureCapacity (max A 1)
  { b' with
    rows := kf.actors.map PoseRow.ofActorRow ++ (b'.rows.drop A).mapIdx fun i r =>
      if A + i < b.count then { r with occupied := false, actorId := u32None } else r
    origin := kf.origin
    count := A
    gopIndex := kf.gopIndex.toNat
    stepIndex := 0
    hasKeyframe := true
    simTimeNs := kf.simTimeNs }

/-- Why a delta does not continue what the buffer holds, if it does not. -/
def refusal (b : PoseBuffer) (d : DeltaBody) : Option DeltaRejectReason :=
  if !b.hasKeyframe then some .noKeyframe
  else if (d.gopIndex.toNat : ℤ) ≠ b.gopIndex then some .gopMismatch
  else if d.stepIndex.toNat ≠ b.stepIndex + 1 then some .stepGap
  else none

/-- A slot must be below the bound. -/
def checkSlot (b : PoseBuffer) (what : String) (slot : UInt32) : Except ProtocolError Unit :=
  if b.slotLimit ≤ slot.toNat then
    .error ⟨.badOffset,
      s!"Delta {what} slot {slot} is at or beyond the actor-capacity bound {b.slotLimit} (§3.1.1)",
      some what⟩
  else .ok ()

/-- The capacity that the spawns of a delta need. -/
def growTo (d : DeltaBody) : ℕ := d.spawns.foldl (fun n sp => max n (sp.slot.toNat + 1)) 0

/-- A moved row must name a slot that there is, or that a spawn of the delta makes. -/
def checkMoved (b : PoseBuffer) (bound : ℕ) (m : MovedRow) : Except ProtocolError Unit := do
  b.checkSlot "moved" m.slot
  if bound ≤ m.slot.toNat then
    .error ⟨.badState, s!"Delta moves slot {m.slot} beyond capacity {bound}", none⟩

/-- Everything about a delta that can be refused, before any column is written. -/
def validate (b : PoseBuffer) (d : DeltaBody) : Except ProtocolError Unit := do
  d.spawns.forM fun sp => b.checkSlot "spawns" sp.slot
  d.moved.forM (b.checkMoved (max b.capacity (growTo d)))
  let absNeeded := (d.moved.filter fun m => m.mflags &&& mflagAbsolute != 0).length
  let laneNeeded := (d.moved.filter fun m => m.mflags &&& mflagLaneChanged != 0).length
  if d.abs.length < absNeeded then
    .error ⟨.badState,
      s!"Delta sets MFLAG_ABSOLUTE on {absNeeded} moved rows but the absolute block holds only {d.abs.length} entries (§3.4.3)",
      some "Delta.absolute"⟩
  if d.lanes.length < laneNeeded then
    .error ⟨.badState,
      s!"Delta sets MFLAG_LANE_CHANGED on {laneNeeded} moved rows but the lane block holds only {d.lanes.length} entries (§3.4.4)",
      some "Delta.lanes"⟩

/-- The slot of a spawn row, which may be beyond the capacity. -/
def spawn (b : PoseBuffer) (sp : SpawnRow) : PoseBuffer :=
  let b' := b.ensureCapacity (sp.slot.toNat + 1)
  { b' with
    rows := b'.rows.set sp.slot.toNat (.ofSpawnRow sp)
    count := max b.count (sp.slot.toNat + 1) }

/-- The moved rows, with the entries of the side blocks still to take. -/
def moveRows : List PoseRow → List MovedRow → List AbsRow → List UInt32 → List PoseRow
  | rows, [], _, _ => rows
  | rows, m :: moved, abs, lanes =>
    let (entry, abs) := nextEntry (m.mflags &&& mflagAbsolute != 0) abs
    let (lane, lanes) := nextEntry (m.mflags &&& mflagLaneChanged != 0) lanes
    moveRows (rows.modify m.slot.toNat fun r => r.move m entry lane) moved abs lanes

/-- The slot of a despawn row. -/
def despawn (rows : List PoseRow) (dp : DespawnRow) : List PoseRow :=
  rows.modify dp.slot.toNat fun r =>
    { r with occupied := false, actorId := u32None, laneId := u32None }

/-- Applies a delta: refused without a change, or refused as malformed, or applied. -/
def applyDelta (b : PoseBuffer) (d : DeltaBody) :
    Except ProtocolError (DeltaApplyResult × PoseBuffer) :=
  match b.refusal d with
  | some reason => .ok (.refused reason, b)
  | none =>
    (b.validate d).map fun _ =>
      let b := d.spawns.foldl spawn b
      let rows := d.despawns.foldl despawn (moveRows b.rows d.moved d.abs d.lanes)
      (.applied d.moved.length d.spawns.length d.despawns.length,
        { b with rows, stepIndex := d.stepIndex.toNat, simTimeNs := d.simTimeNs })

end PoseBuffer

/-! ## The table of slots -/

/-- A slot that waits for a keyframe to be free. -/
structure PendingRelease where
  slot : ℕ
  releaseAfterGop : ℤ
  deriving DecidableEq, Repr

/-- The table of slots. -/
structure SlotTable where
  actorIdBySlot : List UInt32
  slotByActor : OrdMap UInt32 ℕ
  free : List ℕ
  pending : List PendingRelease
  highWater : ℕ
  gopIndex : ℤ
  slotBound : ℕ

namespace SlotTable

/-- An empty table. -/
def new (capacity : ℕ) : SlotTable where
  actorIdBySlot := List.replicate (max 1 capacity) u32None
  slotByActor := ∅
  free := []
  pending := []
  highWater := 0
  gopIndex := -1
  slotBound := maxActorSlots

/-- The slots that there is room for. -/
def capacity (t : SlotTable) : ℕ := t.actorIdBySlot.length

/-- The bound on the slots that a spawn may name. -/
def slotLimit (t : SlotTable) : ℕ := max t.slotBound t.capacity

/-- Sets the bound on slots. -/
def setSlotBound (t : SlotTable) (actorCapacity : ℕ) : SlotTable :=
  if actorCapacity = 0 then t else { t with slotBound := min maxActorSlots actorCapacity }

/-- Grows the table. -/
def ensureCapacity (t : SlotTable) (capacity : ℕ) : SlotTable :=
  { t with actorIdBySlot := grow u32None t.actorIdBySlot capacity }

/-- The actor in a slot. -/
def actorIdOf (t : SlotTable) (slot : ℕ) : UInt32 := t.actorIdBySlot.getD slot u32None

/-- Whether there is an actor in a slot. -/
def isOccupied (t : SlotTable) (slot : ℕ) : Bool := t.actorIdOf slot != u32None

/-- Marks a slot as despawned. One that there is no room for only waits. -/
def release (t : SlotTable) (slot : ℕ) : SlotTable :=
  let pending := t.pending ++ [⟨slot, t.gopIndex + 1⟩]
  match t.actorIdBySlot[slot]? with
  | none => { t with pending }
  | some actorId =>
    if actorId = u32None then t
    else
      { t with
        slotByActor := t.slotByActor.erase actorId
        actorIdBySlot := t.actorIdBySlot.set slot u32None
        pending }

/-- Rebuilds the table from the actors of a keyframe. -/
def adoptKeyframe (t : SlotTable) (actorIds : List UInt32) (gopIndex : ℤ) : SlotTable :=
  let t' := t.ensureCapacity (max actorIds.length 1)
  { t' with
    actorIdBySlot := actorIds ++ List.replicate (t'.capacity - actorIds.length) u32None
    slotByActor := (actorIds.zipIdx.filter fun p => p.1 != u32None).foldl
      (fun m p => m.insert p.1 p.2) ∅
    free := (actorIds.zipIdx.filter fun p => p.1 == u32None).map Prod.snd
    pending := []
    highWater := actorIds.length
    gopIndex }

/-- Records a spawn that a delta announces. -/
def adoptSpawn (t : SlotTable) (slot : ℕ) (actorId : UInt32) : Except ProtocolError SlotTable :=
  if t.slotLimit ≤ slot then
    .error ⟨.badOffset,
      s!"Delta spawns slot {slot} is at or beyond the actor-capacity bound {t.slotLimit} (§3.1.1)",
      some "SlotTable.adoptSpawn"⟩
  else
    let t' := t.ensureCapacity (slot + 1)
    .ok { t' with
      actorIdBySlot := t'.actorIdBySlot.set slot actorId
      slotByActor := t'.slotByActor.insert actorId slot
      free := t'.free.filter fun s => s != slot
      highWater := max t'.highWater (slot + 1) }

/-- Forgets everything. -/
def reset (t : SlotTable) : SlotTable :=
  { t with
    actorIdBySlot := t.actorIdBySlot.map fun _ => u32None
    slotByActor := ∅
    free := []
    pending := []
    highWater := 0
    gopIndex := -1 }

/-- The spawns of a delta, up to one that is refused. -/
def adoptSpawns (t : SlotTable) : List SpawnRow → Option ProtocolError × SlotTable
  | [] => (none, t)
  | sp :: spawns =>
    match t.adoptSpawn sp.slot.toNat sp.actorId with
    | .error e => (some e, t)
    | .ok t => t.adoptSpawns spawns

end SlotTable

/-! ## The router -/

/-- What a `Hello` says about the stream. -/
structure HelloMessage where
  resumed : Bool
  strings : List String
  actorCapacity : UInt32
  deriving DecidableEq, Repr

/-- A decoded message. Those that only reach listeners are `other`, and the strings that a
`Provenance` or an `Error` appends are `strings`. -/
inductive Message
  | hello (h : HelloMessage)
  | keyframe (kf : KeyframeBody)
  | delta (d : DeltaBody)
  | strings (stringExtension : List String)
  | bye (runComplete : Bool) (stringExtension : List String)
  | other

/-- What the client keeps of the stream. -/
structure Mirrors where
  strings : List String
  poses : PoseBuffer
  slots : SlotTable

namespace Mirrors

/-- The mirrors of a new client. -/
def new (poseCapacity : ℕ) : Mirrors := ⟨[""], .new poseCapacity, .new 1024⟩

/-- Whether a resumed `Hello` redefines a string. -/
def redefines (held strings : List String) (id : ℕ) : Bool :=
  decide (1 ≤ id) && held.getD id "" != strings.getD id ""

/-- The table after a resumed `Hello`, whose strings must agree with those held. -/
def mergeResumedStrings (held strings : List String) : Except ProtocolError (List String) :=
  match (List.range (min held.length strings.length)).find? (redefines held strings) with
  | some id =>
    let expected := held.getD id ""
    let actual := strings.getD id ""
    .error ⟨.badState,
      s!"resumed Hello redefines string id {id} from \"{expected}\" to \"{actual}\"; §2.5 says ids are never reassigned within a connection",
      some "Hello.strings"⟩
  | none => .ok (held ++ strings.drop held.length)

/-- The room and the bound on slots that a `Hello` asks for. -/
def reserve (x : Mirrors) (actorCapacity : ℕ) : Mirrors :=
  let capacity := min actorCapacity maxActorSlots
  { x with
    poses := (x.poses.ensureCapacity capacity).setSlotBound capacity
    slots := (x.slots.ensureCapacity capacity).setSlotBound capacity }

/-- The mirrors after a `Hello`: dropped, or kept with its strings if the stream is resumed. -/
def greet (trackPoses : Bool) (x : Mirrors) (h : HelloMessage) : Option ProtocolError × Mirrors :=
  let kept : Except ProtocolError Mirrors :=
    if !h.resumed then .ok ⟨"" :: h.strings.tail, x.poses.reset, x.slots.reset⟩
    else (mergeResumedStrings x.strings h.strings).map fun strings => { x with strings }
  match kept with
  | .error e => (some e, x)
  | .ok x =>
    if trackPoses && decide (0 < h.actorCapacity) then (none, x.reserve h.actorCapacity.toNat)
    else (none, x)

/-- The mirrors after a delta: the spawns and despawns go to the table of slots whether the buffer
of poses applied the delta or not. -/
def follow (x : Mirrors) (d : DeltaBody) : Option ProtocolError × Mirrors :=
  match x.poses.applyDelta d with
  | .error e => (some e, x)
  | .ok (_, poses) =>
    match x.slots.adoptSpawns d.spawns with
    | (some e, slots) => (some e, { x with poses, slots })
    | (none, slots) =>
      (none, { x with
        poses
        slots := d.despawns.foldl (fun t dp => t.release dp.slot.toNat) slots })

/-- Routes a message: what the mirrors are after it, and the protocol error it raises if it does. -/
def route (trackPoses : Bool) (x : Mirrors) : Message → Option ProtocolError × Mirrors
  | .hello h => x.greet trackPoses h
  | .keyframe kf =>
    if trackPoses then
      (none, { x with
        poses := x.poses.applyKeyframe kf
        slots := x.slots.adoptKeyframe (kf.actors.map ActorRow.actorId) kf.gopIndex.toNat })
    else (none, x)
  | .delta d => if trackPoses then x.follow d else (none, x)
  | .strings extension => (none, { x with strings := x.strings ++ extension })
  | .bye _ extension => (none, { x with strings := x.strings ++ extension })
  | .other => (none, x)

end Mirrors

end V2xw.Client
