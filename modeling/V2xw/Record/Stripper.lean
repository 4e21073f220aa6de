import Mathlib.Data.Finset.Sort
import Mathlib.Data.List.DropRight
import V2xw.Record.Encoder

/-!
# The blind stream

The rewriting of a full stream into a stream without ground truth, in
`crates/v2xw-record/src/profile.rs`: fields are blanked, rows of actors without a device go, and so
do moved rows that say nothing once their ground truth is gone.

## Main definitions

* `blankKeyframe`, `blankDelta` — bodies without their ground truth.
* `NodeProfileStripper` — what the rewriting remembers.
* `NodeProfileStripper.stripKeyframe`, `NodeProfileStripper.stripDelta` —
  one body.
-/

namespace V2xw.Record

/-! ## Keyframes -/

/-- A keyframe row without its ground truth; the slot of an actor without a device is empty. -/
def ActorRow.blank (r : ActorRow) : ActorRow :=
  if r.isOccupied then
    if r.state &&& stEquipped = 0 then ActorRow.empty
    else { r with laneId := u32None, accelCq := 0, state := r.state &&& ~~~stAttacker }
  else r

/-- The slots of the rows that pass. -/
def slotsOf (p : ActorRow → Bool) (rows : List ActorRow) : List UInt32 :=
  (rows.zipIdx.filter fun r => p r.1).map fun r => UInt32.ofNat r.2

/-- A keyframe without its ground truth, and the slots that stay occupied. Empty rows at the end
go, since a blind producer would not have written them. -/
def blankKeyframe (kf : KeyframeBody) : KeyframeBody × Finset UInt32 :=
  ({ kf with
     profile := profileNode
     actors := (kf.actors.map ActorRow.blank).rdropWhile fun r => !r.isOccupied },
   (slotsOf (fun r => r.isOccupied && r.state &&& stEquipped != 0) kf.actors).toFinset)

/-! ## Deltas -/

/-- The moved rows of the occupied slots without their ground truth, and the absolute entries that
belong to them. -/
def blankMoved (occupied : Finset UInt32) :
    List MovedRow → List AbsRow → List MovedRow × List AbsRow
  | [], _ => ([], [])
  | row :: moved, abs =>
    let announced := row.mflags &&& mflagAbsolute != 0
    let (entry, abs) := if announced then (abs.head?, abs.tail) else (none, abs)
    let (rows, entries) := blankMoved occupied moved abs
    if row.slot ∈ occupied then
      ({ row with
         accelCq := 0
         state := row.state &&& ~~~stAttacker
         mflags := row.mflags &&& ~~~mflagLaneChanged } :: rows, entry.toList ++ entries)
    else (rows, entries)

/-- A spawn row without its ground truth. -/
def SpawnRow.blank (s : SpawnRow) : SpawnRow :=
  { s with laneId := u32None, cause := u16None, state := s.state &&& ~~~stAttacker }

/-- The despawn rows of occupied slots without their causes, and the slots still occupied. -/
def blankDespawns : List DespawnRow → Finset UInt32 → List DespawnRow × Finset UInt32
  | [], occupied => ([], occupied)
  | x :: despawns, occupied =>
    if x.slot ∈ occupied then
      let (rows, rest) := blankDespawns despawns (occupied.erase x.slot)
      ({ x with cause := u16None } :: rows, rest)
    else blankDespawns despawns occupied

/-- A delta without its ground truth, against the slots occupied before it, and those after it. -/
def blankDelta (d : DeltaBody) (occupied : Finset UInt32) : DeltaBody × Finset UInt32 :=
  let (moved, abs) := blankMoved occupied d.moved d.abs
  let spawns := d.spawns.filter fun s => s.state &&& stEquipped != 0
  let (despawns, after) :=
    blankDespawns d.despawns (occupied ∪ (spawns.map SpawnRow.slot).toFinset)
  ({ d with moved, abs, lanes := [], spawns := spawns.map SpawnRow.blank, despawns }, after)

/-! ## The rewriting -/

/-- What the rewriting of a stream remembers. -/
structure NodeProfileStripper where
  /-- The slots occupied in the blind stream. -/
  occupied : Finset UInt32
  /-- The state and the neighbours last transmitted in the blind stream. -/
  refs : OrdMap UInt32 (UInt8 × UInt8)
  /-- The number of the next canonical frame of the blind stream. -/
  nextSeq : UInt64

namespace NodeProfileStripper

/-- Nothing was rewritten yet. -/
def new : NodeProfileStripper := ⟨∅, ∅, 0⟩

/-- A moved row that a blind producer would not have written: nothing in it changed. -/
def saysNothing (refs : OrdMap UInt32 (UInt8 × UInt8)) (row : MovedRow) : Bool :=
  row.mflags == 0 && (row.dxMm, row.dyMm, row.dzMm) == (0, 0, 0) &&
    refs[row.slot]? == some (row.state, row.verifiedNeighbors)

/-- The moved rows a blind producer would have written, with their absolute entries. -/
def dropMoved (refs : OrdMap UInt32 (UInt8 × UInt8)) :
    List MovedRow → List AbsRow → List MovedRow × List AbsRow × OrdMap UInt32 (UInt8 × UInt8)
  | [], _ => ([], [], refs)
  | row :: moved, abs =>
    let announced := row.mflags &&& mflagAbsolute != 0
    let (entry, abs) := if announced then (abs.head?, abs.tail) else (none, abs)
    if saysNothing refs row then dropMoved refs moved abs
    else
      let (rows, entries, refs) :=
        dropMoved (refs.insert row.slot (row.state, row.verifiedNeighbors)) moved abs
      (row :: rows, entry.toList ++ entries, refs)

/-- The rows a blind producer would have written. -/
def dropRows (refs : OrdMap UInt32 (UInt8 × UInt8)) (d : DeltaBody) :
    DeltaBody × OrdMap UInt32 (UInt8 × UInt8) :=
  let (moved, abs, refs) := dropMoved refs d.moved d.abs
  let refs := d.spawns.foldl (fun refs s => refs.insert s.slot (s.state, s.verifiedNeighbors)) refs
  ({ d with moved, abs }, d.despawns.foldl (fun refs x => refs.erase x.slot) refs)

/-- A keyframe of the blind stream. It transmits every row, so the references start over. -/
def stripKeyframe (t : NodeProfileStripper) (kf : KeyframeBody) :
    KeyframeBody × NodeProfileStripper :=
  let (b, occupied) := blankKeyframe kf
  (b, { t with
    occupied
    refs := b.actors.zipIdx.foldl (fun refs r =>
      if r.1.isOccupied then refs.insert (UInt32.ofNat r.2) (r.1.state, r.1.verifiedNeighbors)
      else refs) ∅ })

/-- A delta of the blind stream. -/
def stripDelta (t : NodeProfileStripper) (d : DeltaBody) : DeltaBody × NodeProfileStripper :=
  let (b, occupied) := blankDelta d t.occupied
  let (b, refs) := dropRows t.refs b
  (b, { t with occupied, refs })

end NodeProfileStripper

end V2xw.Record
