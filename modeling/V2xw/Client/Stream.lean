import V2xw.Client.Mirrors
import V2xw.Lib.Mealy

/-!
# The stream a client receives

A server encodes its steps, greets its client anew, and rebuilds its encoder on a seek. Its frames
are numbered apart from what is in them: each comes with the serial number of its group of pictures
and with that group up to it. A client receives some of the frames.

## Main definitions

* `Client.Roster` — the actor in each slot.
* `Client.Server.step` — the frames of a server.
* `Client.Viewer.step` — a client that tracks the poses, and the frame it applied last.
-/

namespace V2xw.Client

open Record

/-! ## Rosters -/

/-- The actor in each slot, all ones for none. -/
abbrev Roster := ℕ → UInt32

namespace Roster

/-- No actors. -/
def empty : Roster := fun _ => u32None

/-- The actors of a keyframe. -/
def ofKeyframe (kf : KeyframeBody) : Roster := fun s =>
  (kf.actors[s]?.map ActorRow.actorId).getD u32None

/-- An actor that appears. -/
def spawn (R : Roster) (sp : SpawnRow) : Roster := Function.update R sp.slot.toNat sp.actorId

/-- An actor that leaves. -/
def despawn (R : Roster) (dp : DespawnRow) : Roster := Function.update R dp.slot.toNat u32None

/-- The actors after a delta. -/
def apply (R : Roster) (d : DeltaBody) : Roster := d.despawns.foldl despawn (d.spawns.foldl spawn R)

end Roster

/-- A keyframe and the deltas after it. -/
structure Gop where
  keyframe : KeyframeBody
  deltas : List DeltaBody

/-- The actors that a keyframe and the deltas after it describe. -/
def Gop.roster (g : Gop) : Roster := g.deltas.foldl Roster.apply (.ofKeyframe g.keyframe)

/-! ## The server -/

/-- What is sent: a greeting, or the last frame of a group of pictures so far. -/
inductive Sent
  | hello (h : HelloMessage)
  | frame (serial : ℕ) (gop : Gop)

/-- The message that is sent. -/
def Sent.message : Sent → Message
  | .hello h => .hello h
  | .frame _ g =>
    match g.deltas.getLast? with
    | none => .keyframe g.keyframe
    | some d => .delta d

/-- A server. -/
structure Server where
  encoder : SnapshotEncoder
  serial : ℕ
  gop : Option Gop

/-- What a server does. -/
inductive ServerOp
  /-- It greets its client, on a new connection or on a resumed one. -/
  | hello (h : HelloMessage)
  /-- It encodes a mobility step. -/
  | encode (snap : Snapshot)
  /-- The next frame is to be a keyframe. -/
  | requestKeyframe
  /-- It starts over with a new encoder. -/
  | renew (origin : Axes F64) (cadence : Cadence) (profile : Profile) (firstSeq : UInt64)

/-- No actor of a step has the id that stands for an empty slot. -/
def ServerOp.Named : ServerOp → Prop
  | .encode snap => ∀ a ∈ snap.actors, a.actor ≠ u32None
  | _ => True

namespace Server

/-- A server with a new encoder. -/
def new (origin : Axes F64) (cadence : Cadence) (profile : Profile) (firstSeq : UInt64) : Server :=
  ⟨.new origin cadence profile firstSeq, 0, none⟩

/-- The frame of a step whose rows are given. One that its body does not fit counts as sent and
lost. -/
def draft (s : Server) (snap : Snapshot) (rows : OrdMap UInt32 Target) : Option Sent × Server :=
  let encoder := (s.encoder.encode snap).2
  if s.encoder.wantKeyframe snap.simTime then
    let g : Gop := ⟨(s.encoder.keyframeBody (s.encoder.blankInput snap) rows).1, []⟩
    (some (.frame (s.serial + 1) g), ⟨encoder, s.serial + 1, some g⟩)
  else
    match s.gop with
    -- An encoder starts with a keyframe.
    | none => (none, { s with encoder })
    | some g =>
      let g' : Gop :=
        { g with deltas := g.deltas ++ [(s.encoder.deltaBody (s.encoder.blankInput snap) rows).1] }
      (some (.frame s.serial g'), ⟨encoder, s.serial, some g'⟩)

/-- What a server sends. -/
def step (s : Server) : ServerOp → Option Sent × Server
  | .hello h => (some (.hello h), s)
  | .encode snap =>
    match s.encoder.checkTime snap.simTime, s.encoder.rowsOf (s.encoder.blankInput snap) with
    | .ok (), .ok rows => s.draft snap rows
    | _, _ => (none, s)
  | .requestKeyframe => (none, { s with encoder := s.encoder.requestKeyframe })
  | .renew origin cadence profile firstSeq =>
    (none, { s with encoder := .new origin cadence profile firstSeq, gop := none })

/-- What a server sends in a run. -/
def produced (s : Server) (ops : List ServerOp) : List Sent :=
  (Mealy.outputs step s ops).filterMap id

end Server

/-! ## The client -/

/-- A client that tracks the poses, and what it applied last since its stream state was dropped: a
keyframe or a delta, as its group of pictures up to there. -/
structure Viewer where
  mirrors : Mirrors
  applied : Option (ℕ × Gop)

namespace Viewer

/-- A new client. -/
def new (poseCapacity : ℕ) : Viewer := ⟨.new poseCapacity, none⟩

/-- The actors that the applied frames describe. -/
def roster (v : Viewer) : Roster :=
  match v.applied with
  | none => .empty
  | some (_, g) => g.roster

/-- Whether the buffer of poses applies a delta. -/
def applies (v : Viewer) (d : DeltaBody) : Bool :=
  (v.mirrors.poses.refusal d).isNone && (v.mirrors.poses.validate d).isOk

/-- What is applied last, after a message. -/
def noted (v : Viewer) : Sent → Option (ℕ × Gop)
  | .hello h => if h.resumed then v.applied else none
  | .frame serial g =>
    match g.deltas.getLast? with
    | none => some (serial, g)
    | some d => if v.applies d then some (serial, g) else v.applied

/-- One message. -/
def step (v : Viewer) (f : Sent) : Option ProtocolError × Viewer :=
  ((v.mirrors.route true f.message).1, ⟨(v.mirrors.route true f.message).2, v.noted f⟩)

/-- The client after some messages. -/
def run (v : Viewer) (delivered : List Sent) : Viewer := Mealy.run step v delivered

end Viewer

/-! ## Agreement -/

/-- The two mirrors have the same actor in every slot. -/
structure Mirrors.Agree (x : Mirrors) : Prop where
  within : ∀ s r, x.poses.rows[s]? = some r →
    x.slots.actorIdOf s = r.actorId ∧ x.slots.isOccupied s = r.occupied
  beyond : ∀ s, x.poses.capacity ≤ s → x.slots.actorIdOf s = u32None

/-- A message left the mirrors as they should be: they agree, and both describe the keyframe and the
deltas that the buffer of poses applied; a delta that it refused changed neither. -/
structure Viewer.Keeps (v : Viewer) (f : Sent) (v' : Viewer) : Prop where
  agree : v'.mirrors.Agree
  describes : ∀ s, v'.mirrors.slots.actorIdOf s = v'.roster s
  refused : ∀ d, f.message = .delta d → v.mirrors.poses.refusal d ≠ none →
    v'.mirrors.poses = v.mirrors.poses ∧
      ∀ s, v'.mirrors.slots.actorIdOf s = v.mirrors.slots.actorIdOf s

/-- A delta that is refused says nothing that the table of slots does not have already, and one that
is applied is of the group of pictures that the client holds. -/
def Viewer.Heeds (v : Viewer) : Sent → Prop
  | .hello _ => True
  | .frame serial g => ∀ d ∈ g.deltas.getLast?,
    match v.mirrors.poses.refusal d with
    | some _ =>
      (∀ sp ∈ d.spawns, v.mirrors.slots.actorIdOf sp.slot.toNat = sp.actorId) ∧
        ∀ dp ∈ d.despawns, v.mirrors.slots.actorIdOf dp.slot.toNat = u32None
    | none => v.mirrors.poses.validate d = .ok () →
      v.applied.map Prod.fst = some serial ∧ g.deltas.length < 2 ^ 32 ∧
        ∀ sp ∈ d.spawns, sp.slot.toNat < v.mirrors.slots.slotLimit

instance (v : Viewer) (f : Sent) : Decidable (v.Heeds f) :=
  match f with
  | .hello _ => isTrue trivial
  | .frame serial g =>
    match hlast : g.deltas.getLast? with
    | none => isTrue fun d hd => nomatch hlast.symm.trans hd
    | some d =>
      have hiff {p : Prop} (h : (match v.mirrors.poses.refusal d with
          | some _ =>
            (∀ sp ∈ d.spawns, v.mirrors.slots.actorIdOf sp.slot.toNat = sp.actorId) ∧
              ∀ dp ∈ d.despawns, v.mirrors.slots.actorIdOf dp.slot.toNat = u32None
          | none => v.mirrors.poses.validate d = .ok () →
            v.applied.map Prod.fst = some serial ∧ g.deltas.length < 2 ^ 32 ∧
              ∀ sp ∈ d.spawns, sp.slot.toNat < v.mirrors.slots.slotLimit) ↔ p) :
          p ↔ v.Heeds (.frame serial g) :=
        ⟨fun hp d' hd' => Option.some.inj (hlast.symm.trans hd') ▸ h.2 hp,
          fun hheeds => h.1 (hheeds d hlast)⟩
      match href : v.mirrors.poses.refusal d with
      | some _ => decidable_of_iff _ (hiff (by rw [href]))
      | none => decidable_of_iff _ (hiff (by rw [href]))

end V2xw.Client
