import V2xw.Client.Produced

/-!
# The mirrors of a client agree

A client receives some frames of a server, and its two mirrors have the same actor in every slot
after each of them: the actors that the keyframe describes with the deltas applied after it. That is
so as long as no delta that the buffer of poses refuses carries news: the router hands the spawns
and despawns of a refused delta to the table of slots all the same. And a delta must not pass for
one of another group of pictures, as it does when the encoder is made anew and counts its groups
from zero.

## Main definitions

* `Client.PoseBuffer.Mirrors`, `Client.SlotTable.Mirrors` — a mirror has the actors of a roster.

## Main results

* `Client.Viewer.InStep.step` — what a message preserves.
* `Client.mirrors_agree` — agreement in every run.
* `Client.slots_follow_refused_delta` — how it is lost.
-/

namespace V2xw.Client

open Record

/-! ## The buffer of poses -/

/-- A row has an actor, or none if the id is all ones. -/
def PoseRow.Has (r : PoseRow) (actorId : UInt32) : Prop :=
  r.actorId = actorId ∧ r.occupied = (actorId != u32None)

lemma PoseRow.Has.move {r : PoseRow} {actorId : UInt32} (h : r.Has actorId)
    (hid : actorId ≠ u32None) (m : MovedRow) (abs : Option AbsRow) (lane : Option UInt32) :
    (r.move m abs lane).Has actorId := by
  have hmoved : (r.move m abs lane).actorId = r.actorId := by
    cases abs <;> rfl
  exact ⟨hmoved.trans h.1, (bne_iff_ne.2 hid).symm⟩

/-- The rows have the actors of a roster. -/
def Shows (rows : List PoseRow) (R : Roster) : Prop :=
  ∀ s, (rows.getD s PoseRow.empty).Has (R s)

namespace PoseBuffer

/-- The buffer has the actors of a roster, and none at its count or beyond. -/
structure Mirrors (b : PoseBuffer) (R : Roster) : Prop where
  room : 0 < b.rows.length
  shows : Shows b.rows R
  count : ∀ s, b.count ≤ s → R s = u32None

variable {b : PoseBuffer} {R : Roster}

lemma mirrors_new (capacity : ℕ) : (new capacity).Mirrors .empty where
  room := by
    show 0 < (List.replicate _ _).length
    rw [List.length_replicate]
    omega
  shows s := by
    have hempty : (new capacity).rows.getD s PoseRow.empty = PoseRow.empty := by
      unfold new
      rw [List.getD_eq_getElem?_getD, List.getElem?_replicate]
      split_ifs <;> rfl
    rw [hempty]
    exact ⟨rfl, rfl⟩
  count _ _ := rfl

lemma Mirrors.ensureCapacity (h : b.Mirrors R) (capacity : ℕ) :
    (b.ensureCapacity capacity).Mirrors R where
  room := h.room.trans_le length_le_grow
  shows s := by
    show PoseRow.Has (List.getD (grow _ _ _) s _) _
    rw [getD_grow]
    exact h.shows s
  count := h.count

lemma Mirrors.setSlotBound (h : b.Mirrors R) (actorCapacity : ℕ) :
    (b.setSlotBound actorCapacity).Mirrors R := by
  unfold PoseBuffer.setSlotBound
  split_ifs
  · exact h
  · exact ⟨h.room, h.shows, h.count⟩

lemma Mirrors.reset (h : b.Mirrors R) : b.reset.Mirrors .empty where
  room := by
    show 0 < (List.map _ _).length
    rw [List.length_map]
    exact h.room
  shows s := by
    show PoseRow.Has (List.getD (List.map _ _) s _) _
    rw [List.getD_eq_getElem?_getD, List.getElem?_map]
    cases b.rows[s]? <;> exact ⟨rfl, rfl⟩
  count _ _ := rfl

/-- A keyframe describes all that the buffer has after it. -/
lemma Mirrors.applyKeyframe (h : b.Mirrors R) (kf : KeyframeBody) :
    (b.applyKeyframe kf).Mirrors (.ofKeyframe kf) where
  room := by
    have hroom := (h.ensureCapacity (max kf.actors.length 1)).room
    show 0 < List.length (_ ++ _)
    rw [List.length_append, List.length_map, List.length_mapIdx, List.length_drop]
    omega
  shows s := by
    show PoseRow.Has (List.getD (_ ++ _) s _) _
    rw [List.getD_eq_getElem?_getD]
    by_cases hs : s < kf.actors.length
    · rw [List.getElem?_append_left (by rwa [List.length_map]), List.getElem?_map, Roster.ofKeyframe,
        List.getElem?_eq_getElem hs]
      exact ⟨rfl, rfl⟩
    · have hs : kf.actors.length ≤ s := Nat.le_of_not_lt hs
      have hold := (h.ensureCapacity (max kf.actors.length 1)).shows s
      have hcount := h.count s
      rw [List.getElem?_append_right (by rwa [List.length_map]), List.length_map, Roster.ofKeyframe,
        List.getElem?_eq_none hs, List.getElem?_mapIdx, List.getElem?_drop, Nat.add_sub_cancel' hs]
      rw [List.getD_eq_getElem?_getD] at hold
      cases hrow : (b.ensureCapacity (max kf.actors.length 1)).rows[s]? with
      | none => exact ⟨rfl, rfl⟩
      | some r =>
        rw [hrow] at hold
        show PoseRow.Has (if s < b.count then _ else r) u32None
        split_ifs with hlt
        · exact ⟨rfl, rfl⟩
        · rw [hcount (Nat.le_of_not_lt hlt)] at hold
          exact hold
  count s hs := by
    rw [Roster.ofKeyframe, List.getElem?_eq_none hs]
    rfl

lemma Mirrors.spawn (h : b.Mirrors R) {sp : SpawnRow} (hid : sp.actorId ≠ u32None) :
    (b.spawn sp).Mirrors (R.spawn sp) where
  room := by
    show 0 < (List.set _ _ _).length
    rw [List.length_set]
    exact (h.ensureCapacity _).room
  shows s := by
    have hlt : sp.slot.toNat < (b.ensureCapacity (sp.slot.toNat + 1)).rows.length :=
      le_length_grow h.room
    show PoseRow.Has (List.getD (List.set _ _ _) s _) _
    rw [getD_set hlt, Roster.spawn]
    by_cases hs : s = sp.slot.toNat
    · subst hs
      rw [if_pos rfl, Function.update_self]
      exact ⟨rfl, (bne_iff_ne.2 hid).symm⟩
    · rw [if_neg hs, Function.update_of_ne hs]
      exact (h.ensureCapacity _).shows s
  count s hs := by
    have hs : max b.count (sp.slot.toNat + 1) ≤ s := hs
    rw [Roster.spawn, Function.update_of_ne (by omega)]
    exact h.count s (by omega)

lemma Mirrors.foldl_spawn {sps : List SpawnRow} : ∀ {b : PoseBuffer} {R : Roster}, b.Mirrors R →
    (∀ sp ∈ sps, sp.actorId ≠ u32None) →
      (sps.foldl PoseBuffer.spawn b).Mirrors (sps.foldl Roster.spawn R) := by
  induction sps with
  | nil => exact fun h _ => h
  | cons sp sps ih =>
    intro b R h hids
    obtain ⟨hid, hids⟩ := List.forall_mem_cons.1 hids
    exact ih (h.spawn hid) hids

/-- Moved rows of slots that have actors leave the actors as they are. -/
lemma shows_moveRows {moved : List MovedRow} : ∀ {rows : List PoseRow} {abs : List AbsRow}
    {lanes : List UInt32}, Shows rows R → (∀ m ∈ moved, R m.slot.toNat ≠ u32None) →
      Shows (moveRows rows moved abs lanes) R := by
  induction moved with
  | nil => exact fun h _ => h
  | cons m moved ih =>
    intro rows abs lanes h hmoved
    obtain ⟨hm, hmoved⟩ := List.forall_mem_cons.1 hmoved
    refine ih (fun s => ?_) hmoved
    rw [getD_modify]
    split_ifs with hs
    · rw [hs.1]
      exact (h _).move hm _ _ _
    · exact h s

lemma length_moveRows (moved : List MovedRow) : ∀ (rows : List PoseRow) (abs : List AbsRow)
    (lanes : List UInt32), (moveRows rows moved abs lanes).length = rows.length := by
  induction moved with
  | nil => exact fun _ _ _ => rfl
  | cons m moved ih =>
    intro rows abs lanes
    rw [moveRows, ih, List.length_modify]

lemma shows_foldl_despawn {dps : List DespawnRow} : ∀ {rows : List PoseRow} {R : Roster},
    Shows rows R → Shows (dps.foldl despawn rows) (dps.foldl Roster.despawn R) := by
  induction dps with
  | nil => exact fun h => h
  | cons dp dps ih =>
    intro rows R h
    refine ih fun s => ?_
    rw [despawn, getD_modify, Roster.despawn]
    by_cases hs : s = dp.slot.toNat
    · subst hs
      rw [Function.update_self]
      split_ifs with hlt
      · exact ⟨rfl, rfl⟩
      · have hnone : rows[dp.slot.toNat]? = none :=
          List.getElem?_eq_none (Nat.le_of_not_lt fun h => hlt ⟨rfl, h⟩)
        rw [List.getD_eq_getElem?_getD, hnone]
        exact ⟨rfl, rfl⟩
    · rw [if_neg fun h => hs h.1, Function.update_of_ne hs]
      exact h s

lemma length_foldl_despawn (dps : List DespawnRow) : ∀ rows : List PoseRow,
    (dps.foldl despawn rows).length = rows.length := by
  induction dps with
  | nil => exact fun _ => rfl
  | cons dp dps ih =>
    intro rows
    rw [List.foldl_cons, ih, despawn, List.length_modify]

lemma applyDelta_applied {d : DeltaBody} (href : b.refusal d = none)
    (hvalid : b.validate d = .ok ()) :
    b.applyDelta d = .ok (.applied d.moved.length d.spawns.length d.despawns.length,
      { d.spawns.foldl spawn b with
        rows := d.despawns.foldl despawn
          (moveRows (d.spawns.foldl spawn b).rows d.moved d.abs d.lanes)
        stepIndex := d.stepIndex.toNat
        simTimeNs := d.simTimeNs }) := by
  unfold applyDelta
  rw [href, hvalid]
  rfl

/-- A delta that is applied to the actors it continues. -/
lemma Mirrors.applyDelta (h : b.Mirrors R) {d : DeltaBody}
    (hids : ∀ sp ∈ d.spawns, sp.actorId ≠ u32None)
    (hmoved : ∀ m ∈ d.moved, R m.slot.toNat ≠ u32None) :
    Mirrors { d.spawns.foldl PoseBuffer.spawn b with
        rows := d.despawns.foldl PoseBuffer.despawn
          (moveRows (d.spawns.foldl PoseBuffer.spawn b).rows d.moved d.abs d.lanes)
        stepIndex := d.stepIndex.toNat
        simTimeNs := d.simTimeNs } (R.apply d) := by
  have hspawned := h.foldl_spawn hids
  refine ⟨?_, ?_, ?_⟩
  · show 0 < List.length (List.foldl _ _ _)
    rw [length_foldl_despawn, length_moveRows]
    exact hspawned.room
  · refine shows_foldl_despawn (shows_moveRows hspawned.shows fun m hm => ?_)
    exact Roster.foldl_spawn_ne hids (.inl (hmoved m hm))
  · intro s hs
    rw [Roster.apply, Roster.foldl_despawn, hspawned.count s hs, ite_self]

end PoseBuffer

/-! ## The table of slots -/

namespace SlotTable

/-- The table has the actors of a roster. -/
structure Mirrors (t : SlotTable) (R : Roster) : Prop where
  room : 0 < t.actorIdBySlot.length
  actorIdOf : t.actorIdOf = R

variable {t : SlotTable} {R : Roster}

lemma mirrors_new (capacity : ℕ) : (new capacity).Mirrors .empty where
  room := by
    show 0 < List.length (List.replicate _ _)
    rw [List.length_replicate]
    omega
  actorIdOf := by
    funext s
    show List.getD (List.replicate _ _) s _ = _
    rw [List.getD_eq_getElem?_getD, List.getElem?_replicate]
    split_ifs <;> rfl

lemma Mirrors.ensureCapacity (h : t.Mirrors R) (capacity : ℕ) :
    (t.ensureCapacity capacity).Mirrors R where
  room := h.room.trans_le length_le_grow
  actorIdOf := by
    rw [← h.actorIdOf]
    exact funext fun s => getD_grow

lemma Mirrors.setSlotBound (h : t.Mirrors R) (actorCapacity : ℕ) :
    (t.setSlotBound actorCapacity).Mirrors R := by
  unfold SlotTable.setSlotBound
  split_ifs
  · exact h
  · exact ⟨h.room, h.actorIdOf⟩

lemma Mirrors.reset (h : t.Mirrors R) : t.reset.Mirrors .empty where
  room := by
    show 0 < List.length (List.map _ _)
    rw [List.length_map]
    exact h.room
  actorIdOf := by
    funext s
    show List.getD (List.map _ _) s _ = _
    rw [List.getD_eq_getElem?_getD, List.getElem?_map]
    cases t.actorIdBySlot[s]? <;> rfl

lemma Mirrors.adoptKeyframe (h : t.Mirrors R) (kf : KeyframeBody) (gopIndex : ℤ) :
    (t.adoptKeyframe (kf.actors.map ActorRow.actorId) gopIndex).Mirrors (.ofKeyframe kf) where
  room := by
    have hroom : max (kf.actors.map ActorRow.actorId).length 1 ≤
        (t.ensureCapacity (max (kf.actors.map ActorRow.actorId).length 1)).capacity :=
      le_length_grow h.room
    show 0 < List.length (_ ++ _)
    rw [List.length_append, List.length_replicate]
    omega
  actorIdOf := by
    funext s
    show List.getD (_ ++ _) s _ = _
    rw [List.getD_eq_getElem?_getD, Roster.ofKeyframe]
    by_cases hs : s < kf.actors.length
    · rw [List.getElem?_append_left (by rwa [List.length_map]), List.getElem?_map]
    · have hs : kf.actors.length ≤ s := Nat.le_of_not_lt hs
      rw [List.getElem?_append_right (by rwa [List.length_map]), List.getElem?_replicate,
        List.getElem?_eq_none hs]
      split_ifs <;> rfl

/-- A spawn that is adopted is the actor of its slot. -/
lemma Mirrors.adoptSpawn (h : t.Mirrors R) {slot : ℕ} {actorId : UInt32} {t' : SlotTable}
    (hadopt : t.adoptSpawn slot actorId = .ok t') :
    t'.Mirrors (Function.update R slot actorId) ∧ t.slotLimit ≤ t'.slotLimit := by
  unfold SlotTable.adoptSpawn at hadopt
  split_ifs at hadopt
  cases hadopt
  have hlt : slot < (t.ensureCapacity (slot + 1)).actorIdBySlot.length := le_length_grow h.room
  refine ⟨⟨?_, ?_⟩, ?_⟩
  · show 0 < List.length (List.set _ _ _)
    rw [List.length_set]
    exact (h.ensureCapacity _).room
  · funext s
    show List.getD (List.set _ _ _) s _ = _
    rw [getD_set hlt]
    split_ifs with hs
    · rw [hs, Function.update_self]
    · rw [Function.update_of_ne hs]
      exact congrFun (h.ensureCapacity _).actorIdOf s
  · show max _ _ ≤ max _ (List.length (List.set _ _ _))
    rw [List.length_set]
    exact max_le_max le_rfl length_le_grow

/-- Spawns below the bound are adopted. -/
lemma Mirrors.adoptSpawns {sps : List SpawnRow} : ∀ {t : SlotTable} {R : Roster}, t.Mirrors R →
    (∀ sp ∈ sps, sp.slot.toNat < t.slotLimit) →
      ∃ t', t.adoptSpawns sps = (none, t') ∧ t'.Mirrors (sps.foldl Roster.spawn R) := by
  induction sps with
  | nil => exact fun h _ => ⟨_, rfl, h⟩
  | cons sp sps ih =>
    intro t R h hbound
    obtain ⟨hlt, hbound⟩ := List.forall_mem_cons.1 hbound
    cases hadopt : t.adoptSpawn sp.slot.toNat sp.actorId with
    | error e =>
      unfold SlotTable.adoptSpawn at hadopt
      rw [if_neg (Nat.not_le_of_lt hlt)] at hadopt
      cases hadopt
    | ok t' =>
      obtain ⟨hmirrors, hle⟩ := h.adoptSpawn hadopt
      unfold SlotTable.adoptSpawns
      rw [hadopt]
      exact ih hmirrors fun sp' hsp' => (hbound sp' hsp').trans_le hle

/-- Spawns of actors that are in their slots already change no slot. -/
lemma Mirrors.adoptSpawns_known {sps : List SpawnRow} : ∀ {t : SlotTable}, t.Mirrors R →
    (∀ sp ∈ sps, R sp.slot.toNat = sp.actorId) → (t.adoptSpawns sps).2.Mirrors R := by
  induction sps with
  | nil => exact fun h _ => h
  | cons sp sps ih =>
    intro t h hknown
    obtain ⟨hsp, hknown⟩ := List.forall_mem_cons.1 hknown
    unfold SlotTable.adoptSpawns
    cases hadopt : t.adoptSpawn sp.slot.toNat sp.actorId with
    | error e => exact h
    | ok t' =>
      have hmirrors := (h.adoptSpawn hadopt).1
      rw [← hsp, Function.update_eq_self] at hmirrors
      exact ih hmirrors hknown

/-- A slot that is released has no actor. -/
lemma Mirrors.release (h : t.Mirrors R) (slot : ℕ) :
    (t.release slot).Mirrors (Function.update R slot u32None) := by
  have hat : R slot = t.actorIdBySlot.getD slot u32None := (congrFun h.actorIdOf slot).symm
  rw [List.getD_eq_getElem?_getD] at hat
  unfold SlotTable.release
  cases hslot : t.actorIdBySlot[slot]? with
  | none =>
    rw [hslot] at hat
    refine ⟨h.room, ?_⟩
    rw [show u32None = R slot from hat.symm, Function.update_eq_self]
    exact h.actorIdOf
  | some actorId =>
    rw [hslot] at hat
    dsimp only
    split_ifs with hempty
    · rw [← hempty, show actorId = R slot from hat.symm, Function.update_eq_self]
      exact h
    · have hlt := (List.getElem?_eq_some_iff.1 hslot).1
      refine ⟨?_, ?_⟩
      · show 0 < List.length (List.set _ _ _)
        rw [List.length_set]
        exact h.room
      · funext s
        show List.getD (List.set _ _ _) s _ = _
        rw [getD_set hlt]
        split_ifs with hs
        · rw [hs, Function.update_self]
        · rw [Function.update_of_ne hs]
          exact congrFun h.actorIdOf s

lemma Mirrors.foldl_release {l : List DespawnRow} : ∀ {t : SlotTable} {R : Roster},
    t.Mirrors R → (l.foldl (fun t dp => t.release dp.slot.toNat) t).Mirrors
      (l.foldl Roster.despawn R) := by
  induction l with
  | nil => exact fun h => h
  | cons dp l ih => exact fun h => ih (h.release dp.slot.toNat)

end SlotTable

lemma Roster.foldl_despawn_known {R : Roster} {dps : List DespawnRow}
    (h : ∀ dp ∈ dps, R dp.slot.toNat = u32None) : dps.foldl Roster.despawn R = R := by
  funext s
  rw [Roster.foldl_despawn]
  split_ifs with hs
  · obtain ⟨dp, hdp, rfl⟩ := List.mem_map.1 hs
    exact (h dp hdp).symm
  · rfl

/-! ## The client -/

/-- Both mirrors have the actors of a roster. -/
structure Mirrors.Both (x : Mirrors) (R : Roster) : Prop where
  poses : x.poses.Mirrors R
  slots : x.slots.Mirrors R

namespace Mirrors.Both

variable {x : Mirrors} {R : Roster}

lemma agree (h : x.Both R) : x.Agree where
  within s r hr := by
    have hshows := h.poses.shows s
    rw [List.getD_eq_getElem?_getD, hr] at hshows
    rw [SlotTable.isOccupied, h.slots.actorIdOf]
    exact ⟨hshows.1.symm, hshows.2.symm⟩
  beyond s hs := by
    have hshows := h.poses.shows s
    rw [List.getD_eq_getElem?_getD, List.getElem?_eq_none hs] at hshows
    rw [h.slots.actorIdOf]
    exact hshows.1.symm

lemma reserve (h : x.Both R) (actorCapacity : ℕ) : (x.reserve actorCapacity).Both R where
  poses := (h.poses.ensureCapacity _).setSlotBound _
  slots := (h.slots.ensureCapacity _).setSlotBound _

/-- A `Hello` drops the actors unless it resumes the stream. -/
lemma greet (h : x.Both R) (m : HelloMessage) :
    (x.greet true m).2.Both (if m.resumed then R else .empty) := by
  unfold Mirrors.greet
  cases hresumed : m.resumed with
  | false =>
    have hreset : Both ⟨"" :: m.strings.tail, x.poses.reset, x.slots.reset⟩ .empty :=
      ⟨h.poses.reset, h.slots.reset⟩
    simp only [Bool.not_false, if_true, Bool.true_and, Bool.false_eq_true, if_false]
    split_ifs
    · exact hreset.reserve _
    · exact hreset
  | true =>
    simp only [Bool.not_true, Bool.false_eq_true, if_false, Bool.true_and, if_true]
    cases Mirrors.mergeResumedStrings x.strings m.strings with
    | error e => exact h
    | ok strings =>
      have hkept : Both { x with strings } R := ⟨h.poses, h.slots⟩
      dsimp only [Except.map]
      split_ifs
      · exact hkept.reserve _
      · exact hkept

/-- A delta that the buffer of poses does not apply, and that brings no news. -/
lemma follow_refused (h : x.Both R) {d : DeltaBody} {reason : DeltaRejectReason}
    (href : x.poses.refusal d = some reason)
    (hspawns : ∀ sp ∈ d.spawns, x.slots.actorIdOf sp.slot.toNat = sp.actorId)
    (hdespawns : ∀ dp ∈ d.despawns, x.slots.actorIdOf dp.slot.toNat = u32None) :
    (x.follow d).2.Both R ∧ (x.follow d).2.poses = x.poses := by
  rw [h.slots.actorIdOf] at hspawns hdespawns
  have hadopted := h.slots.adoptSpawns_known hspawns
  have hrefused : x.poses.applyDelta d = .ok (.refused reason, x.poses) := by
    rw [PoseBuffer.applyDelta, href]
  unfold Mirrors.follow
  rw [hrefused]
  dsimp only
  cases hresult : x.slots.adoptSpawns d.spawns with
  | mk e slots =>
    rw [hresult] at hadopted
    cases e with
    | some e => exact ⟨⟨h.poses, hadopted⟩, rfl⟩
    | none =>
      have hreleased := hadopted.foldl_release (l := d.despawns)
      rw [Roster.foldl_despawn_known hdespawns] at hreleased
      exact ⟨⟨h.poses, hreleased⟩, rfl⟩

lemma follow_applied (h : x.Both R) {d : DeltaBody} (href : x.poses.refusal d = none)
    (hvalid : x.poses.validate d = .ok ()) (hids : ∀ sp ∈ d.spawns, sp.actorId ≠ u32None)
    (hmoved : ∀ m ∈ d.moved, R m.slot.toNat ≠ u32None)
    (hbound : ∀ sp ∈ d.spawns, sp.slot.toNat < x.slots.slotLimit) :
    (x.follow d).2.Both (R.apply d) ∧ (x.follow d).2.poses.stepIndex = d.stepIndex.toNat := by
  obtain ⟨slots, hadopt, hslots⟩ := h.slots.adoptSpawns hbound
  unfold Mirrors.follow
  rw [PoseBuffer.applyDelta_applied href hvalid, hadopt]
  exact ⟨⟨h.poses.applyDelta hids hmoved, hslots.foldl_release⟩, rfl⟩

end Mirrors.Both

namespace Viewer

/-- The client after some of the frames in `P`: both mirrors have the actors that the applied frames
describe. -/
structure InStep (v : Viewer) (P : List Sent) : Prop where
  both : v.mirrors.Both v.roster
  held : ∀ i g, v.applied = some (i, g) →
    .frame i g ∈ P ∧ v.mirrors.poses.stepIndex = g.deltas.length

lemma inStep_new (poseCapacity : ℕ) (P : List Sent) : (new poseCapacity).InStep P where
  both := ⟨PoseBuffer.mirrors_new poseCapacity, SlotTable.mirrors_new 1024⟩
  held := nofun

/-- A resumed `Hello` leaves the step index. -/
lemma stepIndex_greet (x : Mirrors) {m : HelloMessage} (h : m.resumed = true) :
    (x.greet true m).2.poses.stepIndex = x.poses.stepIndex := by
  have hreserve : ∀ (x : Mirrors) n, (x.reserve n).poses.stepIndex = x.poses.stepIndex := by
    intro x n
    unfold Mirrors.reserve PoseBuffer.setSlotBound
    dsimp only
    split_ifs <;> rfl
  unfold Mirrors.greet
  rw [h]
  simp only [Bool.not_true, Bool.false_eq_true, if_false]
  cases Mirrors.mergeResumedStrings x.strings m.strings with
  | error e => rfl
  | ok strings =>
    dsimp only [Except.map]
    split_ifs
    · exact hreserve _ _
    · rfl

/-- A delta that the client applies is the next one of the group of pictures it holds. -/
lemma next_of_applies {g g' : Gop} {ds : List DeltaBody} {d : DeltaBody}
    (hext : g.Extends g' ∨ g'.Extends g) (hsound : g'.Sound) (hds : g'.deltas = ds ++ [d])
    (hlength : g'.deltas.length < 2 ^ 32) (hstep : d.stepIndex.toNat = g.deltas.length + 1) :
    g' = g.push d ∧ g.Continues d := by
  have hcont := hsound ds d (hds ▸ List.prefix_rfl)
  have hlen : ds.length + 1 < 2 ^ 32 := by
    rw [hds, List.length_append, List.length_singleton] at hlength
    exact hlength
  rw [hcont.stepIndex, UInt32.toNat_ofNat_of_lt' hlen] at hstep
  have hprefix : g.keyframe = g'.keyframe ∧ g.deltas <+: ds ++ [d] := by
    obtain hle | hle := hext
    · exact ⟨hle.1, hds ▸ hle.2⟩
    · have hle' := hle.2.length_le
      rw [hds, List.length_append, List.length_singleton] at hle'
      omega
  obtain hlong | hshort := List.prefix_concat_iff.1 hprefix.2
  · rw [hlong, List.length_append, List.length_singleton] at hstep
    omega
  · have heq : g.deltas = ds := hshort.eq_of_length (by omega)
    have hg : (⟨g'.keyframe, ds⟩ : Gop) = g := by
      rw [← heq, ← hprefix.1]
    rw [hg] at hcont
    refine ⟨?_, hcont⟩
    rw [Gop.push, heq, ← hds, hprefix.1]

variable {v v' : Viewer} {P : List Sent} {f : Sent} {serial : ℕ} {g : Gop} {d : DeltaBody}

lemma InStep.keeps (h : v'.InStep P) (hrefused : ∀ d, f.message = .delta d →
    v.mirrors.poses.refusal d ≠ none → v'.mirrors.poses = v.mirrors.poses ∧
      ∀ s, v'.mirrors.slots.actorIdOf s = v.mirrors.slots.actorIdOf s) : v.Keeps f v' :=
  ⟨h.both.agree, fun s => congrFun h.both.slots.actorIdOf s, hrefused⟩

/-- What a `Hello` preserves. -/
lemma InStep.hello (h : v.InStep P) (m : HelloMessage) : (v.step (.hello m)).2.InStep P := by
  have hboth := h.both.greet m
  have happlied : (v.step (.hello m)).2.applied = if m.resumed then v.applied else none := rfl
  cases hresumed : m.resumed with
  | false =>
    rw [hresumed, if_neg Bool.false_ne_true] at hboth happlied
    refine ⟨?_, fun i g hg => nomatch happlied.symm.trans hg⟩
    rw [roster, happlied]
    exact hboth
  | true =>
    rw [hresumed, if_pos rfl] at hboth happlied
    refine ⟨?_, fun i g hg => ?_⟩
    · rw [roster, happlied]
      exact hboth
    · obtain ⟨hmem, hstep⟩ := h.held i g (happlied ▸ hg)
      exact ⟨hmem, (stepIndex_greet v.mirrors hresumed).trans hstep⟩

/-- What a keyframe preserves. -/
lemma InStep.keyframe (h : v.InStep P) (hf : .frame serial g ∈ P)
    (hlast : g.deltas.getLast? = none) :
    (v.step (.frame serial g)).2.InStep P := by
  have hmessage : Sent.message (.frame serial g) = .keyframe g.keyframe := by
    rw [Sent.message, hlast]
  have happlied : (v.step (.frame serial g)).2.applied = some (serial, g) := by
    show noted v (.frame serial g) = _
    rw [noted, hlast]
  have hdeltas : g.deltas = [] := List.getLast?_eq_none_iff.1 hlast
  refine ⟨?_, fun i g' hg' => ?_⟩
  · rw [roster, happlied, Viewer.step, hmessage]
    dsimp only
    rw [Gop.roster, hdeltas]
    exact ⟨h.both.poses.applyKeyframe g.keyframe, h.both.slots.adoptKeyframe g.keyframe _⟩
  · obtain ⟨rfl, rfl⟩ := Prod.mk.inj (Option.some.inj (happlied.symm.trans hg'))
    rw [Viewer.step, hmessage, hdeltas]
    exact ⟨hf, rfl⟩

lemma step_delta (hlast : g.deltas.getLast? = some d) :
    Sent.message (.frame serial g) = .delta d ∧
      (v.step (.frame serial g)).2.mirrors = (v.mirrors.follow d).2 ∧
      (v.step (.frame serial g)).2.applied =
        if v.applies d then some (serial, g) else v.applied := by
  have hmessage : Sent.message (.frame serial g) = .delta d := by
    rw [Sent.message, hlast]
  refine ⟨hmessage, ?_, ?_⟩
  · rw [Viewer.step, hmessage]
    rfl
  · show noted v (.frame serial g) = _
    rw [noted, hlast]

lemma InStep.delta_skipped (h : v.InStep P) (hlast : g.deltas.getLast? = some d)
    (hskip : v.applies d = false) (hboth : (v.mirrors.follow d).2.Both v.roster)
    (hposes : (v.mirrors.follow d).2.poses = v.mirrors.poses) :
    (v.step (.frame serial g)).2.InStep P := by
  obtain ⟨_, hmirrors, happlied⟩ := @step_delta v serial _ _ hlast
  rw [hskip, if_neg Bool.false_ne_true] at happlied
  refine ⟨?_, fun i g' hg' => ?_⟩
  · rw [roster, happlied, hmirrors]
    exact hboth
  · rw [hmirrors, hposes]
    exact h.held i g' (happlied ▸ hg')

/-- What a delta preserves that is applied. -/
lemma InStep.delta_applied (h : v.InStep P)
    (htotal : ∀ i g g', .frame i g ∈ P → .frame i g' ∈ P → g.Extends g' ∨ g'.Extends g)
    (hsound : ∀ i g, .frame i g ∈ P → g.Sound) (hf : .frame serial g ∈ P)
    (hlast : g.deltas.getLast? = some d) (href : v.mirrors.poses.refusal d = none)
    (hvalid : v.mirrors.poses.validate d = .ok ()) (hserial : v.applied.map Prod.fst = some serial)
    (hlength : g.deltas.length < 2 ^ 32)
    (hbound : ∀ sp ∈ d.spawns, sp.slot.toNat < v.mirrors.slots.slotLimit) :
    (v.step (.frame serial g)).2.InStep P := by
  obtain ⟨_, hmirrors, happlied⟩ := @step_delta v serial _ _ hlast
  rw [applies, href, hvalid] at happlied
  have happlied : (v.step (.frame serial g)).2.applied = some (serial, g) := happlied
  obtain ⟨⟨i, g₀⟩, hg₀, rfl⟩ := Option.map_eq_some_iff.1 hserial
  obtain ⟨hmem, hstep⟩ := h.held i g₀ hg₀
  obtain ⟨ds, hds⟩ := List.getLast?_eq_some_iff.1 hlast
  have hnext : d.stepIndex.toNat = v.mirrors.poses.stepIndex + 1 := by
    unfold PoseBuffer.refusal at href
    split_ifs at href with _ _ hne
    exact not_not.1 hne
  obtain ⟨hg, hcont⟩ := next_of_applies (htotal i g₀ g hmem hf) (hsound i g hf) hds hlength
    (hstep ▸ hnext)
  have hroster : v.roster = g₀.roster := by
    rw [roster, hg₀]
  obtain ⟨hboth, hstepIndex⟩ := h.both.follow_applied href hvalid hcont.spawns
    (hroster ▸ hcont.moved) hbound
  refine ⟨?_, fun i' g' hg' => ?_⟩
  · rw [roster, happlied, hmirrors]
    dsimp only
    rw [hg, Gop.roster_push, ← hroster]
    exact hboth
  · obtain ⟨rfl, rfl⟩ := Prod.mk.inj (Option.some.inj (happlied.symm.trans hg'))
    refine ⟨hf, ?_⟩
    rw [hmirrors, hstepIndex, hnext, hstep, hg, Gop.push, List.length_append]
    rfl

/-- **What a message preserves.** -/
theorem InStep.step (h : v.InStep P)
    (htotal : ∀ i g g', .frame i g ∈ P → .frame i g' ∈ P → g.Extends g' ∨ g'.Extends g)
    (hsound : ∀ i g, .frame i g ∈ P → g.Sound) (hf : f ∈ P) (hheeds : v.Heeds f) :
    (v.step f).2.InStep P ∧ v.Keeps f (v.step f).2 := by
  cases f with
  | hello m => exact ⟨h.hello m, (h.hello m).keeps nofun⟩
  | frame serial g =>
    cases hlast : g.deltas.getLast? with
    | none =>
      have hmessage : Sent.message (.frame serial g) = .keyframe g.keyframe := by
        rw [Sent.message, hlast]
      have hnext := h.keyframe hf hlast
      exact ⟨hnext, hnext.keeps fun d hd => nomatch hmessage.symm.trans hd⟩
    | some d =>
      obtain ⟨hmessage, hmirrors, _⟩ := @step_delta v serial _ _ hlast
      have hheeds := hheeds d hlast
      cases href : v.mirrors.poses.refusal d with
      | some reason =>
        rw [href] at hheeds
        obtain ⟨hboth, hposes⟩ := h.both.follow_refused href hheeds.1 hheeds.2
        have hskip : v.applies d = false := by
          rw [applies, href]
          rfl
        have hnext := @delta_skipped _ _ serial _ _ h hlast hskip hboth hposes
        refine ⟨hnext, hnext.keeps fun d' hd' _ => ?_⟩
        rw [hmirrors, hboth.slots.actorIdOf, h.both.slots.actorIdOf]
        exact ⟨hposes, fun _ => rfl⟩
      | none =>
        rw [href] at hheeds
        have hnever : ∀ d', Sent.message (.frame serial g) = .delta d' →
            v.mirrors.poses.refusal d' = none := by
          intro d' hd'
          cases hmessage.symm.trans hd'
          exact href
        cases hvalid : v.mirrors.poses.validate d with
        | error e =>
          have hsame : v.mirrors.follow d = (some e, v.mirrors) := by
            rw [Mirrors.follow, PoseBuffer.applyDelta, href, hvalid]
            rfl
          have hskip : v.applies d = false := by
            rw [applies, href, hvalid]
            rfl
          have hnext := @delta_skipped _ _ serial _ _ h hlast hskip (hsame ▸ h.both)
            (congrArg (fun r => r.2.poses) hsame)
          exact ⟨hnext, hnext.keeps fun d' hd' hne => absurd (hnever d' hd') hne⟩
        | ok u =>
          obtain ⟨hserial, hlength, hbound⟩ := hheeds hvalid
          have hnext := h.delta_applied htotal hsound hf hlast href hvalid hserial hlength hbound
          exact ⟨hnext, hnext.keeps fun d' hd' hne => absurd (hnever d' hd') hne⟩

/-- What a run preserves. -/
lemma inStep_run {P : List Sent}
    (htotal : ∀ i g g', .frame i g ∈ P → .frame i g' ∈ P → g.Extends g' ∨ g'.Extends g)
    (hsound : ∀ i g, .frame i g ∈ P → g.Sound) (poseCapacity : ℕ) {delivered : List Sent}
    (hsub : ∀ f ∈ delivered, f ∈ P)
    (hheeds : ∀ pre f, pre ++ [f] <+: delivered → ((new poseCapacity).run pre).Heeds f) :
    ((new poseCapacity).run delivered).InStep P := by
  induction delivered using List.reverseRecOn with
  | nil => exact inStep_new poseCapacity P
  | append_singleton pre f ih =>
    have hpre := ih (fun f' hf' => hsub f' (List.mem_append_left _ hf'))
      fun pre' f' h' => hheeds pre' f' (h'.trans (List.prefix_append _ _))
    rw [run, Mealy.run_concat]
    exact (hpre.step htotal hsound (hsub f (List.mem_append_right _ (List.mem_singleton_self f)))
      (hheeds pre f List.prefix_rfl)).1

end Viewer

/-- **The mirrors agree** after every message, whichever messages of a server are lost, as long as
no refused delta carries news and none passes for one of another group of pictures. -/
theorem mirrors_agree (origin : Axes F64) (cadence : Cadence) (profile : Profile) (firstSeq : UInt64)
    (ops : List ServerOp) (hops : ∀ op ∈ ops, op.Named) (poseCapacity : ℕ) (delivered : List Sent)
    (hsub : ∀ f ∈ delivered, f ∈ (Server.new origin cadence profile firstSeq).produced ops)
    (hheeds : ∀ pre f, pre ++ [f] <+: delivered → ((Viewer.new poseCapacity).run pre).Heeds f) :
    ∀ pre f, pre ++ [f] <+: delivered → ((Viewer.new poseCapacity).run pre).Keeps f
      ((Viewer.new poseCapacity).run (pre ++ [f])) := by
  intro pre f hpre
  have htotal := fun i g g' =>
    @Server.produced_extends origin cadence profile firstSeq ops hops i g g'
  have hsound := fun i g => @Server.produced_sound origin cadence profile firstSeq ops hops i g
  have hinit : pre <+: delivered := (List.prefix_append _ _).trans hpre
  have hrun := Viewer.inStep_run htotal hsound poseCapacity (fun f' hf' => hsub f' (hinit.mem hf'))
    fun pre' f' h' => hheeds pre' f' (h'.trans hinit)
  have hf := hsub f (hpre.mem (List.mem_append_right _ (List.mem_singleton_self f)))
  rw [Viewer.run, Viewer.run, Mealy.run_concat]
  exact (hrun.step htotal hsound hf (hheeds pre f hpre)).2

/-! ### Runs at work -/

/-- A server about the origin. -/
def stillServer : Server := .new ⟨F64.zero, F64.zero, F64.zero⟩ .default .full 0

/-- Three steps of one actor, the second of which is lost: the client refuses the third, which
brings no news. -/
theorem mirrors_agree_still :
    let delivered := (stillServer.produced
      [.encode (snapshotAt 0 [standing 0 7 1.5]), .encode (snapshotAt 100000000 [standing 0 7 1.75]),
        .encode (snapshotAt 200000000 [standing 0 7 2.0])]).eraseIdx 1
    ∀ pre f, pre ++ [f] <+: delivered →
      ((Viewer.new 4).run pre).Keeps f ((Viewer.new 4).run (pre ++ [f])) := by
  intro delivered
  have hall : ∀ n < delivered.length, ((Viewer.new 4).run (delivered.take n)).Heeds
      (delivered.getD n (.hello ⟨false, [], 0⟩)) := by
    decide +kernel
  refine mirrors_agree _ _ _ _ _ (fun op hop => ?_) 4 _ (fun f hf => List.mem_of_mem_eraseIdx hf)
    (Mealy.forall_prefix _ hall)
  simp only [List.mem_cons, List.not_mem_nil, or_false] at hop
  obtain rfl | rfl | rfl := hop <;>
  · intro a ha
    obtain rfl := List.mem_singleton.1 ha
    decide

/-- A delta is lost, and the next one is refused: the table of slots has the actor that it names,
and the buffer of poses has none. -/
theorem slots_follow_refused_delta :
    let sent := stillServer.produced
      [.encode (snapshotAt 0 [standing 0 7 1.5]), .encode (snapshotAt 100000000 [standing 0 7 1.75]),
        .encode (snapshotAt 200000000 [standing 0 7 1.75, standing 1 9 4.0])]
    let v := (Viewer.new 4).run (sent.eraseIdx 1)
    sent.length = 3 ∧ v.mirrors.slots.actorIdOf 1 = 9 ∧
      v.mirrors.poses.rows[1]?.map PoseRow.actorId = some u32None := by
  decide +kernel

end V2xw.Client
