import V2xw.Record.EncoderSpec

/-!
# The receiver of a snapshot stream

A receiver decodes the frames of an encoder in order and applies them: a keyframe replaces
everything it holds, and a delta moves, inserts and removes rows. It takes the entries of the
absolute and the lane block in the order of the rows that announce them, as the client of
`crates/v2xw-record/tests/drift.rs` does.

The receiver holds, after every frame, the references of the encoder: the two evolve apart, and
each transmitted row moves them by the same amount. Quantisation errors therefore do not add up.

A keyframe marks an empty slot by an actor id of all ones, so an actor with that very id is lost
in a keyframe. The results are about runs in which no keyframe has one.

## Main definitions

* `Received` — what a receiver knows of a slot.
* `receive` — one frame.
* `Received.ofRef` — the reference of the encoder, as a receiver knows it.

## Main results

* `receive_encode` — a frame keeps receiver and encoder together.
* `receiver_tracks_encoder` — they stay together in every run.
-/

namespace V2xw.Record

/-! ## The receiver -/

/-- What a receiver knows of an occupied slot. -/
structure Received where
  xMm : ℤ
  yMm : ℤ
  zMm : ℤ
  state : UInt8
  verifiedNeighbors : UInt8
  laneId : UInt32
  deriving DecidableEq, Repr

namespace Received

/-- The slot of a keyframe row. -/
def ofActorRow (r : ActorRow) : Received :=
  ⟨r.xMm.toInt, r.yMm.toInt, cmToMm r.zCm, r.state, r.verifiedNeighbors, r.laneId⟩

/-- The slot of a spawn row. -/
def ofSpawnRow (r : SpawnRow) : Received :=
  ⟨r.xMm.toInt, r.yMm.toInt, cmToMm r.zCm, r.state, r.verifiedNeighbors, r.laneId⟩

/-- A slot after a moved row, with the entries the row announced. -/
def move (r : Received) (m : MovedRow) (abs : Option AbsRow) (lane : Option UInt32) : Received :=
  match abs with
  | some a =>
    ⟨a.xMm.toInt, a.yMm.toInt, cmToMm a.zCm, m.state, m.verifiedNeighbors, lane.getD r.laneId⟩
  | none =>
    ⟨r.xMm + m.dxMm.toInt, r.yMm + m.dyMm.toInt, r.zMm + m.dzMm.toInt, m.state,
      m.verifiedNeighbors, lane.getD r.laneId⟩

end Received

/-- The occupied rows of a keyframe, each with its slot. -/
def KeyframeBody.occupiedRows (kf : KeyframeBody) : List (UInt32 × ActorRow) :=
  (kf.actors.zipIdx.filter fun p => p.1.isOccupied).map fun p => (UInt32.ofNat p.2, p.1)

/-- A keyframe replaces every row. -/
def applyKeyframe (kf : KeyframeBody) : OrdMap UInt32 Received :=
  kf.occupiedRows.foldl (fun rows p => rows.insert p.1 (Received.ofActorRow p.2)) ∅

/-- The next entry of a block, for a row that announces one. -/
def nextEntry {α : Type} (announced : Bool) (block : List α) : Option α × List α :=
  if announced then (block.head?, block.tail) else (none, block)

/-- The moved rows of a delta, with the entries of its side blocks still to take. -/
def applyMoved : OrdMap UInt32 Received → List MovedRow → List AbsRow → List UInt32 →
    OrdMap UInt32 Received
  | rows, [], _, _ => rows
  | rows, m :: moved, abs, lanes =>
    let (entry, abs) := nextEntry (m.mflags &&& mflagAbsolute != 0) abs
    let (lane, lanes) := nextEntry (m.mflags &&& mflagLaneChanged != 0) lanes
    applyMoved (rows.alter m.slot (Option.map fun r => r.move m entry lane)) moved abs lanes

/-- A delta moves, inserts and removes rows. -/
def applyDelta (rows : OrdMap UInt32 Received) (d : DeltaBody) : OrdMap UInt32 Received :=
  let rows := applyMoved rows d.moved d.abs d.lanes
  let rows := d.spawns.foldl (fun rows s => rows.insert s.slot (Received.ofSpawnRow s)) rows
  (d.despawns.map DespawnRow.slot).foldl (fun rows s => rows.erase s) rows

/-- Decodes and applies one frame. -/
def receive (rows : OrdMap UInt32 Received) (f : Frame) :
    Except RecordError (OrdMap UInt32 Received) := do
  let h ← f.header
  match h.kind with
  | some .keyframe => (KeyframeBody.decode f.body).map applyKeyframe
  | some .delta => (DeltaBody.decode f.body).map (applyDelta rows)
  | _ => .ok rows

/-- Decodes and applies frames in order. -/
def receiveAll (rows : OrdMap UInt32 Received) (frames : List Frame) :
    Except RecordError (OrdMap UInt32 Received) :=
  frames.foldlM receive rows

/-- The frames a run emitted. -/
def framesOf (os : List (Option SnapshotFrame)) : List Frame :=
  os.filterMap (Option.map SnapshotFrame.frame)

/-! ## Keyframes -/

/-- The occupied rows of a keyframe stand at the indices of their slots. -/
lemma KeyframeBody.mem_occupiedRows {kf : KeyframeBody} (hlen : kf.actors.length ≤ 2 ^ 32)
    {s : UInt32} {r : ActorRow} :
    (s, r) ∈ kf.occupiedRows ↔ kf.actors[s.toNat]? = some r ∧ r.isOccupied = true := by
  unfold occupiedRows
  simp only [List.mem_map, List.mem_filter, Prod.exists, List.mem_zipIdx_iff_getElem?,
    Prod.mk.injEq]
  constructor
  · rintro ⟨r', i, ⟨hr, hocc⟩, rfl, rfl⟩
    have hi : i < kf.actors.length := (List.getElem?_eq_some_iff.1 hr).1
    rw [UInt32.toNat_ofNat_of_lt' (by show i < 2 ^ 32; omega)]
    exact ⟨hr, hocc⟩
  · rintro ⟨hr, hocc⟩
    exact ⟨r, s.toNat, ⟨hr, hocc⟩, UInt32.ofNat_toNat, rfl⟩

/-- No slot has two rows in a keyframe. -/
lemma KeyframeBody.pairwise_occupiedRows {kf : KeyframeBody}
    (hlen : kf.actors.length ≤ 2 ^ 32) : kf.occupiedRows.Pairwise fun a b => a.1 ≠ b.1 := by
  unfold occupiedRows
  rw [List.pairwise_map]
  have hidx : kf.actors.zipIdx.Pairwise fun p q => p.2 < q.2 := by
    rw [← List.pairwise_map (f := Prod.snd), List.zipIdx_map_snd]
    exact List.pairwise_lt_range'
  refine ((hidx.filter _).imp_of_mem fun {p q} hp hq hlt heq => ?_)
  have hmem : ∀ p ∈ kf.actors.zipIdx.filter fun p => p.1.isOccupied, p.2 < 2 ^ 32 := by
    intro p hp
    have hp := List.mem_zipIdx_iff_getElem?.1 (List.mem_of_mem_filter hp)
    have hi : p.2 < kf.actors.length := (List.getElem?_eq_some_iff.1 hp).1
    omega
  have hnat := congrArg UInt32.toNat heq
  rw [UInt32.toNat_ofNat_of_lt' (hmem p hp), UInt32.toNat_ofNat_of_lt' (hmem q hq)] at hnat
  omega

/-- **A receiver after a keyframe** knows the occupied rows. -/
lemma get_applyKeyframe {kf : KeyframeBody} (hlen : kf.actors.length ≤ 2 ^ 32) (s : UInt32) :
    (applyKeyframe kf)[s]? =
      (kf.actors[s.toNat]?.filter ActorRow.isOccupied).map Received.ofActorRow := by
  obtain ⟨hin, hout⟩ := OrdMap.get_foldl_insert Prod.fst
    (fun p : UInt32 × ActorRow => Received.ofActorRow p.2) kf.occupiedRows ∅
    (KeyframeBody.pairwise_occupiedRows hlen)
  unfold applyKeyframe
  cases hr : kf.actors[s.toNat]?.filter ActorRow.isOccupied with
  | some r =>
    obtain ⟨hr, hocc⟩ := Option.filter_eq_some_iff.1 hr
    exact hin (s, r) ((KeyframeBody.mem_occupiedRows hlen).2 ⟨hr, hocc⟩)
  | none =>
    rw [hout s]
    · rw [Option.map_none]
      exact Std.ExtTreeMap.getElem?_empty
    · rintro ⟨s', r⟩ hmem rfl
      obtain ⟨hget, hocc⟩ := (KeyframeBody.mem_occupiedRows hlen).1 hmem
      rw [hget, Option.filter_some, if_pos hocc] at hr
      cases hr

/-! ## Deltas -/

/-- The reference of a slot, as a receiver knows it. -/
def Received.ofRef (r : PoseRef) : Received :=
  ⟨r.xMm.toInt, r.yMm.toInt, r.zMm, r.state, r.verifiedNeighbors, r.laneId⟩

/-- What a delta of an encoder does to a slot that stays occupied. -/
def moveOne (refs : OrdMap UInt32 PoseRef) (row : UInt32 × Target) (r : Received) : Received :=
  match movedOf refs row with
  | none => r
  | some m => r.move m (absOf refs row) (laneOf refs row)

lemma nextEntry_toList {α : Type} (entry : Option α) (block : List α) :
    nextEntry entry.isSome (entry.toList ++ block) = (entry, block) := by
  cases entry <;> rfl

/-- **The moved rows of a delta** find the entries they announced.

**Proof sketch.** Induction on the occupied slots. A slot without a moved row has no entry in the
side blocks either, and a slot with one is at the head of every block that has an entry for it. -/
lemma get_applyMoved (refs : OrdMap UInt32 PoseRef) (l : List (UInt32 × Target)) :
    ∀ rows : OrdMap UInt32 Received, l.Pairwise (fun a b => a.1 ≠ b.1) →
      (∀ x ∈ l, (applyMoved rows (l.filterMap (movedOf refs)) (l.filterMap (absOf refs))
        (l.filterMap (laneOf refs)))[x.1]? = rows[x.1]?.map (moveOne refs x)) ∧
      ∀ s, (∀ x ∈ l, x.1 ≠ s) → (applyMoved rows (l.filterMap (movedOf refs))
        (l.filterMap (absOf refs)) (l.filterMap (laneOf refs)))[s]? = rows[s]? := by
  induction l with
  | nil => exact fun rows _ => ⟨fun x hx => absurd hx List.not_mem_nil, fun s _ => rfl⟩
  | cons a l ih =>
    intro rows hl
    obtain ⟨ha, hl⟩ := List.pairwise_cons.1 hl
    -- The first slot alters its own row, and the others are as the rest of the loop leaves them.
    have hfirst : ∃ rows', applyMoved rows ((a :: l).filterMap (movedOf refs))
          ((a :: l).filterMap (absOf refs)) ((a :: l).filterMap (laneOf refs)) =
        applyMoved rows' (l.filterMap (movedOf refs)) (l.filterMap (absOf refs))
          (l.filterMap (laneOf refs)) ∧
        ∀ s, rows'[s]? = if a.1 = s then rows[a.1]?.map (moveOne refs a) else rows[s]? := by
      cases hm : movedOf refs a with
      | none =>
        refine ⟨rows, ?_, fun s => ?_⟩
        · simp only [filterMap_cons_toList, hm, absOf_of_movedOf_none hm, laneOf_of_movedOf_none hm,
            Option.toList_none, List.nil_append]
        · have hid : moveOne refs a = id := by
            funext r
            simp only [moveOne, hm, id_eq]
          rw [hid, Option.map_id_fun, id_eq]
          split_ifs with h
          · rw [h]
          · rfl
      | some m =>
        have hslot : m.slot = a.1 := by
          obtain ⟨r, _, _, rfl⟩ := movedOf_eq_some.1 hm
          rfl
        refine ⟨rows.alter m.slot (Option.map fun r => r.move m (absOf refs a) (laneOf refs a)),
          ?_, fun s => ?_⟩
        · simp only [filterMap_cons_toList, hm, Option.toList_some, List.singleton_append,
            applyMoved, movedOf_absolute hm, movedOf_lane hm, nextEntry_toList]
        · rw [Std.ExtTreeMap.getElem?_alter, hslot]
          simp only [compare_eq_iff_eq]
          have hmove : moveOne refs a = fun r => r.move m (absOf refs a) (laneOf refs a) := by
            funext r
            simp only [moveOne, hm]
          rw [hmove]
    obtain ⟨rows', heq, hget⟩ := hfirst
    obtain ⟨hin, hout⟩ := ih rows' hl
    rw [heq]
    refine ⟨fun x hx => ?_, fun s hs => ?_⟩
    · rcases List.mem_cons.1 hx with rfl | hx
      · rw [hout _ fun y hy => (ha y hy).symm, hget, if_pos rfl]
      · rw [hin x hx, hget, if_neg (ha x hx)]
    · rw [hout s fun y hy => hs y (List.mem_cons_of_mem _ hy), hget,
        if_neg (hs a List.mem_cons_self)]

/-- **A slot that stays occupied** moves from its reference to its next reference. -/
lemma moveOne_ofRef {refs : OrdMap UInt32 PoseRef} {s : UInt32} {r : PoseRef} (t : Target)
    (h : refs[s]? = some r) :
    moveOne refs (s, t) (Received.ofRef r) = Received.ofRef (t.nextRef (some r)) := by
  have hnext : t.nextRef (some r) =
      { r with
        xMm := t.xMm
        yMm := t.yMm
        zMm := if r.escapes t.xMm t.yMm t.zMm then cmToMm (Quant.escapeZCm t.zMm) else t.zMm
        headingBrad := t.headingBrad
        speedCq := t.speedCq
        accelCq := t.accelCq
        state := t.state
        verifiedNeighbors := t.verifiedNeighbors
        laneId := t.laneId } := rfl
  unfold moveOne movedOf absOf laneOf
  simp only [h, Option.bind_some, hnext]
  cases hc : t.changed r with
  | false =>
    -- Without a row, the target is the reference already.
    obtain ⟨hesc, ⟨hx, hy, hz⟩, hlane, hstate, hvn⟩ := Target.of_not_changed hc
    simp only [hesc, Bool.false_eq_true, if_false]
    simp only [Received.ofRef, hx, hy, hz, hlane, hstate, hvn]
  | true =>
    have hlane : (if t.laneChanged r then some t.laneId else none).getD r.laneId = t.laneId := by
      cases hl : t.laneChanged r with
      | true => rfl
      | false =>
        simp only [Target.laneChanged, bne_eq_false_iff_eq] at hl
        rw [hl]
        rfl
    cases hesc : r.escapes t.xMm t.yMm t.zMm with
    | true =>
      simp only [if_true, Received.move, Received.ofRef, hlane]
      rfl
    | false =>
      obtain ⟨hx, hy, hz⟩ := PoseRef.step_apply hesc
      simp only [if_true, Bool.false_eq_true, if_false, Received.move, Received.ofRef, hlane,
        Target.movedRow, hx, hy, hz]

lemma spawnOf_eq_some {refs : OrdMap UInt32 PoseRef} {causes : OrdMap UInt32 UInt16}
    {row : UInt32 × Target} {s : SpawnRow} :
    spawnOf refs causes row = some s ↔
      refs[row.1]? = none ∧ s = row.2.spawnRow row.1 (causes[row.1]?.getD u16None) := by
  unfold spawnOf
  cases refs[row.1]? <;> simp [eq_comm]

/-- **A delta of the encoder** takes a receiver from the references before it to those after. -/
lemma applyDelta_deltaBody (e : SnapshotEncoder) (snap : Snapshot)
    (rows : OrdMap UInt32 Target) {known : OrdMap UInt32 Received}
    (h : ∀ s : UInt32, known[s]? = e.refs[s]?.map Received.ofRef) (s : UInt32) :
    (applyDelta known (e.deltaBody snap rows).1)[s]? =
      (e.deltaBody snap rows).2.refs[s]?.map Received.ofRef := by
  rw [e.deltaBody_refs, e.deltaBody_eq]
  obtain ⟨hmoved, hstay⟩ := get_applyMoved e.refs rows.toList known rows.pairwise_toList
  -- The slots of the spawn rows are distinct, since those of the targets are.
  have hspawns : (rows.toList.filterMap (spawnOf e.refs snap.spawnCauses)).Pairwise
      fun a b => a.slot ≠ b.slot := by
    refine rows.pairwise_toList.filterMap _ fun a a' hne b hb b' hb' => ?_
    rw [(spawnOf_eq_some.1 hb).2, (spawnOf_eq_some.1 hb').2]
    exact hne
  obtain ⟨hspawned, hkept⟩ := OrdMap.get_foldl_insert SpawnRow.slot Received.ofSpawnRow
    (rows.toList.filterMap (spawnOf e.refs snap.spawnCauses))
    (applyMoved known (rows.toList.filterMap (movedOf e.refs))
      (rows.toList.filterMap (absOf e.refs)) (rows.toList.filterMap (laneOf e.refs))) hspawns
  have hslots : ∀ x ∈ rows.toList.filterMap (spawnOf e.refs snap.spawnCauses),
      x.slot = s → ∃ t, rows[s]? = some t ∧ e.refs[s]? = none := by
    rintro x hx rfl
    obtain ⟨⟨s', t⟩, hrow, hspawn⟩ := List.mem_filterMap.1 hx
    obtain ⟨hnone, rfl⟩ := spawnOf_eq_some.1 hspawn
    exact ⟨t, OrdMap.mem_toList.1 hrow, hnone⟩
  simp only [applyDelta, List.map_map]
  have hgone : (e.goneSlots rows).map (DespawnRow.slot ∘ fun s =>
      (⟨s, snap.despawnCauses[s]?.getD u16None⟩ : DespawnRow)) = e.goneSlots rows :=
    List.map_id _
  rw [hgone, OrdMap.get_foldl_erase]
  cases hs : rows[s]? with
  | none =>
    by_cases hmem : s ∈ e.goneSlots rows
    · rw [if_pos hmem]
      rfl
    · have he : e.refs[s]? = none := by
        by_contra hne
        exact hmem ((e.mem_goneSlots rows).2 ⟨Option.ne_none_iff_exists'.1 hne, hs⟩)
      rw [if_neg hmem, hkept s fun x hx hxs => ?_, hstay s fun x hx hxs => ?_, h s, he]
      · rfl
      · obtain ⟨s', t⟩ := x
        obtain rfl := hxs
        rw [OrdMap.mem_toList.1 hx] at hs
        cases hs
      · obtain ⟨t, ht, _⟩ := hslots x hx hxs
        rw [ht] at hs
        cases hs
  | some t =>
    have hmem : s ∉ e.goneSlots rows := fun hmem =>
      nomatch hs.symm.trans ((e.mem_goneSlots rows).1 hmem).2
    rw [if_neg hmem]
    cases hr : e.refs[s]? with
    | none =>
      exact hspawned (t.spawnRow s (snap.spawnCauses[s]?.getD u16None))
        (List.mem_filterMap.2 ⟨(s, t), OrdMap.mem_toList.2 hs, spawnOf_eq_some.2 ⟨hr, rfl⟩⟩)
    | some r =>
      rw [hkept s fun x hx hxs => ?_, hmoved (s, t) (OrdMap.mem_toList.2 hs), h s, hr,
        Option.map_some, Option.map_some, moveOne_ofRef t hr]
      · rfl
      · obtain ⟨_, _, hnone⟩ := hslots x hx hxs
        rw [hr] at hnone
        cases hnone

/-! ## One frame -/

/-- Everything a keyframe of an encoder says about a slot: its target, unless the actor id reads
as that of an empty slot. -/
lemma denseRows_filter {rows : OrdMap UInt32 Target}
    (hids : ∀ (s : UInt32) t, rows[s]? = some t → t.actorId ≠ u32None) (s : UInt32) :
    (SnapshotEncoder.denseRows rows)[s.toNat]?.filter ActorRow.isOccupied =
      rows[s]?.map Target.actorRow := by
  cases hs : rows[s]? with
  | some t =>
    rw [SnapshotEncoder.get_denseRows hs, Option.filter_some, if_pos]
    · rfl
    · exact bne_iff_ne.2 (hids s t hs)
  | none =>
    rw [Option.map_none, Option.filter_eq_none_iff]
    intro r hr hocc
    rw [SnapshotEncoder.get_denseRows_of_none hs hr] at hocc
    cases hocc

lemma receive_keyframe {kf : KeyframeBody} {seq : UInt64} {flags : UInt16} {f : Frame}
    (h : kf.toFrame seq flags = .ok f) (known : OrdMap UInt32 Received) :
    receive known f = .ok (applyKeyframe kf) := by
  obtain ⟨hlen, rfl⟩ := Frame.new_eq_ok.1 h
  unfold receive
  rw [Frame.header_build, Frame.body_build, kf.decode_encode hlen]
  rfl

lemma receive_delta {d : DeltaBody} {seq : UInt64} {flags : UInt16} {f : Frame}
    (h : d.toFrame seq flags = .ok f) (hcorr : d.Correlated) (known : OrdMap UInt32 Received) :
    receive known f = .ok (applyDelta known d) := by
  obtain ⟨hlen, rfl⟩ := Frame.new_eq_ok.1 h
  unfold receive
  rw [Frame.header_build, Frame.body_build, d.decode_encode hlen hcorr]
  rfl

/-- **A frame keeps receiver and encoder together.** -/
theorem receive_encode {e e' : SnapshotEncoder} {snap : Snapshot} {f : SnapshotFrame}
    {known : OrdMap UInt32 Received} (henc : e.encode snap = (.ok f, e'))
    (hids : ∀ fr, f = .keyframe fr → ∀ a ∈ (e.blankInput snap).actors, a.actor ≠ u32None)
    (h : ∀ s : UInt32, known[s]? = e.refs[s]?.map Received.ofRef) :
    ∃ known', receive known f.frame = .ok known' ∧
      ∀ s : UInt32, known'[s]? = e'.refs[s]?.map Received.ofRef := by
  obtain ⟨rows, _, hrows, ⟨hk, ⟨fr, hfr, rfl⟩, rfl⟩ | ⟨_, ⟨fr, hfr, rfl⟩, rfl⟩⟩ :=
    SnapshotEncoder.encode_cases henc
  · refine ⟨_, receive_keyframe hfr known, fun s => ?_⟩
    have hids : ∀ (s : UInt32) t, rows[s]? = some t → t.actorId ≠ u32None := by
      intro s t ht
      obtain ⟨a, ha, _, rfl⟩ := (SnapshotEncoder.rowsOf_get hrows).1 ht
      exact hids fr rfl a ha
    have hlen : (SnapshotEncoder.denseRows rows).length ≤ 2 ^ 32 := by
      rw [SnapshotEncoder.length_denseRows]
      exact SnapshotEncoder.rowCount_le
    rw [get_applyKeyframe (show (e.keyframeBody (e.blankInput snap) rows).1.actors.length ≤ 2 ^ 32
      from hlen)]
    show ((SnapshotEncoder.denseRows rows)[s.toNat]?.filter ActorRow.isOccupied).map _ =
      (Std.ExtTreeMap.map (fun _ t => t.poseRef) rows)[s]?.map Received.ofRef
    rw [denseRows_filter hids, Std.ExtTreeMap.getElem?_map, Option.map_map, Option.map_map]
    rfl
  · exact ⟨_, receive_delta hfr (e.deltaBody_correlated _ _) known,
      applyDelta_deltaBody e (e.blankInput snap) rows h⟩

/-! ## Runs -/

lemma producer_step {e₀ e e' : SnapshotEncoder} {op : ProducerOp} {o : Option SnapshotFrame}
    (h : (producer e₀).step e op = .ok (o, e')) :
    (∃ snap f, op = .encode snap ∧ o = some f ∧ e.encode snap = (.ok f, e')) ∨
      (op = .requestKeyframe ∧ o = none ∧ e' = e.requestKeyframe) := by
  cases op with
  | requestKeyframe =>
    obtain ⟨rfl, rfl⟩ := Prod.mk.inj (Except.ok.inj h)
    exact Or.inr ⟨rfl, rfl, rfl⟩
  | encode snap =>
    obtain ⟨f, hf, heq⟩ := Fallible.map_eq_ok.1 h
    obtain ⟨rfl, rfl⟩ := Prod.mk.inj heq
    exact Or.inl ⟨snap, f, rfl, rfl, Prod.ext hf rfl⟩

/-- No keyframe of a run has an actor whose id reads as that of an empty slot. -/
def KeyframeIds (e : SnapshotEncoder) (ops : List ProducerOp)
    (os : List (Option SnapshotFrame)) : Prop :=
  ∀ snap fr, (ProducerOp.encode snap, some (SnapshotFrame.keyframe fr)) ∈ ops.zip os →
    ∀ a ∈ (e.blankInput snap).actors, a.actor ≠ u32None

/-- A run keeps receiver and encoder together. -/
lemma receiveAll_framesOf {e₀ e e' : SnapshotEncoder} {ops : List ProducerOp}
    {os : List (Option SnapshotFrame)} (hrun : (producer e₀).Steps e ops os e')
    (hids : KeyframeIds e ops os) :
    ∀ known : OrdMap UInt32 Received,
      (∀ s : UInt32, known[s]? = e.refs[s]?.map Received.ofRef) →
      ∃ known', receiveAll known (framesOf os) = .ok known' ∧
        ∀ s : UInt32, known'[s]? = e'.refs[s]?.map Received.ofRef := by
  induction hrun with
  | nil e => exact fun known h => ⟨known, rfl, h⟩
  | @cons e t e' op o ops os hstep hrest ih =>
    intro known h
    have hrestIds : ∀ snap fr,
        (ProducerOp.encode snap, some (SnapshotFrame.keyframe fr)) ∈ ops.zip os →
        ∀ a ∈ (e.blankInput snap).actors, a.actor ≠ u32None := fun snap fr hmem =>
      hids snap fr (List.mem_cons_of_mem _ hmem)
    rcases producer_step hstep with ⟨snap, f, rfl, rfl, henc⟩ | ⟨rfl, rfl, rfl⟩
    · obtain ⟨known₁, hrecv, h₁⟩ := receive_encode henc (fun fr hfr =>
        hids snap fr (hfr ▸ List.mem_cons_self)) h
      have hblank := SnapshotEncoder.blankInput_of_profile (SnapshotEncoder.encode_fixed henc).2.2
      obtain ⟨known₂, hrecvs, h₂⟩ := ih (by unfold KeyframeIds; rwa [hblank]) known₁ h₁
      refine ⟨known₂, ?_, h₂⟩
      show List.foldlM receive known (f.frame :: framesOf os) = _
      rw [List.foldlM_cons, hrecv]
      exact hrecvs
    · exact ih hrestIds known h

/-- What a receiver knows after a step of the encoder that left it at `e` with the actors of the
blanked snapshot: their slots, and for each one the pose as it was transmitted. -/
structure InStep (e : SnapshotEncoder) (actors : List ActorPose)
    (known : OrdMap UInt32 Received) : Prop where
  /-- Exactly the slots of the snapshot are known. -/
  slots : ∀ s : UInt32, (∃ r, known[s]? = some r) ↔ ∃ a ∈ actors, a.slot = s
  /-- The position is the quantised target, the rest is the reference of the encoder. -/
  rows : ∀ a ∈ actors, ∃ r ref, known[a.slot]? = some r ∧ e.refs[a.slot]? = some ref ∧
    r.xMm = (Quant.xMm a.posM.x e.origin.x).toInt ∧
    r.yMm = (Quant.xMm a.posM.y e.origin.y).toInt ∧ r.zMm = ref.zMm ∧ r.state = ref.state ∧
    r.verifiedNeighbors = ref.verifiedNeighbors ∧ r.laneId = ref.laneId
  /-- The height is the target on one of the two grids, whatever was transmitted before it. -/
  noDrift : ∀ a ∈ actors, ∃ r, known[a.slot]? = some r ∧
    (r.zMm = Quant.zMm a.posM.z e.origin.z ∨
      r.zMm = cmToMm (Quant.escapeZCm (Quant.zMm a.posM.z e.origin.z)))

lemma Target.nextRef_pose (t : Target) (o : Option PoseRef) :
    (t.nextRef o).xMm = t.xMm ∧ (t.nextRef o).yMm = t.yMm ∧
      ((t.nextRef o).zMm = t.zMm ∨ (t.nextRef o).zMm = cmToMm t.zCm) := by
  cases o with
  | none => exact ⟨rfl, rfl, Or.inr rfl⟩
  | some r =>
    refine ⟨rfl, rfl, ?_⟩
    show (if r.escapes t.xMm t.yMm t.zMm then _ else _) = _ ∨
      (if r.escapes t.xMm t.yMm t.zMm then _ else _) = _
    split_ifs
    · exact Or.inr rfl
    · exact Or.inl rfl

/-- A receiver that holds the references of the encoder is in step with it. -/
lemma inStep_of_refs {e e' : SnapshotEncoder} {snap : Snapshot} {f : SnapshotFrame}
    {known : OrdMap UInt32 Received} (henc : e.encode snap = (.ok f, e'))
    (h : ∀ s : UInt32, known[s]? = e'.refs[s]?.map Received.ofRef) :
    InStep e' (e.blankInput snap).actors known := by
  obtain ⟨rows, hrows, hrefs⟩ := SnapshotEncoder.encode_refs henc
  obtain ⟨horigin, -, -⟩ := SnapshotEncoder.encode_fixed henc
  have hrow : ∀ a ∈ (e.blankInput snap).actors, ∃ o,
      e'.refs[a.slot]? = some ((Target.ofPose e.origin a).nextRef o) := by
    intro a ha
    refine ⟨if e.wantKeyframe snap.simTime then none else e.refs[a.slot]?, ?_⟩
    rw [hrefs, (SnapshotEncoder.rowsOf_get hrows).2 ⟨a, ha, rfl, rfl⟩]
    rfl
  constructor
  · intro s
    rw [h s, hrefs s]
    constructor
    · rintro ⟨r, hr⟩
      obtain ⟨ref, href, -⟩ := Option.map_eq_some_iff.1 hr
      obtain ⟨t, ht, -⟩ := Option.map_eq_some_iff.1 href
      obtain ⟨a, ha, has, -⟩ := (SnapshotEncoder.rowsOf_get hrows).1 ht
      exact ⟨a, ha, has⟩
    · rintro ⟨a, ha, rfl⟩
      rw [(SnapshotEncoder.rowsOf_get hrows).2 ⟨a, ha, rfl, rfl⟩]
      exact ⟨_, rfl⟩
  · intro a ha
    obtain ⟨o, ho⟩ := hrow a ha
    obtain ⟨hx, hy, -⟩ := (Target.ofPose e.origin a).nextRef_pose o
    refine ⟨_, _, by rw [h, ho]; rfl, ho, ?_, ?_, rfl, rfl, rfl, rfl⟩
    · rw [horigin]
      exact congrArg Int32.toInt hx
    · rw [horigin]
      exact congrArg Int32.toInt hy
  · intro a ha
    obtain ⟨o, ho⟩ := hrow a ha
    obtain ⟨-, -, hz⟩ := (Target.ofPose e.origin a).nextRef_pose o
    refine ⟨_, by rw [h, ho]; rfl, ?_⟩
    rw [horigin]
    exact hz

/-- **The receiver stays in step with the encoder.** In every run of an encoder, of either
profile, whose keyframes have no actor with the id of an empty slot, a receiver that applies every
frame can do so, and after the frame of each step it holds exactly the slots of the blanked
snapshot, with the positions transmitted.

**Proof sketch.** Receiver and references agree at the start, where both are empty. A keyframe
starts both over from its rows; a delta moves, inserts and removes the same slots in both, and a
displacement leads from a reference to the next one because it was taken from it. -/
theorem receiver_tracks_encoder (origin : Axes F64) (cadence : Cadence) (profile : Profile)
    (firstSeq : UInt64) {ops : List ProducerOp} {snap : Snapshot}
    {os : List (Option SnapshotFrame)} {e' : SnapshotEncoder}
    (hrun : (producer (.new origin cadence profile firstSeq)).Steps
      (.new origin cadence profile firstSeq) (ops ++ [.encode snap]) os e')
    (hids : KeyframeIds (.new origin cadence profile firstSeq) (ops ++ [.encode snap]) os) :
    ∃ known, receiveAll ∅ (framesOf os) = .ok known ∧
      InStep e' ((SnapshotEncoder.new origin cadence profile firstSeq).blankInput snap).actors
        known := by
  obtain ⟨known, hrecv, hknown⟩ := receiveAll_framesOf hrun hids ∅ fun s => by
    show (∅ : OrdMap UInt32 Received)[s]? = (∅ : OrdMap UInt32 PoseRef)[s]?.map Received.ofRef
    rw [Std.ExtTreeMap.getElem?_empty, Std.ExtTreeMap.getElem?_empty]
    rfl
  obtain ⟨os', o, e, rfl, hsteps, hlast⟩ := hrun.of_concat
  rcases producer_step hlast with ⟨_, f, heq, rfl, henc⟩ | ⟨heq, -, -⟩
  · obtain rfl := ProducerOp.encode.inj heq
    have hprofile : e.profile = profile :=
      hsteps.invariant (P := fun e => e.profile = profile) (fun t op o t' _ ht hstep => by
        rcases producer_step hstep with ⟨_, _, -, -, henc⟩ | ⟨-, -, rfl⟩
        · exact (SnapshotEncoder.encode_fixed henc).2.2.trans ht
        · exact ht) rfl
    have hblank : e.blankInput =
        (SnapshotEncoder.new origin cadence profile firstSeq).blankInput :=
      SnapshotEncoder.blankInput_of_profile hprofile
    rw [← hblank]
    exact ⟨known, hrecv, inStep_of_refs henc hknown⟩
  · cases heq

/-! ### Runs at work -/

/-- An equipped actor that stands still, off-lane. -/
def standing (slot actor : UInt32) (x : Float) : ActorPose where
  slot
  actor
  node := none
  posM := ⟨⟨x.toBits⟩, F64.zero, F64.zero⟩
  headingRad := F64.zero
  speedMps := F64.zero
  accelMps2 := F64.zero
  lane := none
  classIdx := 0
  state := stEquipped
  verifiedNeighbors := 0

/-- A snapshot without signals or causes. -/
def snapshotAt (t : SimTime) (actors : List ActorPose) : Snapshot := ⟨t, actors, [], ∅, ∅⟩

/-- Two actors; one moves and the other jumps; one leaves and a third appears. -/
theorem receiver_tracks_encoder_jump :
    ∃ os e', (producer (.new ⟨F64.zero, F64.zero, F64.zero⟩ .default .full 0)).Steps
      (.new ⟨F64.zero, F64.zero, F64.zero⟩ .default .full 0)
      ([.encode (snapshotAt 0 [standing 0 7 1.5, standing 2 8 3.0]),
        .encode (snapshotAt 100000000 [standing 0 7 1.75, standing 2 8 500.0])] ++
        [.encode (snapshotAt 200000000 [standing 0 7 1.875, standing 1 9 4.0])]) os e' ∧
      ∃ known, receiveAll ∅ (framesOf os) = .ok known ∧
        InStep e' [standing 0 7 1.875, standing 1 9 4.0] known := by
  obtain ⟨e', hrun⟩ := (producer (.new ⟨F64.zero, F64.zero, F64.zero⟩ .default .full 0)).exists_steps
    ([.encode (snapshotAt 0 [standing 0 7 1.5, standing 2 8 3.0]),
        .encode (snapshotAt 100000000 [standing 0 7 1.75, standing 2 8 500.0])] ++
        [.encode (snapshotAt 200000000 [standing 0 7 1.875, standing 1 9 4.0])])
    (.new ⟨F64.zero, F64.zero, F64.zero⟩ .default .full 0) (by decide +kernel)
  refine ⟨_, e', hrun, receiver_tracks_encoder _ _ _ _ hrun fun snap fr hmem a ha => ?_⟩
  have hsnap := (List.of_mem_zip hmem).1
  simp only [List.cons_append, List.nil_append, List.mem_cons, List.not_mem_nil, or_false,
    ProducerOp.encode.injEq] at hsnap
  rcases hsnap with rfl | rfl | rfl <;>
  · simp only [SnapshotEncoder.blankInput, SnapshotEncoder.new, Profile.isNodeOnly, snapshotAt,
      Bool.false_eq_true, if_false, List.mem_cons, List.not_mem_nil, or_false] at ha
    rcases ha with rfl | rfl <;> decide

/-- An actor whose id reads as that of an empty slot: its keyframe has no slot for it. -/
theorem receiver_loses_all_ones_actor :
    ¬ ∀ (origin : Axes F64) (cadence : Cadence) (profile : Profile) (firstSeq : UInt64)
      (ops : List ProducerOp) (snap : Snapshot) (os : List (Option SnapshotFrame))
      (e' : SnapshotEncoder),
      (producer (.new origin cadence profile firstSeq)).Steps
        (.new origin cadence profile firstSeq) (ops ++ [.encode snap]) os e' →
      ∃ known, receiveAll ∅ (framesOf os) = .ok known ∧
        InStep e' ((SnapshotEncoder.new origin cadence profile firstSeq).blankInput snap).actors
          known := by
  intro h
  obtain ⟨e', hrun⟩ := (producer (.new ⟨F64.zero, F64.zero, F64.zero⟩ .default .full 0)).exists_steps
    ([] ++ [.encode (snapshotAt 0 [standing 0 u32None 1.5])])
    (.new ⟨F64.zero, F64.zero, F64.zero⟩ .default .full 0) (by decide +kernel)
  obtain ⟨known, hrecv, hstep⟩ := h _ _ _ _ _ _ _ _ hrun
  have hnone : ((receiveAll ∅ (framesOf ((producer
      (.new ⟨F64.zero, F64.zero, F64.zero⟩ .default .full 0)).trace
        (.new ⟨F64.zero, F64.zero, F64.zero⟩ .default .full 0)
        ([] ++ [.encode (snapshotAt 0 [standing 0 u32None 1.5])])).1)).toOption.bind
          fun known => known[(0 : UInt32)]?) = none := by decide +kernel
  rw [hrecv] at hnone
  obtain ⟨r, hr⟩ := (hstep.slots 0).2 ⟨standing 0 u32None 1.5, List.mem_cons_self, rfl⟩
  exact nomatch hr.symm.trans hnone

end V2xw.Record
