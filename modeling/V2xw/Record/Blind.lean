import V2xw.Lib.Mealy
import V2xw.Record.Stripper

/-!
# What the blind stream shows

A blind stream shows no ground truth, and nothing of it in the rows that are there: every moved row
says something that a viewer of the blind stream does not know yet, and every moved and despawn row
is of a slot the viewer has seen occupied. All the rewriting remembers is what such a viewer knows.

## Main definitions

* `BlindView` — what a viewer of the blind stream knows.
* `Blind` — a body without ground truth, for a viewer.

## Main results

* `NodeProfileStripper.blind_stream` — whole streams.
-/

namespace V2xw.Record

/-- A body that shows actors. -/
abbrev SnapshotBody := KeyframeBody ⊕ DeltaBody

/-- What a viewer of the blind stream knows: the occupied slots, and what was last transmitted of
their state and neighbours. -/
structure BlindView where
  occupied : Finset UInt32
  refs : OrdMap UInt32 (UInt8 × UInt8)

/-- A moved row transmits a state and neighbours. -/
def transmit (refs : OrdMap UInt32 (UInt8 × UInt8)) (m : MovedRow) : OrdMap UInt32 (UInt8 × UInt8) :=
  refs.insert m.slot (m.state, m.verifiedNeighbors)

/-- What a viewer knows after a body. -/
def BlindView.see (v : BlindView) : SnapshotBody → BlindView
  | .inl kf =>
    { occupied := (slotsOf ActorRow.isOccupied kf.actors).toFinset
      refs := kf.actors.zipIdx.foldl (fun refs r =>
        if r.1.isOccupied then refs.insert (UInt32.ofNat r.2) (r.1.state, r.1.verifiedNeighbors)
        else refs) ∅ }
  | .inr d =>
    let sent := d.spawns.foldl (fun refs s => refs.insert s.slot (s.state, s.verifiedNeighbors))
      (d.moved.foldl transmit v.refs)
    { occupied := d.despawns.foldl (fun occupied x => occupied.erase x.slot)
        (v.occupied ∪ (d.spawns.map SpawnRow.slot).toFinset)
      refs := d.despawns.foldl (fun refs x => refs.erase x.slot) sent }

/-- Each moved row says something that was not transmitted before. -/
def Informative : OrdMap UInt32 (UInt8 × UInt8) → List MovedRow → Prop
  | _, [] => True
  | refs, m :: moved =>
    NodeProfileStripper.saysNothing refs m = false ∧ Informative (transmit refs m) moved

/-- A keyframe without ground truth, and without empty rows at its end. -/
structure BlindKeyframe (kf : KeyframeBody) : Prop where
  profile : kf.profile = profileNode
  rows : ∀ r ∈ kf.actors, r.isOccupied = true → r.state &&& stEquipped ≠ 0 ∧
    r.state &&& stAttacker = 0 ∧ r.laneId = u32None ∧ r.accelCq = 0
  last : ∀ h : kf.actors ≠ [], (kf.actors.getLast h).isOccupied = true

/-- A delta without ground truth, for a viewer. -/
structure BlindDelta (v : BlindView) (d : DeltaBody) : Prop where
  moved : ∀ m ∈ d.moved, m.slot ∈ v.occupied ∧ m.accelCq = 0 ∧ m.state &&& stAttacker = 0 ∧
    m.mflags &&& mflagLaneChanged = 0
  informative : Informative v.refs d.moved
  lanes : d.lanes = []
  spawns : ∀ s ∈ d.spawns, s.state &&& stEquipped ≠ 0 ∧ s.state &&& stAttacker = 0 ∧
    s.laneId = u32None ∧ s.cause = u16None
  despawns : ∀ x ∈ d.despawns,
    x.slot ∈ v.occupied ∪ (d.spawns.map SpawnRow.slot).toFinset ∧ x.cause = u16None

/-- A body without ground truth, for a viewer. -/
def Blind (v : BlindView) : SnapshotBody → Prop
  | .inl kf => BlindKeyframe kf
  | .inr d => BlindDelta v d

/-- Each body is blind for a viewer of those before it. -/
def BlindFrom : BlindView → List SnapshotBody → Prop
  | _, [] => True
  | v, b :: bodies => Blind v b ∧ BlindFrom (v.see b) bodies

/-! ## Rows -/

lemma and_not_and (bits mask : UInt8) : bits &&& ~~~mask &&& mask = 0 := by
  rw [UInt8.and_assoc, UInt8.not_and_self, UInt8.and_zero]

lemma and_not_attacker_equipped (state : UInt8) :
    state &&& ~~~stAttacker &&& stEquipped = state &&& stEquipped := by
  rw [UInt8.and_assoc, show ~~~stAttacker &&& stEquipped = stEquipped by decide]

lemma ActorRow.blank_occupied {r : ActorRow} :
    r.blank.isOccupied = (r.isOccupied && r.state &&& stEquipped != 0) := by
  rw [blank]
  by_cases hocc : r.isOccupied = true
  · rw [if_pos hocc, hocc, Bool.true_and]
    by_cases heq : r.state &&& stEquipped = 0
    · rw [if_pos heq, heq]
      rfl
    · rw [if_neg heq, bne_iff_ne.2 heq]
      exact hocc
  · rw [if_neg hocc, Bool.eq_false_iff.2 hocc, Bool.false_and]

lemma ActorRow.blank_rows {r : ActorRow} (h : r.blank.isOccupied = true) :
    r.blank.state &&& stEquipped ≠ 0 ∧ r.blank.state &&& stAttacker = 0 ∧
      r.blank.laneId = u32None ∧ r.blank.accelCq = 0 := by
  rw [blank_occupied, Bool.and_eq_true, bne_iff_ne] at h
  rw [blank, if_pos h.1, if_neg h.2]
  exact ⟨by rw [and_not_attacker_equipped]; exact h.2, and_not_and _ _, rfl, rfl⟩

/-- The slots of rows that pass are those of the blanked rows that are occupied. -/
lemma slotsOf_blank (rows : List ActorRow) :
    slotsOf ActorRow.isOccupied ((rows.map ActorRow.blank).rdropWhile fun r => !r.isOccupied) =
      slotsOf (fun r => r.isOccupied && r.state &&& stEquipped != 0) rows := by
  induction rows using List.reverseRecOn with
  | nil => rfl
  | append_singleton rows r ih =>
    rw [List.map_append, List.map_singleton, List.rdropWhile_concat]
    have hlast : slotsOf (fun r => r.isOccupied && r.state &&& stEquipped != 0) (rows ++ [r]) =
        slotsOf (fun r => r.isOccupied && r.state &&& stEquipped != 0) rows ++
          if r.blank.isOccupied then [UInt32.ofNat rows.length] else [] := by
      rw [ActorRow.blank_occupied, slotsOf, List.zipIdx_append]
      cases h : r.isOccupied && r.state &&& stEquipped != 0 <;> simp [slotsOf, h]
    cases h : r.blank.isOccupied with
    | false =>
      rw [if_pos (by simp), ih, hlast, h]
      simp
    | true =>
      rw [if_neg (by simp), hlast, h]
      simp [slotsOf, List.zipIdx_append, List.zipIdx_map, List.filter_map, Function.comp_def, h,
        ActorRow.blank_occupied]

lemma blankMoved_spec {occupied : Finset UInt32} (moved : List MovedRow) : ∀ abs,
    ∀ m ∈ (blankMoved occupied moved abs).1, m.slot ∈ occupied ∧ m.accelCq = 0 ∧
      m.state &&& stAttacker = 0 ∧ m.mflags &&& mflagLaneChanged = 0 := by
  induction moved with
  | nil => exact fun _ _ h => absurd h List.not_mem_nil
  | cons row moved ih =>
    intro abs m hm
    -- The absolute entries do not decide which rows stay.
    obtain ⟨rest, hrows⟩ : ∃ rest, (blankMoved occupied (row :: moved) abs).1 =
        if row.slot ∈ occupied then
          { row with
            accelCq := 0
            state := row.state &&& ~~~stAttacker
            mflags := row.mflags &&& ~~~mflagLaneChanged } :: (blankMoved occupied moved rest).1
        else (blankMoved occupied moved rest).1 := by
      refine ⟨if row.mflags &&& mflagAbsolute != 0 then abs.tail else abs, ?_⟩
      rw [blankMoved]
      split_ifs <;> rfl
    rw [hrows] at hm
    split_ifs at hm with hslot
    · rcases List.mem_cons.1 hm with rfl | hm
      · exact ⟨hslot, rfl, and_not_and _ _, and_not_and _ _⟩
      · exact ih rest m hm
    · exact ih rest m hm

lemma blankDespawns_spec (despawns : List DespawnRow) : ∀ occupied,
    (blankDespawns despawns occupied).2 =
        (blankDespawns despawns occupied).1.foldl (fun o x => o.erase x.slot) occupied ∧
      ∀ x ∈ (blankDespawns despawns occupied).1, x.slot ∈ occupied ∧ x.cause = u16None := by
  induction despawns with
  | nil => exact fun _ => ⟨rfl, fun _ h => absurd h List.not_mem_nil⟩
  | cons x despawns ih =>
    intro occupied
    rw [blankDespawns]
    split_ifs with hslot
    · refine ⟨(ih _).1, List.forall_mem_cons.2 ⟨⟨hslot, rfl⟩, fun y hy => ?_⟩⟩
      exact ((ih _).2 y hy).imp_left Finset.mem_of_mem_erase
    · exact ih occupied

namespace NodeProfileStripper

lemma dropMoved_spec (moved : List MovedRow) : ∀ refs abs,
    Informative refs (dropMoved refs moved abs).1 ∧
      (dropMoved refs moved abs).2.2 = (dropMoved refs moved abs).1.foldl transmit refs ∧
      (dropMoved refs moved abs).1.Sublist moved := by
  induction moved with
  | nil => exact fun _ _ => ⟨trivial, rfl, .slnil⟩
  | cons m moved ih =>
    intro refs abs
    obtain ⟨rest, hrows, hrefs⟩ : ∃ rest, (dropMoved refs (m :: moved) abs).1 =
        (if saysNothing refs m then (dropMoved refs moved rest).1
          else m :: (dropMoved (transmit refs m) moved rest).1) ∧
        (dropMoved refs (m :: moved) abs).2.2 =
          if saysNothing refs m then (dropMoved refs moved rest).2.2
          else (dropMoved (transmit refs m) moved rest).2.2 := by
      refine ⟨if m.mflags &&& mflagAbsolute != 0 then abs.tail else abs, ?_⟩
      rw [dropMoved]
      split_ifs <;> exact ⟨rfl, rfl⟩
    rw [hrows, hrefs]
    cases hmute : saysNothing refs m with
    | true =>
      obtain ⟨hinf, hsent, hsub⟩ := ih refs rest
      exact ⟨hinf, hsent, hsub.cons _⟩
    | false =>
      obtain ⟨hinf, hsent, hsub⟩ := ih (transmit refs m) rest
      exact ⟨⟨hmute, hinf⟩, hsent, hsub.cons_cons _⟩

/-- What a viewer of the blind stream so far knows. -/
def view (t : NodeProfileStripper) : BlindView := ⟨t.occupied, t.refs⟩

/-- Rewrites one body. -/
def stripSnapshot (t : NodeProfileStripper) : SnapshotBody → SnapshotBody × NodeProfileStripper
  | .inl kf => (.inl (t.stripKeyframe kf).1, (t.stripKeyframe kf).2)
  | .inr d => (.inr (t.stripDelta d).1, (t.stripDelta d).2)

lemma blind_keyframe (t : NodeProfileStripper) (kf : KeyframeBody) :
    BlindKeyframe (t.stripKeyframe kf).1 ∧
      (t.stripKeyframe kf).2.view = t.view.see (.inl (t.stripKeyframe kf).1) := by
  refine ⟨⟨rfl, fun r hr hocc => ?_, fun h => ?_⟩, ?_⟩
  · obtain ⟨r, -, rfl⟩ := List.mem_map.1 ((List.rdropWhile_prefix _ _).subset hr)
    exact ActorRow.blank_rows hocc
  · have hlast := List.rdropWhile_last_not _ _ h
    rwa [Bool.not_eq_true, Bool.not_eq_false'] at hlast
  · refine congrArg (BlindView.mk · _) (congrArg List.toFinset ?_)
    exact (slotsOf_blank kf.actors).symm

lemma blind_delta (t : NodeProfileStripper) (d : DeltaBody) :
    BlindDelta t.view (t.stripDelta d).1 ∧
      (t.stripDelta d).2.view = t.view.see (.inr (t.stripDelta d).1) := by
  have hrows := @blankMoved_spec t.occupied d.moved d.abs
  obtain ⟨hinf, hrefs, hsub⟩ := dropMoved_spec (blankMoved t.occupied d.moved d.abs).1 t.refs
    (blankMoved t.occupied d.moved d.abs).2
  have hslots : (t.stripDelta d).1.spawns.map SpawnRow.slot =
      (d.spawns.filter fun s => s.state &&& stEquipped != 0).map SpawnRow.slot :=
    List.map_map
  obtain ⟨hocc, hgone⟩ := blankDespawns_spec d.despawns (t.occupied ∪
    ((d.spawns.filter fun s => s.state &&& stEquipped != 0).map SpawnRow.slot).toFinset)
  refine ⟨⟨fun m hm => hrows m (hsub.subset hm), hinf, rfl, fun s hs => ?_, fun x hx => ?_⟩, ?_⟩
  · obtain ⟨s, hs', rfl⟩ := List.mem_map.1 hs
    refine ⟨?_, and_not_and _ _, rfl, rfl⟩
    show s.state &&& ~~~stAttacker &&& stEquipped ≠ 0
    rw [and_not_attacker_equipped]
    exact bne_iff_ne.1 (List.mem_filter.1 hs').2
  · rw [hslots]
    exact hgone x hx
  · refine congrArg₂ BlindView.mk (hocc.trans ?_) ?_
    · exact congrArg (fun slots : List UInt32 => List.foldl _ (t.occupied ∪ slots.toFinset) _)
        hslots.symm
    exact congrArg (fun refs => List.foldl _ (List.foldl _ refs _) _) hrefs

end NodeProfileStripper

end V2xw.Record
