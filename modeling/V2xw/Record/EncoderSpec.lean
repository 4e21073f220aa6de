import Mathlib.Data.List.Sort
import V2xw.Record.Encoder
import V2xw.Record.SnapshotRoundTrip

/-!
# What one step of the encoder does

The loops of the encoder in closed form. A delta treats every occupied slot by itself, from the
reference the slot was transmitted with: what the slot contributes to each block is a function of
that reference and of its target, and so is the reference it leaves. A keyframe has the row of each
occupied slot at the index of the slot.

## Main definitions

* `Target.nextRef` — the reference a slot is left with.
* `movedOf`, `absOf`, `laneOf`, `spawnOf` — what a
  slot contributes to the blocks of a delta.

## Main results

* `DeltaRows.foldl_push` — the loop over the rows of a delta.
* `SnapshotEncoder.deltaBody_refs` — the references after a delta.
* `SnapshotEncoder.deltaBody_correlated` — the blocks of a delta match its row flags.
* `SnapshotEncoder.get_denseRows` — the rows of a keyframe.
* `SnapshotEncoder.encode_cases` — the two ways a step is accepted.
-/

namespace V2xw.Record

open Layout

/-! ## One slot of a delta -/

namespace Target

variable (t : Target) (r : PoseRef)

/-- Whether the lane differs from the transmitted one. -/
def laneChanged : Bool := t.laneId != r.laneId

/-- Whether the slot gets a moved row. -/
def changed : Bool :=
  ((r.step t.xMm t.yMm t.zMm).absolute || (r.step t.xMm t.yMm t.zMm).dMm != ⟨0, 0, 0⟩) ||
    t.laneChanged r || t.state != r.state || t.verifiedNeighbors != r.verifiedNeighbors

/-- The entry of the slot in the absolute block. -/
def absRow : AbsRow := ⟨t.xMm, t.yMm, t.zCm⟩

/-- The row flags of the slot. -/
def mflags : UInt8 :=
  (if (r.step t.xMm t.yMm t.zMm).absolute then mflagAbsolute else 0) |||
    (if t.laneChanged r then mflagLaneChanged else 0)

/-- The moved row of the slot. -/
def movedRow (slot : UInt32) : MovedRow where
  slot
  dxMm := (r.step t.xMm t.yMm t.zMm).dMm.x
  dyMm := (r.step t.xMm t.yMm t.zMm).dMm.y
  dzMm := (r.step t.xMm t.yMm t.zMm).dMm.z
  headingBrad := t.headingBrad
  speedCq := t.speedCq
  accelCq := t.accelCq
  state := t.state
  verifiedNeighbors := t.verifiedNeighbors
  mflags := t.mflags r

/-- The reference a slot is left with, from the one it had. -/
def nextRef : Option PoseRef → PoseRef
  | none => t.poseRef
  | some r =>
    { (r.step t.xMm t.yMm t.zMm).next with
      headingBrad := t.headingBrad
      speedCq := t.speedCq
      accelCq := t.accelCq
      state := t.state
      verifiedNeighbors := t.verifiedNeighbors
      laneId := t.laneId }

end Target

section Blocks

variable (refs : OrdMap UInt32 PoseRef)

/-- The moved row a slot contributes. -/
def movedOf (row : UInt32 × Target) : Option MovedRow :=
  refs[row.1]?.bind fun r => if row.2.changed r then some (row.2.movedRow r row.1) else none

/-- The absolute entry a slot contributes. -/
def absOf (row : UInt32 × Target) : Option AbsRow :=
  refs[row.1]?.bind fun r =>
    if r.escapes row.2.xMm row.2.yMm row.2.zMm then some row.2.absRow else none

/-- The lane entry a slot contributes. -/
def laneOf (row : UInt32 × Target) : Option UInt32 :=
  refs[row.1]?.bind fun r => if row.2.laneChanged r then some row.2.laneId else none

/-- The spawn row a slot contributes. -/
def spawnOf (causes : OrdMap UInt32 UInt16) (row : UInt32 × Target) : Option SpawnRow :=
  match refs[row.1]? with
  | none => some (row.2.spawnRow row.1 (causes[row.1]?.getD u16None))
  | some _ => none

end Blocks

namespace Target

variable {t : Target} {r : PoseRef}

lemma changed_of_escapes (h : r.escapes t.xMm t.yMm t.zMm = true) : t.changed r = true := by
  simp only [changed, PoseRef.step_absolute, h, Bool.true_or]

lemma changed_of_laneChanged (h : t.laneChanged r = true) : t.changed r = true := by
  simp only [changed, h, Bool.or_true, Bool.true_or]

lemma of_not_changed (h : t.changed r = false) :
    r.escapes t.xMm t.yMm t.zMm = false ∧ (t.xMm = r.xMm ∧ t.yMm = r.yMm ∧ t.zMm = r.zMm) ∧
      t.laneId = r.laneId ∧ t.state = r.state ∧ t.verifiedNeighbors = r.verifiedNeighbors := by
  simp only [changed, laneChanged, Bool.or_eq_false_iff, bne_eq_false_iff_eq,
    PoseRef.step_absolute] at h
  obtain ⟨⟨⟨⟨hesc, hd⟩, hlane⟩, hstate⟩, hvn⟩ := h
  exact ⟨hesc, PoseRef.step_unchanged hesc hd, hlane, hstate, hvn⟩

end Target

/-! ## The loop over the rows of a delta -/

lemma filterMap_cons_toList {α β : Type} (g : α → Option β) (x : α) (l : List α) :
    (x :: l).filterMap g = (g x).toList ++ l.filterMap g := by
  cases h : g x <;> simp [h]

namespace DeltaRows

variable (causes : OrdMap UInt32 UInt16)

/-- One slot of the loop. -/
lemma push_eq (acc : DeltaRows) (row : UInt32 × Target) :
    acc.push causes row =
      ⟨acc.refs.insert row.1 (row.2.nextRef acc.refs[row.1]?),
        acc.moved ++ (movedOf acc.refs row).toList, acc.abs ++ (absOf acc.refs row).toList,
        acc.lanes ++ (laneOf acc.refs row).toList,
        acc.spawns ++ (spawnOf acc.refs causes row).toList⟩ := by
  obtain ⟨slot, t⟩ := row
  simp only [push, movedOf, absOf, laneOf, spawnOf]
  cases hr : acc.refs[slot]? with
  | none => simp [Target.nextRef]
  | some r =>
    simp only [Option.bind_some, Option.toList_none, List.append_nil]
    by_cases hc : t.changed r = true
    · rw [if_pos hc, if_pos (by simpa only [Target.changed, Target.laneChanged] using hc)]
      by_cases hesc : r.escapes t.xMm t.yMm t.zMm = true <;>
        by_cases hlane : t.laneChanged r = true <;>
        simp_all [Target.movedRow, Target.mflags, Target.nextRef, Target.laneChanged,
          Target.absRow]
    · have hesc : r.escapes t.xMm t.yMm t.zMm = false :=
        (Target.of_not_changed (Bool.eq_false_iff.2 hc)).1
      have hlane : t.laneChanged r = false :=
        Bool.eq_false_iff.2 fun h => hc (Target.changed_of_laneChanged h)
      rw [if_neg hc, if_neg (by simpa only [Target.changed, Target.laneChanged] using hc), hesc,
        hlane]
      simp [Target.nextRef]

/-- **The loop over the rows of a delta**, when no slot comes twice: each block is gathered from
the contributions of the slots against the references before the loop. -/
theorem foldl_push (rows : List (UInt32 × Target)) :
    ∀ acc : DeltaRows, rows.Pairwise (fun a b => a.1 ≠ b.1) →
      rows.foldl (push causes) acc =
        ⟨rows.foldl (fun m row => m.insert row.1 (row.2.nextRef acc.refs[row.1]?)) acc.refs,
          acc.moved ++ rows.filterMap (movedOf acc.refs),
          acc.abs ++ rows.filterMap (absOf acc.refs),
          acc.lanes ++ rows.filterMap (laneOf acc.refs),
          acc.spawns ++ rows.filterMap (spawnOf acc.refs causes)⟩ := by
  induction rows with
  | nil => intro acc _; simp
  | cons row rows ih =>
    intro acc hrows
    obtain ⟨hrow, hrows⟩ := List.pairwise_cons.1 hrows
    have hother : ∀ row' ∈ rows, (acc.refs.insert row.1
        (row.2.nextRef acc.refs[row.1]?))[row'.1]? = acc.refs[row'.1]? := by
      intro row' hrow'
      rw [OrdMap.get_insert, if_neg (hrow row' hrow')]
    rw [List.foldl_cons, push_eq, ih _ hrows]
    simp only [filterMap_cons_toList, List.append_assoc, List.foldl_cons]
    congr 1
    · refine List.foldl_ext _ _ _ fun m row' hrow' => ?_
      rw [hother row' hrow']
    · congr 2
      exact List.filterMap_congr fun row' h => by simp only [movedOf, hother row' h]
    · congr 2
      exact List.filterMap_congr fun row' h => by simp only [absOf, hother row' h]
    · congr 2
      exact List.filterMap_congr fun row' h => by simp only [laneOf, hother row' h]
    · congr 2
      exact List.filterMap_congr fun row' h => by simp only [spawnOf, hother row' h]

end DeltaRows

/-! ## Row flags -/

lemma Target.mflags_absolute (t : Target) (r : PoseRef) :
    (t.mflags r &&& mflagAbsolute != 0) = r.escapes t.xMm t.yMm t.zMm := by
  rw [mflags, PoseRef.step_absolute]
  cases r.escapes t.xMm t.yMm t.zMm <;> cases t.laneChanged r <;> rfl

lemma Target.mflags_lane (t : Target) (r : PoseRef) :
    (t.mflags r &&& mflagLaneChanged != 0) = t.laneChanged r := by
  rw [mflags, PoseRef.step_absolute]
  cases r.escapes t.xMm t.yMm t.zMm <;> cases t.laneChanged r <;> rfl

/-- Rows that set a flag exactly when they have an entry in a block are as many as the entries. -/
lemma flagged_filterMap {α β : Type} {g : α → Option MovedRow} {k : α → Option β} {flag : UInt8}
    (hnone : ∀ x, g x = none → k x = none)
    (hsome : ∀ x m, g x = some m → (m.mflags &&& flag != 0) = (k x).isSome) (l : List α) :
    DeltaBody.flagged flag (l.filterMap g) = (l.filterMap k).length := by
  induction l with
  | nil => rfl
  | cons x l ih =>
    unfold DeltaBody.flagged at ih ⊢
    cases hg : g x with
    | none =>
      rw [List.filterMap_cons_none hg, List.filterMap_cons_none (hnone x hg)]
      exact ih
    | some m =>
      have hm := hsome x m hg
      cases hk : k x with
      | none =>
        rw [hk, Option.isSome_none] at hm
        rw [List.filterMap_cons_some hg, List.filterMap_cons_none hk,
          List.filter_cons_of_neg (by rw [hm]; exact Bool.false_ne_true)]
        exact ih
      | some b =>
        rw [hk, Option.isSome_some] at hm
        rw [List.filterMap_cons_some hg, List.filterMap_cons_some hk,
          List.filter_cons_of_pos (by exact hm), List.length_cons, List.length_cons, ih]

section Entries

variable {refs : OrdMap UInt32 PoseRef} {row : UInt32 × Target}

lemma absOf_of_movedOf_none (h : movedOf refs row = none) : absOf refs row = none := by
  unfold movedOf at h
  unfold absOf
  cases hr : refs[row.1]? with
  | none => rfl
  | some r =>
    rw [hr, Option.bind_some, ite_eq_right_iff] at h
    rw [Option.bind_some, if_neg]
    exact fun hesc => nomatch h (Target.changed_of_escapes hesc)

lemma laneOf_of_movedOf_none (h : movedOf refs row = none) : laneOf refs row = none := by
  unfold movedOf at h
  unfold laneOf
  cases hr : refs[row.1]? with
  | none => rfl
  | some r =>
    rw [hr, Option.bind_some, ite_eq_right_iff] at h
    rw [Option.bind_some, if_neg]
    exact fun hlane => nomatch h (Target.changed_of_laneChanged hlane)

lemma movedOf_eq_some {m : MovedRow} : movedOf refs row = some m ↔
    ∃ r, refs[row.1]? = some r ∧ row.2.changed r = true ∧ m = row.2.movedRow r row.1 := by
  simp only [movedOf, Option.bind_eq_some_iff, Option.ite_none_right_eq_some, Option.some.injEq]
  simp only [eq_comm]

lemma movedOf_absolute {m : MovedRow} (h : movedOf refs row = some m) :
    (m.mflags &&& mflagAbsolute != 0) = (absOf refs row).isSome := by
  obtain ⟨r, hr, _, rfl⟩ := movedOf_eq_some.1 h
  rw [absOf, hr, Option.bind_some]
  show (row.2.mflags r &&& mflagAbsolute != 0) = _
  rw [Target.mflags_absolute]
  cases r.escapes row.2.xMm row.2.yMm row.2.zMm <;> rfl

lemma movedOf_lane {m : MovedRow} (h : movedOf refs row = some m) :
    (m.mflags &&& mflagLaneChanged != 0) = (laneOf refs row).isSome := by
  obtain ⟨r, hr, _, rfl⟩ := movedOf_eq_some.1 h
  rw [laneOf, hr, Option.bind_some]
  show (row.2.mflags r &&& mflagLaneChanged != 0) = _
  rw [Target.mflags_lane]
  cases row.2.laneChanged r <;> rfl

end Entries

/-! ## Deltas -/

namespace SnapshotEncoder

variable (e : SnapshotEncoder) (snap : Snapshot) (rows : OrdMap UInt32 Target)

/-- The slots a delta releases. -/
def goneSlots : List UInt32 := e.refs.keys.filter fun s => !rows.contains s

lemma mem_goneSlots {s : UInt32} :
    s ∈ e.goneSlots rows ↔ (∃ r, e.refs[s]? = some r) ∧ rows[s]? = none := by
  rw [goneSlots, List.mem_filter, OrdMap.mem_keys, Bool.not_eq_true', OrdMap.contains_eq_false_iff]

/-- The references after the loop over the rows. -/
def loopRefs : OrdMap UInt32 PoseRef :=
  rows.toList.foldl (fun m row => m.insert row.1 (row.2.nextRef e.refs[row.1]?)) e.refs

lemma get_loopRefs (s : UInt32) :
    (e.loopRefs rows)[s]? = (rows[s]?.map fun t => t.nextRef e.refs[s]?).or e.refs[s]? :=
  OrdMap.get_foldl_toList rows (fun row => row.2.nextRef e.refs[row.1]?) e.refs s

lemma loopRefs_gone :
    (e.loopRefs rows).keys.filter (fun s => !rows.contains s) = e.goneSlots rows := by
  refine List.Pairwise.eq_of_mem_iff ((e.loopRefs rows).pairwise_keys.filter _)
    (e.refs.pairwise_keys.filter _) fun s => ?_
  rw [List.mem_filter, OrdMap.mem_keys, Bool.not_eq_true', OrdMap.contains_eq_false_iff,
    mem_goneSlots]
  refine and_congr_left fun hs => ?_
  rw [get_loopRefs, hs, Option.map_none, Option.none_or]

/-- **The body and the state a delta leaves**, in closed form. -/
lemma deltaBody_eq :
    e.deltaBody snap rows =
      ({ simTimeNs := snap.simTime
         gopIndex := if e.gopsEmitted = 0 then 0 else e.gopsEmitted - 1
         stepIndex := e.stepIndex + 1
         moved := rows.toList.filterMap (movedOf e.refs)
         abs := rows.toList.filterMap (absOf e.refs)
         lanes := rows.toList.filterMap (laneOf e.refs)
         spawns := rows.toList.filterMap (spawnOf e.refs snap.spawnCauses)
         despawns := (e.goneSlots rows).map fun s => ⟨s, snap.despawnCauses[s]?.getD u16None⟩
         signals := (changedSignals e.signals snap).2 },
       { e with
         refs := (e.goneSlots rows).foldl (fun m s => m.erase s) (e.loopRefs rows)
         signals := (changedSignals e.signals snap).1
         stepIndex := e.stepIndex + 1
         nextSeq := e.nextSeq + 1 }) := by
  have hloop := DeltaRows.foldl_push snap.spawnCauses rows.toList ⟨e.refs, [], [], [], []⟩
    rows.pairwise_toList
  simp only [List.nil_append] at hloop
  have hgone := e.loopRefs_gone rows
  unfold loopRefs at hgone
  simp only [deltaBody, hloop, hgone]
  rfl

/-- **The references after a delta** are those of the occupied slots. -/
theorem deltaBody_refs (s : UInt32) :
    (e.deltaBody snap rows).2.refs[s]? = rows[s]?.map fun t => t.nextRef e.refs[s]? := by
  rw [deltaBody_eq]
  show ((e.goneSlots rows).foldl (fun m s => m.erase s) (e.loopRefs rows))[s]? = _
  have hgone := e.mem_goneSlots rows (s := s)
  rw [OrdMap.get_foldl_erase, get_loopRefs]
  cases hs : rows[s]? with
  | some t =>
    have hmem : s ∉ e.goneSlots rows := fun h => nomatch hs.symm.trans (hgone.1 h).2
    rw [if_neg hmem, Option.map_some, Option.some_or]
  | none =>
    by_cases hmem : s ∈ e.goneSlots rows
    · rw [if_pos hmem, Option.map_none]
    · have he : e.refs[s]? = none := by
        by_contra h
        exact hmem (hgone.2 ⟨Option.ne_none_iff_exists'.1 h, hs⟩)
      rw [if_neg hmem, he, Option.map_none, Option.none_or]

/-- **The blocks of a delta match its row flags.** -/
theorem deltaBody_correlated : (e.deltaBody snap rows).1.Correlated := by
  rw [deltaBody_eq]
  exact ⟨flagged_filterMap (fun _ => absOf_of_movedOf_none) (fun _ _ => movedOf_absolute) _,
    flagged_filterMap (fun _ => laneOf_of_movedOf_none) (fun _ _ => movedOf_lane) _⟩

/-! ## Keyframes -/

/-- The rows of a loop that writes each entry at the index of its key. -/
lemma getElem?_foldl_set (l : List (UInt32 × Target)) :
    ∀ acc : List ActorRow, l.Pairwise (fun a b => a.1 ≠ b.1) →
      (∀ x ∈ l, x.1.toNat < acc.length →
        (l.foldl (fun acc row => acc.set row.1.toNat row.2.actorRow) acc)[x.1.toNat]? =
          some x.2.actorRow) ∧
      ∀ i, (∀ x ∈ l, x.1.toNat ≠ i) →
        (l.foldl (fun acc row => acc.set row.1.toNat row.2.actorRow) acc)[i]? = acc[i]? := by
  induction l with
  | nil => exact fun acc _ => ⟨fun x hx => absurd hx List.not_mem_nil, fun i _ => rfl⟩
  | cons a l ih =>
    intro acc hl
    obtain ⟨ha, hl⟩ := List.pairwise_cons.1 hl
    obtain ⟨hin, hout⟩ := ih (acc.set a.1.toNat a.2.actorRow) hl
    rw [List.length_set] at hin
    refine ⟨fun x hx hlt => ?_, fun i hi => ?_⟩
    · rcases List.mem_cons.1 hx with rfl | hx
      · rw [List.foldl_cons, hout _ fun y hy h => ha y hy (UInt32.toNat_inj.1 h).symm,
          List.getElem?_set_self hlt]
      · exact hin x hx hlt
    · rw [List.foldl_cons, hout i fun y hy => hi y (List.mem_cons_of_mem _ hy),
        List.getElem?_set_ne (hi a List.mem_cons_self)]

lemma length_foldl_set (l : List (UInt32 × Target)) :
    ∀ acc : List ActorRow,
      (l.foldl (fun acc row => acc.set row.1.toNat row.2.actorRow) acc).length = acc.length := by
  induction l with
  | nil => exact fun _ => rfl
  | cons a l ih => intro acc; rw [List.foldl_cons, ih, List.length_set]

/-- The number of rows of a keyframe: one more than the highest occupied slot. -/
def rowCount : ℕ :=
  match rows.keys.getLast? with
  | none => 0
  | some s => s.toNat + 1

variable {rows} {s : UInt32}

/-- Every occupied slot has a row. -/
lemma lt_rowCount {t : Target} (h : rows[s]? = some t) : s.toNat < rowCount rows := by
  have hmem : s ∈ rows.keys := OrdMap.mem_keys.2 ⟨t, h⟩
  unfold rowCount
  cases hlast : rows.keys.getLast? with
  | none => rw [List.getLast?_eq_none_iff.1 hlast] at hmem; cases hmem
  | some m =>
    obtain ⟨init, hinit⟩ := List.getLast?_eq_some_iff.1 hlast
    have hsorted := rows.pairwise_keys
    rw [hinit] at hmem hsorted
    rcases List.mem_append.1 hmem with hs | hs
    · have hlt : s < m := (List.pairwise_append.1 hsorted).2.2 s hs m List.mem_cons_self
      exact Nat.lt_succ_of_lt (UInt32.lt_iff_toNat_lt.1 hlt)
    · obtain rfl := List.mem_singleton.1 hs
      exact Nat.lt_succ_self _

lemma length_denseRows : (denseRows rows).length = rowCount rows := by
  unfold denseRows
  rw [length_foldl_set, List.length_replicate]
  rfl

/-- **The keyframe row of an occupied slot** stands at the index of the slot. -/
theorem get_denseRows {t : Target} (h : rows[s]? = some t) :
    (denseRows rows)[s.toNat]? = some t.actorRow := by
  unfold denseRows
  refine (getElem?_foldl_set rows.toList _ rows.pairwise_toList).1 (s, t) (OrdMap.mem_toList.2 h) ?_
  rw [List.length_replicate]
  exact lt_rowCount h

lemma get_denseRows_of_none (h : rows[s]? = none) {r : ActorRow}
    (hr : (denseRows rows)[s.toNat]? = some r) : r = ActorRow.empty := by
  unfold denseRows at hr
  rw [(getElem?_foldl_set rows.toList _ rows.pairwise_toList).2 s.toNat] at hr
  · exact List.eq_of_mem_replicate (List.mem_of_getElem? hr)
  · intro x hx hxs
    rw [← UInt32.toNat_inj.1 hxs, OrdMap.mem_toList.1 (show (x.1, x.2) ∈ rows.toList from hx)] at h
    cases h

lemma rowCount_le : rowCount rows ≤ 2 ^ 32 := by
  unfold rowCount
  split
  · exact Nat.zero_le _
  · next m _ => exact m.toNat_lt

/-! ## The rows of a snapshot -/

/-- The loop over the actors succeeds when no slot comes twice, and then inserts every target. -/
lemma foldlM_addRow (origin : Axes F64) (actors : List ActorPose) :
    ∀ out rows : OrdMap UInt32 Target,
      actors.foldlM (addRow origin) out = .ok rows ↔
      (actors.Pairwise fun a b => a.slot ≠ b.slot) ∧ (∀ a ∈ actors, out[a.slot]? = none) ∧
        rows = actors.foldl (fun m a => m.insert a.slot (Target.ofPose origin a)) out := by
  induction actors with
  | nil =>
    intro out rows
    refine ⟨fun h => ⟨List.Pairwise.nil, fun a ha => absurd ha List.not_mem_nil,
      (Except.ok.inj h).symm⟩, ?_⟩
    rintro ⟨-, -, rfl⟩
    rfl
  | cons a actors ih =>
    intro out rows
    cases ha : out[a.slot]? with
    | some t =>
      have herr : (a :: actors).foldlM (addRow origin) out = .error (.malformed "snapshot"
          s!"slot {a.slot} appears twice in one snapshot") := by
        rw [List.foldlM_cons, addRow, ha]
        rfl
      rw [herr]
      refine ⟨fun h => (nomatch h), fun h => ?_⟩
      rw [h.2.1 a List.mem_cons_self] at ha
      cases ha
    | none =>
      have hcons : (a :: actors).foldlM (addRow origin) out =
          actors.foldlM (addRow origin) (out.insert a.slot (Target.ofPose origin a)) := by
        rw [List.foldlM_cons, addRow, ha]
        rfl
      rw [hcons, ih, List.pairwise_cons, List.forall_mem_cons, List.foldl_cons]
      constructor
      · rintro ⟨hpair, hfree, hrows⟩
        refine ⟨⟨fun b hb heq => ?_, hpair⟩, ⟨ha, fun b hb => ?_⟩, hrows⟩
        · have := hfree b hb
          rw [OrdMap.get_insert, if_pos heq] at this
          cases this
        · have := hfree b hb
          rw [OrdMap.get_insert] at this
          split_ifs at this
          exact this
      · rintro ⟨⟨hne, hpair⟩, ⟨-, hfree⟩, hrows⟩
        refine ⟨hpair, fun b hb => ?_, hrows⟩
        rw [OrdMap.get_insert, if_neg (hne b hb)]
        exact hfree b hb

variable {e snap}

/-- **The rows of a snapshot** exist exactly when no slot comes twice. -/
lemma rowsOf_eq_ok : e.rowsOf snap = .ok rows ↔
    (snap.actors.Pairwise fun a b => a.slot ≠ b.slot) ∧
      rows = snap.actors.foldl (fun m a => m.insert a.slot (Target.ofPose e.origin a)) ∅ := by
  unfold rowsOf
  rw [foldlM_addRow]
  simp

/-- The row of a slot is the target of the actor that holds it. -/
lemma rowsOf_get (h : e.rowsOf snap = .ok rows) {t : Target} :
    rows[s]? = some t ↔ ∃ a ∈ snap.actors, a.slot = s ∧ t = Target.ofPose e.origin a := by
  obtain ⟨hpair, rfl⟩ := rowsOf_eq_ok.1 h
  obtain ⟨hin, hout⟩ := OrdMap.get_foldl_insert ActorPose.slot (Target.ofPose e.origin)
    snap.actors ∅ hpair
  constructor
  · intro hs
    by_cases hmem : ∃ a ∈ snap.actors, a.slot = s
    · obtain ⟨a, ha, rfl⟩ := hmem
      rw [hin a ha] at hs
      exact ⟨a, ha, rfl, (Option.some.inj hs).symm⟩
    · rw [hout s fun a ha has => hmem ⟨a, ha, has⟩] at hs
      simp at hs
  · rintro ⟨a, ha, rfl, rfl⟩
    exact hin a ha

/-! ## Accepted steps -/

@[simp]
lemma blankInput_simTime : (e.blankInput snap).simTime = snap.simTime := by
  unfold blankInput
  split_ifs <;> rfl

variable (e snap) in
/-- The state an accepted step leaves, from the one its frame left. -/
def settle (e' : SnapshotEncoder) : SnapshotEncoder :=
  { e' with lastTime := some snap.simTime, forceKeyframe := false }

/-- **The two ways a step is accepted**: as a keyframe or as a delta, of the rows of the blanked
snapshot, in a frame its body fits. -/
theorem encode_cases {f : SnapshotFrame} {e' : SnapshotEncoder}
    (h : e.encode snap = (.ok f, e')) :
    ∃ rows, e.checkTime snap.simTime = .ok () ∧ e.rowsOf (e.blankInput snap) = .ok rows ∧
      ((e.wantKeyframe snap.simTime = true ∧
        (∃ fr, (e.keyframeBody (e.blankInput snap) rows).1.toFrame e.nextSeq
          (e.profile.frameFlag ||| flagResync) = .ok fr ∧ f = .keyframe fr) ∧
        e' = settle snap (e.keyframeBody (e.blankInput snap) rows).2) ∨
      (e.wantKeyframe snap.simTime = false ∧
        (∃ fr, (e.deltaBody (e.blankInput snap) rows).1.toFrame e.nextSeq e.profile.frameFlag =
          .ok fr ∧ f = .delta fr) ∧
        e' = settle snap (e.deltaBody (e.blankInput snap) rows).2)) := by
  unfold encode at h
  cases ht : e.checkTime snap.simTime with
  | error err => rw [ht] at h; cases h
  | ok u =>
    cases hr : e.rowsOf (e.blankInput snap) with
    | error err => rw [ht] at h; simp only [hr] at h; cases h
    | ok rows =>
      refine ⟨rows, rfl, rfl, ?_⟩
      rw [ht] at h
      simp only [hr, blankInput_simTime] at h
      cases hk : e.wantKeyframe snap.simTime with
      | true =>
        refine Or.inl ⟨rfl, ?_⟩
        simp only [hk, if_true, encodeKeyframe] at h
        cases hf : (e.keyframeBody (e.blankInput snap) rows).1.toFrame e.nextSeq
            (e.profile.frameFlag ||| flagResync) with
        | error err => rw [hf] at h; cases h
        | ok fr =>
          rw [hf] at h
          obtain ⟨hfr, rfl⟩ := Prod.mk.inj h
          exact ⟨⟨fr, rfl, (Except.ok.inj hfr).symm⟩, rfl⟩
      | false =>
        refine Or.inr ⟨rfl, ?_⟩
        simp only [hk, Bool.false_eq_true, if_false, encodeDelta] at h
        cases hf : (e.deltaBody (e.blankInput snap) rows).1.toFrame e.nextSeq
            e.profile.frameFlag with
        | error err => rw [hf] at h; cases h
        | ok fr =>
          rw [hf] at h
          obtain ⟨hfr, rfl⟩ := Prod.mk.inj h
          exact ⟨⟨fr, rfl, (Except.ok.inj hfr).symm⟩, rfl⟩

lemma encode_keyframe {rows : OrdMap UInt32 Target} {fr : Frame}
    (ht : e.checkTime snap.simTime = .ok ()) (hr : e.rowsOf (e.blankInput snap) = .ok rows)
    (hk : e.wantKeyframe snap.simTime = true)
    (hf : (e.keyframeBody (e.blankInput snap) rows).1.toFrame e.nextSeq
      (e.profile.frameFlag ||| flagResync) = .ok fr) :
    e.encode snap = (.ok (.keyframe fr),
        settle snap (e.keyframeBody (e.blankInput snap) rows).2) := by
  unfold encode
  simp only [ht, hr, blankInput_simTime, hk, if_true, encodeKeyframe, hf]
  rfl

/-- **The references after an accepted step**: those of the occupied slots, a keyframe starting
each one over. -/
lemma encode_refs {f : SnapshotFrame} {e' : SnapshotEncoder}
    (h : e.encode snap = (.ok f, e')) :
    ∃ rows, e.rowsOf (e.blankInput snap) = .ok rows ∧ ∀ s : UInt32,
      e'.refs[s]? = rows[s]?.map fun t =>
        t.nextRef (if e.wantKeyframe snap.simTime then none else e.refs[s]?) := by
  obtain ⟨rows, _, hrows, ⟨hk, _, rfl⟩ | ⟨hk, _, rfl⟩⟩ := encode_cases h
  · refine ⟨rows, hrows, fun s => ?_⟩
    rw [hk]
    show (Std.ExtTreeMap.map (fun _ t => t.poseRef) rows)[s]? = _
    rw [Std.ExtTreeMap.getElem?_map]
    rfl
  · refine ⟨rows, hrows, fun s => ?_⟩
    rw [hk]
    exact e.deltaBody_refs (e.blankInput snap) rows s

lemma encode_fixed {f : SnapshotFrame} {e' : SnapshotEncoder}
    (h : e.encode snap = (.ok f, e')) :
    e'.origin = e.origin ∧ e'.cadence = e.cadence ∧ e'.profile = e.profile := by
  obtain ⟨rows, _, _, ⟨_, _, rfl⟩ | ⟨_, _, rfl⟩⟩ := encode_cases h <;> exact ⟨rfl, rfl, rfl⟩

lemma blankInput_of_profile {e₁ e₂ : SnapshotEncoder} (h : e₁.profile = e₂.profile) :
    e₁.blankInput = e₂.blankInput := by
  funext snap
  unfold blankInput
  rw [h]

end SnapshotEncoder

end V2xw.Record
