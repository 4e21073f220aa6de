import V2xw.Client.Columns

/-!
# A delta is applied as a whole

A delta that throws, or that the buffer refuses, leaves the buffer as it was: the checks only read,
and the loops behind them do not throw. A delta that is applied writes every row of its blocks once,
and in a slot that there is. A moved row that announces an entry of a side block finds it: the rows
that announce one take the entries in their order.

## Main definitions

* `Client.changes` — the rows of a delta, with the entries they take.
* `Client.PoseColumns.Applied` — the buffer after a delta that is applied.

## Main results

* `Client.PoseColumns.cleanAt_applyDelta` — a delta that throws leaves nothing behind.
* `Client.PoseColumns.applied_written` — what the loops write.
* `Client.PoseColumns.applyDelta_toPoseBuffer` — the delta without the derived columns.
* `Client.PoseColumns.applyDelta_allOrNothing` — a delta behind any calls.
-/

namespace V2xw.Client

open Record Stream Proc

/-! ## Rows of a delta -/

/-- A row of a delta, with the entries it takes of the side blocks. -/
inductive RowChange
  | spawned (sp : SpawnRow)
  | moved (m : MovedRow) (abs : Option AbsRow) (lane : Option UInt32)
  | despawned (dp : DespawnRow)

namespace RowChange

/-- The slot the row names. -/
def slot : RowChange → ℕ
  | spawned sp => sp.slot.toNat
  | moved m _ _ => m.slot.toNat
  | despawned dp => dp.slot.toNat

/-- What the row makes of its slot. -/
def apply (origin : Axes F64) : RowChange → PoseSlot → PoseSlot
  | spawned sp, p => { p with row := .ofSpawnRow sp }.refresh origin
  | moved m abs lane, p => { p with row := p.row.move m abs lane }.refresh origin
  | despawned _, p =>
    { p with row := { p.row with occupied := false, actorId := u32None, laneId := u32None } }

/-- What the row makes of the height of its slot, in millimetres: centimetres by ten where it is
absolute, and a displacement in millimetres. -/
def heightMm : RowChange → ℤ → ℤ
  | spawned sp, _ => 10 * sp.zCm.toInt
  | moved _ (some a) _, _ => 10 * a.zCm.toInt
  | moved m none _, z => z + m.dzMm.toInt
  | despawned _, z => z

end RowChange

/-- The entry of a block for the moved row at `i`: the `n`-th of the rows that announce one has the
`n`-th entry. -/
def entryAt {α : Type} (block : List α) (flag : UInt8) (moved : List MovedRow) (i : ℕ)
    (m : MovedRow) : Option α :=
  if PoseColumns.announces flag m then block[(moved.take i).countP (PoseColumns.announces flag)]?
  else none

/-- The rows of a delta in the order they are applied in. -/
def changes (d : DeltaBody) : List RowChange :=
  d.spawns.map .spawned ++
    d.moved.mapIdx (fun i m => .moved m (entryAt d.abs mflagAbsolute d.moved i m)
      (entryAt d.lanes mflagLaneChanged d.moved i m)) ++
    d.despawns.map .despawned

/-- The rows of a delta that name a slot. -/
def changesOf (d : DeltaBody) (s : ℕ) : List RowChange := (changes d).filter fun c => c.slot = s

/-! ## Edits of a column -/

section Edits

variable {α ι : Type} {empty : α} {slot : ι → ℕ} {f : ι → α → α}

lemma length_foldl_modify (edits : List ι) : ∀ column : List α,
    (edits.foldl (fun column c => column.modify (slot c) (f c)) column).length = column.length := by
  induction edits with
  | nil => exact fun _ => rfl
  | cons c edits ih =>
    intro column
    rw [List.foldl_cons, ih, List.length_modify]

/-- **Edits of a column.** An entry is edited by the edits of its own index, in their order. -/
lemma getD_foldl_modify {s : ℕ} (edits : List ι) : ∀ column : List α, s < column.length →
    (edits.foldl (fun column c => column.modify (slot c) (f c)) column).getD s empty =
      (edits.filter fun c => slot c = s).foldl (fun p c => f c p) (column.getD s empty) := by
  induction edits with
  | nil => exact fun _ _ => rfl
  | cons c edits ih =>
    intro column hs
    rw [List.foldl_cons, ih _ (by rwa [List.length_modify]), getD_modify]
    by_cases hc : slot c = s
    · rw [List.filter_cons_of_pos (by simpa using hc), List.foldl_cons, if_pos ⟨hc.symm, hc ▸ hs⟩]
    · rw [List.filter_cons_of_neg (by simpa using hc), if_neg fun h => hc h.1.symm]

end Edits

namespace PoseColumns

variable {b b' : PoseColumns} {d : DeltaBody}

/-- What the buffer holds of a slot, nothing beyond its capacity. -/
def slotAt (b : PoseColumns) (s : ℕ) : PoseSlot := b.slots.getD s PoseSlot.empty

/-! ## The checks -/

lemma readOnly_checkSlot (what : String) (slot : UInt32) : ReadOnly (checkSlot what slot) :=
  ReadOnly.get.bind fun _ => (ReadOnly.pure ()).guard

lemma readOnly_checkSpawns (spawns : List SpawnRow) :
    ∀ growTo, ReadOnly (checkSpawns spawns growTo) := by
  induction spawns with
  | nil => exact fun growTo => .pure growTo
  | cons sp spawns ih => exact fun growTo => (readOnly_checkSlot _ _).bind fun _ => ih _

lemma readOnly_checkMoved (bound : ℕ) (m : MovedRow) : ReadOnly (checkMoved bound m) :=
  (readOnly_checkSlot _ _).bind fun _ => (ReadOnly.pure ()).guard

lemma readOnly_checkMovedRows (bound : ℕ) (moved : List MovedRow) :
    ∀ absNeeded laneNeeded, ReadOnly (checkMovedRows bound moved absNeeded laneNeeded) := by
  induction moved with
  | nil => exact fun absNeeded laneNeeded => .pure (absNeeded, laneNeeded)
  | cons m moved ih =>
    exact fun absNeeded laneNeeded => (readOnly_checkMoved bound m).bind fun _ => ih _ _

lemma readOnly_validate (d : DeltaBody) : ReadOnly (validate d) := by
  refine (readOnly_checkSpawns _ _).bind fun growTo => ReadOnly.get.bind fun b =>
    (readOnly_checkMovedRows _ _ _ _).bind fun needed => ?_
  exact (ReadOnly.pure ()).guard.guard

/-! ## The loops -/

lemma neverFails_spawnRows (spawns : List SpawnRow) : NeverFails (spawnRows spawns) := by
  induction spawns with
  | nil => exact .pure ()
  | cons sp spawns ih =>
    exact (NeverFails.modify _).bind fun _ => (NeverFails.modify _).bind fun _ =>
      (NeverFails.modify _).bind fun _ => (NeverFails.modify _).bind fun _ => ih

lemma neverFails_place (abs : List AbsRow) (m : MovedRow) (absCursor : ℕ) :
    NeverFails (place abs m absCursor) := by
  unfold place
  split_ifs <;> exact (NeverFails.modify _).bind fun _ => .pure _

lemma neverFails_changeLane (lanes : List UInt32) (m : MovedRow) (laneCursor : ℕ) :
    NeverFails (changeLane lanes m laneCursor) := by
  unfold changeLane
  split_ifs
  · exact (NeverFails.modify _).bind fun _ => .pure _
  · exact .pure _

lemma neverFails_moveRows (abs : List AbsRow) (lanes : List UInt32) (moved : List MovedRow) :
    ∀ absCursor laneCursor, NeverFails (moveRows abs lanes moved absCursor laneCursor) := by
  induction moved with
  | nil => exact fun _ _ => .pure ()
  | cons m moved ih =>
    exact fun absCursor laneCursor => (neverFails_place abs m absCursor).bind fun _ =>
      (neverFails_changeLane lanes m laneCursor).bind fun _ => (NeverFails.modify _).bind fun _ =>
        (NeverFails.modify _).bind fun _ => ih _ _

lemma neverFails_despawnRows (despawns : List DespawnRow) :
    NeverFails (despawnRows despawns) := by
  induction despawns with
  | nil => exact .pure ()
  | cons dp despawns ih => exact (NeverFails.modify _).bind fun _ => ih

/-- **A delta that throws** leaves nothing behind. -/
theorem cleanAt_applyDelta (d : DeltaBody) (b : PoseColumns) : CleanAt (applyDelta d) b := by
  refine ReadOnly.get.cleanAt_bind fun b' => ?_
  split_ifs
  iterate 3 exact (NeverFails.pure _).cleanAt b
  refine (readOnly_validate d).cleanAt_bind fun _ => NeverFails.cleanAt ?_ b
  exact (neverFails_spawnRows _).bind fun _ => (neverFails_moveRows _ _ _ _ _).bind fun _ =>
    (neverFails_despawnRows _).bind fun _ => (NeverFails.modify _).bind fun _ => .pure _

/-! ## What the checks leave over -/

/-- A delta that the checks let pass. -/
structure Valid (b : PoseColumns) (d : DeltaBody) : Prop where
  spawns : ∀ sp ∈ d.spawns, sp.slot.toNat < b.slotLimit
  moved : ∀ m ∈ d.moved, m.slot.toNat < max b.capacity (PoseBuffer.growTo d)
  abs : d.moved.countP (announces mflagAbsolute) ≤ d.abs.length
  lanes : d.moved.countP (announces mflagLaneChanged) ≤ d.lanes.length

lemma exec_guard_eq_ok {p : Prop} [Decidable p] {e : ProtocolError} {u : Unit} :
    (if p then throw e else pure () : Proc PoseColumns ProtocolError Unit).exec b = (.ok u, b') ↔
      ¬ p ∧ b = b' := by
  by_cases hp : p
  · rw [if_pos hp]
    simp [hp]
  · rw [if_neg hp]
    simp [hp]

lemma lt_slotLimit_of_checkSlot {what : String} {slot : UInt32} {u : Unit}
    (h : (checkSlot what slot).exec b = (.ok u, b')) : slot.toNat < b.slotLimit := by
  obtain ⟨_, hget, h⟩ := ReadOnly.get.exec_bind_eq_ok.1 h
  cases hget
  exact Nat.lt_of_not_le (exec_guard_eq_ok.1 h).1

lemma of_checkSpawns {spawns : List SpawnRow} : ∀ {growTo n : ℕ},
    (checkSpawns spawns growTo).exec b = (.ok n, b') →
      n = spawns.foldl (fun n sp => max n (sp.slot.toNat + 1)) growTo ∧
        ∀ sp ∈ spawns, sp.slot.toNat < b.slotLimit := by
  induction spawns with
  | nil =>
    intro growTo n h
    cases h
    exact ⟨rfl, fun _ h => absurd h List.not_mem_nil⟩
  | cons sp spawns ih =>
    intro growTo n h
    obtain ⟨_, hslot, h⟩ := (readOnly_checkSlot _ _).exec_bind_eq_ok.1 h
    obtain ⟨hn, hspawns⟩ := ih h
    exact ⟨hn, List.forall_mem_cons.2 ⟨lt_slotLimit_of_checkSlot hslot, hspawns⟩⟩

lemma countP_announces_cons (flag : UInt8) (m : MovedRow) (moved : List MovedRow) :
    (m :: moved).countP (announces flag) =
      moved.countP (announces flag) + (announces flag m).toNat := by
  rw [List.countP_cons]
  cases announces flag m <;> rfl

lemma of_checkMovedRows {bound : ℕ} {moved : List MovedRow} :
    ∀ {absNeeded laneNeeded : ℕ} {needed : ℕ × ℕ},
      (checkMovedRows bound moved absNeeded laneNeeded).exec b = (.ok needed, b') →
        needed.1 = moved.countP (announces mflagAbsolute) + absNeeded ∧
          needed.2 = moved.countP (announces mflagLaneChanged) + laneNeeded ∧
            ∀ m ∈ moved, m.slot.toNat < bound := by
  induction moved with
  | nil =>
    intro absNeeded laneNeeded needed h
    cases h
    exact ⟨(Nat.zero_add _).symm, (Nat.zero_add _).symm, fun _ h => absurd h List.not_mem_nil⟩
  | cons m moved ih =>
    intro absNeeded laneNeeded needed h
    obtain ⟨_, hm, h⟩ := (readOnly_checkMoved _ _).exec_bind_eq_ok.1 h
    obtain ⟨_, _, hm⟩ := (readOnly_checkSlot _ _).exec_bind_eq_ok.1 hm
    obtain ⟨habs, hlane, hmoved⟩ := ih h
    refine ⟨?_, ?_, List.forall_mem_cons.2 ⟨Nat.lt_of_not_le (exec_guard_eq_ok.1 hm).1, hmoved⟩⟩
    · rw [habs, countP_announces_cons]
      omega
    · rw [hlane, countP_announces_cons]
      omega

lemma valid_of_validate {u : Unit} (h : (validate d).exec b = (.ok u, b')) : b.Valid d := by
  obtain ⟨growTo, hspawns, h⟩ := (readOnly_checkSpawns _ _).exec_bind_eq_ok.1 h
  obtain ⟨_, hget, h⟩ := ReadOnly.get.exec_bind_eq_ok.1 h
  cases hget
  obtain ⟨needed, hneeded, h⟩ := (readOnly_checkMovedRows _ _ _ _).exec_bind_eq_ok.1 h
  obtain ⟨hgrow, hspawns⟩ := of_checkSpawns hspawns
  obtain ⟨habs, hlane, hmoved⟩ := of_checkMovedRows hneeded
  by_cases hshort : d.abs.length < needed.1
  · rw [if_pos hshort] at h
    cases h
  rw [if_neg hshort] at h
  have hlanes := (exec_guard_eq_ok.1 h).1
  refine ⟨hspawns, fun m hm => ?_, by omega, by omega⟩
  have hgrow' : growTo = PoseBuffer.growTo d := hgrow
  rw [← hgrow']
  exact hmoved m hm

/-! ## What the loops write -/

/-- A slot edited by a row. -/
def edit (origin : Axes F64) (slots : List PoseSlot) (c : RowChange) : List PoseSlot :=
  slots.modify c.slot (c.apply origin)

/-- The buffer after a spawned row. -/
def spawn (b : PoseColumns) (sp : SpawnRow) : PoseColumns :=
  { b with
    slots := edit b.origin (grow PoseSlot.empty b.slots (sp.slot.toNat + 1)) (.spawned sp)
    count := max b.count (sp.slot.toNat + 1) }

lemma exec_spawnRows (spawns : List SpawnRow) : ∀ b : PoseColumns,
    (spawnRows spawns).exec b = (.ok (), spawns.foldl spawn b) := by
  induction spawns with
  | nil => exact fun _ => rfl
  | cons sp spawns ih =>
    intro b
    rw [spawnRows, write, refresh, exec_bind_of_ok (exec_modify _ _),
      exec_bind_of_ok (exec_modify _ _), exec_bind_of_ok (exec_modify _ _),
      exec_bind_of_ok (exec_modify _ _), ih, List.foldl_cons]
    refine congrArg (fun b => (Except.ok (), spawns.foldl spawn b)) ?_
    refine congrArg (fun slots => ({ b with
      slots := slots
      count := max b.count (sp.slot.toNat + 1) } : PoseColumns)) ?_
    exact List.modify_modify_eq _ _ _ _

lemma exec_despawnRows (despawns : List DespawnRow) : ∀ b : PoseColumns,
    (despawnRows despawns).exec b =
      (.ok (), { b with slots := (despawns.map .despawned).foldl (edit b.origin) b.slots }) := by
  induction despawns with
  | nil => exact fun _ => rfl
  | cons dp despawns ih =>
    intro b
    rw [despawnRows, write, exec_bind_of_ok (exec_modify _ _), ih]
    rfl

/-- The moved rows with the entries they take of two blocks. -/
def movedChanges (abs : List AbsRow) (lanes : List UInt32) (moved : List MovedRow) :
    List RowChange :=
  moved.mapIdx fun i m => .moved m (entryAt abs mflagAbsolute moved i m)
    (entryAt lanes mflagLaneChanged moved i m)

lemma entryAt_cons_succ {α : Type} (block : List α) (flag : UInt8) (m m' : MovedRow)
    (moved : List MovedRow) (i : ℕ) :
    entryAt block flag (m :: moved) (i + 1) m' =
      entryAt (block.drop (announces flag m).toNat) flag moved i m' := by
  unfold entryAt
  rw [List.take_succ_cons, countP_announces_cons, List.getElem?_drop, Nat.add_comm]

lemma movedChanges_cons (abs : List AbsRow) (lanes : List UInt32) (m : MovedRow)
    (moved : List MovedRow) :
    movedChanges abs lanes (m :: moved) =
      .moved m (if announces mflagAbsolute m then abs[0]? else none)
          (if announces mflagLaneChanged m then lanes[0]? else none) ::
        movedChanges (abs.drop (announces mflagAbsolute m).toNat)
          (lanes.drop (announces mflagLaneChanged m).toNat) moved := by
  unfold movedChanges
  rw [List.mapIdx_cons]
  simp only [entryAt_cons_succ]
  rfl

/-- A moved row in its place. -/
def placed (m : MovedRow) (entry : Option AbsRow) (r : PoseRow) : PoseRow :=
  match entry with
  | some a => { r with xMm := a.xMm, yMm := a.yMm, zMm := a.zCm.toInt32 * 10 }
  | none =>
    { r with
      xMm := r.xMm + m.dxMm.toInt32
      yMm := r.yMm + m.dyMm.toInt32
      zMm := r.zMm + m.dzMm.toInt32 }

/-- The buffer with the row of a slot rewritten. -/
def rewritten (b : PoseColumns) (slot : UInt32) (f : PoseRow → PoseRow) : PoseColumns :=
  { b with slots := b.slots.modify slot.toNat fun p => { p with row := f p.row } }

lemma exec_place {abs : List AbsRow} {m : MovedRow} {absCursor : ℕ}
    (habs : (announces mflagAbsolute m).toNat + absCursor ≤ abs.length) (b : PoseColumns) :
    (place abs m absCursor).exec b = (.ok (absCursor + (announces mflagAbsolute m).toNat),
      b.rewritten m.slot
        (placed m (if announces mflagAbsolute m then abs[absCursor]? else none))) := by
  unfold place
  cases hflag : announces mflagAbsolute m with
  | false => rfl
  | true =>
    have hlt : absCursor < abs.length := by
      rw [hflag, Bool.toNat_true] at habs
      omega
    rw [if_pos rfl, if_pos rfl, List.getD_eq_getElem?_getD, List.getElem?_eq_getElem hlt]
    rfl

lemma exec_changeLane {lanes : List UInt32} {m : MovedRow} {laneCursor : ℕ}
    (hlanes : (announces mflagLaneChanged m).toNat + laneCursor ≤ lanes.length)
    (b : PoseColumns) :
    (changeLane lanes m laneCursor).exec b =
      (.ok (laneCursor + (announces mflagLaneChanged m).toNat), b.rewritten m.slot fun r =>
        { r with
          laneId :=
            (if announces mflagLaneChanged m then lanes[laneCursor]? else none).getD r.laneId }) := by
  unfold changeLane
  cases hflag : announces mflagLaneChanged m with
  | false =>
    have hsame : b.rewritten m.slot (fun r => { r with laneId := r.laneId }) = b :=
      congrArg (fun slots => ({ b with slots := slots } : PoseColumns)) (List.modify_id _ _)
    exact congrArg (Prod.mk _) hsame.symm
  | true =>
    have hlt : laneCursor < lanes.length := by
      rw [hflag, Bool.toNat_true] at hlanes
      omega
    rw [if_pos rfl, if_pos rfl, List.getD_eq_getElem?_getD, List.getElem?_eq_getElem hlt]
    rfl

/-- **The moved rows** find the entries they announce.

**Proof sketch.** Induction on the rows. The blocks behind the cursors hold enough entries for the
rows that are left, so a row that announces an entry takes the first, and the cursor moves on. -/
lemma exec_moveRows {abs : List AbsRow} {lanes : List UInt32} (moved : List MovedRow) :
    ∀ (absCursor laneCursor : ℕ) (b : PoseColumns),
      moved.countP (announces mflagAbsolute) + absCursor ≤ abs.length →
      moved.countP (announces mflagLaneChanged) + laneCursor ≤ lanes.length →
      (moveRows abs lanes moved absCursor laneCursor).exec b =
        (.ok (), { b with
          slots := (movedChanges (abs.drop absCursor) (lanes.drop laneCursor) moved).foldl
            (edit b.origin) b.slots }) := by
  induction moved with
  | nil => exact fun _ _ _ _ _ => rfl
  | cons m moved ih =>
    intro absCursor laneCursor b habs hlanes
    rw [countP_announces_cons] at habs hlanes
    rw [moveRows, exec_bind_of_ok (exec_place (by omega) b),
      exec_bind_of_ok (exec_changeLane (by omega) _), write, refresh,
      exec_bind_of_ok (exec_modify _ _), exec_bind_of_ok (exec_modify _ _),
      ih _ _ _ (by omega) (by omega), movedChanges_cons, List.drop_drop, List.drop_drop,
      List.getElem?_drop, List.getElem?_drop, List.foldl_cons]
    refine congrArg (fun slots => (Except.ok (), ({ b with
      slots := List.foldl (edit b.origin) slots _ } : PoseColumns))) ?_
    show List.modify (List.modify (List.modify (List.modify _ _ _) _ _) _ _) _ _ = _
    rw [List.modify_modify_eq, List.modify_modify_eq, List.modify_modify_eq]
    refine congrArg (List.modify b.slots m.slot.toNat) ?_
    funext p
    unfold RowChange.apply PoseRow.move placed
    cases (if announces mflagAbsolute m then abs[absCursor + 0]? else none) <;> rfl

/-- The buffer after the three loops. -/
def written (b : PoseColumns) (d : DeltaBody) : PoseColumns :=
  { d.spawns.foldl spawn b with
    slots := (movedChanges d.abs d.lanes d.moved ++ d.despawns.map RowChange.despawned).foldl
      (edit (d.spawns.foldl spawn b).origin) (d.spawns.foldl spawn b).slots
    stepIndex := d.stepIndex.toNat
    simTimeNs := d.simTimeNs }

lemma exec_applyDelta_eq_ok {r : DeltaApplyResult} (h : (applyDelta d).exec b = (.ok r, b')) :
    (∃ reason, r = .refused reason) ∧ b' = b ∨
      r = .applied d.moved.length d.spawns.length d.despawns.length ∧ b.Valid d ∧
        b' = b.written d := by
  obtain ⟨_, hget, h⟩ := ReadOnly.get.exec_bind_eq_ok.1 h
  cases hget
  split_ifs at h
  iterate 3
    · cases h
      exact .inl ⟨⟨_, rfl⟩, rfl⟩
  obtain ⟨_, hvalid, h⟩ := (readOnly_validate d).exec_bind_eq_ok.1 h
  have hvalid := valid_of_validate hvalid
  rw [exec_bind_of_ok (exec_spawnRows _ b),
    exec_bind_of_ok (exec_moveRows _ _ _ _ hvalid.abs hvalid.lanes),
    exec_bind_of_ok (exec_despawnRows _ _), exec_bind_of_ok (exec_modify _ _), exec_pure] at h
  cases h
  refine .inr ⟨rfl, hvalid, ?_⟩
  rw [written, List.foldl_append]
  rfl

/-! ## The spawned rows -/

lemma foldl_spawn_eq (spawns : List SpawnRow) : ∀ b : PoseColumns,
    ∃ slots, spawns.foldl spawn b = { b with
      slots := slots
      count := spawns.foldl (fun n sp => max n (sp.slot.toNat + 1)) b.count } := by
  induction spawns with
  | nil => exact fun b => ⟨b.slots, rfl⟩
  | cons sp spawns ih =>
    intro b
    obtain ⟨slots, h⟩ := ih (b.spawn sp)
    exact ⟨slots, h⟩

lemma lt_capacity_spawn (hroom : 0 < b.capacity) (sp : SpawnRow) :
    sp.slot.toNat < (b.spawn sp).capacity := by
  have hgrow : sp.slot.toNat + 1 ≤ (grow PoseSlot.empty b.slots (sp.slot.toNat + 1)).length :=
    le_length_grow hroom
  rwa [capacity, spawn, edit, List.length_modify]

lemma capacity_le_spawn (sp : SpawnRow) : b.capacity ≤ (b.spawn sp).capacity := by
  rw [capacity, capacity, spawn, edit, List.length_modify]
  exact length_le_grow

lemma capacity_spawn_le (sp : SpawnRow) :
    (b.spawn sp).capacity ≤ max b.capacity (2 * (sp.slot.toNat + 1)) := by
  rw [capacity, capacity, spawn, edit, List.length_modify]
  exact length_grow_le _

lemma slotAt_spawn (hroom : 0 < b.capacity) (sp : SpawnRow) (s : ℕ) :
    (b.spawn sp).slotAt s =
      if sp.slot.toNat = s then (RowChange.spawned sp).apply b.origin (b.slotAt s)
      else b.slotAt s := by
  have hgrow : sp.slot.toNat < (grow PoseSlot.empty b.slots (sp.slot.toNat + 1)).length :=
    le_length_grow hroom
  rw [slotAt, spawn, edit, getD_modify, getD_grow]
  by_cases hs : sp.slot.toNat = s
  · rw [if_pos hs, if_pos ⟨hs.symm, hgrow⟩]
    rfl
  · rw [if_neg hs, if_neg fun h => hs h.1.symm]
    rfl

/-- **The spawned rows** and the room they make. -/
lemma slotAt_foldl_spawn (spawns : List SpawnRow) : ∀ b : PoseColumns, 0 < b.capacity →
    b.capacity ≤ (spawns.foldl spawn b).capacity ∧
      (∀ sp ∈ spawns, sp.slot.toNat < (spawns.foldl spawn b).capacity) ∧
      ∀ s, (spawns.foldl spawn b).slotAt s =
        ((spawns.map RowChange.spawned).filter fun c => c.slot = s).foldl
          (fun p c => c.apply b.origin p) (b.slotAt s) := by
  induction spawns with
  | nil => exact fun b _ => ⟨le_rfl, fun _ h => absurd h List.not_mem_nil, fun _ => rfl⟩
  | cons sp spawns ih =>
    intro b hroom
    have hmore := capacity_le_spawn (b := b) sp
    obtain ⟨hle, hlt, hslots⟩ := ih (b.spawn sp) (hroom.trans_le hmore)
    refine ⟨hmore.trans hle,
      List.forall_mem_cons.2 ⟨(lt_capacity_spawn hroom sp).trans_le hle, hlt⟩, fun s => ?_⟩
    rw [List.foldl_cons, hslots, slotAt_spawn hroom, List.map_cons]
    by_cases hs : sp.slot.toNat = s
    · rw [if_pos hs, List.filter_cons_of_pos (by exact decide_eq_true hs),
        List.foldl_cons]
      rfl
    · rw [if_neg hs, List.filter_cons_of_neg (by exact fun h => hs (of_decide_eq_true h))]
      rfl

lemma capacity_foldl_spawn_le {limit : ℕ} {spawns : List SpawnRow} :
    ∀ {b : PoseColumns}, b.capacity ≤ 2 * limit → (∀ sp ∈ spawns, sp.slot.toNat < limit) →
      (spawns.foldl spawn b).capacity ≤ 2 * limit := by
  induction spawns with
  | nil => exact fun h _ => h
  | cons sp spawns ih =>
    intro b h hspawns
    obtain ⟨hsp, hspawns⟩ := List.forall_mem_cons.1 hspawns
    have hle := capacity_spawn_le (b := b) sp
    exact ih (by omega) hspawns

lemma foldl_max_slot (spawns : List SpawnRow) : ∀ a c : ℕ,
    spawns.foldl (fun n sp => max n (sp.slot.toNat + 1)) (max a c) =
      max a (spawns.foldl (fun n sp => max n (sp.slot.toNat + 1)) c) := by
  induction spawns with
  | nil => exact fun _ _ => rfl
  | cons sp spawns ih =>
    intro a c
    rw [List.foldl_cons, List.foldl_cons, max_assoc, ih]

lemma growTo_le {n : ℕ} (h : ∀ sp ∈ d.spawns, sp.slot.toNat < n) : PoseBuffer.growTo d ≤ n := by
  have hfold : ∀ {spawns : List SpawnRow} {g : ℕ}, (∀ sp ∈ spawns, sp.slot.toNat < n) → g ≤ n →
      spawns.foldl (fun n sp => max n (sp.slot.toNat + 1)) g ≤ n := by
    intro spawns
    induction spawns with
    | nil => exact fun _ hg => hg
    | cons sp spawns ih =>
      intro g hspawns hg
      obtain ⟨hsp, hspawns⟩ := List.forall_mem_cons.1 hspawns
      exact ih hspawns (max_le hg hsp)
  exact hfold h (Nat.zero_le n)

/-! ## A delta that is applied -/

/-- **The buffer after a delta that is applied.** -/
structure Applied (d : DeltaBody) (b b' : PoseColumns) : Prop where
  /-- A moved row takes an entry of a block if and only if it announces one. -/
  entries : ∀ m abs lane, .moved m abs lane ∈ changes d →
    abs.isSome = announces mflagAbsolute m ∧ lane.isSome = announces mflagLaneChanged m
  /-- A row that is spawned or moved has its slot. -/
  room : (∀ sp ∈ d.spawns, sp.slot.toNat < b'.capacity) ∧
    ∀ m ∈ d.moved, m.slot.toNat < b'.capacity
  /-- A slot is what the rows that name it make of it, each once and in their order. -/
  slots : ∀ s < b'.capacity,
    b'.slotAt s = (changesOf d s).foldl (fun p c => c.apply b.origin p) (b.slotAt s)
  /-- Heights are summed in millimetres. -/
  heights : ∀ s < b'.capacity, (b'.slotAt s).row.zMm =
    Int32.ofInt ((changesOf d s).foldl (fun z c => c.heightMm z) (b.slotAt s).row.zMm.toInt)
  allocation : b.capacity ≤ b'.capacity ∧ b'.capacity ≤ 2 * max b.slotLimit b.capacity
  count : b'.count = max b.count (PoseBuffer.growTo d)
  step : b'.stepIndex = d.stepIndex.toNat ∧ b'.simTimeNs = d.simTimeNs
  kept : b'.gopIndex = b.gopIndex ∧ b'.hasKeyframe = b.hasKeyframe ∧ b'.slotBound = b.slotBound ∧
    b'.origin = b.origin

lemma toInt32_mul_ten (zCm : Int16) : zCm.toInt32 * 10 = Int32.ofInt (10 * zCm.toInt) := by
  rw [Int.mul_comm, Int32.ofInt_mul]
  rfl

lemma zMm_apply (origin : Axes F64) (c : RowChange) (p : PoseSlot) (z : ℤ)
    (hz : p.row.zMm = Int32.ofInt z) :
    (c.apply origin p).row.zMm = Int32.ofInt (c.heightMm z) := by
  cases c with
  | spawned sp => exact toInt32_mul_ten sp.zCm
  | moved m abs lane =>
    cases abs with
    | some a => exact toInt32_mul_ten a.zCm
    | none =>
      show p.row.zMm + m.dzMm.toInt32 = Int32.ofInt (z + m.dzMm.toInt)
      rw [hz, Int32.ofInt_add]
      rfl
  | despawned dp => exact hz

lemma zMm_foldl_apply (origin : Axes F64) (cs : List RowChange) : ∀ (p : PoseSlot) (z : ℤ),
    p.row.zMm = Int32.ofInt z →
      (cs.foldl (fun p c => c.apply origin p) p).row.zMm =
        Int32.ofInt (cs.foldl (fun z c => c.heightMm z) z) := by
  induction cs with
  | nil => exact fun _ _ hz => hz
  | cons c cs ih => exact fun p z hz => ih _ _ (zMm_apply origin c p z hz)

lemma entries_of_valid (hvalid : b.Valid d) (m : MovedRow) (abs : Option AbsRow)
    (lane : Option UInt32) (h : .moved m abs lane ∈ changes d) :
    abs.isSome = announces mflagAbsolute m ∧ lane.isSome = announces mflagLaneChanged m := by
  have hentry : ∀ {α : Type} {block : List α} {flag : UInt8} {i : ℕ} (hi : i < d.moved.length),
      d.moved.countP (announces flag) ≤ block.length →
        (entryAt block flag d.moved i d.moved[i]).isSome = announces flag d.moved[i] := by
    intro α block flag i hi hblock
    unfold entryAt
    cases hflag : announces flag d.moved[i] with
    | false => rfl
    | true =>
      -- the rows before this one that announce an entry are fewer than all of them
      have hsplit : d.moved.countP (announces flag) =
          (d.moved.take i).countP (announces flag) + (d.moved.drop i).countP (announces flag) := by
        rw [← List.countP_append, List.take_append_drop]
      rw [List.drop_eq_getElem_cons hi, countP_announces_cons, hflag, Bool.toNat_true] at hsplit
      rw [if_pos rfl, List.getElem?_eq_getElem (by omega)]
      rfl
  rcases List.mem_append.1 h with h | h
  · rcases List.mem_append.1 h with h | h
    · obtain ⟨sp, _, heq⟩ := List.mem_map.1 h
      cases heq
    · obtain ⟨i, hi, heq⟩ := List.mem_mapIdx.1 h
      cases heq
      exact ⟨hentry hi hvalid.abs, hentry hi hvalid.lanes⟩
  · obtain ⟨dp, _, heq⟩ := List.mem_map.1 h
    cases heq

/-- **A delta that is applied** does what its rows say.

**Proof sketch.** The spawned rows come first and make the room for themselves, so the checks of the
moved rows bound their slots by the capacity then. From there on no column grows, and every slot is
edited by the rows that name it. -/
theorem applied_written (hroom : 0 < b.capacity) (hvalid : b.Valid d) :
    Applied d b (b.written d) := by
  obtain ⟨hle, hspawns, hslots⟩ := slotAt_foldl_spawn d.spawns b hroom
  obtain ⟨slots, hframe⟩ := foldl_spawn_eq d.spawns b
  have hcapacity : (b.written d).capacity = (d.spawns.foldl spawn b).capacity :=
    length_foldl_modify _ _
  have horigin : (d.spawns.foldl spawn b).origin = b.origin := by rw [hframe]
  have hslotAt : ∀ s < (b.written d).capacity, (b.written d).slotAt s =
      (changesOf d s).foldl (fun p c => c.apply b.origin p) (b.slotAt s) := by
    intro s hs
    rw [hcapacity] at hs
    show List.getD (List.foldl _ _ _) s _ = _
    rw [changesOf, changes, List.append_assoc, List.filter_append]
    refine Eq.trans ?_ List.foldl_append.symm
    rw [← hslots, horigin]
    exact getD_foldl_modify _ _ hs
  have hlimit : b.capacity ≤ b.slotLimit := le_max_right _ _
  exact
    { entries := entries_of_valid hvalid
      room := by
        rw [hcapacity]
        exact ⟨hspawns, fun m hm =>
          (hvalid.moved m hm).trans_le (max_le hle (growTo_le hspawns))⟩
      slots := hslotAt
      heights := by
        intro s hs
        rw [hslotAt s hs]
        exact zMm_foldl_apply _ _ _ _ (Int32.ofInt_toInt _).symm
      allocation := by
        rw [hcapacity, max_eq_left hlimit]
        exact ⟨hle, capacity_foldl_spawn_le (by omega) hvalid.spawns⟩
      count := by
        show (d.spawns.foldl spawn b).count = _
        rw [hframe]
        exact (congrArg (d.spawns.foldl _) (max_eq_left (Nat.zero_le b.count)).symm).trans
          (foldl_max_slot d.spawns b.count 0)
      step := ⟨rfl, rfl⟩
      kept := by
        show (d.spawns.foldl spawn b).gopIndex = _ ∧ (d.spawns.foldl spawn b).hasKeyframe = _ ∧
          (d.spawns.foldl spawn b).slotBound = _ ∧ (d.spawns.foldl spawn b).origin = _
        rw [hframe]
        exact ⟨rfl, rfl, rfl, rfl⟩ }

/-! ## The buffer without its derived columns -/

/-- The buffer without the derived columns. -/
def toPoseBuffer (b : PoseColumns) : PoseBuffer where
  rows := b.slots.map PoseSlot.row
  slotBound := b.slotBound
  count := b.count
  gopIndex := b.gopIndex
  stepIndex := b.stepIndex
  hasKeyframe := b.hasKeyframe
  simTimeNs := b.simTimeNs
  origin := b.origin

lemma capacity_toPoseBuffer (b : PoseColumns) : b.toPoseBuffer.capacity = b.capacity :=
  List.length_map _

lemma exec_guard (p : Prop) [Decidable p] (e : ProtocolError) (b : PoseColumns) :
    (if p then throw e else pure () : Proc PoseColumns ProtocolError Unit).exec b =
      (if p then .error e else .ok (), b) := by
  split_ifs <;> rfl

lemma exec_checkSlot (what : String) (slot : UInt32) (b : PoseColumns) :
    (checkSlot what slot).exec b = (b.toPoseBuffer.checkSlot what slot, b) := by
  have hlimit : b.toPoseBuffer.slotLimit = b.slotLimit :=
    congrArg (max b.slotBound) b.capacity_toPoseBuffer
  rw [checkSlot, PoseBuffer.checkSlot, hlimit, exec_bind_of_ok (exec_get b)]
  exact exec_guard _ _ b

lemma exec_checkSpawns (spawns : List SpawnRow) (b : PoseColumns) : ∀ growTo,
    (checkSpawns spawns growTo).exec b =
      ((spawns.forM fun sp => b.toPoseBuffer.checkSlot "spawns" sp.slot).map fun _ =>
        spawns.foldl (fun n sp => max n (sp.slot.toNat + 1)) growTo, b) := by
  induction spawns with
  | nil => exact fun _ => rfl
  | cons sp spawns ih =>
    intro growTo
    rw [checkSpawns, exec_bind, exec_checkSlot, List.forM]
    cases b.toPoseBuffer.checkSlot "spawns" sp.slot with
    | error e => rfl
    | ok u => exact ih _

lemma exec_checkMoved (bound : ℕ) (m : MovedRow) (b : PoseColumns) :
    (checkMoved bound m).exec b = (b.toPoseBuffer.checkMoved bound m, b) := by
  rw [checkMoved, PoseBuffer.checkMoved, exec_bind, exec_checkSlot]
  cases b.toPoseBuffer.checkSlot "moved" m.slot with
  | error e => rfl
  | ok u => exact exec_guard _ _ b

lemma exec_checkMovedRows (bound : ℕ) (moved : List MovedRow) (b : PoseColumns) :
    ∀ absNeeded laneNeeded, (checkMovedRows bound moved absNeeded laneNeeded).exec b =
      ((moved.forM (b.toPoseBuffer.checkMoved bound)).map fun _ =>
        (moved.countP (announces mflagAbsolute) + absNeeded,
          moved.countP (announces mflagLaneChanged) + laneNeeded), b) := by
  induction moved with
  | nil =>
    intro absNeeded laneNeeded
    rw [List.countP_nil, List.countP_nil, Nat.zero_add, Nat.zero_add]
    rfl
  | cons m moved ih =>
    intro absNeeded laneNeeded
    rw [checkMovedRows, exec_bind, exec_checkMoved, List.forM, countP_announces_cons,
      countP_announces_cons]
    cases b.toPoseBuffer.checkMoved bound m with
    | error e => rfl
    | ok u =>
      rw [Nat.add_assoc, Nat.add_assoc, Nat.add_comm _ absNeeded, Nat.add_comm _ laneNeeded]
      exact ih _ _

lemma exec_validate (d : DeltaBody) (b : PoseColumns) :
    (validate d).exec b = (b.toPoseBuffer.validate d, b) := by
  rw [validate, PoseBuffer.validate, exec_bind, exec_checkSpawns, capacity_toPoseBuffer]
  cases d.spawns.forM fun sp => b.toPoseBuffer.checkSlot "spawns" sp.slot with
  | error e => rfl
  | ok u =>
    show Proc.exec (_ >>= _) b = _
    rw [exec_bind_of_ok (exec_get b), exec_bind, exec_checkMovedRows]
    show _ = ((d.moved.forM (b.toPoseBuffer.checkMoved
      (max b.capacity (PoseBuffer.growTo d))) >>= _ : Except ProtocolError Unit), b)
    have hgrow : d.spawns.foldl (fun n sp => max n (sp.slot.toNat + 1)) 0 = PoseBuffer.growTo d :=
      rfl
    rw [hgrow]
    cases d.moved.forM (b.toPoseBuffer.checkMoved (max b.capacity (PoseBuffer.growTo d))) with
    | error e => rfl
    | ok u =>
      rw [Nat.add_zero, Nat.add_zero, List.countP_eq_length_filter, List.countP_eq_length_filter]
      show Proc.exec (if d.abs.length < (d.moved.filter (announces mflagAbsolute)).length
        then _ else _) b = ((if d.abs.length < (d.moved.filter (announces mflagAbsolute)).length
          then _ else _ : Except ProtocolError Unit), b)
      by_cases hshort : d.abs.length < (d.moved.filter (announces mflagAbsolute)).length
      · rw [if_pos hshort, if_pos hshort]
        rfl
      · rw [if_neg hshort, if_neg hshort]
        exact exec_guard _ _ b

lemma map_grow {α β : Type} (f : α → β) (empty : α) (column : List α) (capacity : ℕ) :
    (grow empty column capacity).map f = grow (f empty) (column.map f) capacity := by
  unfold grow
  rw [List.length_map]
  split_ifs
  · rfl
  · rw [List.map_append, List.map_replicate]

/-- A rewritten row of a slot is one of the rows. -/
lemma map_row_modify (slots : List PoseSlot) (s : ℕ) {f : PoseSlot → PoseSlot}
    {g : PoseRow → PoseRow} (h : ∀ p, (f p).row = g p.row) :
    (slots.modify s f).map PoseSlot.row = (slots.map PoseSlot.row).modify s g := by
  apply List.ext_getElem?
  intro i
  rw [List.getElem?_map, List.getElem?_modify, List.getElem?_modify, List.getElem?_map]
  cases slots[i]? with
  | none => rfl
  | some p =>
    simp only [Option.map_some]
    split_ifs <;> simp [h]

lemma toPoseBuffer_spawn (b : PoseColumns) (sp : SpawnRow) :
    (b.spawn sp).toPoseBuffer = b.toPoseBuffer.spawn sp := by
  refine congrArg (fun rows => ({ b.toPoseBuffer with
    rows := rows
    count := max b.count (sp.slot.toNat + 1) } : PoseBuffer)) ?_
  show List.map _ (List.modify (grow _ _ _) _ _) = List.set (grow _ (List.map _ _) _) _ _
  rw [map_row_modify (g := fun _ => .ofSpawnRow sp) _ _ fun _ => rfl, map_grow]
  exact (List.set_eq_modify _ _ _).symm

lemma toPoseBuffer_foldl_spawn (spawns : List SpawnRow) : ∀ b : PoseColumns,
    (spawns.foldl spawn b).toPoseBuffer = spawns.foldl PoseBuffer.spawn b.toPoseBuffer := by
  induction spawns with
  | nil => exact fun _ => rfl
  | cons sp spawns ih =>
    intro b
    rw [List.foldl_cons, ih, toPoseBuffer_spawn]
    rfl

lemma nextEntry_eq {α : Type} (announced : Bool) (block : List α) :
    nextEntry announced block =
      (if announced then block[0]? else none, block.drop announced.toNat) := by
  cases announced with
  | false => rfl
  | true => cases block <;> rfl

lemma map_row_movedChanges (origin : Axes F64) (moved : List MovedRow) :
    ∀ (abs : List AbsRow) (lanes : List UInt32) (slots : List PoseSlot),
      ((movedChanges abs lanes moved).foldl (edit origin) slots).map PoseSlot.row =
        PoseBuffer.moveRows (slots.map PoseSlot.row) moved abs lanes := by
  induction moved with
  | nil => exact fun _ _ _ => rfl
  | cons m moved ih =>
    intro abs lanes slots
    rw [movedChanges_cons, List.foldl_cons, ih, PoseBuffer.moveRows, nextEntry_eq, nextEntry_eq]
    refine congrArg (fun rows => PoseBuffer.moveRows rows moved _ _) ?_
    exact map_row_modify _ _ fun _ => rfl

lemma map_row_despawned (origin : Axes F64) (despawns : List DespawnRow) :
    ∀ slots : List PoseSlot,
      ((despawns.map .despawned).foldl (edit origin) slots).map PoseSlot.row =
        despawns.foldl PoseBuffer.despawn (slots.map PoseSlot.row) := by
  induction despawns with
  | nil => exact fun _ => rfl
  | cons dp despawns ih =>
    intro slots
    rw [List.map_cons, List.foldl_cons, ih, List.foldl_cons]
    refine congrArg (fun rows => despawns.foldl PoseBuffer.despawn rows) ?_
    exact map_row_modify _ _ fun _ => rfl

/-- **The delta in place** does what it does to the buffer without derived columns. -/
theorem applyDelta_toPoseBuffer (d : DeltaBody) (b : PoseColumns) :
    b.toPoseBuffer.applyDelta d =
      ((applyDelta d).exec b).1.map fun r => (r, ((applyDelta d).exec b).2.toPoseBuffer) := by
  have hrefusal : b.toPoseBuffer.refusal d =
      if !b.hasKeyframe then some .noKeyframe
      else if (d.gopIndex.toNat : ℤ) ≠ b.gopIndex then some .gopMismatch
      else if d.stepIndex.toNat ≠ b.stepIndex + 1 then some .stepGap
      else none := rfl
  rw [PoseBuffer.applyDelta, hrefusal, applyDelta, exec_bind_of_ok (exec_get b)]
  split_ifs
  iterate 3 rfl
  cases hvalidate : b.toPoseBuffer.validate d with
  | error e =>
    rw [exec_bind, exec_validate, hvalidate]
    rfl
  | ok u =>
    have hexec : (validate d).exec b = (.ok u, b) := by rw [exec_validate, hvalidate]
    have hvalid := valid_of_validate hexec
    rw [exec_bind_of_ok hexec, exec_bind_of_ok (exec_spawnRows _ b),
      exec_bind_of_ok (exec_moveRows _ _ _ _ hvalid.abs hvalid.lanes),
      exec_bind_of_ok (exec_despawnRows _ _), exec_bind_of_ok (exec_modify _ _), exec_pure]
    refine congrArg (fun b => Except.ok (DeltaApplyResult.applied _ _ _, b)) ?_
    rw [← toPoseBuffer_foldl_spawn]
    refine congrArg (fun rows => ({ (d.spawns.foldl spawn b).toPoseBuffer with
      rows := rows
      stepIndex := d.stepIndex.toNat
      simTimeNs := d.simTimeNs } : PoseBuffer)) ?_
    show _ = List.map _ (List.foldl _ (List.foldl _ _ _) _)
    rw [map_row_despawned, map_row_movedChanges]
    rfl

/-! ## Any calls -/

lemma capacity_le_applyKeyframe (kf : KeyframeBody) :
    b.capacity ≤ (b.applyKeyframe kf).capacity := by
  have hgrow : b.slots.length ≤
      (grow PoseSlot.empty b.slots (max kf.actors.length 1)).length := length_le_grow
  show _ ≤ List.length (_ ++ List.mapIdx _ (List.drop _ (grow _ _ _)))
  rw [List.length_append, List.length_map, List.length_mapIdx, List.length_drop]
  unfold capacity
  omega

/-- What a call preserves. -/
lemma capacity_pos_call (hroom : 0 < b.capacity) (c : Call) : 0 < (b.call c).capacity := by
  cases c with
  | setSlotBound actorCapacity =>
    show 0 < (b.setSlotBound actorCapacity).capacity
    unfold setSlotBound
    split_ifs
    · exact hroom
    · exact hroom
  | applyKeyframe kf => exact hroom.trans_le (capacity_le_applyKeyframe kf)
  | applyDelta d =>
    show 0 < capacity ((applyDelta d).exec b).2
    rcases hexec : (applyDelta d).exec b with ⟨r | r, b'⟩
    · rwa [cleanAt_applyDelta d b r b' hexec]
    · rcases exec_applyDelta_eq_ok hexec with ⟨_, rfl⟩ | ⟨_, hvalid, rfl⟩
      · exact hroom
      · exact hroom.trans_le (applied_written hroom hvalid).allocation.1
  | reset =>
    show 0 < List.length (List.map _ _)
    rwa [List.length_map]

lemma capacity_pos_after (capacity : ℕ) (calls : List Call) :
    0 < (after capacity calls).capacity := by
  have hfold : ∀ {calls : List Call} {b : PoseColumns}, 0 < b.capacity →
      0 < (calls.foldl call b).capacity := by
    intro calls
    induction calls with
    | nil => exact id
    | cons c calls ih => exact fun hroom => ih (capacity_pos_call hroom c)
  refine hfold ?_
  show 0 < List.length (List.replicate _ _)
  rw [List.length_replicate]
  exact lt_max_of_lt_left Nat.one_pos

/-- **A delta is applied as a whole**, whatever the buffer and the delta hold. It throws or is
refused and leaves the buffer as it was, or every row of it is applied. -/
theorem applyDelta_allOrNothing (capacity : ℕ) (calls : List Call) (d : DeltaBody) :
    match (applyDelta d).exec (after capacity calls) with
    | (.error _, b') => b' = after capacity calls
    | (.ok (.refused _), b') => b' = after capacity calls
    | (.ok (.applied moved spawned despawned), b') =>
      moved = d.moved.length ∧ spawned = d.spawns.length ∧ despawned = d.despawns.length ∧
        Applied d (after capacity calls) b' := by
  rcases hexec : (applyDelta d).exec (after capacity calls) with ⟨r | r, b'⟩
  · exact cleanAt_applyDelta d _ r b' hexec
  · rcases exec_applyDelta_eq_ok hexec with ⟨⟨reason, rfl⟩, rfl⟩ | ⟨rfl, hvalid, rfl⟩
    · rfl
    · exact ⟨rfl, rfl, rfl, applied_written (capacity_pos_after capacity calls) hvalid⟩

end PoseColumns

end V2xw.Client
