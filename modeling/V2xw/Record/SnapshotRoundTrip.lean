import V2xw.Lib.Fallible
import V2xw.Record.Snapshot

/-!
# Snapshot bodies decode to what was encoded

A body that fits a frame decodes to itself. For a delta this also takes that its absolute and lane
blocks have an entry for each moved row that announces one.

## Main results

* `KeyframeBody.decode_encode`, `DeltaBody.decode_encode` — round trips.
* `KeyframeBody.length_encode`, `DeltaBody.length_encode` — the sizes the
  source computes in advance.
-/

namespace V2xw.Record

open Layout

/-! ## Sections -/

lemma sectionOff_le (n off : ℕ) : sectionOff n off ≤ off := by
  unfold sectionOff
  split_ifs <;> omega

lemma drop_sectionOff {body blk rest : Bytes} {n off : ℕ} (h : body.drop off = blk ++ rest)
    (hnil : n = 0 → blk = []) : ∃ rest', body.drop (sectionOff n off) = blk ++ rest' := by
  by_cases hn : n = 0
  · exact ⟨body.drop (sectionOff n off), by rw [hnil hn, List.nil_append]⟩
  · exact ⟨rest, by rw [sectionOff, if_pos (Nat.pos_of_ne_zero hn), h]⟩

lemma checkSection_ok {what name : String} {n off rowBytes bodyLen : ℕ} (hoff : 0 < off)
    (hfit : off + rowBytes * n ≤ bodyLen) :
    checkSection what name n (sectionOff n off) rowBytes bodyLen = .ok () := by
  unfold checkSection
  by_cases hn : n = 0
  · have hzero : sectionOff n off = 0 := if_neg (by omega)
    rw [if_pos hn, hzero, if_neg (by omega)]
  · have hsome : sectionOff n off = off := if_pos (by omega)
    rw [if_neg hn, hsome, if_neg (by omega), if_neg (by omega)]

lemma emit_of_length_zero {ρ : Type} {cols : List (Column ρ)} {rows : List ρ}
    (h : rows.length = 0) : emit cols rows = [] := by
  apply List.eq_nil_of_length_eq_zero
  rw [length_emit, h, Nat.mul_zero]

@[simp]
lemma length_encodeSignals (signals : List SignalRow) :
    (encodeSignals signals).length = signalStride * signals.length := by
  rw [encodeSignals, length_emit]
  rfl

lemma decodeSignals_encode {body rest : Bytes} {off : ℕ} {signals : List SignalRow}
    (what : String) (h : body.drop off = encodeSignals signals ++ rest) :
    decodeSignals body (sectionOff signals.length off) signals.length what = .ok signals := by
  obtain ⟨rest', hdrop⟩ := drop_sectionOff h emit_of_length_zero
  rw [encodeSignals, emit_append, List.append_assoc] at hdrop
  exact SignalRow.table.readRows_emit _ hdrop

/-! ## Keyframes -/

namespace KeyframeBody

variable (b : KeyframeBody)

lemma length_encode :
    b.encode.length =
      keyframePrefixBytes + actorStride * b.actors.length + signalStride * b.signals.length := by
  rw [encode, List.length_append, List.length_append, List.length_append, length_emit, length_emit,
    length_encodeSignals, List.length_replicate]
  show 54 * 1 + (10 + (28 * b.actors.length + _)) = 64 + 28 * b.actors.length + _
  omega

lemma drop_actors :
    b.encode.drop keyframePrefixBytes =
      emit ActorRow.table.columns b.actors ++ encodeSignals b.signals := by
  rw [encode, ← List.append_assoc]
  refine List.drop_left' ?_
  rw [List.length_append, length_emit, List.length_replicate]
  rfl

lemma drop_signals :
    b.encode.drop (keyframePrefixBytes + actorStride * b.actors.length) =
      encodeSignals b.signals :=
  drop_add_of_drop b.drop_actors (length_emit _ _)

/-- **A keyframe that fits a frame decodes to itself.** -/
theorem decode_encode (hlen : b.encode.length < 2 ^ 32) : decode b.encode = .ok b := by
  have htotal := b.length_encode
  have ha : b.actors.length < 2 ^ 32 := by simp only [actorStride] at htotal; omega
  have hs : b.signals.length < 2 ^ 32 := by simp only [signalStride] at htotal; omega
  have hoa : sectionOff b.actors.length keyframePrefixBytes < 2 ^ 32 :=
    lt_of_le_of_lt (sectionOff_le _ _) (by decide)
  have hos : sectionOff b.signals.length (keyframePrefixBytes + actorStride * b.actors.length) <
      2 ^ 32 := lt_of_le_of_lt (sectionOff_le _ _) (by omega)
  have hfixed : KeyframePrefix.table.readRecord (RecordError.truncated "vwp Keyframe") b.encode 0 =
      .ok b.fixed := KeyframePrefix.table.readRecord_emit _ rfl
  obtain ⟨rest, hactors⟩ := drop_sectionOff b.drop_actors emit_of_length_zero
  have hdropS : b.encode.drop (keyframePrefixBytes + actorStride * b.actors.length) =
      encodeSignals b.signals ++ [] := by rw [b.drop_signals, List.append_nil]
  have hrows := ActorRow.table.fillColumns_emit (RecordError.truncated "vwp Keyframe") hactors
  have hsignals := decodeSignals_encode "vwp Keyframe" hdropS
  have hcheckA : checkSection "vwp Keyframe" "actors" b.actors.length
      (sectionOff b.actors.length keyframePrefixBytes) actorStride b.encode.length = .ok () :=
    checkSection_ok (by decide) (by omega)
  have hcheckS : checkSection "vwp Keyframe" "signals" b.signals.length
      (sectionOff b.signals.length (keyframePrefixBytes + actorStride * b.actors.length))
      signalStride b.encode.length = .ok () :=
    checkSection_ok (by simp only [keyframePrefixBytes]; omega) (by omega)
  simp only [decode, hfixed, bind, Except.bind, fixed, toNat_ofNat_of_lt ha, toNat_ofNat_of_lt hs,
    toNat_ofNat_of_lt hoa, toNat_ofNat_of_lt hos, hcheckA, hcheckS, hrows, hsignals]

end KeyframeBody

/-! ## Deltas -/

namespace DeltaBody

variable (d : DeltaBody)

/-! ### The blocks -/

lemma length_movedBlock : d.movedBlock.length = movedStride * d.moved.length :=
  length_emit _ _

lemma length_absEntry (r : AbsRow) : (absEntry r).length = absStride := by
  rw [absEntry, List.length_append, length_emit, List.length_replicate]
  rfl

lemma length_absBlock : d.absBlock.length = absStride * d.abs.length :=
  length_flatMap_of_width length_absEntry _

lemma length_laneBlock : d.laneBlock.length = laneStride * d.lanes.length :=
  length_emit _ _

lemma length_spawnBlock : d.spawnBlock.length = spawnStride * d.spawns.length :=
  length_emit _ _

lemma length_despawnBlock : d.despawnBlock.length = despawnStride * d.despawns.length :=
  length_emit _ _

lemma length_encode : d.encode.length = d.atSignals + signalStride * d.signals.length := by
  simp only [encode, List.length_append, length_emit, length_movedBlock, length_absBlock,
    length_laneBlock, length_spawnBlock, length_despawnBlock, length_encodeSignals, atSignals,
    atDespawns, atSpawns, atLanes, atAbs]
  show 64 * 1 + _ = 64 + _ + _ + _ + _ + _ + _
  omega

lemma drop_moved : d.encode.drop deltaPrefixBytes = d.movedBlock ++ (d.absBlock ++ (d.laneBlock ++
    (d.spawnBlock ++ (d.despawnBlock ++ encodeSignals d.signals)))) :=
  List.drop_left' (length_emit _ _)

lemma drop_abs : d.encode.drop d.atAbs = d.absBlock ++ (d.laneBlock ++ (d.spawnBlock ++
    (d.despawnBlock ++ encodeSignals d.signals))) :=
  drop_add_of_drop d.drop_moved d.length_movedBlock

lemma drop_lanes : d.encode.drop d.atLanes = d.laneBlock ++ (d.spawnBlock ++ (d.despawnBlock ++
    encodeSignals d.signals)) :=
  drop_add_of_drop d.drop_abs d.length_absBlock

lemma drop_spawns : d.encode.drop d.atSpawns =
    d.spawnBlock ++ (d.despawnBlock ++ encodeSignals d.signals) :=
  drop_add_of_drop d.drop_lanes d.length_laneBlock

lemma drop_despawns : d.encode.drop d.atDespawns =
    d.despawnBlock ++ encodeSignals d.signals :=
  drop_add_of_drop d.drop_spawns d.length_spawnBlock

lemma drop_signals : d.encode.drop d.atSignals = encodeSignals d.signals ++ [] := by
  rw [List.append_nil]
  exact drop_add_of_drop d.drop_despawns d.length_despawnBlock

/-! ### Reading the blocks back -/

section Blocks

variable (what : String)

lemma read_moved :
    MovedRow.table.fillColumns (RecordError.truncated what) d.encode
      (sectionOff d.moved.length deltaPrefixBytes) d.moved.length = .ok d.moved := by
  obtain ⟨rest, h⟩ := drop_sectionOff d.drop_moved emit_of_length_zero
  rw [movedBlock, emit_append, List.append_assoc] at h
  exact MovedRow.table.fillColumns_emit _ h

lemma read_abs :
    AbsRow.table.readRecords (RecordError.truncated what) d.encode
      (sectionOff d.abs.length d.atAbs) absStride d.abs.length = .ok d.abs := by
  obtain ⟨rest, h⟩ := drop_sectionOff (n := d.abs.length) d.drop_abs fun hn => by
    rw [absBlock, List.eq_nil_of_length_eq_zero hn, List.flatMap_nil]
  exact AbsRow.table.readRecords_emit _ rfl h

lemma read_lanes :
    laneTable.readRows (RecordError.truncated what) d.encode
      (sectionOff d.lanes.length d.atLanes) d.lanes.length = .ok d.lanes := by
  obtain ⟨rest, h⟩ := drop_sectionOff d.drop_lanes emit_of_length_zero
  exact laneTable.readRows_emit _ h

lemma read_spawns :
    SpawnRow.table.fillColumns (RecordError.truncated what) d.encode
      (sectionOff d.spawns.length d.atSpawns) d.spawns.length = .ok d.spawns := by
  obtain ⟨rest, h⟩ := drop_sectionOff d.drop_spawns emit_of_length_zero
  rw [spawnBlock, emit_append, List.append_assoc] at h
  exact SpawnRow.table.fillColumns_emit _ h

lemma read_despawns :
    DespawnRow.table.readRows (RecordError.truncated what) d.encode
      (sectionOff d.despawns.length d.atDespawns) d.despawns.length = .ok d.despawns := by
  obtain ⟨rest, h⟩ := drop_sectionOff d.drop_despawns emit_of_length_zero
  rw [despawnBlock, emit_append, List.append_assoc] at h
  exact DespawnRow.table.readRows_emit _ h

end Blocks

/-- The blocks beside the moved rows have an entry for each row that announces one. -/
def Correlated : Prop :=
  flagged mflagAbsolute d.moved = d.abs.length ∧ flagged mflagLaneChanged d.moved = d.lanes.length

lemma checkFlagged_ok {d : DeltaBody} (h : d.Correlated) (what : String) :
    checkFlagged what d.moved d.abs.length d.lanes.length = .ok () := by
  obtain ⟨habs, hlane⟩ := h
  unfold checkFlagged
  rw [habs, hlane, if_neg (not_not_intro rfl), if_neg (not_not_intro rfl)]

/-- **A delta that fits a frame decodes to itself.** -/
theorem decode_encode (hlen : d.encode.length < 2 ^ 32) (hcorr : d.Correlated) :
    decode d.encode = .ok d := by
  have hlast : d.encode.length = d.atSignals + 8 * d.signals.length := d.length_encode
  have h₁ : d.atAbs = 64 + 20 * d.moved.length := rfl
  have h₂ : d.atLanes = d.atAbs + 12 * d.abs.length := rfl
  have h₃ : d.atSpawns = d.atLanes + 4 * d.lanes.length := rfl
  have h₄ : d.atDespawns = d.atSpawns + 36 * d.spawns.length := rfl
  have h₅ : d.atSignals = d.atDespawns + 8 * d.despawns.length := rfl
  have hfixed : DeltaPrefix.table.readRecord (RecordError.truncated "vwp Delta") d.encode 0 =
      .ok d.fixed := DeltaPrefix.table.readRecord_emit _ rfl
  have hoff : ∀ {n off : ℕ}, off < 2 ^ 32 → (UInt32.ofNat (sectionOff n off)).toNat =
      sectionOff n off := fun {n off} h =>
    toNat_ofNat_of_lt (lt_of_le_of_lt (sectionOff_le n off) h)
  have hcheck : ∀ {name : String} {n off rowBytes : ℕ}, 0 < off →
      off + rowBytes * n ≤ d.encode.length →
      checkSection "vwp Delta" name n (sectionOff n off) rowBytes d.encode.length = .ok () :=
    checkSection_ok
  simp only [decode, hfixed, bind, Except.bind, fixed,
    toNat_ofNat_of_lt (show d.moved.length < 2 ^ 32 by omega),
    toNat_ofNat_of_lt (show d.abs.length < 2 ^ 32 by omega),
    toNat_ofNat_of_lt (show d.lanes.length < 2 ^ 32 by omega),
    toNat_ofNat_of_lt (show d.spawns.length < 2 ^ 32 by omega),
    toNat_ofNat_of_lt (show d.despawns.length < 2 ^ 32 by omega),
    toNat_ofNat_of_lt (show d.signals.length < 2 ^ 32 by omega),
    hoff (show deltaPrefixBytes < 2 ^ 32 by decide), hoff (show d.atAbs < 2 ^ 32 by omega),
    hoff (show d.atLanes < 2 ^ 32 by omega), hoff (show d.atSpawns < 2 ^ 32 by omega),
    hoff (show d.atDespawns < 2 ^ 32 by omega), hoff (show d.atSignals < 2 ^ 32 by omega)]
  rw [hcheck (by decide) (by simp only [deltaPrefixBytes, movedStride]; omega),
    hcheck (by omega) (by simp only [absStride]; omega),
    hcheck (by omega) (by simp only [laneStride]; omega),
    hcheck (by omega) (by simp only [spawnStride]; omega),
    hcheck (by omega) (by simp only [despawnStride]; omega),
    hcheck (by omega) (by simp only [signalStride]; omega), d.read_moved, d.read_abs, d.read_lanes,
    d.read_spawns, d.read_despawns, decodeSignals_encode _ d.drop_signals]
  simp only [checkFlagged_ok hcorr]

end DeltaBody

end V2xw.Record
