import V2xw.Record.SnapshotRoundTrip

/-!
# The layout of snapshot bodies

The length of a snapshot body is computed before it is encoded, and a reader on the other side maps
its columns in place, so they have to start at multiples of their element sizes.

## Main definitions

* `KeyframeBody.encodedLen`, `DeltaBody.encodedLen`.
* `KeyframeBody.columns`, `DeltaBody.columns` — where the columns stand.

## Main results

* `snapshot_codecs` — snapshot bodies decode to themselves, have the length computed,
  and their columns are aligned.
-/

namespace V2xw.Record

open Layout

/-- The columns of the signal section. -/
def signalColumns (signals : List SignalRow) (p : ℕ) : List Placed :=
  placed signals SignalRow.table.columns p

lemma aligned_signalColumns {signals : List SignalRow} {p : ℕ} (hp : 4 ∣ p) :
    ∀ x ∈ signalColumns signals p, x.Aligned := by
  refine aligned_placed _ (by decide) fun c hc => Nat.dvd_trans ?_ hp
  revert c hc
  decide

lemma standsIn_signalColumns {signals : List SignalRow} {p : ℕ} {body rest : Bytes}
    (h : body.drop p = encodeSignals signals ++ rest) :
    ∀ x ∈ signalColumns signals p, x.StandsIn body := by
  rw [encodeSignals, emit_append, List.append_assoc] at h
  exact standsIn_placed _ h

namespace KeyframeBody

variable (b : KeyframeBody)

/-- The encoded body length in bytes. -/
def encodedLen : ℕ :=
  keyframePrefixBytes + actorStride * b.actors.length + signalStride * b.signals.length

/-- The columns after the fixed part. -/
def columns : List Placed :=
  placed b.actors ActorRow.table.columns keyframePrefixBytes ++
    signalColumns b.signals (keyframePrefixBytes + actorStride * b.actors.length)

lemma aligned_columns : ∀ x ∈ b.columns, x.Aligned := by
  intro x hx
  rcases List.mem_append.1 hx with hx | hx
  · exact aligned_placed _ (by decide) (by decide) x hx
  · refine aligned_signalColumns ?_ x hx
    show 4 ∣ 64 + 28 * b.actors.length
    omega

lemma standsIn_columns : ∀ x ∈ b.columns, x.StandsIn b.encode := by
  intro x hx
  rcases List.mem_append.1 hx with hx | hx
  · exact standsIn_placed _ b.drop_actors x hx
  · refine @standsIn_signalColumns _ _ _ [] ?_ x hx
    rw [b.drop_signals, List.append_nil]

end KeyframeBody

namespace DeltaBody

variable (d : DeltaBody)

/-- The encoded body length in bytes. -/
def encodedLen : ℕ :=
  deltaPrefixBytes + movedStride * d.moved.length + absStride * d.abs.length +
    laneStride * d.lanes.length + spawnStride * d.spawns.length +
    despawnStride * d.despawns.length + signalStride * d.signals.length

/-- The fields of the absolute entries, each entry a record. -/
def absColumns : List Placed :=
  d.abs.zipIdx.flatMap fun x => placed [x.1] AbsRow.table.columns (d.atAbs + absStride * x.2)

/-- The columns after the fixed part. -/
def columns : List Placed :=
  placed d.moved MovedRow.table.columns deltaPrefixBytes ++ (d.absColumns ++
    (placed d.lanes laneTable.columns d.atLanes ++
      (placed d.spawns SpawnRow.table.columns d.atSpawns ++
        (placed d.despawns DespawnRow.table.columns d.atDespawns ++
          signalColumns d.signals d.atSignals))))

lemma four_dvd_blocks :
    4 ∣ d.atAbs ∧ 4 ∣ d.atLanes ∧ 4 ∣ d.atSpawns ∧ 4 ∣ d.atDespawns ∧ 4 ∣ d.atSignals := by
  have h₁ : d.atAbs = 64 + 20 * d.moved.length := rfl
  have h₂ : d.atLanes = d.atAbs + 12 * d.abs.length := rfl
  have h₃ : d.atSpawns = d.atLanes + 4 * d.lanes.length := rfl
  have h₄ : d.atDespawns = d.atSpawns + 36 * d.spawns.length := rfl
  have h₅ : d.atSignals = d.atDespawns + 8 * d.despawns.length := rfl
  omega

/-- Every column of a delta is aligned. -/
lemma aligned_columns : ∀ x ∈ d.columns, x.Aligned := by
  obtain ⟨habs, hlanes, hspawns, hdespawns, hsignals⟩ := d.four_dvd_blocks
  have hcol : ∀ {ρ : Type} {cols : List (Column ρ)} {p : ℕ}, 4 ∣ p → (∀ c ∈ cols, c.width ∣ 4) →
      ∀ c ∈ cols, c.width ∣ p := fun hp hc c hmem => Nat.dvd_trans (hc c hmem) hp
  intro x hx
  rcases List.mem_append.1 hx with hx | hx
  · exact aligned_placed _ (by decide) (by decide) x hx
  rcases List.mem_append.1 hx with hx | hx
  · obtain ⟨⟨r, i⟩, -, hx⟩ := List.mem_flatMap.1 hx
    have hentry : 4 ∣ d.atAbs + absStride * i :=
      Nat.dvd_add habs (Nat.dvd_trans (by decide : 4 ∣ absStride) (Nat.dvd_mul_right _ _))
    exact aligned_placed _ (by decide) (hcol hentry (by decide)) x hx
  rcases List.mem_append.1 hx with hx | hx
  · exact aligned_placed _ (by decide) (hcol hlanes (by decide)) x hx
  rcases List.mem_append.1 hx with hx | hx
  · exact aligned_placed _ (by decide) (hcol hspawns (by decide)) x hx
  rcases List.mem_append.1 hx with hx | hx
  · exact aligned_placed _ (by decide) (hcol hdespawns (by decide)) x hx
  · exact aligned_signalColumns hsignals x hx

lemma drop_absEntry {r : AbsRow} {i : ℕ} (h : (r, i) ∈ d.abs.zipIdx) :
    ∃ rest, d.encode.drop (d.atAbs + absStride * i) = absEntry r ++ rest := by
  obtain ⟨-, hi, hr⟩ := List.mem_zipIdx h
  have hr' : d.abs[i]? = some r := by
    rw [List.getElem?_eq_some_iff]
    exact ⟨by omega, by rw [hr]; rfl⟩
  exact ⟨_, Table.drop_add_flatMap length_absEntry hr' d.drop_abs⟩

/-- The columns of a delta are where they are said to be. -/
lemma standsIn_columns : ∀ x ∈ d.columns, x.StandsIn d.encode := by
  intro x hx
  rcases List.mem_append.1 hx with hx | hx
  · have h := d.drop_moved
    rw [movedBlock, emit_append, List.append_assoc] at h
    exact standsIn_placed _ h x hx
  rcases List.mem_append.1 hx with hx | hx
  · obtain ⟨⟨r, i⟩, hr, hx⟩ := List.mem_flatMap.1 hx
    obtain ⟨rest, h⟩ := d.drop_absEntry hr
    rw [absEntry, List.append_assoc] at h
    exact standsIn_placed _ h x hx
  rcases List.mem_append.1 hx with hx | hx
  · exact standsIn_placed _ d.drop_lanes x hx
  rcases List.mem_append.1 hx with hx | hx
  · have h := d.drop_spawns
    rw [spawnBlock, emit_append, List.append_assoc] at h
    exact standsIn_placed _ h x hx
  rcases List.mem_append.1 hx with hx | hx
  · have h := d.drop_despawns
    rw [despawnBlock, emit_append, List.append_assoc] at h
    exact standsIn_placed _ h x hx
  · exact standsIn_signalColumns d.drop_signals x hx

end DeltaBody

/-- **Snapshot bodies decode to themselves**, if their length fits a frame and the blocks beside the
moved rows are as long as the rows say. Their length is the one computed in advance, and every
column after the fixed part starts at a multiple of its element size. -/
theorem snapshot_codecs :
    (∀ b : KeyframeBody,
      (b.encodedLen < 2 ^ 32 → KeyframeBody.decode b.encode = .ok b) ∧
        b.encode.length = b.encodedLen ∧
        ∀ x ∈ b.columns, x.StandsIn b.encode ∧ x.Aligned) ∧
    ∀ d : DeltaBody,
      (d.Correlated → d.encodedLen < 2 ^ 32 → DeltaBody.decode d.encode = .ok d) ∧
        d.encode.length = d.encodedLen ∧
        ∀ x ∈ d.columns, x.StandsIn d.encode ∧ x.Aligned := by
  refine ⟨fun b => ?_, fun d => ?_⟩
  · have hlen : b.encode.length = b.encodedLen := b.length_encode
    refine ⟨fun h => b.decode_encode (hlen ▸ h), hlen, fun x hx => ?_⟩
    exact ⟨b.standsIn_columns x hx, b.aligned_columns x hx⟩
  · have hlen : d.encode.length = d.encodedLen := d.length_encode
    refine ⟨fun hcorr h => d.decode_encode (hlen ▸ h) hcorr, hlen, fun x hx => ?_⟩
    exact ⟨d.standsIn_columns x hx, d.aligned_columns x hx⟩

/-- A keyframe with an actor and a signal, and a delta whose moved row announces an absolute entry
and a lane. -/
theorem snapshot_codecs_small :
    let b : KeyframeBody := ⟨5, ⟨⟨1⟩, ⟨2⟩, ⟨3⟩⟩, 0, 0, [.empty], [⟨9, 30, 3⟩]⟩
    let d : DeltaBody := ⟨6, 0, 1, [⟨0, 1, 2, 3, 4, 5, 6, 0, 0, 3⟩], [⟨7, 8, 9⟩], [10], [],
      [⟨1, 2⟩], []⟩
    KeyframeBody.decode b.encode = .ok b ∧ b.encode.length = 100 ∧
      DeltaBody.decode d.encode = .ok d ∧ d.encode.length = 108 := by
  intro b d
  have hb := snapshot_codecs.1 b
  have hd := snapshot_codecs.2 d
  exact ⟨hb.1 (by decide), hb.2.1, hd.1 ⟨by decide, by decide⟩ (by decide), hd.2.1⟩

end V2xw.Record
