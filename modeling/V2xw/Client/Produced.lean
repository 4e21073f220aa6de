import V2xw.Client.Stream

/-!
# What a server sends

The frames of one group of pictures extend one another, and each delta of it continues the frames
before it: it carries the next step index, it moves actors that are there, and it names the actors
that appear.

## Main definitions

* `Client.Gop.Extends` — a group of pictures up to a later frame.
* `Client.Gop.Sound` — each delta continues the frames before it.

## Main results

* `Client.Server.produced_extends` — of two frames of a group, one extends the other.
* `Client.Server.produced_sound` — the frames that are sent are sound.
* `Client.Server.Inv.carries` — the frames of the encoder carry what is sent.
-/

namespace V2xw.Client

open Record

/-! ## Rosters -/

namespace Roster

variable {R : Roster} {s : ℕ}

lemma foldl_spawn_of_notMem {sps : List SpawnRow} (h : ∀ sp ∈ sps, sp.slot.toNat ≠ s) :
    sps.foldl spawn R s = R s := by
  induction sps generalizing R with
  | nil => rfl
  | cons sp sps ih =>
    obtain ⟨hsp, hsps⟩ := List.forall_mem_cons.1 h
    rw [List.foldl_cons, ih hsps, spawn, Function.update_of_ne hsp.symm]

/-- A slot that a spawn names has an actor. -/
lemma foldl_spawn_ne {sps : List SpawnRow} (hids : ∀ sp ∈ sps, sp.actorId ≠ u32None)
    (h : R s ≠ u32None ∨ ∃ sp ∈ sps, sp.slot.toNat = s) : sps.foldl spawn R s ≠ u32None := by
  induction sps generalizing R with
  | nil =>
    obtain h | ⟨sp, hsp, _⟩ := h
    · exact h
    · cases hsp
  | cons sp sps ih =>
    obtain ⟨hid, hids⟩ := List.forall_mem_cons.1 hids
    rw [List.foldl_cons]
    by_cases hs : sp.slot.toNat = s
    · refine ih hids (.inl ?_)
      rw [spawn, hs, Function.update_self]
      exact hid
    · refine ih hids ?_
      rw [spawn, Function.update_of_ne (Ne.symm hs)]
      refine h.imp_right fun ⟨sp', hsp', heq⟩ => ⟨sp', ?_, heq⟩
      obtain rfl | hmem := List.mem_cons.1 hsp'
      · exact absurd heq hs
      · exact hmem

lemma foldl_despawn (dps : List DespawnRow) : ∀ R : Roster,
    dps.foldl despawn R s = if s ∈ dps.map (fun dp => dp.slot.toNat) then u32None else R s := by
  induction dps with
  | nil => exact fun R => rfl
  | cons dp dps ih =>
    intro R
    rw [List.foldl_cons, ih]
    simp only [List.map_cons, List.mem_cons, despawn]
    by_cases hs : s = dp.slot.toNat
    · subst hs
      simp only [Function.update_self, true_or, if_true, ite_self]
    · simp only [Function.update_of_ne hs, hs, false_or]

end Roster

/-! ## Groups of pictures -/

namespace Gop

/-- The second group is the first, up to a later frame. -/
def Extends (g g' : Gop) : Prop := g.keyframe = g'.keyframe ∧ g.deltas <+: g'.deltas

/-- A group with one more delta. -/
def push (g : Gop) (d : DeltaBody) : Gop := { g with deltas := g.deltas ++ [d] }

lemma Extends.refl (g : Gop) : g.Extends g := ⟨rfl, List.prefix_rfl⟩

lemma Extends.push {g g' : Gop} (h : g.Extends g') (d : DeltaBody) : g.Extends (g'.push d) :=
  ⟨h.1, h.2.trans (List.prefix_append _ _)⟩

lemma Extends.total {g g' G : Gop} (h : g.Extends G) (h' : g'.Extends G) :
    g.Extends g' ∨ g'.Extends g := by
  obtain hle | hle := List.prefix_or_prefix_of_prefix h.2 h'.2
  · exact .inl ⟨h.1.trans h'.1.symm, hle⟩
  · exact .inr ⟨h'.1.trans h.1.symm, hle⟩

lemma roster_push (g : Gop) (d : DeltaBody) : (g.push d).roster = g.roster.apply d := by
  rw [roster, push, List.foldl_append]
  rfl

/-- A delta continues a group: it has the next step index, moves actors that are there, and names
those that appear. -/
structure Continues (g : Gop) (d : DeltaBody) : Prop where
  stepIndex : d.stepIndex = UInt32.ofNat (g.deltas.length + 1)
  moved : ∀ m ∈ d.moved, g.roster m.slot.toNat ≠ u32None
  spawns : ∀ sp ∈ d.spawns, sp.actorId ≠ u32None

/-- Each delta continues the frames before it. -/
def Sound (g : Gop) : Prop :=
  ∀ ds d, ds ++ [d] <+: g.deltas → Continues ⟨g.keyframe, ds⟩ d

lemma sound_keyframe (kf : KeyframeBody) : Sound ⟨kf, []⟩ := by
  intro ds d h
  exact absurd (List.prefix_nil.1 h) (by simp)

lemma Sound.push {g : Gop} (h : g.Sound) {d : DeltaBody} (hd : g.Continues d) :
    (g.push d).Sound := by
  intro ds d' hds
  obtain heq | hlt := List.prefix_concat_iff.1 hds
  · obtain ⟨rfl, hd'⟩ := List.append_inj' heq rfl
    obtain rfl := List.singleton_inj.1 hd'
    exact hd
  · exact h ds d' hlt

end Gop

/-! ## Steps of the encoder -/

namespace Server

variable {e : SnapshotEncoder} {snap : Snapshot} {rows : OrdMap UInt32 Target}

/-- The encoder after a step whose rows are given. -/
lemma encode_snd (ht : e.checkTime snap.simTime = .ok ())
    (hr : e.rowsOf (e.blankInput snap) = .ok rows) :
    ∃ lastTime forceKeyframe, (e.encode snap).2 =
      { (if e.wantKeyframe snap.simTime then (e.keyframeBody (e.blankInput snap) rows).2
          else (e.deltaBody (e.blankInput snap) rows).2) with lastTime, forceKeyframe } := by
  unfold SnapshotEncoder.encode
  rw [ht]
  simp only [hr, SnapshotEncoder.blankInput_simTime]
  cases hk : e.wantKeyframe snap.simTime with
  | true =>
    simp only [if_true]
    cases hf : (e.encodeKeyframe (e.blankInput snap) rows).1 with
    | error err => exact ⟨_, _, rfl⟩
    | ok fr => exact ⟨_, _, rfl⟩
  | false =>
    simp only [Bool.false_eq_true, if_false]
    cases hf : (e.encodeDelta (e.blankInput snap) rows).1 with
    | error err => exact ⟨_, _, rfl⟩
    | ok fr => exact ⟨_, _, rfl⟩

/-- The encoder and the group of pictures it is in. -/
structure Linked (e : SnapshotEncoder) (g : Gop) : Prop where
  sound : g.Sound
  stepIndex : e.stepIndex = UInt32.ofNat g.deltas.length
  refs : ∀ slot : UInt32, g.roster slot.toNat ≠ u32None ↔ e.refs[slot]?.isSome = true

lemma named_rows (hnamed : ∀ a ∈ snap.actors, a.actor ≠ u32None)
    (hr : e.rowsOf (e.blankInput snap) = .ok rows) {slot : UInt32} {t : Target}
    (ht : rows[slot]? = some t) : t.actorId ≠ u32None := by
  obtain ⟨a, ha, _, rfl⟩ := (SnapshotEncoder.rowsOf_get hr).1 ht
  unfold SnapshotEncoder.blankInput at ha
  split_ifs at ha
  · obtain ⟨b, hb, rfl⟩ := List.mem_map.1 ha
    exact hnamed b (List.mem_of_mem_filter hb)
  · exact hnamed a ha

/-- A keyframe starts a group of pictures. -/
lemma linked_keyframe (hids : ∀ (slot : UInt32) t, rows[slot]? = some t → t.actorId ≠ u32None) :
    Linked (e.keyframeBody snap rows).2 ⟨(e.keyframeBody snap rows).1, []⟩ where
  sound := Gop.sound_keyframe _
  stepIndex := rfl
  refs slot := by
    show ((SnapshotEncoder.denseRows rows)[slot.toNat]?.map ActorRow.actorId).getD
      u32None ≠ u32None ↔
      (Std.ExtTreeMap.map (fun _ t => t.poseRef) rows)[slot]?.isSome = true
    rw [Std.ExtTreeMap.getElem?_map, Option.isSome_map]
    cases hrow : rows[slot]? with
    | some t =>
      rw [SnapshotEncoder.get_denseRows hrow]
      exact iff_of_true (hids slot t hrow) rfl
    | none =>
      refine iff_of_false (not_not_intro ?_) (by simp)
      cases hdense : (SnapshotEncoder.denseRows rows)[slot.toNat]? with
      | none => rfl
      | some r =>
        rw [SnapshotEncoder.get_denseRows_of_none hrow hdense]
        rfl

/-- A delta continues the group of pictures that its encoder is in. -/
lemma continues_deltaBody {g : Gop} (h : Linked e g)
    (hids : ∀ (slot : UInt32) t, rows[slot]? = some t → t.actorId ≠ u32None) :
    g.Continues (e.deltaBody snap rows).1 where
  stepIndex := by
    show e.stepIndex + 1 = _
    rw [h.stepIndex, UInt32.ofNat_add]
    rfl
  moved := by
    rw [e.deltaBody_eq]
    intro m hm
    obtain ⟨row, _, hrow⟩ := List.mem_filterMap.1 hm
    obtain ⟨r, hr, _, rfl⟩ := movedOf_eq_some.1 hrow
    exact (h.refs row.1).2 (Option.isSome_of_eq_some hr)
  spawns := by
    rw [e.deltaBody_eq]
    intro sp hsp
    obtain ⟨row, hrow, hspawn⟩ := List.mem_filterMap.1 hsp
    obtain ⟨_, rfl⟩ := spawnOf_eq_some.1 hspawn
    exact hids row.1 row.2 (OrdMap.mem_toList.1 hrow)

/-- The group of pictures after a delta of its encoder. -/
lemma linked_delta {g : Gop} (h : Linked e g)
    (hids : ∀ (slot : UInt32) t, rows[slot]? = some t → t.actorId ≠ u32None) :
    Linked (e.deltaBody snap rows).2 (g.push (e.deltaBody snap rows).1) where
  sound := h.sound.push (continues_deltaBody h hids)
  stepIndex := by
    show e.stepIndex + 1 = _
    rw [h.stepIndex, Gop.push, List.length_append, UInt32.ofNat_add]
    rfl
  refs slot := by
    have hrefs := h.refs slot
    have hspawned := (@continues_deltaBody _ snap _ _ h hids).spawns
    rw [e.deltaBody_refs, Option.isSome_map, Gop.roster_push, Roster.apply, Roster.foldl_despawn]
    rw [e.deltaBody_eq] at hspawned ⊢
    have hgone : slot.toNat ∈ ((e.goneSlots rows).map fun s =>
        (⟨s, snap.despawnCauses[s]?.getD u16None⟩ : DespawnRow)).map (fun dp => dp.slot.toNat) ↔
          slot ∈ e.goneSlots rows := by
      simp only [List.map_map, List.mem_map, Function.comp_apply, UInt32.toNat_inj, exists_eq_right]
    cases hrow : rows[slot]? with
    | none =>
      refine iff_of_false (not_not_intro ?_) Bool.false_ne_true
      by_cases hmem : slot ∈ e.goneSlots rows
      · rw [if_pos (hgone.2 hmem)]
      · have hr : e.refs[slot]? = none := by
          by_contra hne
          exact hmem ((e.mem_goneSlots rows).2 ⟨Option.ne_none_iff_exists'.1 hne, hrow⟩)
        rw [if_neg (hgone.not.2 hmem), Roster.foldl_spawn_of_notMem]
        · rw [hr] at hrefs
          exact not_not.1 (hrefs.not.2 Bool.false_ne_true)
        · intro sp hsp heq
          obtain ⟨row, hin, hspawn⟩ := List.mem_filterMap.1 hsp
          obtain ⟨_, rfl⟩ := spawnOf_eq_some.1 hspawn
          obtain rfl := UInt32.toNat_inj.1 heq
          exact nomatch hrow.symm.trans (OrdMap.mem_toList.1 hin)
    | some t =>
      have hmem : slot ∉ e.goneSlots rows := fun hmem =>
        nomatch hrow.symm.trans ((e.mem_goneSlots rows).1 hmem).2
      refine iff_of_true ?_ rfl
      rw [if_neg (hgone.not.2 hmem)]
      refine Roster.foldl_spawn_ne hspawned ?_
      cases hr : e.refs[slot]? with
      | some r => exact .inl (hrefs.2 (Option.isSome_of_eq_some hr))
      | none =>
        exact .inr ⟨_, List.mem_filterMap.2
          ⟨(slot, t), OrdMap.mem_toList.2 hrow, spawnOf_eq_some.2 ⟨hr, rfl⟩⟩, rfl⟩

/-! ## Runs of the server -/

/-- What is sent so far, and the state of the server. -/
structure Inv (s : Server) (P : List Sent) : Prop where
  below : ∀ i g, .frame i g ∈ P → i ≤ s.serial
  current : ∀ g G, .frame s.serial g ∈ P → s.gop = some G → g.Extends G
  total : ∀ i g g', .frame i g ∈ P → .frame i g' ∈ P → g.Extends g' ∨ g'.Extends g
  sound : ∀ i g, .frame i g ∈ P → g.Sound
  linked : ∀ G, s.gop = some G → Linked s.encoder G
  fresh : s.gop = none → s.encoder.lastKeyframeTime = none

lemma inv_new (origin : Axes F64) (cadence : Cadence) (profile : Profile) (firstSeq : UInt64) :
    Inv (new origin cadence profile firstSeq) [] where
  below := nofun
  current := nofun
  total := nofun
  sound := nofun
  linked := nofun
  fresh _ := rfl

/-- A frame with a new serial number. -/
lemma Inv.keyframe {s : Server} {P : List Sent} (h : Inv s P) {e' : SnapshotEncoder} {g : Gop}
    (hg : Linked e' g) : Inv ⟨e', s.serial + 1, some g⟩ (P ++ [.frame (s.serial + 1) g]) := by
  have hnew : ∀ g', .frame (s.serial + 1) g' ∈ P ++ [Sent.frame (s.serial + 1) g] → g' = g := by
    intro g' hg'
    obtain hold | hlast := List.mem_append.1 hg'
    · exact absurd (h.below _ _ hold) (by omega)
    · cases List.mem_singleton.1 hlast
      rfl
  have hold : ∀ i g', i ≠ s.serial + 1 → .frame i g' ∈ P ++ [Sent.frame (s.serial + 1) g] →
      .frame i g' ∈ P := by
    intro i g' hi hg'
    obtain hmem | hlast := List.mem_append.1 hg'
    · exact hmem
    · cases List.mem_singleton.1 hlast
      exact absurd rfl hi
  constructor
  case below =>
    intro i g' hg'
    by_cases hi : i = s.serial + 1
    · exact hi.le
    · exact (h.below i g' (hold i g' hi hg')).trans (Nat.le_succ _)
  case current =>
    rintro g' G hg' ⟨⟩
    rw [hnew g' hg']
    exact Gop.Extends.refl g
  case total =>
    intro i g₁ g₂ h₁ h₂
    by_cases hi : i = s.serial + 1
    · subst hi
      rw [hnew g₁ h₁, hnew g₂ h₂]
      exact .inl (Gop.Extends.refl g)
    · exact h.total i g₁ g₂ (hold i g₁ hi h₁) (hold i g₂ hi h₂)
  case sound =>
    intro i g' hg'
    by_cases hi : i = s.serial + 1
    · subst hi
      rw [hnew g' hg']
      exact hg.sound
    · exact h.sound i g' (hold i g' hi hg')
  case linked =>
    rintro G ⟨⟩
    exact hg
  case fresh => nofun

/-- A frame of the group of pictures that the server is in. -/
lemma Inv.delta {s : Server} {P : List Sent} (h : Inv s P) {e' : SnapshotEncoder} {g : Gop}
    (hg : s.gop = some g) {d : DeltaBody} (hd : Linked e' (g.push d)) :
    Inv ⟨e', s.serial, some (g.push d)⟩ (P ++ [.frame s.serial (g.push d)]) := by
  have hcurrent : ∀ g', .frame s.serial g' ∈ P ++ [Sent.frame s.serial (g.push d)] →
      g'.Extends (g.push d) := by
    intro g' hg'
    obtain hold | hlast := List.mem_append.1 hg'
    · exact (h.current g' g hold hg).push d
    · cases List.mem_singleton.1 hlast
      exact Gop.Extends.refl _
  have hold : ∀ i g', i ≠ s.serial → .frame i g' ∈ P ++ [Sent.frame s.serial (g.push d)] →
      .frame i g' ∈ P := by
    intro i g' hi hg'
    obtain hmem | hlast := List.mem_append.1 hg'
    · exact hmem
    · cases List.mem_singleton.1 hlast
      exact absurd rfl hi
  constructor
  case below =>
    intro i g' hg'
    by_cases hi : i = s.serial
    · exact hi.le
    · exact h.below i g' (hold i g' hi hg')
  case current =>
    rintro g' G hg' ⟨⟩
    exact hcurrent g' hg'
  case total =>
    intro i g₁ g₂ h₁ h₂
    by_cases hi : i = s.serial
    · subst hi
      exact (hcurrent g₁ h₁).total (hcurrent g₂ h₂)
    · exact h.total i g₁ g₂ (hold i g₁ hi h₁) (hold i g₂ hi h₂)
  case sound =>
    intro i g' hg'
    obtain hmem | hlast := List.mem_append.1 hg'
    · exact h.sound i g' hmem
    · cases List.mem_singleton.1 hlast
      exact hd.sound
  case linked =>
    rintro G ⟨⟩
    exact hd
  case fresh => nofun

lemma Inv.silent {s s' : Server} {P : List Sent} (h : Inv s P) (hserial : s'.serial = s.serial)
    (hcurrent : ∀ G, s'.gop = some G → s.gop = some G ∧ Linked s'.encoder G)
    (hfresh : s'.gop = none → s'.encoder.lastKeyframeTime = none) : Inv s' P where
  below i g hg := hserial ▸ h.below i g hg
  current g G hg hG := h.current g G (hserial ▸ hg) (hcurrent G hG).1
  total := h.total
  sound := h.sound
  linked G hG := (hcurrent G hG).2
  fresh := hfresh

lemma Inv.hello {s : Server} {P : List Sent} (h : Inv s P) (m : HelloMessage) :
    Inv s (P ++ [.hello m]) := by
  have hframe : ∀ i g, .frame i g ∈ P ++ [Sent.hello m] → .frame i g ∈ P := by
    intro i g hg
    obtain hmem | hlast := List.mem_append.1 hg
    · exact hmem
    · cases List.mem_singleton.1 hlast
  exact ⟨fun i g hg => h.below i g (hframe i g hg), fun g G hg => h.current g G (hframe _ g hg),
    fun i g g' hg hg' => h.total i g g' (hframe i g hg) (hframe i g' hg'),
    fun i g hg => h.sound i g (hframe i g hg), h.linked, h.fresh⟩

/-- A step whose rows are given. -/
lemma Inv.draft {s : Server} {P : List Sent} (h : Inv s P)
    (hnamed : ∀ a ∈ snap.actors, a.actor ≠ u32None)
    (ht : s.encoder.checkTime snap.simTime = .ok ())
    (hr : s.encoder.rowsOf (s.encoder.blankInput snap) = .ok rows) :
    Inv (s.draft snap rows).2 (P ++ (s.draft snap rows).1.toList) := by
  obtain ⟨lastTime, forceKeyframe, hsnd⟩ := encode_snd ht hr
  have hids : ∀ (slot : UInt32) t, rows[slot]? = some t → t.actorId ≠ u32None :=
    fun _ _ => named_rows hnamed hr
  unfold Server.draft
  rw [hsnd]
  cases hk : s.encoder.wantKeyframe snap.simTime with
  | true =>
    obtain ⟨hsound, hstep, hrefs⟩ :=
      @linked_keyframe s.encoder (s.encoder.blankInput snap) _ hids
    exact h.keyframe ⟨hsound, hstep, hrefs⟩
  | false =>
    cases hgop : s.gop with
    | none =>
      rw [SnapshotEncoder.wantKeyframe, h.fresh hgop, Bool.or_true] at hk
      cases hk
    | some g =>
      obtain ⟨hsound, hstep, hrefs⟩ :=
        @linked_delta _ (s.encoder.blankInput snap) _ _ (h.linked g hgop) hids
      exact h.delta hgop ⟨hsound, hstep, hrefs⟩

/-- What one step of the server preserves. -/
lemma Inv.step {s : Server} {P : List Sent} (h : Inv s P) {op : ServerOp} (hop : op.Named) :
    Inv (s.step op).2 (P ++ (s.step op).1.toList) := by
  cases op with
  | hello m => exact h.hello m
  | requestKeyframe =>
    rw [Server.step, Option.toList_none, List.append_nil]
    refine h.silent rfl (fun G hG => ⟨hG, ?_⟩) h.fresh
    obtain ⟨hsound, hstep, hrefs⟩ := h.linked G hG
    exact ⟨hsound, hstep, hrefs⟩
  | renew origin cadence profile firstSeq =>
    rw [Server.step, Option.toList_none, List.append_nil]
    exact h.silent rfl nofun fun _ => rfl
  | encode snap =>
    have hsilent : Inv s (P ++ (none : Option Sent).toList) := by
      rwa [Option.toList_none, List.append_nil]
    unfold Server.step
    dsimp only
    cases ht : s.encoder.checkTime snap.simTime with
    | error err => exact hsilent
    | ok u =>
      cases hr : s.encoder.rowsOf (s.encoder.blankInput snap) with
      | error err => exact hsilent
      | ok rows => exact h.draft hop ht hr

lemma inv_produced (origin : Axes F64) (cadence : Cadence) (profile : Profile) (firstSeq : UInt64)
    {ops : List ServerOp} (hops : ∀ op ∈ ops, op.Named) :
    Inv (Mealy.run step (new origin cadence profile firstSeq) ops)
      ((new origin cadence profile firstSeq).produced ops) := by
  induction ops using List.reverseRecOn with
  | nil => exact inv_new origin cadence profile firstSeq
  | append_singleton ops op ih =>
    have hinit := ih fun op' hop' => hops op' (List.mem_append_left _ hop')
    have hlast := hinit.step (hops op (List.mem_append_right _ (List.mem_singleton_self op)))
    rw [produced, Mealy.outputs_concat, Mealy.run_concat, List.filterMap_append]
    exact hlast

variable {origin : Axes F64} {cadence : Cadence} {profile : Profile} {firstSeq : UInt64}
  {ops : List ServerOp}

lemma produced_extends (hops : ∀ op ∈ ops, op.Named) {i : ℕ} {g g' : Gop}
    (hg : .frame i g ∈ (new origin cadence profile firstSeq).produced ops)
    (hg' : .frame i g' ∈ (new origin cadence profile firstSeq).produced ops) :
    g.Extends g' ∨ g'.Extends g :=
  (inv_produced origin cadence profile firstSeq hops).total i g g' hg hg'

lemma produced_sound (hops : ∀ op ∈ ops, op.Named) {i : ℕ} {g : Gop}
    (hg : .frame i g ∈ (new origin cadence profile firstSeq).produced ops) : g.Sound :=
  (inv_produced origin cadence profile firstSeq hops).sound i g hg

end Server

end V2xw.Client
