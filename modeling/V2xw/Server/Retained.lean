import V2xw.Lib.Triple
import V2xw.Record.EncoderSpec
import V2xw.Server.Ledger

/-!
# The operations of a session keep its ledger

Every procedure of a session is followed with a triple over `Ledger.Kept`: one for each frame that
is built, one for queueing it, and from them one for a step, for a greeting and for a seek.

Two things break the ledger, and the triples say so. The frame of provenance that appends strings
must fit its length field, since the table has grown when that is found out. And no telemetry may
come with a seek, since that frame takes a number and is not retained.

## Main definitions

* `ProvenanceBody.Sendable` — provenance that can be sent, if it appends strings.
* `Session.SeekSilent` — no telemetry comes with the seek.

## Main results

* `Session.kept_encodeStep`, `Session.kept_encodeCurrent`,
  `Session.kept_encodeSeek` — the operations that make frames.
* `Session.exec_hello_resumed`, `Session.exec_hello_fresh` — the two kinds
  of handshake.
-/

namespace V2xw.Server

open Record (SimTime RecordError MsgType Snapshot SnapshotEncoder SnapshotFrame)
open Stream.Proc

/-! ## Frames of the encoder -/

/-- The message type of the frame of a snapshot. -/
def snapshotKind (keyframe : Bool) : MsgType := if keyframe then .keyframe else .delta

lemma Frame.ofRecord_build (h : Record.FrameHeader) (b : Layout.Bytes) :
    Frame.ofRecord (Record.Frame.build h b) = .ok ⟨h.msgType, h.flags, h.seq.toNat, .raw b⟩ := by
  rw [Frame.ofRecord, Record.Frame.header_build, Record.Frame.body_build]
  rfl

/-- **The frame of a snapshot** has the message type of its kind, and a body that is only passed
on. -/
lemma Frame.ofRecord_encode {e e' : SnapshotEncoder} {snap : Snapshot} {f : SnapshotFrame}
    (h : e.encode snap = (.ok f, e')) :
    ∃ flags seq bytes, Frame.ofRecord f.frame =
      .ok ⟨(snapshotKind f.isKeyframe).id, flags, seq, .raw bytes⟩ := by
  obtain ⟨rows, _, _, ⟨_, ⟨fr, hfr, rfl⟩, _⟩ | ⟨_, ⟨fr, hfr, rfl⟩, _⟩⟩ :=
    SnapshotEncoder.encode_cases h
  · obtain ⟨_, rfl⟩ := Record.Frame.new_eq_ok.1 hfr
    exact ⟨_, _, _, Frame.ofRecord_build _ _⟩
  · obtain ⟨_, rfl⟩ := Record.Frame.new_eq_ok.1 hfr
    exact ⟨_, _, _, Frame.ofRecord_build _ _⟩

/-! ## Provenance -/

namespace ProvenanceBody

/-- Provenance that can be sent, if it appends strings: its body fits the length field. -/
def Sendable (b : ProvenanceBody) : Prop := b.extension ≠ [] → b.encodedLen < 2 ^ 32

instance (b : ProvenanceBody) : Decidable b.Sendable :=
  inferInstanceAs (Decidable (b.extension ≠ [] → b.encodedLen < 2 ^ 32))

@[simp]
lemma encodedLen_mapIds (f : UInt32 → UInt32) (b : ProvenanceBody) :
    (b.mapIds f).encodedLen = b.encodedLen := by
  simp only [encodedLen, mapIds, List.length_map]

@[simp]
lemma extension_mapIds (f : UInt32 → UInt32) (b : ProvenanceBody) :
    (b.mapIds f).extension = b.extension := rfl

end ProvenanceBody

namespace Session

/-- The ledger of a session agrees with the frames made. -/
def Kept (o : Opening) (made : List Frame) (s : Session) : Prop := s.ledger.Kept o made

variable {o : Opening} {made : List Frame}

/-! ## Building a frame -/

lemma exec_takeSeq (s : Session) :
    exec takeSeq s = (.ok s.seq, { s with seq := s.seq + 1 }) := rfl

/-- A number was just taken. -/
def Took (o : Opening) (n : ℕ) (s : Session) : Prop :=
  ∃ l : Ledger, l.Kept o [] ∧ n = l.seq ∧ s.ledger = { l with seq := l.seq + 1 }

/-- A frame without an extension was just built, and its number taken. -/
def Built (o : Opening) (f : Frame) (s : Session) : Prop :=
  Took o f.seq s ∧ f.kind.any MsgType.isCanonical = true ∧ f.extension = []

lemma Took.kept {n : ℕ} {s : Session} (h : Took o n s) : Kept o [] s := by
  obtain ⟨l, hl, _, hs⟩ := h
  rw [Kept, hs]
  exact hl.skip

lemma Built.kept {f : Frame} {s : Session} (h : Built o f s) : Kept o [f] s := by
  obtain ⟨⟨l, hl, hseq, hs⟩, hkind, hext⟩ := h
  have hmake := hl.make hseq hkind
  rw [hext, List.append_nil, if_pos rfl] at hmake
  rw [Kept, hs]
  exact hmake

lemma Built.withFlags {f : Frame} {s : Session} (h : Built o f s) (flags : UInt16) :
    Built o (f.withFlags flags) s := h

lemma took_takeSeq {E : Session → Prop} : Triple (Kept o []) takeSeq (Took o) E :=
  fun s hs => ⟨s.ledger, hs, rfl, rfl⟩

/-- Building a frame that extends nothing. -/
lemma built_toFrame {kind : MsgType} {n : ℕ} {flags : UInt16} {body : Body}
    (hkind : kind.isCanonical = true) (hbody : ∀ b, body ≠ .provenance b) :
    Triple (Took o n) (ofExcept (toFrame kind n flags body)) (Built o) (Kept o []) := by
  intro s hs
  cases h : toFrame kind n flags body with
  | error e => exact hs.kept
  | ok f =>
    obtain ⟨_, rfl⟩ := toFrame_eq_ok.1 h
    refine ⟨hs, ?_, ?_⟩
    · rw [Frame.kind, MsgType.fromId_id]
      exact hkind
    · cases body with
      | provenance b => exact absurd rfl (hbody b)
      | _ => rfl

lemma kept_telemetryFrame (out : StepOutput) :
    Triple (Kept o []) (telemetryFrame out)
      (fun f s => ∀ flags, Kept o (f.map fun f => f.withFlags flags).toList s) (Kept o []) := by
  refine Triple.bind_get fun s hs => ?_
  dsimp only
  split
  · exact Triple.pure fun t ht _ => ht ▸ hs
  · refine Triple.bind (took_takeSeq.pre fun t ht => ht ▸ hs) fun n => ?_
    refine Triple.bind (built_toFrame rfl fun b => nofun) fun f => ?_
    exact Triple.pure fun t ht flags => (ht.withFlags flags).kept

lemma kept_eventFrames (out : StepOutput) :
    Triple (Kept o []) (eventFrames out) (fun fs => Kept o fs) (Kept o []) := by
  refine Triple.bind_get fun s hs => ?_
  dsimp only
  split
  · exact Triple.pure fun t ht => ht ▸ hs
  · split
    · exact Triple.pure fun t ht => ht ▸ hs
    · refine Triple.bind (took_takeSeq.pre fun t ht => ht ▸ hs) fun n => ?_
      refine Triple.bind (built_toFrame rfl fun b => nofun) fun f => ?_
      exact Triple.pure fun t ht => ht.kept

lemma kept_metricFrame (out : StepOutput) :
    Triple (Kept o []) (metricFrame out) (fun f => Kept o f.toList) (Kept o []) := by
  refine Triple.bind_get fun s hs => ?_
  dsimp only
  split
  · exact Triple.pure fun t ht => ht ▸ hs
  · refine Triple.bind (took_takeSeq.pre fun t ht => ht ▸ hs) fun n => ?_
    refine Triple.bind (built_toFrame rfl fun b => nofun) fun f => ?_
    exact Triple.pure fun t ht => ht.kept

/-- The snapshot of a step. -/
lemma built_snapshotFrame (snap : Snapshot) :
    Triple (Kept o []) (snapshotFrame snap) (fun p => Built o p.1) (Kept o []) := by
  refine Triple.bind_get fun s hs => ?_
  dsimp only
  refine Triple.bind (Triple.modify (Q := fun _ => Kept o []) fun t ht => ht ▸ hs) fun _ => ?_
  cases henc : s.encoder.encode snap with
  | mk outcome encoder =>
    cases outcome with
    | error e => exact fun t ht => ht
    | ok f =>
      obtain ⟨flags, seq, bytes, hf⟩ := Frame.ofRecord_encode henc
      refine Triple.bind (Triple.pure (Q := fun g t => g = f ∧ Kept o [] t) fun t ht => ⟨rfl, ht⟩)
        fun g => Triple.of_forall fun t ht => ?_
      obtain ⟨rfl, ht⟩ := ht
      refine Triple.bind (took_takeSeq.pre fun u hu => hu ▸ ht) fun n => ?_
      rw [hf]
      intro u hu
      refine ⟨hu, ?_, rfl⟩
      show (MsgType.fromId (snapshotKind g.isKeyframe).id).any MsgType.isCanonical = true
      rw [MsgType.fromId_id]
      cases g.isKeyframe <;> rfl

/-- The frame of provenance: the table grows by what the frame appends. -/
lemma kept_provenanceFrame {prov : ProvenanceBody} (h : prov.Sendable) :
    Triple (Kept o []) (provenanceFrame prov) (fun f => Kept o [f]) (Kept o []) := by
  intro s hs
  have hskip : s.ledger.Kept o [] := hs
  unfold provenanceFrame
  cases hstr : prov.strings with
  | none =>
    have hext : prov.extension = [] := by rw [ProvenanceBody.extension, hstr]
    simp only [exec_bind, exec_get, exec_takeSeq]
    cases hf : toFrame .provenance s.seq s.profile.frameFlag (.provenance prov) with
    | error e => exact hskip.skip
    | ok f =>
      obtain ⟨_, rfl⟩ := toFrame_eq_ok.1 hf
      have hmake := hskip.make (f := ⟨MsgType.provenance.id, s.profile.frameFlag, s.seq,
        .provenance prov⟩) rfl rfl
      rw [show Frame.extension ⟨_, _, _, .provenance prov⟩ = [] from hext, List.append_nil,
        if_pos rfl] at hmake
      exact hmake
  | some ext =>
    -- Whether the ids move or not, the length of the body and the extension are those of `prov`.
    have hbody : ∃ body : ProvenanceBody,
        (if 0 < s.strings.strings.length - s.helloBase then
          prov.mapIds (bumpId s.helloBase (s.strings.strings.length - s.helloBase))
        else prov) = body ∧ body.encodedLen = prov.encodedLen ∧ body.extension = ext.strings := by
      have hext : prov.extension = ext.strings := by rw [ProvenanceBody.extension, hstr]
      split
      · exact ⟨_, rfl, ProvenanceBody.encodedLen_mapIds _ _, hext⟩
      · exact ⟨_, rfl, rfl, hext⟩
    obtain ⟨body, hbody, hlen, hext⟩ := hbody
    simp only [exec_bind, exec_get, exec_modify, exec_takeSeq, hbody]
    cases hf : toFrame .provenance s.seq s.profile.frameFlag (.provenance body) with
    | error e =>
      -- The body does not fit, so it appends nothing.
      have hnil : ext.strings = [] := by
        by_contra hne
        have hfit := h (by rw [ProvenanceBody.extension, hstr]; exact hne)
        rw [← hlen] at hfit
        rw [toFrame, if_pos (show (Body.provenance body).encodedLen < 2 ^ 32 from hfit)] at hf
        cases hf
      have hledger := hskip.skip
      show Ledger.Kept o [] _
      simp only [Session.ledger, hnil, List.append_nil, List.isEmpty_nil, if_true] at hledger ⊢
      exact hledger
    | ok f =>
      obtain ⟨_, rfl⟩ := toFrame_eq_ok.1 hf
      have hmake := hskip.make (f := ⟨MsgType.provenance.id, s.profile.frameFlag, s.seq,
        .provenance body⟩) rfl rfl
      show Ledger.Kept o [_] _
      rw [show Frame.extension ⟨_, _, _, .provenance body⟩ = ext.strings from hext] at hmake
      simp only [Session.ledger, List.isEmpty_iff] at hmake ⊢
      exact hmake

/-! ## Queueing a frame -/

/-- **Queueing a frame** retains it. -/
lemma kept_push (f : Frame) (keyframe : Bool) (fx : StepEffects) {E : Session → Prop} :
    Triple (Kept o (f :: made)) (push f keyframe fx) (fun _ => Kept o made) E := by
  intro s hs
  have hretain := Ledger.Kept.retain hs keyframe
  have hledger : (retain f keyframe s).ledger =
      { s.ledger with
        ring := s.retained f keyframe
        produced := s.produced ++ [f]
        marks := prunedMarks (s.retained f keyframe) s.stringMarks } := by
    simp only [Session.ledger, Session.retain, hs.canonical f List.mem_cons_self, if_true]
  show Ledger.Kept o made (retain f keyframe s).ledger
  rw [hledger]
  cases hfirst : (s.retained f keyframe).firstSeq with
  | none =>
    rw [prunedMarks, hfirst]
    exact hretain
  | some first =>
    rw [prunedMarks, hfirst]
    exact hretain.prune hfirst

lemma kept_pushOption (f : Option Frame) (fx : StepEffects) {E : Session → Prop} :
    Triple (Kept o f.toList) (pushOption f fx) (fun _ => Kept o []) E := by
  cases f with
  | none => exact Triple.pure fun s hs => hs
  | some f => exact kept_push f false fx

lemma kept_pushAll (fs : List Frame) {E : Session → Prop} :
    ∀ fx, Triple (Kept o fs) (pushAll fs fx) (fun _ => Kept o []) E := by
  induction fs with
  | nil => exact fun fx => Triple.pure fun s hs => hs
  | cons f fs ih => exact fun fx => Triple.bind (kept_push f false fx) fun fx => ih fx

lemma kept_pushProvenance {prov : Option ProvenanceBody} (h : ∀ p ∈ prov, p.Sendable)
    (fx : StepEffects) :
    Triple (Kept o []) (pushProvenance prov fx) (fun _ => Kept o []) (Kept o []) := by
  cases prov with
  | none => exact Triple.pure fun s hs => hs
  | some prov =>
    exact Triple.bind (kept_provenanceFrame (h prov rfl)) fun f => kept_push f false fx

/-! ## Steps -/

/-- The provenance of the run can be sent. -/
def Ready (s : Session) : Prop := ∀ p ∈ s.provenance, p.Sendable

instance (s : Session) : Decidable s.Ready :=
  inferInstanceAs (Decidable (∀ p ∈ s.provenance, p.Sendable))

lemma Built.stepFrame {f : Frame} {s : Session} (h : Built o f s) (owed endOfRun : Bool) :
    Built o (stepFrame f owed endOfRun) s := by
  unfold Session.stepFrame
  dsimp only
  split <;> split <;> exact h

lemma kept_pushSnapshot (out : StepOutput) :
    Triple (Kept o []) (pushSnapshot out) (fun _ => Kept o []) (Kept o []) := by
  refine Triple.bind (Triple.modify (Q := fun _ => Kept o []) fun s hs => hs) fun _ => ?_
  refine Triple.bind (built_snapshotFrame _) fun p => ?_
  refine Triple.bind_get fun s hs => ?_
  refine Triple.bind (Triple.modify (Q := fun _ => Kept o [_]) fun t ht =>
    (Built.stepFrame (ht ▸ hs) (p.2 && s.resyncPending) out.endOfRun).kept) fun _ => ?_
  exact Triple.bind (kept_push _ _ _) fun fx => Triple.pure fun t ht => ht

lemma frame_snapshotFrame {P : Session → Prop}
    (hP : ∀ s encoder seq, P s → P { s with encoder, seq }) (snap : Snapshot) :
    Triple P (snapshotFrame snap) (fun _ => P) P := by
  intro s hs
  unfold snapshotFrame
  simp only [exec_bind, exec_get, exec_modify]
  cases (s.encoder.encode snap).1 with
  | error e => exact hP s _ s.seq hs
  | ok f =>
    simp only [ofRecord, exec_pure, exec_takeSeq, exec_bind]
    cases Frame.ofRecord f.frame <;> exact hP s _ _ hs

lemma ready_pushSnapshot (out : StepOutput) :
    Triple Ready (pushSnapshot out) (fun _ => Ready) Ready := by
  refine Triple.bind (Triple.modify (Q := fun _ => Ready) fun s hs => hs) fun _ => ?_
  refine Triple.bind (frame_snapshotFrame (fun _ _ _ h => h) _) fun p => ?_
  refine Triple.bind_get fun s hs => ?_
  refine Triple.bind (Triple.modify (Q := fun _ => Ready) fun t ht => ht ▸ hs) fun _ => ?_
  exact Triple.bind (Q := fun _ => Ready) (fun t ht => ht) fun fx => Triple.pure fun t ht => ht

lemma kept_takeProvenance (keyframe : Bool) (fx : StepEffects) :
    Triple (fun s => Kept o [] s ∧ s.Ready) (takeProvenance keyframe fx) (fun _ => Kept o [])
      (Kept o []) := by
  unfold takeProvenance
  split
  · refine Triple.bind_get fun s hs => ?_
    refine Triple.bind (Triple.modify (Q := fun _ => Kept o []) fun t ht => ht ▸ hs.1) fun _ => ?_
    exact kept_pushProvenance hs.2 fx
  · exact Triple.pure fun s hs => hs.1

lemma kept_pushRows (out : StepOutput) (fx : StepEffects) :
    Triple (Kept o []) (pushRows out fx) (fun _ => Kept o []) (Kept o []) := by
  refine Triple.bind (kept_telemetryFrame out) fun telemetry => ?_
  refine Triple.bind (Q := fun _ => Kept o [])
    ((kept_pushOption telemetry fx).pre fun s hs => ?_) fun fx => ?_
  · cases telemetry with
    | none => exact hs 0
    | some f => exact hs f.flags
  refine Triple.bind (kept_eventFrames out) fun events => ?_
  refine Triple.bind (kept_pushAll events fx) fun fx => ?_
  exact Triple.bind (kept_metricFrame out) fun metric => kept_pushOption metric fx

lemma kept_noticeDrops (fx : StepEffects) {E : Session → Prop} :
    Triple (Kept o []) (noticeDrops fx) (fun _ => Kept o []) E := by
  refine Triple.bind_get fun s hs => ?_
  split
  · exact Triple.pure fun t ht => ht ▸ hs
  · split
    · exact Triple.pure fun t ht => ht ▸ hs
    · exact Triple.bind (Triple.modify (Q := fun _ => Kept o []) fun t ht => ht ▸ hs)
        fun _ => Triple.pure fun t ht => ht

lemma kept_drainQueue {E : Session → Prop} :
    Triple (Kept o []) drainQueue (fun _ => Kept o []) E := fun _ hs => hs

lemma kept_encodeFresh {out : StepOutput} (hout : ∀ p ∈ out.provenance, p.Sendable) :
    Triple (fun s => Kept o [] s ∧ s.Ready) (encodeFresh out) (fun _ => Kept o [])
      (Kept o []) := by
  refine Triple.bind (((kept_pushSnapshot out).and (ready_pushSnapshot out)).conseq
    (fun s hs => hs) (fun _ _ hs => hs) fun s hs => hs.1) fun p => ?_
  refine Triple.bind (kept_takeProvenance p.2 p.1) fun fx => ?_
  refine Triple.bind (kept_pushProvenance hout fx) fun fx => ?_
  refine Triple.bind (kept_pushRows out fx) fun fx => ?_
  refine Triple.bind (kept_noticeDrops fx) fun fx => ?_
  exact Triple.bind kept_drainQueue fun frames => Triple.pure fun s hs => hs

/-- **A step** keeps the ledger. -/
theorem kept_encodeStep {out : StepOutput} (hlive : out.recorded = [])
    (hout : ∀ p ∈ out.provenance, p.Sendable) :
    Triple (fun s => Kept o [] s ∧ s.Ready) (encodeStep out) (fun _ => Kept o [])
      (Kept o []) := by
  unfold encodeStep
  rw [hlive, List.isEmpty_nil, if_pos rfl]
  refine Triple.bind_get fun s hs => ?_
  split
  · exact Triple.pure fun t ht => ht ▸ hs.1
  · exact (kept_encodeFresh hout).pre fun t ht => ht ▸ hs

/-- **The greeting** keeps the ledger. -/
theorem kept_encodeCurrent {out : StepOutput} (hlive : out.recorded = [])
    (hout : ∀ p ∈ out.provenance, p.Sendable) :
    Triple (fun s => Kept o [] s ∧ s.Ready) (encodeCurrent out) (fun _ => Kept o [])
      (Kept o []) := by
  refine Triple.bind (Triple.modify (Q := fun _ s => Kept o [] s ∧ s.Ready) fun s hs => hs)
    fun _ => ?_
  exact Triple.bind (kept_encodeStep hlive hout) fun fx => Triple.pure fun s hs => hs

/-! ## Seeks -/

lemma kept_seekFrame (out : StepOutput) :
    Triple (Kept o []) (seekFrame out) (fun _ => Kept o []) (Kept o []) := by
  refine Triple.bind (built_snapshotFrame _) fun p => ?_
  refine Triple.bind (Triple.modify (Q := fun _ => Kept o []) fun s hs => ?_) fun _ =>
    Triple.pure fun s hs => hs
  have hmarked : Built o (seekMarked p.1 p.2) s := by
    unfold seekMarked
    split <;> exact hs
  exact Ledger.Kept.retain hmarked.kept p.2

lemma kept_seekLoop (outs : List StepOutput) :
    ∀ acc, Triple (Kept o []) (seekLoop outs acc) (fun _ => Kept o []) (Kept o []) := by
  induction outs with
  | nil => exact fun acc => Triple.pure fun s hs => hs
  | cons out outs ih =>
    exact fun acc => Triple.bind (kept_seekFrame out) fun p => ih _

lemma telemetryNodes_seekLoop (nodes : Finset UInt32) (outs : List StepOutput) :
    ∀ acc, Triple (fun s => s.telemetryNodes = nodes) (seekLoop outs acc)
      (fun _ s => s.telemetryNodes = nodes) fun s => s.telemetryNodes = nodes := by
  induction outs with
  | nil => exact fun acc => Triple.pure fun s hs => hs
  | cons out outs ih =>
    refine fun acc => Triple.bind (Q := fun _ s => s.telemetryNodes = nodes) ?_ fun p => ih _
    refine Triple.bind (frame_snapshotFrame (fun _ _ _ h => h) _) fun p => ?_
    exact Triple.bind (Q := fun _ s => s.telemetryNodes = nodes)
      (Triple.modify fun s hs => hs) fun _ => Triple.pure fun s hs => hs

/-- No telemetry of a followed node comes with the answer to the seek. -/
def SeekSilent (s : Session) (outs : List StepOutput) : Prop :=
  ∀ last ∈ outs.getLast?, ∀ r ∈ last.telemetry, r.nodeId ∉ s.telemetryNodes

instance (s : Session) (outs : List StepOutput) : Decidable (s.SeekSilent outs) :=
  inferInstanceAs (Decidable (∀ last ∈ outs.getLast?, ∀ r ∈ last.telemetry,
    r.nodeId ∉ s.telemetryNodes))

/-- **A seek** without telemetry keeps the ledger. -/
theorem kept_encodeSeek (outs : List StepOutput) :
    Triple (fun s => Kept o [] s ∧ s.SeekSilent outs) (encodeSeek outs) (fun _ => Kept o [])
      (Kept o []) := by
  refine Triple.bind_get fun s hs => ?_
  split
  · exact Triple.pure fun t ht => ht ▸ hs.1
  next last hlast =>
    refine Triple.bind (Triple.modify
      (Q := fun _ t => Kept o [] t ∧ t.telemetryNodes = s.telemetryNodes)
      fun t ht => by
        subst ht
        exact ⟨hs.1, rfl⟩) fun _ => ?_
    refine Triple.bind (((kept_seekLoop outs _).and
      (telemetryNodes_seekLoop s.telemetryNodes outs _)).conseq (fun t ht => ht)
      (fun _ t ht => ht) fun t ht => ht.1) fun answer => ?_
    refine Triple.bind (Q := fun _ => Kept o []) ?_ fun companion => Triple.pure fun t ht => ht
    intro t ht
    -- Nothing of the last output is of a node the client follows.
    have hnone : last.telemetry.filter (fun r => decide (r.nodeId ∈ t.telemetryNodes)) = [] := by
      refine List.filter_eq_nil_iff.2 fun r hr => ?_
      rw [decide_eq_true_eq, ht.2]
      exact hs.2 last hlast r hr
    have hframe : exec (telemetryFrame last) t = (.ok none, t) := by
      unfold telemetryFrame
      simp only [exec_bind, exec_get, hnone, List.isEmpty_nil, if_true, exec_pure]
    unfold seekCompanion
    rw [exec_bind, hframe]
    exact ht.1

/-! ## Subscriptions -/

@[simp]
lemma exec_ofExcept {α : Type} (r : Except ServerError α) (s : Session) :
    exec (ofExcept r) s = (r, s) := by
  cases r <;> rfl

section Subscriptions

variable {P : Session → Prop}
  (hP : ∀ s eventChannels eventNodes sample1In maxEventsPerStep, P s →
    P { s with eventChannels, eventNodes, sample1In, maxEventsPerStep })

include hP

lemma frame_subscribe (names : List String) :
    Triple P (subscribe names) (fun _ => P) P := by
  induction names with
  | nil => exact Triple.pure fun s hs => hs
  | cons name names ih =>
    refine Triple.bind_get fun s hs => ?_
    refine Triple.bind (Q := fun _ => P) ?_ fun id => ?_
    · intro t ht
      rw [exec_ofExcept]
      cases s.resolveChannel name <;> exact ht ▸ hs
    · exact Triple.bind (Triple.modify (Q := fun _ => P) fun t ht => hP t _ _ _ _ ht) fun _ => ih

/-- What does not depend on the subscriptions survives a change of them. -/
lemma frame_setEvents (names unsubscribe : List String) (only : Option (List String))
    (nodes : Option (List UInt32)) (sample1In maxEventsPerStep : Option ℕ) :
    Triple P (setEvents names unsubscribe only nodes sample1In maxEventsPerStep)
      (fun _ => P) P := by
  refine Triple.bind_get fun s hs => ?_
  have hrest : Triple P (do
      subscribe names
      modify fun s =>
        { s with
          eventChannels :=
            s.eventChannels \ (unsubscribe.filterMap fun n =>
              (channelByName n).bind ChannelSpec.wireId).toFinset
          eventNodes := (nodes.map List.toFinset).getD s.eventNodes
          sample1In := (sample1In.map fun n => max n 1).getD s.sample1In
          maxEventsPerStep := maxEventsPerStep.getD s.maxEventsPerStep }) (fun _ => P) P :=
    Triple.bind (frame_subscribe hP names) fun _ => Triple.modify fun t ht => hP t _ _ _ _ ht
  cases only with
  | none => exact hrest.pre fun t ht => ht ▸ hs
  | some only =>
    refine Triple.bind (Q := fun _ => P) ?_ fun ids => ?_
    · intro t ht
      rw [exec_ofExcept]
      cases only.mapM s.resolveChannel <;> exact ht ▸ hs
    · exact Triple.bind (Triple.modify (Q := fun _ => P) fun t ht => hP t _ _ _ _ ht)
        fun _ => hrest

end Subscriptions

/-! ## Handshakes -/

lemma exec_hello_resumed {s : Session} {seq : ℕ} (h : s.resumeTarget = some seq)
    (d : RunDescriptor) (state : RunState) (simTime : SimTime) (token : String)
    (nodes : Option (List NodeFacts × List String)) :
    exec (helloFrameWithNodes d state simTime token nodes) s =
      (toFrame .hello seq 0 (.hello (s.shown (s.resumedHello d state simTime token nodes seq))),
        ({ s with resumed := true }).welcomed) := by
  unfold helloFrameWithNodes finishHello
  simp only [exec_bind, exec_get, exec_modify, h, exec_ofExcept]
  rfl

lemma resumeBacklog_of_target {s : Session} {seq : ℕ} (h : s.resumeTarget = some seq) :
    s.resumeBacklog = (s.ring.replayFrom seq).map RingEntry.frame := by
  rw [resumeBacklog, show s.params.resume.filter (fun seq => s.canResume seq) = some seq from h]

/-- A handshake that does not resume. -/
lemma exec_hello_fresh {s : Session} (h : s.resumeTarget = none)
    (d : RunDescriptor) (state : RunState) (simTime : SimTime) (token : String)
    (nodes : Option (List NodeFacts × List String)) :
    exec (helloFrameWithNodes d state simTime token nodes) s =
      (toFrame .hello s.seq 0 (.hello (s.shown (s.freshHello d state simTime token nodes))),
        ({ s with
            resumed := false
            stringMarks := []
            provenance := d.provenance
            strings := freshStrings d token nodes }).welcomed) := by
  unfold helloFrameWithNodes finishHello
  simp only [exec_bind, exec_get, exec_modify, h, exec_ofExcept]
  rfl

end Session

end V2xw.Server
