import V2xw.Lib.Mealy
import V2xw.Server.Shedding

/-!
# Bases of deltas

A delta is applied to the snapshot before it, so a client that is sent a delta must have been sent
every snapshot since the last keyframe it has. This file follows the frames of one stream through
the send queue: those produced, those taken from its head, and the reports of what was shed.

## Main definitions

* `SendQueue.Takes` — the queue takes a frame, without the slips of `enqueue`.
* `Feed` — a queue with what went in, what came out and what was reported.
* `Feed.Continues`, `Feed.Takes` — what the encoder and the queue do with a
  frame of the stream.
* `Feed.BasesSent`, `Feed.LossesReported` — what the queue is for.

## Main results

* `SendQueue.enqueue_of_takes` — what one enqueue leaves.
* `Feed.bases_sent_and_losses_reported` — along runs whose frames the queue takes.
-/

namespace V2xw.Server

open Record (MsgType)

namespace SendQueue

/-! ## The frames a queue takes -/

/-- A delta waits in the queue behind its last keyframe, or behind none. -/
def openDelta (q : SendQueue) : Bool :=
  (q.items.reverse.takeWhile fun i => i.priority != .p1).any fun i => i.priority == .p2

/-- The queue has frames of a class. -/
def has (q : SendQueue) (x : Priority) : Bool := q.items.any fun i => i.priority == x

/-- The queue takes a frame of a class, and what it sheds leaves no delta without its base and no
loss without a resync:

* a connection frame is not larger than the queue, and takes the place of the keyframe only together
  with deltas;
* a keyframe fits beside the connection frames, and replaces a queued one only together with deltas;
* a delta fits beside the connection frames and the keyframe, and beside everything while a delta
  waits behind the last keyframe;
* any other frame fits beside the connection frames and the keyframe. -/
def Takes (q : SendQueue) (x : Priority) (size : ℕ) : Prop :=
  match x with
  | .p0 => size ≤ q.maxBytes ∧
      (q.Fits (ofClass isFixed q.items) size ∨ q.has .p1 = false ∨ q.has .p2 = true)
  | .p1 => q.Fits (ofClass (· == .p0) q.items) size ∧
      (q.has .p1 = false ∨
        q.has .p2 = true ∧ ¬ q.Fits (ofClass (· != .p1) q.items) size)
  | .p2 => q.Fits (ofClass isFixed q.items) size ∧
      (q.Fits q.items size ∨ q.openDelta = false)
  | .p3 => q.Fits (ofClass isFixed q.items) size

instance (q : SendQueue) (x : Priority) (size : ℕ) : Decidable (q.Takes x size) := by
  unfold Takes
  cases x <;> infer_instance

/-- Queued keyframes and deltas. -/
def snapshots (items : List Queued) : List Queued := ofClass isSnapshot items

/-- Queued keyframes. -/
def keyframes (items : List Queued) : List Queued := ofClass (· == .p1) items

lemma snapshots_of_no_delta {items : List Queued} (h : ∀ i ∈ items, i.priority ≠ .p2) :
    snapshots items = keyframes items := by
  refine List.filter_congr fun i hi => ?_
  have hno := h i hi
  cases hp : i.priority with
  | p2 => exact absurd hp hno
  | _ => rfl

/-- What one enqueue does to the queued snapshots: they stay; or the deltas go; or all go; and when
some go a resync is owed. A delta that goes in after others went finds none of them behind the last
keyframe. -/
def Leaves (q : SendQueue) (x : Priority) (r : EnqueueReport) (kept : List Queued) : Prop :=
  snapshots kept = snapshots q.items ∨
    r.resyncPending = true ∧
      (snapshots kept = keyframes q.items ∧ (x = .p2 → q.openDelta = false) ∨
        snapshots kept = [] ∧ x ≠ .p2)

lemma has_iff {q : SendQueue} {x : Priority} :
    q.has x = true ↔ ∃ i ∈ q.items, i.priority = x := by
  rw [has, List.any_eq_true]
  simp only [beq_iff_eq]

lemma has_eq_false_iff {q : SendQueue} {x : Priority} :
    q.has x = false ↔ ∀ i ∈ q.items, i.priority ≠ x := by
  rw [Bool.eq_false_iff, ne_eq, has_iff]
  exact ⟨fun h i hi hx => h ⟨i, hi, hx⟩, fun h ⟨i, hi, hx⟩ => h i hi hx⟩

lemma snapshots_eq_nil {items : List Queued} (h1 : ∀ i ∈ items, i.priority ≠ .p1)
    (h2 : ∀ i ∈ items, i.priority ≠ .p2) : snapshots items = [] := by
  refine List.filter_eq_nil_iff.2 fun i hi hsnap => ?_
  rw [isSnapshot, Bool.or_eq_true, beq_iff_eq, beq_iff_eq] at hsnap
  exact hsnap.elim (h1 i hi) (h2 i hi)

lemma isSnapshot_iff {x : Priority} : isSnapshot x = true ↔ x = .p1 ∨ x = .p2 := by
  rw [isSnapshot, Bool.or_eq_true, beq_iff_eq, beq_iff_eq]

/-- What a stage leaves of a queue for a frame of a class: what is gone is covered, with a resync
owed where it is a snapshot, and of the snapshots what the classes say is left. -/
structure Spared (q : SendQueue) (x : Priority) (p : SendQueue × EnqueueReport) : Prop where
  sound : p.1.Sound
  /-- No frame is added or moved. -/
  sublist : p.1.items.Sublist q.items
  caps : p.1.maxFrames = q.maxFrames ∧ p.1.maxBytes = q.maxBytes
  /-- A frame that is gone is covered, and a snapshot that is gone makes a resync owed. -/
  covered : ∀ i ∈ q.items, i ∈ p.1.items ∨ p.2.Covers i.frame.seq ∧
    (isSnapshot i.priority = true → p.2.resyncPending = true)
  leaves : q.Leaves x p.2 p.1.items

lemma Spared.refl {q : SendQueue} (hs : q.Sound) (x : Priority) (r : EnqueueReport) :
    Spared q x (q, r) :=
  ⟨hs, List.Sublist.refl _, ⟨rfl, rfl⟩, fun _ hi => .inl hi, .inl rfl⟩

/-- Deltas and other droppable frames are gone. -/
lemma Spared.of_deltas {q : SendQueue} {x : Priority} {p : SendQueue × EnqueueReport}
    (hs : q.Sound) (hshed : Shed (fun y => y == .p2 || y == .p3) (q, EnqueueReport.zero) p)
    (hnone : ∀ i ∈ p.1.items, i.priority ≠ .p2)
    (hres : (∃ i ∈ q.items, i.priority = .p2) → p.2.resyncPending = true)
    (hopen : x = .p2 → q.openDelta = false) : Spared q x p := by
  refine ⟨hshed.sound hs, hshed.sublist, hshed.caps, fun i hi => ?_, ?_⟩
  · refine (hshed.covered i hi).imp_right fun ⟨hc, hcov⟩ => ⟨hcov, fun hsnap => hres ⟨i, hi, ?_⟩⟩
    rw [Bool.or_eq_true, beq_iff_eq, beq_iff_eq] at hc
    refine hc.resolve_right fun h3 => ?_
    rw [h3] at hsnap
    cases hsnap
  · have hkeys : keyframes p.1.items = keyframes q.items :=
      hshed.others (· == .p1) (by rintro (_ | _ | _ | _) <;> decide)
    by_cases hex : ∃ i ∈ q.items, i.priority = .p2
    · exact .inr ⟨hres hex, .inl ⟨(snapshots_of_no_delta hnone).trans hkeys, hopen⟩⟩
    · refine .inl ?_
      rw [snapshots_of_no_delta hnone, hkeys, snapshots_of_no_delta]
      exact fun i hi h2 => hex ⟨i, hi, h2⟩

lemma Spared.of_snapshots {q : SendQueue} {x : Priority} {p : SendQueue × EnqueueReport}
    (hs : q.Sound) (hx : x ≠ .p2) (hshed : Shed (fun _ => true) (q, EnqueueReport.zero) p)
    (h1 : ∀ i ∈ p.1.items, i.priority ≠ .p1) (h2 : ∀ i ∈ p.1.items, i.priority ≠ .p2)
    (hres : q.has .p1 = true ∨ q.has .p2 = true → p.2.resyncPending = true) : Spared q x p := by
  refine ⟨hshed.sound hs, hshed.sublist, hshed.caps, fun i hi => ?_, ?_⟩
  · refine (hshed.covered i hi).imp_right fun ⟨_, hcov⟩ => ⟨hcov, fun hsnap => hres ?_⟩
    exact (isSnapshot_iff.1 hsnap).imp (fun h => has_iff.2 ⟨i, hi, h⟩)
      fun h => has_iff.2 ⟨i, hi, h⟩
  · by_cases hany : q.has .p1 = true ∨ q.has .p2 = true
    · exact .inr ⟨hres hany, .inr ⟨snapshots_eq_nil h1 h2, hx⟩⟩
    · rw [not_or, Bool.not_eq_true, Bool.not_eq_true, has_eq_false_iff, has_eq_false_iff] at hany
      exact .inl ((snapshots_eq_nil h1 h2).trans (snapshots_eq_nil hany.1 hany.2).symm)

/-- The room for a frame the queue takes, other than a keyframe. -/
lemma room_of_takes_other {q : SendQueue} (hs : q.Sound) {x : Priority} {size : ℕ}
    (hx : x ≠ .p1) (ht : q.Takes x size) :
    Spared q x (q.room x size) ∧
      ((q.room x size).1.wouldExceed size = false ∨ x = .p0 ∧ size ≤ q.maxBytes) := by
  obtain ⟨hshed, hroom, hfull, hover⟩ := shed_before hs x size
  obtain ⟨hkey, hkeep, hgone⟩ := shed_shedKeyframe x size (shedUpTo x size q)
  rw [(shed_replaceKeyframe x q).2.1 hx] at hshed hroom hfull hover
  rw [room_eq]
  by_cases hfit : q.Fits q.items size
  · have hex := (hs.wouldExceed_iff size).2 hfit
    rw [hroom hfit] at hkeep ⊢
    rw [hkeep (.inl hex)]
    exact ⟨Spared.refl hs x _, .inl hex⟩
  · obtain ⟨hnone, hres⟩ := hfull hfit
    have hopen : x = .p2 → q.openDelta = false := by
      rintro rfl
      exact ht.2.resolve_left hfit
    have hspared := Spared.of_deltas (x := x) hs hshed hnone hres hopen
    cases hex : (shedUpTo x size q).1.wouldExceed size with
    | false =>
      rw [hkeep (.inl hex)]
      exact ⟨hspared, .inl hex⟩
    | true =>
      -- only a connection frame may still not fit, and the keyframe goes for it
      have hfixed := hover hex
      cases x with
      | p1 => exact absurd rfl hx
      | p2 => exact absurd ht.1 hfixed
      | p3 => exact absurd ht hfixed
      | p0 =>
        obtain ⟨hsize, hslot⟩ := ht
        refine ⟨Spared.of_snapshots hs (by decide) ?_ (hgone hex rfl) (fun i hi => ?_)
          fun hany => ?_, .inr ⟨rfl, hsize⟩⟩
        · exact (hshed.mono fun _ _ => rfl).trans (hkey.mono fun _ _ => rfl)
        · exact hnone i (hkey.sublist.subset hi)
        · refine hkey.resync (hres (has_iff.1 ?_))
          rcases hany with h1 | h2
          · rcases hslot with hslot | hslot | hslot
            · exact absurd hslot hfixed
            · rw [hslot] at h1
              cases h1
            · exact hslot
          · exact h2

/-- The room for a keyframe the queue takes. -/
lemma room_of_takes_keyframe {q : SendQueue} (hs : q.Sound) {size : ℕ} (ht : q.Takes .p1 size) :
    Spared q .p1 (q.room .p1 size) ∧ (q.room .p1 size).1.wouldExceed size = false := by
  obtain ⟨hshed, hroom, hfull, hover⟩ := shed_before hs .p1 size
  obtain ⟨hrep, -, hgone⟩ := shed_replaceKeyframe .p1 q
  have h1 := hgone rfl
  have hitems : (q.replaceKeyframe .p1).1.items = ofClass (· != .p1) q.items := by
    rw [← hrep.others (· != .p1) (by rintro (_ | _ | _ | _) <;> decide), ofClass,
      List.filter_eq_self.2]
    exact fun i hi => bne_iff_ne.2 (h1 i hi)
  obtain ⟨hfixed, hslot⟩ := ht
  have hex : (shedUpTo .p1 size q).1.wouldExceed size = false := by
    rw [Bool.eq_false_iff]
    refine fun h => hover h ?_
    rw [hitems, ofClass, ofClass, List.filter_filter]
    refine hfixed.of_sublist ?_
    rw [ofClass]
    refine (List.filter_congr fun i _ => ?_).symm ▸ List.Sublist.refl _
    cases i.priority <;> rfl
  rw [room_eq, (shed_shedKeyframe .p1 size _).2.1 (.inl hex)]
  refine ⟨?_, hex⟩
  by_cases hfit : q.Fits (q.replaceKeyframe .p1).1.items size
  · have hno : q.has .p1 = false := hslot.resolve_right fun h => h.2 (hitems ▸ hfit)
    have hsame : (q.replaceKeyframe .p1).1.items = q.items := by
      rw [hitems, ofClass, List.filter_eq_self]
      exact fun i hi => bne_iff_ne.2 (has_eq_false_iff.1 hno i hi)
    rw [hroom hfit]
    exact ⟨hrep.sound hs, hrep.sublist, hrep.caps, fun i hi => .inl (hsame.symm ▸ hi),
      .inl (by rw [hsame])⟩
  · obtain ⟨hnone, hres⟩ := hfull hfit
    refine Spared.of_snapshots hs (by decide)
      ((hrep.mono fun _ _ => rfl).trans (hshed.mono fun _ _ => rfl))
      (fun i hi => h1 i (hshed.sublist.subset hi)) hnone fun hany => hres ?_
    have h2 : q.has .p2 = true := by
      rcases hany with h | h
      · rcases hslot with hslot | hslot
        · rw [hslot] at h
          cases h
        · exact hslot.1
      · exact h
    obtain ⟨i, hi, hi2⟩ := has_iff.1 h2
    refine ⟨i, ?_, hi2⟩
    rw [hitems, ofClass, List.mem_filter, hi2]
    exact ⟨hi, rfl⟩

/-- **An enqueue** of a frame the queue takes puts it at the end. -/
theorem enqueue_of_takes {q : SendQueue} (hs : q.Sound) {frame : Frame} {ty : MsgType}
    (hk : frame.kind = some ty) (ht : q.Takes (Priority.of ty) frame.size) :
    ∃ p : SendQueue × EnqueueReport, Spared q (Priority.of ty) p ∧
      q.enqueue frame = (p.2, { p.1 with
        items := p.1.items ++ [⟨Priority.of ty, ty, frame⟩]
        bytes := p.1.bytes + frame.size }) := by
  have hroom : Spared q (Priority.of ty) (q.room (Priority.of ty) frame.size) ∧
      ((q.room (Priority.of ty) frame.size).1.wouldExceed frame.size = false ∨
        Priority.of ty = .p0 ∧ frame.size ≤ q.maxBytes) := by
    by_cases hx : Priority.of ty = .p1
    · rw [hx] at ht ⊢
      obtain ⟨hspared, hex⟩ := room_of_takes_keyframe hs ht
      exact ⟨hspared, .inl hex⟩
    · exact room_of_takes_other hs hx ht
  obtain ⟨hspared, hadmit⟩ := hroom
  refine ⟨_, hspared, ?_⟩
  rw [enqueue_eq hk]
  dsimp only
  split_ifs with hex hpr hbig
  · rcases hadmit with h | h
    · rw [h] at hex
      cases hex
    · exact absurd h.1 hpr
  · rcases hadmit with h | h
    · rw [h] at hex
      cases hex
    · rw [hspared.caps.2] at hbig
      exact absurd h.2 (not_le.2 hbig)
  · rfl
  · rfl

/-- With no delta behind the last keyframe, every queued delta has a keyframe behind it. -/
lemma exists_keyframe_behind {q : SendQueue} (h : q.openDelta = false) {i : Queued}
    (hi : i ∈ q.items) (hp : i.priority = .p2) :
    ∃ before key behind, q.items = before ++ key :: behind ∧ i ∈ before ∧ key.priority = .p1 := by
  have hsplit := List.takeWhile_append_dropWhile (p := fun i => i.priority != .p1)
    (l := q.items.reverse)
  have hmem : i ∈ q.items.reverse.dropWhile fun i => i.priority != .p1 := by
    have hin := List.mem_reverse.2 hi
    rw [← hsplit, List.mem_append] at hin
    refine hin.resolve_left fun htake => ?_
    have hany := List.any_eq_false.1 h i htake
    rw [hp] at hany
    exact hany rfl
  cases hdrop : q.items.reverse.dropWhile fun i => i.priority != .p1 with
  | nil =>
    rw [hdrop] at hmem
    cases hmem
  | cons key rest =>
    have hkey : key.priority = .p1 := by
      have hhead := List.head_dropWhile_not (fun i : Queued => i.priority != .p1)
        (l := q.items.reverse) (by rw [hdrop]; exact List.cons_ne_nil _ _)
      simpa [hdrop] using hhead
    refine ⟨rest.reverse, key,
      (q.items.reverse.takeWhile fun i => i.priority != .p1).reverse, ?_, ?_, hkey⟩
    · rw [hdrop] at hsplit
      have hitems := congrArg List.reverse hsplit
      rw [List.reverse_append, List.reverse_cons, List.reverse_reverse, List.append_assoc] at hitems
      exact hitems.symm
    · rw [hdrop, List.mem_cons] at hmem
      refine List.mem_reverse.2 (hmem.resolve_left ?_)
      rintro rfl
      rw [hp] at hkey
      cases hkey

end SendQueue

/-! ## A stream through a queue -/

/-- An operation on the queue of a stream. -/
inductive FeedOp
  /-- The session produces a frame and queues it. -/
  | enqueue (frame : Frame)
  /-- The socket takes the frame at the head. -/
  | pop
  deriving DecidableEq, Repr

/-- A queue, with the frames of the stream that were produced and that were taken, and the reports
of the enqueues. -/
structure Feed where
  queue : SendQueue
  produced : List Frame
  popped : List Frame
  reports : List EnqueueReport
  /-- A resync was reported, and no keyframe was produced since. -/
  owed : Bool
  deriving DecidableEq, Repr

namespace Feed

/-- An empty queue, before the stream. -/
def new (maxFrames maxBytes : ℕ) : Feed := ⟨SendQueue.new maxFrames maxBytes, [], [], [], false⟩

/-- One operation. -/
def step (s : Feed) : FeedOp → Option EnqueueReport × Feed
  | .enqueue frame =>
    let (r, queue) := s.queue.enqueue frame
    (some r, { s with
      queue
      produced := s.produced ++ [frame]
      reports := s.reports ++ [r]
      owed := (s.owed && frame.kind != some .keyframe) || r.resyncPending })
  | .pop =>
    match s.queue.pop with
    | (none, _) => (none, s)
    | (some frame, queue) => (none, { s with queue, popped := s.popped ++ [frame] })

/-- The frames taken and queued. -/
def held (s : Feed) : List Frame := s.popped ++ s.queue.items.map Queued.frame

/-- The encoder of the stream numbers its snapshots in order. -/
def Continues (s : Feed) : FeedOp → Prop
  | .enqueue frame => frame.isSnapshot = true →
      ∀ g ∈ s.produced, g.isSnapshot = true → g.seq < frame.seq
  | .pop => True

/-- The queue takes the frame, and no delta is produced while a resync is owed. -/
def Takes (s : Feed) : FeedOp → Prop
  | .enqueue frame =>
    ∃ msgType ∈ frame.kind, s.queue.Takes (Priority.of msgType) frame.size ∧
      (msgType = .delta → s.owed = false)
  | .pop => True

instance (s : Feed) : DecidablePred s.Continues := by
  intro op
  unfold Continues
  cases op <;> infer_instance

instance (s : Feed) : DecidablePred s.Takes := by
  intro op
  unfold Takes
  cases op <;> infer_instance

/-- Every delta that was taken has its base: each snapshot produced between the last keyframe taken
before it and the delta was taken before it. -/
def BasesSent (s : Feed) : Prop :=
  ∀ before d behind, s.popped = before ++ d :: behind → d.kind = some .delta →
    ∀ g ∈ s.produced, g.isSnapshot = true → g.seq < d.seq →
      (∀ k ∈ before, k.kind = some .keyframe → k.seq < g.seq) → g ∈ before

/-- Every frame produced was taken, or waits, or is covered by a report, which makes a resync owed
if the frame is a snapshot. -/
def LossesReported (s : Feed) : Prop :=
  ∀ f ∈ s.produced, f ∈ s.held ∨
    ∃ r ∈ s.reports, r.Covers f.seq ∧ (f.isSnapshot = true → r.resyncPending = true)

/-- What holds along a stream. -/
structure Inv (s : Feed) : Prop where
  sound : s.queue.Sound
  /-- The snapshots are numbered in order. -/
  ordered : (s.produced.filter Frame.isSnapshot).Pairwise fun f g => f.seq < g.seq
  /-- Frames are taken in the order they were produced. -/
  sublist : s.held.Sublist s.produced
  /-- Of the snapshots between the keyframe of a delta and the delta none is missing. -/
  chain : ∀ d ∈ s.held, d.kind = some .delta → ∀ g ∈ s.produced, g.isSnapshot = true →
    g.seq < d.seq → (∀ k ∈ s.held, k.kind = some .keyframe → k.seq < d.seq → k.seq < g.seq) →
      g ∈ s.held
  /-- With no resync owed no snapshot since the last keyframe is missing. -/
  whole : s.owed = false → ∀ g ∈ s.produced, g.isSnapshot = true →
    (∀ k ∈ s.held, k.kind = some .keyframe → k.seq < g.seq) → g ∈ s.held
  losses : s.LossesReported

lemma Inv.new (maxFrames maxBytes : ℕ) : (Feed.new maxFrames maxBytes).Inv := by
  refine ⟨⟨rfl, fun i hi => ?_⟩, List.Pairwise.nil, List.Sublist.refl _, fun d hd => ?_,
    fun _ g hg => ?_, fun f hf => ?_⟩
  · cases hi
  · cases hd
  · cases hg
  · cases hf

lemma frame_isSnapshot_iff {f : Frame} :
    f.isSnapshot = true ↔ f.kind = some .keyframe ∨ f.kind = some .delta := by
  rw [Frame.isSnapshot, Bool.or_eq_true, beq_iff_eq, beq_iff_eq]

lemma priority_iff {q : SendQueue} (hs : q.Sound) {i : Queued} (hi : i ∈ q.items) :
    (i.priority = .p1 ↔ i.frame.kind = some .keyframe) ∧
      (i.priority = .p2 ↔ i.frame.kind = some .delta) := by
  obtain ⟨hkind, hpr⟩ := hs.typed i hi
  rw [hkind, hpr]
  cases i.msgType <;> decide

lemma isSnapshot_priority {q : SendQueue} (hs : q.Sound) {i : Queued} (hi : i ∈ q.items) :
    SendQueue.isSnapshot i.priority = true ↔ i.frame.isSnapshot = true := by
  rw [SendQueue.isSnapshot_iff, frame_isSnapshot_iff, (priority_iff hs hi).1, (priority_iff hs hi).2]

lemma mem_held {s : Feed} {f : Frame} :
    f ∈ s.held ↔ f ∈ s.popped ∨ ∃ i ∈ s.queue.items, i.frame = f := by
  rw [held, List.mem_append, List.mem_map]

lemma Inv.lt_of_held {s : Feed} (h : s.Inv) {before behind : List Frame}
    (hheld : s.held = before ++ behind) {f g : Frame} (hf : f ∈ before) (hg : g ∈ behind)
    (hfs : f.isSnapshot = true) (hgs : g.isSnapshot = true) : f.seq < g.seq := by
  have hord := h.ordered.sublist (h.sublist.filter Frame.isSnapshot)
  rw [hheld, List.filter_append, List.pairwise_append] at hord
  exact hord.2.2 f (List.mem_filter.2 ⟨hf, hfs⟩) g (List.mem_filter.2 ⟨hg, hgs⟩)

lemma Inv.popped_of_lt {s : Feed} (h : s.Inv) {f g : Frame} (hf : f ∈ s.popped)
    (hg : g ∈ s.held) (hfs : f.isSnapshot = true) (hgs : g.isSnapshot = true)
    (hlt : g.seq < f.seq) : g ∈ s.popped := by
  refine (List.mem_append.1 hg).resolve_right fun hqueue => ?_
  exact absurd (h.lt_of_held rfl hf hqueue hfs hgs) (Nat.lt_asymm hlt)

/-- What an enqueue leaves of the snapshots that were held: all; or, with a resync owed, no queued
delta, and for a new delta the keyframes and no delta behind them. -/
lemma snapshots_left {s : Feed} (hs : s.queue.Sound) {x : Priority}
    {p : SendQueue × EnqueueReport} (hp : SendQueue.Spared s.queue x p) :
    (∀ g ∈ s.held, g.isSnapshot = true → g ∈ s.popped ++ p.1.items.map Queued.frame) ∨
      p.2.resyncPending = true ∧
        (∀ d ∈ s.popped ++ p.1.items.map Queued.frame, d.kind = some .delta → d ∈ s.popped) ∧
        (x = .p2 → s.queue.openDelta = false ∧ ∀ k ∈ s.held, k.kind = some .keyframe →
          k ∈ s.popped ++ p.1.items.map Queued.frame) := by
  have hin {i : Queued} (hi : i ∈ p.1.items) (hd : i.frame.kind = some .delta) :
      i.priority = .p2 ∧ i ∈ SendQueue.snapshots p.1.items := by
    have h2 := (priority_iff hs (hp.sublist.subset hi)).2.2 hd
    exact ⟨h2, List.mem_filter.2 ⟨hi, SendQueue.isSnapshot_iff.2 (.inr h2)⟩⟩
  rcases hp.leaves with hall | ⟨hres, ⟨hkeys, hopen⟩ | ⟨hnone, hx⟩⟩
  · refine .inl fun g hg hsnap => List.mem_append.2 ?_
    refine (mem_held.1 hg).imp_right ?_
    rintro ⟨i, hi, rfl⟩
    have hmem : i ∈ SendQueue.snapshots p.1.items := by
      rw [hall]
      exact List.mem_filter.2 ⟨hi, (isSnapshot_priority hs hi).2 hsnap⟩
    exact List.mem_map_of_mem (List.mem_of_mem_filter hmem)
  · refine .inr ⟨hres, fun d hd hdelta => ?_, fun hx => ⟨hopen hx, fun k hk hkey => ?_⟩⟩
    · refine (List.mem_append.1 hd).resolve_right fun hq => ?_
      obtain ⟨i, hi, rfl⟩ := List.mem_map.1 hq
      obtain ⟨h2, hmem⟩ := hin hi hdelta
      rw [hkeys] at hmem
      have h1 := (List.mem_filter.1 hmem).2
      rw [h2] at h1
      cases h1
    · refine List.mem_append.2 ((mem_held.1 hk).imp_right ?_)
      rintro ⟨i, hi, rfl⟩
      have hmem : i ∈ SendQueue.snapshots p.1.items := by
        rw [hkeys]
        exact List.mem_filter.2 ⟨hi, beq_iff_eq.2 ((priority_iff hs hi).1.2 hkey)⟩
      exact List.mem_map_of_mem (List.mem_of_mem_filter hmem)
  · refine .inr ⟨hres, fun d hd hdelta => ?_, fun h => absurd h hx⟩
    refine (List.mem_append.1 hd).resolve_right fun hq => ?_
    obtain ⟨i, hi, rfl⟩ := List.mem_map.1 hq
    obtain ⟨-, hmem⟩ := hin hi hdelta
    rw [hnone] at hmem
    cases hmem

/-- A new delta the queue takes has every snapshot since the last keyframe before it. -/
lemma Inv.base_of_takes {s : Feed} (h : s.Inv) {p : SendQueue × EnqueueReport}
    (hp : SendQueue.Spared s.queue .p2 p) (howed : s.owed = false) {g : Frame}
    (hg : g ∈ s.produced) (hsnap : g.isSnapshot = true)
    (hnew : ∀ k ∈ s.popped ++ p.1.items.map Queued.frame, k.kind = some .keyframe → k.seq < g.seq) :
    g ∈ s.popped ++ p.1.items.map Queued.frame := by
  rcases snapshots_left h.sound hp with hall | ⟨-, -, hdelta⟩
  · refine hall g (h.whole howed g hg hsnap fun k hk hkey => hnew k (hall k hk ?_) hkey) hsnap
    exact frame_isSnapshot_iff.2 (.inl hkey)
  · obtain ⟨hopen, hkeys⟩ := hdelta rfl
    have hheld := h.whole howed g hg hsnap fun k hk hkey => hnew k (hkeys k hk hkey) hkey
    rcases frame_isSnapshot_iff.1 hsnap with hkey | hdel
    · exact hkeys g hheld hkey
    · rcases mem_held.1 hheld with hpop | ⟨i, hi, rfl⟩
      · exact List.mem_append_left _ hpop
      · -- a queued delta has a keyframe behind it, and is not newer than that
        obtain ⟨before, key, behind, hitems, hbefore, hp1⟩ :=
          SendQueue.exists_keyframe_behind hopen hi ((priority_iff h.sound hi).2.2 hdel)
        have hkin : key ∈ s.queue.items := by
          rw [hitems]
          exact List.mem_append_right _ (List.mem_cons_self ..)
        have hkkey := (priority_iff h.sound hkin).1.1 hp1
        have hsplit : s.held = (s.popped ++ before.map Queued.frame) ++
            (key :: behind).map Queued.frame := by
          rw [held, hitems, List.map_append, List.append_assoc]
        have hlt := h.lt_of_held hsplit
          (List.mem_append_right _ (List.mem_map_of_mem hbefore))
          (List.mem_map_of_mem (List.mem_cons_self ..)) hsnap
          (frame_isSnapshot_iff.2 (.inl hkkey))
        have hgt := hnew key.frame (hkeys _ (mem_held.2 (.inr ⟨key, hkin, rfl⟩)) hkkey) hkkey
        exact absurd hlt (Nat.lt_asymm hgt)

/-- A delta held before and after an enqueue keeps its base. -/
lemma Inv.base_of_held {s : Feed} (h : s.Inv) {x : Priority} {p : SendQueue × EnqueueReport}
    (hp : SendQueue.Spared s.queue x p) {d g : Frame}
    (hd : d ∈ s.popped ++ p.1.items.map Queued.frame) (hdelta : d.kind = some .delta)
    (hg : g ∈ s.produced) (hsnap : g.isSnapshot = true) (hlt : g.seq < d.seq)
    (hnew : ∀ k ∈ s.popped ++ p.1.items.map Queued.frame, k.kind = some .keyframe →
      k.seq < d.seq → k.seq < g.seq) :
    g ∈ s.popped ++ p.1.items.map Queued.frame := by
  have hheld : d ∈ s.held := by
    refine List.mem_append.2 ((List.mem_append.1 hd).imp_right fun hq => ?_)
    exact (hp.sublist.map Queued.frame).subset hq
  have hdsnap := frame_isSnapshot_iff.2 (.inr hdelta)
  rcases snapshots_left h.sound hp with hall | ⟨-, hdeltas, -⟩
  · refine hall g (h.chain d hheld hdelta g hg hsnap hlt fun k hk hkey hkd => ?_) hsnap
    exact hnew k (hall k hk (frame_isSnapshot_iff.2 (.inl hkey))) hkey hkd
  · have hpop := hdeltas d hd hdelta
    refine List.mem_append_left _ (h.popped_of_lt hpop (h.chain d hheld hdelta g hg hsnap hlt ?_)
      hdsnap hsnap hlt)
    intro k hk hkey hkd
    refine hnew k (List.mem_append_left _ ?_) hkey hkd
    exact h.popped_of_lt hpop hk hdsnap (frame_isSnapshot_iff.2 (.inl hkey)) hkd

/-- A frame taken from the head leaves what holds. -/
lemma Inv.pop {s : Feed} (h : s.Inv) : (s.step .pop).2.Inv := by
  rw [step, SendQueue.pop]
  cases hitems : s.queue.items with
  | nil => exact h
  | cons item items =>
    have hheld : s.held = (s.popped ++ [item.frame]) ++ items.map Queued.frame := by
      rw [held, hitems, List.map_cons, List.append_assoc, List.singleton_append]
    obtain ⟨⟨hbytes, htyped⟩, hord, hsub, hchain, hwhole, hloss⟩ := h
    unfold LossesReported at hloss
    rw [hheld] at hsub hchain hwhole hloss
    refine ⟨⟨?_, fun i hi => htyped i ?_⟩, hord, hsub, hchain, hwhole, hloss⟩
    · dsimp only
      rw [hbytes, hitems, SendQueue.load, SendQueue.load, List.map_cons, List.sum_cons,
        Nat.add_sub_cancel_left]
    · rw [hitems]
      exact List.mem_cons_of_mem _ hi

/-- A frame the queue takes leaves what holds. -/
lemma Inv.enqueue {s : Feed} {frame : Frame} (h : s.Inv) (hc : s.Continues (.enqueue frame))
    (ht : s.Takes (.enqueue frame)) : (s.step (.enqueue frame)).2.Inv := by
  obtain ⟨ty, hkind, htakes, hfree⟩ := ht
  have hkind : frame.kind = some ty := hkind
  obtain ⟨p, hp, henq⟩ := SendQueue.enqueue_of_takes h.sound hkind htakes
  set kept := s.popped ++ p.1.items.map Queued.frame with hkept
  have hsubset : kept.Sublist s.held :=
    (List.Sublist.refl _).append (hp.sublist.map Queued.frame)
  have hheld : (s.step (.enqueue frame)).2.held = kept ++ [frame] := by
    rw [step, henq, held, hkept]
    simp only [List.map_append, List.map_cons, List.map_nil, List.append_assoc]
  have hbefore : ∀ g ∈ s.produced, g.isSnapshot = true → frame.isSnapshot = true →
      g.seq < frame.seq := fun g hg hsnap hf => hc hf g hg hsnap
  have hprod : ∀ k ∈ kept, k ∈ s.produced := fun k hk => h.sublist.subset (hsubset.subset hk)
  refine ⟨⟨?_, fun i hi => ?_⟩, ?_, ?_, fun d hd hdelta g hg hsnap hlt hnew => ?_,
    fun howed g hg hsnap hnew => ?_, fun f hf => ?_⟩
  · -- the queue is sound
    simp only [step, henq, SendQueue.load, List.map_append, List.map_cons, List.map_nil,
      List.sum_append, List.sum_cons, List.sum_nil, Nat.add_zero]
    rw [hp.sound.bytes, SendQueue.load]
  · simp only [step, henq, List.mem_append, List.mem_singleton] at hi
    rcases hi with hi | rfl
    · exact hp.sound.typed i hi
    · exact ⟨hkind, rfl⟩
  · -- the snapshots are in order
    simp only [step, List.filter_append]
    refine List.pairwise_append.2 ⟨h.ordered, List.Pairwise.filter _ (List.pairwise_singleton _ _),
      fun g hg f hf => ?_⟩
    obtain ⟨hg, hgs⟩ := List.mem_filter.1 hg
    obtain ⟨hf, hfs⟩ := List.mem_filter.1 hf
    obtain rfl := List.mem_singleton.1 hf
    exact hbefore g hg hgs hfs
  · rw [hheld]
    exact (hsubset.trans h.sublist).append (List.Sublist.refl _)
  · -- no delta loses its base
    rw [hheld] at hd hnew ⊢
    have hold : ∀ k ∈ kept, k ∈ kept ++ [frame] := fun k => List.mem_append_left _
    rw [List.mem_append, List.mem_singleton] at hd
    rcases List.mem_append.1 hg with hgs | hg
    · refine hold g ?_
      rcases hd with hd | rfl
      · exact h.base_of_held hp hd hdelta hgs hsnap hlt fun k hk => hnew k (hold k hk)
      · obtain rfl : ty = .delta := Option.some.inj (hkind.symm.trans hdelta)
        refine h.base_of_takes hp (hfree rfl) hgs hsnap fun k hk hkey => ?_
        have hksnap := frame_isSnapshot_iff.2 (.inl hkey)
        exact hnew k (hold k hk) hkey
          (hbefore k (hprod k hk) hksnap (frame_isSnapshot_iff.2 (.inr hdelta)))
    · obtain rfl := List.mem_singleton.1 hg
      rcases hd with hd | rfl
      · have hd' := hbefore d (hprod d hd) (frame_isSnapshot_iff.2 (.inr hdelta)) hsnap
        exact absurd hlt (Nat.lt_asymm hd')
      · exact absurd hlt (Nat.lt_irrefl _)
  · -- with no resync owed nothing is missing
    rw [hheld] at hnew ⊢
    have hframe : frame ∈ kept ++ [frame] := List.mem_append_right _ (List.mem_singleton_self _)
    simp only [step, henq, Bool.or_eq_false_iff, Bool.and_eq_false_iff, bne_eq_false_iff_eq] at howed
    rcases List.mem_append.1 hg with hg | hg
    · refine List.mem_append_left _ ?_
      rcases howed.1 with hfree | hkey
      · rcases snapshots_left h.sound hp with hall | ⟨hres, -⟩
        · refine hall g (h.whole hfree g hg hsnap fun k hk hkey => ?_) hsnap
          exact hnew k (List.mem_append_left _ (hall k hk (frame_isSnapshot_iff.2 (.inl hkey)))) hkey
        · rw [howed.2] at hres
          cases hres
      · have hlt := hnew frame hframe hkey
        have hgt := hbefore g hg hsnap (frame_isSnapshot_iff.2 (.inl hkey))
        exact absurd hlt (Nat.lt_asymm hgt)
    · rw [List.mem_singleton.1 hg]
      exact hframe
  · -- what is lost is reported
    rw [hheld]
    simp only [step, henq] at hf ⊢
    rcases List.mem_append.1 hf with hf | hf
    · rcases h.losses f hf with hf | ⟨r, hr, hcov⟩
      · rcases mem_held.1 hf with hpop | ⟨i, hi, rfl⟩
        · exact .inl (List.mem_append_left _ (List.mem_append_left _ hpop))
        · rcases hp.covered i hi with hin | ⟨hcov, hres⟩
          · exact .inl (List.mem_append_left _
              (List.mem_append_right _ (List.mem_map_of_mem hin)))
          · refine .inr ⟨p.2, List.mem_append_right _ (List.mem_singleton_self _), hcov, ?_⟩
            exact fun hsnap => hres ((isSnapshot_priority h.sound hi).2 hsnap)
      · exact .inr ⟨r, List.mem_append_left _ hr, hcov⟩
    · exact .inl (List.mem_append_right _ hf)

/-- Every frame of an unbroken chain of taken snapshots was taken before its delta. -/
lemma Inv.basesSent {s : Feed} (h : s.Inv) : s.BasesSent := by
  intro before d behind hpop hdelta g hg hsnap hlt hnew
  have hdsnap := frame_isSnapshot_iff.2 (.inr hdelta)
  have hsplit : s.held = before ++ (d :: behind ++ s.queue.items.map Queued.frame) := by
    rw [held, hpop, List.append_assoc]
  have hdin : d ∈ d :: behind ++ s.queue.items.map Queued.frame :=
    List.mem_append_left _ (List.mem_cons_self ..)
  have hsplit' : s.held = (before ++ [d]) ++ (behind ++ s.queue.items.map Queued.frame) := by
    rw [hsplit, List.cons_append, List.append_assoc, List.singleton_append]
  -- a held snapshot from before the delta stands before it
  have hback : ∀ k ∈ s.held, k.isSnapshot = true → k.seq < d.seq → k ∈ before := by
    intro k hk hksnap hkd
    rw [hsplit', List.mem_append, List.mem_append, List.mem_singleton] at hk
    rcases hk with (hk | rfl) | hk
    · exact hk
    · exact absurd hkd (Nat.lt_irrefl _)
    · have hgt := h.lt_of_held hsplit' (List.mem_append_right _ (List.mem_singleton_self _)) hk
        hdsnap hksnap
      exact absurd hkd (Nat.lt_asymm hgt)
  refine hback g (h.chain d ?_ hdelta g hg hsnap hlt fun k hk hkey hkd => ?_) hsnap hlt
  · rw [hsplit]
    exact List.mem_append_right _ hdin
  · exact hnew k (hback k hk (frame_isSnapshot_iff.2 (.inl hkey)) hkd) hkey

/-- **Bases and losses.** In every run of a queue with any caps, with frames of one encoder that the
queue takes, every delta taken has its base, and no loss goes unreported. -/
theorem bases_sent_and_losses_reported (maxFrames maxBytes : ℕ) (ops : List FeedOp)
    (hc : Mealy.Always step Continues (Feed.new maxFrames maxBytes) ops)
    (ht : Mealy.Always step Takes (Feed.new maxFrames maxBytes) ops) :
    (Mealy.run step (Feed.new maxFrames maxBytes) ops).BasesSent ∧
      (Mealy.run step (Feed.new maxFrames maxBytes) ops).LossesReported := by
  have hinv : (Mealy.run step (Feed.new maxFrames maxBytes) ops).Inv := by
    refine Mealy.Always.invariant (fun s op hop h => ?_) ops _ (hc.and ops _ ht)
      (Inv.new maxFrames maxBytes)
    cases op with
    | enqueue frame => exact h.enqueue hop.1 hop.2
    | pop => exact h.pop
  exact ⟨hinv.basesSent, hinv.losses⟩

/-- A keyframe and a delta, a world chunk that takes the place of the delta, and a second keyframe
and delta. -/
theorem bases_sent_and_losses_reported_chunk :
    let s := Mealy.run step (Feed.new 2 1000)
      [.enqueue ⟨MsgType.keyframe.id, 0, 1, .raw []⟩, .enqueue ⟨MsgType.delta.id, 0, 2, .raw []⟩,
        .enqueue ⟨MsgType.worldChunk.id, 0, 0, .raw []⟩, .pop,
        .enqueue ⟨MsgType.keyframe.id, 0, 3, .raw []⟩, .pop, .pop,
        .enqueue ⟨MsgType.delta.id, 0, 4, .raw []⟩, .pop]
    (s.popped.map Frame.seq = [1, 0, 3, 4] ∧ s.reports.length = 5) ∧
      s.BasesSent ∧ s.LossesReported :=
  ⟨by decide +kernel, bases_sent_and_losses_reported 2 1000 _ (by decide +kernel)
    (by decide +kernel)⟩

/-- A queue for one frame drops a delta for the next one, which is sent without its base. -/
theorem bases_not_sent :
    let s := Mealy.run step (Feed.new 1 1000)
      [.enqueue ⟨MsgType.keyframe.id, 0, 1, .raw []⟩, .pop,
        .enqueue ⟨MsgType.delta.id, 0, 2, .raw []⟩, .enqueue ⟨MsgType.delta.id, 0, 3, .raw []⟩,
        .pop]
    Mealy.Always step Continues (Feed.new 1 1000)
        [.enqueue ⟨MsgType.keyframe.id, 0, 1, .raw []⟩, .pop,
          .enqueue ⟨MsgType.delta.id, 0, 2, .raw []⟩, .enqueue ⟨MsgType.delta.id, 0, 3, .raw []⟩,
          .pop] ∧
      ¬ (s.BasesSent ∧ s.LossesReported) := by
  refine ⟨by decide +kernel, fun h => ?_⟩
  have hbase := h.1 [⟨MsgType.keyframe.id, 0, 1, .raw []⟩] ⟨MsgType.delta.id, 0, 3, .raw []⟩ []
    (by decide +kernel) (by decide +kernel) ⟨MsgType.delta.id, 0, 2, .raw []⟩ (by decide +kernel)
    (by decide +kernel) (by decide +kernel) (by decide +kernel)
  exact absurd hbase (by decide +kernel)

end Feed

end V2xw.Server
