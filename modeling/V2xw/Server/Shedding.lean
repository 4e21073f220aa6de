import V2xw.Server.Ring

/-!
# What the send queue sheds

One enqueue of `crates/v2xw-server/src/ring.rs` sheds queued frames in up to four stages: the queued
keyframe for a newer one, all deltas, the other droppable frames oldest first, and the keyframe for
a connection frame. This file follows the queue and the report through the stages.

## Main definitions

* `SendQueue.pop` — takes the frame at the head.
* `EnqueueReport.Covers` — a number is inside the span of a report.
* `SendQueue.Sound` — the bytes and the classes of a queue are those of its frames.
* `SendQueue.Fits` — a frame is within the caps beside given frames.
* `Shed` — a stage: some frames of given classes are gone, all of them covered.

## Main results

* `SendQueue.shed_replaceKeyframe`, `SendQueue.shed_shedDeltas`,
  `SendQueue.shed_shedOldest`, `SendQueue.shed_shedKeyframe` — the stages.
* `SendQueue.shed_before` — the stages before the keyframe goes for a connection frame.
-/

namespace V2xw.Server

open Record (MsgType)

/-- A number is inside the span of a report. -/
def EnqueueReport.Covers (r : EnqueueReport) (n : ℕ) : Prop :=
  ∃ first last, r.span = some (first, last) ∧ first ≤ n ∧ n ≤ last

namespace SendQueue

/-- Takes the frame at the head of the queue. -/
def pop (q : SendQueue) : Option Frame × SendQueue :=
  match q.items with
  | [] => (none, q)
  | item :: items => (some item.frame, { q with items, bytes := q.bytes - item.frame.size })

/-- The bytes of queued frames. -/
def load (items : List Queued) : ℕ := (items.map fun i => i.frame.size).sum

/-- The bytes of a queue are those of its frames, and each is queued under its type and class. -/
structure Sound (q : SendQueue) : Prop where
  bytes : q.bytes = load q.items
  typed : ∀ i ∈ q.items, i.frame.kind = some i.msgType ∧ i.priority = Priority.of i.msgType

/-- A frame of a size is within the caps of a queue beside the given frames. -/
def Fits (q : SendQueue) (items : List Queued) (size : ℕ) : Prop :=
  items.length + 1 ≤ q.maxFrames ∧ load items + size ≤ q.maxBytes

instance (q : SendQueue) (items : List Queued) (size : ℕ) : Decidable (q.Fits items size) :=
  inferInstanceAs (Decidable (_ ∧ _))

/-- The frames of some classes. -/
def ofClass (c : Priority → Bool) (items : List Queued) : List Queued :=
  items.filter fun i => c i.priority

lemma Sound.wouldExceed_iff {q : SendQueue} (h : q.Sound) (size : ℕ) :
    q.wouldExceed size = false ↔ q.Fits q.items size := by
  rw [wouldExceed, Fits, h.bytes, Bool.or_eq_false_iff, decide_eq_false_iff_not,
    decide_eq_false_iff_not, not_lt, not_lt]

lemma load_le_of_sublist {items items' : List Queued} (h : items'.Sublist items) :
    load items' ≤ load items := by
  unfold load
  induction h with
  | slnil => exact le_rfl
  | cons i _ ih =>
    rw [List.map_cons, List.sum_cons]
    exact ih.trans (Nat.le_add_left _ _)
  | cons_cons i _ ih =>
    rw [List.map_cons, List.map_cons, List.sum_cons, List.sum_cons]
    exact Nat.add_le_add_left ih _

lemma Fits.of_sublist {q : SendQueue} {items items' : List Queued} {size : ℕ}
    (h : q.Fits items size) (hsub : items'.Sublist items) : q.Fits items' size := by
  have hlen := hsub.length_le
  have hload := load_le_of_sublist hsub
  unfold Fits at h ⊢
  omega

end SendQueue

/-! ## Reports -/

/-- A counted frame is covered, and so is all that was. -/
lemma EnqueueReport.covers_note (r : EnqueueReport) (q : Queued) :
    (r.note q).Covers q.frame.seq ∧ ∀ n, r.Covers n → (r.note q).Covers n := by
  unfold Covers note
  cases hspan : r.span with
  | none =>
    refine ⟨⟨_, _, rfl, le_rfl, le_rfl⟩, fun n => ?_⟩
    rintro ⟨first, last, h, -, -⟩
    cases h
  | some p =>
    obtain ⟨first, last⟩ := p
    refine ⟨⟨_, _, rfl, min_le_right _ _, le_max_right _ _⟩, fun n => ?_⟩
    rintro ⟨a, b, h, ha, hb⟩
    cases h
    exact ⟨_, _, rfl, (min_le_left _ _).trans ha, hb.trans (le_max_left _ _)⟩

lemma EnqueueReport.note_isEmpty {r : EnqueueReport} {q : Queued}
    (h : r.dropped.isEmpty = false ∨ q.msgType = .delta) :
    (r.note q).dropped.isEmpty = false := by
  unfold note DropCounts.isEmpty at *
  rcases h with h | h
  · cases hq : q.msgType with
    | _ =>
      simp only [Bool.and_eq_false_iff, beq_eq_false_iff_ne] at h ⊢
      omega
  · simp [h]

/-! ## Stages -/

/-- A stage of an enqueue: of the queued frames only some of the classes `c` are gone, in the report
each of them is covered, and the rest of the queue and of the report stands. -/
structure Shed (c : Priority → Bool) (p p' : SendQueue × EnqueueReport) : Prop where
  /-- No frame is added or moved. -/
  sublist : p'.1.items.Sublist p.1.items
  /-- A frame that is gone is of the classes, and covered. -/
  covered : ∀ i ∈ p.1.items, i ∈ p'.1.items ∨ c i.priority = true ∧ p'.2.Covers i.frame.seq
  /-- The frames of other classes are the same. -/
  others : ∀ c' : Priority → Bool, (∀ x, c' x = true → c x = false) →
    SendQueue.ofClass c' p'.1.items = SendQueue.ofClass c' p.1.items
  sound : p.1.Sound → p'.1.Sound
  caps : p'.1.maxFrames = p.1.maxFrames ∧ p'.1.maxBytes = p.1.maxBytes
  /-- What was covered stays covered. -/
  covers : ∀ n, p.2.Covers n → p'.2.Covers n
  resync : p.2.resyncPending = true → p'.2.resyncPending = true

namespace Shed

variable {c c' : Priority → Bool} {p p' p'' : SendQueue × EnqueueReport}

lemma refl (c : Priority → Bool) (p : SendQueue × EnqueueReport) : Shed c p p :=
  ⟨List.Sublist.refl _, fun _ hi => .inl hi, fun _ _ => rfl, id, ⟨rfl, rfl⟩, fun _ => id, id⟩

lemma mono (h : Shed c p p') (hc : ∀ x, c x = true → c' x = true) : Shed c' p p' := by
  refine ⟨h.sublist, fun i hi => ?_, fun c'' hc'' => h.others c'' fun x hx => ?_, h.sound, h.caps,
    h.covers, h.resync⟩
  · exact (h.covered i hi).imp_right fun hgone => ⟨hc _ hgone.1, hgone.2⟩
  · rw [Bool.eq_false_iff]
    intro hcx
    have hno := hc'' x hx
    rw [hc x hcx] at hno
    cases hno

lemma trans (h : Shed c p p') (h' : Shed c p' p'') : Shed c p p'' := by
  refine ⟨h'.sublist.trans h.sublist, fun i hi => ?_,
    fun c'' hc'' => (h'.others c'' hc'').trans (h.others c'' hc''), fun hs => h'.sound (h.sound hs),
    ⟨h'.caps.1.trans h.caps.1, h'.caps.2.trans h.caps.2⟩, fun n hn => h'.covers n (h.covers n hn),
    fun hr => h'.resync (h.resync hr)⟩
  rcases h.covered i hi with hin | ⟨hcl, hcov⟩
  · exact h'.covered i hin
  · exact .inr ⟨hcl, h'.covers _ hcov⟩

end Shed

namespace SendQueue

/-- The loop over the queued frames counts and covers those it removes, and keeps the bytes those of
the frames. -/
lemma foldl_retain (keep : Queued → Bool) (items : List Queued) :
    ∀ acc : SendQueue × EnqueueReport,
      let done := items.foldl (fun (acc : SendQueue × EnqueueReport) item =>
        if keep item then ({ acc.1 with items := acc.1.items ++ [item] }, acc.2)
        else ({ acc.1 with bytes := acc.1.bytes - item.frame.size }, acc.2.note item)) acc
      (acc.1.bytes = load acc.1.items + load items → done.1.bytes = load done.1.items) ∧
      (∀ i ∈ items, keep i = false → done.2.Covers i.frame.seq) ∧
      (∀ n, acc.2.Covers n → done.2.Covers n) ∧ done.2.resyncPending = acc.2.resyncPending ∧
      ((acc.2.dropped.isEmpty = false ∨ ∃ i ∈ items, keep i = false ∧ i.msgType = .delta) →
        done.2.dropped.isEmpty = false) := by
  induction items with
  | nil =>
    intro acc
    rw [List.foldl_nil]
    refine ⟨fun h => h, fun i hi => absurd hi List.not_mem_nil, fun _ h => h, rfl, ?_⟩
    rintro (h | ⟨i, hi, -⟩)
    · exact h
    · cases hi
  | cons item items ih =>
    intro acc
    rw [List.foldl_cons]
    by_cases hkeep : keep item = true
    · obtain ⟨hbytes, hcov, hmono, hres, hcount⟩ :=
        ih ({ acc.1 with items := acc.1.items ++ [item] }, acc.2)
      rw [if_pos hkeep]
      refine ⟨fun h => hbytes ?_, fun i hi hno => ?_, hmono, hres, fun h => hcount ?_⟩
      · simp only [load, List.map_append, List.map_cons, List.map_nil, List.sum_append,
          List.sum_cons, List.sum_nil] at h ⊢
        omega
      · rcases List.mem_cons.1 hi with rfl | hi
        · rw [hkeep] at hno
          cases hno
        · exact hcov i hi hno
      · refine h.imp_right fun ⟨i, hi, hno, hd⟩ => ?_
        rcases List.mem_cons.1 hi with rfl | hi
        · rw [hkeep] at hno
          cases hno
        · exact ⟨i, hi, hno, hd⟩
    · obtain ⟨hbytes, hcov, hmono, hres, hcount⟩ :=
        ih ({ acc.1 with bytes := acc.1.bytes - item.frame.size }, acc.2.note item)
      rw [if_neg hkeep]
      refine ⟨fun h => hbytes ?_, fun i hi hno => ?_,
        fun n hn => hmono n ((acc.2.covers_note item).2 n hn), hres, fun h => hcount ?_⟩
      · simp only [load, List.map_cons, List.sum_cons] at h ⊢
        omega
      · rcases List.mem_cons.1 hi with rfl | hi
        · exact hmono _ (acc.2.covers_note i).1
        · exact hcov i hi hno
      · rcases h with h | ⟨i, hi, hno, hd⟩
        · exact .inl (EnqueueReport.note_isEmpty (.inl h))
        · rcases List.mem_cons.1 hi with rfl | hi
          · exact .inl (EnqueueReport.note_isEmpty (.inr hd))
          · exact .inr ⟨i, hi, hno, hd⟩

/-- Removing one class. -/
lemma shed_retainDropping (q : SendQueue) (x : Priority) (r : EnqueueReport) :
    Shed (· == x) (q, r) (q.retainDropping (fun i => i.priority != x) r) ∧
      (∀ i ∈ (q.retainDropping (fun i => i.priority != x) r).1.items, i.priority ≠ x) ∧
      ((∃ i ∈ q.items, i.priority = x ∧ i.msgType = .delta) →
        (q.retainDropping (fun i => i.priority != x) r).2.dropped.isEmpty = false) := by
  obtain ⟨hitems, hframes, hmax, -⟩ := q.retainDropping_spec (fun i => i.priority != x) r
  obtain ⟨hbytes, hcov, hmono, hres, hcount⟩ :=
    foldl_retain (fun i => i.priority != x) q.items ({ q with items := [] }, r)
  refine ⟨⟨?_, fun i hi => ?_, fun c hc => ?_, fun hs => ⟨hbytes ?_, fun i hi => ?_⟩,
    ⟨hframes, hmax⟩, hmono, fun h => hres.trans h⟩, fun i hi => ?_, fun ⟨i, hi, hx, hd⟩ => ?_⟩
  · rw [hitems]
    exact List.filter_sublist
  · by_cases hx : i.priority = x
    · refine .inr ⟨beq_iff_eq.2 hx, hcov i hi ?_⟩
      simp [hx]
    · refine .inl ?_
      rw [hitems, List.mem_filter]
      exact ⟨hi, bne_iff_ne.2 hx⟩
  · rw [hitems, ofClass, ofClass, List.filter_filter]
    refine List.filter_congr fun i _ => ?_
    rw [Bool.and_eq_left_iff_imp]
    intro hci
    have := hc _ hci
    simpa [bne] using this
  · rw [hs.bytes]
    exact (Nat.zero_add _).symm
  · rw [hitems] at hi
    exact hs.typed i (List.mem_of_mem_filter hi)
  · rw [hitems, List.mem_filter] at hi
    exact bne_iff_ne.1 hi.2
  · exact hcount (.inr ⟨i, hi, by simp [hx], hd⟩)

lemma shed_replaceKeyframe (x : Priority) (q : SendQueue) :
    Shed (· == .p1) (q, EnqueueReport.zero) (q.replaceKeyframe x) ∧
      (x ≠ .p1 → q.replaceKeyframe x = (q, EnqueueReport.zero)) ∧
      (x = .p1 → ∀ i ∈ (q.replaceKeyframe x).1.items, i.priority ≠ .p1) := by
  unfold replaceKeyframe
  split_ifs with hx
  · obtain ⟨hshed, hnone, -⟩ := q.shed_retainDropping .p1 EnqueueReport.zero
    exact ⟨hshed, fun h => absurd hx h, fun _ => hnone⟩
  · exact ⟨Shed.refl _ _, fun _ => rfl, fun h => absurd h hx⟩

/-- The second stage: over a cap, all deltas go, and a resync is owed if there were any. -/
lemma shed_shedDeltas (size : ℕ) (p : SendQueue × EnqueueReport) :
    Shed (· == .p2) p (shedDeltas size p) ∧
      (p.1.wouldExceed size = false → shedDeltas size p = p) ∧
      (p.1.wouldExceed size = true → (∀ i ∈ (shedDeltas size p).1.items, i.priority ≠ .p2) ∧
        ((∃ i ∈ p.1.items, i.priority = .p2 ∧ i.msgType = .delta) →
          (shedDeltas size p).2.resyncPending = true)) := by
  unfold shedDeltas
  split_ifs with hx
  · obtain ⟨hshed, hnone, hcount⟩ := p.1.shed_retainDropping .p2 p.2
    refine ⟨?_, fun h => ?_, fun _ => ⟨hnone, fun h => ?_⟩⟩
    · dsimp only
      split_ifs
      · exact hshed
      · exact ⟨hshed.sublist, hshed.covered, hshed.others, hshed.sound, hshed.caps, hshed.covers,
          fun _ => rfl⟩
    · rw [h] at hx
      cases hx
    · dsimp only
      rw [hcount h]
      rfl
  · exact ⟨Shed.refl _ _, fun _ => rfl, fun h => absurd h hx⟩

/-- The third stage: over a cap, the other droppable frames go, oldest first, until the frame fits
or none is left. -/
lemma shed_shedOldest (size fuel : ℕ) :
    ∀ p : SendQueue × EnqueueReport, Shed (· == .p3) p (shedOldest size fuel p.1 p.2) ∧
      (p.1.items.length ≤ fuel → (shedOldest size fuel p.1 p.2).1.wouldExceed size = true →
        ∀ i ∈ (shedOldest size fuel p.1 p.2).1.items, i.priority ≠ .p3) := by
  induction fuel with
  | zero =>
    refine fun p => ⟨Shed.refl _ _, fun hlen _ i hi => ?_⟩
    rw [shedOldest, List.length_eq_zero_iff.1 (Nat.le_zero.1 hlen)] at hi
    cases hi
  | succ fuel ih =>
    intro p
    unfold shedOldest
    split_ifs with hx
    · cases hfind : p.1.items.findIdx? fun item => item.priority == .p3 with
      | none =>
        refine ⟨Shed.refl _ _, fun _ _ i hi hp3 => ?_⟩
        have hno := List.findIdx?_eq_none_iff.1 hfind i hi
        rw [hp3] at hno
        cases hno
      | some n =>
        obtain ⟨hlt, hp3, -⟩ := List.findIdx?_eq_some_iff_getElem.1 hfind
        dsimp only
        rw [List.getElem?_eq_getElem hlt]
        dsimp only
        set item := p.1.items[n] with hitem
        obtain ⟨hshed, hleft⟩ := ih ({ p.1 with
          items := p.1.items.eraseIdx n, bytes := p.1.bytes - item.frame.size }, p.2.note item)
        have hone : Shed (· == .p3) p ({ p.1 with
            items := p.1.items.eraseIdx n, bytes := p.1.bytes - item.frame.size },
              p.2.note item) := by
          have hsplit : p.1.items = p.1.items.take n ++ item :: p.1.items.drop (n + 1) := by
            rw [hitem, List.cons_getElem_drop_succ, List.take_append_drop]
          refine ⟨List.eraseIdx_sublist _ _, fun i hi => ?_, fun c hc => ?_,
            fun hs => ⟨?_, fun i hi => hs.typed i (List.mem_of_mem_eraseIdx hi)⟩, ⟨rfl, rfl⟩,
            (p.2.covers_note item).2, id⟩
          · rw [hsplit, List.mem_append, List.mem_cons] at hi
            dsimp only
            rw [List.eraseIdx_eq_take_drop_succ, List.mem_append]
            rcases hi with hi | rfl | hi
            · exact .inl (.inl hi)
            · exact .inr ⟨hp3, (p.2.covers_note item).1⟩
            · exact .inl (.inr hi)
          · have hno : c item.priority = false := by
              rw [Bool.eq_false_iff]
              intro hcp
              have := hc _ hcp
              rw [hp3] at this
              cases this
            dsimp only
            rw [List.eraseIdx_eq_take_drop_succ]
            conv_rhs => rw [hsplit]
            simp [ofClass, hno]
          · dsimp only
            rw [hs.bytes, List.eraseIdx_eq_take_drop_succ]
            conv_lhs => rw [hsplit]
            simp only [load, List.map_append, List.map_cons, List.sum_append, List.sum_cons]
            omega
        refine ⟨hone.trans hshed, fun hlen => hleft ?_⟩
        dsimp only
        rw [List.length_eraseIdx_of_lt hlt]
        omega
    · exact ⟨Shed.refl _ _, fun _ h => absurd h hx⟩

/-- The fourth stage: over a cap, the keyframe goes for a connection frame. -/
lemma shed_shedKeyframe (x : Priority) (size : ℕ) (p : SendQueue × EnqueueReport) :
    Shed (· == .p1) p (shedKeyframe x size p) ∧
      ((p.1.wouldExceed size = false ∨ x ≠ .p0) → shedKeyframe x size p = p) ∧
      (p.1.wouldExceed size = true → x = .p0 →
        ∀ i ∈ (shedKeyframe x size p).1.items, i.priority ≠ .p1) := by
  unfold shedKeyframe
  split_ifs with hx
  · obtain ⟨hshed, hnone, -⟩ := p.1.shed_retainDropping .p1 p.2
    rw [Bool.and_eq_true, beq_iff_eq] at hx
    refine ⟨hshed, fun h => ?_, fun _ _ => hnone⟩
    rcases h with h | h
    · rw [h] at hx
      exact absurd hx.1 Bool.false_ne_true
    · exact absurd hx.2 h
  · rw [Bool.and_eq_true, beq_iff_eq] at hx
    exact ⟨Shed.refl _ _, fun _ => rfl, fun h hp => absurd ⟨h, hp⟩ hx⟩

/-! ## All stages -/

/-- Connection frames and keyframes. -/
def isFixed (x : Priority) : Bool := x == .p0 || x == .p1

/-- Keyframes and deltas. -/
def isSnapshot (x : Priority) : Bool := x == .p1 || x == .p2

/-- The first three stages. -/
def shedUpTo (x : Priority) (size : ℕ) (q : SendQueue) : SendQueue × EnqueueReport :=
  let p := shedDeltas size (q.replaceKeyframe x)
  shedOldest size p.1.items.length p.1 p.2

lemma room_eq (x : Priority) (size : ℕ) (q : SendQueue) :
    q.room x size = shedKeyframe x size (shedUpTo x size q) := rfl

/-- The stages before the keyframe goes for a connection frame: either nothing was over a cap once
the queued keyframe was replaced, or no delta is left, and then a resync is owed if there was one;
and what is still over a cap is over it beside the connection frames and the keyframe alone. -/
lemma shed_before {q : SendQueue} (hs : q.Sound) (x : Priority) (size : ℕ) :
    Shed (fun y => y == .p2 || y == .p3) (q.replaceKeyframe x) (shedUpTo x size q) ∧
      (q.Fits (q.replaceKeyframe x).1.items size → shedUpTo x size q = q.replaceKeyframe x) ∧
      (¬ q.Fits (q.replaceKeyframe x).1.items size →
        (∀ i ∈ (shedUpTo x size q).1.items, i.priority ≠ .p2) ∧
        ((∃ i ∈ (q.replaceKeyframe x).1.items, i.priority = .p2) →
          (shedUpTo x size q).2.resyncPending = true)) ∧
      ((shedUpTo x size q).1.wouldExceed size = true →
        ¬ q.Fits (ofClass isFixed (q.replaceKeyframe x).1.items) size) := by
  obtain ⟨hrep, -⟩ := shed_replaceKeyframe x q
  have hs₁ := hrep.sound hs
  set p := q.replaceKeyframe x with hp
  obtain ⟨hdel, hsame, hgone⟩ := shed_shedDeltas size p
  obtain ⟨hold, hleft⟩ := shed_shedOldest size (shedDeltas size p).1.items.length (shedDeltas size p)
  have hfits : p.1.wouldExceed size = false ↔ q.Fits p.1.items size := by
    rw [hs₁.wouldExceed_iff, Fits, Fits, hrep.caps.1, hrep.caps.2]
  have hshed : Shed (fun y => y == .p2 || y == .p3) p (shedUpTo x size q) :=
    (hdel.mono fun y hy => by simp [hy]).trans (hold.mono fun y hy => by simp [hy])
  refine ⟨hshed, fun h => ?_, fun h => ?_, fun h hno => ?_⟩
  · have hex := hfits.2 h
    have hsame := hsame hex
    change shedOldest size (shedDeltas size p).1.items.length (shedDeltas size p).1
      (shedDeltas size p).2 = p
    rw [hsame, shedOldest_of_fits hex]
  · have hex : p.1.wouldExceed size = true := by
      rw [← Bool.not_eq_false]
      exact fun h' => h (hfits.1 h')
    obtain ⟨hnone, hres⟩ := hgone hex
    refine ⟨fun i hi => hnone i (hold.sublist.subset hi), fun ⟨i, hi, hi2⟩ => hold.resync ?_⟩
    refine hres ⟨i, hi, hi2, ?_⟩
    have htyped := (hs₁.typed i hi).2
    rw [hi2] at htyped
    cases hty : i.msgType with
    | delta => rfl
    | _ =>
      rw [hty] at htyped
      cases htyped
  · -- over a cap after shedding: no delta and no other droppable frame is left
    have hex : p.1.wouldExceed size = true := by
      rw [← Bool.not_eq_false]
      intro h'
      have hsame := hsame h'
      change (shedOldest size (shedDeltas size p).1.items.length (shedDeltas size p).1
        (shedDeltas size p).2).1.wouldExceed size = true at h
      rw [hsame, shedOldest_of_fits h', h'] at h
      cases h
    obtain ⟨hnone, -⟩ := hgone hex
    have h3 := hleft le_rfl h
    have hall : (shedUpTo x size q).1.items = ofClass isFixed p.1.items := by
      rw [← hshed.others isFixed (by rintro (_ | _ | _ | _) <;> decide), ofClass,
        List.filter_eq_self.2]
      intro i hi
      have h2 := hnone i (hold.sublist.subset hi)
      have h3 := h3 i hi
      cases hpr : i.priority with
      | p0 => rfl
      | p1 => rfl
      | p2 => exact absurd hpr h2
      | p3 => exact absurd hpr h3
    have hs₂ := hshed.sound hs₁
    have hfit : (shedUpTo x size q).1.wouldExceed size = false := by
      rw [hs₂.wouldExceed_iff, hall]
      unfold Fits at hno ⊢
      rw [hshed.caps.1, hshed.caps.2, hrep.caps.1, hrep.caps.2]
      exact hno
    rw [hfit] at h
    cases h

end SendQueue

end V2xw.Server
