import V2xw.Server.Frame

/-!
# The resume ring and the send queue

The two bounded buffers of a connection, in `crates/v2xw-server/src/ring.rs`: the ring keeps the
frames a reconnecting client can be replayed, and the queue sheds load when a client is slow.

## Main definitions

* `ResumeRing` — the recently produced canonical frames.
* `ResumeRing.push`, `ResumeRing.canResume`,
  `ResumeRing.replayFrom`.
* `SendQueue` — the frames waiting for the socket.
* `SendQueue.enqueue` — queues a frame, shedding load.

## Main results

* `ResumeRing.push_entries` — a push evicts from the front only, and never everything.
* `SendQueue.enqueue_of_fits` — a queue with room takes the frame at its end.
-/

namespace V2xw.Server

open Record (MsgType)

/-! ## The resume ring -/

/-- The ring holds at least this many groups of pictures. -/
def minGops : ℕ := 2

/-- The byte cap of the ring. -/
def maxRingBytes : ℕ := 8 * 1024 * 1024

/-- The frame cap of the ring. -/
def maxRingFrames : ℕ := 4096

/-- One retained canonical frame. -/
structure RingEntry where
  seq : ℕ
  /-- Whether it is a keyframe, which is what makes a resume point usable. -/
  keyframe : Bool
  /-- The frame, canonical flags only. -/
  frame : Frame
  deriving DecidableEq, Repr

/-- A bounded ring of recently produced canonical frames, oldest first. -/
structure ResumeRing where
  entries : List RingEntry
  bytes : ℕ
  /-- The ring does not shrink below this for its size in bytes. -/
  minFrames : ℕ
  deriving DecidableEq, Repr

namespace ResumeRing

/-- A ring for groups of `framesPerGop` canonical frames. -/
def new (framesPerGop : ℕ) : ResumeRing := ⟨[], 0, max (framesPerGop * minGops) 2⟩

/-- Evicts from the front while a condition on the length and the bytes holds. -/
def evictWhile (exceeds : ℕ → ℕ → Bool) : List RingEntry → ℕ → List RingEntry × ℕ
  | [], bytes => ([], bytes)
  | e :: rest, bytes =>
    if exceeds (rest.length + 1) bytes then evictWhile exceeds rest (bytes - e.frame.size)
    else (e :: rest, bytes)

/-- The caps, above the floor of two groups of pictures. -/
def overCaps (minFrames len bytes : ℕ) : Bool :=
  decide (minFrames < len) && (decide (maxRingBytes < bytes) || decide (maxRingFrames < len))

/-- Retains a frame, evicting from the front until every cap holds. -/
def push (r : ResumeRing) (e : RingEntry) : ResumeRing :=
  let capped := evictWhile (overCaps r.minFrames) (r.entries ++ [e]) (r.bytes + e.frame.size)
  let short := evictWhile (fun len _ => decide (maxRingFrames < len)) capped.1 capped.2
  { r with entries := short.1, bytes := short.2 }

/-- Whether the ring holds a frame, and a keyframe before it or at it. -/
def canResume (r : ResumeRing) (seq : ℕ) : Bool :=
  match r.entries.findIdx? fun e => e.seq == seq with
  | none => false
  | some i => (r.entries.take (i + 1)).any RingEntry.keyframe

/-- The retained frames from a number onwards. -/
def replayFrom (r : ResumeRing) (seq : ℕ) : List RingEntry :=
  r.entries.filter fun e => decide (seq ≤ e.seq)

/-- The oldest retained number. -/
def firstSeq (r : ResumeRing) : Option ℕ := r.entries.head?.map RingEntry.seq

lemma exists_of_canResume {r : ResumeRing} {seq : ℕ} (h : r.canResume seq = true) :
    ∃ e ∈ r.entries, e.seq = seq := by
  unfold canResume at h
  split at h
  · cases h
  next i hi =>
    obtain ⟨hlt, he, _⟩ := List.findIdx?_eq_some_iff_getElem.1 hi
    exact ⟨r.entries[i], List.getElem_mem hlt, beq_iff_eq.1 he⟩

lemma evictWhile_suffix (exceeds : ℕ → ℕ → Bool) (l : List RingEntry) :
    ∀ bytes, (evictWhile exceeds l bytes).1 <:+ l := by
  induction l with
  | nil => exact fun _ => List.suffix_refl _
  | cons e rest ih =>
    intro bytes
    unfold evictWhile
    split_ifs with h
    · exact (ih _).trans (List.suffix_cons _ _)
    · exact List.suffix_refl _

/-- Eviction leaves something, if it stops before one entry. -/
lemma evictWhile_ne_nil {exceeds : ℕ → ℕ → Bool} (hone : ∀ bytes, exceeds 1 bytes = false)
    (l : List RingEntry) (hl : l ≠ []) : ∀ bytes, (evictWhile exceeds l bytes).1 ≠ [] := by
  induction l with
  | nil => exact absurd rfl hl
  | cons e rest ih =>
    intro bytes
    unfold evictWhile
    split_ifs with h
    · refine ih ?_ _
      rintro rfl
      rw [List.length_nil, hone] at h
      cases h
    · exact List.cons_ne_nil _ _

/-- **A push** evicts from the front only, and never everything. -/
theorem push_entries (r : ResumeRing) (e : RingEntry) (hmin : 0 < r.minFrames) :
    (r.push e).entries <:+ r.entries ++ [e] ∧ (r.push e).entries ≠ [] := by
  constructor
  · exact (evictWhile_suffix _ _ _).trans (evictWhile_suffix _ _ _)
  · refine evictWhile_ne_nil (fun _ => rfl) _ (evictWhile_ne_nil (fun bytes => ?_) _ ?_ _) _
    · rw [overCaps, decide_eq_false (by omega), Bool.false_and]
    · exact List.append_ne_nil_of_right_ne_nil _ (List.cons_ne_nil _ _)

end ResumeRing

/-! ## Priorities -/

/-- The priority class of a frame. -/
inductive Priority
  /-- Connection frames. Never dropped. -/
  | p0
  /-- Keyframes. Never dropped, but one is queued at a time. -/
  | p1
  /-- Deltas. Dropped all together. -/
  | p2
  /-- The rest. Dropped oldest first. -/
  | p3
  deriving DecidableEq, Repr

/-- The class of a message type. -/
def Priority.of : MsgType → Priority
  | .hello | .error | .bye | .worldChunk => p0
  | .keyframe => p1
  | .delta => p2
  | .telemetry | .event | .metricSample | .provenance => p3

/-- How many frames of each droppable class were dropped. -/
structure DropCounts where
  delta : ℕ
  event : ℕ
  telemetry : ℕ
  metric : ℕ
  deriving DecidableEq, Repr

namespace DropCounts

/-- Nothing was dropped. -/
def zero : DropCounts := ⟨0, 0, 0, 0⟩

/-- Whether nothing was dropped. -/
def isEmpty (c : DropCounts) : Bool :=
  c.delta == 0 && c.event == 0 && c.telemetry == 0 && c.metric == 0

/-- Two drops together. -/
def merge (c d : DropCounts) : DropCounts :=
  ⟨c.delta + d.delta, c.event + d.event, c.telemetry + d.telemetry, c.metric + d.metric⟩

end DropCounts

/-- What queueing a frame did. -/
structure EnqueueReport where
  dropped : DropCounts
  /-- The lowest and the highest number removed. -/
  span : Option (ℕ × ℕ)
  resyncPending : Bool
  /-- The connection cannot go on. -/
  fatal : Bool
  deriving DecidableEq, Repr

/-- Nothing was dropped. -/
def EnqueueReport.zero : EnqueueReport := ⟨DropCounts.zero, none, false, false⟩

/-- One queued frame. -/
structure Queued where
  priority : Priority
  msgType : MsgType
  frame : Frame
  deriving DecidableEq, Repr

/-- Counts a removed frame. -/
def EnqueueReport.note (r : EnqueueReport) (q : Queued) : EnqueueReport :=
  { r with
    dropped :=
      match q.msgType with
      | .delta => { r.dropped with delta := r.dropped.delta + 1 }
      | .event => { r.dropped with event := r.dropped.event + 1 }
      | .telemetry => { r.dropped with telemetry := r.dropped.telemetry + 1 }
      | .metricSample => { r.dropped with metric := r.dropped.metric + 1 }
      | _ => r.dropped
    span :=
      match r.span with
      | none => some (q.frame.seq, q.frame.seq)
      | some (first, last) => some (min first q.frame.seq, max last q.frame.seq) }

/-! ## The send queue -/

/-- A bounded send queue. -/
structure SendQueue where
  items : List Queued
  bytes : ℕ
  maxFrames : ℕ
  maxBytes : ℕ
  deriving DecidableEq, Repr

namespace SendQueue

/-- The frame cap of a connection. -/
def defaultMaxFrames : ℕ := 64

/-- The byte cap of a connection. -/
def defaultMaxBytes : ℕ := 8 * 1024 * 1024

/-- An empty queue. -/
def new (maxFrames maxBytes : ℕ) : SendQueue := ⟨[], 0, max maxFrames 1, max maxBytes 1⟩

/-- Takes everything the queue holds, in order. -/
def drain (q : SendQueue) : List Frame × SendQueue :=
  (q.items.map Queued.frame,
    { q with items := [], bytes := q.bytes - (q.items.map fun i => i.frame.size).sum })

/-- Whether a frame of a size is over a cap. -/
def wouldExceed (q : SendQueue) (size : ℕ) : Bool :=
  decide (q.maxFrames < q.items.length + 1) || decide (q.maxBytes < q.bytes + size)

/-- Removes the queued frames that do not pass, counting them. -/
def retainDropping (q : SendQueue) (keep : Queued → Bool) (r : EnqueueReport) :
    SendQueue × EnqueueReport :=
  q.items.foldl (fun (acc : SendQueue × EnqueueReport) item =>
    if keep item then ({ acc.1 with items := acc.1.items ++ [item] }, acc.2)
    else ({ acc.1 with bytes := acc.1.bytes - item.frame.size }, acc.2.note item))
    ({ q with items := [] }, r)

/-- Removes droppable frames, oldest first, until the frame fits or none is left. -/
def shedOldest (size : ℕ) : ℕ → SendQueue → EnqueueReport → SendQueue × EnqueueReport
  | 0, q, r => (q, r)
  | fuel + 1, q, r =>
    if q.wouldExceed size then
      match q.items.findIdx? fun item => item.priority == .p3 with
      | none => (q, r)
      | some i =>
        match q.items[i]? with
        | none => (q, r)
        | some item =>
          shedOldest size fuel
            { q with items := q.items.eraseIdx i, bytes := q.bytes - item.frame.size }
            (r.note item)
    else (q, r)

/-- Queues a frame, shedding load: first all deltas, then the other droppable frames, and the
queued keyframe to let a connection frame in. -/
def enqueue (q : SendQueue) (frame : Frame) : EnqueueReport × SendQueue :=
  match frame.kind with
  | none => (EnqueueReport.zero, q)
  | some msgType =>
    let priority := Priority.of msgType
    let size := frame.size
    let (q, r) :=
      if priority = .p1 then q.retainDropping (fun i => i.priority != .p1) EnqueueReport.zero
      else (q, EnqueueReport.zero)
    let (q, r) :=
      if q.wouldExceed size then
        let (q, r) := q.retainDropping (fun i => i.priority != .p2) r
        (q, if r.dropped.isEmpty then r else { r with resyncPending := true })
      else (q, r)
    let (q, r) := shedOldest size q.items.length q r
    let (q, r) :=
      if q.wouldExceed size && priority == .p0 then
        q.retainDropping (fun i => i.priority != .p1) r
      else (q, r)
    let queued : EnqueueReport × SendQueue :=
      (r, { q with items := q.items ++ [⟨priority, msgType, frame⟩], bytes := q.bytes + size })
    if q.wouldExceed size then
      if priority ≠ .p0 then (r, q)
      else if q.maxBytes < size then ({ r with fatal := true }, q)
      else queued
    else queued

/-- The frames of a queue, oldest first. -/
def frames (q : SendQueue) : List Frame := q.items.map Queued.frame

/-! ## What queueing keeps -/

/-- The loop over the queued frames keeps those that pass, in order, and the caps; it does not add
to the bytes. -/
lemma foldl_retainDropping (keep : Queued → Bool) (items : List Queued) :
    ∀ acc : SendQueue × EnqueueReport,
      let done := items.foldl (fun (acc : SendQueue × EnqueueReport) item =>
        if keep item then ({ acc.1 with items := acc.1.items ++ [item] }, acc.2)
        else ({ acc.1 with bytes := acc.1.bytes - item.frame.size }, acc.2.note item)) acc
      done.1.items = acc.1.items ++ items.filter keep ∧ done.1.maxFrames = acc.1.maxFrames ∧
        done.1.maxBytes = acc.1.maxBytes ∧ done.1.bytes ≤ acc.1.bytes := by
  induction items with
  | nil => exact fun acc => ⟨(List.append_nil _).symm, rfl, rfl, le_refl _⟩
  | cons item items ih =>
    intro acc
    rw [List.foldl_cons]
    by_cases hkeep : keep item = true
    · obtain ⟨hitems, hframes, hmax, hbytes⟩ := ih ({ acc.1 with items := acc.1.items ++ [item] },
        acc.2)
      rw [if_pos hkeep, List.filter_cons_of_pos hkeep]
      exact ⟨by rw [hitems, List.append_assoc]; rfl, hframes, hmax, hbytes⟩
    · obtain ⟨hitems, hframes, hmax, hbytes⟩ := ih ({ acc.1 with
        bytes := acc.1.bytes - item.frame.size }, acc.2.note item)
      rw [if_neg hkeep, List.filter_cons_of_neg hkeep]
      exact ⟨hitems, hframes, hmax, hbytes.trans (Nat.sub_le _ _)⟩

lemma retainDropping_spec (q : SendQueue) (keep : Queued → Bool) (r : EnqueueReport) :
    (q.retainDropping keep r).1.items = q.items.filter keep ∧
      (q.retainDropping keep r).1.maxFrames = q.maxFrames ∧
      (q.retainDropping keep r).1.maxBytes = q.maxBytes ∧
      (q.retainDropping keep r).1.bytes ≤ q.bytes :=
  foldl_retainDropping keep q.items _

/-- Shedding removes queued frames. -/
lemma shedOldest_sublist (size fuel : ℕ) :
    ∀ q r, (shedOldest size fuel q r).1.items.Sublist q.items := by
  induction fuel with
  | zero => exact fun q r => List.Sublist.refl _
  | succ fuel ih =>
    intro q r
    unfold shedOldest
    split
    · split
      · exact List.Sublist.refl _
      next i _ =>
        split
        · exact List.Sublist.refl _
        · exact (ih _ _).trans (List.eraseIdx_sublist _ _)
    · exact List.Sublist.refl _

lemma shedOldest_of_fits {q : SendQueue} {size : ℕ} (h : q.wouldExceed size = false)
    (r : EnqueueReport) : ∀ fuel, shedOldest size fuel q r = (q, r)
  | 0 => rfl
  | fuel + 1 => by rw [shedOldest, h, if_neg Bool.false_ne_true]

lemma fits_retainDropping {q : SendQueue} {size : ℕ} (h : q.wouldExceed size = false)
    (keep : Queued → Bool) (r : EnqueueReport) :
    (q.retainDropping keep r).1.wouldExceed size = false := by
  obtain ⟨hitems, hframes, hmax, hbytes⟩ := q.retainDropping_spec keep r
  have hlen : (q.items.filter keep).length ≤ q.items.length := List.length_filter_le _ _
  simp only [wouldExceed, Bool.or_eq_false_iff, decide_eq_false_iff_not] at h ⊢
  rw [hitems, hframes, hmax]
  omega

/-- A keyframe replaces the one that is queued. -/
def replaceKeyframe (priority : Priority) (q : SendQueue) : SendQueue × EnqueueReport :=
  if priority = .p1 then q.retainDropping (fun i => i.priority != .p1) EnqueueReport.zero
  else (q, EnqueueReport.zero)

/-- Over a cap, all deltas go. -/
def shedDeltas (size : ℕ) (p : SendQueue × EnqueueReport) : SendQueue × EnqueueReport :=
  if p.1.wouldExceed size then
    let (q, r) := p.1.retainDropping (fun i => i.priority != .p2) p.2
    (q, if r.dropped.isEmpty then r else { r with resyncPending := true })
  else p

/-- Over a cap, the keyframe goes for a connection frame. -/
def shedKeyframe (priority : Priority) (size : ℕ) (p : SendQueue × EnqueueReport) :
    SendQueue × EnqueueReport :=
  if p.1.wouldExceed size && priority == .p0 then
    p.1.retainDropping (fun i => i.priority != .p1) p.2
  else p

/-- The room a frame finds, and what was removed for it. -/
def room (priority : Priority) (size : ℕ) (q : SendQueue) : SendQueue × EnqueueReport :=
  let p := shedDeltas size (q.replaceKeyframe priority)
  shedKeyframe priority size (shedOldest size p.1.items.length p.1 p.2)

/-- Queueing makes room, and then takes the frame or leaves it out. -/
lemma enqueue_eq {q : SendQueue} {frame : Frame} {msgType : MsgType}
    (h : frame.kind = some msgType) :
    q.enqueue frame =
      let p := q.room (Priority.of msgType) frame.size
      let queued : EnqueueReport × SendQueue :=
        (p.2, { p.1 with
          items := p.1.items ++ [⟨Priority.of msgType, msgType, frame⟩]
          bytes := p.1.bytes + frame.size })
      if p.1.wouldExceed frame.size then
        if Priority.of msgType ≠ .p0 then (p.2, p.1)
        else if p.1.maxBytes < frame.size then ({ p.2 with fatal := true }, p.1)
        else queued
      else queued := by
  unfold enqueue
  rw [h]
  rfl

/-- Room is made by removing queued frames. -/
lemma room_sublist (priority : Priority) (size : ℕ) (q : SendQueue) :
    (q.room priority size).1.items.Sublist q.items := by
  have hdrop : ∀ (q : SendQueue) keep r, (q.retainDropping keep r).1.items.Sublist q.items :=
    fun q keep r => (q.retainDropping_spec keep r).1 ▸ List.filter_sublist
  have hreplace : (q.replaceKeyframe priority).1.items.Sublist q.items := by
    unfold replaceKeyframe
    split
    · exact hdrop _ _ _
    · exact List.Sublist.refl _
  have hdeltas : ∀ p : SendQueue × EnqueueReport, (shedDeltas size p).1.items.Sublist p.1.items := by
    intro p
    unfold shedDeltas
    split
    · exact hdrop _ _ _
    · exact List.Sublist.refl _
  have hkeyframe : ∀ p : SendQueue × EnqueueReport,
      (shedKeyframe priority size p).1.items.Sublist p.1.items := by
    intro p
    unfold shedKeyframe
    split
    · exact hdrop _ _ _
    · exact List.Sublist.refl _
  exact (hkeyframe _).trans ((shedOldest_sublist _ _ _ _).trans ((hdeltas _).trans hreplace))

/-- **Queueing a frame** adds it at the end, or leaves it out; what was queued may be shed. -/
lemma enqueue_sublist (q : SendQueue) (frame : Frame) :
    (q.enqueue frame).2.frames.Sublist (q.frames ++ [frame]) := by
  cases hkind : frame.kind with
  | none =>
    rw [enqueue, hkind]
    exact List.sublist_append_left _ _
  | some msgType =>
    have hroom := (q.room_sublist (Priority.of msgType) frame.size).map Queued.frame
    have hqueued : (((q.room (Priority.of msgType) frame.size).1.items ++
        [(⟨Priority.of msgType, msgType, frame⟩ : Queued)]).map Queued.frame).Sublist
        (q.frames ++ [frame]) := by
      rw [List.map_append]
      exact hroom.append (List.Sublist.refl _)
    rw [enqueue_eq hkind]
    dsimp only
    split_ifs
    · exact hroom.trans (List.sublist_append_left _ _)
    · exact hroom.trans (List.sublist_append_left _ _)
    · exact hqueued
    · exact hqueued

/-- There is room for a frame that fits: only a keyframe removes another one. -/
lemma room_of_fits {q : SendQueue} {size : ℕ} (priority : Priority)
    (h : q.wouldExceed size = false) :
    q.room priority size = q.replaceKeyframe priority ∧
      (q.replaceKeyframe priority).1.wouldExceed size = false := by
  have hfits : (q.replaceKeyframe priority).1.wouldExceed size = false := by
    unfold replaceKeyframe
    split
    · exact fits_retainDropping h _ _
    · exact h
  refine ⟨?_, hfits⟩
  unfold room
  rw [shedDeltas, hfits, if_neg Bool.false_ne_true]
  dsimp only
  rw [shedOldest_of_fits hfits, shedKeyframe, hfits, Bool.false_and, if_neg Bool.false_ne_true]

lemma replaceKeyframe_spec (priority : Priority) (q : SendQueue) :
    (∃ keep : Queued → Bool, (q.replaceKeyframe priority).1.items = q.items.filter keep ∧
        ∀ i, keep i = false → i.priority = .p1) ∧
      (q.replaceKeyframe priority).1.maxFrames = q.maxFrames ∧
      (q.replaceKeyframe priority).1.maxBytes = q.maxBytes ∧
      (q.replaceKeyframe priority).1.bytes ≤ q.bytes := by
  unfold replaceKeyframe
  split
  · obtain ⟨hitems, hrest⟩ := q.retainDropping_spec (fun i => i.priority != .p1) EnqueueReport.zero
    refine ⟨⟨_, hitems, fun i hi => ?_⟩, hrest⟩
    simpa using hi
  · exact ⟨⟨fun _ => true, (List.filter_true _).symm, fun _ hi => nomatch hi⟩, rfl, rfl, le_refl _⟩

/-- **A queue with room** takes a frame at its end; a keyframe replaces the one that is queued. -/
theorem enqueue_of_fits {q : SendQueue} {frame : Frame} {msgType : MsgType}
    (hkind : frame.kind = some msgType) (h : q.wouldExceed frame.size = false) :
    (q.enqueue frame).2 =
      { (q.replaceKeyframe (Priority.of msgType)).1 with
        items := (q.replaceKeyframe (Priority.of msgType)).1.items ++
          [⟨Priority.of msgType, msgType, frame⟩]
        bytes := (q.replaceKeyframe (Priority.of msgType)).1.bytes + frame.size } := by
  obtain ⟨hroom, hfits⟩ := room_of_fits (Priority.of msgType) h
  rw [enqueue_eq hkind, hroom]
  dsimp only
  rw [hfits, if_neg Bool.false_ne_true]

end SendQueue

end V2xw.Server
