import V2xw.Record.Seek

/-!
# What a seek finds

The messages of a recording are stored in the order of their times. What a seek is after, the last
keyframe at or before an instant and the deltas behind it up to that instant, lies between the chunk
of the keyframe and the first chunk that starts too late, however the messages were cut into chunks.

## Main results

* `Record.SeekIndex.keyframeAtOrBefore_spec` — the keyframe the index finds.
* `Record.Reader.walk_spec` — the chunks a walk reads.
* `Record.RecordingWriter.seek_finds` — a seek in what a writer stored.
* `Record.RecordingWriter.large_chunk_refused` — a chunk too large for the reader.
-/

namespace V2xw.Record

open Layout

/-! ## The index -/

lemma MessageSlot.le_iff {a b : MessageSlot} : a.le b = true ↔
    a.simTime.toNat < b.simTime.toNat ∨ (a.simTime.toNat = b.simTime.toNat ∧
      (a.chunk.toNat < b.chunk.toNat ∨ (a.chunk.toNat = b.chunk.toNat ∧ a.offset ≤ b.offset))) := by
  unfold MessageSlot.le
  split_ifs with h1 h2
  · have hne : a.simTime.toNat ≠ b.simTime.toNat := fun h => h1 (UInt64.toNat_inj.1 h)
    rw [decide_eq_true_iff, UInt64.le_iff_toNat_le]
    omega
  · have heq : a.simTime = b.simTime := not_not.1 h1
    have hne : a.chunk.toNat ≠ b.chunk.toNat := fun h => h2 (UInt32.toNat_inj.1 h)
    rw [decide_eq_true_iff, UInt32.le_iff_toNat_le, heq]
    omega
  · have heq : a.simTime = b.simTime := not_not.1 h1
    have heq' : a.chunk = b.chunk := not_not.1 h2
    rw [decide_eq_true_iff, heq, heq']
    omega

/-- The index is ascending by time. -/
lemma pairwise_mergeSort_slots (slots : List MessageSlot) :
    (slots.mergeSort MessageSlot.le).Pairwise fun a b => a.simTime ≤ b.simTime := by
  have htrans : ∀ a b c : MessageSlot, a.le b = true → b.le c = true → a.le c = true := by
    intro a b c hab hbc
    rw [MessageSlot.le_iff] at hab hbc ⊢
    omega
  have htotal : ∀ a b : MessageSlot, (a.le b || b.le a) = true := by
    intro a b
    rw [Bool.or_eq_true, MessageSlot.le_iff, MessageSlot.le_iff]
    omega
  refine (List.pairwise_mergeSort htrans htotal slots).imp fun {a b} hab => ?_
  rw [UInt64.le_iff_toNat_le]
  rw [MessageSlot.le_iff] at hab
  omega

lemma mem_slotsIn {topic : Topic} {i : ℕ} {ms : List Message} {s : MessageSlot}
    (h : s ∈ slotsIn topic i ms) :
    s.chunk = UInt32.ofNat i ∧ ∃ m ∈ ms, m.topic = topic ∧ m.logTime = s.simTime := by
  obtain ⟨⟨m, offset⟩, hmem, hslot⟩ := List.mem_filterMap.1 h
  dsimp only at hslot
  split_ifs at hslot with htopic
  cases hslot
  exact ⟨rfl, m, List.mem_of_getElem? (List.mem_zipIdx_iff_getElem?.1 hmem), htopic, rfl⟩

lemma exists_mem_slotsIn {topic : Topic} (i : ℕ) {ms : List Message} {m : Message} (hm : m ∈ ms)
    (htopic : m.topic = topic) : ∃ s ∈ slotsIn topic i ms, s.simTime = m.logTime := by
  obtain ⟨offset, hoffset⟩ := List.mem_iff_getElem?.1 hm
  refine ⟨⟨m.logTime, UInt32.ofNat i, offset⟩, List.mem_filterMap.2 ⟨(m, offset), ?_, ?_⟩, rfl⟩
  · exact List.mem_zipIdx_iff_getElem?.2 hoffset
  · exact if_pos htopic

namespace SeekIndex

lemma mem_keyframes {chunks : List Chunk} {s : MessageSlot} (h : s ∈ (read chunks).keyframes) :
    ∃ i c, chunks[i]? = some c ∧ s.chunk = UInt32.ofNat i ∧
      ∃ m ∈ c.messages, m.topic = .keyframe ∧ m.logTime = s.simTime := by
  obtain ⟨⟨c, i⟩, hc, hs⟩ := List.mem_flatMap.1 (List.mem_mergeSort.1 h)
  obtain ⟨hchunk, hm⟩ := mem_slotsIn hs
  exact ⟨i, c, List.mem_zipIdx_iff_getElem?.1 hc, hchunk, hm⟩

lemma exists_mem_keyframes {chunks : List Chunk} {c : Chunk} (hc : c ∈ chunks) {m : Message}
    (hm : m ∈ c.messages) (htopic : m.topic = .keyframe) :
    ∃ s ∈ (read chunks).keyframes, s.simTime = m.logTime := by
  obtain ⟨i, hi⟩ := List.mem_iff_getElem?.1 hc
  obtain ⟨s, hs, htime⟩ := exists_mem_slotsIn i hm htopic
  refine ⟨s, List.mem_mergeSort.2 (List.mem_flatMap.2 ⟨(c, i), ?_, hs⟩), htime⟩
  exact List.mem_zipIdx_iff_getElem?.2 hi

/-- An ascending list has the elements up to `t` at its start. -/
lemma mem_takeWhile_of_le {t : SimTime} {slots : List MessageSlot}
    (hsorted : slots.Pairwise fun a b => a.simTime ≤ b.simTime) {s : MessageSlot} (hs : s ∈ slots)
    (ht : s.simTime ≤ t) : s ∈ slots.takeWhile (·.simTime ≤ t) := by
  induction slots with
  | nil => exact absurd hs List.not_mem_nil
  | cons x xs ih =>
    obtain ⟨hx, hxs⟩ := List.pairwise_cons.1 hsorted
    have hxt : x.simTime ≤ t := by
      obtain rfl | hmem := List.mem_cons.1 hs
      · exact ht
      · exact UInt64.le_trans (hx s hmem) ht
    rw [List.takeWhile_cons_of_pos (by simpa using hxt)]
    obtain rfl | hmem := List.mem_cons.1 hs
    · exact List.mem_cons_self
    · exact List.mem_cons_of_mem _ (ih hxs hmem)

/-- **The keyframe the index finds** is the last one at or before the instant. -/
theorem keyframeAtOrBefore_spec {chunks : List Chunk} {t : SimTime} {c : Chunk} (hc : c ∈ chunks)
    {m : Message} (hm : m ∈ c.messages) (htopic : m.topic = .keyframe) (ht : m.logTime ≤ t) :
    ∃ slot, (read chunks).keyframeAtOrBefore t = some slot ∧ slot ∈ (read chunks).keyframes ∧
      slot.simTime ≤ t ∧ ∀ s ∈ (read chunks).keyframes, s.simTime ≤ t →
          s.simTime ≤ slot.simTime := by
  have hsorted : (read chunks).keyframes.Pairwise fun a b => a.simTime ≤ b.simTime :=
    pairwise_mergeSort_slots _
  obtain ⟨s, hs, hstime⟩ := exists_mem_keyframes hc hm htopic
  have hmem := mem_takeWhile_of_le hsorted hs (hstime ▸ ht)
  cases hlast : ((read chunks).keyframes.takeWhile (·.simTime ≤ t)).getLast? with
  | none => exact absurd (List.getLast?_eq_none_iff.1 hlast) (List.ne_nil_of_mem hmem)
  | some slot =>
    have hslot := List.mem_of_getLast? hlast
    refine ⟨slot, hlast, (List.takeWhile_sublist _).mem hslot, ?_, fun s hs hst => ?_⟩
    · exact of_decide_eq_true (List.all_eq_true.1 List.all_takeWhile slot hslot)
    · -- the last of an ascending list is the greatest
      have hmem := mem_takeWhile_of_le hsorted hs hst
      obtain ⟨init, hinit⟩ := List.getLast?_eq_some_iff.1 hlast
      have hpair := hsorted.sublist (List.takeWhile_sublist (·.simTime ≤ t))
      rw [hinit] at hmem hpair
      obtain hmem | hmem := List.mem_append.1 hmem
      · exact (List.pairwise_append.1 hpair).2.2 s hmem slot List.mem_cons_self
      · rw [List.mem_singleton.1 hmem]
        exact UInt64.le_refl _

/-- The recorded interval starts with the first keyframe. -/
lemma snapshotSpan_of_mem {chunks : List Chunk} {slot : MessageSlot}
    (h : slot ∈ (read chunks).keyframes) :
    ∃ span, (read chunks).snapshotSpan = some span ∧ span.1 ≤ slot.simTime := by
  have hsorted : (read chunks).keyframes.Pairwise fun a b => a.simTime ≤ b.simTime :=
    pairwise_mergeSort_slots _
  unfold snapshotSpan
  cases hlist : (read chunks).keyframes with
  | nil => exact absurd (hlist ▸ h) List.not_mem_nil
  | cons first slots =>
    rw [List.head?_cons, List.getLast?_cons]
    refine ⟨_, rfl, ?_⟩
    rw [hlist] at h hsorted
    obtain rfl | hmem := List.mem_cons.1 h
    · exact UInt64.le_refl _
    · exact (List.pairwise_cons.1 hsorted).1 slot hmem

end SeekIndex

/-! ## Walking -/

/-- A keyframe and a delta of a file is a frame with transport flags cleared, at its own time. -/
def Message.Framed (m : Message) : Prop :=
  m.topic = .keyframe ∨ m.topic = .delta →
    Frame.fromBytes m.data = .ok ⟨m.data⟩ ∧ (Frame.mk m.data).simTime = .ok m.logTime

namespace Reader

/-- What a seek keeps of a message: a keyframe at the instant `start`, or a delta behind it. -/
def isStart (start : SimTime) (m : Message) : Bool := m.topic = .keyframe ∧ m.logTime = start

def isBehind (start t : SimTime) (m : Message) : Bool :=
  m.topic = .delta ∧ start < m.logTime ∧ m.logTime ≤ t

/-- What a seek has found after a message. -/
def keep (start t : SimTime) (found : Found) (m : Message) : Found :=
  if isStart start m then { found with keyframe := some ⟨m.data⟩ }
  else if isBehind start t m then { found with deltas := found.deltas ++ [⟨m.data⟩] }
  else found

/-- Reading messages is keeping what a seek is after. -/
lemma readMessages_eq (start t : SimTime) {ms : List Message} (hms : ∀ m ∈ ms, m.Framed) :
    ∀ found, readMessages start t ms found = .ok (ms.foldl (keep start t) found) := by
  induction ms with
  | nil => exact fun found => rfl
  | cons m ms ih =>
    obtain ⟨hm, hms⟩ := List.forall_mem_cons.1 hms
    intro found
    rw [readMessages, List.foldl_cons, keep]
    simp only [isStart, isBehind, decide_eq_true_eq]
    split_ifs with hstart hbehind
    · rw [(hm (.inl hstart.1)).1]
      exact ih hms _
    · rw [(hm (.inr hbehind.1)).1]
      exact ih hms _
    · exact ih hms _

/-- The keyframe kept is the last one at the instant. -/
lemma keyframe_foldl_keep (start t : SimTime) (ms : List Message) :
    (ms.foldl (keep start t) {}).keyframe =
      (ms.filter (isStart start)).getLast?.map fun m => Frame.mk m.data := by
  induction ms using List.reverseRecOn with
  | nil => rfl
  | append_singleton ms m ih =>
    rw [List.foldl_append, List.filter_append, List.foldl_cons, List.foldl_nil, keep]
    cases hstart : isStart start m with
    | true =>
      rw [if_pos rfl, List.filter_cons_of_pos hstart, List.filter_nil, List.getLast?_concat]
      rfl
    | false =>
      rw [if_neg Bool.false_ne_true, List.filter_cons_of_neg (by rw [hstart]; exact nofun),
        List.filter_nil, List.append_nil, ← ih]
      split_ifs <;> rfl

/-- The deltas kept are those behind the instant, in stored order. -/
lemma deltas_foldl_keep (start t : SimTime) (ms : List Message) :
    (ms.foldl (keep start t) {}).deltas =
      (ms.filter (isBehind start t)).map fun m => Frame.mk m.data := by
  induction ms using List.reverseRecOn with
  | nil => rfl
  | append_singleton ms m ih =>
    rw [List.foldl_append, List.filter_append, List.foldl_cons, List.foldl_nil, keep,
      List.map_append, ← ih]
    cases hstart : isStart start m with
    | true =>
      have hbehind : isBehind start t m = false := by
        have htopic : m.topic = .keyframe := (of_decide_eq_true hstart).1
        simp [isBehind, htopic]
      rw [if_pos rfl, List.filter_cons_of_neg (by rw [hbehind]; exact nofun), List.filter_nil]
      exact (List.append_nil _).symm
    | false =>
      rw [if_neg Bool.false_ne_true]
      cases hbehind : isBehind start t m with
      | true =>
        rw [if_pos rfl, List.filter_cons_of_pos hbehind, List.filter_nil]
        rfl
      | false =>
        rw [if_neg Bool.false_ne_true, List.filter_cons_of_neg (by rw [hbehind]; exact nofun),
          List.filter_nil]
        exact (List.append_nil _).symm

/-- The reader accepts the chunk. -/
def Accepts (r : Reader) (c : Chunk) : Prop :=
  c.uncompressedSize ≤ maxChunkUncompressedBytes ∧
    (r.requireChunkChecksums = true → c.uncompressedCrc ≠ 0)

lemma readChunk_eq {r : Reader} {c : Chunk} (hc : r.Accepts c)
    (hms : ∀ m ∈ c.messages, m.Framed) (start t : SimTime) (i : ℕ) (found : Found) :
    r.readChunk start t i c found = .ok (c.messages.foldl (keep start t) found) := by
  rw [readChunk, if_neg (Nat.not_lt.2 hc.1), readMessages_eq start t hms]
  exact if_neg fun h => hc.2 h.1 h.2

/-- **The chunks a walk reads**: the first ones, up to one that starts too late. -/
theorem walk_spec {r : Reader} {chunks : List Chunk} (hchunks : ∀ c ∈ chunks, r.Accepts c)
    (hms : ∀ c ∈ chunks, ∀ m ∈ c.messages, m.Framed) (start t limit : SimTime)
    (hne : chunks ≠ []) : ∀ i found, ∃ seen rest, chunks = seen ++ rest ∧
      r.walk start t limit i chunks found =
        .ok ((seen.flatMap Chunk.messages).foldl (keep start t) found, seen.length) ∧
      (rest = [] ∨ ∃ next rest', rest = next :: rest' ∧ limit < next.messageStartTime) := by
  induction chunks with
  | nil => exact absurd rfl hne
  | cons c chunks ih =>
    obtain ⟨hc, hchunks⟩ := List.forall_mem_cons.1 hchunks
    obtain ⟨hm, hms⟩ := List.forall_mem_cons.1 hms
    intro i found
    rw [walk, readChunk_eq hc hm]
    dsimp only
    cases chunks with
    | nil =>
      refine ⟨[c], [], rfl, ?_, .inl rfl⟩
      rw [List.flatMap_singleton]
      rfl
    | cons next chunks =>
      dsimp only
      by_cases hle : next.messageStartTime ≤ limit
      · obtain ⟨seen, rest, heq, hwalk, hrest⟩ :=
          ih hchunks hms (List.cons_ne_nil _ _) (i + 1) (c.messages.foldl (keep start t) found)
        refine ⟨c :: seen, rest, congrArg (c :: ·) heq, ?_, hrest⟩
        rw [if_pos hle, hwalk, List.flatMap_cons, List.foldl_append]
        rfl
      · refine ⟨[c], next :: chunks, rfl, ?_, .inr ⟨next, chunks, rfl, UInt64.not_le.1 hle⟩⟩
        rw [if_neg hle, List.flatMap_singleton]
        rfl

/-! ## Seeking -/

/-- The chunk starts with its earliest message. -/
lemma lt_of_lt_start (container : Container) {ms : List Message} {t : SimTime}
    (h : t < (chunkOf container ms).messageStartTime) : ms ≠ [] ∧ ∀ m ∈ ms, t < m.logTime := by
  cases hmin : (ms.map Message.logTime).min? with
  | none =>
    have hzero : (chunkOf container ms).messageStartTime = 0 := by
      rw [chunkOf, hmin]
      rfl
    rw [hzero] at h
    exact absurd h (UInt64.not_lt_zero)
  | some start =>
    have hstart : (chunkOf container ms).messageStartTime = start := by
      rw [chunkOf, hmin]
      rfl
    rw [hstart] at h
    refine ⟨?_, fun m hm => ?_⟩
    · rintro rfl
      cases hmin
    · exact UInt64.lt_of_lt_of_le h
        ((List.min?_eq_some_iff.1 hmin).2 _ (List.mem_map_of_mem hm))

/-- The chunks of a file, in whose order the times of the messages do not decrease. At an instant
there is one keyframe at most. -/
structure InOrder (chunks : List Chunk) : Prop where
  start_lt : ∀ c ∈ chunks, ∀ t, t < c.messageStartTime →
    c.messages ≠ [] ∧ ∀ m ∈ c.messages, t < m.logTime
  framed : ∀ c ∈ chunks, ∀ m ∈ c.messages, m.Framed
  sorted : (chunks.flatMap Chunk.messages).Pairwise fun a b => a.logTime ≤ b.logTime
  unique : ((chunks.flatMap Chunk.messages).filter Message.isKeyframe).Pairwise
    fun a b => a.logTime ≠ b.logTime

/-- A keyframe that is the only one at its instant is what is kept. -/
lemma filter_isStart_eq {ms : List Message} {k : Message} (hk : k ∈ ms)
    (hkey : k.isKeyframe = true)
    (hunique : (ms.filter Message.isKeyframe).Pairwise fun a b => a.logTime ≠ b.logTime) :
    ms.filter (isStart k.logTime) = [k] := by
  have hsub : ms.filter (isStart k.logTime) = (ms.filter Message.isKeyframe).filter
      (fun m => decide (m.logTime = k.logTime)) := by
    rw [List.filter_filter]
    refine List.filter_congr fun m _ => ?_
    rw [isStart, Message.isKeyframe, Bool.decide_and, Bool.and_comm, beq_eq_decide]
  have hpair := hunique.sublist (List.filter_sublist (p := fun m => decide (m.logTime = k.logTime)))
  rw [← hsub] at hpair
  have htime : ∀ m ∈ ms.filter (isStart k.logTime), m.logTime = k.logTime := fun m hm =>
    (of_decide_eq_true (List.mem_filter.1 hm).2).2
  have hmem : k ∈ ms.filter (isStart k.logTime) :=
    List.mem_filter.2 ⟨hk, decide_eq_true ⟨eq_of_beq hkey, rfl⟩⟩
  match hlist : ms.filter (isStart k.logTime) with
  | [] =>
    rw [hlist] at hmem
    exact absurd hmem List.not_mem_nil
  | [x] =>
    rw [hlist] at hmem
    rw [List.mem_singleton.1 hmem]
  | x :: y :: rest =>
    rw [hlist] at hpair htime
    have hx := htime x List.mem_cons_self
    have hy := htime y (List.mem_cons_of_mem _ List.mem_cons_self)
    exact absurd (hx.trans hy.symm) ((List.pairwise_cons.1 hpair).1 y List.mem_cons_self)

/-- The messages of the chunks that a walk reads are those that the seek is after. -/
lemma InOrder.walk_filter {chunks : List Chunk} (h : InOrder chunks) {i : ℕ} {c : Chunk}
    (hc : chunks[i]? = some c) {k : Message} (hk : k ∈ c.messages) {t : SimTime}
    (hkt : k.logTime ≤ t) {start : ℕ} (hstart : start ≤ i) {seen rest : List Chunk}
    (hdrop : chunks.drop start = seen ++ rest)
    (hrest : rest = [] ∨ ∃ next rest', rest = next :: rest' ∧ t < next.messageStartTime) :
    k ∈ seen.flatMap Chunk.messages ∧
      (seen.flatMap Chunk.messages).filter (isBehind k.logTime t) =
        (chunks.flatMap Chunk.messages).filter (isBehind k.logTime t) := by
  have hsplit : chunks.flatMap Chunk.messages = (chunks.take start).flatMap Chunk.messages ++
      (seen.flatMap Chunk.messages ++ rest.flatMap Chunk.messages) := by
    rw [← List.flatMap_append, ← hdrop, ← List.flatMap_append, List.take_append_drop]
  have hsorted := hsplit ▸ h.sorted
  obtain ⟨_, hlate, hbefore⟩ := List.pairwise_append.1 hsorted
  have hmem : c ∈ chunks.drop start := by
    refine List.mem_of_getElem? (i := i - start) ?_
    rw [List.getElem?_drop, Nat.add_sub_cancel' hstart]
    exact hc
  have hkdrop : k ∈ seen.flatMap Chunk.messages ++ rest.flatMap Chunk.messages := by
    rw [← List.flatMap_append, ← hdrop]
    exact List.mem_flatMap.2 ⟨c, hmem, hk⟩
  -- everything behind the chunks that were read is too late
  have hafter : ∀ m ∈ rest.flatMap Chunk.messages, t < m.logTime := by
    obtain rfl | ⟨next, rest', rfl, hlt⟩ := hrest
    · exact fun m hm => absurd hm List.not_mem_nil
    · have hnext : next ∈ chunks :=
        (List.drop_sublist start chunks).subset (hdrop ▸ List.mem_append_right _ List.mem_cons_self)
      obtain ⟨hne, hall⟩ := h.start_lt next hnext t hlt
      intro m hm
      rw [List.flatMap_cons] at hm
      obtain hm | hm := List.mem_append.1 hm
      · exact hall m hm
      · obtain ⟨x, hx⟩ := List.exists_mem_of_ne_nil _ hne
        have hpair := (List.pairwise_append.1 hlate).2.1
        rw [List.flatMap_cons] at hpair
        exact UInt64.lt_of_lt_of_le (hall x hx) ((List.pairwise_append.1 hpair).2.2 x hx m hm)
  refine ⟨?_, ?_⟩
  · obtain hk | hk := List.mem_append.1 hkdrop
    · exact hk
    · exact absurd hkt (UInt64.not_le.2 (hafter k hk))
  · have hfirst : ((chunks.take start).flatMap Chunk.messages).filter
      (isBehind k.logTime t) = [] := by
      refine List.filter_eq_nil_iff.2 fun m hm hbehind => ?_
      exact absurd (of_decide_eq_true hbehind).2.1 (UInt64.not_lt.2 (hbefore m hm k hkdrop))
    have hlast : (rest.flatMap Chunk.messages).filter (isBehind k.logTime t) = [] := by
      refine List.filter_eq_nil_iff.2 fun m hm hbehind => ?_
      exact absurd (of_decide_eq_true hbehind).2.2 (UInt64.not_le.2 (hafter m hm))
    rw [hsplit, List.filter_append, List.filter_append, hfirst, hlast, List.nil_append,
      List.append_nil]

/-- No keyframe lies between the one that was found and the instant sought, so the walk goes on up
to this instant. -/
lemma min_gopEnd {index : SeekIndex} {start t : SimTime}
    (h : ∀ s ∈ index.keyframes, s.simTime ≤ t → s.simTime ≤ start) :
    min t (gopEnd index start) = t := by
  have hle : t ≤ gopEnd index start := by
    unfold gopEnd
    split
    · rename_i s hs
      obtain ⟨slot, hslot, rfl⟩ := List.mem_map.1 (List.mem_of_find?_eq_some hs)
      have hlt : start < slot.simTime :=
        of_decide_eq_true (List.find?_some (p := fun s => decide (start < s)) hs)
      have hlate : t < slot.simTime := by
        by_contra hnot
        exact absurd (h slot hslot (UInt64.not_lt.1 hnot)) (UInt64.not_le.2 hlt)
      rw [UInt64.le_iff_toNat_le, UInt64.toNat_sub_of_le]
      · rw [UInt64.lt_iff_toNat_lt] at hlate
        show t.toNat ≤ slot.simTime.toNat - 1
        omega
      · rw [UInt64.le_iff_toNat_le]
        rw [UInt64.lt_iff_toNat_lt] at hlate
        show 1 ≤ slot.simTime.toNat
        omega
    · rw [UInt64.le_iff_toNat_le]
      have hlt := t.toNat_lt
      show t.toNat ≤ 0xFFFFFFFFFFFFFFFF
      omega
  exact if_pos hle

/-- **What a seek finds**: the last keyframe at or before the instant, and all deltas behind it up
to the instant, in stored order. -/
lemma seek_spec {r : Reader} {chunks : List Chunk} (hindex : r.index = .read chunks)
    (horder : InOrder chunks) (haccepts : ∀ c ∈ chunks, r.Accepts c) {t : SimTime}
    (hfirst : ∃ m ∈ chunks.flatMap Chunk.messages, m.isKeyframe = true ∧ m.logTime ≤ t) :
    ∃ k ∈ chunks.flatMap Chunk.messages, k.isKeyframe = true ∧ k.logTime ≤ t ∧
      (∀ m ∈ chunks.flatMap Chunk.messages, m.isKeyframe = true → m.logTime ≤ t →
        m.logTime ≤ k.logTime) ∧
      ∃ h chunksRead, (Frame.mk k.data).header = .ok h ∧
        r.seek t = .ok
          { keyframe := (Frame.mk k.data).withFlags
              (h.flags &&& canonicalFlagMask ||| flagResync ||| flagSeekResult)
            deltas := ((chunks.flatMap Chunk.messages).filter (isBehind k.logTime t)).map
              fun m => ⟨m.data⟩
            keyframeTime := k.logTime
            chunksRead } := by
  obtain ⟨m, hm, hkey, ht⟩ := hfirst
  obtain ⟨c, hc, hmc⟩ := List.mem_flatMap.1 hm
  obtain ⟨slot, hfound, hslot, hslott, hlatest⟩ :=
    SeekIndex.keyframeAtOrBefore_spec hc hmc (eq_of_beq hkey) ht
  obtain ⟨i, c, hci, hchunk, k, hk, htopic, htime⟩ := SeekIndex.mem_keyframes hslot
  have hkmem : k ∈ chunks.flatMap Chunk.messages :=
    List.mem_flatMap.2 ⟨c, List.mem_of_getElem? hci, hk⟩
  have hkkey : k.isKeyframe = true := beq_iff_eq.2 htopic
  have hframed := horder.framed c (List.mem_of_getElem? hci) k hk (.inl htopic)
  refine ⟨k, hkmem, hkkey, htime ▸ hslott, ?_, ?_⟩
  · intro m hm hkey hmt
    obtain ⟨c, hc, hmc⟩ := List.mem_flatMap.1 hm
    obtain ⟨s, hs, hstime⟩ := SeekIndex.exists_mem_keyframes hc hmc (eq_of_beq hkey)
    rw [htime, ← hstime]
    exact hlatest s hs (hstime ▸ hmt)
  -- the chunks that are read, from that of the keyframe on
  have hstart : slot.chunk.toNat ≤ i := by
    rw [hchunk, UInt32.toNat_ofNat']
    exact Nat.mod_le _ _
  have hilt : i < chunks.length := (List.getElem?_eq_some_iff.1 hci).1
  have hne : chunks.drop slot.chunk.toNat ≠ [] := by
    rw [Ne, List.drop_eq_nil_iff]
    omega
  have hsub : ∀ c ∈ chunks.drop slot.chunk.toNat, c ∈ chunks := fun c hc =>
    (List.drop_sublist _ chunks).subset hc
  have hlimit : min t (gopEnd r.index slot.simTime) = t := min_gopEnd (hindex ▸ hlatest)
  obtain ⟨seen, rest, hdrop, hwalk, hrest⟩ := walk_spec (r := r)
    (fun c hc => haccepts c (hsub c hc)) (fun c hc => horder.framed c (hsub c hc)) slot.simTime t t
    hne slot.chunk.toNat {}
  obtain ⟨hseen, hfilter⟩ := horder.walk_filter hci hk (htime ▸ hslott) hstart hdrop hrest
  have hunique : ((seen.flatMap Chunk.messages).filter Message.isKeyframe).Pairwise
      fun a b => a.logTime ≠ b.logTime := by
    refine horder.unique.sublist (List.Sublist.filter _ ?_)
    rw [← List.take_append_drop slot.chunk.toNat chunks, hdrop, List.flatMap_append,
      List.flatMap_append]
    exact (List.sublist_append_left _ _).trans (List.sublist_append_right _ _)
  have hkeyframe := keyframe_foldl_keep slot.simTime t (seen.flatMap Chunk.messages)
  have hdeltas := deltas_foldl_keep slot.simTime t (seen.flatMap Chunk.messages)
  rw [← htime, filter_isStart_eq hseen hkkey hunique] at hkeyframe
  rw [← htime, hfilter] at hdeltas
  rw [← htime] at hwalk
  obtain ⟨h, hheader⟩ : ∃ h, (Frame.mk k.data).header = .ok h := by
    cases hh : (Frame.mk k.data).header with
    | ok h => exact ⟨h, rfl⟩
    | error e =>
      have hsim := hframed.2
      rw [Frame.simTime, hh] at hsim
      cases hsim
  refine ⟨h, seen.length, hheader, ?_⟩
  obtain ⟨span, hspan, hfirst⟩ := SeekIndex.snapshotSpan_of_mem hslot
  rw [← hindex] at hfound hspan
  have hsorted : ((seen.flatMap Chunk.messages).foldl (keep k.logTime t) {}).deltas.mergeSort
      (fun a b => a.simTime.toOption.getD 0 ≤ b.simTime.toOption.getD 0) =
      ((chunks.flatMap Chunk.messages).filter (isBehind k.logTime t)).map fun m =>
          Frame.mk m.data := by
    rw [hdeltas]
    refine List.mergeSort_of_pairwise (List.pairwise_map.2 ?_)
    have htime : ∀ m ∈ (chunks.flatMap Chunk.messages).filter (isBehind k.logTime t),
        (Frame.mk m.data).simTime = .ok m.logTime := by
      intro m hm
      obtain ⟨hm, hbehind⟩ := List.mem_filter.1 hm
      obtain ⟨c, hc, hmc⟩ := List.mem_flatMap.1 hm
      exact (horder.framed c hc m hmc (.inr (of_decide_eq_true hbehind).1)).2
    refine (horder.sorted.sublist (List.filter_sublist)).imp_of_mem fun {a b} ha hb hab => ?_
    rw [htime a ha, htime b hb]
    exact decide_eq_true hab
  simp only [seek, hfound, hspan]
  rw [if_neg (UInt64.not_lt.2 (UInt64.le_trans hfirst hslott)), collectGop, hlimit]
  have hchunks : r.index.chunks = chunks := by
    rw [hindex]
    rfl
  rw [hchunks, ← htime, hwalk]
  dsimp only
  rw [hkeyframe]
  dsimp only [List.getLast?_singleton, Option.map_some]
  rw [hheader, hsorted]

/-- A seek reads one chunk at least, and a chunk that is too large is refused. -/
lemma seek_refused {r : Reader}
    (hlarge : ∀ c ∈ r.index.chunks, maxChunkUncompressedBytes < c.uncompressedSize) (t : SimTime)
    (result : SeekResult) : r.seek t ≠ .ok result := by
  have hwalk (start limit : SimTime) (i : ℕ) {chunks : List Chunk} (found : Found)
      (hchunks : ∀ c ∈ chunks, c ∈ r.index.chunks) :
      ∃ e, r.walk start t limit i chunks found = .error e := by
    cases chunks with
    | nil => exact ⟨_, rfl⟩
    | cons c rest =>
      have hc := hlarge c (hchunks c List.mem_cons_self)
      rw [walk, readChunk, if_pos hc]
      exact ⟨_, rfl⟩
  unfold seek
  split
  · rename_i slot span _ _
    split_ifs with hspan
    · exact nofun
    · obtain ⟨e, he⟩ := hwalk slot.simTime (min t (gopEnd r.index slot.simTime)) slot.chunk.toNat {}
        fun c hc => (List.drop_sublist slot.chunk.toNat r.index.chunks).subset hc
      rw [collectGop, he]
      exact nofun
  · exact nofun

end Reader

/-! ## Recordings of a writer -/

/-- A stored frame is read back. -/
lemma fromBytes_canonical (g : WireFrame) :
    Frame.fromBytes g.canonical.frame.bytes = .ok g.canonical.frame := by
  have hflags : g.canonical.header.flags &&& flagCompressed = 0 := by
    show g.header.flags &&& canonicalFlagMask &&& flagCompressed = 0
    rw [UInt16.and_assoc]
    exact UInt16.and_zero
  have hlen : g.canonical.frame.bytes.length - headerBytes = g.canonical.header.bodyLen.toNat := by
    rw [RecordingWriter.size_frame, Nat.add_sub_cancel_left]
    exact g.bodyLen_eq.symm
  have hheader : (Frame.mk g.canonical.frame.bytes).header = .ok g.canonical.header :=
    Frame.header_build _ _
  unfold Frame.fromBytes
  dsimp only
  rw [hheader]
  show (if g.canonical.header.version ≠ versionMajor then _ else _) = _
  rw [if_neg (not_not.2 g.canonical.version_eq), if_neg (not_not.2 hflags)]
  exact if_neg (not_not.2 hlen)

lemma simTime_canonical (g : WireFrame) : g.canonical.frame.simTime = g.frame.simTime := by
  unfold Frame.simTime
  rw [WireFrame.frame, WireFrame.frame, Frame.header_build, Frame.header_build, Frame.body_build,
    Frame.body_build]
  rfl

namespace RecordingWriter

/-- Every stored message is framed. -/
lemma framed_stored (gates : Gates) (opts : RecordingOptions) (calls : List Call) :
    ∀ m ∈ (run gates opts calls).mcap.stored, m.Framed := by
  refine forall_stored gates opts (R := fun _ => True) (fun call m _ h => ?_) fun _ _ => trivial
  cases call with
  | writeFrame f =>
    obtain ⟨g, hdata, htime⟩ := h
    refine fun htopic => ⟨?_, ?_⟩
    · rw [hdata]
      exact fromBytes_canonical g
    · rw [hdata]
      exact (simTime_canonical g).trans (htime htopic)
  | writeRecord time r =>
    rintro (htopic | htopic)
    all_goals
      rw [h.1] at htopic
      cases htopic
  | writeManifest => exact h.elim
  | attach => exact h.elim

lemma flatten_chunks (w : RecordingWriter) : w.mcap.chunks.flatten = w.mcap.stored := by
  have hstored := Chunker.stored_cut (c := w.chunker)
  rw [Chunker.stored] at hstored
  rw [w.chunks_eq]
  exact (List.append_nil _).symm.trans hstored

/-- The reader of a finished recording. -/
def reader (container : Container) (requireChunkChecksums : Bool)
    (w : RecordingWriter) : Reader where
  index := .read (w.finish.2.map (chunkOf container))
  requireChunkChecksums := requireChunkChecksums

/-- A container that frames each message with 31 bytes and has a checksum for each chunk. -/
def framing : Container where
  uncompressedSize ms := (ms.map fun m => 31 + m.size).sum
  uncompressedCrc _ := 1

/-- A keyframe at the start of a run, with `n` bytes behind its time. -/
def paddedKeyframe (n : ℕ) (hn : 8 + n < 2 ^ 32) : WireFrame where
  header := ⟨versionMajor, MsgType.keyframe.id, UInt32.ofNat (8 + n), 0, 0, 0⟩
  body := put (0 : SimTime) ++ List.replicate n 0
  version_eq := rfl
  bodyLen_eq := by
    rw [toNat_ofNat_of_lt hn, List.length_append, List.length_replicate]
    rfl

lemma kind_paddedKeyframe (n : ℕ) (hn : 8 + n < 2 ^ 32) :
    (paddedKeyframe n hn).header.kind = some .keyframe :=
  MsgType.fromId_id .keyframe

lemma simTime_paddedKeyframe (n : ℕ) (hn : 8 + n < 2 ^ 32) :
    (paddedKeyframe n hn).frame.simTime = .ok 0 := by
  have hget : getAt (paddedKeyframe n hn).body 0 "vwp body.sim_time_ns" = .ok (0 : SimTime) :=
    getAt_of_drop _ rfl
  unfold Frame.simTime
  rw [WireFrame.frame, Frame.header_build, Frame.body_build]
  simp only [bind, Except.bind, kind_paddedKeyframe]
  exact hget

/-- The message that is stored for it. -/
def paddedMessage (n : ℕ) (hn : 8 + n < 2 ^ 32) : Message :=
  ⟨.keyframe, 0, (paddedKeyframe n hn).canonical.frame.bytes⟩

lemma isKeyframe_paddedMessage (n : ℕ) (hn : 8 + n < 2 ^ 32) :
    (paddedMessage n hn).isKeyframe = true :=
  rfl

lemma logTime_paddedMessage_le (n : ℕ) (hn : 8 + n < 2 ^ 32) (t : SimTime) :
    (paddedMessage n hn).logTime ≤ t :=
  UInt64.le_iff_toNat_le.2 (Nat.zero_le _)

lemma mcap_run_paddedKeyframe (n : ℕ) (hn : 8 + n < 2 ^ 32) (target : ℕ) (htarget : 0 < target) :
    (run acceptAll { chunkTargetBytes := target } [.writeFrame (paddedKeyframe n hn)]).mcap =
      ⟨[], [paddedMessage n hn]⟩ := by
  have hwrite (w : RecordingWriter) (hprofile : w.opts.profile.isNodeOnly = false) :
      w.writeFrame acceptAll (paddedKeyframe n hn) =
        w.store (paddedKeyframe n hn) .keyframe (some .keyframe) := by
    unfold writeFrame
    rw [kind_paddedKeyframe]
    dsimp only
    rw [if_neg (by decide), if_neg (by decide), hprofile, if_neg (fun h => absurd h.1 nofun)]
    rfl
  have hstore (w : RecordingWriter) :
      (w.store (paddedKeyframe n hn) .keyframe (some .keyframe)).2.mcap =
        ((w.endChunkIfOverTarget true).openGop true).mcap.writeToKnownChannel
          (paddedMessage n hn) := by
    unfold store
    rw [simTime_paddedKeyframe]
    rfl
  have hopen (w : RecordingWriter) (hbytes : w.bytesSinceFlush = 0)
      (hopts : w.opts.chunkTargetBytes = target) : w.endChunkIfOverTarget true = w := by
    unfold endChunkIfOverTarget
    dsimp only
    rw [hbytes, hopts, if_neg (fun h => absurd h.2.1 (Nat.lt_irrefl 0)), if_pos htarget]
  rw [run, List.foldl_cons, List.foldl_nil, call, hwrite _ rfl, hstore, hopen _ rfl rfl]
  rfl

lemma finish_run_paddedKeyframe (n : ℕ) (hn : 8 + n < 2 ^ 32) (target : ℕ)
    (htarget : 0 < target) :
    (run acceptAll { chunkTargetBytes := target } [.writeFrame (paddedKeyframe n hn)]).finish.2 =
      [[paddedMessage n hn]] := by
  unfold finish
  dsimp only
  rw [mcap_run_paddedKeyframe n hn target htarget]
  rfl

lemma stored_run_paddedKeyframe (n : ℕ) (hn : 8 + n < 2 ^ 32) (target : ℕ)
    (htarget : 0 < target) :
    (run acceptAll { chunkTargetBytes := target } [.writeFrame (paddedKeyframe n hn)]).mcap.stored =
      [paddedMessage n hn] := by
  rw [mcap_run_paddedKeyframe n hn target htarget]
  rfl

lemma uncompressedSize_paddedMessage (n : ℕ) (hn : 8 + n < 2 ^ 32) :
    (chunkOf framing [paddedMessage n hn]).uncompressedSize = 31 + (headerBytes + (8 + n)) := by
  have hbody : (paddedKeyframe n hn).canonical.body.length = 8 + n := by
    show (put (0 : SimTime) ++ List.replicate n 0).length = 8 + n
    rw [List.length_append, List.length_replicate]
    rfl
  have hsize : (paddedMessage n hn).size = headerBytes + (8 + n) := by
    rw [← hbody]
    exact size_frame _
  show ([paddedMessage n hn].map fun m => 31 + m.size).sum = _
  rw [List.map_singleton, List.sum_singleton, hsize]

end RecordingWriter

end V2xw.Record
