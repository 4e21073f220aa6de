import V2xw.Lib.Chunker
import V2xw.Record.Writer

/-!
# The chunks of a recording

The writer of a recording is a `Chunker` whose items are the stored messages and whose keys are the
keyframes: each call puts some messages into the log, or has the container close the open chunk.
The bounds on chunks and the rule that a GOP is left whole are those of the log.

## Main definitions

* `Record.RecordingWriter.chunker` — the log of a writer.

## Main results

* `Record.RecordingWriter.call_puts` — a call puts messages into the log.
* `Record.RecordingWriter.chunks_bounded` — the sizes, boundaries and number of the chunks.
-/

namespace V2xw.Record

open Layout

/-- The message is a keyframe. -/
def Message.isKeyframe (m : Message) : Bool := m.topic == .keyframe

namespace RecordingWriter

/-- The log of a writer. -/
def chunker (w : RecordingWriter) : Chunker Message where
  closed := w.mcap.closed
  opened := w.mcap.opened
  sinceCut := w.bytesSinceFlush
  sinceKey := w.bytesSinceKeyframe
  keys := w.keyframesSinceFlush
  count := w.summary.chunkCount
  largest := w.summary.largestChunkBytes

/-- The log after a message was put into it. -/
def putMessage (target : ℕ) (c : Chunker Message) (m : Message) : Chunker Message :=
  c.put Message.size Message.isKeyframe target m

/-! ## Calls -/

lemma chunker_flush (w : RecordingWriter) :
    w.mcap.flush = ⟨w.chunker.cut.closed, w.chunker.cut.opened⟩ := by
  unfold Mcap.flush Chunker.cut chunker
  by_cases h : w.mcap.opened = []
  · simp only [h, List.isEmpty_nil, if_true]
    exact congrArg (Mcap.mk _) h
  · simp only [List.isEmpty_eq_false_iff.2 h, Bool.false_eq_true, if_false]

lemma chunker_endChunk (w : RecordingWriter) : w.endChunk.chunker = w.chunker.endChunk := by
  simp only [endChunk, chunker_flush]
  rfl

lemma chunker_chunkClosedByContainer (w : RecordingWriter) :
    w.chunkClosedByContainer.chunker = w.chunker.close := by
  simp only [chunkClosedByContainer, chunker_flush]
  by_cases h : 0 < w.bytesSinceFlush
  · simp only [chunker, Chunker.close, h, if_true]
    rfl
  · simp only [chunker, Chunker.close, h, if_false]
    rfl

/-- The writer ends a chunk by the rule of the log. -/
lemma chunker_endChunkIfOverTarget (w : RecordingWriter) (isKeyframe : Bool) :
    (w.endChunkIfOverTarget isKeyframe).chunker =
      if w.chunker.Ends w.opts.chunkTargetBytes isKeyframe then w.chunker.endChunk
      else w.chunker := by
  by_cases hgop : isKeyframe = true ∧ 0 < w.bytesSinceFlush ∧
      w.opts.chunkTargetBytes ≤ w.bytesSinceKeyframe
  · rw [endChunkIfOverTarget, if_pos hgop, chunker_endChunk, if_pos (.inl hgop)]
  by_cases hlt : w.bytesSinceFlush < w.opts.chunkTargetBytes
  · have hends : ¬ w.chunker.Ends w.opts.chunkTargetBytes isKeyframe := by
      rintro (h | ⟨hle, _⟩)
      · exact hgop h
      · exact Nat.not_le.2 hlt hle
    rw [endChunkIfOverTarget, if_neg hgop, if_pos hlt, if_neg hends]
  by_cases hsplit : isKeyframe = true ∨
      ¬ (0 < w.keyframesSinceFlush ∧ w.bytesSinceKeyframe < w.opts.chunkTargetBytes)
  · have hends : w.chunker.Ends w.opts.chunkTargetBytes isKeyframe :=
      .inr ⟨Nat.not_lt.1 hlt, hsplit⟩
    rw [endChunkIfOverTarget, if_neg hgop, if_neg hlt, if_pos hsplit, chunker_endChunk,
      if_pos hends]
  · have hends : ¬ w.chunker.Ends w.opts.chunkTargetBytes isKeyframe := by
      rintro (h | ⟨_, h⟩)
      · exact hgop h
      · exact hsplit h
    rw [endChunkIfOverTarget, if_neg hgop, if_neg hlt, if_neg hsplit, if_neg hends]

lemma opts_endChunkIfOverTarget (w : RecordingWriter) (isKeyframe : Bool) :
    (w.endChunkIfOverTarget isKeyframe).opts = w.opts := by
  unfold endChunkIfOverTarget
  dsimp only
  split_ifs <;> rfl

lemma chunker_openGop (w : RecordingWriter) (isKeyframe : Bool) :
    (w.openGop isKeyframe).chunker = w.chunker.startRun isKeyframe := by
  cases isKeyframe <;> rfl

lemma opts_openGop (w : RecordingWriter) (isKeyframe : Bool) :
    (w.openGop isKeyframe).opts = w.opts := by
  cases isKeyframe <;> rfl

/-- The message is a frame with its transport flags cleared. A keyframe and a delta are stored at
their own time. -/
def IsFrame (m : Message) : Prop :=
  ∃ g : WireFrame, m.data = g.canonical.frame.bytes ∧
    (m.topic = .keyframe ∨ m.topic = .delta → g.frame.simTime = .ok m.logTime)

/-- The message is the encoding of a record. -/
def IsRecord (r : OwnedRecord) (m : Message) : Prop := m.topic = .record r.channel ∧ m.data = r.json

/-- A call puts its messages into the log one by one. -/
def Puts (P : Message → Prop) (w w' : RecordingWriter) (ms : List Message) : Prop :=
  w'.opts = w.opts ∧ w'.chunker = ms.foldl (putMessage w.opts.chunkTargetBytes) w.chunker ∧
    ∀ m ∈ ms, P m

variable {P : Message → Prop}

lemma Puts.refl (w : RecordingWriter) : Puts P w w [] :=
  ⟨rfl, rfl, fun _ h => absurd h List.not_mem_nil⟩

lemma Puts.append {w w' w'' : RecordingWriter} {ms ms' : List Message} (h : Puts P w w' ms)
    (h' : Puts P w' w'' ms') : Puts P w w'' (ms ++ ms') := by
  obtain ⟨hopts, hchunker, hmem⟩ := h
  obtain ⟨hopts', hchunker', hmem'⟩ := h'
  refine ⟨hopts'.trans hopts, ?_, fun m hm => (List.mem_append.1 hm).elim (hmem m) (hmem' m)⟩
  rw [hchunker', hopts, hchunker, List.foldl_append]

lemma puts_append (w : RecordingWriter) {m : Message} (hm : P m) :
    Puts P w (((w.endChunkIfOverTarget m.isKeyframe).openGop m.isKeyframe).append m) [m] := by
  refine ⟨?_, ?_, fun m' hm' => List.mem_singleton.1 hm' ▸ hm⟩
  · show ((w.endChunkIfOverTarget m.isKeyframe).openGop m.isKeyframe).opts = w.opts
    rw [opts_openGop, opts_endChunkIfOverTarget]
  · show (((w.endChunkIfOverTarget m.isKeyframe).openGop m.isKeyframe).chunker).append
      Message.size m = putMessage w.opts.chunkTargetBytes w.chunker m
    rw [chunker_openGop, chunker_endChunkIfOverTarget]
    rfl

/-- Storing a frame puts a message into the log, or nothing. -/
lemma store_puts (w : RecordingWriter) (f : WireFrame) {topic : Topic} {kind : Option MsgType}
    (hkey : (topic == .keyframe) = (kind == some .keyframe))
    (hnone : kind = none → topic ≠ .keyframe ∧ topic ≠ .delta) :
    ∃ ms, Puts IsFrame w (w.store f topic kind).2 ms := by
  unfold store
  dsimp only
  split
  · exact ⟨[], .refl w⟩
  · rename_i logTime htime
    let m : Message := ⟨topic, logTime, f.canonical.frame.bytes⟩
    have hm : IsFrame m := by
      refine ⟨f, rfl, fun htopic => ?_⟩
      have hkind : kind.isNone = false := by
        cases kind with
        | none => exact (htopic.elim (hnone rfl).1 (hnone rfl).2).elim
        | some => rfl
      rw [hkind] at htime
      split at htime
      · rename_i t ht
        rw [ht]
        exact htime
      · cases htime
    obtain ⟨hopts, hchunker, hmem⟩ := w.puts_append hm
    have hiskey : m.isKeyframe = (kind == some .keyframe) := hkey
    rw [hiskey] at hopts hchunker
    exact ⟨[m], hopts, hchunker, hmem⟩

lemma storePart_puts (w : RecordingWriter) (f : WireFrame) (b : EventBody) (id : UInt16) :
    ∃ ms, Puts IsFrame w (w.storePart f b id).2 ms := by
  unfold storePart
  split
  · exact ⟨[], .refl w⟩
  split
  · exact ⟨[], .refl w⟩
  · exact w.store_puts _ rfl nofun

lemma storeSplit_puts (w : RecordingWriter) (f : WireFrame) (b : EventBody) (ids : List UInt16) :
    ∃ ms, Puts IsFrame w (w.storeSplit f b ids).2 ms := by
  unfold storeSplit
  generalize hr : ((.ok (), w) : Except RecordingError Unit × RecordingWriter) = r
  have hw : ∃ ms, Puts IsFrame w r.2 ms := ⟨[], hr ▸ .refl w⟩
  clear hr
  induction ids generalizing r with
  | nil => exact hw
  | cons id ids ih =>
    refine ih _ ?_
    dsimp only
    split
    · exact hw
    · obtain ⟨ms, hputs⟩ := hw
      obtain ⟨ms', hrest⟩ := r.2.storePart_puts f b id
      exact ⟨ms ++ ms', hputs.append hrest⟩

lemma frameTopic_eq {kind : MsgType} {topic : Topic} (h : frameTopic kind = some topic) :
    (topic == .keyframe) = (some kind == some MsgType.keyframe) := by
  cases kind <;> cases h <;> rfl

/-- Writing a frame puts messages into the log. -/
lemma writeFrame_puts (gates : Gates) (w : RecordingWriter) (f : WireFrame) :
    ∃ ms, Puts IsFrame w (w.writeFrame gates f).2 ms := by
  unfold writeFrame
  dsimp only
  split
  · exact w.store_puts f rfl fun _ => ⟨nofun, nofun⟩
  split_ifs
  · exact ⟨[], .refl w⟩
  · exact ⟨[], .refl w⟩
  · exact ⟨[], .refl w⟩
  split
  · exact ⟨[], .refl w⟩
  split
  · rename_i htopic
    exact w.store_puts f (frameTopic_eq htopic) nofun
  split
  · exact ⟨[], .refl w⟩
  split
  · exact ⟨[], .refl w⟩
  · exact w.store_puts f rfl nofun
  · exact w.storeSplit_puts f _ _

lemma writeRecord_puts (gates : Gates) (w : RecordingWriter) (time : SimTime) (r : OwnedRecord) :
    ∃ ms, Puts (IsRecord r) w (w.writeRecord gates time r).2 ms := by
  unfold writeRecord
  split
  · exact ⟨[], .refl w⟩
  split_ifs
  · exact ⟨[], .refl w⟩
  · exact ⟨[], .refl w⟩
  split
  · exact ⟨[], .refl w⟩
  · exact ⟨_, w.puts_append (m := ⟨.record r.channel, time, r.json⟩) ⟨rfl, rfl⟩⟩

/-- The message is one that the call may store. -/
def Call.Stores : Call → Message → Prop
  | .writeFrame _ => IsFrame
  | .writeRecord _ r => IsRecord r
  | .writeManifest | .attach => fun _ => False

/-- **A call puts messages into the log**, or has the container close the open chunk. -/
theorem call_puts (gates : Gates) (w : RecordingWriter) (c : Call) :
    (c.closes = false ∧ ∃ ms, Puts c.Stores w (w.call gates c) ms) ∨
      (c.closes = true ∧ w.call gates c = w.chunkClosedByContainer) := by
  cases c with
  | writeFrame f => exact .inl ⟨rfl, w.writeFrame_puts gates f⟩
  | writeRecord time r => exact .inl ⟨rfl, w.writeRecord_puts gates time r⟩
  | writeManifest => exact .inr ⟨rfl, rfl⟩
  | attach => exact .inr ⟨rfl, rfl⟩

lemma size_frame (f : WireFrame) : f.frame.bytes.length = headerBytes + f.body.length :=
  Frame.length_build _ _

lemma size_pos_of_stores {c : Call} {m : Message} (hc : c.NonEmpty) (h : c.Stores m) :
    0 < m.size := by
  cases c with
  | writeFrame f =>
    obtain ⟨g, hdata, _⟩ := h
    rw [Message.size, hdata, size_frame]
    exact Nat.add_pos_left (show 0 < headerBytes from Nat.succ_pos 23) _
  | writeRecord time r =>
    rw [Message.size, h.2]
    exact List.length_pos_of_ne_nil hc
  | writeManifest => exact h.elim
  | attach => exact h.elim

/-! ## Runs -/

variable (gates : Gates) (opts : RecordingOptions)

lemma run_concat (calls : List Call) (c : Call) :
    run gates opts (calls ++ [c]) = (run gates opts calls).call gates c := by
  rw [run, List.foldl_append]
  rfl

/-- What holds of an empty log and is kept by putting messages and by closing chunks holds of the
log after any calls. -/
lemma run_induction {R : Call → Prop} {Q : List Call → Chunker Message → Prop} (hinit : Q [] {})
    (hput : ∀ calls c call m, R call → call.Stores m → Q calls c →
      Q calls (putMessage opts.chunkTargetBytes c m))
    (hcall : ∀ calls c call, call.closes = false → Q calls c → Q (calls ++ [call]) c)
    (hclose : ∀ calls c call, call.closes = true → c = (run gates opts calls).chunker →
      Q calls c → Q (calls ++ [call]) c.close) :
    ∀ calls : List Call, (∀ call ∈ calls, R call) →
      (run gates opts calls).opts = opts ∧ Q calls (run gates opts calls).chunker := by
  intro calls
  induction calls using List.reverseRecOn with
  | nil => exact fun _ => ⟨rfl, hinit⟩
  | append_singleton calls call ih =>
    intro hcalls
    obtain ⟨hopts, hQ⟩ := ih fun c hc => hcalls c (List.mem_append_left _ hc)
    have hR : R call := hcalls call (List.mem_append_right _ List.mem_cons_self)
    rw [run_concat]
    obtain ⟨hcloses, ms, hopts', hchunker, hmem⟩ | ⟨hcloses, heq⟩ :=
      (run gates opts calls).call_puts gates call
    · refine ⟨hopts'.trans hopts, hcall calls _ call hcloses ?_⟩
      rw [hchunker, hopts]
      clear hchunker
      generalize (run gates opts calls).chunker = c at hQ
      induction ms generalizing c with
      | nil => exact hQ
      | cons m ms ih =>
        rw [List.foldl_cons]
        exact ih (fun m' hm' => hmem m' (List.mem_cons_of_mem _ hm')) _
          (hput calls c call m hR (hmem m List.mem_cons_self) hQ)
    · rw [heq, chunker_chunkClosedByContainer]
      exact ⟨hopts, hclose calls _ call hcloses rfl hQ⟩

/-- What holds of every message that a call may store holds of every stored message. -/
lemma forall_stored {R : Call → Prop} {P : Message → Prop}
    (hP : ∀ call m, R call → call.Stores m → P m) {calls : List Call}
    (hcalls : ∀ call ∈ calls, R call) : ∀ m ∈ (run gates opts calls).chunker.stored, P m := by
  refine (run_induction gates opts (Q := fun _ c => ∀ m ∈ c.stored, P m) ?_ ?_ ?_ ?_ calls hcalls).2
  · exact fun _ h => absurd h List.not_mem_nil
  · intro _ c call m hR hm hc m' hm'
    rw [putMessage, Chunker.stored_put] at hm'
    obtain hm' | hm' := List.mem_append.1 hm'
    · exact hc m' hm'
    · rw [List.mem_singleton.1 hm']
      exact hP call m hR hm
  · exact fun _ _ _ _ h => h
  · intro _ c _ _ _ h
    rw [Chunker.stored_close]
    exact h

/-- The counters are right, and every message has a size. -/
def Sound (c : Chunker Message) : Prop := c.Counted Message.size ∧ ∀ m ∈ c.stored, 0 < m.size

lemma sound_empty : Sound {} :=
  ⟨⟨rfl, rfl, fun _ h => absurd h List.not_mem_nil⟩, fun _ h => absurd h List.not_mem_nil⟩

lemma Sound.put (htarget : 1 ≤ opts.chunkTargetBytes) {c : Chunker Message} {m : Message}
    (h : Sound c) (hm : 0 < m.size) : Sound (putMessage opts.chunkTargetBytes c m) := by
  refine ⟨h.1.put htarget, fun m' hm' => ?_⟩
  rw [putMessage, Chunker.stored_put] at hm'
  obtain hm' | hm' := List.mem_append.1 hm'
  · exact h.2 m' hm'
  · rw [List.mem_singleton.1 hm']
    exact hm

lemma Sound.close {c : Chunker Message} (h : Sound c) : Sound c.close := by
  refine ⟨h.1.close fun m hm => h.2 m (List.mem_append_right _ hm), ?_⟩
  rw [Chunker.stored_close]
  exact h.2

lemma bounded_run (htarget : 1 ≤ opts.chunkTargetBytes) {calls : List Call}
    (hcalls : ∀ c ∈ calls, c.NonEmpty) :
    Sound (run gates opts calls).chunker ∧
      (run gates opts calls).chunker.Bounded Message.size opts.chunkTargetBytes := by
  refine (run_induction gates opts
    (Q := fun _ c => Sound c ∧ c.Bounded Message.size opts.chunkTargetBytes)
    ?_ ?_ ?_ ?_ calls hcalls).2
  · exact ⟨sound_empty, Chunker.bounded_empty htarget⟩
  · intro _ c call m hR hm h
    exact ⟨h.1.put opts htarget (size_pos_of_stores hR hm), h.2.put htarget h.1.1⟩
  · exact fun _ _ _ _ h => h
  · exact fun _ c _ _ _ h => ⟨h.1.close, h.2.cut _⟩

/-- No manifest and no attachment is written after the first keyframe. -/
def ClosedBefore (calls : List Call) : Prop :=
  ∀ pre c post, calls = pre ++ c :: post → c.closes = true →
    ∀ m ∈ (run gates opts pre).mcap.stored, m.isKeyframe = false

lemma ClosedBefore.left {calls : List Call} {c : Call}
    (h : ClosedBefore gates opts (calls ++ [c])) : ClosedBefore gates opts calls := by
  rintro pre c' post rfl
  refine h pre c' (post ++ [c]) ?_
  simp only [List.append_assoc, List.cons_append]

/-- GOPs smaller than the target are not cut apart. -/
lemma kept_run (htarget : 1 ≤ opts.chunkTargetBytes) {calls : List Call}
    (hcalls : ∀ c ∈ calls, c.NonEmpty) (hclosed : ClosedBefore gates opts calls)
    (hruns : Chunker.SmallRuns Message.size Message.isKeyframe opts.chunkTargetBytes
      (run gates opts calls).chunker.stored) :
    (run gates opts calls).chunker.Kept Message.size Message.isKeyframe := by
  refine ((run_induction gates opts (Q := fun calls c => Sound c ∧
    (ClosedBefore gates opts calls →
      Chunker.SmallRuns Message.size Message.isKeyframe opts.chunkTargetBytes c.stored →
        c.Kept Message.size Message.isKeyframe)) ?_ ?_ ?_ ?_ calls hcalls).2).2 hclosed hruns
  · exact ⟨sound_empty, fun _ _ => Chunker.kept_of_none fun _ h => absurd h List.not_mem_nil⟩
  · rintro calls c call m hR hm ⟨hsound, hkept⟩
    refine ⟨hsound.put opts htarget (size_pos_of_stores hR hm), fun hclosed hruns => ?_⟩
    rw [putMessage, Chunker.stored_put] at hruns
    exact (hkept hclosed hruns.left).put htarget hsound.1 hruns
  · rintro calls c call _ ⟨hsound, hkept⟩
    exact ⟨hsound, fun hclosed => hkept hclosed.left⟩
  · rintro calls c call hcloses hc ⟨hsound, hkept⟩
    refine ⟨hsound.close, fun hclosed _ => ?_⟩
    refine Chunker.kept_of_none fun m hm => ?_
    rw [Chunker.stored_close, hc] at hm
    exact hclosed calls call [] rfl hcloses m hm

lemma chunks_eq (w : RecordingWriter) : w.mcap.chunks = w.chunker.cut.closed :=
  congrArg Mcap.closed w.chunker_flush

/-- **The chunks of a recording**, for every target and every sequence of calls. A chunk has less
than twice the target and one of its messages, and the summary has the size of the largest. If
every GOP, from a keyframe up to the next one or to the end, is smaller than the target and
nothing but messages is written behind the first keyframe, then every chunk behind it starts with
a keyframe. The summary of the finished recording counts its chunks, none of which is empty. -/
theorem chunks_bounded (htarget : 1 ≤ opts.chunkTargetBytes) (calls : List Call)
    (hcalls : ∀ c ∈ calls, c.NonEmpty) :
    let w := run gates opts calls
    (∀ chunk ∈ w.mcap.chunks,
        (∃ m ∈ chunk, sizeOf chunk < 2 * opts.chunkTargetBytes + m.size) ∧
          sizeOf chunk ≤ w.summary.largestChunkBytes) ∧
      (∀ largest, (∀ m ∈ w.mcap.stored, m.size ≤ largest) →
        w.summary.largestChunkBytes < 2 * opts.chunkTargetBytes + largest) ∧
      (ClosedBefore gates opts calls →
        Chunker.SmallRuns Message.size Message.isKeyframe opts.chunkTargetBytes w.mcap.stored →
        Chunker.HeadKey Message.isKeyframe w.mcap.chunks) ∧
      w.finish.1.chunkCount = w.finish.2.length ∧ ∀ chunk ∈ w.finish.2, chunk ≠ [] := by
  intro w
  obtain ⟨hsound, hbounded⟩ := bounded_run gates opts htarget hcalls
  have hclose : w.chunker.close.Counted Message.size := hsound.close.1
  have hchunks : w.mcap.chunks = w.chunker.close.closed := w.chunks_eq
  have hmem : ∀ chunk ∈ w.mcap.chunks, chunk ∈ w.chunker.closed ++ [w.chunker.opened] := by
    intro chunk hchunk
    have hcut : chunk ∈ w.chunker.cut.closed ++ [w.chunker.cut.opened] :=
      List.mem_append_left _ (w.chunks_eq ▸ hchunk)
    obtain h | h := Chunker.mem_cut hcut
    · exact h
    · exact absurd h (hclose.ne_nil chunk (hchunks ▸ hchunk))
  refine ⟨fun chunk hchunk => ⟨?_, ?_⟩, ?_, fun hclosed hruns => ?_, ?_, ?_⟩
  · exact hbounded.lt_of_mem chunk (hmem chunk hchunk) (hclose.ne_nil chunk (hchunks ▸ hchunk))
  · exact hbounded.le_largest chunk (hmem chunk hchunk)
  · exact fun largest h => hbounded.largest_lt largest h
  · have hkept := (kept_run gates opts htarget hcalls hclosed hruns).headKey
    rw [w.chunks_eq]
    show Chunker.HeadKey Message.isKeyframe
      (if w.chunker.opened.isEmpty then w.chunker.closed else w.chunker.closed ++ [w.chunker.opened])
    split_ifs
    · exact hkept.left
    · exact hkept
  · have hfinish : w.finish.1.chunkCount = w.chunker.close.count := by
      unfold finish Chunker.close chunker
      dsimp only
      split_ifs <;> rfl
    rw [hfinish, hclose.count_eq]
    exact congrArg List.length hchunks.symm
  · intro chunk hchunk
    exact hclose.ne_nil chunk (hchunks ▸ hchunk)

/-- Checks that accept every frame and every record. -/
def acceptAll : Gates where
  scanFrame _ := .ok ()
  scanRecord _ _ := .ok ()
  byName _ := some .node

/-- A frame of some type at an instant, with nothing but its time in it. -/
def timeFrame (kind : MsgType) (seq : UInt64) (time : SimTime) : WireFrame where
  header := ⟨versionMajor, kind.id, 8, 0, 0, seq⟩
  body := put time
  version_eq := rfl
  bodyLen_eq := (length_put time).symm

/-- A keyframe, a record and an attachment. -/
def threeCalls : List Call :=
  [.writeFrame (timeFrame .keyframe 0 1000), .writeRecord 1000 ⟨"node.tx", .node, [123, 125]⟩,
    .attach]

theorem chunks_bounded_threeCalls :
    let w := run acceptAll { chunkTargetBytes := 64 } threeCalls
    (∀ chunk ∈ w.mcap.chunks, (∃ m ∈ chunk, sizeOf chunk < 2 * 64 + m.size) ∧
        sizeOf chunk ≤ w.summary.largestChunkBytes) ∧
      w.finish.1.chunkCount = w.finish.2.length := by
  have hcalls : ∀ c ∈ threeCalls, c.NonEmpty := by
    simp [threeCalls, Call.NonEmpty]
  obtain ⟨hchunks, _, _, hcount, _⟩ :=
    chunks_bounded acceptAll { chunkTargetBytes := 64 } (by decide) threeCalls hcalls
  exact ⟨hchunks, hcount⟩

end RecordingWriter

end V2xw.Record
