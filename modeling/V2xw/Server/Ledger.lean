import V2xw.Lib.NumLog
import V2xw.Server.Encode

/-!
# What a session retains

The ring of a session holds the last frames it made, and the marks of its symbol table say where the
table grew. Every operation keeps both in step with the frames made, except that a frame that
follows the answer to a seek is not retained.

The frames that are made but not yet retained are named, so that the steps between making a frame
and retaining it can be followed one by one.

## Main definitions

* `Ledger` — the part of a session a resume rests on.
* `Opening` — the last `Hello` that was no resume.
* `Ledger.Kept` — the ring and the marks agree with the frames made.

## Main results

* `Ledger.Kept.make`, `Ledger.Kept.retain` — a frame is made, and retained.
* `Ledger.Kept.replay`, `Ledger.Kept.table` — what a ledger says of a frame
  that can be resumed.
-/

namespace V2xw.Server

open Record (MsgType)

/-! ## Ledgers -/

/-- The part of a session a resume rests on. -/
structure Ledger where
  seq : ℕ
  ring : ResumeRing
  strings : List String
  marks : List (ℕ × ℕ)
  produced : List Frame

/-- The ledger of a session. -/
def Session.ledger (s : Session) : Ledger :=
  ⟨s.seq, s.ring, s.strings.strings, s.stringMarks, s.produced⟩

/-- The last `Hello` that was no resume: the number of the frame after it, and its table. -/
structure Opening where
  seq : ℕ
  table : List String
  deriving DecidableEq, Repr

/-- The frames since the opening. -/
def Opening.since (o : Opening) (frames : List Frame) : List Frame :=
  frames.filter fun f => decide (o.seq ≤ f.seq)

/-- The frames from a number on, among those a session made. -/
def framesFrom (n : ℕ) (frames : List Frame) : List Frame :=
  frames.filter fun f => decide (n ≤ f.seq)

/-- The table a client holds that applied the `Hello` and every frame since with a smaller
number. -/
def Opening.tableAt (o : Opening) (n : ℕ) (frames : List Frame) : List String :=
  o.table ++ ((o.since frames).filter fun f => decide (f.seq < n)).flatMap Frame.extension

namespace Ledger

/-- The ring and the marks agree with the frames made; the frames `made` are not retained yet. -/
structure Kept (o : Opening) (made : List Frame) (l : Ledger) : Prop where
  minFrames : 0 < l.ring.minFrames
  increasing : NumLog.Increasing Frame.seq (l.produced ++ made)
  below : ∀ f ∈ l.produced ++ made, f.seq < l.seq
  canonical : ∀ f ∈ made, f.kind.any MsgType.isCanonical = true
  opening : o.seq ≤ l.seq
  strings : l.strings = o.table ++ (o.since (l.produced ++ made)).flatMap Frame.extension
  ring : l.ring.entries.map RingEntry.frame <:+ l.produced.map Frame.canonical
  seqs : ∀ e ∈ l.ring.entries, e.seq = e.frame.seq
  marks : ∀ n, (∀ e ∈ l.ring.entries.head?, e.seq ≤ n) →
    l.marks.find? (fun m => decide (n ≤ m.1)) =
      (NumLog.marks Frame.seq Frame.extension o.table.length
        (o.since (l.produced ++ made))).find? fun m => decide (n ≤ m.1)

namespace Kept

variable {o : Opening} {made : List Frame} {l : Ledger} {f : Frame}

/-! ## Making and retaining frames -/

lemma skip (h : l.Kept o []) : Kept o [] { l with seq := l.seq + 1 } :=
  { h with
    below := fun f hf => Nat.lt_succ_of_lt (h.below f hf)
    opening := Nat.le_succ_of_le h.opening }

lemma since_concat (h : l.Kept o []) (hseq : f.seq = l.seq) :
    o.since (l.produced ++ [f]) = o.since (l.produced ++ []) ++ [f] := by
  have hf : o.since [f] = [f] := by
    refine List.filter_eq_self.2 fun g hg => ?_
    rw [List.mem_singleton.1 hg, hseq, decide_eq_true_eq]
    exact h.opening
  rw [List.append_nil, Opening.since, List.filter_append]
  exact congrArg (o.since l.produced ++ ·) hf

/-- **A frame is made**: it takes the next number, and the table grows by its extension. -/
theorem make (h : l.Kept o []) (hseq : f.seq = l.seq)
    (hkind : f.kind.any MsgType.isCanonical = true) :
    Kept o [f]
      { l with
        seq := l.seq + 1
        strings := l.strings ++ f.extension
        marks := if f.extension = [] then l.marks else l.marks ++ [(l.seq, l.strings.length)] } := by
  have hsince := h.since_concat hseq
  have hbelow : ∀ g ∈ l.produced, g.seq < l.seq := fun g hg =>
    h.below g (List.mem_append_left _ hg)
  refine
    { minFrames := h.minFrames
      increasing := ?_
      below := fun g hg => ?_
      canonical := fun g hg => List.mem_singleton.1 hg ▸ hkind
      opening := Nat.le_succ_of_le h.opening
      strings := ?_
      ring := h.ring
      seqs := h.seqs
      marks := fun n hn => ?_ }
  · refine NumLog.Increasing.concat (List.append_nil l.produced ▸ h.increasing) fun g hg => ?_
    rw [hseq]
    exact hbelow g hg
  · rcases List.mem_append.1 hg with hg | hg
    · exact Nat.lt_succ_of_lt (hbelow g hg)
    · rw [List.mem_singleton.1 hg, hseq]
      exact Nat.lt_succ_self _
  · show l.strings ++ f.extension = _
    rw [hsince, List.flatMap_append, ← List.append_assoc, ← h.strings]
    simp only [List.flatMap_cons, List.flatMap_nil, List.append_nil]
  · have hold := h.marks n hn
    have hlen : l.strings.length = o.table.length +
        ((o.since (l.produced ++ [])).flatMap Frame.extension).length := by
      rw [h.strings, List.length_append]
    show (if f.extension = [] then l.marks else _).find? _ = _
    rw [hsince, NumLog.marks_append, ← hlen]
    by_cases hext : f.extension = []
    · rw [if_pos hext, hold]
      simp only [NumLog.marks, if_pos hext, List.append_nil]
    · rw [if_neg hext, List.find?_append, hold, List.find?_append, NumLog.marks, if_neg hext,
        NumLog.marks, hseq]

/-- **A frame is retained**: it joins the end of the ring. -/
theorem retain (h : l.Kept o (f :: made)) (keyframe : Bool) :
    Kept o made
      { l with
        ring := l.ring.push ⟨f.seq, keyframe, f.canonical⟩
        produced := l.produced ++ [f] } := by
  have hall : l.produced ++ [f] ++ made = l.produced ++ f :: made := by
    rw [List.append_assoc, List.singleton_append]
  obtain ⟨hsuffix, hne⟩ := l.ring.push_entries ⟨f.seq, keyframe, f.canonical⟩ h.minFrames
  have hseqs : ∀ e ∈ l.ring.entries ++ [⟨f.seq, keyframe, f.canonical⟩], e.seq = e.frame.seq := by
    intro e he
    rcases List.mem_append.1 he with he | he
    · exact h.seqs e he
    · rw [List.mem_singleton.1 he]
      rfl
  -- The numbers of the ring and of the new frame increase.
  have hold : NumLog.Increasing RingEntry.seq
      (l.ring.entries ++ [⟨f.seq, keyframe, f.canonical⟩]) := by
    have hring : (l.ring.entries ++ [(⟨f.seq, keyframe, f.canonical⟩ : RingEntry)]).map
        RingEntry.frame <:+ (l.produced ++ [f]).map Frame.canonical := by
      rw [List.map_append, List.map_append]
      obtain ⟨lost, hlost⟩ := h.ring
      exact ⟨lost, by rw [← hlost, List.append_assoc]; rfl⟩
    have hinc : NumLog.Increasing Frame.seq ((l.produced ++ [f]).map Frame.canonical) := by
      refine List.pairwise_map.2 ((hall ▸ h.increasing).sublist ?_)
      exact List.sublist_append_left _ _
    have hmap := List.pairwise_map.1 (hinc.sublist hring.sublist)
    refine hmap.imp_of_mem fun {a b} ha hb hab => ?_
    rw [hseqs a ha, hseqs b hb]
    exact hab
  refine
    { minFrames := h.minFrames
      increasing := hall ▸ h.increasing
      below := hall ▸ h.below
      canonical := fun g hg => h.canonical g (List.mem_cons_of_mem _ hg)
      opening := h.opening
      strings := hall ▸ h.strings
      ring := ?_
      seqs := fun e he => hseqs e (hsuffix.subset he)
      marks := fun n hn => ?_ }
  · obtain ⟨lost, hlost⟩ := h.ring
    refine (hsuffix.map RingEntry.frame).trans ⟨lost, ?_⟩
    rw [List.map_append, List.map_append, ← hlost, List.append_assoc]
    rfl
  · show l.marks.find? _ = (NumLog.marks _ _ _ (o.since (l.produced ++ [f] ++ made))).find? _
    rw [hall]
    refine h.marks n fun e he => ?_
    -- The oldest retained frame only moves forward.
    obtain ⟨first, hfirst⟩ := Option.ne_none_iff_exists'.1
      (mt List.head?_eq_none_iff.1 hne)
    have hn := hn first hfirst
    obtain ⟨lost, hlost⟩ := hsuffix
    cases lost with
    | nil =>
      rw [List.nil_append] at hlost
      rw [hlost, List.head?_append, Option.mem_def.1 he] at hfirst
      cases hfirst
      exact hn
    | cons a lost =>
      have hhead : (l.ring.entries ++ [(⟨f.seq, keyframe, f.canonical⟩ : RingEntry)]).head? =
          some a := by
        rw [← hlost]
        rfl
      rw [List.head?_append, Option.mem_def.1 he] at hhead
      cases hhead
      have hlt : e.seq < first.seq := by
        rw [← hlost] at hold
        exact (List.pairwise_cons.1 hold).1 first
          (List.mem_append_right _ (List.mem_of_mem_head? hfirst))
      omega

lemma prune (h : l.Kept o made) {first : ℕ} (hfirst : l.ring.firstSeq = some first) :
    Kept o made { l with marks := l.marks.dropWhile fun m => decide (m.1 < first) } :=
  { h with
    marks := fun n hn => by
      obtain ⟨e, he, rfl⟩ := Option.map_eq_some_iff.1 hfirst
      show (l.marks.dropWhile _).find? _ = _
      rw [NumLog.find_dropWhile (hn e he)]
      exact h.marks n hn }

/-- **A new opening** starts the table over. -/
lemma reopen (h : l.Kept o []) (table : List String) :
    Kept ⟨l.seq, table⟩ [] { l with strings := table, marks := [] } := by
  have hsince : Opening.since ⟨l.seq, table⟩ (l.produced ++ []) = [] := by
    refine List.filter_eq_nil_iff.2 fun f hf => ?_
    have hlt : f.seq < l.seq := h.below f hf
    rw [decide_eq_true_eq]
    exact Nat.not_le.2 hlt
  exact
    { h with
      opening := le_refl _
      strings := by
        show table = table ++ _
        rw [hsince, List.flatMap_nil, List.append_nil]
      marks := fun n _ => by
        show _ = (NumLog.marks _ _ _ (Opening.since ⟨l.seq, table⟩ (l.produced ++ []))).find? _
        rw [hsince]
        rfl }

/-! ## Resuming -/

/-- **What the ring replays** are the frames made from a number on. -/
theorem replay (h : l.Kept o []) {n : ℕ} (hn : n = l.seq ∨ l.ring.canResume n = true) :
    (l.ring.replayFrom n).map RingEntry.frame = (framesFrom n l.produced).map Frame.canonical := by
  have hinc : NumLog.Increasing Frame.seq (l.produced.map Frame.canonical) :=
    List.pairwise_map.2 (List.append_nil l.produced ▸ h.increasing)
  have hframes : (l.ring.replayFrom n).map RingEntry.frame =
      (l.ring.entries.map RingEntry.frame).filter fun f => decide (n ≤ f.seq) := by
    rw [ResumeRing.replayFrom, List.filter_map]
    congr 1
    exact List.filter_congr fun e he => by rw [h.seqs e he]; rfl
  have hmade : (framesFrom n l.produced).map Frame.canonical =
      (l.produced.map Frame.canonical).filter fun f => decide (n ≤ f.seq) := by
    rw [framesFrom, List.filter_map]
    rfl
  rw [hframes, hmade]
  rcases hn with rfl | hn
  · -- Nothing was made with the next number yet.
    have hnone : ∀ f ∈ l.produced.map Frame.canonical, ¬ decide (l.seq ≤ f.seq) = true := by
      intro f hf
      obtain ⟨g, hg, rfl⟩ := List.mem_map.1 hf
      have := h.below g (List.mem_append_left _ hg)
      rw [decide_eq_true_eq, Frame.canonical_seq]
      omega
    rw [List.filter_eq_nil_iff.2 hnone,
      List.filter_eq_nil_iff.2 fun f hf => hnone f (h.ring.subset hf)]
  · obtain ⟨e, he, rfl⟩ := ResumeRing.exists_of_canResume hn
    refine NumLog.filter_of_suffix hinc h.ring ⟨e.frame, List.mem_map_of_mem he, ?_⟩
    rw [h.seqs e he]

/-- **The table a resumed `Hello` carries** is the one of the client. -/
theorem table (h : l.Kept o []) {n : ℕ} (hn : n = l.seq ∨ l.ring.canResume n = true) :
    l.strings.take (NumLog.lengthAt l.marks l.strings.length n) = o.tableAt n l.produced := by
  have hinc : NumLog.Increasing Frame.seq (o.since (l.produced ++ [])) := h.increasing.filter _
  -- The oldest retained frame is not after the one to resume at.
  have hfirst : ∀ e ∈ l.ring.entries.head?, e.seq ≤ n := by
    intro e he
    have hmem := List.mem_of_mem_head? he
    rcases hn with rfl | hn
    · have hf := h.ring.subset (List.mem_map_of_mem hmem)
      obtain ⟨f, hf, hef⟩ := List.mem_map.1 hf
      have := h.below f (List.mem_append_left _ hf)
      rw [h.seqs e hmem, ← hef, Frame.canonical_seq]
      omega
    · obtain ⟨e', he', rfl⟩ := ResumeRing.exists_of_canResume hn
      obtain ⟨rest, hrest⟩ := List.head?_eq_some_iff.1 he
      have hpair : NumLog.Increasing Frame.seq (l.ring.entries.map RingEntry.frame) :=
        List.Pairwise.sublist h.ring.sublist
          (List.pairwise_map.2 (List.append_nil l.produced ▸ h.increasing))
      rw [hrest] at he' hpair
      rcases List.mem_cons.1 he' with rfl | he'
      · exact le_refl _
      · have hlt := (List.pairwise_cons.1 (List.pairwise_map.1 hpair)).1 e' he'
        rw [h.seqs e hmem, h.seqs e' (hrest ▸ List.mem_cons_of_mem _ he')]
        exact hlt.le
  have hlen := @NumLog.lengthAt_marks _ _ _ Frame.extension _ hinc n o.table.length
  have hmarks : NumLog.lengthAt l.marks l.strings.length n =
      NumLog.lengthAt (NumLog.marks Frame.seq Frame.extension o.table.length
        (o.since (l.produced ++ []))) l.strings.length n := by
    rw [NumLog.lengthAt, NumLog.lengthAt, h.marks n hfirst]
  have hwhole : l.strings.length =
      o.table.length + ((o.since (l.produced ++ [])).flatMap Frame.extension).length := by
    rw [h.strings, List.length_append]
  rw [hmarks, hwhole, hlen, h.strings, NumLog.take_append hinc, List.append_nil, Opening.tableAt]

end Kept

end Ledger

end V2xw.Server
