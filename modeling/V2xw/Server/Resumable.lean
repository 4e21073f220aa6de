import V2xw.Lib.Suffix
import V2xw.Server.Ring

/-!
# What the resume ring retains

The ring of `crates/v2xw-server/src/ring.rs` holds the longest part of the frames pushed so far that
ends with the last one and fits its caps. So its bytes are always those of the frames it holds, and
it holds a keyframe as long as the frames from the last keyframe on fit. The floor below which the
ring does not shrink counts frames of every kind, while it is sized in snapshots: a group of
pictures with many or long frames between its snapshots does not fit.

## Main definitions

* `ResumeRing.pushAll` — pushes frames one after another.
* `ResumeRing.checkedPush` — a push that fails where a subtraction underflows.
* `FitsCaps` — the caps of a ring.
* `IsGop` — frames from a keyframe on, up to the next one.
* `Retains` — what is claimed of a ring and the frames pushed to it.

## Main results

* `ResumeRing.pushAll_eq` — the ring holds the longest suffix that fits.
* `ResumeRing.retains_iff` — every state of a ring is as claimed if and only if every
  group of pictures fits.
* `ResumeRing.keyframe_evicted` — a run in which the only keyframe is evicted.
-/

namespace V2xw.Server

/-! ## Caps -/

/-- The bytes of frames. -/
def bytesOf (l : List RingEntry) : ℕ := (l.map fun e => e.frame.size).sum

/-- What a ring with a floor may hold: no more frames than the cap, and no more bytes than theirs,
unless there are no more frames than the floor. -/
def FitsCaps (minFrames : ℕ) (l : List RingEntry) : Prop :=
  l.length ≤ maxRingFrames ∧ (l.length ≤ minFrames ∨ bytesOf l ≤ maxRingBytes)

instance (minFrames : ℕ) : DecidablePred (FitsCaps minFrames) := fun l =>
  inferInstanceAs (Decidable (l.length ≤ maxRingFrames ∧
    (l.length ≤ minFrames ∨ bytesOf l ≤ maxRingBytes)))

lemma bytesOf_le {l l' : List RingEntry} (h : l' <:+: l) : bytesOf l' ≤ bytesOf l := by
  obtain ⟨before, after, rfl⟩ := h
  simp only [bytesOf, List.map_append, List.sum_append]
  omega

lemma hereditary_fitsCaps (minFrames : ℕ) : Suffix.Hereditary (FitsCaps minFrames) where
  nil := ⟨Nat.zero_le _, .inl (Nat.zero_le _)⟩
  part {l l'} hpart hfits := by
    have hlen := hpart.length_le
    have hbytes := bytesOf_le hpart
    refine ⟨hlen.trans hfits.1, ?_⟩
    rcases hfits.2 with h | h
    · exact .inl (hlen.trans h)
    · exact .inr (hbytes.trans h)

namespace ResumeRing

/-! ## Eviction -/

/-- Eviction, if no subtraction underflows. -/
def checkedEvict (exceeds : ℕ → ℕ → Bool) : List RingEntry → ℕ → Option (List RingEntry × ℕ)
  | [], bytes => some ([], bytes)
  | e :: rest, bytes =>
    if exceeds (rest.length + 1) bytes then
      if e.frame.size ≤ bytes then checkedEvict exceeds rest (bytes - e.frame.size) else none
    else some (e :: rest, bytes)

/-- A push, if no subtraction underflows. -/
def checkedPush (r : ResumeRing) (e : RingEntry) : Option ResumeRing := do
  let capped ← checkedEvict (overCaps r.minFrames) (r.entries ++ [e]) (r.bytes + e.frame.size)
  let short ← checkedEvict (fun len _ => decide (maxRingFrames < len)) capped.1 capped.2
  some { r with entries := short.1, bytes := short.2 }

/-- Pushes frames one after another. -/
def pushAll (r : ResumeRing) (es : List RingEntry) : ResumeRing := es.foldl push r

/-- **Eviction** with the bytes of the frames keeps what fits, with its bytes, and underflows
nowhere. -/
lemma evict_eq (exceeds : ℕ → ℕ → Bool) {F : List RingEntry → Prop} [DecidablePred F]
    (hover : ∀ e rest, exceeds (rest.length + 1) (bytesOf (e :: rest)) = !decide (F (e :: rest)))
    (l : List RingEntry) :
    evictWhile exceeds l (bytesOf l) = (Suffix.keep F l, bytesOf (Suffix.keep F l)) ∧
      checkedEvict exceeds l (bytesOf l) = some (Suffix.keep F l, bytesOf (Suffix.keep F l)) := by
  induction l with
  | nil => exact ⟨rfl, rfl⟩
  | cons e rest ih =>
    have hbytes : bytesOf (e :: rest) = e.frame.size + bytesOf rest := by
      simp [bytesOf]
    have hsub : bytesOf (e :: rest) - e.frame.size = bytesOf rest := by
      omega
    unfold evictWhile checkedEvict Suffix.keep
    rw [hover]
    by_cases hF : F (e :: rest)
    · simp [hF]
    · simp only [hF, decide_false, Bool.not_false, if_true, if_false, hsub]
      rw [if_pos (by omega)]
      exact ih

/-- **One push** keeps the longest suffix that fits, with its bytes, and underflows nowhere. -/
lemma push_eq {r : ResumeRing} (hbytes : r.bytes = bytesOf r.entries) (e : RingEntry) :
    r.push e = { r with
      entries := Suffix.keep (FitsCaps r.minFrames) (r.entries ++ [e])
      bytes := bytesOf (Suffix.keep (FitsCaps r.minFrames) (r.entries ++ [e])) } ∧
    r.checkedPush e = some (r.push e) := by
  let F : List RingEntry → Prop := fun l => l.length ≤ r.minFrames ∨
    bytesOf l ≤ maxRingBytes ∧ l.length ≤ maxRingFrames
  let G : List RingEntry → Prop := fun l => l.length ≤ maxRingFrames
  have hF : Suffix.Hereditary F := by
    refine ⟨.inl (Nat.zero_le _), fun {l l'} hpart hfits => ?_⟩
    have hlen := hpart.length_le
    have hle := bytesOf_le hpart
    rcases hfits with h | ⟨h, h'⟩
    · exact .inl (hlen.trans h)
    · exact .inr ⟨hle.trans h, hlen.trans h'⟩
  have hG : Suffix.Hereditary G := ⟨Nat.zero_le _, fun hpart h => hpart.length_le.trans h⟩
  have htotal : r.bytes + e.frame.size = bytesOf (r.entries ++ [e]) := by
    rw [hbytes]
    simp [bytesOf]
  obtain ⟨hfirst, hfirst'⟩ := evict_eq (F := F) (overCaps r.minFrames) (fun a rest => by
    simp only [overCaps, F, List.length_cons]
    grind) (r.entries ++ [e])
  obtain ⟨hsecond, hsecond'⟩ := evict_eq (F := G)
    (fun len _ => decide (maxRingFrames < len)) (fun a rest => by
      simp only [G, List.length_cons]
      grind) (Suffix.keep F (r.entries ++ [e]))
  have hboth : Suffix.keep G (Suffix.keep F (r.entries ++ [e])) =
      Suffix.keep (FitsCaps r.minFrames) (r.entries ++ [e]) := by
    rw [Suffix.keep_keep hF hG]
    refine Suffix.keep_congr (fun l => ?_) _
    simp only [F, G, FitsCaps]
    omega
  unfold push checkedPush
  simp only [htotal, hfirst, hfirst', Option.bind_eq_bind, Option.bind_some]
  simp only [hsecond, hsecond', hboth, Option.bind_some, and_self]

/-- **Pushes** keep the longest suffix of the frames pushed that fits, with its bytes. -/
theorem pushAll_eq (framesPerGop : ℕ) (es : List RingEntry) :
    (new framesPerGop).pushAll es = ⟨Suffix.keep (FitsCaps (new framesPerGop).minFrames) es,
      bytesOf (Suffix.keep (FitsCaps (new framesPerGop).minFrames) es),
      (new framesPerGop).minFrames⟩ := by
  have hhered := hereditary_fitsCaps (new framesPerGop).minFrames
  induction es using List.reverseRecOn with
  | nil => rfl
  | append_singleton es e ih =>
    have hlast : (new framesPerGop).pushAll (es ++ [e]) = ((new framesPerGop).pushAll es).push e :=
      List.foldl_append
    rw [hlast, ih, (push_eq (by rfl) e).1]
    dsimp only
    rw [Suffix.keep_append hhered]

/-! ## Resuming -/

end ResumeRing

/-- A keyframe and the frames after it, up to the next keyframe or earlier. -/
def IsGop (l : List RingEntry) : Prop :=
  ∃ k rest, l = k :: rest ∧ k.keyframe = true ∧ ∀ e ∈ rest, e.keyframe = false

/-- A ring can be resumed: it holds a keyframe, and from its oldest keyframe on every frame it holds
can be resumed. -/
def Resumable (r : ResumeRing) : Prop :=
  ∃ before k after, r.entries = before ++ k :: after ∧ (∀ e ∈ before, e.keyframe = false) ∧
    k.keyframe = true ∧ ∀ e ∈ r.entries, k.seq ≤ e.seq → r.canResume e.seq = true

/-- What is claimed of a ring and the frames pushed to it so far. -/
structure Retains (framesPerGop : ℕ) (pushed : List RingEntry) (r : ResumeRing) : Prop where
  /-- The bytes are those of the frames held. -/
  bytes : r.bytes = bytesOf r.entries
  /-- No subtraction of the pushes underflows. -/
  checked : pushed.foldlM ResumeRing.checkedPush (ResumeRing.new framesPerGop) = some r
  /-- The frames held are the last ones pushed. -/
  suffix : r.entries <:+ pushed
  cap : r.entries.length ≤ maxRingFrames
  /-- Once a keyframe was pushed, the ring can be resumed. -/
  resumable : (∃ e ∈ pushed, e.keyframe = true) → Resumable r

namespace ResumeRing

/-- The frames from the last keyframe on. -/
lemma exists_gop {es : List RingEntry} (h : ∃ e ∈ es, e.keyframe = true) :
    ∃ before gop, es = before ++ gop ∧ IsGop gop := by
  induction es using List.reverseRecOn with
  | nil => simp at h
  | append_singleton es e ih =>
    cases he : e.keyframe with
    | true => exact ⟨es, [e], rfl, e, [], rfl, he, by simp⟩
    | false =>
      obtain ⟨x, hx, hkey⟩ := h
      have hmem : x ∈ es := by
        rcases List.mem_append.1 hx with hx | hx
        · exact hx
        · rw [List.mem_singleton.1 hx, he] at hkey
          cases hkey
      obtain ⟨before, gop, rfl, k, rest, rfl, hk, hrest⟩ := ih ⟨x, hmem, hkey⟩
      refine ⟨before, k :: (rest ++ [e]), by simp, k, rest ++ [e], rfl, hk, fun y hy => ?_⟩
      rcases List.mem_append.1 hy with hy | hy
      · exact hrest y hy
      · rw [List.mem_singleton.1 hy]
        exact he

/-- The first keyframe of frames that have one. -/
lemma exists_first_keyframe {l : List RingEntry} (h : ∃ e ∈ l, e.keyframe = true) :
    ∃ before k after, l = before ++ k :: after ∧ (∀ e ∈ before, e.keyframe = false) ∧
      k.keyframe = true := by
  induction l with
  | nil => simp at h
  | cons a l ih =>
    cases ha : a.keyframe with
    | true => exact ⟨[], a, l, rfl, by simp, ha⟩
    | false =>
      obtain ⟨x, hx, hkey⟩ := h
      have hmem : x ∈ l := by
        rcases List.mem_cons.1 hx with rfl | hx
        · rw [ha] at hkey
          cases hkey
        · exact hx
      obtain ⟨before, k, after, rfl, hbefore, hk⟩ := ih ⟨x, hmem, hkey⟩
      refine ⟨a :: before, k, after, rfl, fun y hy => ?_, hk⟩
      rcases List.mem_cons.1 hy with rfl | hy
      · exact ha
      · exact hbefore y hy

/-- A ring whose frames have numbers that increase can be resumed if it holds a keyframe. -/
lemma resumable_iff {r : ResumeRing} (hnum : r.entries.Pairwise fun e e' => e.seq < e'.seq) :
    Resumable r ↔ ∃ e ∈ r.entries, e.keyframe = true := by
  constructor
  · rintro ⟨before, k, after, hentries, -, hk, -⟩
    exact ⟨k, by rw [hentries]; simp, hk⟩
  · intro h
    obtain ⟨before, k, after, hentries, hbefore, hk⟩ := exists_first_keyframe h
    refine ⟨before, k, after, hentries, hbefore, hk, fun e he hle => ?_⟩
    rw [hentries] at hnum he
    obtain ⟨-, -, hapart⟩ := List.pairwise_append.1 hnum
    -- No frame before the keyframe has this number.
    have hlt : ∀ x ∈ before, (x.seq == e.seq) = false := by
      intro x hx
      have hless := hapart x hx k List.mem_cons_self
      simp only [beq_eq_false_iff_ne, ne_eq]
      omega
    have hmem : e ∈ k :: after := by
      rcases List.mem_append.1 he with hx | hx
      · have hne := hlt e hx
        simp at hne
      · exact hx
    have hbefore' : before.findIdx? (fun x => x.seq == e.seq) = none :=
      List.findIdx?_eq_none_iff.2 hlt
    have hfound : (k :: after).findIdx? (fun x => x.seq == e.seq) =
        some ((k :: after).findIdx fun x => x.seq == e.seq) :=
      List.findIdx?_eq_some_of_exists ⟨e, hmem, by simp⟩
    unfold canResume
    rw [hentries, List.findIdx?_append, hbefore', hfound, Option.none_or, Option.map_some]
    refine List.any_eq_true.2 ⟨k, ?_, hk⟩
    have hshift : ∀ n, n + before.length + 1 - before.length = n + 1 := by omega
    rw [List.take_append, hshift]
    refine List.mem_append_right _ ?_
    simp

/-- A ring holds a keyframe exactly as long as the frames from the last one on fit. -/
lemma exists_keyframe_iff {m : ℕ} (before : List RingEntry) {gop : List RingEntry}
    (hgop : IsGop gop) :
    (∃ e ∈ Suffix.keep (FitsCaps m) (before ++ gop), e.keyframe = true) ↔ FitsCaps m gop := by
  have hhered := hereditary_fitsCaps m
  obtain ⟨k, rest, rfl, hk, hrest⟩ := hgop
  constructor
  · rintro ⟨e, he, hkey⟩
    have hkeep := Suffix.keep_suffix (F := FitsCaps m) (before ++ k :: rest)
    -- What is kept is a part of the frames after the last keyframe, or has all from it on.
    rcases List.suffix_or_suffix_of_suffix hkeep (List.suffix_append before (k :: rest)) with
      h | h
    · rcases List.suffix_cons_iff.1 h with heq | h
      · rw [← heq]
        exact Suffix.keep_fits hhered.nil _
      · have hno := hrest e (h.subset he)
        rw [hkey] at hno
        cases hno
    · exact hhered.part h.isInfix (Suffix.keep_fits hhered.nil _)
  · intro hfits
    have hall := Suffix.keep_longest (List.suffix_append before (k :: rest)) hfits
    exact ⟨k, hall.subset List.mem_cons_self, hk⟩

/-- What holds of every ring, whatever is pushed. -/
lemma checked_pushAll (framesPerGop : ℕ) (es : List RingEntry) :
    es.foldlM checkedPush (new framesPerGop) = some ((new framesPerGop).pushAll es) := by
  induction es using List.reverseRecOn with
  | nil => rfl
  | append_singleton es e ih =>
    have hlast : (new framesPerGop).pushAll (es ++ [e]) = ((new framesPerGop).pushAll es).push e :=
      List.foldl_append
    have hbytes : ((new framesPerGop).pushAll es).bytes =
        bytesOf ((new framesPerGop).pushAll es).entries := by
      rw [pushAll_eq]
    rw [List.foldlM_append, ih, hlast]
    simp only [Option.bind_eq_bind, Option.bind_some, List.foldlM_cons, List.foldlM_nil,
      (push_eq hbytes e).2]
    rfl

/-- **What the ring retains**: for any length of a group of pictures and any frames pushed, whose
numbers increase, every state reached is as claimed if and only if every group of pictures fits the
caps. Only the keyframe depends on it.

**Proof sketch.** The ring holds the longest suffix that fits. It has a keyframe if and only if it
has the last one, which is if and only if the frames from that one on fit. -/
theorem retains_iff (framesPerGop : ℕ) (es : List RingEntry)
    (hnum : es.Pairwise fun e e' => e.seq < e'.seq) :
    (∀ pushed, pushed <+: es →
      Retains framesPerGop pushed ((new framesPerGop).pushAll pushed)) ↔
    ∀ gop, gop <:+: es → IsGop gop → FitsCaps (new framesPerGop).minFrames gop := by
  constructor
  · rintro h gop ⟨before, after, rfl⟩ hgop
    have hretains := h (before ++ gop) (List.prefix_append _ _)
    obtain ⟨k, rest, rfl, hk, hrest⟩ := hgop
    obtain ⟨b, k', a, hentries, -, hk', -⟩ := hretains.resumable ⟨k, by simp, hk⟩
    refine (exists_keyframe_iff before ⟨k, rest, rfl, hk, hrest⟩).1 ⟨k', ?_, hk'⟩
    rw [pushAll_eq] at hentries
    dsimp only at hentries
    rw [hentries]
    simp
  · intro h pushed hpushed
    have hsuffix := Suffix.keep_suffix (F := FitsCaps (new framesPerGop).minFrames) pushed
    have hchecked := checked_pushAll framesPerGop pushed
    rw [pushAll_eq] at hchecked ⊢
    refine ⟨rfl, hchecked, hsuffix, ?_, fun hkey => ?_⟩
    · exact (Suffix.keep_fits (hereditary_fitsCaps _).nil _).1
    · refine (resumable_iff ?_).2 ?_
      · exact (hnum.sublist hpushed.sublist).sublist hsuffix.sublist
      · obtain ⟨before, gop, rfl, hgop⟩ := exists_gop hkey
        refine (exists_keyframe_iff _ hgop).2 (h gop ?_ hgop)
        exact (List.suffix_append before gop).isInfix.trans hpushed.isInfix

/-! ## Two rings -/

/-- A frame of a kind. -/
def entryOf (kind : Record.MsgType) (seq : ℕ) (body : Body) : RingEntry :=
  ⟨seq, kind == .keyframe, ⟨kind.id, 0, seq, body⟩⟩

/-- A keyframe and two deltas. -/
def shortGop : List RingEntry :=
  [entryOf .keyframe 0 (.raw []), entryOf .delta 1 (.raw []), entryOf .delta 2 (.raw [])]

/-- A short group of pictures is retained. -/
theorem retains_shortGop : Retains 3 shortGop ((new 3).pushAll shortGop) :=
  (retains_iff 3 shortGop (by decide)).2
    (fun _ hpart _ => (hereditary_fitsCaps _).part hpart (by decide)) shortGop List.prefix_rfl

/-- One event with a payload of a length. -/
def oneEvent (n : ℕ) : EventBody := ⟨0, 0, [⟨0, 11, List.replicate n 0⟩]⟩

lemma encodedLen_oneEvent (n : ℕ) : (oneEvent n).encodedLen = 48 + Record.ceil8 n := by
  simp [oneEvent, EventBody.encodedLen]

/-- A keyframe of a cadence with one delta in a group of pictures, and four frames of events of its
step, of two and a half million bytes each. -/
def eventGop : List RingEntry :=
  entryOf .keyframe 0 (.raw []) :: (List.range' 1 4).map fun seq =>
    entryOf .event seq (.event (oneEvent 2500000))

/-- **The only keyframe is evicted**: four frames of events are over the byte cap, and no more than
the floor of the ring counts. -/
theorem keyframe_evicted : (eventGop.Pairwise fun e e' => e.seq < e'.seq) ∧ IsGop eventGop ∧
    ¬Retains 2 eventGop ((new 2).pushAll eventGop) := by
  have hevents : ∀ e ∈ (List.range' 1 4).map fun seq =>
      entryOf .event seq (.event (oneEvent 2500000)), e.keyframe = false := by
    intro e he
    obtain ⟨seq, -, rfl⟩ := List.mem_map.1 he
    rfl
  have hkey : (entryOf .keyframe 0 (.raw [])).keyframe = true := rfl
  have hgop : IsGop eventGop := ⟨entryOf .keyframe 0 (.raw []), _, rfl, hkey, hevents⟩
  refine ⟨by simp [eventGop, entryOf, List.range'], hgop, fun h => ?_⟩
  obtain ⟨before, k, after, hentries, -, hk, -⟩ :=
    h.resumable ⟨entryOf .keyframe 0 (.raw []), List.mem_cons_self, hkey⟩
  rw [pushAll_eq] at hentries
  dsimp only at hentries
  have hfits : FitsCaps (new 2).minFrames eventGop := by
    refine (exists_keyframe_iff [] hgop).1 ⟨k, ?_, hk⟩
    rw [List.nil_append, hentries]
    exact List.mem_append_right _ List.mem_cons_self
  have hbytes : maxRingBytes < bytesOf eventGop := by
    simp only [bytesOf, eventGop, entryOf, List.range', List.map_cons, List.map_nil,
      List.sum_cons, List.sum_nil, Frame.size, Body.encodedLen, encodedLen_oneEvent]
    decide
  rcases hfits.2 with hfloor | hcap
  · have hlen : eventGop.length = 5 := rfl
    rw [hlen] at hfloor
    exact absurd hfloor (by decide)
  · exact absurd hcap (Nat.not_le.2 hbytes)

end ResumeRing

end V2xw.Server
