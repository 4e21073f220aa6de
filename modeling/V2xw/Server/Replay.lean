import V2xw.Server.Resume
import V2xw.Server.View

/-!
# Replaying a recording

A run served from a recording, in `crates/v2xw-server/src/replay.rs`: the recorded frames are
grouped by their instant, a step hands one group over, and a seek hands over the groups from the
last keyframe at or before the target.

The session answers a seek from the snapshots of the outputs it is given. Those of a replay carry
recorded frames and no snapshot, so what is sent is the empty scene at time zero, or nothing.

## Main definitions

* `ReplayEngine` — a run served from a recording.
* `ReplayEngine.fromFrames`, `ReplayEngine.seek`, `ReplayEngine.seekRange`.
* `ReplayEngine.upTo` — the frames recorded up to an instant.
* `Shows` — a seek shows what was recorded.

## Main results

* `shows_iff` — when a seek shows what was recorded.
* `seek_shows_nothing` — a recording that a seek does not show.
-/

namespace V2xw.Server

open Record (SimTime RecordError MsgType Cadence Axes F64 Profile KeyframeBody SnapshotEncoder
  SnapshotFrame)
open Stream.Proc

/-! ## The engine -/

/-- A recorded group of frames: its instant and the frames, in recorded order. -/
abbrev RecordedStep := SimTime × List Frame

/-- Whether a group holds a keyframe. -/
def hasKeyframe (step : RecordedStep) : Bool :=
  step.2.any fun f => f.msgType == MsgType.id .keyframe

/-- Adds a frame to the group of its instant; groups are kept in order of time. -/
def addRecorded (t : SimTime) (f : Frame) : List RecordedStep → List RecordedStep
  | [] => [(t, [f])]
  | (u, fs) :: steps =>
    if t < u then (t, [f]) :: (u, fs) :: steps
    else if t = u then (u, fs ++ [f]) :: steps
    else (u, fs) :: addRecorded t f steps

/-- The instants of the groups increase. -/
def Grouped (steps : List RecordedStep) : Prop := steps.Pairwise fun a b => a.1 < b.1

/-- The instants of the groups with one more frame. -/
lemma mem_addRecorded {t : SimTime} {f : Frame} {a : RecordedStep} :
    ∀ {steps : List RecordedStep}, a ∈ addRecorded t f steps → a.1 = t ∨ ∃ b ∈ steps, b.1 = a.1
  | [], h => by
    rw [addRecorded, List.mem_singleton] at h
    exact .inl (h ▸ rfl)
  | (u, fs) :: steps, h => by
    rw [addRecorded] at h
    split_ifs at h with hlt heq
    · rcases List.mem_cons.1 h with rfl | h
      · exact .inl rfl
      · exact .inr ⟨a, h, rfl⟩
    · rcases List.mem_cons.1 h with rfl | h
      · exact .inl heq.symm
      · exact .inr ⟨a, List.mem_cons_of_mem _ h, rfl⟩
    · rcases List.mem_cons.1 h with rfl | h
      · exact .inr ⟨_, List.mem_cons_self, rfl⟩
      · rcases mem_addRecorded h with h | ⟨b, hb, h⟩
        · exact .inl h
        · exact .inr ⟨b, List.mem_cons_of_mem _ hb, h⟩

/-- Adding a frame keeps the groups in order. -/
lemma grouped_addRecorded (t : SimTime) (f : Frame) :
    ∀ {steps : List RecordedStep}, Grouped steps → Grouped (addRecorded t f steps)
  | [], _ => List.pairwise_singleton _ _
  | (u, fs) :: steps, h => by
    obtain ⟨hu, hsteps⟩ := List.pairwise_cons.1 h
    rw [addRecorded]
    split_ifs with hlt heq
    · refine List.pairwise_cons.2 ⟨fun b hb => ?_, h⟩
      rcases List.mem_cons.1 hb with rfl | hb
      · exact hlt
      · exact UInt64.lt_trans hlt (hu b hb)
    · exact List.pairwise_cons.2 ⟨hu, hsteps⟩
    · refine List.pairwise_cons.2 ⟨fun b hb => ?_, grouped_addRecorded t f hsteps⟩
      rcases mem_addRecorded hb with hb | ⟨c, hc, hb⟩
      · show u < b.1
        rw [hb]
        exact UInt64.lt_of_le_of_ne (UInt64.not_lt.1 hlt) (Ne.symm heq)
      · show u < b.1
        rw [← hb]
        exact hu c hc

/-- A run served from a recording. -/
structure ReplayEngine where
  descriptor : RunDescriptor
  /-- The canonical frames grouped by their instant. -/
  steps : List RecordedStep
  grouped : Grouped steps
  cursor : ℕ
  state : RunState

namespace ReplayEngine

/-- What opening a recording has gathered: the first `Hello` and the groups. -/
structure Gathered where
  hello : Option HelloBody
  steps : List RecordedStep
  grouped : Grouped steps

/-- One recorded frame: connection frames are left out, and unknown ones are kept. -/
def Gathered.add (g : Gathered) (recorded : SimTime × Frame) : Except ServerError Gathered :=
  match recorded.2.kind with
  | some .hello =>
    match g.hello, recorded.2.body with
    | none, .hello b => .ok { g with hello := some b }
    | none, _ => .error (.internal (.malformed "vwp Hello" "not a Hello body"))
    | some _, _ => .ok g
  | some kind =>
    if kind.isCanonical then
      .ok { g with
        steps := addRecorded recorded.1 recorded.2 g.steps
        grouped := grouped_addRecorded _ _ g.grouped }
    else .ok g
  | none =>
    .ok { g with
      steps := addRecorded recorded.1 recorded.2 g.steps
      grouped := grouped_addRecorded _ _ g.grouped }

/-- A replay of frames that are in memory. -/
def fromFrames (frames : List (SimTime × Frame)) (label : String) :
    Except ServerError ReplayEngine := do
  let g ← frames.foldlM Gathered.add ⟨none, [], List.Pairwise.nil⟩
  match g.hello with
  | none => .error (.worldNotFound s!"{label} holds no Hello frame")
  | some hello =>
    let cadence ← (Cadence.new (max hello.keyframePeriodNs 1) (max hello.mobilityStepNs 1)).mapError
      ServerError.internal
    .ok
      { descriptor :=
          { hello
            cadence
            originM := hello.keyframeOrigin
            duration := match g.steps.getLast? with
              | some step => step.1
              | none => hello.simDurationNs
            live := false
            seekable := true
            provenance := none }
        steps := g.steps
        grouped := g.grouped
        cursor := 0
        state := .paused }

/-- The seekable range. -/
def seekRange (e : ReplayEngine) : SimTime × SimTime :=
  ((e.steps.head?.map Prod.fst).getD 0, (e.steps.getLast?.map Prod.fst).getD 0)

/-- A recorded group as an output of the engine. -/
def output (step : RecordedStep) (endOfRun : Bool) : StepOutput :=
  { StepOutput.default with simTime := step.1, recorded := step.2, endOfRun }

/-- The last index that passes. -/
def lastIdx? (p : RecordedStep → Bool) (steps : List RecordedStep) : Option ℕ :=
  (steps.reverse.findIdx? p).map fun i => steps.length - 1 - i

/-- The last group of a seek. -/
def seekEnd (e : ReplayEngine) (t : SimTime) : ℕ :=
  (lastIdx? (fun step => decide (step.1 ≤ t)) e.steps).getD 0

/-- The first group of a seek: the last one with a keyframe. -/
def seekStart (e : ReplayEngine) (t : SimTime) : ℕ :=
  (lastIdx? hasKeyframe (e.steps.take (e.seekEnd t + 1))).getD 0

/-- Positions the replay at an instant. An empty recording has no group to index: the server
panics, which is an error here. -/
def seek (e : ReplayEngine) (t : SimTime) : Except ServerError (List StepOutput) × ReplayEngine :=
  if t < e.seekRange.1 ∨ e.seekRange.2 < t then
    (.error (.seekOutOfRange e.seekRange.1 e.seekRange.2), e)
  else if e.steps = [] then (.error (.internal (.malformed "replay" "index out of range")), e)
  else
    (.ok (((e.steps.take (e.seekEnd t + 1)).drop (e.seekStart t)).map fun step =>
        output step false),
      { e with cursor := e.seekEnd t + 1, state := .paused })

/-- The frames recorded up to an instant. -/
def upTo (e : ReplayEngine) (t : SimTime) : List Frame :=
  (e.steps.filter fun step => decide (step.1 ≤ t)).flatMap Prod.snd

/-! ## Groups -/

/-- The last index that passes splits the groups: it passes, and nothing after it does. -/
lemma lastIdx?_eq_some {p : RecordedStep → Bool} {steps : List RecordedStep} {i : ℕ}
    (h : lastIdx? p steps = some i) :
    ∃ step, steps[i]? = some step ∧ p step = true ∧ ∀ j a, i < j → steps[j]? = some a →
      p a = false := by
  obtain ⟨k, hk, rfl⟩ := Option.map_eq_some_iff.1 h
  obtain ⟨hlt, hp, hbefore⟩ := List.findIdx?_eq_some_iff_getElem.1 hk
  rw [List.length_reverse] at hlt
  refine ⟨steps.reverse[k], ?_, hp, fun j a hj ha => ?_⟩
  · rw [List.getElem_reverse, List.getElem?_eq_getElem]
  · have hjlt : j < steps.length := (List.getElem?_eq_some_iff.1 ha).1
    have hne := hbefore (steps.length - 1 - j) (by omega)
    rw [List.getElem_reverse] at hne
    have hj' : steps.length - 1 - (steps.length - 1 - j) = j := by omega
    simp only [hj'] at hne
    obtain ⟨_, rfl⟩ := List.getElem?_eq_some_iff.1 ha
    exact Bool.eq_false_iff.2 hne

lemma lastIdx?_eq_none {p : RecordedStep → Bool} {steps : List RecordedStep}
    (h : lastIdx? p steps = none) : ∀ a ∈ steps, p a = false := by
  rw [lastIdx?, Option.map_eq_none_iff, List.findIdx?_eq_none_iff] at h
  exact fun a ha => by simpa using h a (List.mem_reverse.2 ha)

/-- **The groups up to an instant** are those up to the last group of a seek. -/
lemma filter_eq_take {e : ReplayEngine} {t : SimTime} (hne : e.steps ≠ [])
    (ht : e.seekRange.1 ≤ t) :
    e.steps.filter (fun step => decide (step.1 ≤ t)) = e.steps.take (e.seekEnd t + 1) := by
  obtain ⟨first, rest, hsteps⟩ := List.exists_cons_of_ne_nil hne
  have hfirst : first.1 ≤ t := by simpa [seekRange, hsteps] using ht
  -- There is a last group: the first one passes.
  obtain ⟨i, hi⟩ : ∃ i, lastIdx? (fun step => decide (step.1 ≤ t)) e.steps = some i := by
    refine Option.ne_none_iff_exists'.1 fun h => ?_
    have h := lastIdx?_eq_none h first (hsteps ▸ List.mem_cons_self)
    rw [decide_eq_false_iff_not] at h
    exact h hfirst
  obtain ⟨step, hstep, hp, hafter⟩ := lastIdx?_eq_some hi
  rw [seekEnd, hi, Option.getD_some]
  conv_lhs => rw [← List.take_append_drop (i + 1) e.steps, List.filter_append]
  have htake : (e.steps.take (i + 1)).filter (fun step => decide (step.1 ≤ t)) =
      e.steps.take (i + 1) := by
    refine List.filter_eq_self.2 fun a ha => ?_
    obtain ⟨j, hj, rfl⟩ := List.mem_take_iff_getElem.1 ha
    obtain ⟨hilt, rfl⟩ := List.getElem?_eq_some_iff.1 hstep
    rw [decide_eq_true_eq] at hp ⊢
    rcases Nat.lt_or_ge j i with hlt | hge
    · have h := List.pairwise_iff_getElem.1 e.grouped j i (by omega) hilt hlt
      exact UInt64.le_of_lt (UInt64.lt_of_lt_of_le h hp)
    · obtain rfl : j = i := by omega
      exact hp
  have hdrop : (e.steps.drop (i + 1)).filter (fun step => decide (step.1 ≤ t)) = [] := by
    refine List.filter_eq_nil_iff.2 fun a ha => ?_
    obtain ⟨j, hj⟩ := List.mem_iff_getElem?.1 ha
    rw [List.getElem?_drop] at hj
    exact Bool.eq_false_iff.1 (hafter (i + 1 + j) a (by omega) hj)
  rw [htake, hdrop, List.append_nil]

/-- **What a seek hands over**: the last group by itself, if it holds a keyframe or is the only one,
and more than one group otherwise. -/
lemma drop_seekStart {l : List RecordedStep} {last : RecordedStep}
    (hlast : l.getLast? = some last) :
    (hasKeyframe last = true ∨ l.length = 1 →
      l.drop ((lastIdx? hasKeyframe l).getD 0) = [last]) ∧
    (¬ (hasKeyframe last = true ∨ l.length = 1) →
      ∃ a b rest, l.drop ((lastIdx? hasKeyframe l).getD 0) = a :: b :: rest) := by
  have hne : l ≠ [] := by
    rintro rfl
    cases hlast
  have hlen : 0 < l.length := List.length_pos_of_ne_nil hne
  have hget : l[l.length - 1]? = some last := by rw [← List.getLast?_eq_getElem?, hlast]
  have hend : l.drop (l.length - 1) = [last] := by
    obtain ⟨hlt, rfl⟩ := List.getElem?_eq_some_iff.1 hget
    rw [List.drop_eq_getElem_cons hlt, List.drop_eq_nil_of_le (by omega)]
  constructor
  · rintro (hk | hone)
    · cases hi : lastIdx? hasKeyframe l with
      | none =>
        rw [lastIdx?_eq_none hi last (List.mem_of_getElem? hget)] at hk
        cases hk
      | some i =>
        obtain ⟨step, hstep, _, hafter⟩ := lastIdx?_eq_some hi
        have hilt := (List.getElem?_eq_some_iff.1 hstep).1
        obtain rfl : i = l.length - 1 := by
          by_contra hne
          rw [hafter (l.length - 1) last (by omega) hget] at hk
          cases hk
        exact hend
    · have hzero : (lastIdx? hasKeyframe l).getD 0 = l.length - 1 := by
        cases hi : lastIdx? hasKeyframe l with
        | none => rw [Option.getD_none]; omega
        | some i =>
          obtain ⟨step, hstep, _⟩ := lastIdx?_eq_some hi
          have hilt := (List.getElem?_eq_some_iff.1 hstep).1
          rw [Option.getD_some]
          omega
      rw [hzero, hend]
  · intro hnot
    rw [not_or] at hnot
    have hlt : (lastIdx? hasKeyframe l).getD 0 + 1 < l.length := by
      cases hi : lastIdx? hasKeyframe l with
      | none => rw [Option.getD_none]; omega
      | some i =>
        obtain ⟨step, hstep, hk, _⟩ := lastIdx?_eq_some hi
        have hilt := (List.getElem?_eq_some_iff.1 hstep).1
        have hne : i ≠ l.length - 1 := by
          rintro rfl
          rw [hget] at hstep
          cases hstep
          exact hnot.1 hk
        rw [Option.getD_some]
        omega
    rw [List.drop_eq_getElem_cons (by omega), List.drop_eq_getElem_cons hlt]
    exact ⟨_, _, _, rfl⟩

end ReplayEngine

/-! ## Seeks -/

/-- **A seek shows what was recorded**: the frames that answer it open with a keyframe, and leave
the client with the picture that the recorded frames up to the target give. -/
def Shows (e : ReplayEngine) (s : Session) (t : SimTime) : Prop :=
  ∃ outs e' answer s', e.seek t = (.ok outs, e') ∧
    exec (Session.encodeSeek outs) s = (.ok answer, s') ∧
    (∃ f ∈ answer.frames.head?, f.kind = some .keyframe) ∧
    ∃ v, View.empty.applyAll (e.upTo t) = .ok v ∧ ∀ v₀ : View, v₀.applyAll answer.frames = .ok v

/-- A seek hands over one group: the last one up to the target holds a keyframe or is the first. -/
def ReplayEngine.Alone (e : ReplayEngine) (t : SimTime) : Prop :=
  ∃ last, (e.steps.filter fun step => decide (step.1 ≤ t)).getLast? = some last ∧
    (hasKeyframe last = true ∨ (e.steps.filter fun step => decide (step.1 ≤ t)).length = 1)

/-- The keyframe of an output that carries no snapshot. -/
def emptyScene (origin : Axes F64) : KeyframeBody := ⟨0, origin, 0, Record.profileFull, [], []⟩

lemma length_emptyScene (origin : Axes F64) : (emptyScene origin).encode.length < 2 ^ 32 := by
  rw [KeyframeBody.length_encode]
  show Record.keyframePrefixBytes + Record.actorStride * 0 + Record.signalStride * 0 < 2 ^ 32
  decide

lemma applyAll_emptyScene (origin : Axes F64) (flags : UInt16) (seq : ℕ) (v : View) :
    v.applyAll [⟨MsgType.id .keyframe, flags, seq, .raw (emptyScene origin).encode⟩] =
      .ok View.empty := by
  rw [View.applyAll, List.foldlM_cons, View.apply_keyframe (length_emptyScene origin)]
  rfl

namespace Session

variable {s : Session}

/-- The first snapshot of a seek into a recording is an empty keyframe. -/
lemma exec_snapshotFrame_fresh (hfull : s.profile = .full) :
    ∃ flags encoder, encoder.lastTime = some 0 ∧
      exec (snapshotFrame StepOutput.default.snapshot) { s with encoder := s.freshEncoder } =
        (.ok (⟨MsgType.id .keyframe, flags, s.seq, .raw (emptyScene s.originM).encode⟩, true),
          { s with encoder, seq := s.seq + 1 }) := by
  have hblank : s.freshEncoder.blankInput StepOutput.default.snapshot =
      StepOutput.default.snapshot := if_neg (by
    show ¬ s.profile.isNodeOnly = true
    rw [hfull]
    decide)
  have hbody : (s.freshEncoder.keyframeBody StepOutput.default.snapshot ∅).1 =
      emptyScene s.originM := by
    show KeyframeBody.mk 0 s.originM 0 s.profile.wireValue [] [] = _
    rw [hfull]
    rfl
  have henc := @SnapshotEncoder.encode_keyframe s.freshEncoder StepOutput.default.snapshot ∅ _ rfl
    (by rw [hblank]; rfl) rfl
    (by rw [hblank, hbody]; exact Record.Frame.new_eq_ok.2 ⟨length_emptyScene s.originM, rfl⟩)
  unfold snapshotFrame
  simp only [exec_bind, exec_get, exec_modify, henc, ofRecord, exec_pure, exec_takeSeq,
    SnapshotFrame.frame, Frame.ofRecord_build]
  exact ⟨_, _, rfl, rfl⟩

lemma exec_snapshotFrame_again (h : s.encoder.lastTime = some 0) :
    ∃ e s', exec (snapshotFrame StepOutput.default.snapshot) s = (.error e, s') := by
  unfold snapshotFrame
  simp only [exec_bind, exec_get, exec_modify, SnapshotEncoder.encode, SnapshotEncoder.checkTime, h]
  exact ⟨_, _, rfl⟩

open ReplayEngine (output)

lemma exec_encodeSeek_one (hfull : s.profile = .full) (group : RecordedStep) :
    ∃ flags deltas s', exec (encodeSeek [output group false]) s =
      (.ok ⟨[⟨MsgType.id .keyframe, flags, s.seq, .raw (emptyScene s.originM).encode⟩], s.seq,
        deltas⟩, s') := by
  obtain ⟨flags, encoder, _, hexec⟩ := exec_snapshotFrame_fresh hfull
  have hexec : exec (snapshotFrame (output group false).snapshot)
      { s with encoder := s.freshEncoder } = _ := hexec
  unfold encodeSeek seekLoop seekFrame seekCompanion telemetryFrame
  simp only [exec_bind, exec_get, exec_modify, List.getLast?_singleton, hexec]
  exact ⟨_, _, _, rfl⟩

/-- A seek that hands over more than one group is refused. -/
lemma exec_encodeSeek_more (hfull : s.profile = .full) (a b : RecordedStep)
    (rest : List RecordedStep) :
    ∃ e s', exec (encodeSeek ((a :: b :: rest).map fun group => output group false)) s =
      (.error e, s') := by
  obtain ⟨flags, encoder, htime, hexec⟩ := exec_snapshotFrame_fresh hfull
  have hexec : exec (snapshotFrame (output a false).snapshot)
      { s with encoder := s.freshEncoder } = _ := hexec
  obtain ⟨last, hlast⟩ : ∃ last, ((a :: b :: rest).map fun group => output group false).getLast? =
      some last := ⟨_, List.getLast?_cons⟩
  unfold encodeSeek
  simp only [exec_bind, exec_get, exec_modify, hlast]
  simp only [List.map_cons, seekLoop, seekFrame, exec_bind, exec_modify, hexec, exec_pure]
  obtain ⟨e, s', hagain⟩ := exec_snapshotFrame_again
    (s := retainSeek (seekMarked ⟨MsgType.id .keyframe, flags, s.seq,
      .raw (emptyScene s.originM).encode⟩ true) true { s with encoder, seq := s.seq + 1 }) htime
  have hagain : exec (snapshotFrame (output b false).snapshot) _ = _ := hagain
  simp only [hagain]
  exact ⟨e, s', rfl⟩

end Session

namespace ReplayEngine

/-- What a seek hands over: a group by itself, or more than one. -/
lemma seek_eq_ok {e : ReplayEngine} {t : SimTime} (hne : e.steps ≠ [])
    (ht : e.seekRange.1 ≤ t ∧ t ≤ e.seekRange.2) :
    ∃ groups e', e.seek t = (.ok (groups.map fun group => output group false), e') ∧
      ((e.Alone t ∧ ∃ last, groups = [last]) ∨
        (¬ e.Alone t ∧ ∃ a b rest, groups = a :: b :: rest)) := by
  have hrange : ¬ (t < e.seekRange.1 ∨ e.seekRange.2 < t) := by
    rw [not_or, UInt64.not_lt, UInt64.not_lt]
    exact ht
  have htake := filter_eq_take hne ht.1
  refine ⟨(e.steps.take (e.seekEnd t + 1)).drop (e.seekStart t),
    { e with cursor := e.seekEnd t + 1, state := .paused }, ?_, ?_⟩
  · rw [seek, if_neg hrange, if_neg hne]
  · obtain ⟨last, hlast⟩ : ∃ last, (e.steps.take (e.seekEnd t + 1)).getLast? = some last := by
      refine Option.ne_none_iff_exists'.1 fun h => ?_
      rw [List.getLast?_eq_none_iff, List.take_eq_nil_iff] at h
      exact h.elim (fun h => by omega) hne
    obtain ⟨hone, hmore⟩ := drop_seekStart hlast
    by_cases hk : hasKeyframe last = true ∨ (e.steps.take (e.seekEnd t + 1)).length = 1
    · refine .inl ⟨⟨last, ?_⟩, last, hone hk⟩
      rw [htake]
      exact ⟨hlast, hk⟩
    · refine .inr ⟨?_, hmore hk⟩
      rintro ⟨last', hlast', hk'⟩
      rw [htake] at hlast' hk'
      rw [hlast] at hlast'
      cases hlast'
      exact hk hk'

end ReplayEngine

section Shows

variable {e : ReplayEngine} {s : Session} {t : SimTime}

/-- A seek that is answered hands over one group, and the client is left with nothing. -/
lemma Shows.alone (hs : s.profile = .full) (ht : e.seekRange.1 ≤ t ∧ t ≤ e.seekRange.2)
    (h : Shows e s t) : e.Alone t ∧ View.empty.applyAll (e.upTo t) = .ok View.empty := by
  obtain ⟨outs, e', answer, s', hseek, hanswer, _, v, hv, hshown⟩ := h
  have hne : e.steps ≠ [] := by
    intro hnil
    rw [ReplayEngine.seek, if_pos hnil] at hseek
    split_ifs at hseek
    all_goals cases hseek
  obtain ⟨groups, e'', hseek', hgroups⟩ := ReplayEngine.seek_eq_ok hne ht
  rw [hseek'] at hseek
  obtain ⟨houts, _⟩ := Prod.mk.inj hseek
  cases houts
  rcases hgroups with ⟨halone, last, rfl⟩ | ⟨_, a, b, rest, rfl⟩
  · obtain ⟨flags, deltas, s'', hexec⟩ := Session.exec_encodeSeek_one hs last
    rw [List.map_singleton, hexec] at hanswer
    obtain ⟨hanswer, _⟩ := Prod.mk.inj hanswer
    cases hanswer
    have hshown := hshown View.empty
    rw [applyAll_emptyScene] at hshown
    cases hshown
    exact ⟨halone, hv⟩
  · obtain ⟨err, s'', hexec⟩ := Session.exec_encodeSeek_more hs a b rest
    rw [hexec] at hanswer
    cases hanswer

/-- **When a seek shows what was recorded**: it hands over one group of frames, and what was
recorded up to the target shows nothing at time zero. -/
theorem shows_iff (hs : s.profile = .full) (ht : e.seekRange.1 ≤ t ∧ t ≤ e.seekRange.2) :
    Shows e s t ↔ e.Alone t ∧ View.empty.applyAll (e.upTo t) = .ok View.empty := by
  refine ⟨Shows.alone hs ht, fun ⟨halone, hv⟩ => ?_⟩
  have hne : e.steps ≠ [] := by
    intro hnil
    obtain ⟨last, hlast, _⟩ := halone
    rw [hnil] at hlast
    cases hlast
  obtain ⟨groups, e', hseek, ⟨_, last, rfl⟩ | ⟨hmore, _⟩⟩ := ReplayEngine.seek_eq_ok hne ht
  · obtain ⟨flags, deltas, s', hexec⟩ := Session.exec_encodeSeek_one hs last
    exact ⟨_, e', _, s', hseek, hexec, ⟨_, rfl, rfl⟩, View.empty, hv,
      applyAll_emptyScene s.originM flags s.seq⟩
  · exact absurd halone hmore

end Shows

/-! ## Examples -/

/-- A recording with one keyframe. -/
def shortRecording (t : SimTime) (actors : List Record.ActorRow) : List (SimTime × Frame) :=
  [(0, ⟨MsgType.id .hello, 0, 0, .hello (bareHello [""])⟩),
   (t, ⟨MsgType.id .keyframe, 0, 0,
     .raw (KeyframeBody.encode ⟨t, ⟨⟨0⟩, ⟨0⟩, ⟨0⟩⟩, 0, Record.profileFull, actors, []⟩)⟩)]

/-- A seek into a recording of the empty scene at time zero shows it. -/
theorem shows_iff_empty : ∃ e, ReplayEngine.fromFrames (shortRecording 0 []) "r" = .ok e ∧
    Shows e (Session.new ⟨none, .full⟩ e.descriptor) 0 := by
  have hopen : (ReplayEngine.fromFrames (shortRecording 0 []) "r").toOption.any (fun e =>
      decide (e.seekRange = (0, 0) ∧
        (e.steps.filter fun step => decide (step.1 ≤ 0)).length = 1 ∧
        (View.empty.applyAll (e.upTo 0)).toOption = some View.empty)) = true := by
    decide +kernel
  cases he : ReplayEngine.fromFrames (shortRecording 0 []) "r" with
  | error err => rw [he] at hopen; cases hopen
  | ok e =>
    rw [he] at hopen
    obtain ⟨hrange, hlen, hv⟩ := of_decide_eq_true hopen
    refine ⟨e, rfl, (shows_iff rfl ?_).2 ⟨?_, ?_⟩⟩
    · rw [hrange]
      decide
    · obtain ⟨last, hlast⟩ := List.length_eq_one_iff.1 hlen
      exact ⟨last, by rw [hlast]; rfl, .inr hlen⟩
    · cases hres : View.empty.applyAll (e.upTo 0) with
      | error err => rw [hres] at hv; cases hv
      | ok v =>
        rw [hres] at hv
        cases hv
        rfl

/-- **A seek that does not show what was recorded**: the recording holds an actor, and the client is
sent the empty scene. -/
theorem seek_shows_nothing : ∃ e,
    ReplayEngine.fromFrames (shortRecording 100000000
      [{ Record.ActorRow.empty with actorId := 7 }]) "r" = .ok e ∧
      e.seekRange = (100000000, 100000000) ∧
      ¬ Shows e (Session.new ⟨none, .full⟩ e.descriptor) 100000000 := by
  have hopen : (ReplayEngine.fromFrames (shortRecording 100000000
      [{ Record.ActorRow.empty with actorId := 7 }]) "r").toOption.any (fun e =>
      decide (e.seekRange = (100000000, 100000000) ∧
        (View.empty.applyAll (e.upTo 100000000)).toOption ≠ some View.empty)) = true := by
    decide +kernel
  cases he : ReplayEngine.fromFrames (shortRecording 100000000
      [{ Record.ActorRow.empty with actorId := 7 }]) "r" with
  | error err => rw [he] at hopen; cases hopen
  | ok e =>
    rw [he] at hopen
    obtain ⟨hrange, hv⟩ := of_decide_eq_true hopen
    refine ⟨e, rfl, hrange, fun h => hv ?_⟩
    have hlast := (h.alone rfl (by rw [hrange]; decide)).2
    rw [hlast]
    rfl

end V2xw.Server
