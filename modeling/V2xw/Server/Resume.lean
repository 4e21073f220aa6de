import V2xw.Server.Retained

/-!
# Resuming a stream

A client that lost its socket names the first frame it did not apply. If the ring of its session can
resume there, the `Hello` it gets carries the symbol table it held then, and the ring replays the
frames from there on.

This holds in every history of a session in which no telemetry comes with the answer to a seek:
that frame takes a number and is not retained, so a replay from before it leaves it out.

## Main definitions

* `Call`, `histories` — a session driven by its connection.
* `Lossless` — a resume gives the client back what it missed.
* `Retainable` — the calls after which every frame can be replayed.

## Main results

* `resume_lossless` — resumes are lossless after every run of such calls.
* `resume_leaves_out` — a run after which they are not.
-/

namespace V2xw.Server

open Record (SimTime)
open Stream.Proc

/-! ## Histories -/

/-- What a connection does with its session. -/
inductive Call
  | hello (d : RunDescriptor) (state : RunState) (simTime : SimTime) (token : String)
      (nodes : Option (List NodeFacts × List String))
  | encodeStep (out : StepOutput)
  /-- The state at the stream position. -/
  | encodeCurrent (out : StepOutput)
  | encodeSeek (outs : List StepOutput)
  /-- The connection fell behind. -/
  | requestResync
  /-- A new connection takes the session over. -/
  | reattach (resume : Option ℕ)
  /-- A node is followed, or none. -/
  | follow (node : Option UInt32) (clear telemetry : Bool) (extra : List UInt32)
  /-- Event channels are subscribed. -/
  | setEvents (names unsubscribe : List String) (only : Option (List String))
      (nodes : Option (List UInt32)) (sample1In maxEventsPerStep : Option ℕ)

/-- A session, with the last `Hello` its client got that was no resume. -/
structure History where
  session : Session
  opening : Opening

/-- The table a `Hello` carries. -/
def Frame.table (f : Frame) : List String :=
  match f.body with
  | .hello b => b.strings.strings
  | _ => []

namespace History

variable (t : History)

/-- Runs a procedure of the session, and gives the frames it sends. -/
def act {α : Type} (x : SessionM α) (frames : α → List Frame) :
    Except ServerError (List Frame) × History :=
  ((exec x t.session).1.map frames, { t with session := (exec x t.session).2 })

/-- The history after a handshake that sent a frame. -/
def greeted (s : Session) (f : Frame) : History where
  session := s
  opening := if s.resumed then t.opening else ⟨t.session.seq, f.table⟩

end History

/-- A session that is called by its connection. A handshake that fails ends it: its connection is
refused. -/
def histories (params : ConnectParams) (d : RunDescriptor) (generation : ℕ) (token : String) :
    Machine History Call (Except ServerError (List Frame)) ServerError where
  init := ⟨(Session.new params d).bind generation token, ⟨0, d.hello.strings.strings⟩⟩
  step t
    | .hello d state simTime token nodes =>
      match exec (Session.helloFrameWithNodes d state simTime token nodes) t.session with
      | (.ok f, s) => .ok (.ok [f], t.greeted s f)
      | (.error e, _) => .error e
    | .encodeStep out => .ok (t.act (Session.encodeStep out) StepEffects.frames)
    | .encodeCurrent out => .ok (t.act (Session.encodeCurrent out) fun frames => frames)
    | .encodeSeek outs => .ok (t.act (Session.encodeSeek outs) Session.SeekAnswer.frames)
    | .requestResync => .ok (.ok [], { t with session := t.session.requestResync })
    | .reattach resume => .ok (.ok [], { t with session := t.session.reattach resume })
    | .follow node clear telemetry extra =>
      .ok (.ok [], { t with session := t.session.follow node clear telemetry extra })
    | .setEvents names unsubscribe only nodes sample1In maxEventsPerStep =>
      .ok (t.act (Session.setEvents names unsubscribe only nodes sample1In maxEventsPerStep)
        fun _ => [])

/-- The steps of a live run are encoded, and not forwarded from a recording. -/
def Call.Live : Call → Prop
  | .encodeStep out | .encodeCurrent out => out.recorded = []
  | _ => True

instance : ∀ c : Call, Decidable c.Live
  | .encodeStep out | .encodeCurrent out => inferInstanceAs (Decidable (out.recorded = []))
  | .hello .. | .encodeSeek _ | .requestResync | .reattach _ | .follow .. | .setEvents .. =>
    inferInstanceAs (Decidable True)

/-- Every frame the call makes can be replayed: provenance that appends strings fits a frame, and no
telemetry comes with a seek. -/
def Retainable (t : History) : Call → Prop
  | .encodeStep out | .encodeCurrent out =>
    t.session.Ready ∧ ∀ p ∈ out.provenance, p.Sendable
  | .encodeSeek outs => t.session.SeekSilent outs
  | _ => True

instance (t : History) : ∀ c : Call, Decidable (Retainable t c)
  | .encodeStep out | .encodeCurrent out =>
    inferInstanceAs (Decidable (t.session.Ready ∧ ∀ p ∈ out.provenance, p.Sendable))
  | .encodeSeek outs => inferInstanceAs (Decidable (t.session.SeekSilent outs))
  | .hello .. | .requestResync | .reattach _ | .follow .. | .setEvents .. =>
    inferInstanceAs (Decidable True)

/-- **A resume is lossless**: at every number that can be resumed, the frames from there on are
replayed, each once and in order, and the `Hello` carries the table of a client that applied the
frames before. -/
def Lossless (t : History) : Prop :=
  ∀ n, t.session.canResume n = true →
    ∀ d state simTime token nodes,
      let h := exec (Session.helloFrameWithNodes d state simTime token nodes)
        (t.session.reattach (some n))
      h.2.resumeBacklog = (framesFrom n t.session.produced).map Frame.canonical ∧
        NumLog.Increasing Frame.seq (framesFrom n t.session.produced) ∧
        (∀ f ∈ framesFrom n t.session.produced, n ≤ f.seq ∧ f.seq < t.session.seq) ∧
        ∀ f, h.1 = .ok f → f.table = t.opening.tableAt n t.session.produced

/-! ## Runs -/

section Runs

variable {params : ConnectParams} {d : RunDescriptor} {generation : ℕ} {token : String}

/-- The ledger agrees with the frames made since the last `Hello` that was no resume. -/
def History.Kept (t : History) : Prop := t.session.Kept t.opening []

lemma kept_init : (histories params d generation token).init.Kept where
  minFrames := by
    show 0 < max _ 2
    omega
  increasing := List.Pairwise.nil
  below _ hf := absurd hf List.not_mem_nil
  canonical _ hf := absurd hf List.not_mem_nil
  opening := le_refl _
  strings := (List.append_nil _).symm
  ring := List.suffix_refl _
  seqs _ he := absurd he List.not_mem_nil
  marks _ _ := rfl

/-- **Every call** that retains its frames keeps the ledger. -/
lemma kept_step {t t' : History} {c : Call} {r : Except ServerError (List Frame)}
    (ht : t.Kept) (hc : c.Live ∧ Retainable t c)
    (h : (histories params d generation token).step t c = .ok (r, t')) : t'.Kept := by
  obtain ⟨hlive, hret⟩ := hc
  cases c with
  | hello d' state simTime token nodes =>
    simp only [histories] at h
    split at h
    next f s hx =>
      cases h
      cases htarget : t.session.resumeTarget with
      | some seq =>
        rw [Session.exec_hello_resumed htarget] at hx
        obtain ⟨_, rfl⟩ := Prod.mk.inj hx
        exact ht
      | none =>
        rw [Session.exec_hello_fresh htarget] at hx
        obtain ⟨hf, rfl⟩ := Prod.mk.inj hx
        obtain ⟨_, rfl⟩ := toFrame_eq_ok.1 hf
        exact Ledger.Kept.reopen ht (Session.freshStrings d' token nodes).strings
    next => cases h
  | encodeStep out =>
    cases h
    exact (Session.kept_encodeStep hlive hret.2).run ⟨ht, hret.1⟩
  | encodeCurrent out =>
    cases h
    exact (Session.kept_encodeCurrent hlive hret.2).run ⟨ht, hret.1⟩
  | encodeSeek outs =>
    cases h
    exact (Session.kept_encodeSeek outs).run ⟨ht, hret⟩
  | requestResync => cases h; exact ht
  | reattach resume => cases h; exact ht
  | follow node clear telemetry extra =>
    cases h
    show Ledger.Kept _ _ (Session.follow node clear telemetry extra t.session).ledger
    unfold Session.follow
    split
    · exact ht
    · split <;> exact ht
  | setEvents names unsubscribe only nodes sample1In maxEventsPerStep =>
    cases h
    exact (Session.frame_setEvents (P := Session.Kept t.opening []) (fun _ _ _ _ _ hs => hs) names
      unsubscribe only nodes sample1In maxEventsPerStep).run ht

/-- A ledger that agrees with the frames made resumes without a loss. -/
lemma History.Kept.lossless {t : History} (h : t.Kept) : Lossless t := by
  intro n hn d state simTime token nodes
  have hn' : n = t.session.seq ∨ t.session.ring.canResume n = true := by
    simpa [Session.canResume] using hn
  have htarget : (t.session.reattach (some n)).resumeTarget = some n := by
    show (some n).filter (fun seq => t.session.canResume seq) = some n
    rw [Option.filter_some, if_pos hn]
  rw [Session.exec_hello_resumed htarget]
  refine ⟨?_, ?_, fun f hf => ?_, fun f hf => ?_⟩
  · exact (Session.resumeBacklog_of_target htarget).trans (Ledger.Kept.replay h hn')
  · exact (List.append_nil t.session.produced ▸ h.increasing).filter _
  · obtain ⟨hmem, hle⟩ := List.mem_filter.1 hf
    exact ⟨by simpa using hle, h.below f (List.mem_append_left _ hmem)⟩
  · obtain ⟨_, rfl⟩ := toFrame_eq_ok.1 hf
    exact Ledger.Kept.table h hn'

/-- **Resumes are lossless** after every run of live calls whose frames can be replayed. -/
theorem resume_lossless {t : History} {cs : List Call}
    {rs : List (Except ServerError (List Frame))}
    (h : (histories params d generation token).StepsIf (fun t c => c.Live ∧ Retainable t c)
      (histories params d generation token).init cs rs t) : Lossless t :=
  (h.invariant (Q := History.Kept) kept_init fun _ _ _ _ ht hc hstep =>
    kept_step ht hc hstep).lossless

end Runs

/-! ## Examples -/

/-- A `Hello` with a symbol table and nothing else. -/
def bareHello (strings : List String) : HelloBody :=
  ⟨0, 0, 100000000, 1000000000, 0, 0, (⟨0⟩, ⟨0⟩), [], [], [], 0, ⟨strings⟩⟩

/-- A run whose provenance appends a string. -/
def bareRun : RunDescriptor where
  hello := bareHello ["", "grid"]
  cadence := Record.Cadence.default
  originM := ⟨⟨0⟩, ⟨0⟩, ⟨0⟩⟩
  duration := 0
  live := true
  seekable := true
  provenance := some ⟨0, [⟨1, 2, 0, 0, 0, 0, 0⟩], [], some ⟨["model"]⟩, 0⟩

/-- An empty step, with the telemetry of one node. -/
def bareStep (i : UInt64) (telemetry : List NodeTelemetry) : StepOutput :=
  { StepOutput.default with
    simTime := i * 100000000
    snapshot := ⟨i * 100000000, [], [], ∅, ∅⟩
    telemetry }

/-- What node 1 reports. -/
def bareTelemetry : NodeTelemetry := ⟨1, 0, ⟨0⟩, 2, []⟩

/-- A connection to the run. -/
def bareHistories : Machine History Call (Except ServerError (List Frame)) ServerError :=
  histories ⟨none, .full⟩ bareRun 0 "token"

/-- Two steps for a client that follows a node, and a seek back to the first one. -/
def bareCalls (telemetry : List NodeTelemetry) : List Call :=
  [.hello bareRun .running 0 "token" none, .follow (some 1) false true [],
   .encodeStep (bareStep 0 [bareTelemetry]), .encodeStep (bareStep 1 [bareTelemetry]),
   .encodeSeek [bareStep 0 telemetry]]

/-- Without telemetry of its own, the seek can be replayed from the second frame of the stream, and
the table goes on from what the client held. -/
theorem resume_lossless_bare : ∃ rs t,
    bareHistories.StepsIf (fun t c => c.Live ∧ Retainable t c) bareHistories.init (bareCalls [])
      rs t ∧
    (t.session.canResume 1 = true ∧ t.opening.tableAt 1 t.session.produced = ["", "grid", "token"] ∧
      t.session.strings.strings = ["", "grid", "token", "model"]) ∧ Lossless t := by
  have hrun : (bareHistories.runIf (fun t c => decide (c.Live ∧ Retainable t c)) bareHistories.init
      (bareCalls [])).any (fun x => decide (x.2.session.canResume 1 = true ∧
        x.2.opening.tableAt 1 x.2.session.produced = ["", "grid", "token"] ∧
        x.2.session.strings.strings = ["", "grid", "token", "model"])) = true := by decide +kernel
  obtain ⟨rs, t, hrun, hp⟩ := bareHistories.exists_stepsIf
    (fun t c h => of_decide_eq_true h) hrun
  exact ⟨rs, t, hrun, of_decide_eq_true hp, resume_lossless hrun⟩

/-- **A resume that leaves a frame out**: the telemetry that came with the seek took number 6, and a
replay from the first frame stops before it. -/
theorem resume_leaves_out : ∃ rs t,
    bareHistories.StepsIf (fun _ c => c.Live) bareHistories.init (bareCalls [bareTelemetry]) rs t ∧
      t.session.canResume 0 = true ∧ t.session.seq = 7 ∧ ¬ Lossless t := by
  have hrun : (bareHistories.runIf (fun _ c => decide c.Live) bareHistories.init
      (bareCalls [bareTelemetry])).any (fun x => decide (x.2.session.canResume 0 = true ∧
        x.2.session.seq = 7 ∧
        (exec (Session.helloFrameWithNodes bareRun .running 0 "token" none)
          (x.2.session.reattach (some 0))).2.resumeBacklog.map Frame.seq ≠
        (framesFrom 0 x.2.session.produced).map Frame.seq)) = true := by decide +kernel
  obtain ⟨rs, t, hrun, hp⟩ := bareHistories.exists_stepsIf
    (fun t c h => of_decide_eq_true h) hrun
  obtain ⟨hcan, hseq, hne⟩ := of_decide_eq_true hp
  refine ⟨rs, t, hrun, hcan, hseq, fun hl => hne ?_⟩
  rw [(hl 0 hcan bareRun .running 0 "token" none).1, List.map_map]
  rfl

end V2xw.Server
