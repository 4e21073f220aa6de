import V2xw.Server.Fixed
import V2xw.Server.Resume
import V2xw.Server.Run

/-!
# Snapshots and the run they belong to

A snapshot is encoded against the tables of the run that the last `Hello` of its connection
described. It belongs to that run while no connection drains a step of another generation, and no
run starts while a greeting is under way. A call drains whatever its receiver holds, so a
`run.pause` that comes between a `run.start` of someone else and the greeting of its connection
encodes a step of the new run against the tables of the old one.

## Main definitions

* `Sent.Own` — the snapshots sent are of the run the client was told of.
* `Run.Calm` — no step of another generation is drained, and no run starts while a
  greeting is under way.

## Main results

* `snapshots_own` — the snapshots of calm runs are of the run the client was told of.
* `snapshot_foreign` — a snapshot that is not.
-/

namespace V2xw.Server

open Record (SimTime MsgType)
open Stream.Proc

/-- The snapshots sent are of the run that the last `Hello` described. -/
def Sent.Own (e : Sent) : Prop := e.snapshot = true → ∀ out ∈ e.outs, out.generation = e.hello

/-- Every connection waits on the run its `Hello` described, and nothing was sent yet. -/
structure Run.Greeted (r : Run) : Prop where
  waiting : ∀ c conn, r.conns c = some conn → conn.task = .waiting
  hello : ∀ c conn, r.conns c = some conn → conn.hello = conn.session.generation
  log : r.log = []

/-- Seeks are left out. -/
def Op.Seekless : Op → Prop
  | .extendTo _ | .seek .. | .answer _ => False
  | _ => True

instance : ∀ o : Op, Decidable o.Seekless
  | .extendTo _ | .seek .. | .answer _ => inferInstanceAs (Decidable False)
  | .absorb | .check _ | .rest _ | .tick _ | .send _ | .start .. | .resume _ | .pause _ | .step ..
  | .endStep _ | .drain _ | .finish _ | .receive _ | .notice _ | .greet .. =>
    inferInstanceAs (Decidable True)

namespace Conn

/-- The step that is drained next is of the run of the session. -/
def DrainsOwn (conn : Conn) : Prop :=
  ∀ t ∈ conn.steps.head?, t.out.generation = conn.session.generation

instance (conn : Conn) : Decidable conn.DrainsOwn :=
  inferInstanceAs (Decidable (∀ t ∈ conn.steps.head?, t.out.generation = conn.session.generation))

/-- No run has started since the step that a greeting is for was made, and none since the greeting
read the generation. -/
def Unmoved (generation : ℕ) (conn : Conn) : Prop :=
  match conn.task with
  | .greeting (some t) .generation => t.out.generation = generation
  | .greeting _ (.descriptor g) => g = generation
  | _ => True

instance (generation : ℕ) (conn : Conn) : Decidable (conn.Unmoved generation) := by
  unfold Unmoved
  split <;> infer_instance

end Conn

/-- No step of another generation is drained, and no run starts while a greeting is under way. -/
def Run.Calm (r : Run) : Op → Prop
  | .drain c => ∀ conn ∈ r.conns c, conn.DrainsOwn
  | .greet c _ => ∀ conn ∈ r.conns c, conn.Unmoved r.generation
  | _ => True

instance (r : Run) : ∀ o : Op, Decidable (r.Calm o)
  | .drain c => inferInstanceAs (Decidable (∀ conn ∈ r.conns c, conn.DrainsOwn))
  | .greet c _ => inferInstanceAs (Decidable (∀ conn ∈ r.conns c, conn.Unmoved r.generation))
  | .absorb | .extendTo _ | .check _ | .rest _ | .tick _ | .send _ | .start .. | .resume _
  | .pause _ | .step .. | .endStep _ | .seek .. | .answer _ | .finish _ | .receive _ | .notice _ =>
    inferInstanceAs (Decidable True)

/-! ## Greetings -/

namespace Session

/-- A `Hello` is no snapshot. -/
lemma isSnapshot_hello {d : RunDescriptor} {state : RunState} {simTime : SimTime}
    {token : String} {nodes : Option (List NodeFacts × List String)} {s s' : Session} {f : Frame}
    (h : exec (helloFrameWithNodes d state simTime token nodes) s = (.ok f, s')) :
    f.isSnapshot = false := by
  have hf : ∃ seq body, toFrame .hello seq 0 body = .ok f := by
    cases htarget : s.resumeTarget with
    | some seq =>
      rw [exec_hello_resumed htarget] at h
      exact ⟨_, _, (Prod.mk.inj h).1⟩
    | none =>
      rw [exec_hello_fresh htarget] at h
      exact ⟨_, _, (Prod.mk.inj h).1⟩
  obtain ⟨seq, body, hf⟩ := hf
  obtain ⟨_, rfl⟩ := toFrame_eq_ok.1 hf
  rfl

/-- **The snapshot of a greeting** is of the run of the session. -/
lemma generation_of_greet {d : RunDescriptor} {state : RunState}
    {live : Option (List NodeFacts × List String)} {simTime : SimTime}
    {current : Option StepOutput} {s s' : Session} {frames : List Frame}
    (h : exec (greet d state live simTime current) s = (.ok frames, s'))
    (hsnap : frames.any Frame.isSnapshot = true) :
    ∀ out ∈ current, out.generation = s.generation := by
  have hgen := congrArg Fixed.generation (fixed_exec
    (fun _ => fixed_helloFrameWithNodes d state simTime s.sessionToken live) s)
  unfold greet at h
  rw [exec_bind, exec_get] at h
  dsimp only at h
  rw [exec_bind] at h
  cases hhello : exec (helloFrameWithNodes d state simTime s.sessionToken live) s with
  | mk outcome t =>
    rw [hhello] at h hgen
    cases outcome with
    | error e => cases h
    | ok hello =>
      have hone : frames = [hello] → False := by
        rintro rfl
        rw [List.any_cons, isSnapshot_hello hhello] at hsnap
        cases hsnap
      simp only [exec_bind, exec_get] at h
      rintro out rfl
      by_cases heq : out.generation = t.generation
      · exact heq.trans hgen
      · rw [Option.filter_some, if_neg (by simpa using heq)] at h
        obtain ⟨hframes, _⟩ := Prod.mk.inj h
        exact (hone (Except.ok.inj hframes).symm).elim

end Session

/-! ## Calm runs -/

/-- What a connection is doing is of one generation. -/
def Conn.Bound (conn : Conn) : Prop :=
  match conn.task with
  | .greeting _ .generation | .closed => True
  | .greeting held (.descriptor g) => ∀ t ∈ held, t.out.generation = g
  | .greeting held (.state described _) | .greeting held (.time described _ _)
  | .greeting held (.current described _ _ _ _) =>
    conn.session.generation = described ∧ ∀ t ∈ held, t.out.generation = described
  | .draining _ preFrames => conn.hello = conn.session.generation ∧ ∀ e ∈ preFrames, e.Own
  | .waiting | .stepping _ | .seeking _ | .replied => conn.hello = conn.session.generation

namespace Conn

variable {conn : Conn} {c : ℕ}

lemma generation_encodeStep (out : StepOutput) (s : Session) :
    (exec (Session.encodeStep out) s).2.generation = s.generation :=
  congrArg Fixed.generation (Session.fixed_exec (fun _ => Session.fixed_encodeStep out) s)

/-- A step of the run of the session is encoded against its tables. -/
lemma bound_encode {t : Tick} (hhello : conn.hello = conn.session.generation)
    (ht : t.out.generation = conn.session.generation) :
    (conn.encode c t).1.Bound ∧ ∀ e ∈ (conn.encode c t).2, e.Own := by
  have hgen := generation_encodeStep t.out conn.session
  unfold encode
  split
  next fx s hexec =>
    rw [hexec] at hgen
    split
    · exact ⟨trivial, fun e => nofun⟩
    · refine ⟨hhello.trans hgen.symm, fun e he _ out hout => ?_⟩
      obtain rfl := List.mem_singleton.1 he
      obtain rfl := List.mem_singleton.1 hout
      exact ht.trans hhello.symm
  next => exact ⟨trivial, fun e => nofun⟩

/-- Reading the receiver. -/
lemma bound_receive {x : Conn × List Sent} (h : conn.Bound) (hx : conn.receive c = some x) :
    x.1.Bound ∧ ∀ e ∈ x.2, e.Own := by
  unfold receive at hx
  split at hx
  next htask =>
    unfold Bound at h
    rw [htask] at h
    have h : conn.hello = conn.session.generation := h
    split_ifs at hx
    · cases hx
      refine ⟨?_, fun e => nofun⟩
      unfold Bound
      simp only [htask]
      exact h
    · split at hx
      next => cases hx
      next t rest hsteps =>
        split_ifs at hx with hold hnew
        · cases hx
          refine ⟨?_, fun e => nofun⟩
          unfold Bound
          simp only [htask]
          exact h
        · cases hx
          exact ⟨trivial, fun e => nofun⟩
        · cases hx
          exact bound_encode h (by
            show t.out.generation = conn.session.generation
            omega)
  next => cases hx

lemma bound_settle (h : conn.hello = conn.session.generation) (generation : ℕ) :
    (conn.settle generation).Bound := by
  unfold settle Bound
  split_ifs
  · trivial
  · exact h

/-- Draining the receiver. -/
lemma bound_drain {x : Conn × List Sent} (h : conn.Bound) (hown : conn.DrainsOwn)
    (hx : conn.drain c = some x) : x.1.Bound ∧ ∀ e ∈ x.2, e.Own := by
  unfold drain at hx
  split at hx
  next tNs pre htask =>
    unfold Bound at h
    rw [htask] at h
    obtain ⟨hhello, hpre⟩ := h
    split_ifs at hx
    · cases hx
      exact ⟨hhello, hpre⟩
    · split at hx
      next =>
        cases hx
        exact ⟨hhello, hpre⟩
      next t rest hsteps =>
        have ht : t.out.generation = conn.session.generation := hown t (by rw [hsteps]; rfl)
        have hgen := generation_encodeStep t.out conn.session
        split at hx
        next fx s hexec =>
          cases hx
          rw [hexec] at hgen
          refine ⟨⟨hhello.trans hgen.symm, fun e he => ?_⟩, fun e => nofun⟩
          rcases List.mem_append.1 he with he | he
          · exact hpre e he
          · obtain rfl := List.mem_singleton.1 he
            intro _ out hout
            obtain rfl := List.mem_singleton.1 hout
            exact ht.trans hhello.symm
        next err s hexec =>
          cases hx
          rw [hexec] at hgen
          exact ⟨hhello.trans hgen.symm, fun e => nofun⟩
  next => cases hx

end Conn

section Runs

variable {p : Production} {init r r' : Run}

/-- One section of a greeting. -/
lemma bound_greetConn {c : ℕ} {live : Option (List NodeFacts × List String)} {conn : Conn}
    {x : Conn × List Sent} (h : conn.Bound) (hcalm : conn.Unmoved r.generation)
    (hx : r.greetConn p live c conn = some x) : x.1.Bound ∧ ∀ e ∈ x.2, e.Own := by
  unfold Run.greetConn at hx
  unfold Conn.Bound at h
  unfold Conn.Unmoved at hcalm
  split at hx
  next held htask =>
    cases hx
    rw [htask] at hcalm
    refine ⟨?_, fun e => nofun⟩
    cases held with
    | none => exact fun t => nofun
    | some t =>
      rintro _ ⟨⟩
      exact hcalm
  next held g htask =>
    cases hx
    rw [htask] at h hcalm
    have hcalm : g = r.generation := by
      cases held <;> exact hcalm
    exact ⟨⟨hcalm, hcalm ▸ h⟩, fun e => nofun⟩
  next held described d htask =>
    cases hx
    rw [htask] at h
    exact ⟨h, fun e => nofun⟩
  next held described d state htask =>
    cases hx
    rw [htask] at h
    exact ⟨h, fun e => nofun⟩
  next held described d state live simTime htask =>
    rw [htask] at h
    obtain ⟨hbound, hheld⟩ := h
    have hgen := congrArg Fixed.generation (Session.fixed_exec
      (fun _ => Session.fixed_greet d state live simTime (r.current p)) conn.session)
    split at hx
    next frames s hexec =>
      rw [hexec] at hgen
      have hhello : described = s.generation := hbound.symm.trans hgen.symm
      have hsent : Sent.Own ⟨c, none, (r.current p).toList, described, frames⟩ := by
        intro hsnap out hout
        have hout := Session.generation_of_greet hexec hsnap out (Option.mem_toList.1 hout)
        exact hout.trans hbound
      cases held with
      | none =>
        cases hx
        exact ⟨hhello, fun e he => List.mem_singleton.1 he ▸ hsent⟩
      | some t =>
        cases hx
        have henc := @Conn.bound_encode
          { conn with session := s, task := .waiting, hello := described } c t hhello
          ((hheld t rfl).trans hhello)
        refine ⟨henc.1, fun e he => ?_⟩
        rcases List.mem_cons.1 he with rfl | he
        · exact hsent
        · exact henc.2 e he
    next =>
      cases hx
      exact ⟨trivial, fun e => nofun⟩
  next => cases hx

lemma bound_call {conn : Conn} (htask : conn.task = .waiting) (h : conn.Bound) {task : Task}
    (hcall : conn.hello = conn.session.generation → Conn.Bound { conn with task }) :
    Conn.Bound { conn with task } := by
  unfold Conn.Bound at h
  rw [htask] at h
  exact hcall h

/-- A tick keeps what a connection is doing of one generation. -/
lemma bound_tick {w : Ticker} (h : r.Every (fun _ => Conn.Bound) Sent.Own)
    (hr : r.tick p w = some r') : r'.Every (fun _ => Conn.Bound) Sent.Own := by
  have hstep : ∀ (c : ℕ) (conn : Conn) (left left' : ℕ), conn.task = .stepping left →
      conn.Bound → Conn.Bound { conn with task := .stepping left' } := by
    intro c conn left left' htask hbound
    unfold Conn.Bound at hbound
    rw [htask] at hbound
    exact hbound
  unfold Run.tick at hr
  split_ifs at hr
  split at hr
  all_goals
    cases hr
    refine Run.Every.spend ?_ hstep w _
    exact h.congr rfl rfl

/-- **Every calm operation** keeps what a connection is doing of one generation. -/
lemma bound_op {o : Op} (h : r.Every (fun _ => Conn.Bound) Sent.Own)
    (hseek : o.Seekless) (hcalm : r.Calm o) (hr : r.op p o = some r') :
    r'.Every (fun _ => Conn.Bound) Sent.Own := by
  have hreplied : ∀ (c : ℕ) (conn : Conn), conn.task = .waiting → conn.Bound →
      Conn.Bound { conn with task := .replied } :=
    fun c conn htask hbound => bound_call htask hbound fun hhello => hhello
  have hdraining : ∀ (c : ℕ) (tNs : SimTime) (conn : Conn), conn.task = .waiting → conn.Bound →
      Conn.Bound { conn with task := .draining tNs [] } :=
    fun c tNs conn htask hbound => bound_call htask hbound fun hhello => ⟨hhello, fun e => nofun⟩
  unfold Run.op at hr
  cases o with
  | absorb =>
    cases hr
    exact h.congr rfl rfl
  | check k =>
    dsimp only at hr
    split at hr
    all_goals
      cases hr
      exact h.congr rfl rfl
  | rest k =>
    dsimp only at hr
    split_ifs at hr
    cases hr
    exact h.congr rfl rfl
  | tick w => exact bound_tick h hr
  | send w =>
    obtain ⟨t, _, rfl⟩ := Option.map_eq_some_iff.1 hr
    refine h.offer (t := t) (fun c conn hbound => ?_) rfl rfl
    unfold Conn.offer
    split <;> exact hbound
  | start caller paused =>
    dsimp only at hr
    split_ifs at hr
    refine Run.Every.onControl ?_ hreplied hr
    exact h.congr rfl rfl
  | resume caller =>
    dsimp only at hr
    split_ifs at hr
    refine Run.Every.onControl ?_ hreplied hr
    exact h.congr rfl rfl
  | pause caller =>
    dsimp only at hr
    split_ifs at hr
    cases caller with
    | none =>
      cases hr
      exact h.congr rfl rfl
    | some c =>
      refine Run.Every.onCall ?_ (hdraining c _) hr
      exact h.congr rfl rfl
  | step c n =>
    dsimp only at hr
    split_ifs at hr
    refine h.onCall (fun conn htask hbound => ?_) hr
    exact bound_call htask hbound fun hhello => hhello
  | endStep c =>
    dsimp only at hr
    split_ifs at hr
    refine h.onConn (fun conn x _ hbound hx => ?_) hr
    split at hx
    next htask =>
      cases hx
      unfold Conn.Bound at hbound
      rw [htask] at hbound
      exact ⟨⟨hbound, fun e => nofun⟩, fun e => nofun⟩
    next => cases hx
  | drain c =>
    exact h.onConn (fun conn x hconn hbound => Conn.bound_drain hbound (hcalm conn hconn)) hr
  | finish c =>
    refine h.onConn (fun conn x _ hbound hx => ?_) hr
    unfold Conn.finish at hx
    split at hx
    next htask =>
      cases hx
      unfold Conn.Bound at hbound
      rw [htask] at hbound
      exact ⟨Conn.bound_settle hbound _, fun e => nofun⟩
    next => cases hx
  | receive c => exact h.onConn (fun conn x _ hbound => Conn.bound_receive hbound) hr
  | notice c =>
    refine h.onConn (fun conn x _ hbound hx => ?_) hr
    unfold Conn.notice at hx
    split at hx
    next htask =>
      cases hx
      unfold Conn.Bound at hbound
      rw [htask] at hbound
      exact ⟨Conn.bound_settle hbound _, fun e => nofun⟩
    next => cases hx
  | greet c live =>
    exact h.onConn (fun conn x hconn hbound => bound_greetConn hbound (hcalm conn hconn)) hr
  | _ => exact hseek.elim

lemma runs_step {o : Op} {u : Unit} (h : (runs p init).step r o = .ok (u, r')) :
    r.op p o = some r' := by
  unfold runs at h
  dsimp only at h
  split at h
  next r'' hr =>
    cases h
    exact hr
  next => cases h

/-- **The snapshots of calm runs** are of the run the client was told of. -/
theorem snapshots_own {os : List Op} {us : List Unit} (hinit : init.Greeted)
    (h : (runs p init).StepsIf (fun r o => o.Seekless ∧ r.Calm o) init os us r) :
    ∀ e ∈ r.log, e.Own := by
  have hevery : init.Every (fun _ => Conn.Bound) Sent.Own := by
    refine ⟨fun c conn hconn => ?_, fun e he => ?_⟩
    · unfold Conn.Bound
      rw [hinit.waiting c conn hconn]
      exact hinit.hello c conn hconn
    · rw [hinit.log] at he
      cases he
  exact (h.invariant hevery fun r o _ r' hr hG hstep =>
    bound_op hr hG.1 hG.2 (runs_step hstep)).log

end Runs

/-! ## Examples -/

/-- Runs of ten empty steps. -/
def bareProduction : Production where
  descriptor _ := bareRun
  output _ i := bareStep (UInt64.ofNat i) []
  length _ := 10
  retain := 100
  step_pos _ := by decide
  simTime_eq _ i := (UInt64.ofNat_mul i 100000000).symm
  bounded _ i h := by
    show i * 100000000 < 2 ^ 64
    omega
  slots _ _ := List.Pairwise.nil
  recorded_eq _ _ := rfl

/-- A connection that waits on the first run. -/
def bareConn : Conn where
  steps := []
  missed := 0
  session := (Session.new ⟨none, .full⟩ bareRun).bind 0 "token"
  task := .waiting
  hello := 0

/-- The first run, before its first step, with the connections below a number. -/
def bareLive (conns : ℕ) (paused : Bool) : Run where
  engine := LiveEngine.new paused
  generation := 0
  conns c := if c < conns then some bareConn else none
  ready _ := false
  flight _ := none
  ticks := []
  casts := []
  log := []

/-- Its connections were greeted. -/
lemma greeted_bareLive (conns : ℕ) (paused : Bool) : (bareLive conns paused).Greeted where
  waiting c conn hconn := by
    unfold bareLive at hconn
    dsimp only at hconn
    split_ifs at hconn
    cases hconn
    rfl
  hello c conn hconn := by
    unfold bareLive at hconn
    dsimp only at hconn
    split_ifs at hconn
    cases hconn
    rfl
  log := rfl

/-- One step of the producer. -/
def produce : List Op := [.absorb, .check 0, .tick (.task 0), .send (.task 0)]

/-- A greeting that nothing comes between. -/
def greetAtOnce (c : ℕ) : List Op := List.replicate 5 (.greet c none)

/-- A connection that is told of the next run before its call drains a step of it. -/
theorem snapshots_own_bare : ∃ us r,
    (runs bareProduction (bareLive 1 false)).StepsIf (fun r o => o.Seekless ∧ r.Calm o)
      (bareLive 1 false)
      (produce ++ [.receive 0, .pause none, .start none false, .notice 0] ++ greetAtOnce 0 ++
        produce ++ [.pause (some 0), .drain 0, .drain 0, .finish 0]) us r ∧
    r.log.map (fun e => (e.snapshot, e.hello)) = [(true, 0), (false, 1), (true, 1)] ∧
    ∀ e ∈ r.log, e.Own := by
  have hrun : ((runs bareProduction (bareLive 1 false)).runIf
      (fun r o => decide (o.Seekless ∧ r.Calm o)) (bareLive 1 false)
      (produce ++ [.receive 0, .pause none, .start none false, .notice 0] ++ greetAtOnce 0 ++
        produce ++ [.pause (some 0), .drain 0, .drain 0, .finish 0])).any (fun x => decide
      (x.2.log.map (fun e => (e.snapshot, e.hello)) = [(true, 0), (false, 1), (true, 1)])) =
      true := by decide +kernel
  obtain ⟨us, r, hrun, hp⟩ := (runs bareProduction (bareLive 1 false)).exists_stepsIf
    (fun r o h => of_decide_eq_true h) hrun
  exact ⟨us, r, hrun, of_decide_eq_true hp, snapshots_own (greeted_bareLive 1 false) hrun⟩

/-- **A snapshot of another run**: someone starts the next run, and its first step is drained by a
`run.pause` of a connection that is not told yet. -/
theorem snapshot_foreign : (bareLive 1 true).Greeted ∧ ∃ us r,
    (runs bareProduction (bareLive 1 true)).StepsIf (fun _ o => o.Seekless) (bareLive 1 true)
      ([.start none false] ++ produce ++ [.pause (some 0), .drain 0, .drain 0]) us r ∧
    ¬ ∀ e ∈ r.log, e.Own := by
  have hrun : ((runs bareProduction (bareLive 1 true)).runIf (fun _ o => decide o.Seekless)
      (bareLive 1 true)
      ([.start none false] ++ produce ++ [.pause (some 0), .drain 0, .drain 0])).any
      (fun x => x.2.log.any fun e => e.snapshot && e.outs.any fun out =>
        decide (out.generation ≠ e.hello)) = true := by decide +kernel
  obtain ⟨us, r, hrun, hp⟩ := (runs bareProduction (bareLive 1 true)).exists_stepsIf
    (fun r o h => of_decide_eq_true h) hrun
  obtain ⟨e, he, hp⟩ := List.any_eq_true.1 hp
  rw [Bool.and_eq_true] at hp
  obtain ⟨out, hout, hne⟩ := List.any_eq_true.1 hp.2
  exact ⟨greeted_bareLive 1 true, us, r, hrun,
    fun h => of_decide_eq_true hne (h e he hp.1 out hout)⟩

end V2xw.Server
