import Mathlib.Logic.Function.Basic
import V2xw.Server.Encode

/-!
# A live run and its connections

One live run with any number of connections, in `crates/v2xw-server/src`: the engine of `live.rs`
behind its lock, the broadcast of `run.rs`, and the tasks of `http.rs` with the calls of `rpc.rs`.
A parked session (`resume.rs`) follows the steps as a connection does.

Everything that happens under one lock is one operation, and the operations of different tasks may
come in any order: a tick leaves the lock between the step of the engine and its broadcast, and a
greeting reads the generation, the descriptor, the state, the time and the current step one after
the other. When the engine takes the steps of its kernel is left open. A kernel does not fail.

## Main definitions

* `Production` — what the kernels of a process compute.
* `LiveEngine` — the engine: a position in the steps its kernel has produced.
* `Conn` — a connection: its receiver, its session and what its task is doing.
* `Run` — the run, with a log of everything its connections sent.
* `Run.op` — one operation of a task.
* `runs` — the run as a machine.
-/

namespace V2xw.Server

open Record (SimTime MsgType)
open Stream.Proc (exec)

/-! ## The engine -/

/-- What the kernels of a process compute, and the projector of the engine makes of it: each
`run.start` begins the next run. -/
structure Production where
  descriptor : ℕ → RunDescriptor
  /-- The steps of a run, by their index. -/
  output : ℕ → ℕ → StepOutput
  length : ℕ → ℕ
  /-- How many steps are retained. -/
  retain : ℕ
  /-- The cadence of a run has a mobility step. -/
  step_pos : ∀ g, 0 < (descriptor g).cadence.mobilityStep.toNat
  /-- Steps are a mobility step apart. -/
  simTime_eq : ∀ g i, (output g i).snapshot.simTime =
    UInt64.ofNat (i * (descriptor g).cadence.mobilityStep.toNat)
  /-- No instant of a run is too late for its field. -/
  bounded : ∀ g i, i < length g → i * (descriptor g).cadence.mobilityStep.toNat < 2 ^ 64
  /-- Every actor has a slot of its own. -/
  slots : ∀ g i, (output g i).snapshot.actors.Pairwise fun a b => a.slot ≠ b.slot
  /-- A live step has nothing recorded. -/
  recorded_eq : ∀ g i, (output g i).recorded = []

/-- A number of nanoseconds as an instant: it saturates. -/
def instant (ns : ℕ) : SimTime := UInt64.ofNat (min ns (2 ^ 64 - 1))

namespace Production

variable (p : Production) (g : ℕ)

/-- The mobility step. -/
def stepNs : ℕ := max (p.descriptor g).cadence.mobilityStep.toNat 1

/-- The largest number of deltas in a group of pictures. -/
def perGop : ℕ := max (p.descriptor g).cadence.maxDeltasPerGop.toNat 1

end Production

/-- The engine of a live run. -/
structure LiveEngine where
  state : RunState
  /-- The index of the next step of the stream. -/
  cursor : ℕ
  /-- The index of the oldest retained step. -/
  base : ℕ
  /-- How many steps the kernel has produced. -/
  produced : ℕ
  /-- Whether the kernel reported its end. -/
  report : Bool
  /-- A seek waits for this step. -/
  seekGoal : Option ℕ
  deriving DecidableEq

namespace LiveEngine

variable (p : Production) (g : ℕ) (e : LiveEngine)

/-- The engine of a run that begins. -/
def new (paused : Bool) : LiveEngine where
  state := if paused then .paused else .running
  cursor := 0
  base := 0
  produced := 0
  report := false
  seekGoal := none

/-- Whether a step is retained. -/
def has (index : ℕ) : Bool := decide (e.base ≤ index ∧ index < e.produced)

/-- A retained step. -/
def at? (index : ℕ) : Option StepOutput :=
  if e.has index then some (p.output g index) else none

/-- The instant of the last step of the stream. -/
def simTime : SimTime := instant ((e.cursor - 1) * p.stepNs g)

/-- The last step of the stream. -/
def current : Option StepOutput := if e.cursor = 0 then none else e.at? p g (e.cursor - 1)

/-- Takes one message of the kernel: a step, or the report of its end. The oldest steps leave the
window when it is full. Only a seek that waits lets it slide past the position of the stream, which
then goes with it. -/
def absorb : LiveEngine :=
  if e.produced < p.length g then
    let excess := e.produced + 1 - e.base - p.retain
    let base := e.base + if e.seekGoal.isSome then excess else min excess (e.cursor - e.base)
    { e with produced := e.produced + 1, base, cursor := max e.cursor base }
  else { e with report := true }

/-- The next step of the stream, if it is there. -/
def step : Option StepOutput × LiveEngine :=
  match e.at? p g e.cursor with
  | some out =>
    (some out,
      { e with cursor := e.cursor + 1, state := if out.endOfRun then .finished else e.state })
  | none =>
    (none,
      if e.report ∨ (p.descriptor g).duration.toNat ≤ e.cursor * p.stepNs g then
        { e with state := .finished }
      else e)

/-- The seekable range. -/
def seekRange : SimTime × SimTime :=
  (instant (e.base * p.stepNs g),
    max (instant ((e.produced - 1) * p.stepNs g)) (instant (e.base * p.stepNs g)))

/-- The steps of a seek: from the start of the group of pictures. -/
def sought (target : ℕ) : List StepOutput :=
  let first := max (target - target % p.perGop g) e.base
  (List.range' first (target + 1 - first)).filterMap (e.at? p g)

/-- Positions the stream at an instant. A run that is moving is paused. -/
def seek (t : SimTime) : Option (List StepOutput) × LiveEngine :=
  let e := { e with seekGoal := none }
  let target := t.toNat / p.stepNs g
  if t < (e.seekRange p g).1 ∨ (e.seekRange p g).2 < t ∨ e.sought p g target = [] then (none, e)
  else
    (some (e.sought p g target),
      { e with
        cursor := target + 1
        state := if e.state = .running then .paused else e.state })

/-- A seek waits for a step that is not there yet. -/
def extendTo (t : SimTime) : LiveEngine :=
  let goal := min t.toNat (p.descriptor g).duration.toNat / p.stepNs g
  if e.has goal ∨ e.report then e else { e with seekGoal := some goal }

end LiveEngine

/-! ## Connections -/

/-- A step the engine has made, stamped with its generation. -/
structure Tick where
  /-- How many ticks there were before it. -/
  serial : ℕ
  out : StepOutput

/-- The sections of a greeting, with what was read in those before. -/
inductive Greeting
  /-- The generation is read next. -/
  | generation
  /-- The descriptor is read next. -/
  | descriptor (generation : ℕ)
  /-- The state is read next. The descriptor is that of the generation `described`. -/
  | state (described : ℕ) (d : RunDescriptor)
  /-- The node table and the time are read next. -/
  | time (described : ℕ) (d : RunDescriptor) (state : RunState)
  /-- The current step is read next. -/
  | current (described : ℕ) (d : RunDescriptor) (state : RunState)
      (live : Option (List NodeFacts × List String)) (simTime : SimTime)

/-- Frames a connection sent: what they encode, and what its client was told of the run. -/
structure Sent where
  conn : ℕ
  /-- The tick they come from, if they come from one. -/
  serial : Option ℕ
  outs : List StepOutput
  /-- The generation the last `Hello` described. -/
  hello : ℕ
  frames : List Frame

/-- Whether a snapshot is among the frames sent. -/
def Sent.snapshot (e : Sent) : Bool := e.frames.any Frame.isSnapshot

/-- What the task of a connection is doing. -/
inductive Task
  /-- It waits for something to happen. -/
  | waiting
  /-- It greets its client, and then encodes the step that made it do so, if there is one. -/
  | greeting (held : Option Tick) (stage : Greeting)
  /-- It makes the ticks of a `run.step`. -/
  | stepping (left : ℕ)
  /-- It drains its receiver before it replies with a time. -/
  | draining (tNs : SimTime) (preFrames : List Sent)
  /-- It has positioned the run, and encodes the answer of a seek. -/
  | seeking (outs : List StepOutput)
  | replied
  | closed

/-- One connection. -/
structure Conn where
  steps : List Tick
  /-- How many steps the receiver lost since it was read. -/
  missed : ℕ
  session : Session
  task : Task
  /-- The generation its last `Hello` described. -/
  hello : ℕ

/-- The capacity of the broadcast of steps. -/
def stepChannelCapacity : ℕ := 64

namespace Conn

variable (conn : Conn) (c : ℕ)

/-- A step is broadcast: a receiver that is full loses its oldest one. -/
def offer (t : Tick) : Conn :=
  if conn.steps.length < stepChannelCapacity then { conn with steps := conn.steps ++ [t] }
  else { conn with steps := conn.steps.drop 1 ++ [t], missed := conn.missed + 1 }

/-- What a connection sends for a step. -/
def sentStep (t : Tick) (fx : StepEffects) : Sent :=
  ⟨c, some t.serial, [t.out], conn.hello, fx.frames⟩

/-- The loop encodes a step. A step that fails, or overflows the queue, ends the connection. -/
def encode (t : Tick) : Conn × List Sent :=
  match exec (Session.encodeStep t.out) conn.session with
  | (.ok fx, s) =>
    if fx.fatal then ({ conn with session := s, task := .closed }, [])
    else ({ conn with session := s, task := .waiting }, [conn.sentStep c t fx])
  | (.error _, s) => ({ conn with session := s, task := .closed }, [])

/-- The loop reads the receiver. A step of an earlier run is skipped, and one of a later run is
encoded after a greeting. -/
def receive : Option (Conn × List Sent) :=
  match conn.task with
  | .waiting =>
    if 0 < conn.missed then
      some ({ conn with missed := 0, session := conn.session.requestResync }, [])
    else
      match conn.steps with
      | [] => none
      | t :: rest =>
        if t.out.generation < conn.session.generation then some ({ conn with steps := rest }, [])
        else if conn.session.generation < t.out.generation then
          some ({ conn with steps := rest, task := .greeting (some t) .generation }, [])
        else some ({ conn with steps := rest }.encode c t)
  | _ => none

/-- The task of a connection that is not on the generation of the run: it greets. -/
def settle (generation : ℕ) : Conn :=
  { conn with
    task := if conn.session.generation ≠ generation then .greeting none .generation else .waiting }

/-- The loop is told of another generation. -/
def notice (generation : ℕ) : Option (Conn × List Sent) :=
  match conn.task with
  | .waiting => some (conn.settle generation, [])
  | _ => none

/-- What a call leaves behind: the caller follows the run. -/
def finish (generation : ℕ) : Option (Conn × List Sent) :=
  match conn.task with
  | .replied => some (conn.settle generation, [])
  | _ => none

/-- `drain_pending` takes one step, or finds nothing and replies. A step is encoded whatever its
generation, and one that fails takes the place of the reply. -/
def drain : Option (Conn × List Sent) :=
  match conn.task with
  | .draining tNs preFrames =>
    if 0 < conn.missed then some ({ conn with missed := 0, task := .replied }, preFrames)
    else
      match conn.steps with
      | [] => some ({ conn with task := .replied }, preFrames)
      | t :: rest =>
        match exec (Session.encodeStep t.out) conn.session with
        | (.ok fx, s) =>
          some ({ conn with
            steps := rest
            session := s
            task := .draining tNs (preFrames ++ [conn.sentStep c t fx]) }, [])
        | (.error _, s) => some ({ conn with steps := rest, session := s, task := .waiting }, [])
  | _ => none

/-- The caller of a seek encodes its answer, if it is on the generation of the run. -/
def answer (generation : ℕ) : Option (Conn × List Sent) :=
  match conn.task with
  | .seeking outs =>
    if conn.session.generation ≠ generation then some ({ conn with task := .waiting }, [])
    else
      match exec (Session.encodeSeek outs) conn.session with
      | (.ok a, s) =>
        some ({ conn with session := s, task := .replied }, [⟨c, none, outs, conn.hello, a.frames⟩])
      | (.error _, s) => some ({ conn with session := s, task := .waiting }, [])
  | _ => none

end Conn

/-! ## The run -/

/-- Whoever makes ticks. -/
inductive Ticker
  /-- Task 0 is the producer, and the others are `run.step` calls that come over HTTP. -/
  | task (k : ℕ)
  /-- The `run.step` call of a connection. -/
  | conn (c : ℕ)
  deriving DecidableEq

/-- A run, its connections, and what has happened. -/
structure Run where
  engine : LiveEngine
  generation : ℕ
  conns : ℕ → Option Conn
  /-- The tasks that are about to tick. -/
  ready : ℕ → Bool
  /-- The step that a ticker has not broadcast yet. -/
  flight : Ticker → Option Tick
  ticks : List Tick
  /-- Every step broadcast, in order. -/
  casts : List Tick
  log : List Sent

/-- What happens. -/
inductive Op
  /-- The engine takes a message of its kernel. -/
  | absorb
  /-- A seek waits for the kernel. -/
  | extendTo (t : SimTime)
  /-- A task looks at the state of the run, before it ticks. -/
  | check (k : ℕ)
  /-- A task makes no further tick. -/
  | rest (k : ℕ)
  | tick (w : Ticker)
  | send (w : Ticker)
  /-- `run.start`, by a connection or by someone else. -/
  | start (caller : Option ℕ) (paused : Bool)
  | resume (caller : Option ℕ)
  /-- `run.pause` stops the run and takes the time of its reply. Nothing is drained for someone who
  has no connection. -/
  | pause (caller : Option ℕ)
  | step (c n : ℕ)
  /-- `run.step` takes the time of its reply. -/
  | endStep (c : ℕ)
  /-- `run.pause` and `run.step` drain the receiver, and reply. -/
  | drain (c : ℕ)
  /-- `run.seek` positions the run. -/
  | seek (c : ℕ) (t : SimTime)
  | answer (c : ℕ)
  | finish (c : ℕ)
  /-- A connection reads its receiver. -/
  | receive (c : ℕ)
  /-- A connection is told of another generation. -/
  | notice (c : ℕ)
  /-- The next section of a greeting, with the node table of the engine. -/
  | greet (c : ℕ) (live : Option (List NodeFacts × List String))

namespace Run

variable (p : Production) (r : Run)

/-- The current step, stamped. -/
def current : Option StepOutput :=
  (r.engine.current p r.generation).map fun out => { out with generation := r.generation }

/-- One operation of a connection on itself. -/
def onConn (c : ℕ) (f : Conn → Option (Conn × List Sent)) : Option Run :=
  (r.conns c).bind fun conn => (f conn).map fun x =>
    { r with conns := Function.update r.conns c (some x.1), log := r.log ++ x.2 }

/-- A connection that waits is called, and goes on with a task. -/
def onCall (c : ℕ) (task : Task) : Option Run :=
  r.onConn c fun conn =>
    match conn.task with
    | .waiting => some ({ conn with task }, [])
    | _ => none

/-- A call of a connection, or of someone else, whose reply has nothing to wait for. -/
def onControl (caller : Option ℕ) : Option Run :=
  match caller with
  | some c => r.onCall c .replied
  | none => some r

/-- One section of the greeting of a connection. -/
def greetConn (live : Option (List NodeFacts × List String)) (c : ℕ) (conn : Conn) :
    Option (Conn × List Sent) :=
  match conn.task with
  | .greeting held .generation =>
    some ({ conn with task := .greeting held (.descriptor r.generation) }, [])
  | .greeting held (.descriptor g) =>
    let d := p.descriptor r.generation
    some ({ conn with
      session := { conn.session.forNewRun d with generation := g }
      task := .greeting held (.state r.generation d) }, [])
  | .greeting held (.state described d) =>
    some ({ conn with task := .greeting held (.time described d r.engine.state) }, [])
  | .greeting held (.time described d state) =>
    some ({ conn with
      task := .greeting held (.current described d state live
        (r.engine.simTime p r.generation)) }, [])
  | .greeting held (.current described d state live simTime) =>
    match exec (Session.greet d state live simTime (r.current p)) conn.session with
    | (.ok frames, s) =>
      let conn := { conn with session := s, task := .waiting, hello := described }
      let sent : Sent := ⟨c, none, (r.current p).toList, described, frames⟩
      match held with
      | some t =>
        let x := conn.encode c t
        some (x.1, sent :: x.2)
      | none => some (conn, [sent])
    | (.error _, s) => some ({ conn with session := s, task := .closed }, [])
  | _ => none

/-- Whether a ticker is about to tick. -/
def canTick : Ticker → Bool
  | .task k => r.ready k
  | .conn c =>
    match (r.conns c).map Conn.task with
    | some (.stepping (_ + 1)) => true
    | _ => false

/-- A tick takes one of those a `run.step` has left; a run that has nothing more takes all. -/
def spend (w : Ticker) (all : Bool) : Run :=
  match w with
  | .task k => { r with ready := if all then Function.update r.ready k false else r.ready }
  | .conn c =>
    { r with
      conns := Function.update r.conns c ((r.conns c).map fun conn =>
        match conn.task with
        | .stepping left => { conn with task := .stepping (if all then 0 else left - 1) }
        | _ => conn) }

/-- The section of a tick under the lock: the engine makes a step, which is stamped. -/
def tick (w : Ticker) : Option Run :=
  if r.canTick w = true ∧ r.flight w = none then
    match r.engine.step p r.generation with
    | (some out, engine) =>
      let t : Tick := ⟨r.ticks.length, { out with generation := r.generation }⟩
      let r := { r with
        engine
        ticks := r.ticks ++ [t]
        flight := Function.update r.flight w (some t) }
      some (r.spend w false)
    | (none, engine) => some ({ r with engine }.spend w true)
  else none

/-- The section of a tick after the lock: the step is broadcast. The producer looks at the state
again before its next tick. -/
def send (w : Ticker) : Option Run :=
  (r.flight w).map fun t =>
    { r with
      conns := fun c => (r.conns c).map fun conn => conn.offer t
      casts := r.casts ++ [t]
      flight := Function.update r.flight w none
      ready := if w = .task 0 then Function.update r.ready 0 false else r.ready }

/-- One operation of a task. -/
def op : Op → Option Run
  | .absorb => some { r with engine := r.engine.absorb p r.generation }
  | .extendTo t => some { r with engine := r.engine.extendTo p r.generation t }
  | .check k =>
    -- The producer ticks while the run is moving, and `run.step` while it is not.
    if k = 0 ↔ r.engine.state = .running then
      some { r with ready := Function.update r.ready k true }
    else some r
  | .rest k =>
    if r.flight (.task k) = none then some { r with ready := Function.update r.ready k false }
    else none
  | .tick w => r.tick p w
  | .send w => r.send w
  | .start caller paused =>
    if r.engine.state = .running then none
    else
      { r with engine := LiveEngine.new paused, generation := r.generation + 1 }.onControl caller
  | .resume caller =>
    if r.engine.state = .paused then
      { r with engine := { r.engine with state := .running } }.onControl caller
    else none
  | .pause caller =>
    if r.engine.state = .running then
      let r := { r with engine := { r.engine with state := .paused } }
      match caller with
      | some c => r.onCall c (.draining (r.engine.simTime p r.generation) [])
      | none => some r
    else none
  | .step c n => if r.engine.state = .running then none else r.onCall c (.stepping n)
  | .endStep c =>
    if r.flight (.conn c) = none then
      r.onConn c fun conn =>
        match conn.task with
        | .stepping 0 =>
          some ({ conn with task := .draining (r.engine.simTime p r.generation) [] }, [])
        | _ => none
    else none
  | .drain c => r.onConn c fun conn => conn.drain c
  | .seek c t =>
    match r.engine.seek p r.generation t with
    | (some outs, engine) => { r with engine }.onCall c (.seeking outs)
    | (none, engine) => some { r with engine }
  | .answer c => r.onConn c fun conn => conn.answer c r.generation
  | .finish c => r.onConn c fun conn => conn.finish r.generation
  | .receive c => r.onConn c fun conn => conn.receive c
  | .notice c => r.onConn c fun conn => conn.notice r.generation
  | .greet c live => r.onConn c (r.greetConn p live c)

end Run

/-! ## Connections along a run -/

namespace Run

variable {p : Production} {r r' : Run} {c : ℕ} {f : Conn → Option (Conn × List Sent)}

/-- **What a connection does with itself.** -/
lemma onConn_eq_some : r.onConn c f = some r' ↔
    ∃ conn x, r.conns c = some conn ∧ f conn = some x ∧
      r' = { r with conns := Function.update r.conns c (some x.1), log := r.log ++ x.2 } := by
  simp only [onConn, Option.bind_eq_some_iff, Option.map_eq_some_iff]
  constructor
  · rintro ⟨conn, hconn, x, hx, rfl⟩
    exact ⟨conn, x, hconn, hx, rfl⟩
  · rintro ⟨conn, x, hconn, hx, rfl⟩
    exact ⟨conn, hconn, x, hx, rfl⟩

/-- **A call begins** when its connection waits. -/
lemma onCall_eq_some {task : Task} : r.onCall c task = some r' ↔
    ∃ conn, r.conns c = some conn ∧ conn.task = .waiting ∧
      r' = { r with conns := Function.update r.conns c (some { conn with task }) } := by
  rw [onCall, onConn_eq_some]
  constructor
  · rintro ⟨conn, x, hconn, hx, rfl⟩
    split at hx
    next htask =>
      cases hx
      exact ⟨conn, hconn, htask, by simp only [List.append_nil]⟩
    next => cases hx
  · rintro ⟨conn, hconn, htask, rfl⟩
    refine ⟨conn, ({ conn with task }, []), hconn, ?_, by simp only [List.append_nil]⟩
    simp only [htask]

/-- A property of every connection, and one of everything that was sent. -/
structure Every (P : ℕ → Conn → Prop) (Q : Sent → Prop) (r : Run) : Prop where
  conns : ∀ c conn, r.conns c = some conn → P c conn
  log : ∀ e ∈ r.log, Q e

variable {P : ℕ → Conn → Prop} {Q : Sent → Prop}

lemma Every.congr (h : r.Every P Q) (hconns : r'.conns = r.conns) (hlog : r'.log = r.log) :
    r'.Every P Q where
  conns := hconns ▸ h.conns
  log := hlog ▸ h.log

lemma Every.update (h : r.Every P Q) {conn : Conn} {sent : List Sent} (hP : P c conn)
    (hQ : ∀ e ∈ sent, Q e) :
    { r with conns := Function.update r.conns c (some conn), log := r.log ++ sent }.Every P Q where
  conns c' conn' hc' := by
    have hc' : Function.update r.conns c (some conn) c' = some conn' := hc'
    by_cases hc : c' = c
    · subst hc
      rw [Function.update_self, Option.some.injEq] at hc'
      exact hc' ▸ hP
    · rw [Function.update_of_ne hc] at hc'
      exact h.conns c' conn' hc'
  log e he := (List.mem_append.1 he).elim (h.log e) (hQ e)

/-- **One operation of a connection on itself** keeps what it keeps of that connection. -/
lemma Every.onConn (h : r.Every P Q)
    (hf : ∀ conn x, r.conns c = some conn → P c conn → f conn = some x →
      P c x.1 ∧ ∀ e ∈ x.2, Q e) (hr : r.onConn c f = some r') : r'.Every P Q := by
  obtain ⟨conn, x, hconn, hx, rfl⟩ := onConn_eq_some.1 hr
  obtain ⟨hP, hQ⟩ := hf conn x hconn (h.conns c conn hconn) hx
  exact h.update hP hQ

lemma Every.onCall {task : Task} (h : r.Every P Q)
    (hf : ∀ conn, conn.task = .waiting → P c conn → P c { conn with task })
    (hr : r.onCall c task = some r') : r'.Every P Q := by
  obtain ⟨conn, hconn, htask, rfl⟩ := onCall_eq_some.1 hr
  have h := h.update (hf conn htask (h.conns c conn hconn))
    (show ∀ e ∈ [], Q e from nofun)
  rw [List.append_nil] at h
  exact h

lemma Every.onControl {caller : Option ℕ} (h : r.Every P Q)
    (hf : ∀ c conn, conn.task = .waiting → P c conn → P c { conn with task := .replied })
    (hr : r.onControl caller = some r') : r'.Every P Q := by
  cases caller with
  | some c => exact h.onCall (hf c) hr
  | none =>
    cases hr
    exact h

/-- The tick of a connection is spent. -/
lemma Every.spend (h : r.Every P Q)
    (hf : ∀ c conn left left', conn.task = .stepping left → P c conn →
      P c { conn with task := .stepping left' }) (w : Ticker) (all : Bool) :
    (r.spend w all).Every P Q := by
  cases w with
  | task k => exact ⟨h.conns, h.log⟩
  | conn c =>
    refine ⟨fun c' conn' hc' => ?_, h.log⟩
    by_cases hc : c' = c
    · subst hc
      simp only [Run.spend, Function.update_self, Option.map_eq_some_iff] at hc'
      obtain ⟨conn, hconn, rfl⟩ := hc'
      have hP := h.conns c' conn hconn
      split
      next left htask => exact hf c' conn left _ htask hP
      next => exact hP
    · simp only [Run.spend, Function.update_of_ne hc] at hc'
      exact h.conns c' conn' hc'

lemma Every.offer {t : Tick} (h : r.Every P Q) (hf : ∀ c conn, P c conn → P c (conn.offer t))
    (hr : r'.conns = fun c => (r.conns c).map fun conn => conn.offer t) (hlog : r'.log = r.log) :
    r'.Every P Q where
  conns c conn hc := by
    rw [hr] at hc
    obtain ⟨conn, hconn, rfl⟩ := Option.map_eq_some_iff.1 hc
    exact hf c conn (h.conns c conn hconn)
  log := hlog ▸ h.log

end Run

/-- A run as a machine. A call that is refused changes nothing, and is left out. -/
def runs (p : Production) (init : Run) : Machine Run Op Unit Unit where
  init
  step r o :=
    match r.op p o with
    | some r' => .ok ((), r')
    | none => .error ()

end V2xw.Server
