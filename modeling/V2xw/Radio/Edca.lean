import Mathlib.Data.List.Sort
import Mathlib.Logic.Function.Basic
import V2xw.Radio.Types

/-!
# The two contention models

The medium access models of `crates/v2xw-radio/src/mac.rs`: the state machine with four access
categories, and the slotted abstraction. Both are driven: the engine enqueues frames, reports when
the medium becomes busy or idle, and polls.

A node on a channel has its own state, and a node its own random stream, read in the order of the
calls. Instants do not wrap around.

## Main definitions

* `CbrMeter` — the busy intervals of the medium.
* `Backoff`, `EdcaState` — countdowns, and the state of a node on a channel.
* `EdcaState.enqueue`, `EdcaState.onCca`, `EdcaState.nextPollAt`,
  `EdcaState.poll` — the state machine.
* `SlottedState.enqueue`, `SlottedState.onCca`,
  `SlottedState.nextPollAt`, `SlottedState.poll` — the abstraction.
-/

namespace V2xw.Radio

open Core (SimTime Duration)

/-! ## The load of the medium -/

/-- The busy intervals of the medium, in start order. -/
structure CbrMeter where
  window : Duration
  busy : List (SimTime × SimTime)
  /-- When the medium became busy, while it is. -/
  opened : Option SimTime
  deriving DecidableEq, Repr

namespace CbrMeter

/-- A meter over 100 ms. -/
def new : CbrMeter := ⟨Duration.fromMillis 100, [], none⟩

/-- Forgets the intervals before the window. -/
def prune (m : CbrMeter) (now : SimTime) : CbrMeter :=
  { m with busy := m.busy.dropWhile fun i => decide (i.2 ≤ now - m.window.ns) }

/-- The medium became busy. -/
def busyFrom (m : CbrMeter) (t : SimTime) : CbrMeter :=
  match m.opened with
  | none => { m with opened := some t }
  | some _ => m

/-- The medium became idle. -/
def idleAt (m : CbrMeter) (t : SimTime) : CbrMeter :=
  match m.opened with
  | none => m
  | some start =>
    let m := { m with opened := none }
    if start < t then prune { m with busy := m.busy ++ [(start, t)] } t else m

/-- Intervals by start, then by end. -/
def before (i j : SimTime × SimTime) : Bool := decide (i.1 < j.1 ∨ i.1 = j.1 ∧ i.2 ≤ j.2)

/-- The medium was busy for an interval. -/
def noteBusy (m : CbrMeter) (start stop : SimTime) : CbrMeter :=
  if start < stop then prune { m with busy := (m.busy ++ [(start, stop)]).mergeSort before } stop
  else m

end CbrMeter

/-- What the medium is reported to be. -/
inductive CcaState
  | idle
  | busy
  deriving DecidableEq, Repr

/-! ## The state machine -/

/-- The countdown of an access category. -/
structure Backoff where
  remaining : ℕ
  drawn : ℕ
  /-- When the countdown resumes. Nothing while it is frozen. -/
  resumeAt : Option SimTime
  aifsNs : ℕ
  deriving DecidableEq, Repr

/-- When a running countdown reaches zero. -/
def Backoff.dueAt (b : Backoff) : Option SimTime := b.resumeAt.map fun r => r + b.remaining * slotNs

/-- The state of a node on a channel. -/
structure EdcaState where
  queues : AccessCategory → List MacSdu
  backoff : AccessCategory → Option Backoff
  busy : Bool
  /-- When the medium became idle. Nothing before the first report. -/
  idleSince : Option SimTime
  cbr : CbrMeter
  granted : AccessCategory → ℕ
  internalCollisions : ℕ
  grantedAirtimeNs : ℕ
  /-- Frames dropped for a full queue. -/
  dropped : ℕ

namespace EdcaState

/-- A node before its first call. -/
def default : EdcaState where
  queues := fun _ => []
  backoff := fun _ => none
  busy := false
  idleSince := none
  cbr := CbrMeter.new
  granted := fun _ => 0
  internalCollisions := 0
  grantedAirtimeNs := 0
  dropped := 0

/-- The countdown of the first frame of an access category. -/
def arm (s : EdcaState) (now : SimTime) (ac : AccessCategory) (slots : ℕ) : Backoff :=
  let idleFor : Option ℕ := if s.busy then none else some (now - s.idleSince.getD 0)
  let aifsMet := idleFor.any fun d => decide (ac.aifs.ns ≤ d)
  if aifsMet then ⟨0, 0, some now, 0⟩
  else
    let resumeAt : Option SimTime :=
      if s.busy then none
      else some (max (s.idleSince.getD 0) (now - ac.aifs.ns) + ac.aifs.ns)
    ⟨slots, slots, resumeAt, (resumeAt.map fun r => r - now).getD ac.aifs.ns⟩

/-- Queues a frame. A draw is taken unless the frame is too large. -/
def enqueue (depth : ℕ) (now : SimTime) (draw : UInt64) (sdu : MacSdu) (ac : AccessCategory)
    (s : EdcaState) : Except DropCause Unit × EdcaState :=
  let slots := below draw (ac.cwMin + 1)
  if depth ≤ (s.queues ac).length then
    (.error (.queueFull ac.label depth), { s with dropped := s.dropped + 1 })
  else
    let s := { s with queues := Function.update s.queues ac (s.queues ac ++ [sdu]) }
    match s.backoff ac with
    | some _ => (.ok (), s)
    | none => (.ok (), { s with backoff := Function.update s.backoff ac (s.arm now ac slots) })

/-- The medium became busy or idle. -/
def onCca (now : SimTime) (cca : CcaState) (s : EdcaState) : EdcaState :=
  match cca with
  | .busy =>
    if s.busy then s
    else
      -- every countdown is frozen
      { s with
        busy := true
        idleSince := none
        cbr := s.cbr.busyFrom now
        backoff := fun ac => (s.backoff ac).map fun b => { b with resumeAt := none } }
  | .idle =>
    if s.busy then
      { s with
        busy := false
        idleSince := some now
        cbr := s.cbr.idleAt now
        backoff := fun ac =>
          (s.backoff ac).map fun b => { b with resumeAt := some (now + ac.aifs.ns) } }
    else
      match s.idleSince with
      | none => { s with idleSince := some now }
      | some _ => s

/-- A transmission of the node ended. -/
def onTxDone (start stop : SimTime) (s : EdcaState) : EdcaState :=
  { s with cbr := s.cbr.noteBusy start stop }

/-- The categories, highest first. -/
def highestFirst : List AccessCategory := [.vo, .vi, .be, .bk]

/-- The earlier of two instants, where there are any. -/
def earlier : Option SimTime → Option SimTime → Option SimTime
  | none, b => b
  | some a, none => some a
  | some a, some b => some (min a b)

/-- When a countdown reaches zero next. -/
def nextPollAt (s : EdcaState) : Option SimTime :=
  if s.busy then none
  else
    ([.bk, .be, .vi, .vo].filter fun ac => !(s.queues ac).isEmpty).foldl
      (fun next ac => earlier next ((s.backoff ac).bind Backoff.dueAt)) none

/-- One access category in a poll: the countdown goes on, and reaches zero or not. -/
def visit (now : SimTime) (acc : EdcaState × Option (AccessCategory × SimTime) × ℕ)
    (ac : AccessCategory) : EdcaState × Option (AccessCategory × SimTime) × ℕ :=
  let (s, winner, eligible) := acc
  if (s.queues ac).isEmpty then acc
  else
    match s.backoff ac with
    | none => acc
    | some b =>
      match b.resumeAt with
      | none => acc
      | some resume =>
        if now < resume then acc
        else
          let due := resume + b.remaining * slotNs
          let ticks := (now - resume) / slotNs
          if due ≤ now then
            ({ s with backoff := Function.update s.backoff ac (some { b with remaining := 0 }) },
              winner.or (some (ac, due)), eligible + 1)
          else
            ({ s with
              backoff := Function.update s.backoff ac
                (some { b with
                  remaining := b.remaining - ticks
                  resumeAt := some (resume + ticks * slotNs) }) },
              winner, eligible)

/-- Grants the frame of the highest category whose countdown reached zero. A draw is taken if more
frames of the category wait. -/
def poll (now : SimTime) (draw : UInt64) (s : EdcaState) : Option TxGrant × Bool × EdcaState :=
  if s.busy then (none, false, s)
  else
    match highestFirst.foldl (visit now) (s, none, 0) with
    | (s, none, _) => (none, false, s)
    | (s, some (ac, due), eligible) =>
      match s.queues ac with
      | [] => (none, false, s)
      | sdu :: queued =>
        let drawn := ((s.backoff ac).map Backoff.drawn).getD 0
        let aifsNs := ((s.backoff ac).map Backoff.aifsNs).getD 0
        let air := airTime sdu.frame.bytes sdu.frame.mcs
        let slots := below draw (ac.cwMin + 1)
        let next : Option Backoff :=
          if queued.isEmpty then none
          else some ⟨slots, slots, some (air.after due + ac.aifs.ns), ac.aifs.ns⟩
        (some ⟨sdu, ac, due, drawn, aifsNs, 1⟩, !queued.isEmpty, { s with
          internalCollisions := s.internalCollisions + (eligible - 1)
          queues := Function.update s.queues ac queued
          backoff := Function.update s.backoff ac next
          granted := Function.update s.granted ac (s.granted ac + 1)
          grantedAirtimeNs := s.grantedAirtimeNs + air.ns })

end EdcaState

/-! ## The slotted abstraction -/

/-- A queued frame, with its category, when it was queued and the slot drawn for it. -/
structure Slotted where
  sdu : MacSdu
  ac : AccessCategory
  enqueuedAt : SimTime
  slot : ℕ
  deriving DecidableEq, Repr

/-- The state of a node on a channel. -/
structure SlottedState where
  queue : List Slotted
  cbr : CbrMeter
  granted : ℕ
  grantedAirtimeNs : ℕ
  dropped : ℕ
  busy : Bool
  deriving DecidableEq, Repr

namespace SlottedState

/-- A node before its first call. -/
def default : SlottedState := ⟨[], CbrMeter.new, 0, 0, 0, false⟩

/-- Queues a frame. A draw is taken unless the frame is too large. -/
def enqueue (depth : ℕ) (now : SimTime) (draw : UInt64) (sdu : MacSdu) (ac : AccessCategory)
    (s : SlottedState) : Except DropCause Unit × SlottedState :=
  let slot := below draw (AccessCategory.vo.cwMin + 1)
  if depth ≤ s.queue.length then
    (.error (.queueFull ac.label depth), { s with dropped := s.dropped + 1 })
  else (.ok (), { s with queue := s.queue ++ [⟨sdu, ac, now, slot⟩] })

/-- The medium became busy or idle. -/
def onCca (now : SimTime) (cca : CcaState) (s : SlottedState) : SlottedState :=
  match cca with
  | .busy => if s.busy then s else { s with busy := true, cbr := s.cbr.busyFrom now }
  | .idle => if s.busy then { s with busy := false, cbr := s.cbr.idleAt now } else s

/-- A transmission of the node ended. -/
def onTxDone (start stop : SimTime) (s : SlottedState) : SlottedState :=
  { s with cbr := s.cbr.noteBusy start stop }

/-- The slot the first frame waits for. -/
def nextPollAt (s : SlottedState) : Option SimTime :=
  if s.busy then none else s.queue.head?.map fun q => q.enqueuedAt + q.slot * slotNs

/-- Grants the first frame once its slot has come. -/
def poll (now : SimTime) (s : SlottedState) : Option TxGrant × SlottedState :=
  if s.busy then (none, s)
  else
    match s.queue with
    | [] => (none, s)
    | q :: queue =>
      let due := q.enqueuedAt + q.slot * slotNs
      if now < due then (none, s)
      else
        (some ⟨q.sdu, q.ac, due, q.slot, 0, 1⟩, { s with
          queue
          granted := s.granted + 1
          grantedAirtimeNs := s.grantedAirtimeNs + (airTime q.sdu.frame.bytes q.sdu.frame.mcs).ns })

end SlottedState

/-! ## Calls -/

/-- A call of the engine, for a node on a channel. -/
inductive MacCall
  | enqueue (sdu : MacSdu) (ac : AccessCategory)
  | onCca (channel : ℕ) (cca : CcaState)
  | onTxDone (channel : ℕ) (start stop : SimTime)
  | poll (channel : ℕ)
  deriving DecidableEq, Repr

/-- When a call is made, and for which node. -/
structure Timed where
  now : SimTime
  node : ℕ
  call : MacCall
  deriving DecidableEq, Repr

/-- What a call answers. -/
inductive MacAnswer
  | none
  | queued (result : Except DropCause Unit)
  | polled (grant : Option TxGrant)
  deriving DecidableEq

/-- All nodes on all channels, and how many draws of each node were taken. -/
structure Contention (σ : Type) where
  nodes : ℕ × ℕ → σ
  drawn : ℕ → ℕ

/-- One call on the state machine. The draws of each node are a stream. -/
def edcaStep (depth : ℕ) (draws : ℕ → ℕ → UInt64) (s : Contention EdcaState) (c : Timed) :
    MacAnswer × Contention EdcaState :=
  let draw := draws c.node (s.drawn c.node)
  let drawn := Function.update s.drawn c.node (s.drawn c.node + 1)
  match c.call with
  | .enqueue sdu ac =>
    if maxMsduBytes < sdu.frame.bytes then
      (.queued (.error (.tooLarge sdu.frame.bytes maxMsduBytes)), s)
    else
      let key := (c.node, sdu.frame.channel)
      let (result, state) := (s.nodes key).enqueue depth c.now draw sdu ac
      (.queued result, ⟨Function.update s.nodes key state, drawn⟩)
  | .onCca channel cca =>
    let key := (c.node, channel)
    (.none, { s with nodes := Function.update s.nodes key ((s.nodes key).onCca c.now cca) })
  | .onTxDone channel start stop =>
    let key := (c.node, channel)
    (.none, { s with nodes := Function.update s.nodes key ((s.nodes key).onTxDone start stop) })
  | .poll channel =>
    let key := (c.node, channel)
    let (grant, more, state) := (s.nodes key).poll c.now draw
    (.polled grant, ⟨Function.update s.nodes key state, if more then drawn else s.drawn⟩)

/-- One call on the slotted abstraction. -/
def slottedStep (depth : ℕ) (draws : ℕ → ℕ → UInt64) (s : Contention SlottedState) (c : Timed) :
    MacAnswer × Contention SlottedState :=
  let draw := draws c.node (s.drawn c.node)
  let drawn := Function.update s.drawn c.node (s.drawn c.node + 1)
  match c.call with
  | .enqueue sdu ac =>
    if maxMsduBytes < sdu.frame.bytes then
      (.queued (.error (.tooLarge sdu.frame.bytes maxMsduBytes)), s)
    else
      let key := (c.node, sdu.frame.channel)
      let (result, state) := (s.nodes key).enqueue depth c.now draw sdu ac
      (.queued result, ⟨Function.update s.nodes key state, drawn⟩)
  | .onCca channel cca =>
    let key := (c.node, channel)
    (.none, { s with nodes := Function.update s.nodes key ((s.nodes key).onCca c.now cca) })
  | .onTxDone channel start stop =>
    let key := (c.node, channel)
    (.none, { s with nodes := Function.update s.nodes key ((s.nodes key).onTxDone start stop) })
  | .poll channel =>
    let key := (c.node, channel)
    let (grant, state) := (s.nodes key).poll c.now
    (.polled grant, { s with nodes := Function.update s.nodes key state })

end V2xw.Radio
