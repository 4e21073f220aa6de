import Mathlib.Data.Finset.Card
import Mathlib.Data.Prod.Lex
import V2xw.Core.Time
import V2xw.Lib.Machine
import V2xw.Lib.MinQueue

/-!
# The event scheduler

The scheduler of `crates/v2xw-core/src/event.rs`: one heap of entries ordered by
`(time, priority, seq)`, a set of live sequence numbers through which cancellation is lazy, and a
count of the dead entries that decides when the heap is compacted.

## Main definitions

* `EventClass`, `EventKey` — the event classes and the dispatch order.
* `Scheduler` — the state, with `push`, `schedule`, `scheduleAfter`,
  `scheduleReentrant`, `cancel`, `compactIfNeeded`, `pop`, `purgeHead`, `peekTime`, `peekKey` and
  `clear`.
* `Scheduler.machine` — the scheduler as its callers drive it.

## Implementation notes

Times and sequence numbers are naturals; the two places where the width of `u64` shows are the
saturating addition of `Duration.after` and the sequence counter, whose overflow is a panic.
Every panic of the source is an error here, including the arithmetic ones, so "never underflows"
is a statement about the model. The checks a release build leaves out are under the flag `dbg`.
The heap is a list without a meaningful order (`MinQueue`): a Rust `BinaryHeap` promises no more.
-/

namespace V2xw.Core

open MinQueue

/-! ## Event classes and keys -/

/-- The classes of event the kernel knows. -/
inductive EventClass
  | control | mobilityStep | signalPhase | phyEnd | macTimer
  | phyStart | nodeTask | netDeliver | flowTimer | observe
  deriving DecidableEq, Repr

/-- The fixed priority of a class, `0` first. -/
def EventClass.priority : EventClass → ℕ
  | control => 0
  | mobilityStep => 1
  | signalPhase => 2
  | phyEnd => 3
  | macTimer => 4
  | phyStart => 5
  | nodeTask => 6
  | netDeliver => 7
  | flowTimer => 8
  | observe => 9

/-- The key of an event. The order on keys is the dispatch order: time, then priority, then the
sequence number stamped when the event was scheduled. -/
@[ext]
structure EventKey where
  time : SimTime
  /-- The priority of the event's class. -/
  priority : ℕ
  /-- The global sequence number. -/
  seq : ℕ
  deriving DecidableEq, Repr

namespace EventKey

/-- The key as a lexicographic triple, field by field as the derived `Ord` compares it. -/
def toTriple (k : EventKey) : ℕ ×ₗ ℕ ×ₗ ℕ := toLex (k.time, toLex (k.priority, k.seq))

lemma toTriple_injective : Function.Injective toTriple := by
  intro a b h
  simp only [toTriple, EmbeddingLike.apply_eq_iff_eq, Prod.mk.injEq] at h
  exact EventKey.ext h.1 h.2.1 h.2.2

instance : LinearOrder EventKey := LinearOrder.lift' toTriple toTriple_injective

lemma lt_iff {a b : EventKey} :
    a < b ↔ a.time < b.time ∨ a.time = b.time ∧
      (a.priority < b.priority ∨ a.priority = b.priority ∧ a.seq < b.seq) := by
  change a.toTriple < b.toTriple ↔ _
  simp only [toTriple, Prod.Lex.toLex_lt_toLex]

/-- The pair `(t, p)` comes before the time and priority of the key. -/
def Precedes (t : SimTime) (p : ℕ) (k : EventKey) : Prop :=
  t < k.time ∨ t = k.time ∧ p < k.priority

instance (t : SimTime) (p : ℕ) (k : EventKey) : Decidable (Precedes t p k) :=
  inferInstanceAs (Decidable (_ ∨ _))

end EventKey

/-- A heap entry: the key and the payload, ordered by the key alone. -/
structure Entry (E : Type) where
  key : EventKey
  payload : E
  deriving DecidableEq, Repr

/-- The panics a scheduler call can end in. -/
inductive Panic
  /-- "event scheduled in the past" -/
  | inThePast (t now : SimTime) (cls : EventClass)
  /-- "zero-delay event at an earlier priority than the instant being dispatched" -/
  | earlierPriority (t : SimTime) (cls : EventClass) (last : EventKey)
  | seqOverflow
  /-- Overflow of `reentrant_debt`. -/
  | debtOverflow
  | deadUnderflow
  /-- "scheduler time went backwards" -/
  | timeWentBackwards (t now : SimTime)
  /-- "dispatch order went backwards" -/
  | dispatchOrder (key last : EventKey)
  deriving DecidableEq, Repr

/-! ## The scheduler -/

/-- The event heap and its bookkeeping. -/
structure Scheduler (E : Type) where
  /-- The entries, live and cancelled, in no particular order. -/
  heap : List (Entry E)
  /-- Sequence numbers still scheduled. -/
  live : Finset ℕ
  /-- Entries of the heap whose sequence number is no longer live. -/
  dead : ℕ
  /-- The sequence number of the next event. -/
  nextSeq : ℕ
  /-- The time of the last popped event. -/
  now : SimTime
  /-- The key of the last popped event. -/
  lastKey : Option EventKey
  /-- Earlier-priority events requested on purpose and not yet dispatched. -/
  reentrantDebt : ℕ

namespace Scheduler

variable {E : Type}

/-- An empty scheduler whose clock reads `0`. -/
def new : Scheduler E where
  heap := []
  live := ∅
  dead := 0
  nextSeq := 0
  now := 0
  lastKey := none
  reentrantDebt := 0

/-! ### Scheduling -/

/-- Simulated time never goes backwards. -/
def assertNotPast (s : Scheduler E) (t : SimTime) (cls : EventClass) : Except Panic Unit :=
  if t < s.now then .error (.inThePast t s.now cls) else .ok ()

/-- The scheduling the entry points share, after their order checks. -/
def push (s : Scheduler E) (t : SimTime) (cls : EventClass) (payload : E) :
    Except Panic (ℕ × Scheduler E) :=
  if s.nextSeq + 1 = 2 ^ 64 then .error .seqOverflow
  else .ok (s.nextSeq,
    { s with
      nextSeq := s.nextSeq + 1
      heap := ⟨⟨t, cls.priority, s.nextSeq⟩, payload⟩ :: s.heap
      live := insert s.nextSeq s.live })

/-- Schedules an event. It must not lie in the past, nor before the instant and priority being
dispatched. -/
def schedule (s : Scheduler E) (t : SimTime) (cls : EventClass) (payload : E) :
    Except Panic (ℕ × Scheduler E) := do
  s.assertNotPast t cls
  match s.lastKey with
  | some k =>
    if EventKey.Precedes t cls.priority k then .error (.earlierPriority t cls k)
    else s.push t cls payload
  | none => s.push t cls payload

/-- Schedules an event `delay` after the current instant. -/
def scheduleAfter (s : Scheduler E) (delay : Duration) (cls : EventClass) (payload : E) :
    Except Panic (ℕ × Scheduler E) :=
  s.schedule (delay.after s.now) cls payload

/-- Counts an event that sits before the instant and priority being dispatched. -/
def noteReentrant (s : Scheduler E) (t : SimTime) (cls : EventClass) :
    Except Panic (Scheduler E) :=
  match s.lastKey with
  | some k =>
    if EventKey.Precedes t cls.priority k then
      if s.reentrantDebt + 1 = 2 ^ 64 then .error .debtOverflow
      else .ok { s with reentrantDebt := s.reentrantDebt + 1 }
    else .ok s
  | none => .ok s

/-- Schedules an event that may sit before the event being dispatched. -/
def scheduleReentrant (s : Scheduler E) (t : SimTime) (cls : EventClass) (payload : E) :
    Except Panic (ℕ × Scheduler E) := do
  s.assertNotPast t cls
  let s ← s.noteReentrant t cls
  s.push t cls payload

/-! ### Cancellation -/

/-- Rebuilds the heap without its dead entries once they outnumber the live ones. -/
def compactIfNeeded (s : Scheduler E) : Scheduler E :=
  if s.dead ≤ 64 ∨ s.dead ≤ s.heap.length / 2 then s
  else { s with heap := s.heap.filter (fun e => e.key.seq ∈ s.live), dead := 0 }

/-- Cancels a scheduled event: `true` if it was still pending. -/
def cancel (s : Scheduler E) (h : ℕ) : Bool × Scheduler E :=
  if h ∈ s.live then (true, compactIfNeeded { s with live := s.live.erase h, dead := s.dead + 1 })
  else (false, s)

/-! ### Dispatch -/

/-- The debug-build check that the dispatched keys do not go backwards unannounced. -/
def checkDispatchOrder (dbg : Bool) (s : Scheduler E) (key : EventKey) :
    Except Panic (Scheduler E) :=
  if dbg then
    if key.time < s.now then .error (.timeWentBackwards key.time s.now)
    else
      match s.lastKey with
      | some last =>
        if key < last then
          if 0 < s.reentrantDebt then .ok { s with reentrantDebt := s.reentrantDebt - 1 }
          else .error (.dispatchOrder key last)
        else .ok s
      | none => .ok s
  else .ok s

/-- The loop of `pop`; `fuel` bounds its iterations, each of which shortens the heap. -/
def popLoop (dbg : Bool) : ℕ → Scheduler E → Except Panic (Option (EventKey × E) × Scheduler E)
  | 0, s => .ok (none, s)
  | fuel + 1, s =>
    match extractMin Entry.key s.heap with
    | none => .ok (none, s)
    | some (entry, rest) =>
      if entry.key.seq ∈ s.live then do
        let s ← checkDispatchOrder dbg
          { s with heap := rest, live := s.live.erase entry.key.seq } entry.key
        .ok (some (entry.key, entry.payload),
          { s with now := entry.key.time, lastKey := some entry.key })
      else if s.dead = 0 then .error .deadUnderflow
      else popLoop dbg fuel { s with heap := rest, dead := s.dead - 1 }

/-- Removes and returns the next event, advancing the clock to its time. -/
def pop (dbg : Bool) (s : Scheduler E) : Except Panic (Option (EventKey × E) × Scheduler E) :=
  popLoop dbg s.heap.length s

/-- The loop of `purge_head`; `fuel` bounds its iterations as in `popLoop`. -/
def purgeHeadLoop : ℕ → Scheduler E → Except Panic (Scheduler E)
  | 0, s => .ok s
  | fuel + 1, s =>
    match extractMin Entry.key s.heap with
    | none => .ok s
    | some (entry, rest) =>
      if entry.key.seq ∈ s.live then .ok s
      else if s.dead = 0 then .error .deadUnderflow
      else purgeHeadLoop fuel { s with heap := rest, dead := s.dead - 1 }

/-- Discards cancelled entries at the head of the heap. -/
def purgeHead (s : Scheduler E) : Except Panic (Scheduler E) := purgeHeadLoop s.heap.length s

/-- The entry at the head of the heap, without removing it. -/
def peek (s : Scheduler E) : Option (Entry E) := (extractMin Entry.key s.heap).map Prod.fst

/-- The time of the next event. -/
def peekTime (s : Scheduler E) : Except Panic (Option SimTime × Scheduler E) := do
  let s ← s.purgeHead
  .ok (s.peek.map (·.key.time), s)

/-- The key of the next event. -/
def peekKey (s : Scheduler E) : Except Panic (Option EventKey × Scheduler E) := do
  let s ← s.purgeHead
  .ok (s.peek.map (·.key), s)

/-- The number of scheduled events not yet fired or cancelled. -/
def len (s : Scheduler E) : ℕ := s.live.card

/-- Drops every pending event, keeping the clock and the sequence counter. -/
def clear (s : Scheduler E) : Scheduler E := { s with heap := [], live := ∅, dead := 0 }

end Scheduler

/-! ## The scheduler as its callers drive it -/

/-- The calls a caller can make. -/
inductive Op (E : Type)
  | schedule (t : SimTime) (cls : EventClass) (payload : E)
  | scheduleAfter (delay : Duration) (cls : EventClass) (payload : E)
  | scheduleReentrant (t : SimTime) (cls : EventClass) (payload : E)
  | cancel (h : ℕ)
  | pop
  | peekTime
  | peekKey
  | clear

/-- What a call returns. -/
inductive Ret (E : Type)
  | handle (h : ℕ)
  | cancelled (b : Bool)
  | popped (r : Option (EventKey × E))
  | time (t : Option SimTime)
  | key (k : Option EventKey)
  | unit
  deriving DecidableEq

/-- What a caller sees of a call: its result, and the getters `len`, `now`, `last_key` and
`next_seq` after it. -/
structure Obs (E : Type) where
  ret : Ret E
  len : ℕ
  now : SimTime
  /-- `last_key()` after the call. -/
  lastKey : Option EventKey
  /-- `next_seq()` after the call. -/
  nextSeq : ℕ
  deriving DecidableEq

namespace Scheduler

variable {E : Type}

/-- One call, as the value it returns and the state it leaves. -/
def call (dbg : Bool) (s : Scheduler E) : Op E → Except Panic (Ret E × Scheduler E)
  | .schedule t cls p => (s.schedule t cls p).map (Prod.map .handle id)
  | .scheduleAfter d cls p => (s.scheduleAfter d cls p).map (Prod.map .handle id)
  | .scheduleReentrant t cls p => (s.scheduleReentrant t cls p).map (Prod.map .handle id)
  | .cancel h => .ok (Prod.map .cancelled id (s.cancel h))
  | .pop => (s.pop dbg).map (Prod.map .popped id)
  | .peekTime => s.peekTime.map (Prod.map .time id)
  | .peekKey => s.peekKey.map (Prod.map .key id)
  | .clear => .ok (.unit, s.clear)

/-- What a caller sees of a call that returned `r` and left `s`. -/
def observe (r : Ret E) (s : Scheduler E) : Obs E where
  ret := r
  len := s.len
  now := s.now
  lastKey := s.lastKey
  nextSeq := s.nextSeq

/-- The scheduler driven by calls, from `Scheduler::new()`. -/
def machine (E : Type) (dbg : Bool) : Machine (Scheduler E) (Op E) (Obs E) Panic where
  init := new
  step s op := (s.call dbg op).map (fun r => (observe r.1 r.2, r.2))

end Scheduler

end V2xw.Core
