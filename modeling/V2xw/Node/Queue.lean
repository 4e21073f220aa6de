import Mathlib.Data.List.Basic
import V2xw.Core.Time

/-!
# Bounded queues

The queues of `crates/v2xw-node/src/queue.rs`: a bounded FIFO that refuses the newcomer or evicts
the oldest entry when it is full, its depth samples, and the per-cause drop ledger.

## Main definitions

* `DropCause`, `DropLedger` — why something was discarded, and how often.
* `NodeQueue` — a bounded queue, with `push`, `pushEvicting` and `pop`.
* `Offered` — everything an offer to a queue can do to its entries.

## Main results

* `NodeQueue.offered_push`, `NodeQueue.offered_pushEvicting` — both ways of
  offering do one of these things.
-/

namespace V2xw.Node

open Core

/-- The largest `u32`. -/
def u32Max : ℕ := 2 ^ 32 - 1

/-- `saturating_add` of a `u32` counter. -/
def satAdd32 (a b : ℕ) : ℕ := min (a + b) u32Max

/-! ## Drops -/

/-- Why a node discarded something. -/
inductive DropCause
  | rxOverflow
  | verifyPolicySkip
  | verifyOverflow
  | txOverflow
  | reassemblyTimeout
  | crlBacklog
  deriving DecidableEq, Repr

/-- The position of a cause in the telemetry record. -/
def DropCause.index : DropCause → ℕ
  | .rxOverflow => 0
  | .verifyPolicySkip => 1
  | .verifyOverflow => 2
  | .txOverflow => 3
  | .reassemblyTimeout => 4
  | .crlBacklog => 5

/-- The spelling used in records. -/
def DropCause.asStr : DropCause → String
  | .rxOverflow => "rx_overflow"
  | .verifyPolicySkip => "verify_policy_skip"
  | .verifyOverflow => "verify_overflow"
  | .txOverflow => "tx_overflow"
  | .reassemblyTimeout => "reassembly_timeout"
  | .crlBacklog => "crl_processing_backlog"

/-- How often each cause has struck in the current window. -/
structure DropLedger where
  counts : List ℕ := List.replicate 6 0
  deriving DecidableEq, Repr

/-- Records one drop. -/
def DropLedger.record (d : DropLedger) (cause : DropCause) : DropLedger :=
  ⟨d.counts.modify cause.index (satAdd32 · 1)⟩

/-! ## Queues -/

/-- Which queue a task sits in. -/
inductive QueueKind
  | rx | verify | app | tx | crl
  deriving DecidableEq, Repr

/-- What happened to something offered to a queue. -/
inductive Admission (α : Type)
  | queued
  /-- The queue was full and the item was refused. -/
  | refused (a : α)
  /-- The queue was full and the oldest item was evicted to make room. -/
  | evicted (a : α)
  deriving DecidableEq, Repr

/-- A task waiting for a server, with the instant it was enqueued at. -/
structure Queued (α : Type) where
  item : α
  enqueuedAt : SimTime
  deriving DecidableEq, Repr

/-- A bounded FIFO with depth sampling and drop accounting. -/
structure NodeQueue (α : Type) where
  kind : QueueKind
  capacity : ℕ
  items : List α := []
  drops : ℕ := 0
  depthSamples : List ℕ := []
  highWater : ℕ := 0
  deriving DecidableEq, Repr

namespace NodeQueue

variable {α : Type}

/-- How many depth samples a window keeps. -/
def maxSamples : ℕ := 4096

/-- Samples the depth. -/
def sample (q : NodeQueue α) : NodeQueue α :=
  { q with
    highWater := max q.highWater q.items.length
    depthSamples :=
      if q.depthSamples.length < maxSamples then q.depthSamples ++ [q.items.length]
      else q.depthSamples }

/-- Offers an item, refusing it when the queue is full. -/
def push (q : NodeQueue α) (item : α) : Admission α × NodeQueue α :=
  if q.items.length ≥ q.capacity then
    (.refused item, { q with drops := satAdd32 q.drops 1 })
  else
    (.queued, sample { q with items := q.items ++ [item] })

/-- Offers an item, evicting the oldest when the queue is full. -/
def pushEvicting (q : NodeQueue α) (item : α) : Admission α × NodeQueue α :=
  if q.items.length ≥ q.capacity then
    let full := { q with drops := satAdd32 q.drops 1 }
    match q.items with
    | old :: rest => (.evicted old, sample { full with items := rest ++ [item] })
    -- A queue without room at all refuses everything: the item goes in and out again.
    | [] => (.refused item, { sample { full with items := [item] } with items := [] })
  else
    (.queued, sample { q with items := q.items ++ [item] })

/-- Takes the oldest item. -/
def pop (q : NodeQueue α) : Option (α × NodeQueue α) :=
  match q.items with
  | [] => none
  | a :: rest => some (a, sample { q with items := rest })

/-- Clears the window counters, keeping the queued items. -/
def resetWindow (q : NodeQueue α) : NodeQueue α :=
  { q with drops := 0, depthSamples := [], highWater := q.items.length }

end NodeQueue

/-! ## Offers -/

/-- What an offer does: the item joins the back of the line, with or without pushing the oldest
one out, or the line stays as it is. -/
inductive Offered {α : Type} (items : List α) (item : α) : Admission α → List α → Prop
  | queued : Offered items item .queued (items ++ [item])
  | refused : Offered items item (.refused item) items
  | evicted {old : α} {rest : List α} (h : items = old :: rest) :
      Offered items item (.evicted old) (rest ++ [item])

namespace NodeQueue

variable {α : Type}

lemma offered_push (q : NodeQueue α) (item : α) :
    Offered q.items item (q.push item).1 (q.push item).2.items := by
  simp only [push]
  split
  · exact .refused
  · exact .queued

lemma offered_pushEvicting (q : NodeQueue α) (item : α) :
    Offered q.items item (q.pushEvicting item).1 (q.pushEvicting item).2.items := by
  simp only [pushEvicting]
  split
  · cases hq : q.items with
    | nil => exact .refused
    | cons old rest => exact .evicted rfl
  · exact .queued

lemma pop_eq_some {q r : NodeQueue α} {a : α} (h : q.pop = some (a, r)) :
    q.items = a :: r.items := by
  unfold pop at h
  split at h
  next => cases h
  next b rest hitems =>
    obtain ⟨rfl, rfl⟩ : b = a ∧ sample { q with items := rest } = r := by simpa using h
    exact hitems

lemma pop_eq_none {q : NodeQueue α} : q.pop = none ↔ q.items = [] := by
  unfold pop
  split <;> simp_all

end NodeQueue

end V2xw.Node
