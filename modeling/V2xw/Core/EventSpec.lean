import Mathlib.Data.Set.Card
import V2xw.Core.Event
import V2xw.Lib.Fallible

/-!
# What the event scheduler is for

A scheduler is a set of pending events. Scheduling adds one under a fresh sequence number,
cancelling removes one, and dispatch takes the event with the least key. There is no heap here, no
dead entry and no compaction; `EventRefine` compares the scheduler of `Event` with this one.

## Main definitions

* `PendingSet` — the set of pending events with the clock and the sequence counter.
* `PendingSet.next` — the pending event with the least key.
* `PendingSet.machine` — the set driven by the scheduler's calls.

## Main results

* `PendingSet.next_eq_some` — with distinct keys the least event is the next one.
* `PendingSet.call_cases` — everything a call can do to the set.
-/

namespace V2xw.Core

/-- The pending events as a plain set, with the clock, the last key and the sequence counter. -/
@[ext]
structure PendingSet (E : Type) where
  /-- The events scheduled and neither fired nor cancelled. -/
  pending : Set (Entry E)
  /-- The sequence number of the next event. -/
  nextSeq : ℕ
  /-- The time of the last fired event. -/
  now : SimTime
  /-- The key of the last fired event. -/
  lastKey : Option EventKey

namespace PendingSet

variable {E : Type}

/-- No event is pending and the clock reads `0`. -/
def new : PendingSet E := ⟨∅, 0, 0, none⟩

/-- The event has the least key of the set. -/
def IsFirst (S : Set (Entry E)) (e : Entry E) : Prop := e ∈ S ∧ ∀ x ∈ S, e.key ≤ x.key

open Classical in
/-- The pending event with the least key. -/
noncomputable def next (p : PendingSet E) : Option (Entry E) :=
  if h : ∃ e, IsFirst p.pending e then some h.choose else none

/-- Adds an event under the next sequence number. -/
def add (p : PendingSet E) (t : SimTime) (cls : EventClass) (payload : E) :
    Except Panic (ℕ × PendingSet E) :=
  if p.nextSeq + 1 = 2 ^ 64 then .error .seqOverflow
  else .ok (p.nextSeq,
    { p with
      pending := insert ⟨⟨t, cls.priority, p.nextSeq⟩, payload⟩ p.pending
      nextSeq := p.nextSeq + 1 })

/-- Adds an event that is neither in the past nor before the last fired event. -/
def schedule (p : PendingSet E) (t : SimTime) (cls : EventClass) (payload : E) :
    Except Panic (ℕ × PendingSet E) :=
  if t < p.now then .error (.inThePast t p.now cls)
  else match p.lastKey with
    | some k =>
      if EventKey.Precedes t cls.priority k then .error (.earlierPriority t cls k)
      else p.add t cls payload
    | none => p.add t cls payload

/-- Adds an event that is not in the past. -/
def scheduleReentrant (p : PendingSet E) (t : SimTime) (cls : EventClass) (payload : E) :
    Except Panic (ℕ × PendingSet E) :=
  if t < p.now then .error (.inThePast t p.now cls) else p.add t cls payload

open Classical in
/-- Removes the event with the given sequence number and says whether there was one. -/
noncomputable def cancel (p : PendingSet E) (h : ℕ) : Bool × PendingSet E :=
  (decide (∃ e ∈ p.pending, e.key.seq = h),
    { p with pending := {e | e ∈ p.pending ∧ e.key.seq ≠ h} })

/-- Removes the next event and sets the clock to its time. -/
noncomputable def pop (p : PendingSet E) : Option (EventKey × E) × PendingSet E :=
  match p.next with
  | some e => (some (e.key, e.payload),
      { p with pending := p.pending \ {e}, now := e.key.time, lastKey := some e.key })
  | none => (none, p)

/-- One call, as the value it returns and the set it leaves. -/
noncomputable def call (p : PendingSet E) : Op E → Except Panic (Ret E × PendingSet E)
  | .schedule t cls e => (p.schedule t cls e).map (Prod.map .handle id)
  | .scheduleAfter d cls e => (p.schedule (d.after p.now) cls e).map (Prod.map .handle id)
  | .scheduleReentrant t cls e => (p.scheduleReentrant t cls e).map (Prod.map .handle id)
  | .cancel h => .ok (Prod.map .cancelled id (p.cancel h))
  | .pop => .ok (Prod.map .popped id p.pop)
  | .peekTime => .ok (.time (p.next.map (·.key.time)), p)
  | .peekKey => .ok (.key (p.next.map (·.key)), p)
  | .clear => .ok (.unit, { p with pending := ∅ })

/-- What a caller sees of a call that returned `r` and left `p`; `len` is the number of pending
events. -/
noncomputable def observe (r : Ret E) (p : PendingSet E) : Obs E where
  ret := r
  len := p.pending.ncard
  now := p.now
  lastKey := p.lastKey
  nextSeq := p.nextSeq

/-- The set of pending events driven by the scheduler's calls. -/
noncomputable def machine (E : Type) : Machine (PendingSet E) (Op E) (Obs E) Panic where
  init := new
  step p op := (p.call op).map (fun r => (observe r.1 r.2, r.2))

/-! ## The next event -/

lemma IsFirst.unique {S : Set (Entry E)} {a b : Entry E} (hinj : Set.InjOn Entry.key S)
    (ha : IsFirst S a) (hb : IsFirst S b) : a = b :=
  hinj ha.1 hb.1 (le_antisymm (ha.2 b hb.1) (hb.2 a ha.1))

lemma next_eq_some {p : PendingSet E} {e : Entry E} (hinj : Set.InjOn Entry.key p.pending)
    (he : IsFirst p.pending e) : p.next = some e := by
  have hex : ∃ e, IsFirst p.pending e := ⟨e, he⟩
  rw [next, dif_pos hex]
  exact congrArg some (hex.choose_spec.unique hinj he)

lemma next_eq_none {p : PendingSet E} : p.next = none ↔ p.pending = ∅ := by
  rw [next]
  split_ifs with hex
  · obtain ⟨e, he, -⟩ := hex
    simp only [false_iff]
    exact Set.nonempty_iff_ne_empty.1 ⟨e, he⟩
  · simp only [true_iff]
    by_contra hne
    have hwf : WellFounded (InvImage (· < ·) fun e : Entry E => e.key.toTriple) :=
      InvImage.wf _ wellFounded_lt
    obtain ⟨e, he, hmin⟩ := hwf.has_min p.pending (Set.nonempty_iff_ne_empty.2 hne)
    exact hex ⟨e, he, fun x hx => not_lt.1 (hmin x hx)⟩

/-! ## One call -/

/-- An event was added, not in the past. -/
def Added (p : PendingSet E) (t : SimTime) (cls : EventClass) (x : E) (r : Ret E)
    (p' : PendingSet E) : Prop :=
  p.now ≤ t ∧ r = .handle p.nextSeq ∧
    p' = { p with
      pending := insert ⟨⟨t, cls.priority, p.nextSeq⟩, x⟩ p.pending
      nextSeq := p.nextSeq + 1 }

lemma add_eq_ok {p p' : PendingSet E} {t : SimTime} {cls : EventClass} {x : E} {r : Ret E}
    (hnow : p.now ≤ t) (h : (p.add t cls x).map (Prod.map .handle id) = .ok (r, p')) :
    p.Added t cls x r p' := by
  obtain ⟨a, ha, hr⟩ := Fallible.map_eq_ok.1 h
  rw [add] at ha
  split_ifs at ha
  obtain rfl := Except.ok.inj ha
  obtain ⟨rfl, rfl⟩ := Prod.mk.inj hr
  exact ⟨hnow, rfl, rfl⟩

lemma schedule_eq_ok {p p' : PendingSet E} {t : SimTime} {cls : EventClass} {x : E} {r : Ret E}
    (h : (p.schedule t cls x).map (Prod.map .handle id) = .ok (r, p')) :
    p.Added t cls x r p' ∧
      ∀ k, p.lastKey = some k → ¬ EventKey.Precedes t cls.priority k := by
  rw [schedule] at h
  split_ifs at h with hnow
  · exact absurd h (by simp [Except.map])
  · cases hl : p.lastKey with
    | none =>
      rw [hl] at h
      exact ⟨add_eq_ok (not_lt.1 hnow) h, by simp⟩
    | some k =>
      rw [hl] at h
      dsimp only at h
      split_ifs at h with hk
      · exact absurd h (by simp [Except.map])
      · refine ⟨add_eq_ok (not_lt.1 hnow) h, fun k' hk' => ?_⟩
        obtain rfl : k = k' := Option.some.inj hk'
        exact hk

/-- **Everything a call can do** to the set of pending events: it adds one event that is not in
the past (and, unless the caller asked for it, not before the last key), it removes some without
reporting one, or it dispatches the first. -/
theorem call_cases {p p' : PendingSet E} {op : Op E} {r : Ret E} (h : p.call op = .ok (r, p')) :
    (∃ t cls x, p.Added t cls x r p' ∧ (op = .scheduleReentrant t cls x ∨
      ∀ k, p.lastKey = some k → ¬ EventKey.Precedes t cls.priority k)) ∨
    (∃ pending' ⊆ p.pending, p' = { p with pending := pending' } ∧ ∀ x, r ≠ .popped (some x)) ∨
    (∃ e, IsFirst p.pending e ∧ r = .popped (some (e.key, e.payload)) ∧
      p' = { p with
        pending := p.pending \ {e}, now := e.key.time, lastKey := some e.key }) := by
  cases op with
  | schedule t cls x =>
    obtain ⟨hadd, hlast⟩ := schedule_eq_ok h
    exact Or.inl ⟨t, cls, x, hadd, Or.inr hlast⟩
  | scheduleAfter d cls x =>
    obtain ⟨hadd, hlast⟩ := schedule_eq_ok h
    exact Or.inl ⟨d.after p.now, cls, x, hadd, Or.inr hlast⟩
  | scheduleReentrant t cls x =>
    rw [call, scheduleReentrant] at h
    split_ifs at h with hnow
    · exact absurd h (by simp [Except.map])
    · exact Or.inl ⟨t, cls, x, add_eq_ok (not_lt.1 hnow) h, Or.inl rfl⟩
  | cancel q =>
    obtain ⟨rfl, rfl⟩ := Prod.mk.inj (Except.ok.inj h)
    exact Or.inr (Or.inl ⟨_, fun e he => he.1, rfl, by simp⟩)
  | pop =>
    rw [call, pop] at h
    cases hn : p.next with
    | none =>
      rw [hn] at h
      obtain ⟨rfl, rfl⟩ := Prod.mk.inj (Except.ok.inj h)
      exact Or.inr (Or.inl ⟨_, subset_rfl, rfl, by simp⟩)
    | some e =>
      rw [hn] at h
      obtain ⟨rfl, rfl⟩ := Prod.mk.inj (Except.ok.inj h)
      refine Or.inr (Or.inr ⟨e, ?_, rfl, rfl⟩)
      rw [next] at hn
      split_ifs at hn with hex
      obtain rfl := Option.some.inj hn
      exact hex.choose_spec
  | peekTime =>
    obtain ⟨rfl, rfl⟩ := Prod.mk.inj (Except.ok.inj h)
    exact Or.inr (Or.inl ⟨_, subset_rfl, rfl, by simp⟩)
  | peekKey =>
    obtain ⟨rfl, rfl⟩ := Prod.mk.inj (Except.ok.inj h)
    exact Or.inr (Or.inl ⟨_, subset_rfl, rfl, by simp⟩)
  | clear =>
    obtain ⟨rfl, rfl⟩ := Prod.mk.inj (Except.ok.inj h)
    exact Or.inr (Or.inl ⟨_, Set.empty_subset _, rfl, by simp⟩)

end PendingSet

end V2xw.Core
