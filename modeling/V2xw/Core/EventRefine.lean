import V2xw.Core.EventInv

/-!
# The scheduler is a set of pending events

The scheduler of `Event` and the set of pending events of `EventSpec` cannot be told apart by
their callers, and the scheduler's dead counter is always the number of dead entries.

## Main definitions

* `Scheduler.Inv` — the invariant of a reachable scheduler.
* `Scheduler.toPendingSet` — the set of pending events a scheduler stands for.

## Main results

* `Scheduler.popLoop_spec`, `Scheduler.purgeHeadLoop_spec` — the two loops
  over the head of the heap.
* `Scheduler.call_agree` — each call agrees with the set.
* `Scheduler.trace_eq_pendingSet` — every sequence of calls is observed alike.
-/

namespace V2xw.Core.Scheduler

open MinQueue PendingSet

variable {E : Type}

/-- The entries of the heap that are still scheduled. -/
def pending (s : Scheduler E) : Set (Entry E) := liveEntries s.heap s.live

/-- The invariant of a reachable scheduler. -/
structure Inv (s : Scheduler E) : Prop where
  /-- The heap, the live set and the dead counter fit together. -/
  heap : HeapInv s.heap s.live s.dead s.nextSeq
  /-- The pending events are in order. -/
  order : OrderInv s.pending s.nextSeq s.now s.lastKey s.reentrantDebt
  /-- The sequence counter has not overflowed. -/
  nextSeq_lt : s.nextSeq < 2 ^ 64

/-- The set of pending events a scheduler stands for. -/
@[simps]
def toPendingSet (s : Scheduler E) : PendingSet E where
  pending := s.pending
  nextSeq := s.nextSeq
  now := s.now
  lastKey := s.lastKey

/-- The relation the simulation preserves. -/
def Refines (s : Scheduler E) (p : PendingSet E) : Prop := s.Inv ∧ p = s.toPendingSet

lemma refines_new : Refines (new : Scheduler E) PendingSet.new := by
  have hempty : (new : Scheduler E).pending = ∅ := by
    ext e
    simp [pending, liveEntries, new]
  refine ⟨⟨⟨by simp [new], by simp [new], by simp [new], by simp [new]⟩, ?_, by simp [new]⟩, ?_⟩
  · rw [hempty]
    exact ⟨by simp, by simp, by simp [new], by simp [new]⟩
  · exact PendingSet.ext hempty.symm rfl rfl rfl

/-! ## Scheduling -/

/-- The pending events after a push. -/
lemma liveEntries_push {s : Scheduler E} (h : HeapInv s.heap s.live s.dead s.nextSeq)
    (e : Entry E) (he : e.key.seq = s.nextSeq) :
    liveEntries (e :: s.heap) (insert s.nextSeq s.live) = insert e s.pending := by
  ext x
  simp only [pending, liveEntries, Set.mem_ofPred_eq, List.mem_cons, Finset.mem_insert,
    Set.mem_insert_iff]
  constructor
  · rintro ⟨rfl | hx, hs | hs⟩
    · exact Or.inl rfl
    · exact Or.inl rfl
    · have := h.seq_lt x hx
      omega
    · exact Or.inr ⟨hx, hs⟩
  · rintro (rfl | ⟨hx, hs⟩)
    · exact ⟨Or.inl rfl, Or.inl he⟩
    · exact ⟨Or.inr hx, Or.inr hs⟩

/-- A push of an event that keeps the order agrees with adding it to the set. The debt may have
been raised for it just before. -/
lemma push_agree {s : Scheduler E} (h : HeapInv s.heap s.live s.dead s.nextSeq)
    (hseq : s.nextSeq < 2 ^ 64) (t : SimTime) (cls : EventClass) (payload : E)
    (horder : OrderInv (insert ⟨⟨t, cls.priority, s.nextSeq⟩, payload⟩ s.pending)
      (s.nextSeq + 1) s.now s.lastKey s.reentrantDebt) :
    Machine.Agree Refines (s.push t cls payload) (s.toPendingSet.add t cls payload) := by
  have hlive := liveEntries_push h ⟨⟨t, cls.priority, s.nextSeq⟩, payload⟩ rfl
  simp only [push, PendingSet.add, toPendingSet_nextSeq]
  split_ifs with hov
  · rfl
  · refine ⟨rfl, ⟨?_, ?_, ?_⟩, ?_⟩
    · exact h.insert rfl
    · simpa only [pending, hlive] using horder
    · simp only
      omega
    · exact PendingSet.ext hlive.symm rfl rfl rfl

/-- `schedule` agrees with its specification. -/
lemma schedule_agree {s : Scheduler E} (h : s.Inv) (t : SimTime) (cls : EventClass)
    (payload : E) :
    Machine.Agree Refines (s.schedule t cls payload) (s.toPendingSet.schedule t cls payload) := by
  rw [schedule, PendingSet.schedule, assertNotPast]
  have hlast : s.toPendingSet.lastKey = s.lastKey := rfl
  rw [hlast]
  change Machine.Agree _ _ (if t < s.now then _ else _)
  split_ifs with hpast
  · rfl
  · have hins : (∀ k, s.lastKey = some k → ¬ EventKey.Precedes t cls.priority k) →
        OrderInv (insert ⟨⟨t, cls.priority, s.nextSeq⟩, payload⟩ s.pending)
          (s.nextSeq + 1) s.now s.lastKey s.reentrantDebt :=
      h.order.insert (e := ⟨⟨t, cls.priority, s.nextSeq⟩, payload⟩) rfl (not_lt.1 hpast)
    cases hl : s.lastKey with
    | none =>
      refine push_agree h.heap h.nextSeq_lt t cls payload (hins ?_)
      simp [hl]
    | some k =>
      change Machine.Agree _ (if EventKey.Precedes t cls.priority k then _ else _) _
      dsimp only
      split_ifs with hk
      · rfl
      · refine push_agree h.heap h.nextSeq_lt t cls payload (hins ?_)
        rintro k' hk'
        obtain rfl : k = k' := Option.some.inj (hl.symm.trans hk')
        exact hk

/-- Raising the debt for an event before the last key keeps the order with that event added, and
the counter cannot overflow: it stays below the sequence counter. -/
lemma noteReentrant_spec {s : Scheduler E} (h : s.Inv) (t : SimTime) (cls : EventClass)
    (payload : E) (hpast : s.now ≤ t) :
    ∃ debt, s.noteReentrant t cls = .ok { s with reentrantDebt := debt } ∧
      OrderInv (insert ⟨⟨t, cls.priority, s.nextSeq⟩, payload⟩ s.pending)
        (s.nextSeq + 1) s.now s.lastKey debt := by
  rw [noteReentrant]
  cases hl : s.lastKey with
  | none =>
    refine ⟨s.reentrantDebt, by simp [← hl], ?_⟩
    rw [← hl]
    exact h.order.insert rfl hpast (by simp [hl])
  | some k =>
    dsimp only
    have hd := (h.order.last k hl).2.2
    have hseq := h.nextSeq_lt
    split_ifs with hk hov
    · omega
    · refine ⟨s.reentrantDebt + 1, rfl, ?_⟩
      rw [← hl]
      exact h.order.insertReentrant hl hpast hk
    · refine ⟨s.reentrantDebt, by simp [← hl], ?_⟩
      rw [← hl]
      refine h.order.insert rfl hpast ?_
      intro k' hk'
      obtain rfl : k = k' := Option.some.inj (hl.symm.trans hk')
      exact hk

/-- `schedule_reentrant` agrees with its specification. -/
lemma scheduleReentrant_agree {s : Scheduler E} (h : s.Inv) (t : SimTime) (cls : EventClass)
    (payload : E) :
    Machine.Agree Refines (s.scheduleReentrant t cls payload)
      (s.toPendingSet.scheduleReentrant t cls payload) := by
  rw [scheduleReentrant, PendingSet.scheduleReentrant, assertNotPast]
  change Machine.Agree _ _ (if t < s.now then _ else _)
  split_ifs with hpast
  · rfl
  · obtain ⟨debt, hdebt, horder⟩ := noteReentrant_spec h t cls payload (not_lt.1 hpast)
    change Machine.Agree _ ((s.noteReentrant t cls).bind _) _
    rw [hdebt]
    exact push_agree (s := { s with reentrantDebt := debt }) h.heap h.nextSeq_lt t cls payload
      horder

/-! ## Cancellation -/

lemma refines_compactIfNeeded {s : Scheduler E} (h : s.Inv) :
    Refines s.compactIfNeeded s.toPendingSet := by
  rw [compactIfNeeded]
  split_ifs
  · exact ⟨h, rfl⟩
  · have hset : liveEntries (s.heap.filter (fun e => e.key.seq ∈ s.live)) s.live = s.pending := by
      ext e
      simp [liveEntries, pending]
    refine ⟨⟨h.heap.compact, ?_, h.nextSeq_lt⟩, ?_⟩
    · simpa only [pending, hset] using h.order
    · exact PendingSet.ext hset.symm rfl rfl rfl

/-- `cancel` agrees with its specification. -/
lemma cancel_agree {s : Scheduler E} (h : s.Inv) (q : ℕ) :
    (s.cancel q).1 = (s.toPendingSet.cancel q).1 ∧
      Refines (s.cancel q).2 (s.toPendingSet.cancel q).2 := by
  have hiff : (∃ e ∈ s.pending, e.key.seq = q) ↔ q ∈ s.live := by
    constructor
    · rintro ⟨e, he, rfl⟩
      exact he.2
    · intro hq
      obtain ⟨e, he, rfl⟩ := h.heap.live_mem q hq
      exact ⟨e, ⟨he, hq⟩, rfl⟩
  have hset : liveEntries s.heap (s.live.erase q) = {e | e ∈ s.pending ∧ e.key.seq ≠ q} := by
    ext e
    simp only [liveEntries, pending, Set.mem_ofPred_eq, Finset.mem_erase]
    tauto
  simp only [cancel, PendingSet.cancel, toPendingSet, hiff]
  split_ifs with hq
  · have hinv : Inv { s with live := s.live.erase q, dead := s.dead + 1 } := by
      refine ⟨h.heap.cancel hq, h.order.mono ?_, h.nextSeq_lt⟩
      rw [pending, hset]
      exact fun e he => he.1
    refine ⟨by simp [hq], ?_⟩
    have href := refines_compactIfNeeded hinv
    simpa only [toPendingSet, pending, hset] using href
  · have hall : {e | e ∈ s.pending ∧ e.key.seq ≠ q} = s.pending := by
      ext e
      refine ⟨fun he => he.1, fun he => ⟨he, ?_⟩⟩
      rintro rfl
      exact hq he.2
    refine ⟨by simp [hq], h, ?_⟩
    simp only [hall, toPendingSet]

/-! ## Dispatch -/

lemma dropDead {s : Scheduler E} (h : s.Inv) {e : Entry E} {rest : List (Entry E)}
    (hx : extractMin Entry.key s.heap = some (e, rest)) (he : e.key.seq ∉ s.live) :
    s.dead ≠ 0 ∧ Refines { s with heap := rest, dead := s.dead - 1 } s.toPendingSet := by
  obtain ⟨hdead, hinv, hset⟩ := h.heap.dropDead hx he
  refine ⟨hdead, ⟨hinv, ?_, h.nextSeq_lt⟩, ?_⟩
  · simpa only [pending, hset] using h.order
  · exact PendingSet.ext hset.symm rfl rfl rfl

/-- Dispatching the live entry at the head, in the terms of the set. -/
lemma dispatch (dbg : Bool) {s : Scheduler E} (h : s.Inv) {e : Entry E}
    {rest : List (Entry E)} (hx : extractMin Entry.key s.heap = some (e, rest))
    (he : e.key.seq ∈ s.live) :
    ∃ debt, checkDispatchOrder dbg
        { s with heap := rest, live := s.live.erase e.key.seq } e.key =
          .ok { s with heap := rest, live := s.live.erase e.key.seq, reentrantDebt := debt } ∧
      (s.toPendingSet.pop).1 = some (e.key, e.payload) ∧
      Refines { s with
        heap := rest, live := s.live.erase e.key.seq, reentrantDebt := debt,
        now := e.key.time, lastKey := some e.key } s.toPendingSet.pop.2 := by
  obtain ⟨hfirst, hinv, hset⟩ := h.heap.takeLive hx he
  obtain ⟨debt, hle, hcheck⟩ := checkDispatchOrder_eq_ok dbg
    { s with heap := rest, live := s.live.erase e.key.seq } h.order hfirst.1
  have hnext : s.toPendingSet.next = some e :=
    next_eq_some h.heap.injOn_key hfirst
  refine ⟨debt, hcheck, by simp [PendingSet.pop, hnext], ⟨hinv, ?_, h.nextSeq_lt⟩, ?_⟩
  · have hseq := h.heap.seq_lt e hfirst.1.1
    simpa only [pending, hset] using h.order.dispatch h.heap.injOn_key hfirst hseq hle
  · rw [PendingSet.pop, hnext]
    exact PendingSet.ext hset.symm rfl rfl rfl

lemma pop_of_heap_eq_nil {s : Scheduler E} (h : s.heap = []) :
    s.toPendingSet.next = none := by
  refine next_eq_none.2 ?_
  ext e
  simp [toPendingSet, pending, liveEntries, h]

/-- **The loop of `pop`** takes the first pending event, whatever dead entries lie before it.

**Proof sketch.** Induction on the iterations left, which cover the heap. A live head is the first
event (`dispatch`); a dead head is dropped, which changes neither the invariant nor the pending set
(`dropDead`), and the loop goes on with a shorter heap. -/
theorem popLoop_spec (dbg : Bool) (fuel : ℕ) : ∀ s : Scheduler E, s.Inv → s.heap.length ≤ fuel →
    Machine.Agree Refines (popLoop dbg fuel s) (.ok s.toPendingSet.pop) := by
  induction fuel with
  | zero =>
    intro s h hlen
    have hnext := pop_of_heap_eq_nil (List.length_eq_zero_iff.1 (Nat.le_zero.1 hlen))
    simp only [popLoop, PendingSet.pop, hnext]
    exact ⟨rfl, h, rfl⟩
  | succ fuel ih =>
    intro s h hlen
    rw [popLoop]
    cases hx : extractMin Entry.key s.heap with
    | none =>
      have hnext := pop_of_heap_eq_nil ((extractMin_eq_none Entry.key).1 hx)
      simp only [PendingSet.pop, hnext]
      exact ⟨rfl, h, rfl⟩
    | some p =>
      obtain ⟨e, rest⟩ := p
      dsimp only
      split_ifs with hlive hdead
      · obtain ⟨debt, hcheck, hpop, href⟩ := dispatch dbg h hx hlive
        rw [hcheck]
        exact ⟨hpop.symm, href⟩
      · exact absurd hdead (dropDead h hx hlive).1
      · obtain ⟨-, hinv, hset⟩ := dropDead h hx hlive
        have hlt := extractMin_length Entry.key hx
        have := ih _ hinv (by simp only; omega)
        rwa [← hset] at this

/-- The loop of `purge_head` leaves the set alone, and the head of the heap is then the first
pending event.

**Proof sketch.** Induction on the iterations left, as for `popLoop_spec`. -/
lemma purgeHeadLoop_spec (fuel : ℕ) : ∀ s : Scheduler E, s.Inv → s.heap.length ≤ fuel →
    ∃ s', purgeHeadLoop fuel s = .ok s' ∧ Refines s' s.toPendingSet ∧
      s'.peek = s.toPendingSet.next := by
  induction fuel with
  | zero =>
    intro s h hlen
    have hnil := List.length_eq_zero_iff.1 (Nat.le_zero.1 hlen)
    refine ⟨s, rfl, ⟨h, rfl⟩, ?_⟩
    rw [pop_of_heap_eq_nil hnil]
    simp [peek, hnil, extractMin]
  | succ fuel ih =>
    intro s h hlen
    rw [purgeHeadLoop]
    cases hx : extractMin Entry.key s.heap with
    | none =>
      refine ⟨s, rfl, ⟨h, rfl⟩, ?_⟩
      rw [pop_of_heap_eq_nil ((extractMin_eq_none Entry.key).1 hx)]
      simp [peek, hx]
    | some p =>
      obtain ⟨e, rest⟩ := p
      dsimp only
      split_ifs with hlive hdead
      · refine ⟨s, rfl, ⟨h, rfl⟩, ?_⟩
        have hfirst := (h.heap.takeLive hx hlive).1
        rw [next_eq_some (p := s.toPendingSet) h.heap.injOn_key hfirst]
        simp [peek, hx]
      · exact absurd hdead (dropDead h hx hlive).1
      · obtain ⟨-, hinv, hset⟩ := dropDead h hx hlive
        have hlt := extractMin_length Entry.key hx
        obtain ⟨s', hs', href, hpeek⟩ := ih _ hinv (by simp only; omega)
        rw [← hset] at href hpeek
        exact ⟨s', hs', href, hpeek⟩

lemma refines_clear {s : Scheduler E} (h : s.Inv) :
    Refines s.clear { s.toPendingSet with pending := ∅ } := by
  have hempty : s.clear.pending = ∅ := by
    ext e
    simp [pending, liveEntries, clear]
  refine ⟨⟨⟨by simp [clear], by simp [clear], by simp [clear], by simp [clear]⟩, ?_,
    h.nextSeq_lt⟩, ?_⟩
  · rw [hempty]
    exact h.order.mono (Set.empty_subset _)
  · exact PendingSet.ext hempty.symm rfl rfl rfl

/-! ## Whole runs -/

lemma agree_map {α : Type} (f : α → Ret E) {x : Except Panic (α × Scheduler E)}
    {y : Except Panic (α × PendingSet E)} (h : Machine.Agree Refines x y) :
    Machine.Agree Refines (x.map (Prod.map f id)) (y.map (Prod.map f id)) := by
  cases x with
  | error e =>
    cases y with
    | error e' => exact h
    | ok q => exact h.elim
  | ok p =>
    cases y with
    | error e' => exact h.elim
    | ok q => exact ⟨congrArg f h.1, h.2⟩

/-- Each call agrees with the set of pending events. -/
lemma call_agree (dbg : Bool) {s : Scheduler E} (h : s.Inv) (op : Op E) :
    Machine.Agree Refines (s.call dbg op) (s.toPendingSet.call op) := by
  cases op with
  | schedule t cls p => exact agree_map _ (schedule_agree h t cls p)
  | scheduleAfter d cls p => exact agree_map _ (schedule_agree h (d.after s.now) cls p)
  | scheduleReentrant t cls p => exact agree_map _ (scheduleReentrant_agree h t cls p)
  | cancel q =>
    obtain ⟨hret, href⟩ := cancel_agree h q
    exact ⟨congrArg Ret.cancelled hret, href⟩
  | pop => exact agree_map _ (popLoop_spec dbg s.heap.length s h le_rfl)
  | peekTime =>
    obtain ⟨s', hs', href, hpeek⟩ := purgeHeadLoop_spec s.heap.length s h le_rfl
    have hcall : s.call dbg .peekTime = .ok (.time (s'.peek.map (·.key.time)), s') := by
      rw [call, peekTime, purgeHead, hs']
      rfl
    rw [hcall, hpeek]
    exact ⟨rfl, href⟩
  | peekKey =>
    obtain ⟨s', hs', href, hpeek⟩ := purgeHeadLoop_spec s.heap.length s h le_rfl
    have hcall : s.call dbg .peekKey = .ok (.key (s'.peek.map (·.key)), s') := by
      rw [call, peekKey, purgeHead, hs']
      rfl
    rw [hcall, hpeek]
    exact ⟨rfl, href⟩
  | clear => exact ⟨rfl, refines_clear h⟩

/-- What a caller sees after a call agrees too: `len` counts the pending events. -/
lemma step_agree (dbg : Bool) (s : Scheduler E) (p : PendingSet E) (op : Op E)
    (h : Refines s p) :
    Machine.Agree Refines ((machine E dbg).step s op) ((PendingSet.machine E).step p op) := by
  obtain ⟨hinv, rfl⟩ := h
  have hcall := call_agree dbg hinv op
  simp only [machine, PendingSet.machine]
  cases hs : s.call dbg op with
  | error e =>
    cases hp : s.toPendingSet.call op with
    | error e' => rw [hs, hp] at hcall; exact hcall
    | ok q => rw [hs, hp] at hcall; exact hcall.elim
  | ok a =>
    cases hp : s.toPendingSet.call op with
    | error e' => rw [hs, hp] at hcall; exact hcall.elim
    | ok q =>
      rw [hs, hp] at hcall
      obtain ⟨r, s'⟩ := a
      obtain ⟨r', p'⟩ := q
      obtain ⟨rfl, hinv', rfl⟩ := hcall
      refine ⟨?_, hinv', rfl⟩
      have hlen : s'.len = s'.pending.ncard := hinv'.heap.ncard_liveEntries.symm
      simp only [observe, PendingSet.observe, toPendingSet, hlen]

lemma inv_of_reachable {dbg : Bool} {s : Scheduler E} (h : (machine E dbg).Reachable s) :
    s.Inv := by
  refine h.invariant refines_new.1 ?_
  intro t op o t' ht hstep
  have hagree := step_agree dbg t t.toPendingSet op ⟨ht, rfl⟩
  rw [hstep] at hagree
  cases hp : (PendingSet.machine E).step t.toPendingSet op with
  | error e => rw [hp] at hagree; exact hagree.elim
  | ok q => rw [hp] at hagree; exact hagree.2.1

/-- **The scheduler is a set of pending events.** Whatever the build and the calls, every call
returns what it returns on the plain set of pending events, and a run that panics does so at the
same call, with one of the documented assertions or the overflow of the sequence counter; in every
state reached on the way the dead counter is the number of heap entries without a live handle.

**Proof sketch.** `step_agree` makes `Refines` a simulation, and the counter is a field of the
invariant. -/
theorem trace_eq_pendingSet (dbg : Bool) (ops : List (Op E)) :
    (machine E dbg).trace new ops = (PendingSet.machine E).trace PendingSet.new ops ∧
      ∀ s : Scheduler E, (machine E dbg).Reachable s →
        s.dead + s.live.card = s.heap.length ∧
          s.dead = (s.heap.filter (fun e => e.key.seq ∉ s.live)).length := by
  refine ⟨?_, fun s hs => ?_⟩
  · exact Machine.trace_eq_of_simulation (step_agree dbg) ops _ _ refines_new
  · have hinv := (inv_of_reachable hs).heap
    refine ⟨hinv.dead_add, ?_⟩
    have hsplit := List.length_eq_length_filter_add (l := s.heap) (fun e => e.key.seq ∈ s.live)
    have hdead := hinv.dead_add
    rw [hinv.length_filter] at hsplit
    simp only [← decide_not] at hsplit
    omega

end V2xw.Core.Scheduler
