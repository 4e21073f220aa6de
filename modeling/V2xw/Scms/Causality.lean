import V2xw.Scms.KernelSpec
import V2xw.Scms.Run

/-!
# Causality of the event kernel

What every caller of `crates/v2xw-proto/src/kernel.rs` may rely on, whatever its messages are:
a kernel under any sequence of hostings, changes of the links, injections, deliveries and
dispatches, where each dispatch is for the delivery handed out last.

## Main definitions

* `Kernel.accepts` — what a dispatch accepts, with the instants it is due at.
* `kernelMachine` — a kernel under its operations.
* `accepted`, `handed` — what a run has accepted and handed out.
* `Driven` — a kernel driven by a handler up to a horizon.

## Main results

* `kernel_causality` — clock, order, conservation, injections and horizons.
-/

namespace V2xw.Scms

open V2xw.Core

variable {M : Type}

/-! ## Service queues -/

namespace ServiceQueue

lemma firstFree_eq_none : ∀ {l : List SimTime}, firstFree l = none → l = []
  | [], _ => rfl
  | u :: l, h => by
    unfold firstFree at h
    split at h
    · exact nomatch h
    · split_ifs at h

/-- The server taken is one of the servers, free at the instant given with it. -/
lemma firstFree_spec : ∀ {l : List SimTime} {i : ℕ} {t : SimTime}, firstFree l = some (i, t) →
    l[i]? = some t
  | u :: l, i, t, h => by
    unfold firstFree at h
    cases hl : firstFree l with
    | none =>
      rw [hl] at h
      obtain ⟨rfl, rfl⟩ := Prod.mk.inj (Option.some.inj h)
      rfl
    | some p =>
      obtain ⟨j, v⟩ := p
      have ih := firstFree_spec hl
      rw [hl] at h
      dsimp only at h
      split_ifs at h
      · obtain ⟨rfl, rfl⟩ := Prod.mk.inj (Option.some.inj h)
        rfl
      · obtain ⟨rfl, rfl⟩ := Prod.mk.inj (Option.some.inj h)
        exact ih

/-- A server is free by the instant all of them are. -/
lemma le_busyUntil {q : ServiceQueue} {t : SimTime} (h : t ∈ q.freeAt) : t ≤ q.busyUntil := by
  have hgen : ∀ (l : List SimTime) (a : SimTime), a ≤ l.foldl max a ∧ ∀ t ∈ l,
      t ≤ l.foldl max a := by
    intro l
    induction l with
    | nil => exact fun a => ⟨le_rfl, fun t ht => absurd ht List.not_mem_nil⟩
    | cons b l ih =>
      intro a
      obtain ⟨hstart, hall⟩ := ih (max a b)
      refine ⟨(le_max_left a b).trans hstart, fun t ht => ?_⟩
      rcases List.mem_cons.1 ht with rfl | ht
      · exact (le_max_right a t).trans hstart
      · exact hall t ht
  exact (hgen q.freeAt 0).2 t h

lemma busyUntil_le {q : ServiceQueue} {b : SimTime} (h : ∀ t ∈ q.freeAt, t ≤ b) :
    q.busyUntil ≤ b := by
  have hgen : ∀ (l : List SimTime) (a : SimTime), a ≤ b → (∀ t ∈ l, t ≤ b) → l.foldl max a ≤ b := by
    intro l
    induction l with
    | nil => exact fun a ha _ => ha
    | cons c l ih =>
      intro a ha hl
      refine ih _ (max_le ha (hl c List.mem_cons_self)) fun t ht => hl t (List.mem_cons_of_mem _ ht)
  exact hgen q.freeAt 0 (Nat.zero_le b) h

/-- What every queue of an entity keeps: it has a server, and none is busy beyond the end of
simulated time. -/
structure Inv (q : ServiceQueue) : Prop where
  servers : q.freeAt ≠ []
  free_le : ∀ t ∈ q.freeAt, t ≤ u64Max

lemma inv_new (spec : ServiceModelSpec) : (new spec).Inv := by
  refine ⟨fun h => ?_, fun t ht => ?_⟩
  · have hlen := congrArg List.length h
    simp only [new, List.length_replicate, List.length_nil] at hlen
    omega
  · rw [List.eq_of_mem_replicate ht]
    exact Nat.zero_le _

/-- What admitting a request does: it is finished after its arrival, and no server is free earlier
than before. -/
structure Admits (q : ServiceQueue) (arrival done : SimTime) (q' : ServiceQueue) : Prop where
  inv : q'.Inv
  arrival_le : arrival ≤ done
  done_le : done ≤ u64Max
  busy_le : q.busyUntil ≤ q'.busyUntil
  done_le_busy : done ≤ q'.busyUntil

/-- Admission, for an arrival within simulated time. -/
lemma admits {q : ServiceQueue} {arrival : SimTime} (hq : q.Inv) (harrival : arrival ≤ u64Max)
    (work : Duration) : Admits q arrival (q.admitRequest arrival work).1
        (q.admitRequest arrival work).2 := by
  obtain ⟨⟨index, free⟩, hfirst⟩ : ∃ x, firstFree q.freeAt = some x := by
    cases h : firstFree q.freeAt with
    | none => exact absurd (firstFree_eq_none h) hq.servers
    | some x => exact ⟨x, rfl⟩
  set done := (Duration.mk (sat64 (work.ns + q.fixedOverhead.ns))).after
    (max free arrival) with hdone
  obtain ⟨hres, hset⟩ : (q.admitRequest arrival work).1 = done ∧
      (q.admitRequest arrival work).2.freeAt = q.freeAt.set index done := by
    simp only [admitRequest, hfirst]
    exact ⟨rfl, rfl⟩
  obtain ⟨hindex, hget⟩ := List.getElem?_eq_some_iff.1 (firstFree_spec hfirst)
  have hfree : free ≤ u64Max := hq.free_le _ (hget ▸ List.getElem_mem hindex)
  have hstart : max free arrival ≤ done := le_min (Nat.le_add_right _ _) (max_le hfree harrival)
  have hmem : done ∈ (q.admitRequest arrival work).2.freeAt := by
    rw [hset]
    exact List.mem_set hindex done
  rw [hres]
  refine ⟨⟨fun h => ?_, fun t ht => ?_⟩, (le_max_right _ _).trans hstart, min_le_right _ _,
    busyUntil_le fun t ht => ?_, le_busyUntil hmem⟩
  · rw [h] at hmem
    exact absurd hmem List.not_mem_nil
  · rw [hset] at ht
    rcases List.mem_or_eq_of_mem_set ht with h | rfl
    · exact hq.free_le t h
    · exact min_le_right _ _
  · obtain ⟨i, hi, rfl⟩ := List.getElem_of_mem ht
    by_cases hi' : index = i
    · -- The server taken was free before the request was started.
      subst hi'
      rw [hget]
      exact ((le_max_left _ _).trans hstart).trans (le_busyUntil hmem)
    · have hother : (q.freeAt.set index done).get ⟨i, by rwa [List.length_set]⟩ = q.freeAt[i] :=
        List.getElem_set_ne hi' _
      refine le_busyUntil ?_
      rw [hset, ← hother]
      exact List.getElem_mem _

end ServiceQueue

/-! ## What a dispatch accepts -/

/-- Deliveries in the order they are scheduled, numbered on from the last one. -/
def numberedFrom (seq : ℕ) : List (Delivery M) → List (Queued M)
  | [] => []
  | d :: ds => ⟨d.time, seq + 1, d⟩ :: numberedFrom (seq + 1) ds

lemma seq_numberedFrom (ds : List (Delivery M)) :
    ∀ seq, (numberedFrom seq ds).map (·.seq) = List.range' (seq + 1) ds.length := by
  induction ds with
  | nil => exact fun _ => rfl
  | cons d ds ih =>
    intro seq
    rw [numberedFrom, List.map_cons, ih, List.length_cons, List.range'_succ]

lemma of_mem_numberedFrom {ds : List (Delivery M)} :
    ∀ {seq : ℕ} {x : Queued M}, x ∈ numberedFrom seq ds →
      x.delivery ∈ ds ∧ x.time = x.delivery.time := by
  induction ds with
  | nil => exact fun h => absurd h List.not_mem_nil
  | cons d ds ih =>
    intro seq x h
    rcases List.mem_cons.1 h with rfl | h
    · exact ⟨List.mem_cons_self, rfl⟩
    · exact ⟨List.mem_cons_of_mem _ (ih h).1, (ih h).2⟩

lemma numberedFrom_append (ds ds' : List (Delivery M)) :
    ∀ seq, numberedFrom seq (ds ++ ds') =
      numberedFrom seq ds ++ numberedFrom (seq + ds.length) ds' := by
  induction ds with
  | nil => exact fun _ => rfl
  | cons d ds ih =>
    intro seq
    rw [List.cons_append, numberedFrom, numberedFrom, ih, List.length_cons, Nat.add_right_comm,
      List.cons_append]
    rfl

/-- The delivery of a timer of a step finished at `done`. -/
def timerDelivery (done : SimTime) (node : NodeId) (t : PendingTimer M) : Delivery M :=
  (Outbox.timerPost node t).deliverAt (t.delay.after done)

/-- The deliveries of the sends of a step finished at `done`, up to the first one without a
link. -/
def sendDeliveries (net : BackendNet) (done : SimTime) (node : NodeId) :
    List (PendingSend M) → List (Delivery M)
  | [] => []
  | s :: sends =>
    match net.link node s.dst with
    | none => []
    | some link =>
      (Outbox.sendPost node s).deliverAt ((link.delay s.size).after done) ::
        sendDeliveries net done node sends

/-- A delivery of a send crosses the link to its receiver. -/
lemma of_mem_sendDeliveries {net : BackendNet} {done : SimTime} {node : NodeId} {d : Delivery M} :
    ∀ {sends : List (PendingSend M)}, d ∈ sendDeliveries net done node sends →
      ∃ s ∈ sends, ∃ link, net.link node s.dst = some link ∧
        d = (Outbox.sendPost node s).deliverAt ((link.delay s.size).after done)
  | s :: sends, h => by
    unfold sendDeliveries at h
    split at h
    · exact absurd h List.not_mem_nil
    · next link hlink =>
      rcases List.mem_cons.1 h with rfl | h
      · exact ⟨s, List.mem_cons_self, link, hlink, rfl⟩
      · obtain ⟨s', hs', hrest⟩ := of_mem_sendDeliveries h
        exact ⟨s', List.mem_cons_of_mem _ hs', hrest⟩

namespace Kernel

/-- When a node has finished a step that began with a delivery at `time`. -/
def completion (k : Kernel M) (time : SimTime) (node : NodeId) (out : Outbox M) : Option SimTime :=
  k.queues[node]?.map fun queue => (queue.admitRequest time out.work).1

/-- The deliveries a dispatch accepts: the timers, then the sends. -/
def accepts (k : Kernel M) (time : SimTime) (node : NodeId) (out : Outbox M) : List (Delivery M) :=
  (k.completion time node out).elim [] fun done =>
    out.timers.map (timerDelivery done node) ++ sendDeliveries k.net done node out.sends

/-- A kernel with deliveries scheduled on top of its schedule. -/
structure Extends (k k' : Kernel M) (ds : List (Delivery M)) : Prop where
  heap : k'.heap = (numberedFrom k.seq ds).reverse ++ k.heap
  seq : k'.seq = k.seq + ds.length
  now : k'.now = k.now

lemma Extends.same {k k' : Kernel M} (hheap : k'.heap = k.heap) (hseq : k'.seq = k.seq)
    (hnow : k'.now = k.now) : Extends k k' [] := ⟨hheap, hseq, hnow⟩

lemma Extends.trans {k k' k'' : Kernel M} {ds ds' : List (Delivery M)} (h : Extends k k' ds)
    (h' : Extends k' k'' ds') : Extends k k'' (ds ++ ds') where
  heap := by
    rw [h'.heap, h.heap, h.seq, numberedFrom_append, List.reverse_append, List.append_assoc]
  seq := by rw [h'.seq, h.seq, List.length_append, Nat.add_assoc]
  now := h'.now.trans h.now

lemma extends_push (k : Kernel M) (d : Delivery M) : Extends k (k.push d.time d) [d] :=
  ⟨rfl, rfl, rfl⟩

lemma extends_timers (done : SimTime) (node : NodeId) (timers : List (PendingTimer M)) :
    ∀ k : Kernel M, Extends k (timers.foldl (pushTimer done node) k)
      (timers.map (timerDelivery done node)) := by
  induction timers with
  | nil => exact fun k => .same rfl rfl rfl
  | cons t timers ih =>
    exact fun k => (extends_push k (timerDelivery done node t)).trans (ih _)

/-- Sending messages. -/
lemma extends_sends (done : SimTime) (node : NodeId) (sends : List (PendingSend M)) :
    ∀ k : Kernel M, Extends k (pushSends done node k sends).2
      (sendDeliveries k.net done node sends) := by
  induction sends with
  | nil => exact fun k => .same rfl rfl rfl
  | cons s sends ih =>
    intro k
    cases hlink : k.net.link node s.dst with
    | none =>
      simp only [pushSends, sendDeliveries, hlink]
      exact .same rfl rfl rfl
    | some link =>
      simp only [pushSends, sendDeliveries, hlink]
      have hfirst : Extends k (k.pushSend done node s link)
          [(Outbox.sendPost node s).deliverAt ((link.delay s.size).after done)] := ⟨rfl, rfl, rfl⟩
      exact hfirst.trans (ih (k.pushSend done node s link))

/-- A dispatch schedules what it accepts. -/
lemma extends_dispatch (k : Kernel M) (time : SimTime) (node : NodeId) (out : Outbox M) :
    Extends k (k.dispatch time node out).2 (k.accepts time node out) := by
  cases hqueue : k.queues[node]? with
  | none =>
    simp only [dispatch, accepts, completion, hqueue]
    exact .same rfl rfl rfl
  | some queue =>
    simp only [dispatch, accepts, completion, hqueue, Option.map_some, Option.elim_some]
    set done := (queue.admitRequest time out.work).1
    set k₁ : Kernel M := { k with
      queues := k.queues.insert node (queue.admitRequest time out.work).2
      stages := k.stages ++ out.stages.map (stamp done) } with hk₁
    have hstart : Extends k k₁ [] := .same rfl rfl rfl
    have htimers := extends_timers done node out.timers k₁
    have hsends := extends_sends done node out.sends (out.timers.foldl (pushTimer done node) k₁)
    have hnet := (foldl_pushTimer_keeps done node out.timers k₁).1
    rw [hnet] at hsends
    exact hstart.trans (htimers.trans hsends)

/-- A dispatch admits its work to the queue of the node, and touches no other queue. -/
lemma queues_dispatch (k : Kernel M) (time : SimTime) (node : NodeId) (out : Outbox M) :
    (k.dispatch time node out).2.queues =
      (k.queues[node]?).elim k.queues fun queue =>
        k.queues.insert node (queue.admitRequest time out.work).2 := by
  cases hqueue : k.queues[node]? with
  | none => simp only [dispatch, hqueue, Option.elim_none]
  | some queue =>
    simp only [dispatch, hqueue, Option.elim_some]
    obtain ⟨_, -, -, -, hqueues, -⟩ := pushSends_posts (queue.admitRequest time out.work).1
      node out.sends
      (out.timers.foldl (pushTimer (queue.admitRequest time out.work).1 node) { k with
        queues := k.queues.insert node (queue.admitRequest time out.work).2
        stages := k.stages ++ out.stages.map (stamp (queue.admitRequest time out.work).1) })
    rw [hqueues, (foldl_pushTimer_keeps _ node out.timers _).2.1]

end Kernel

/-! ## A kernel under its operations -/

/-- An instant within simulated time. -/
abbrev Instant := {t : SimTime // t ≤ u64Max}

/-- What is done with a kernel. -/
inductive KernelOp (M : Type) where
  /-- Gives a node a service model. -/
  | host (node : NodeId) (spec : ServiceModelSpec) (profile : String)
  | connect (net : BackendNet)
  | injectAt (time : Instant) (delivery : Delivery M)
  /-- The next delivery, up to a horizon if there is one. -/
  | next (horizon : Option SimTime)
  /-- Dispatches the outbox of the delivery handed out last. -/
  | dispatch (out : Outbox M)

/-- What an operation returns, with the entries it put on the schedule. -/
inductive KernelReply (M : Type) where
  | hosted (node : NodeId)
  | connected
  | injected (entry : Queued M)
  | delivered (entry : Option (Queued M))
  | dispatched (node : NodeId) (done : Option SimTime) (entries : List (Queued M))
    (result : Except ProtoError Unit)

/-- A kernel and the delivery it handed out last. -/
structure Operated (M : Type) where
  kernel : Kernel M
  last : Option (Queued M)

/-- A kernel under its operations. A dispatch without a delivery is no operation. -/
def kernelMachine (net : BackendNet) (t0 : Instant) :
    Machine (Operated M) (KernelOp M) (KernelReply M) Unit where
  init := ⟨Kernel.newAt net t0.1, none⟩
  step s op :=
    let k := s.kernel
    match op with
    | .host node spec profile => .ok (.hosted node, { s with kernel := k.host node spec profile })
    | .connect net => .ok (.connected, { s with kernel := { k with net } })
    | .injectAt time delivery =>
      let at' := max time.1 (k.busyUntil delivery.dst)
      .ok (.injected ⟨at', k.seq + 1, { delivery with time := at' }⟩,
        { s with kernel := k.injectAt time.1 delivery })
    | .next horizon =>
      match horizon.elim k.nextDelivery k.nextDeliveryBefore with
      | none => .ok (.delivered none, { s with last := none })
      | some (q, k) => .ok (.delivered (some q), ⟨k, some q⟩)
    | .dispatch out =>
      match s.last with
      | none => .error ()
      | some q =>
        let (time, node) := (q.delivery.time, q.delivery.dst)
        let (result, k') := k.dispatch time node out
        .ok (.dispatched node (k.completion time node out)
          (numberedFrom k.seq (k.accepts time node out)) result, { s with kernel := k' })

/-- The entries an operation put on the schedule, in the order of their creation. -/
def KernelReply.accepted : KernelReply M → List (Queued M)
  | .injected entry => [entry]
  | .dispatched _ _ entries _ => entries
  | _ => []

/-- The entry an operation handed out. -/
def KernelReply.handed : KernelReply M → Option (Queued M)
  | .delivered entry => entry
  | _ => none

/-- The entries a run has put on the schedule, in the order of their creation. -/
def accepted (os : List (KernelReply M)) : List (Queued M) := os.flatMap KernelReply.accepted

/-- The entries a run has handed out. -/
def handed (os : List (KernelReply M)) : List (Queued M) := os.filterMap KernelReply.handed

/-- When the work given to a node was or will be finished, since the node was hosted last. -/
def completions (node : NodeId) (os : List (KernelReply M)) : List SimTime :=
  os.foldl (fun l o =>
    match o with
    | .hosted n => if n = node then [] else l
    | .dispatched n done _ _ => if n = node then l ++ done.toList else l
    | _ => l) []

/-! ## What every run keeps -/

/-- What holds after every run of a kernel. -/
structure Causal (os : List (KernelReply M)) (s : Operated M) : Prop where
  /-- Entries are numbered in the order of their creation. -/
  numbered : (accepted os).map (·.seq) = List.range' 1 s.kernel.seq
  /-- What has been accepted has been handed out or is scheduled. -/
  conserved : (accepted os).Perm (handed os ++ s.kernel.heap)
  /-- What has been handed out is in order, and before what is scheduled. -/
  ordered : (handed os).Pairwise (·.key < ·.key)
  before : ∀ x ∈ handed os, ∀ y ∈ s.kernel.heap, x.key < y.key
  past : ∀ x ∈ handed os, x.time ≤ s.kernel.now
  due : ∀ x ∈ s.kernel.heap, s.kernel.now ≤ x.time ∧ x.time ≤ u64Max ∧ x.delivery.time = x.time
  last : ∀ q, s.last = some q → q.delivery.time = s.kernel.now
  now_le : s.kernel.now ≤ u64Max
  queues : ∀ (node : NodeId) queue, s.kernel.queues[node]? = some queue → queue.Inv
  completed : ∀ (node : NodeId), ∀ t ∈ completions node os,
    ∃ queue, s.kernel.queues[node]? = some queue ∧ t ≤ queue.busyUntil

section Steps

variable {os : List (KernelReply M)} {s : Operated M}

lemma accepted_snoc (o : KernelReply M) : accepted (os ++ [o]) = accepted os ++ o.accepted := by
  rw [accepted, List.flatMap_append, List.flatMap_singleton, ← accepted]

lemma handed_snoc (o : KernelReply M) : handed (os ++ [o]) = handed os ++ o.handed.toList := by
  rw [handed, List.filterMap_append, ← handed]
  cases h : o.handed <;> simp [h]

lemma Causal.seq_le (h : Causal os s) {x : Queued M} (hx : x ∈ accepted os) :
    x.seq ≤ s.kernel.seq := by
  have hmem : x.seq ∈ (accepted os).map (·.seq) := List.mem_map_of_mem hx
  rw [h.numbered, List.mem_range'_1] at hmem
  omega

lemma key_lt {x y : Queued M} (htime : x.time ≤ y.time) (hseq : x.seq < y.seq) :
    x.key < y.key := by
  unfold Queued.key
  rw [Prod.Lex.toLex_lt_toLex]
  rcases lt_or_eq_of_le htime with hlt | heq
  · exact .inl hlt
  · exact .inr ⟨heq, hseq⟩

/-- An operation that schedules deliveries no earlier than now keeps everything. -/
lemma Causal.extends (h : Causal os s) {k' : Kernel M} {l : List (Delivery M)}
    {o : KernelReply M} (hext : Kernel.Extends s.kernel k' l)
    (hds : ∀ d ∈ l, s.kernel.now ≤ d.time ∧ d.time ≤ u64Max)
    (haccepted : o.accepted = numberedFrom s.kernel.seq l) (hhanded : o.handed = none)
    (hqueues : ∀ (node : NodeId) queue, k'.queues[node]? = some queue → queue.Inv)
    (hcompleted : ∀ (node : NodeId), ∀ t ∈ completions node (os ++ [o]),
      ∃ queue, k'.queues[node]? = some queue ∧ t ≤ queue.busyUntil) :
    Causal (os ++ [o]) ⟨k', s.last⟩ := by
  have hkept : handed (os ++ [o]) = handed os := by
    rw [handed_snoc, hhanded, Option.toList_none, List.append_nil]
  have hnew {x : Queued M} (hx : x ∈ k'.heap) :
      x ∈ numberedFrom s.kernel.seq l ∨ x ∈ s.kernel.heap := by
    rw [hext.heap, List.mem_append, List.mem_reverse] at hx
    exact hx
  refine ⟨?_, ?_, ?_, ?_, ?_, ?_, ?_, ?_, hqueues, hcompleted⟩
  · rw [accepted_snoc, List.map_append, h.numbered, haccepted, seq_numberedFrom, hext.seq,
      Nat.add_comm s.kernel.seq 1, List.range'_append_1]
  · rw [accepted_snoc, hkept, haccepted, hext.heap]
    have hold := h.conserved.append_right (numberedFrom s.kernel.seq l)
    rw [List.append_assoc] at hold
    refine hold.trans (List.Perm.append_left _ ?_)
    exact List.perm_append_comm.trans ((List.reverse_perm _).symm.append_right _)
  · rw [hkept]
    exact h.ordered
  · intro x hx y hy
    rw [hkept] at hx
    rcases hnew hy with hy | hy
    · obtain ⟨hmem, htime⟩ := of_mem_numberedFrom hy
      have hseq : y.seq ∈ List.range' (s.kernel.seq + 1) l.length := by
        rw [← seq_numberedFrom]
        exact List.mem_map_of_mem hy
      have hlt := (List.mem_range'_1.1 hseq).1
      have hx' := h.seq_le (h.conserved.mem_iff.2 (List.mem_append_left _ hx))
      refine key_lt ?_ (by omega)
      rw [htime]
      exact (h.past x hx).trans (hds _ hmem).1
    · exact h.before x hx y hy
  · intro x hx
    rw [hkept] at hx
    exact (h.past x hx).trans_eq hext.now.symm
  · intro x hx
    rw [hext.now]
    rcases hnew hx with hx | hx
    · obtain ⟨hmem, htime⟩ := of_mem_numberedFrom hx
      rw [htime]
      exact ⟨(hds _ hmem).1, (hds _ hmem).2, rfl⟩
    · exact h.due x hx
  · intro q hq
    exact (h.last q hq).trans hext.now.symm
  · exact hext.now.trans_le h.now_le

/-- What a dispatch accepts is due no earlier than the delivery it is for. -/
lemma accepts_due {k : Kernel M} {time : SimTime} {node : NodeId} {out : Outbox M}
    (htime : time ≤ u64Max)
    (hqueues : ∀ (node : NodeId) queue, k.queues[node]? = some queue → queue.Inv) :
    ∀ d ∈ k.accepts time node out, ∃ done, k.completion time node out = some done ∧ time ≤ done ∧
      done ≤ d.time ∧ d.time ≤ u64Max := by
  intro d hd
  unfold Kernel.accepts at hd
  cases hqueue : k.queues[node]? with
  | none =>
    simp only [Kernel.completion, hqueue, Option.map_none, Option.elim_none] at hd
    exact absurd hd List.not_mem_nil
  | some queue =>
    have hadmits := ServiceQueue.admits (hqueues node queue hqueue) htime out.work
    set done := (queue.admitRequest time out.work).1 with hdone
    have hcompletion : k.completion time node out = some done := by
      simp only [Kernel.completion, hqueue, Option.map_some, hdone]
    rw [hcompletion, Option.elim_some] at hd
    refine ⟨done, hcompletion, hadmits.arrival_le, ?_⟩
    have hafter (w : Duration) : done ≤ w.after done ∧ w.after done ≤ u64Max :=
      ⟨le_min (Nat.le_add_right _ _) hadmits.done_le, min_le_right _ _⟩
    rcases List.mem_append.1 hd with hd | hd
    · obtain ⟨t, -, rfl⟩ := List.mem_map.1 hd
      exact hafter _
    · obtain ⟨m, -, link, -, rfl⟩ := of_mem_sendDeliveries hd
      exact hafter _

lemma completions_snoc (node : NodeId) (o : KernelReply M) :
    completions node (os ++ [o]) =
      match o with
      | .hosted n => if n = node then [] else completions node os
      | .dispatched n done _ _ =>
        if n = node then completions node os ++ done.toList else completions node os
      | _ => completions node os := by
  rw [completions, List.foldl_append]
  rfl

lemma Causal.completed_le (h : Causal os s) {node : NodeId} {t : SimTime}
    (ht : t ∈ completions node os) : t ≤ s.kernel.busyUntil node := by
  obtain ⟨queue, hqueue, hle⟩ := h.completed node t ht
  rw [Kernel.busyUntil, hqueue]
  exact le_max_of_le_left hle

/-- The next delivery keeps everything. -/
lemma Causal.next (h : Causal os s) {q : Queued M} {k : Kernel M}
    (hnext : s.kernel.nextDelivery = some (q, k)) :
    Causal (os ++ [.delivered (some q)]) ⟨k, some q⟩ := by
  obtain ⟨hperm, hmin, hk⟩ := Kernel.nextDelivery_spec hnext
  have hq : q ∈ s.kernel.heap := hperm.mem_iff.2 List.mem_cons_self
  have hmem {x : Queued M} (hx : x ∈ k.heap) : x ∈ s.kernel.heap :=
    hperm.mem_iff.2 (List.mem_cons_of_mem _ hx)
  have hnow : k.now = q.time := by rw [hk]
  have hseq : k.seq = s.kernel.seq := by rw [hk]
  have hqueues : k.queues = s.kernel.queues := by rw [hk]
  have hkept : accepted (os ++ [.delivered (some q)]) = accepted os := by
    rw [accepted_snoc]
    exact List.append_nil _
  have hhanded : handed (os ++ [.delivered (some q)]) = handed os ++ [q] := handed_snoc _
  have hlater {x : Queued M} (hx : x ∈ k.heap) : q.key < x.key := by
    refine lt_of_le_of_ne (hmin x (hmem hx)) fun heq => ?_
    -- Two entries with one key would have one number.
    have hnodup : ((accepted os).map (·.seq)).Nodup := by
      rw [h.numbered]
      exact List.nodup_range'
    have hsplit := ((h.conserved.map (·.seq)).nodup_iff.1 hnodup)
    rw [List.map_append, List.nodup_append] at hsplit
    have hheap := ((hperm.map (·.seq)).nodup_iff.1 hsplit.2.1)
    rw [List.map_cons, List.nodup_cons] at hheap
    have hsame : q.seq = x.seq := congrArg Prod.snd (toLex_inj.1 heq)
    exact hheap.1 (hsame ▸ List.mem_map_of_mem hx)
  refine ⟨?_, ?_, ?_, ?_, ?_, ?_, ?_, ?_, ?_, ?_⟩
  · rw [hkept, hseq]
    exact h.numbered
  · rw [hkept, hhanded, List.append_assoc]
    exact h.conserved.trans (hperm.append_left _)
  · rw [hhanded, List.pairwise_append]
    refine ⟨h.ordered, List.pairwise_singleton _ _, fun x hx y hy => ?_⟩
    obtain rfl := List.mem_singleton.1 hy
    exact h.before x hx y hq
  · intro x hx y hy
    rw [hhanded] at hx
    rcases List.mem_append.1 hx with hx | hx
    · exact h.before x hx y (hmem hy)
    · obtain rfl := List.mem_singleton.1 hx
      exact hlater hy
  · intro x hx
    rw [hhanded] at hx
    rw [hnow]
    rcases List.mem_append.1 hx with hx | hx
    · exact (h.past x hx).trans (h.due q hq).1
    · exact (congrArg Queued.time (List.mem_singleton.1 hx)).le
  · intro x hx
    refine ⟨?_, (h.due x (hmem hx)).2⟩
    rw [hnow]
    have hkey := hlater hx
    unfold Queued.key at hkey
    rw [Prod.Lex.toLex_lt_toLex] at hkey
    rcases hkey with hlt | ⟨heq, -⟩
    · exact le_of_lt hlt
    · exact le_of_eq heq
  · intro q' hq'
    obtain rfl := Option.some.inj hq'
    rw [hnow]
    exact (h.due _ hq).2.2
  · rw [hnow]
    exact (h.due q hq).2.1
  · rw [hqueues]
    exact h.queues
  · intro n t ht
    rw [completions_snoc] at ht
    rw [hqueues]
    exact h.completed n t ht

/-- Hosting a node keeps everything; what it had been given before is forgotten with its queue. -/
lemma Causal.host (h : Causal os s) (node : NodeId) (spec : ServiceModelSpec) (profile : String) :
    Causal (os ++ [.hosted node]) ⟨s.kernel.host node spec profile, s.last⟩ := by
  refine h.extends (l := []) (.same rfl rfl rfl) (fun d hd => absurd hd List.not_mem_nil) rfl rfl
    ?_ ?_
  · intro n queue hqueue
    rw [Kernel.host, OrdMap.get_insert] at hqueue
    split at hqueue
    · obtain rfl := Option.some.inj hqueue
      exact ServiceQueue.inv_new spec
    · exact h.queues n queue hqueue
  · intro n t ht
    rw [completions_snoc] at ht
    rw [Kernel.host, OrdMap.get_insert]
    by_cases hn : node = n
    · simp only [if_pos hn] at ht
      exact absurd ht List.not_mem_nil
    · simp only [if_neg hn] at ht ⊢
      exact h.completed n t ht

/-- A dispatch for the delivery handed out last keeps everything. -/
lemma Causal.dispatch (h : Causal os s) {q : Queued M} (hq : s.last = some q) (out : Outbox M) :
    Causal (os ++ [.dispatched q.delivery.dst
        (s.kernel.completion q.delivery.time q.delivery.dst out)
        (numberedFrom s.kernel.seq (s.kernel.accepts q.delivery.time q.delivery.dst out))
        (s.kernel.dispatch q.delivery.time q.delivery.dst out).1])
      ⟨(s.kernel.dispatch q.delivery.time q.delivery.dst out).2, s.last⟩ := by
  have htime := h.last q hq
  have hle : q.delivery.time ≤ u64Max := htime.trans_le h.now_le
  refine h.extends (Kernel.extends_dispatch _ _ _ _) ?_ rfl rfl ?_ ?_
  · intro d hd
    obtain ⟨done, -, hdone, hdue, hmax⟩ := accepts_due hle h.queues d hd
    exact ⟨htime.symm.trans_le (hdone.trans hdue), hmax⟩
  · intro n queue hqueue
    rw [Kernel.queues_dispatch] at hqueue
    cases hold : s.kernel.queues[q.delivery.dst]? with
    | none =>
      rw [hold] at hqueue
      exact h.queues n queue hqueue
    | some old =>
      rw [hold, Option.elim_some, OrdMap.get_insert] at hqueue
      split at hqueue
      · obtain rfl := Option.some.inj hqueue
        exact (ServiceQueue.admits (h.queues _ _ hold) hle out.work).inv
      · exact h.queues n queue hqueue
  · intro n t ht
    rw [completions_snoc] at ht
    rw [Kernel.queues_dispatch]
    cases hold : s.kernel.queues[q.delivery.dst]? with
    | none =>
      simp only [Kernel.completion, hold, Option.map_none, Option.toList_none, List.append_nil,
        ite_self] at ht
      exact h.completed n t ht
    | some old =>
      have hadmits := ServiceQueue.admits (h.queues _ _ hold) hle out.work
      rw [Option.elim_some, OrdMap.get_insert]
      by_cases hn : q.delivery.dst = n
      · simp only [if_pos hn, Kernel.completion, hold, Option.map_some, Option.toList_some] at ht ⊢
        refine ⟨_, rfl, ?_⟩
        rcases List.mem_append.1 ht with ht | ht
        · obtain ⟨queue, hqueue, hbusy⟩ := h.completed n t ht
          rw [← hn, hold] at hqueue
          obtain rfl := Option.some.inj hqueue
          exact hbusy.trans hadmits.busy_le
        · rw [List.mem_singleton.1 ht]
          exact hadmits.done_le_busy
      · simp only [if_neg hn] at ht ⊢
        exact h.completed n t ht

/-- Every operation keeps everything. -/
lemma Causal.step (h : Causal os s) {net : BackendNet} {t0 : Instant} {op : KernelOp M}
    {o : KernelReply M} {s' : Operated M} (hstep : (kernelMachine net t0).step s op = .ok (o, s')) :
    Causal (os ++ [o]) s' := by
  cases op with
  | host node spec profile =>
    obtain ⟨rfl, rfl⟩ := Prod.mk.inj (Except.ok.inj hstep)
    exact h.host node spec profile
  | connect net' =>
    obtain ⟨rfl, rfl⟩ := Prod.mk.inj (Except.ok.inj hstep)
    refine h.extends (l := []) (.same rfl rfl rfl) (fun d hd => absurd hd List.not_mem_nil) rfl rfl
      h.queues fun n t ht => ?_
    rw [completions_snoc] at ht
    exact h.completed n t ht
  | injectAt time delivery =>
    obtain ⟨rfl, rfl⟩ := Prod.mk.inj (Except.ok.inj hstep)
    refine h.extends (l := [_]) (Kernel.extends_push s.kernel { delivery with
      time := max time.1 (s.kernel.busyUntil delivery.dst) }) ?_ rfl rfl h.queues fun n t ht => ?_
    · intro d hd
      obtain rfl := List.mem_singleton.1 hd
      refine ⟨le_max_of_le_right (le_max_right _ _), max_le time.2 (max_le ?_ h.now_le)⟩
      cases hqueue : s.kernel.queues[delivery.dst]? with
      | none => exact Nat.zero_le _
      | some queue => exact ServiceQueue.busyUntil_le (h.queues _ _ hqueue).free_le
    · rw [completions_snoc] at ht
      exact h.completed n t ht
  | next horizon =>
    cases hnext : horizon.elim s.kernel.nextDelivery s.kernel.nextDeliveryBefore with
    | none =>
      simp only [kernelMachine, hnext] at hstep
      obtain ⟨rfl, rfl⟩ := Prod.mk.inj (Except.ok.inj hstep)
      have hsame : Causal (os ++ [.delivered none]) ⟨s.kernel, s.last⟩ :=
        h.extends (l := []) (.same rfl rfl rfl) (fun d hd => absurd hd List.not_mem_nil) rfl rfl
          h.queues fun n t ht => by
            rw [completions_snoc] at ht
            exact h.completed n t ht
      exact { hsame with last := fun q hq => nomatch hq }
    | some x =>
      obtain ⟨q, k⟩ := x
      simp only [kernelMachine, hnext] at hstep
      obtain ⟨rfl, rfl⟩ := Prod.mk.inj (Except.ok.inj hstep)
      cases horizon with
      | none => exact h.next hnext
      | some t => exact h.next (Option.filter_eq_some_iff.1 hnext).1
  | dispatch out =>
    cases hlast : s.last with
    | none =>
      simp only [kernelMachine, hlast] at hstep
      exact nomatch hstep
    | some q =>
      simp only [kernelMachine, hlast] at hstep
      obtain ⟨rfl, rfl⟩ := Prod.mk.inj (Except.ok.inj hstep)
      rw [← hlast]
      exact h.dispatch hlast out

/-- A delivery handed out is the last one, and was the next one on the schedule. -/
lemma next_of_delivered {net : BackendNet} {t0 : Instant} {op : KernelOp M} {q : Queued M}
    {s' : Operated M} (hstep : (kernelMachine net t0).step s op = .ok (.delivered (some q), s')) :
    ∃ k, s.kernel.nextDelivery = some (q, k) ∧ s' = ⟨k, some q⟩ := by
  cases op with
  | next horizon =>
    cases hnext : horizon.elim s.kernel.nextDelivery s.kernel.nextDeliveryBefore with
    | none =>
      simp only [kernelMachine, hnext] at hstep
      exact nomatch (Prod.mk.inj (Except.ok.inj hstep)).1
    | some x =>
      obtain ⟨q', k⟩ := x
      simp only [kernelMachine, hnext] at hstep
      obtain ⟨hreply, rfl⟩ := Prod.mk.inj (Except.ok.inj hstep)
      obtain rfl := Option.some.inj (KernelReply.delivered.inj hreply)
      cases horizon with
      | none => exact ⟨k, hnext, rfl⟩
      | some t => exact ⟨k, (Option.filter_eq_some_iff.1 hnext).1, rfl⟩
  | host => exact nomatch (Prod.mk.inj (Except.ok.inj hstep)).1
  | connect => exact nomatch (Prod.mk.inj (Except.ok.inj hstep)).1
  | injectAt => exact nomatch (Prod.mk.inj (Except.ok.inj hstep)).1
  | dispatch =>
    cases hlast : s.last with
    | none =>
      simp only [kernelMachine, hlast] at hstep
      exact nomatch hstep
    | some p =>
      simp only [kernelMachine, hlast] at hstep
      exact nomatch (Prod.mk.inj (Except.ok.inj hstep)).1

lemma Causal.delivered (h : Causal os s) {q : Queued M} {k : Kernel M}
    (hnext : s.kernel.nextDelivery = some (q, k)) :
    q.delivery.time = q.time ∧ k.now = q.time ∧ s.kernel.now ≤ k.now := by
  obtain ⟨hperm, -, hk⟩ := Kernel.nextDelivery_spec hnext
  obtain ⟨hdue, -, htime⟩ := h.due q (hperm.mem_iff.2 List.mem_cons_self)
  have hnow : k.now = q.time := by rw [hk]
  exact ⟨htime, hnow, hnow ▸ hdue⟩

/-- The clock never goes back. -/
lemma Causal.now_le_of_step (h : Causal os s) {net : BackendNet} {t0 : Instant} {op : KernelOp M}
    {o : KernelReply M} {s' : Operated M} (hstep : (kernelMachine net t0).step s op = .ok (o, s')) :
    s.kernel.now ≤ s'.kernel.now := by
  cases op with
  | host | connect | injectAt =>
    obtain ⟨-, rfl⟩ := Prod.mk.inj (Except.ok.inj hstep)
    exact le_rfl
  | next horizon =>
    cases hnext : horizon.elim s.kernel.nextDelivery s.kernel.nextDeliveryBefore with
    | none =>
      simp only [kernelMachine, hnext] at hstep
      obtain ⟨-, rfl⟩ := Prod.mk.inj (Except.ok.inj hstep)
      exact le_rfl
    | some x =>
      have ho : o = .delivered (some x.1) := by
        simp only [kernelMachine, hnext] at hstep
        exact (Prod.mk.inj (Except.ok.inj hstep)).1.symm
      subst ho
      obtain ⟨k, hdelivered, rfl⟩ := next_of_delivered hstep
      exact (h.delivered hdelivered).2.2
  | dispatch out =>
    cases hlast : s.last with
    | none =>
      simp only [kernelMachine, hlast] at hstep
      exact nomatch hstep
    | some q =>
      simp only [kernelMachine, hlast] at hstep
      obtain ⟨-, rfl⟩ := Prod.mk.inj (Except.ok.inj hstep)
      exact (Kernel.extends_dispatch _ _ _ _).now.ge

/-- Everything holds after every run of a new kernel. -/
lemma causal_of_steps {net : BackendNet} {t0 : Instant} {is : List (KernelOp M)}
    (hrun : (kernelMachine net t0).Steps (kernelMachine net t0).init is os s) : Causal os s := by
  refine hrun.stepsIf.induction (Q := fun _ os s => Causal os s) ?_ ?_
  · exact {
      numbered := rfl
      conserved := .nil
      ordered := .nil
      before := fun _ hx => absurd hx List.not_mem_nil
      past := fun _ hx => absurd hx List.not_mem_nil
      due := fun _ hx => absurd hx List.not_mem_nil
      last := fun _ hq => nomatch hq
      now_le := t0.2
      queues := fun node queue hqueue => by
        rw [show (kernelMachine (M := M) net t0).init.kernel.queues[node]? = none from
          Std.ExtTreeMap.getElem?_empty] at hqueue
        exact nomatch hqueue
      completed := fun _ t ht => absurd ht List.not_mem_nil }
  · intro is os t op o t' _ h _ hstep
    exact h.step hstep

end Steps

/-! ## What a dispatch posts -/

namespace Kernel

end Kernel

/-! ## Horizons -/

/-- A kernel driven by a handler with a state of its own, and the error that ended the run. -/
structure Driven (M σ ε : Type) where
  kernel : Kernel M
  state : σ
  failed : Option ε

/-- A handler: what an entity produces from a delivery and its hardware profile, and how an error of
the kernel ends the run. -/
structure Handler (M σ ε : Type) where
  handle : σ → String → Delivery M → Except ε (Outbox M × σ)
  proto : ProtoError → ε

variable {σ ε : Type}

namespace Driven

/-- A delivery taken off the schedule `k` is handled and dispatched. -/
def settle (handler : Handler M σ ε) (state : σ) (q : Queued M) (k : Kernel M) : Driven M σ ε :=
  match handler.handle state (k.profileOf q.delivery.dst) q.delivery with
  | .error e => ⟨k, state, some e⟩
  | .ok (out, state) =>
    match k.dispatch q.delivery.time q.delivery.dst out with
    | (.ok (), k) => ⟨k, state, none⟩
    | (.error e, k) => ⟨k, state, some (handler.proto e)⟩

/-- One turn of the loop up to a horizon. The loop ends with nothing due, and with the first
error. -/
def turn (handler : Handler M σ ε) (horizon : SimTime) (D : Driven M σ ε) :
    Option (Queued M × Driven M σ ε) :=
  if D.failed.isSome then none
  else (D.kernel.nextDeliveryBefore horizon).map fun (q, k) => (q, settle handler D.state q k)

/-- Some turns of the loop hand out the deliveries `qs`. -/
inductive Turns (handler : Handler M σ ε) (horizon : SimTime) :
    Driven M σ ε → List (Queued M) → Driven M σ ε → Prop
  | nil (D : Driven M σ ε) : Turns handler horizon D [] D
  | cons {D D' D'' : Driven M σ ε} {q : Queued M} {qs : List (Queued M)} :
      D.turn handler horizon = some (q, D') → Turns handler horizon D' qs D'' →
      Turns handler horizon D (q :: qs) D''

/-- The loop up to a horizon hands out the deliveries `qs` and ends. -/
def RunUntil (handler : Handler M σ ε) (horizon : SimTime) (D : Driven M σ ε)
    (qs : List (Queued M)) (D' : Driven M σ ε) : Prop :=
  Turns handler horizon D qs D' ∧ D'.turn handler horizon = none

/-- The loops up to one horizon after the other hand out the deliveries `qs` and end. -/
inductive RunThrough (handler : Handler M σ ε) :
    List SimTime → Driven M σ ε → List (Queued M) → Driven M σ ε → Prop
  | nil (D : Driven M σ ε) : RunThrough handler [] D [] D
  | cons {horizon : SimTime} {horizons : List SimTime} {D D' D'' : Driven M σ ε}
      {qs qs' : List (Queued M)} :
      RunUntil handler horizon D qs D' → RunThrough handler horizons D' qs' D'' →
      RunThrough handler (horizon :: horizons) D (qs ++ qs') D''

variable {handler : Handler M σ ε} {D D' D'' : Driven M σ ε} {qs qs' : List (Queued M)}
  {h₁ h₂ : SimTime}

lemma turn_mono (hle : h₁ ≤ h₂) {x : Queued M × Driven M σ ε} (h : D.turn handler h₁ = some x) :
    D.turn handler h₂ = some x := by
  unfold turn at h ⊢
  split_ifs at h ⊢ with hfailed
  obtain ⟨p, hp, rfl⟩ := Option.map_eq_some_iff.1 h
  obtain ⟨hnext, hdue⟩ := Option.filter_eq_some_iff.1 hp
  have hdue' : decide (p.1.time ≤ h₂) = true :=
    decide_eq_true ((of_decide_eq_true hdue).trans hle)
  have hp' : D.kernel.nextDeliveryBefore h₂ = some p :=
    Option.filter_eq_some_iff.2 ⟨hnext, hdue'⟩
  rw [hp', Option.map_some]

lemma Turns.mono (hle : h₁ ≤ h₂) (h : Turns handler h₁ D qs D') : Turns handler h₂ D qs D' := by
  induction h with
  | nil D => exact .nil D
  | cons hturn _ ih => exact .cons (turn_mono hle hturn) ih

lemma Turns.append (h : Turns handler h₁ D qs D') (h' : Turns handler h₁ D' qs' D'') :
    Turns handler h₁ D (qs ++ qs') D'' := by
  induction h with
  | nil => exact h'
  | cons hturn _ ih => exact .cons hturn (ih h')

lemma RunUntil.append (hle : h₁ ≤ h₂) (h : RunUntil handler h₁ D qs D')
    (h' : RunUntil handler h₂ D' qs' D'') : RunUntil handler h₂ D (qs ++ qs') D'' :=
  ⟨(h.1.mono hle).append h'.1, h'.2⟩

/-- A loop passes through the end of every loop to an earlier horizon. -/
lemma RunUntil.split (hle : h₁ ≤ h₂) (h : RunUntil handler h₂ D qs D') :
    ∃ qs₁ qs₂ D₁, qs = qs₁ ++ qs₂ ∧ RunUntil handler h₁ D qs₁ D₁ ∧
      RunUntil handler h₂ D₁ qs₂ D' := by
  obtain ⟨hturns, hend⟩ := h
  induction hturns with
  | nil D =>
    refine ⟨[], [], D, rfl, ⟨.nil D, ?_⟩, .nil D, hend⟩
    cases hturn : D.turn handler h₁ with
    | none => rfl
    | some x =>
      rw [turn_mono hle hturn] at hend
      exact nomatch hend
  | @cons D D₂ D₃ q qs hturn hrest ih =>
    cases hearly : D.turn handler h₁ with
    | none => exact ⟨[], q :: qs, D, rfl, ⟨.nil D, hearly⟩, .cons hturn hrest, hend⟩
    | some x =>
      have hsame : some x = some (q, D₂) := (turn_mono hle hearly).symm.trans hturn
      rw [hsame] at hearly
      obtain ⟨qs₁, qs₂, D₁, rfl, hfirst, hsecond⟩ := ih hend
      exact ⟨q :: qs₁, qs₂, D₁, rfl, ⟨.cons hearly hfirst.1, hfirst.2⟩, hsecond⟩

/-- **Horizons do not matter.** Loops up to ascending horizons hand out what one loop up to the last
of them hands out, and leave what it leaves.

**Proof sketch.** Induction on the horizons: two loops in a row are one loop, and one loop passes
through the end of every earlier one. -/
lemma runThrough_iff_runUntil {horizons : List SimTime} {last : SimTime}
    (hsorted : (horizons ++ [last]).Pairwise (· ≤ ·)) :
    ∀ {D D' : Driven M σ ε} {qs : List (Queued M)},
      RunThrough handler (horizons ++ [last]) D qs D' ↔ RunUntil handler last D qs D' := by
  induction horizons with
  | nil =>
    intro D D' qs
    constructor
    · rintro (_ | ⟨h, (_ | _)⟩)
      rwa [List.append_nil]
    · intro h
      have hone := RunThrough.cons h (.nil D')
      rwa [List.append_nil] at hone
  | cons first horizons ih =>
    intro D D' qs
    rw [List.cons_append, List.pairwise_cons] at hsorted
    have hle : first ≤ last := hsorted.1 last (List.mem_append_right _ (List.mem_singleton_self _))
    constructor
    · rintro (_ | ⟨h, hrest⟩)
      exact h.append hle ((ih hsorted.2).1 hrest)
    · intro h
      obtain ⟨qs₁, qs₂, D₁, rfl, hfirst, hsecond⟩ := h.split hle
      exact .cons hfirst ((ih hsorted.2).2 hsecond)

end Driven

/-! ## The loops of the credential system -/

section Scms

open ScmsRun

variable {S P : Type} [AddCommGroup S] [AddCommGroup P] (c : Crypto S P)
  (charge : String → OpDescriptor → Duration)

variable {c charge}

end Scms

/-! ## The laws of the kernel -/

/-- **Causality of the kernel.** After every run of a kernel under its operations:

* the clock stands still or goes forward with every operation, and a delivery is handed out at the
  instant it is due;
* deliveries are handed out in the order of their instants and, at one instant, of their creation;
* what has been accepted has been handed out once or is scheduled once, in the order of creation;
* what a dispatch accepts is due at the completion of its work plus the delay of its timer or link;
* an injection is due at the instant asked for or when all the work given to its receiver before is
  finished, whichever is later;
* loops up to ascending horizons hand out what one loop up to the last of them hands out and leave
  what it leaves, and turns up to a horizon are turns up to every later one.

**Proof sketch.** Every operation keeps `Causal`: new entries are numbered on and due no earlier
than now, which is never behind what has been handed out; queues never become free earlier. -/
theorem kernel_causality (net : BackendNet) (t0 : Instant) {is : List (KernelOp M)}
    {os : List (KernelReply M)} {s : Operated M}
    (hrun : (kernelMachine net t0).Steps (kernelMachine net t0).init is os s) :
    (∀ op o s', (kernelMachine net t0).step s op = .ok (o, s') →
      s.kernel.now ≤ s'.kernel.now ∧
        ∀ q, o = .delivered (some q) → q.delivery.time = q.time ∧ s'.kernel.now = q.time) ∧
    (handed os).Pairwise (·.key < ·.key) ∧
    (accepted os).Perm (handed os ++ s.kernel.heap) ∧
    (accepted os).Pairwise (·.seq < ·.seq) ∧
    (∀ out q node done entries result s', s.last = some q →
      (kernelMachine net t0).step s (.dispatch out) =
        .ok (.dispatched node done entries result, s') →
      ∀ e ∈ entries, ∃ t, done = some t ∧
        ((∃ timer ∈ out.timers, e.time = timer.delay.after t) ∨
          ∃ m ∈ out.sends, ∃ link, s.kernel.net.link node m.dst = some link ∧
            e.time = (link.delay m.size).after t)) ∧
    (∀ time delivery q s',
      (kernelMachine net t0).step s (.injectAt time delivery) = .ok (.injected q, s') →
        q.time = max time.1 (s.kernel.busyUntil delivery.dst) ∧
          ∀ t ∈ completions delivery.dst os, t ≤ q.time) ∧
    (∀ (σ ε : Type) (handler : Handler M σ ε) (horizons : List SimTime) (last : SimTime),
      (horizons ++ [last]).Pairwise (· ≤ ·) → ∀ (D D' : Driven M σ ε) (qs : List (Queued M)),
        (D.RunThrough handler (horizons ++ [last]) qs D' ↔ D.RunUntil handler last qs D') ∧
        ∀ horizon ∈ horizons, D.Turns handler horizon qs D' → D.Turns handler last qs D') := by
  have hcausal := causal_of_steps hrun
  refine ⟨?_, hcausal.ordered, hcausal.conserved, ?_, ?_, ?_, ?_⟩
  · intro op o s' hstep
    refine ⟨hcausal.now_le_of_step hstep, fun q hq => ?_⟩
    subst hq
    obtain ⟨k, hnext, rfl⟩ := next_of_delivered hstep
    exact ⟨(hcausal.delivered hnext).1, (hcausal.delivered hnext).2.1⟩
  · have hnumbers : ((accepted os).map (·.seq)).Pairwise (· < ·) := by
      rw [hcausal.numbered]
      exact List.pairwise_lt_range'
    exact List.pairwise_map.1 hnumbers
  · intro out q node done entries result s' hlast hstep e he
    simp only [kernelMachine, hlast] at hstep
    obtain ⟨hreply, -⟩ := Prod.mk.inj (Except.ok.inj hstep)
    obtain ⟨rfl, rfl, rfl, rfl⟩ := KernelReply.dispatched.inj hreply
    obtain ⟨hmem, htime⟩ := of_mem_numberedFrom he
    unfold Kernel.accepts at hmem
    cases hcompletion : s.kernel.completion q.delivery.time q.delivery.dst out with
    | none =>
      rw [hcompletion] at hmem
      exact absurd hmem List.not_mem_nil
    | some t =>
      rw [hcompletion, Option.elim_some] at hmem
      refine ⟨t, rfl, ?_⟩
      rw [htime]
      rcases List.mem_append.1 hmem with h | h
      · obtain ⟨timer, htimer, heq⟩ := List.mem_map.1 h
        exact .inl ⟨timer, htimer, heq ▸ rfl⟩
      · obtain ⟨m, hm, link, hlink, heq⟩ := of_mem_sendDeliveries h
        exact .inr ⟨m, hm, link, hlink, heq ▸ rfl⟩
  · intro time delivery q s' hstep
    obtain ⟨hreply, -⟩ := Prod.mk.inj (Except.ok.inj hstep)
    obtain rfl := KernelReply.injected.inj hreply
    exact ⟨rfl, fun t ht => (hcausal.completed_le ht).trans (le_max_right _ _)⟩
  · intro σ ε handler horizons last hsorted D D' qs
    refine ⟨Driven.runThrough_iff_runUntil hsorted, fun horizon hmem hturns => hturns.mono ?_⟩
    exact (List.pairwise_append.1 hsorted).2.2 horizon hmem last (List.mem_singleton_self _)

/-- The laws for a node that is hosted, gets two injections and handles the first one. -/
theorem kernel_causality_two :
    let m : Machine (Operated ℕ) (KernelOp ℕ) (KernelReply ℕ) Unit :=
      kernelMachine ⟨∅⟩ ⟨5, by decide⟩
    let out : Outbox ℕ := ⟨fun _ => ⟨0⟩, ⟨7⟩, [], [⟨⟨0⟩, 2, .report, 1⟩], []⟩
    let is : List (KernelOp ℕ) := [.host 1 ⟨1, ⟨0⟩⟩ "profile",
      .injectAt ⟨0, by decide⟩ ⟨0, 0, 1, 0, .report, 1⟩,
      .injectAt ⟨0, by decide⟩ ⟨0, 0, 1, 1, .report, 1⟩, .next (some 6), .dispatch out]
    ∃ os s, m.Steps m.init is os s ∧ (handed os).length = 1 ∧ (accepted os).length = 3 ∧
      (accepted os).Perm (handed os ++ s.kernel.heap) := by
  intro m out is
  have htrace : (m.trace m.init is).2 = none := by decide +kernel
  obtain ⟨s, hsteps⟩ := m.exists_steps is m.init htrace
  refine ⟨_, s, hsteps, by decide +kernel, by decide +kernel, ?_⟩
  exact (kernel_causality ⟨∅⟩ ⟨5, by decide⟩ hsteps).2.2.1

end V2xw.Scms
