import Mathlib.Data.Multiset.AddSub
import V2xw.Scms.Kernel

/-!
# What the kernel does with messages

The schedule as a bag of posts: what is in flight, without the instants it arrives at. A delivery
takes a post out of the bag, and a dispatch puts the posts of an outbox into it, all of them where
the node is hosted and linked to every receiver.

## Main definitions

* `Post` — a message in flight, without its instant.
* `Kernel.posts`, `Outbox.posts` — the posts of a schedule and of an outbox.
* `Kernel.Connected` — a node is hosted and linked to the receivers of an outbox.

## Main results

* `Kernel.nextDelivery_spec` — a delivery is the first one scheduled.
* `Kernel.dispatch_posts` — what a dispatch schedules.
* `Kernel.dispatch_ok` — where a dispatch succeeds.
-/

namespace V2xw.Scms

open V2xw.Core

variable {M : Type}

/-- A message in flight. -/
structure Post (M : Type) where
  src : NodeId
  dst : NodeId
  msg : M
  flow : FlowId
  run : FlowRun

/-- The post of a delivery. -/
def Delivery.post (d : Delivery M) : Post M := ⟨d.src, d.dst, d.msg, d.flow, d.run⟩

/-- The delivery of a post at an instant. -/
def Post.deliverAt (p : Post M) (time : SimTime) : Delivery M :=
  ⟨time, p.src, p.dst, p.msg, p.flow, p.run⟩

/-! ## The outbox -/

namespace Outbox

/-- The post of a timer. -/
def timerPost (node : NodeId) (t : PendingTimer M) : Post M := ⟨node, node, t.msg, t.flow, t.run⟩

/-- The post of a send. -/
def sendPost (node : NodeId) (s : PendingSend M) : Post M := ⟨node, s.dst, s.msg, s.flow, s.run⟩

/-- What an outbox of a node posts: its timers, then its sends. -/
def posts (node : NodeId) (out : Outbox M) : List (Post M) :=
  out.timers.map (timerPost node) ++ out.sends.map (sendPost node)

variable (out : Outbox M)

@[simp]
lemma sends_new (cost : OpDescriptor → Duration) : (new cost : Outbox M).sends = [] := rfl

@[simp]
lemma sends_compute (op : OpDescriptor) : (out.compute op).sends = out.sends := rfl

@[simp]
lemma sends_stageAt (stage : StageId) (n : NodeId) (size : Option ℕ) (flow : FlowId)
    (run : FlowRun) : (out.stageAt stage n size flow run).sends = out.sends := rfl

@[simp]
lemma sends_startTimer (delay : Duration) (msg : M) (flow : FlowId) (run : FlowRun) :
    (out.startTimer delay msg flow run).sends = out.sends := rfl

@[simp]
lemma sends_send (dst : NodeId) (msg : M) (step : String) (size : ℕ) (transport : Transport)
    (flow : FlowId) (run : FlowRun) :
    (out.send dst msg step size transport flow run).sends =
      out.sends ++ [⟨dst, msg, step, size, transport, flow, run⟩] := rfl

@[simp]
lemma timers_new (cost : OpDescriptor → Duration) : (new cost : Outbox M).timers = [] := rfl

@[simp]
lemma timers_compute (op : OpDescriptor) : (out.compute op).timers = out.timers := rfl

@[simp]
lemma timers_stageAt (stage : StageId) (n : NodeId) (size : Option ℕ) (flow : FlowId)
    (run : FlowRun) : (out.stageAt stage n size flow run).timers = out.timers := rfl

@[simp]
lemma timers_startTimer (delay : Duration) (msg : M) (flow : FlowId) (run : FlowRun) :
    (out.startTimer delay msg flow run).timers = out.timers ++ [⟨delay, msg, flow, run⟩] := rfl

@[simp]
lemma timers_send (dst : NodeId) (msg : M) (step : String) (size : ℕ) (transport : Transport)
    (flow : FlowId) (run : FlowRun) :
    (out.send dst msg step size transport flow run).timers = out.timers := rfl

end Outbox

namespace Kernel

/-- The posts on a schedule. -/
def posts (k : Kernel M) : Multiset (Post M) := k.heap.map fun q => q.delivery.post

lemma posts_eq_zero {k : Kernel M} (h : k.posts = 0) : k.heap = [] :=
  List.map_eq_nil_iff.1 ((Multiset.coe_eq_zero _).1 h)

@[simp]
lemma posts_newAt (net : BackendNet) (t0 : SimTime) : (newAt net t0 : Kernel M).posts = 0 := rfl

@[simp]
lemma posts_host (k : Kernel M) (node : NodeId) (spec : ServiceModelSpec) (profile : String) :
    (k.host node spec profile).posts = k.posts := rfl

@[simp]
lemma posts_push (k : Kernel M) (time : SimTime) (d : Delivery M) :
    (k.push time d).posts = d.post ::ₘ k.posts := rfl

@[simp]
lemma posts_injectAt (k : Kernel M) (time : SimTime) (d : Delivery M) :
    (k.injectAt time d).posts = d.post ::ₘ k.posts := rfl

/-! ## Deliveries -/

lemma nextDelivery_spec {k k' : Kernel M} {q : Queued M} (h : k.nextDelivery = some (q, k')) :
    k.heap.Perm (q :: k'.heap) ∧ (∀ x ∈ k.heap, q.key ≤ x.key) ∧
      k' = { k with now := q.time, heap := k'.heap } := by
  obtain ⟨⟨q', rest⟩, hmin, heq⟩ := Option.map_eq_some_iff.1 h
  obtain ⟨rfl, rfl⟩ : q' = q ∧ { k with now := q'.time, heap := rest } = k' := by simpa using heq
  exact ⟨MinQueue.extractMin_perm _ hmin, MinQueue.extractMin_le _ hmin, rfl⟩

lemma nextDelivery_eq_none {k : Kernel M} (h : k.nextDelivery = none) : k.heap = [] := by
  rwa [nextDelivery, Option.map_eq_none_iff, MinQueue.extractMin_eq_none] at h

lemma nextDelivery_posts {k k' : Kernel M} {q : Queued M} (h : k.nextDelivery = some (q, k')) :
    k.posts = q.delivery.post ::ₘ k'.posts := by
  have hperm := (nextDelivery_spec h).1.map fun q => q.delivery.post
  exact Multiset.coe_eq_coe.2 hperm

/-! ## Dispatching -/

/-- A node is hosted and linked to every receiver of an outbox. -/
def Connected (k : Kernel M) (node : NodeId) (out : Outbox M) : Prop :=
  k.queues[node]?.isSome ∧ ∀ s ∈ out.sends, (k.net.link node s.dst).isSome

lemma posts_foldl_pushTimer (done : SimTime) (node : NodeId) (timers : List (PendingTimer M)) :
    ∀ k : Kernel M, (timers.foldl (pushTimer done node) k).posts =
      timers.map (Outbox.timerPost node) + k.posts := by
  induction timers with
  | nil => intro k; simp
  | cons t timers ih =>
    intro k
    rw [List.foldl_cons, ih, pushTimer, posts_push, Multiset.add_cons, List.map_cons,
      ← Multiset.cons_coe, Multiset.cons_add]
    rfl

lemma foldl_pushTimer_keeps (done : SimTime) (node : NodeId) (timers : List (PendingTimer M)) :
    ∀ k : Kernel M, (timers.foldl (pushTimer done node) k).net = k.net ∧
      (timers.foldl (pushTimer done node) k).queues = k.queues ∧
      (timers.foldl (pushTimer done node) k).stages = k.stages := by
  induction timers with
  | nil => intro k; simp
  | cons t timers ih => intro k; exact ih _

/-- Sending posts the messages up to the first one without a link. -/
lemma pushSends_posts (done : SimTime) (node : NodeId) (sends : List (PendingSend M)) :
    ∀ k : Kernel M, ∃ kept : List (Post M), kept.Sublist (sends.map (Outbox.sendPost node)) ∧
      (pushSends done node k sends).2.posts = kept + k.posts ∧
      (pushSends done node k sends).2.net = k.net ∧
      (pushSends done node k sends).2.queues = k.queues ∧
      (pushSends done node k sends).2.stages = k.stages ∧
      ((∀ s ∈ sends, (k.net.link node s.dst).isSome) →
        kept = sends.map (Outbox.sendPost node) ∧ (pushSends done node k sends).1 = .ok ()) := by
  induction sends with
  | nil => exact fun k => ⟨[], .slnil, by simp [pushSends]⟩
  | cons s sends ih =>
    intro k
    cases hlink : k.net.link node s.dst with
    | none =>
      refine ⟨[], List.nil_sublist _, ?_⟩
      simp [pushSends, hlink]
    | some link =>
      obtain ⟨kept, hsub, hposts, hnet, hqueues, hstages, hall⟩ := ih (k.pushSend done node s link)
      refine ⟨Outbox.sendPost node s :: kept, hsub.cons_cons _, ?_⟩
      simp only [pushSends, hlink]
      refine ⟨?_, hnet, hqueues, hstages, fun h => ?_⟩
      · rw [hposts, ← Multiset.cons_coe, Multiset.cons_add, ← Multiset.add_cons]
        rfl
      · obtain ⟨rfl, hok⟩ := hall fun s hs => h s (List.mem_cons_of_mem _ hs)
        exact ⟨rfl, hok⟩

/-- Sending succeeds only where every receiver is linked. -/
lemma pushSends_ok (done : SimTime) (node : NodeId) (sends : List (PendingSend M)) :
    ∀ k : Kernel M, (pushSends done node k sends).1 = .ok () →
      ∀ s ∈ sends, (k.net.link node s.dst).isSome := by
  induction sends with
  | nil => exact fun k _ s hs => absurd hs List.not_mem_nil
  | cons a sends ih =>
    intro k h
    rw [pushSends] at h
    cases hlink : k.net.link node a.dst with
    | none => rw [hlink] at h; cases h
    | some link =>
      rw [hlink] at h
      intro s hs
      rcases List.mem_cons.1 hs with rfl | hs
      · rw [hlink]
        rfl
      · exact ih (k.pushSend done node a link) h s hs

/-- **What a dispatch schedules**: a part of the posts of the outbox, and all of them where the node
is connected. The links, the hosts and the stages before are kept. -/
theorem dispatch_posts (k : Kernel M) (time : SimTime) (node : NodeId) (out : Outbox M) :
    ∃ kept : List (Post M), kept.Sublist (out.posts node) ∧
      (k.dispatch time node out).2.posts = kept + k.posts ∧
      (k.dispatch time node out).2.net = k.net ∧
      (∀ n : NodeId, (k.dispatch time node out).2.queues[n]?.isSome = k.queues[n]?.isSome) ∧
      (k.Connected node out →
        kept = out.posts node ∧ (k.dispatch time node out).1 = .ok ()) := by
  cases hqueue : k.queues[node]? with
  | none =>
    refine ⟨[], List.nil_sublist _, ?_⟩
    simp [dispatch, Connected, hqueue]
  | some queue =>
    simp only [dispatch, hqueue]
    set k₁ : Kernel M := { k with
      queues := k.queues.insert node (queue.admitRequest time out.work).2
      stages := k.stages ++ out.stages.map (stamp (queue.admitRequest time out.work).1) } with hk₁
    set k₂ := out.timers.foldl (pushTimer (queue.admitRequest time out.work).1 node) k₁ with hk₂
    obtain ⟨hnet₂, hqueues₂, -⟩ :=
      foldl_pushTimer_keeps (queue.admitRequest time out.work).1 node out.timers k₁
    obtain ⟨kept, hsub, hposts, hnet, hqueues, -, hall⟩ :=
      pushSends_posts (queue.admitRequest time out.work).1 node out.sends k₂
    refine ⟨out.timers.map (Outbox.timerPost node) ++ kept, (List.Sublist.refl _).append hsub,
      ?_, hnet.trans hnet₂, fun n => ?_, fun hconn => ?_⟩
    · rw [hposts, hk₂, posts_foldl_pushTimer, ← Multiset.coe_add, ← Multiset.add_assoc,
        Multiset.add_comm (kept : Multiset (Post M))]
      rfl
    · rw [hqueues, hk₂, hqueues₂, hk₁, OrdMap.get_insert]
      split_ifs with hn
      · rw [← hn, hqueue]; rfl
      · rfl
    · obtain ⟨rfl, hok⟩ := hall fun s hs => by rw [hk₂, hnet₂]; exact hconn.2 s hs
      exact ⟨rfl, hok⟩

lemma dispatch_ok {k : Kernel M} {time : SimTime} {node : NodeId} {out : Outbox M}
    (h : (k.dispatch time node out).1 = .ok ()) : k.Connected node out := by
  cases hqueue : k.queues[node]? with
  | none => simp [dispatch, hqueue] at h
  | some queue =>
    simp only [dispatch, hqueue] at h
    refine ⟨by rw [hqueue]; rfl, fun s hs => ?_⟩
    have hlink := pushSends_ok _ node out.sends _ h s hs
    rwa [(foldl_pushTimer_keeps _ node out.timers _).1] at hlink

end Kernel

end V2xw.Scms
