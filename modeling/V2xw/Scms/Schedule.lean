import V2xw.Scms.System

set_option linter.unusedSectionVars false

/-!
# What one operation does to the schedule

For most properties the bag of posts in flight is enough. Some rest on the instants and the sequence
numbers of the schedule: which of two deliveries comes first, and which delivery is that of which
send. This file says once what an operation of the driver does to the real kernel and to the lists
of revoked certificates: a delivery outside of a preload handles the first entry of the schedule,
and everything else adds at most one entry, no earlier than now.

## Main definitions

* `Driver.real` — the kernel of the run, also while a preload has put it aside.
* `Kernel.Gets` — a kernel with at most one more entry.
* `Kernel.Numbered` — entries have distinct numbers, up to the last one given.
* `Quiet` — an operation that leaves the lists of revoked certificates alone.

## Main results

* `step_real` — an operation is quiet, or a delivery of the real kernel.
* `Kernel.dispatch_schedule` — what a dispatch adds to the schedule.
-/

namespace V2xw.Scms

open V2xw.Core ScmsRun ScmsState

variable {S P : Type}

/-! ## The schedule -/

namespace Kernel

variable {M : Type}

/-- A kernel with at most one more entry, no earlier than now and with the next number. -/
structure Gets (k k' : Kernel M) (x : Option (Queued M)) : Prop where
  heap : k'.heap = x.toList ++ k.heap
  now : k'.now = k.now
  seq : k'.seq = k.seq + x.toList.length
  new : ∀ y ∈ x, y.seq = k.seq + 1 ∧ k.now ≤ y.time

lemma Gets.same {k k' : Kernel M} (hheap : k'.heap = k.heap) (hnow : k'.now = k.now)
    (hseq : k'.seq = k.seq) : Gets k k' none :=
  ⟨hheap, hnow, hseq, fun _ hy => (nomatch hy)⟩

lemma gets_injectAt (k : Kernel M) (time : SimTime) (d : Delivery M) :
    ∃ x, Gets k (k.injectAt time d) (some x) ∧ x.delivery.post = d.post := by
  refine ⟨⟨max time (k.busyUntil d.dst), k.seq + 1,
    { d with time := max time (k.busyUntil d.dst) }⟩, ⟨rfl, rfl, rfl, ?_⟩, rfl⟩
  rintro y hy
  cases hy
  exact ⟨rfl, le_max_of_le_right (le_max_right _ _)⟩

/-- The entries have distinct numbers, none beyond the last one given. -/
structure Numbered (k : Kernel M) : Prop where
  le : ∀ x ∈ k.heap, x.seq ≤ k.seq
  nodup : (k.heap.map (·.seq)).Nodup

/-- Another entry with the next number keeps the schedule numbered. -/
lemma Numbered.gets {k k' : Kernel M} {x : Option (Queued M)} (hk : k.Numbered)
    (h : Gets k k' x) : k'.Numbered := by
  cases x with
  | none =>
    refine ⟨fun y hy => ?_, ?_⟩
    · rw [h.heap] at hy
      rw [h.seq]
      exact hk.le y hy
    · rw [h.heap]
      exact hk.nodup
  | some x =>
    obtain ⟨hseq, -⟩ := h.new x rfl
    have hheap : k'.heap = x :: k.heap := h.heap
    have hlast : k'.seq = k.seq + 1 := h.seq
    refine ⟨fun y hy => ?_, ?_⟩
    · rw [hheap] at hy
      rcases List.mem_cons.1 hy with rfl | hy
      · omega
      · have := hk.le y hy
        omega
    · rw [hheap, List.map_cons, List.nodup_cons]
      refine ⟨fun hmem => ?_, hk.nodup⟩
      obtain ⟨y, hy, hxy⟩ := List.mem_map.1 hmem
      have := hk.le y hy
      omega

lemma Numbered.eq_of_seq {k : Kernel M} (hk : k.Numbered) {x y : Queued M} (hx : x ∈ k.heap)
    (hy : y ∈ k.heap) (h : x.seq = y.seq) : x = y :=
  List.inj_on_of_nodup_map hk.nodup hx hy h

lemma Numbered.next {k k' : Kernel M} {q : Queued M} (hk : k.Numbered)
    (h : k.nextDelivery = some (q, k')) : k'.Numbered := by
  obtain ⟨hperm, -, hk'⟩ := nextDelivery_spec h
  have hseq : k'.seq = k.seq := by rw [hk']
  refine ⟨fun x hx => ?_, ?_⟩
  · rw [hseq]
    exact hk.le x (hperm.mem_iff.2 (List.mem_cons_of_mem _ hx))
  · exact (List.nodup_cons.1 ((hperm.map (·.seq)).nodup_iff.1 hk.nodup)).2

lemma Numbered.next_ne {k k' : Kernel M} {q : Queued M} (hk : k.Numbered)
    (h : k.nextDelivery = some (q, k')) {z : Queued M} (hz : z ∈ k'.heap) : z.seq ≠ q.seq := by
  intro heq
  have hnodup := ((nextDelivery_spec h).1.map (·.seq)).nodup_iff.1 hk.nodup
  rw [List.map_cons, List.nodup_cons] at hnodup
  exact hnodup.1 (heq ▸ List.mem_map_of_mem hz)

/-! ## What a dispatch schedules -/

/-- A kernel with the entries `new` on top of its schedule, numbered on from the last one. -/
structure Schedules (k k' : Kernel M) (new : List (Queued M)) : Prop where
  heap : k'.heap = new ++ k.heap
  now : k'.now = k.now
  seq : k'.seq = k.seq + new.length
  le : ∀ x ∈ new, k.seq < x.seq ∧ x.seq ≤ k'.seq
  nodup : (new.map (·.seq)).Nodup
  net : k'.net = k.net

lemma Schedules.refl (k : Kernel M) : Schedules k k [] :=
  ⟨rfl, rfl, rfl, fun _ hx => absurd hx List.not_mem_nil, List.nodup_nil, rfl⟩

/-- Schedules on top of each other. -/
lemma Schedules.trans {k k' k'' : Kernel M} {new new' : List (Queued M)}
    (h : Schedules k k' new) (h' : Schedules k' k'' new') : Schedules k k'' (new' ++ new) where
  heap := by rw [h'.heap, h.heap, List.append_assoc]
  now := h'.now.trans h.now
  seq := by
    rw [h'.seq, h.seq, List.length_append]
    omega
  le x hx := by
    have hseq := h.seq
    have hseq' := h'.seq
    rcases List.mem_append.1 hx with hx | hx
    · have hle := h'.le x hx
      omega
    · have hle := h.le x hx
      omega
  nodup := by
    rw [List.map_append, List.nodup_append]
    refine ⟨h'.nodup, h.nodup, ?_⟩
    rintro a ha b hb rfl
    obtain ⟨x, hx, rfl⟩ := List.mem_map.1 ha
    obtain ⟨y, hy, hxy⟩ := List.mem_map.1 hb
    have h₁ := (h'.le x hx).1
    have h₂ := (h.le y hy).2
    omega
  net := h'.net.trans h.net

lemma Schedules.gets {k k' : Kernel M} (h : Schedules k k' []) : Gets k k' none :=
  .same h.heap h.now h.seq

lemma schedules_push (k : Kernel M) (time : SimTime) (d : Delivery M) :
    Schedules k (k.push time d) [⟨time, k.seq + 1, d⟩] where
  heap := rfl
  now := rfl
  seq := rfl
  le x hx := by
    obtain rfl := List.mem_singleton.1 hx
    exact ⟨Nat.lt_succ_self _, le_rfl⟩
  nodup := List.nodup_singleton _
  net := rfl

/-- A schedule of new entries keeps the schedule numbered. -/
lemma Numbered.schedules {k k' : Kernel M} {new : List (Queued M)} (hk : k.Numbered)
    (h : Schedules k k' new) : k'.Numbered := by
  refine ⟨fun x hx => ?_, ?_⟩
  · rw [h.heap] at hx
    rcases List.mem_append.1 hx with hx | hx
    · exact (h.le x hx).2
    · rw [h.seq]
      exact (hk.le x hx).trans (Nat.le_add_right _ _)
  · rw [h.heap, List.map_append, List.nodup_append]
    refine ⟨h.nodup, hk.nodup, ?_⟩
    rintro a ha b hb rfl
    obtain ⟨x, hx, rfl⟩ := List.mem_map.1 ha
    obtain ⟨y, hy, hxy⟩ := List.mem_map.1 hb
    have h₁ := (h.le x hx).1
    have h₂ := hk.le y hy
    omega

/-- Setting timers schedules their posts. -/
lemma foldl_pushTimer_schedules (done : SimTime) (node : NodeId) (timers : List (PendingTimer M)) :
    ∀ k : Kernel M, ∃ new, Schedules k (timers.foldl (pushTimer done node) k) new ∧
      ∀ x ∈ new, ∃ t ∈ timers, x.delivery.post = Outbox.timerPost node t := by
  induction timers with
  | nil => exact fun k => ⟨[], .refl k, fun _ hx => absurd hx List.not_mem_nil⟩
  | cons t timers ih =>
    intro k
    obtain ⟨new, hnew, hmem⟩ := ih (k.pushTimer done node t)
    refine ⟨_, (schedules_push k _ _).trans hnew, fun x hx => ?_⟩
    rcases List.mem_append.1 hx with hx | hx
    · obtain ⟨u, hu, hpost⟩ := hmem x hx
      exact ⟨u, List.mem_cons_of_mem _ hu, hpost⟩
    · obtain rfl := List.mem_singleton.1 hx
      exact ⟨t, List.mem_cons_self, rfl⟩

lemma schedules_pushSend (done : SimTime) (node : NodeId) (k : Kernel M) (s : PendingSend M)
    (link : Link) : Schedules k (k.pushSend done node s link)
      [⟨(link.delay s.size).after done, k.seq + 1,
        (Outbox.sendPost node s).deliverAt ((link.delay s.size).after done)⟩] where
  heap := rfl
  now := rfl
  seq := rfl
  le x hx := by
    obtain rfl := List.mem_singleton.1 hx
    exact ⟨Nat.lt_succ_self _, le_rfl⟩
  nodup := List.nodup_singleton _
  net := rfl

/-- Sending schedules posts of the messages sent. -/
lemma pushSends_schedules (done : SimTime) (node : NodeId) (sends : List (PendingSend M)) :
    ∀ k : Kernel M, ∃ new, Schedules k (pushSends done node k sends).2 new ∧
      ∀ x ∈ new, ∃ s ∈ sends, x.delivery.post = Outbox.sendPost node s := by
  induction sends with
  | nil => exact fun k => ⟨[], .refl k, fun _ hx => absurd hx List.not_mem_nil⟩
  | cons s sends ih =>
    intro k
    cases hlink : k.net.link node s.dst with
    | none =>
      simp only [pushSends, hlink]
      exact ⟨[], .refl k, fun _ hx => absurd hx List.not_mem_nil⟩
    | some link =>
      simp only [pushSends, hlink]
      obtain ⟨new, hnew, hmem⟩ := ih (k.pushSend done node s link)
      refine ⟨_, (schedules_pushSend done node k s link).trans hnew, fun x hx => ?_⟩
      rcases List.mem_append.1 hx with hx | hx
      · obtain ⟨u, hu, hpost⟩ := hmem x hx
        exact ⟨u, List.mem_cons_of_mem _ hu, hpost⟩
      · obtain rfl := List.mem_singleton.1 hx
        exact ⟨s, List.mem_cons_self, rfl⟩

/-- **What a dispatch adds to the schedule**: entries of the posts of the outbox, numbered on. -/
theorem dispatch_schedule (k : Kernel M) (time : SimTime) (node : NodeId) (out : Outbox M) :
    ∃ new, Schedules k (k.dispatch time node out).2 new ∧
      ∀ x ∈ new, x.delivery.post ∈ out.posts node := by
  cases hqueue : k.queues[node]? with
  | none =>
    simp only [dispatch, hqueue]
    exact ⟨[], .refl k, fun _ hx => absurd hx List.not_mem_nil⟩
  | some queue =>
    simp only [dispatch, hqueue]
    set done := (queue.admitRequest time out.work).1
    set k₁ : Kernel M := { k with
      queues := k.queues.insert node (queue.admitRequest time out.work).2
      stages := k.stages ++ out.stages.map (stamp done) } with hk₁
    obtain ⟨new, hnew, hmem⟩ := foldl_pushTimer_schedules done node out.timers k₁
    obtain ⟨new', hnew', hmem'⟩ := pushSends_schedules done node out.sends
      (out.timers.foldl (pushTimer done node) k₁)
    have hboth := hnew.trans hnew'
    refine ⟨new' ++ new, ⟨hboth.heap, hboth.now, hboth.seq, hboth.le, hboth.nodup, hboth.net⟩,
      fun x hx => ?_⟩
    rcases List.mem_append.1 hx with hx | hx
    · obtain ⟨s, hs, hpost⟩ := hmem' x hx
      rw [hpost]
      exact List.mem_append_right _ (List.mem_map_of_mem hs)
    · obtain ⟨t, ht, hpost⟩ := hmem x hx
      rw [hpost]
      exact List.mem_append_left _ (List.mem_map_of_mem ht)

lemma queued_key_le {x y : Queued M} :
    x.key ≤ y.key ↔ x.time < y.time ∨ x.time = y.time ∧ x.seq ≤ y.seq := by
  unfold Queued.key
  rw [Prod.Lex.toLex_le_toLex]

lemma queued_key_le_of_le {x y : Queued M} (htime : x.time ≤ y.time) (hseq : x.seq ≤ y.seq) :
    x.key ≤ y.key := by
  rw [queued_key_le]
  rcases lt_or_eq_of_le htime with hlt | heq
  · exact .inl hlt
  · exact .inr ⟨heq, hseq⟩

lemma Numbered.eq_of_first {k : Kernel M} (hk : k.Numbered) {x y : Queued M} (hx : x ∈ k.heap)
    (hy : y ∈ k.heap) (hxy : x.key ≤ y.key) (hyx : y.key ≤ x.key) : x = y := by
  have hkey : x.key = y.key := le_antisymm hxy hyx
  exact hk.eq_of_seq hx hy (congrArg Prod.snd (toLex_inj.1 hkey))

/-- A dispatch with two messages of one size over equal links schedules them for one instant, one
right after the other. -/
lemma dispatch_pair {k : Kernel M} {node : NodeId} {out : Outbox M} {a b : PendingSend M}
    {link : Link} (time : SimTime) (hhost : k.queues[node]?.isSome) (htimers : out.timers = [])
    (hsends : out.sends = [a, b]) (ha : k.net.link node a.dst = some link)
    (hb : k.net.link node b.dst = some link) (hsize : a.size = b.size) :
    ∃ t, Schedules k (k.dispatch time node out).2
      [⟨t, k.seq + 2, (Outbox.sendPost node b).deliverAt t⟩,
        ⟨t, k.seq + 1, (Outbox.sendPost node a).deliverAt t⟩] := by
  obtain ⟨queue, hqueue⟩ := Option.isSome_iff_exists.1 hhost
  simp only [dispatch, hqueue, htimers, hsends, List.foldl_nil, pushSends, ha]
  set done := (queue.admitRequest time out.work).1
  set k₁ : Kernel M := { k with
    queues := k.queues.insert node (queue.admitRequest time out.work).2
    stages := k.stages ++ out.stages.map (stamp done) } with hk₁
  have hb' : (k₁.pushSend done node a link).net.link node b.dst = some link := hb
  simp only [hb']
  have hboth := (schedules_pushSend done node k₁ a link).trans
    (schedules_pushSend done node (k₁.pushSend done node a link) b link)
  refine ⟨(link.delay a.size).after done, ?_⟩
  rw [← hsize] at hboth
  exact ⟨hboth.heap, hboth.now, hboth.seq, hboth.le, hboth.nodup, hboth.net⟩

end Kernel

/-! ## Operations on the real kernel -/

/-- The kernel of the run, also while a preload has put it aside. -/
def Driver.real (D : Driver S P) : Kernel (ScmsMsg S P) :=
  D.preloading.elim D.run.kernel fun p => p.real

lemma Driver.post_mem_posts {D : Driver S P} {x : Queued (ScmsMsg S P)} (hx : x ∈ D.real.heap) :
    x.delivery.post ∈ D.posts := by
  have hpost : x.delivery.post ∈ D.real.posts :=
    Multiset.mem_coe.2 (List.mem_map_of_mem (f := fun q => q.delivery.post) hx)
  obtain ⟨r, preloading⟩ := D
  cases preloading with
  | none => exact Multiset.mem_add.2 (.inl hpost)
  | some p => exact Multiset.mem_add.2 (.inr hpost)

/-- The messages flows start with. -/
def ScmsMsg.opens : ScmsMsg S P → Bool
  | .enrolRequest _ | .provisioningRequest _ | .report _ | .pcaLookupRequest _ _
  | .crlDownloadRequest _ | .crlAirBroadcast _ => true
  | _ => false

/-- The device whose links an operation changes. -/
def Op.wires : Op → Option NodeId
  | .addDevice node => some node
  | .setAccess device _ => some device
  | .attachRsu device => some device
  | .preload device _ _ _ => some device
  | _ => none

/-- The device an operation adds. -/
def Op.adds (s : ScmsState S P) (node : NodeId) : Op → Prop
  | .addDevice n => n = node
  | .preload device _ _ _ => device = node ∧ s.devices[node]? = none
  | _ => False

/-- A step that leaves the copies of the list of revoked certificates and what the devices make of
them alone, except for devices that are added. -/
structure Quiet (s s' : ScmsState S P) (adds : NodeId → Prop) : Prop where
  crlg : s'.crlg = s.crlg
  store : s'.crlStore = s.crlStore
  broadcast : s'.crlBroadcast = s.crlBroadcast
  devices : ∀ n : NodeId, s'.devices[n]?.map DeviceState.stance =
    s.devices[n]?.map DeviceState.stance ∨ adds n ∧ s'.devices[n]? = some (DeviceState.new n)

/-- New access links change no link of the generator. -/
lemma link_connectAccess {k : Kernel (ScmsMsg S P)} {device : NodeId} (link : Link)
    (h : device ≠ nodes.crlg) (b : NodeId) :
    (connectAccess k device link).net.link nodes.crlg b = k.net.link nodes.crlg b := by
  have hone : ∀ (net : BackendNet) (peer : NodeId), peer ≠ nodes.crlg →
      (net.connect device peer link).link nodes.crlg b = net.link nodes.crlg b := by
    intro net peer hpeer
    unfold BackendNet.link BackendNet.connect
    rw [OrdMap.get_insert, OrdMap.get_insert, if_neg, if_neg]
    · exact fun heq => h (congrArg Prod.fst (toLex_inj.1 heq))
    · exact fun heq => hpeer (congrArg Prod.fst (toLex_inj.1 heq))
  have hfold : ∀ (l : List NodeId) (net : BackendNet), (∀ peer ∈ l, peer ≠ nodes.crlg) →
      (l.foldl (fun net peer => net.connect device peer link) net).link nodes.crlg b =
        net.link nodes.crlg b := by
    intro l
    induction l with
    | nil => exact fun net _ => rfl
    | cons peer l ih =>
      intro net hl
      rw [List.foldl_cons, ih _ fun p hp => hl p (List.mem_cons_of_mem _ hp),
        hone net peer (hl peer List.mem_cons_self)]
  exact hfold nodes.accessPeers k.net (by decide)

lemma link_attachRsu {r : ScmsRun S P} {device : NodeId} (h : device ≠ nodes.crlg) (b : NodeId) :
    (r.attachRsu device).kernel.net.link nodes.crlg b = r.kernel.net.link nodes.crlg b := by
  unfold attachRsu BackendNet.link BackendNet.connect
  rw [OrdMap.get_insert, OrdMap.get_insert, if_neg, if_neg]
  · exact fun heq => h (congrArg Prod.fst (toLex_inj.1 heq))
  · exact fun heq => absurd (congrArg Prod.fst (toLex_inj.1 heq))
      (show nodes.crlBroadcast ≠ nodes.crlg by decide)

variable [AddCommGroup S] [AddCommGroup P] {c : Crypto S P}
  {charge : String → OpDescriptor → Duration}

/-- Inserting a new device is quiet. -/
lemma Quiet.addDevice (s : ScmsState S P) (node : NodeId) {A : NodeId → Prop}
    (h : A node) :
    Quiet s { s with devices := s.devices.insert node (DeviceState.new node) } A where
  crlg := rfl
  store := rfl
  broadcast := rfl
  devices n := by
    show (s.devices.insert node (DeviceState.new node))[n]?.map _ = _ ∨ A n ∧
      (s.devices.insert node (DeviceState.new node))[n]? = _
    rw [OrdMap.get_insert]
    split_ifs with hn
    · subst hn
      exact .inr ⟨h, rfl⟩
    · exact .inl rfl

lemma Quiet.same {s s' : ScmsState S P} {adds : NodeId → Prop} (hg : s'.crlg = s.crlg)
    (hs : s'.crlStore = s.crlStore) (hb : s'.crlBroadcast = s.crlBroadcast)
    (hd : s'.devices = s.devices) : Quiet s s' adds :=
  ⟨hg, hs, hb, fun n => .inl (by rw [hd])⟩

lemma Quiet.requested (s : ScmsState S P) (device : NodeId) (startI periods : ℕ)
    {adds : NodeId → Prop} : Quiet s (s.requested c device startI periods) adds := by
  cases hdev : s.devices[device]? with
  | none =>
    rw [requested_of_none c startI periods hdev]
    exact .same rfl rfl rfl rfl
  | some dev =>
    rw [requested_of_some c startI periods hdev]
    exact ⟨rfl, rfl, rfl, fun n => .inl (map_insert_device DeviceState.stance hdev (by rfl) n)⟩

lemma Quiet.handle {s s' : ScmsState S P} {d : Delivery (ScmsMsg S P)}
    {out out' : Outbox (ScmsMsg S P)} {adds : NodeId → Prop} (hf : d.msg.family.Preloads)
    (h : s.handle c d out = .ok (s', out')) : Quiet s s' adds := by
  obtain ⟨hstore, hbroadcast, hcrlg⟩ := handle_frame_publication h
    (by rcases hf with hf | hf <;> rw [hf] <;> decide)
  refine ⟨hcrlg (by rcases hf with hf | hf <;> rw [hf] <;> decide), hstore, hbroadcast,
    fun n => .inl ?_⟩
  exact handle_frame_distribution h (by rcases hf with hf | hf <;> rw [hf] <;> decide) n

/-- What a call does to the real kernel and to the lists. -/
lemma call_real {r : ScmsRun S P} {op : Op} {o : Reply S P} {D' : Driver S P}
    (hcall : call c r op = (o, D')) :
    (∃ x, Kernel.Gets r.kernel D'.real x ∧ ∀ y ∈ x, y.delivery.msg.opens = true) ∧
      (op.wires ≠ some nodes.crlg →
        ∀ b, D'.real.net.link nodes.crlg b = r.kernel.net.link nodes.crlg b) ∧
      Quiet r.state D'.state (op.adds r.state) := by
  -- The kernel may have more in its logs before the injection.
  have hlogged : ∀ (k : Kernel (ScmsMsg S P)) (time : SimTime) (d : Delivery (ScmsMsg S P)),
      k.heap = r.kernel.heap → k.now = r.kernel.now → k.seq = r.kernel.seq → d.msg.opens = true →
      ∃ x, Kernel.Gets r.kernel (k.injectAt time d) x ∧
        ∀ y ∈ x, y.delivery.msg.opens = true := by
    intro k time d hheap hnow hseq hd
    obtain ⟨x, hx, hpost⟩ := k.gets_injectAt time d
    refine ⟨some x, ⟨hheap ▸ hx.heap, hnow ▸ hx.now, hseq ▸ hx.seq, hseq ▸ hnow ▸ hx.new⟩,
      fun y hy => ?_⟩
    cases hy
    have hmsg : x.delivery.msg = d.msg := congrArg Post.msg hpost
    rw [hmsg, hd]
  have hinject := fun time d => hlogged r.kernel time d rfl rfl rfl
  have hnothing : ∃ x, Kernel.Gets r.kernel r.kernel x ∧
      ∀ y ∈ x, y.delivery.msg.opens = true :=
    ⟨none, .same rfl rfl rfl, fun _ hy => (nomatch hy)⟩
  cases op with
  | addDevice node =>
    cases hcall
    refine ⟨⟨none, .same rfl rfl rfl, fun _ hy => (nomatch hy)⟩, fun hw b => ?_,
      .addDevice _ _ rfl⟩
    exact link_connectAccess _ (fun h => hw (congrArg some h)) b
  | setAccess device link =>
    cases hcall
    refine ⟨⟨none, .same rfl rfl rfl, fun _ hy => (nomatch hy)⟩, fun hw b => ?_,
      .same rfl rfl rfl rfl⟩
    exact link_connectAccess _ (fun h => hw (congrArg some h)) b
  | attachRsu device =>
    cases hcall
    refine ⟨⟨none, .same rfl rfl rfl, fun _ hy => (nomatch hy)⟩, fun hw b => ?_,
      .same rfl rfl rfl rfl⟩
    exact link_attachRsu (fun h => hw (congrArg some h)) b
  | enrol device time =>
    cases hcall
    exact ⟨hinject _ _ rfl, fun _ _ => rfl, .same rfl rfl rfl rfl⟩
  | provision device time startI periods jmax =>
    cases hcall
    exact ⟨hinject _ _ rfl, fun _ _ => rfl, .requested r.state device startI periods⟩
  | topup device time i jmax =>
    cases hcall
    exact ⟨hinject _ _ rfl, fun _ _ => rfl, .requested r.state device i 1⟩
  | submitReport reporter subjectI subjectLv =>
    cases hcall
    exact ⟨hinject _ _ rfl, fun _ _ => rfl, .same rfl rfl rfl rfl⟩
  | reportAtProxy reporter subjectI subjectLv detectedAt sentAt arriveAt transport bytes =>
    cases hcall
    exact ⟨hlogged _ _ _ rfl rfl rfl rfl, fun _ _ => rfl, .same rfl rfl rfl rfl⟩
  | investigate a b iRev jmax =>
    simp only [call, investigate, newRun] at hcall
    split at hcall
    · cases hcall
      exact ⟨hinject _ _ rfl, fun _ _ => rfl, .same rfl rfl rfl rfl⟩
    · cases hcall
      exact ⟨hnothing, fun _ _ => rfl, .same rfl rfl rfl rfl⟩
  | revoke index iRev jmax =>
    simp only [call, revoke, newRun] at hcall
    split at hcall
    · cases hcall
      exact ⟨hnothing, fun _ _ => rfl, .same rfl rfl rfl rfl⟩
    · cases hrep : r.state.ma.reports[index]? with
      | none =>
        simp only [hrep] at hcall
        cases hcall
        exact ⟨hnothing, fun _ _ => rfl, .same rfl rfl rfl rfl⟩
      | some report =>
        simp only [hrep] at hcall
        cases hcall
        exact ⟨hinject _ _ rfl, fun _ _ => rfl, .same rfl rfl rfl rfl⟩
  | distributeCrl device =>
    cases hcall
    exact ⟨hinject _ _ rfl, fun _ _ => rfl, .same rfl rfl rfl rfl⟩
  | broadcastCrlTo device =>
    cases hcall
    exact ⟨hinject _ _ rfl, fun _ _ => rfl, .same rfl rfl rfl rfl⟩
  | preload device startI periods jmax =>
    by_cases hdev : r.state.devices[device]?.isNone
    · simp only [call, enterPreload, if_pos hdev] at hcall
      cases hcall
      refine ⟨⟨none, .same rfl rfl rfl, fun _ hy => (nomatch hy)⟩, fun hw b => ?_, ?_⟩
      · exact link_connectAccess _ (fun h => hw (congrArg some h)) b
      · have hq := Quiet.addDevice r.state device 
          (A := fun n => Op.adds r.state n (.preload device startI periods jmax))
          ⟨rfl, Option.isNone_iff_eq_none.1 hdev⟩
        exact ⟨hq.crlg, hq.store, hq.broadcast, hq.devices⟩
    · simp only [call, enterPreload, if_neg hdev] at hcall
      cases hcall
      exact ⟨⟨none, .same rfl rfl rfl, fun _ hy => (nomatch hy)⟩, fun _ _ => rfl,
        .same rfl rfl rfl rfl⟩
  | deliver =>
    cases hcall
    exact ⟨hnothing, fun _ _ => rfl, .same rfl rfl rfl rfl⟩

/-- A delivery taken off the schedule is refused, or handled and its outbox dispatched. -/
lemma process_cases {r r' : ScmsRun S P} {q : Queued (ScmsMsg S P)} {k : Kernel (ScmsMsg S P)}
    {result : Except ProtoError Unit} {out : Outbox (ScmsMsg S P)}
    (h : process c charge r q k = .ok ((result, out), r')) :
    (r' = { r with kernel := k } ∧ out.sends = [] ∧ ∃ e, r.state.handle c q.delivery
        (Outbox.new (charge (k.profileOf q.delivery.dst))) = .error (.proto e)) ∨
      r.state.handle c q.delivery (Outbox.new (charge (k.profileOf q.delivery.dst))) =
        .ok (r'.state, out) ∧
      r'.kernel = (k.dispatch q.delivery.time q.delivery.dst out).2 := by
  unfold process at h
  cases hh : r.state.handle c q.delivery (Outbox.new (charge (k.profileOf q.delivery.dst))) with
  | error e =>
    cases e with
    | panic => simp [hh] at h
    | proto e =>
      simp only [hh, Except.ok.injEq, Prod.mk.injEq] at h
      exact .inl ⟨h.2.symm, by rw [← h.1.2]; rfl, e, rfl⟩
  | ok x =>
    simp only [hh, Except.ok.injEq, Prod.mk.injEq] at h
    obtain ⟨⟨-, rfl⟩, rfl⟩ := h
    exact .inr ⟨rfl, rfl⟩

/-- **One operation, seen from the real kernel**: it is quiet and schedules at most the first
message of a flow, or it is a delivery of the real kernel. -/
theorem step_real {certs : CertificateSizes} {params : ScmsParams} {t0 : SimTime}
    {D D' : Driver S P} {op : Op} {o : Reply S P} (hsound : D.Sound)
    (hstep : (machine c charge certs params t0).step D op = .ok (o, D')) :
    ((∃ x, Kernel.Gets D.real D'.real x ∧ ∀ y ∈ x, y.delivery.msg.opens = true) ∧
      (op.wires ≠ some nodes.crlg →
        ∀ b, D'.real.net.link nodes.crlg b = D.real.net.link nodes.crlg b) ∧
      Quiet D.state D'.state (op.adds D.state)) ∨
    ∃ q k result out r', D.preloading = none ∧ op = .deliver ∧
      D.run.kernel.nextDelivery = some (q, k) ∧
      process c charge D.run q k = .ok ((result, out), r') ∧
      o = .delivered q result out ∧ D' = ⟨r', none⟩ := by
  obtain ⟨r, preloading⟩ := D
  by_cases hop : op = .deliver
  · subst hop
    simp only [machine, deliver] at hstep
    cases hnext : r.kernel.nextDelivery with
    | none =>
      simp only [hnext] at hstep
      cases preloading with
      | none =>
        cases hstep
        exact .inl ⟨⟨none, .same rfl rfl rfl, fun _ hy => absurd hy (Option.not_mem_none _)⟩,
            fun _ _ => rfl,
          .same rfl rfl rfl rfl⟩
      | some p =>
        dsimp only at hstep
        split at hstep
        · cases hstep
          exact .inl ⟨⟨none, .same rfl rfl rfl, fun _ hy => absurd hy (Option.not_mem_none _)⟩,
            fun _ _ => rfl,
            .same rfl rfl rfl rfl⟩
        · cases hstep
          exact .inl ⟨⟨none, .same rfl rfl rfl, fun _ hy => absurd hy (Option.not_mem_none _)⟩,
            fun _ _ => rfl,
            .requested r.state p.device p.startI p.periods⟩
    | some x =>
      obtain ⟨q, k⟩ := x
      simp only [hnext] at hstep
      cases hproc : process c charge r q k with
      | error e => simp [hproc] at hstep
      | ok y =>
        obtain ⟨⟨result, out⟩, r'⟩ := y
        simp only [hproc] at hstep
        cases preloading with
        | none =>
          refine .inr ⟨q, k, result, out, r', rfl, rfl, rfl, hproc, ?_⟩
          cases result <;> cases hstep <;> exact ⟨rfl, rfl⟩
        | some p =>
          -- On the scratch kernel of a preload, only enrolment and provisioning are handled.
          have hquiet : Quiet r.state r'.state (fun n => Op.adds r.state n .deliver) := by
            have hf : q.delivery.msg.family.Preloads := by
              refine hsound.scratch p rfl q.delivery.post ?_
              show q.delivery.post ∈ r.kernel.posts
              rw [Kernel.nextDelivery_posts hnext]
              exact Multiset.mem_cons_self _ _
            unfold process at hproc
            cases hh : r.state.handle c q.delivery
                (Outbox.new (charge (k.profileOf q.delivery.dst))) with
            | error e =>
              cases e with
              | panic => simp [hh] at hproc
              | proto e =>
                simp only [hh, Except.ok.injEq, Prod.mk.injEq] at hproc
                obtain ⟨-, rfl⟩ := hproc
                exact .same rfl rfl rfl rfl
            | ok z =>
              simp only [hh, Except.ok.injEq, Prod.mk.injEq] at hproc
              obtain ⟨-, rfl⟩ := hproc
              exact .handle hf hh
          cases result <;> cases hstep <;>
            exact .inl ⟨⟨none, .same rfl rfl rfl, fun _ hy => absurd hy (Option.not_mem_none _)⟩,
            fun _ _ => rfl,
              ⟨hquiet.crlg, hquiet.store, hquiet.broadcast, hquiet.devices⟩⟩
  · have hstep' : (if preloading.isSome then Except.error Abort.busy
        else .ok (call c r op)) = .ok (o, D') := by
      cases op <;> first | exact hstep | exact absurd rfl hop
    cases preloading with
    | some p => cases hstep'
    | none => exact .inl (call_real (Except.ok.inj hstep'))

/-- What an operation that delivers does: the first delivery of the kernel in place is processed,
and an error of a preload ends it. -/
lemma deliver_cases {certs : CertificateSizes} {params : ScmsParams} {t0 : SimTime}
    {D D' : Driver S P} {x : Queued (ScmsMsg S P)} {result : Except ProtoError Unit}
    {out : Outbox (ScmsMsg S P)}
    (hstep : (machine c charge certs params t0).step D .deliver =
      .ok (.delivered x result out, D')) :
    ∃ k r', D.run.kernel.nextDelivery = some (x, k) ∧
      process c charge D.run x k = .ok ((result, out), r') ∧
      (D' = ⟨r', D.preloading⟩ ∨ ∃ p, D.preloading = some p ∧ D' = ⟨leavePreload p r', none⟩) := by
  obtain ⟨r, preloading⟩ := D
  simp only [machine, deliver] at hstep
  cases hnext : r.kernel.nextDelivery with
  | none =>
    simp only [hnext] at hstep
    cases preloading with
    | none => cases hstep
    | some p =>
      dsimp only at hstep
      split at hstep <;> cases hstep
  | some y =>
    obtain ⟨q, k⟩ := y
    simp only [hnext] at hstep
    cases hproc : process c charge r q k with
    | error e => simp [hproc] at hstep
    | ok z =>
      obtain ⟨⟨result', out'⟩, r'⟩ := z
      simp only [hproc] at hstep
      cases preloading with
      | none => cases result' <;> cases hstep <;> exact ⟨k, r', rfl, hproc, .inl rfl⟩
      | some p =>
        cases result' <;> cases hstep
        · exact ⟨k, r', rfl, hproc, .inr ⟨p, rfl, rfl⟩⟩
        · exact ⟨k, r', rfl, hproc, .inl rfl⟩

/-- A delivery outside of the families of a preload is one of the real kernel. -/
lemma deliver_real {certs : CertificateSizes} {params : ScmsParams} {t0 : SimTime}
    {D D' : Driver S P} {x : Queued (ScmsMsg S P)} {result : Except ProtoError Unit}
    {out : Outbox (ScmsMsg S P)} (hsound : D.Sound) (hf : ¬x.delivery.msg.family.Preloads)
    (hstep : (machine c charge certs params t0).step D .deliver = .ok (.delivered x result out, D')) :
    D.preloading = none ∧ ∃ k r', D.run.kernel.nextDelivery = some (x, k) ∧
      process c charge D.run x k = .ok ((result, out), r') ∧ D' = ⟨r', none⟩ := by
  obtain ⟨k, r', hnext, hproc, hD'⟩ := deliver_cases hstep
  have hnone : D.preloading = none := by
    cases hpre : D.preloading with
    | none => rfl
    | some p =>
      refine absurd (hsound.scratch p hpre x.delivery.post ?_) hf
      rw [Kernel.nextDelivery_posts hnext]
      exact Multiset.mem_cons_self _ _
  refine ⟨hnone, k, r', hnext, hproc, ?_⟩
  rcases hD' with hD' | ⟨p, hp, -⟩
  · rw [hD', hnone]
  · exact absurd (hnone.symm.trans hp) (by simp)

lemma deliver_reacts {certs : CertificateSizes} {params : ScmsParams} {t0 : SimTime}
    {D D' : Driver S P} {x : Queued (ScmsMsg S P)} {result : Except ProtoError Unit}
    {out : Outbox (ScmsMsg S P)} (hsound : D.Sound) (hf : ¬x.delivery.msg.family.Preloads)
    (hstep : (machine c charge certs params t0).step D .deliver = .ok (.delivered x result out, D')) :
    (scms c).Step (.inr x.delivery.post) D.state D.posts D'.state D'.posts := by
  obtain ⟨hnone, k, r', hnext, hproc, rfl⟩ := deliver_real hsound hf hstep
  have hposts : D.posts = D.run.kernel.posts + 0 := by rw [Driver.posts, hnone]; rfl
  have hposts' : Driver.posts ⟨r', none⟩ = r'.kernel.posts + 0 := rfl
  rw [hposts, hposts']
  exact (process_step hsound.wired hnext hproc 0).2

end V2xw.Scms
