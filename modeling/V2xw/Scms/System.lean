import V2xw.Lib.Mailbox
import V2xw.Scms.HandleSpec
import V2xw.Scms.Run

/-!
# The deployment as entities that exchange messages

The kernel decides when a message is handled; most of what the deployment guarantees holds for every
order. This file forgets the order: the state of the entities and the bag of posts in flight, on the
real kernel and on the scratch kernel of a preload, are a system of `Mailbox`, and every
operation of a driver is one event, one delivery or nothing there.

## Main definitions

* `Event` — what a driver's call does to the entities.
* `scms` — the system.
* `Driver.posts` — everything in flight.
* `Allowed` — the operations of a driver that meet a condition on events and deliveries.

## Main results

* `step_keeps`, `steps_keeps` — what the system preserves holds in every run of
  the machine.
-/

namespace V2xw.Scms

open V2xw.Core ScmsRun ScmsState

variable {S P : Type}

/-- A message of the deployment in flight. -/
abbrev ScmsPost (S P : Type) := Post (ScmsMsg S P)

/-! ## Hosts and links -/

/-- Two backend nodes with a link between them. -/
def BackendLinked (a b : NodeId) : Prop := (a, b) ∈ nodes.backendLinks ∨ (b, a) ∈ nodes.backendLinks

instance (a b : NodeId) : Decidable (BackendLinked a b) := by
  unfold BackendLinked; infer_instance

/-- Every backend node is hosted and every link of the backend is there. -/
structure Wired (k : Kernel (ScmsMsg S P)) : Prop where
  hosted : ∀ n ∈ nodes.all, k.queues[n]?.isSome
  linked : ∀ a b, BackendLinked a b → (k.net.link a b).isSome

lemma BackendNet.isSome_link_connect {net : BackendNet} {a b x y : NodeId} (link : Link)
    (h : (net.link x y).isSome) : ((net.connect a b link).link x y).isSome := by
  unfold BackendNet.link BackendNet.connect at *
  rw [OrdMap.get_insert, OrdMap.get_insert]
  split_ifs <;> first | rfl | exact h

lemma isSome_link_foldl_connect {α : Type} (f g : α → NodeId) (link : Link) {x y : NodeId}
    (l : List α) : ∀ net : BackendNet, (net.link x y).isSome →
      ((l.foldl (fun net z => net.connect (f z) (g z) link) net).link x y).isSome := by
  induction l with
  | nil => exact fun net h => h
  | cons z l ih => exact fun net h => ih _ (BackendNet.isSome_link_connect link h)

/-- A loop of new links of one kind puts them all in place, in both directions. -/
lemma link_foldl_connect (link : Link) {x y : NodeId} (l : List (NodeId × NodeId)) :
    ∀ net : BackendNet, ((x, y) ∈ l ∨ (y, x) ∈ l ∨ net.link x y = some link) →
      (l.foldl (fun net z => net.connect z.1 z.2 link) net).link x y = some link := by
  induction l with
  | nil => exact fun net h => (h.resolve_left List.not_mem_nil).resolve_left List.not_mem_nil
  | cons w l ih =>
    intro net h
    rw [List.foldl_cons]
    refine ih _ ?_
    by_cases hw : (x, y) = w ∨ (y, x) = w
    · refine .inr (.inr ?_)
      unfold BackendNet.link BackendNet.connect
      rw [OrdMap.get_insert, OrdMap.get_insert]
      rcases hw with rfl | rfl
      · simp
      · simp
    · push Not at hw
      rcases h with h | h | h
      · exact .inl ((List.mem_cons.1 h).resolve_left hw.1)
      · exact .inr (.inl ((List.mem_cons.1 h).resolve_left hw.2))
      · refine .inr (.inr ?_)
        unfold BackendNet.link BackendNet.connect
        rw [OrdMap.get_insert, OrdMap.get_insert]
        split_ifs <;> first | rfl | exact h

lemma isSome_queues_host {M : Type} {k : Kernel M} {n : NodeId} (node : NodeId)
    (spec : ServiceModelSpec) (profile : String) (h : k.queues[n]?.isSome ∨ n = node) :
    (k.host node spec profile).queues[n]?.isSome := by
  unfold Kernel.host
  rw [OrdMap.get_insert]
  split_ifs with hn
  · rfl
  · exact h.resolve_right fun h => hn h.symm

/-- Hosting the backend hosts every node of it. -/
lemma isSome_queues_hostBackend (k : Kernel (ScmsMsg S P)) (params : ScmsParams) :
    ∀ n ∈ nodes.all, (hostBackend k params).queues[n]?.isSome := by
  have hfold : ∀ (l : List (NodeId × ServiceModelSpec)) (k : Kernel (ScmsMsg S P)) (n : NodeId),
      (k.queues[n]?.isSome ∨ n ∈ l.map Prod.fst) →
      (l.foldl (fun k m => k.host m.1 m.2 params.backendProfile) k).queues[n]?.isSome := by
    intro l
    induction l with
    | nil => exact fun k n h => h.resolve_right List.not_mem_nil
    | cons m l ih =>
      intro k n h
      refine ih _ n ?_
      rcases h with h | h
      · exact .inl (isSome_queues_host _ _ _ (.inl h))
      · rcases List.mem_cons.1 h with h | h
        · exact .inl (isSome_queues_host _ _ _ (.inr h))
        · exact .inr h
  intro n hn
  refine hfold _ _ n (.inr ?_)
  simpa [ScmsNodes.backendServiceModels] using hn

lemma net_hostBackend (k : Kernel (ScmsMsg S P)) (params : ScmsParams) :
    (hostBackend k params).net = k.net := by
  have hfold : ∀ (l : List (NodeId × ServiceModelSpec)) (k : Kernel (ScmsMsg S P)),
      (l.foldl (fun k m => k.host m.1 m.2 params.backendProfile) k).net = k.net := by
    intro l
    induction l with
    | nil => exact fun k => rfl
    | cons m l ih => exact fun k => ih _
  exact hfold _ _

lemma posts_hostBackend (k : Kernel (ScmsMsg S P)) (params : ScmsParams) :
    (hostBackend k params).posts = k.posts := by
  have hfold : ∀ (l : List (NodeId × ServiceModelSpec)) (k : Kernel (ScmsMsg S P)),
      (l.foldl (fun k m => k.host m.1 m.2 params.backendProfile) k).posts = k.posts := by
    intro l
    induction l with
    | nil => exact fun k => rfl
    | cons m l ih => exact fun k => ih _
  exact hfold _ _

lemma posts_scratchKernel (net : BackendNet) (params : ScmsParams) (device : NodeId) :
    (scratchKernel net params device : Kernel (ScmsMsg S P)).posts = 0 := by
  rw [scratchKernel, hostDevice, Kernel.posts_host, posts_hostBackend, Kernel.posts_newAt]

lemma link_newAt (certs : CertificateSizes) (params : ScmsParams) (t0 : SimTime) {a b : NodeId}
    (h : BackendLinked a b) :
    (ScmsRun.newAt certs params t0 : ScmsRun S P).kernel.net.link a b =
      some ⟨params.backendLinkLatency, params.backendLinkBandwidthBps, .backendNet⟩ := by
  rw [ScmsRun.newAt, net_hostBackend]
  exact link_foldl_connect _ _ _ (h.imp_right .inl)

namespace Wired

variable {k : Kernel (ScmsMsg S P)}

lemma newAt (certs : CertificateSizes) (params : ScmsParams) (t0 : SimTime) :
    Wired (ScmsRun.newAt certs params t0 : ScmsRun S P).kernel where
  hosted := isSome_queues_hostBackend _ params
  linked a b h := by
    rw [link_newAt certs params t0 h]
    rfl

lemma congr {k' : Kernel (ScmsMsg S P)} (hk : Wired k)
    (hq : ∀ n : NodeId, k'.queues[n]?.isSome = k.queues[n]?.isSome) (hn : k'.net = k.net) :
    Wired k' where
  hosted n hmem := by rw [hq n]; exact hk.hosted n hmem
  linked a b h := by rw [hn]; exact hk.linked a b h

lemma connectAccess (hk : Wired k) (device : NodeId) (link : Link) :
    Wired (ScmsRun.connectAccess k device link) where
  hosted := hk.hosted
  linked a b h :=
    isSome_link_foldl_connect (fun _ => device) id link nodes.accessPeers k.net (hk.linked a b h)

lemma hostDevice (hk : Wired k) (params : ScmsParams) (device : NodeId) :
    Wired (ScmsRun.hostDevice k params device) where
  hosted n h := isSome_queues_host _ _ _ (.inl (hk.hosted n h))
  linked := hk.linked

lemma scratch (hk : Wired k) (params : ScmsParams) (device : NodeId) :
    Wired (scratchKernel k.net params device : Kernel (ScmsMsg S P)) := by
  have hbackend : Wired (hostBackend (Kernel.newAt k.net 0) params : Kernel (ScmsMsg S P)) :=
    ⟨isSome_queues_hostBackend _ params, fun a b h => by
      rw [net_hostBackend]; exact hk.linked a b h⟩
  exact hbackend.hostDevice params device

lemma injectAt (hk : Wired k) (time : SimTime) (d : Delivery (ScmsMsg S P)) :
    Wired (k.injectAt time d) :=
  hk.congr (fun _ => rfl) rfl

end Wired

/-! ## Everything in flight -/

/-- The families of the flows a preload makes. -/
def Family.Preloads (f : Family) : Prop := f = .enrolment ∨ f = .provisioning

namespace Driver

/-- The state of the entities. -/
abbrev state (D : Driver S P) : ScmsState S P := D.run.state

/-- Everything in flight, on the kernel in place and on the one a preload has put aside. -/
def posts (D : Driver S P) : Multiset (ScmsPost S P) :=
  D.run.kernel.posts + D.preloading.elim 0 fun p => p.real.posts

lemma posts_none (r : ScmsRun S P) : Driver.posts ⟨r, none⟩ = r.kernel.posts :=
  Multiset.add_zero _

/-- What holds of the kernels of a driver: they are wired, and during a preload the one in place
carries only the flows of the preload. -/
structure Sound (D : Driver S P) : Prop where
  wired : Wired D.run.kernel
  real : ∀ p, D.preloading = some p → Wired p.real
  scratch : ∀ p, D.preloading = some p → ∀ q ∈ D.run.kernel.posts, q.msg.family.Preloads

end Driver

variable [AddCommGroup S] [AddCommGroup P]

/-! ## Events -/

/-- What a call does to the entities. -/
inductive Event where
  | addDevice (node : NodeId)
  | enrol (device : NodeId)
  | report (src dst : NodeId) (r : ReportSubmission)
  | fetchCrl (device : NodeId)
  | airCrl (device : NodeId)
  | request (device : NodeId) (startI periods jmax : ℕ) (flow : FlowId)
  | openCase (a b : ReportSubmission) (iRev jmax : ℕ) (direct : Bool)
  /-- Two run numbers are used up by an investigation of reports that are not held. -/
  | skip

/-- The next run number is used up. -/
def ScmsState.bump (s : ScmsState S P) (n : ℕ) : ScmsState S P :=
  { s with nextRun := s.nextRun + n }

/-- The caterpillar of a device's next request. -/
def ScmsState.nextCaterpillar (c : Crypto S P) (s : ScmsState S P) (device : NodeId) :
    Caterpillar S :=
  Caterpillar.fromSeed c (s.rng.fillBytes c device seedBytes).1

/-- The state after a device has made a request. -/
def ScmsState.requested (c : Crypto S P) (s : ScmsState S P) (device : NodeId)
    (startI periods : ℕ) : ScmsState S P :=
  { s.bump 1 with rng := (s.rng.fillBytes c device seedBytes).2 }.modifyDevice device fun dev =>
    { dev with
      caterpillar := some (s.nextCaterpillar c device)
      downloadRetries := 0
      provisioning := some ⟨startI, periods, 0, false⟩ }

lemma ScmsState.requested_of_none (c : Crypto S P) {s : ScmsState S P} {device : NodeId}
    (startI periods : ℕ) (hdev : s.devices[device]? = none) :
    s.requested c device startI periods =
      { s.bump 1 with rng := (s.rng.fillBytes c device seedBytes).2 } := by
  unfold ScmsState.requested modifyDevice ScmsState.bump
  simp only [hdev]

lemma ScmsState.requested_of_some (c : Crypto S P) {s : ScmsState S P} {device : NodeId}
    {dev : DeviceState S P} (startI periods : ℕ) (hdev : s.devices[device]? = some dev) :
    s.requested c device startI periods =
      { s.bump 1 with
        rng := (s.rng.fillBytes c device seedBytes).2
        devices := s.devices.insert device { dev with
          caterpillar := some (s.nextCaterpillar c device)
          downloadRetries := 0
          provisioning := some ⟨startI, periods, 0, false⟩ } } := by
  unfold ScmsState.requested modifyDevice ScmsState.bump
  simp only [hdev]

/-- The state after an event, and the message that starts its flow. -/
def Event.apply (c : Crypto S P) (s : ScmsState S P) : Event → ScmsState S P × List (ScmsPost S P)
  | .addDevice node => ({ s with devices := s.devices.insert node (DeviceState.new node) }, [])
  | .enrol device => (s.bump 1, [⟨device, device, .enrolRequest device, .enrolment, s.nextRun + 1⟩])
  | .report src dst r => (s.bump 1, [⟨src, dst, .report r, .report, s.nextRun + 1⟩])
  | .fetchCrl device =>
    (s.bump 1, [⟨device, device, .crlDownloadRequest device, .crlDistribution, s.nextRun + 1⟩])
  | .airCrl device =>
    (s.bump 1, [⟨nodes.crlBroadcast, nodes.crlBroadcast, .crlAirBroadcast device, .crlDistribution,
      s.nextRun + 1⟩])
  | .request device startI periods jmax flow =>
    (s.requested c device startI periods,
      [⟨device, device,
        .provisioningRequest (requestOf c device (s.nextCaterpillar c device) startI periods jmax),
        flow, s.nextRun + 1⟩])
  | .openCase a b iRev jmax direct =>
    ((s.bump 2).withCase (caseOf (s.nextRun + 1) (s.nextRun + 2) a b iRev jmax direct),
      [⟨nodes.ma, nodes.ma, .pcaLookupRequest a.subjectI a.subjectLv, .linkageResolution,
        s.nextRun + 1⟩])
  | .skip => (s.bump 2, [])

/-! ## The system -/

/-- Handling a message: the handler's state and posts, or an error that changes nothing. -/
inductive Reacts (c : Crypto S P) (p : ScmsPost S P) (s : ScmsState S P) :
    ScmsState S P → List (ScmsPost S P) → Prop
  | handled {s' : ScmsState S P} {out : Outbox (ScmsMsg S P)} (time : SimTime)
      (cost : OpDescriptor → Duration) :
      s.handle c (p.deliverAt time) (Outbox.new cost) = .ok (s', out) →
      Reacts c p s s' (out.posts p.dst)
  | refused (e : ProtoError) (time : SimTime) (cost : OpDescriptor → Duration) :
      s.handle c (p.deliverAt time) (Outbox.new cost) = .error (.proto e) → Reacts c p s s []

/-- The deployment as a system of entities that exchange messages. -/
def scms (c : Crypto S P) : Mailbox (ScmsState S P) (ScmsPost S P) Event where
  act e s := e.apply c s
  react := Reacts c
  vouched p posts := p.dst ∈ nodes.all ∧
    ∀ q ∈ posts, BackendLinked p.dst q.dst ∨ q.dst = p.dst ∧ q.msg.isTimer

/-- A condition on the steps of the system. -/
abbrev Guard (S P : Type) := Event ⊕ ScmsPost S P → ScmsState S P → Multiset (ScmsPost S P) → Prop

/-- A guard that restricts only devices, requests, cases and deliveries. -/
def Guard.Free (G : Guard S P) : Prop :=
  ∀ s b, (∀ device, G (.inl (.enrol device)) s b) ∧ (∀ src dst r, G (.inl (.report src dst r)) s b) ∧
    (∀ device, G (.inl (.fetchCrl device)) s b) ∧ (∀ device, G (.inl (.airCrl device)) s b) ∧
    G (.inl .skip) s b

/-! ## The driver's operations -/

/-- The operations whose event or delivery meets a guard. -/
def Allowed (G : Guard S P) (D : Driver S P) : Op → Prop
  | .addDevice node => G (.inl (.addDevice node)) D.state D.posts
  | .provision device _ startI periods jmax =>
    G (.inl (.request device startI periods jmax .provisioning)) D.state D.posts
  | .topup device _ i jmax => G (.inl (.request device i 1 jmax .topup)) D.state D.posts
  | .investigate a b iRev jmax =>
    ∀ ra rb, D.state.ma.reports[a]? = some ra → D.state.ma.reports[b]? = some rb →
      G (.inl (.openCase ra rb iRev jmax false)) D.state D.posts
  | .revoke index iRev jmax =>
    ∀ r, caseOpen D.state = false → D.state.ma.reports[index]? = some r →
      G (.inl (.openCase r r iRev jmax true)) D.state D.posts
  | .preload device _ _ _ =>
    D.state.devices[device]? = none → G (.inl (.addDevice device)) D.state D.posts
  | .deliver =>
    (∀ q k, D.run.kernel.nextDelivery = some (q, k) →
      G (.inr q.delivery.post) D.state D.posts) ∧
    ∀ p, D.run.kernel.nextDelivery = none → D.preloading = some p → p.requested = false →
      G (.inl (.request p.device p.startI p.periods p.jmax .provisioning)) D.state D.posts
  | _ => True

omit [AddCommGroup S] [AddCommGroup P] in
/-- Two conditions together. -/
lemma Allowed.and {G H : Guard S P} {D : Driver S P} {op : Op} (hG : Allowed G D op)
    (hH : Allowed H D op) : Allowed (fun e s b => G e s b ∧ H e s b) D op := by
  cases op with
  | investigate a b iRev jmax => exact fun ra rb ha hb => ⟨hG ra rb ha hb, hH ra rb ha hb⟩
  | revoke index iRev jmax => exact fun r ho hr => ⟨hG r ho hr, hH r ho hr⟩
  | preload device startI periods jmax => exact fun hdev => ⟨hG hdev, hH hdev⟩
  | deliver =>
    exact ⟨fun q k hq => ⟨hG.1 q k hq, hH.1 q k hq⟩,
      fun p hn hp hr => ⟨hG.2 p hn hp hr, hH.2 p hn hp hr⟩⟩
  | addDevice node => exact ⟨hG, hH⟩
  | provision device time startI periods jmax => exact ⟨hG, hH⟩
  | topup device time i jmax => exact ⟨hG, hH⟩
  | _ => trivial

omit [AddCommGroup S] [AddCommGroup P] in
lemma Allowed.imp {G H : Guard S P} {D : Driver S P} {op : Op}
    (h : ∀ e s b, G e s b → H e s b) (hG : Allowed G D op) : Allowed H D op := by
  cases op with
  | investigate a b iRev jmax => exact fun ra rb ha hb => h _ _ _ (hG ra rb ha hb)
  | revoke index iRev jmax => exact fun r ho hr => h _ _ _ (hG r ho hr)
  | preload device startI periods jmax => exact fun hdev => h _ _ _ (hG hdev)
  | deliver =>
    exact ⟨fun q k hq => h _ _ _ (hG.1 q k hq), fun p hn hp hr => h _ _ _ (hG.2 p hn hp hr)⟩
  | addDevice node => exact h _ _ _ hG
  | provision device time startI periods jmax => exact h _ _ _ hG
  | topup device time i jmax => exact h _ _ _ hG
  | _ => trivial

omit [AddCommGroup S] [AddCommGroup P] in
lemma allowed_true (D : Driver S P) (op : Op) : Allowed (fun _ _ _ => True) D op := by
  cases op <;> simp [Allowed]

omit [AddCommGroup S] [AddCommGroup P] in
lemma free_true : Guard.Free (S := S) (P := P) fun _ _ _ => True := fun _ _ =>
  ⟨fun _ => trivial, fun _ _ _ => trivial, fun _ => trivial, fun _ => trivial, trivial⟩

/-! ## Steps of the machine -/

lemma Wired.connected {k : Kernel (ScmsMsg S P)} (hk : Wired k) {c : Crypto S P}
    {p : ScmsPost S P} {out : Outbox (ScmsMsg S P)}
    (htimer : ∀ s ∈ out.sends, s.msg.isTimer = false)
    (h : (scms c).vouched p (out.posts p.dst)) : k.Connected p.dst out := by
  refine ⟨hk.hosted _ h.1, fun s hs => ?_⟩
  have hpost : Outbox.sendPost p.dst s ∈ out.posts p.dst :=
    List.mem_append_right _ (List.mem_map_of_mem hs)
  rcases h.2 _ hpost with hlinked | ⟨-, hmsg⟩
  · exact hk.linked _ _ hlinked
  · exact absurd hmsg (by simp [Outbox.sendPost, htimer s hs])

section Steps

variable {c : Crypto S P} {charge : String → OpDescriptor → Duration} {G : Guard S P}
  {Q : ScmsState S P → Multiset (ScmsPost S P) → Prop}

lemma keeps_event (hQ : (scms c).Keeps G Q) {s : ScmsState S P} {b : Multiset (ScmsPost S P)}
    (e : Event) (hG : G (.inl e) s b) (h : Q s b) : Q (e.apply c s).1 ((e.apply c s).2 + b) :=
  hQ (.act e s b) hG h

/-- **One delivery is one step of the system.** The delivery taken off the schedule is handled, and
the posts it makes are lost only where the system does not vouch for them. -/
lemma process_step {r r' : ScmsRun S P} {q : Queued (ScmsMsg S P)} {k : Kernel (ScmsMsg S P)}
    {result : Except ProtoError Unit} {out : Outbox (ScmsMsg S P)} (hwired : Wired r.kernel)
    (hnext : r.kernel.nextDelivery = some (q, k))
    (hproc : process c charge r q k = .ok ((result, out), r')) (b : Multiset (ScmsPost S P)) :
    Wired r'.kernel ∧ (scms c).Step (.inr q.delivery.post) r.state (r.kernel.posts + b) r'.state
      (r'.kernel.posts + b) := by
  have hk : Wired k := by
    obtain ⟨-, -, hk⟩ := Kernel.nextDelivery_spec hnext
    rw [hk]
    exact hwired.congr (fun _ => rfl) rfl
  rw [Kernel.nextDelivery_posts hnext, Multiset.cons_add]
  unfold process at hproc
  cases hh : r.state.handle c q.delivery (Outbox.new (charge (k.profileOf q.delivery.dst))) with
  | error e =>
    cases e with
    | panic => simp [hh] at hproc
    | proto e =>
      simp only [hh, Except.ok.injEq, Prod.mk.injEq] at hproc
      obtain ⟨-, rfl⟩ := hproc
      have hstep : (scms c).Step (.inr q.delivery.post) r.state
          (q.delivery.post ::ₘ (k.posts + b)) r.state (([] : List (ScmsPost S P)) + (k.posts + b)) :=
        .react (Reacts.refused e q.delivery.time _ hh) (.refl _) fun _ => rfl
      exact ⟨hk, by simpa using hstep⟩
  | ok p =>
    obtain ⟨s', out'⟩ := p
    simp only [hh, Except.ok.injEq, Prod.mk.injEq] at hproc
    obtain ⟨⟨-, rfl⟩, rfl⟩ := hproc
    obtain ⟨kept, hsub, hkept, hnet, hqueues, hconn⟩ :=
      k.dispatch_posts q.delivery.time q.delivery.dst out'
    refine ⟨hk.congr hqueues hnet, ?_⟩
    have hvouched : (scms c).vouched q.delivery.post (out'.posts q.delivery.post.dst) →
        kept = out'.posts q.delivery.post.dst := fun hv =>
      (hconn (hk.connected (handle_sends hh) hv)).1
    have hstep := Mailbox.Step.react (m := scms c) (b := k.posts + b)
      (Reacts.handled q.delivery.time _ hh) hsub hvouched
    show (scms c).Step _ _ _ s' ((k.dispatch q.delivery.time q.delivery.dst out').2.posts + b)
    rw [hkept, Multiset.add_assoc]
    exact hstep

lemma process_keeps (hQ : (scms c).Keeps G Q) {r r' : ScmsRun S P} {q : Queued (ScmsMsg S P)}
    {k : Kernel (ScmsMsg S P)} {b : Multiset (ScmsPost S P)} {result : Except ProtoError Unit}
    {out : Outbox (ScmsMsg S P)} (hwired : Wired r.kernel)
    (hnext : r.kernel.nextDelivery = some (q, k))
    (hproc : process c charge r q k = .ok ((result, out), r'))
    (hG : G (.inr q.delivery.post) r.state (r.kernel.posts + b))
    (h : Q r.state (r.kernel.posts + b)) :
    Wired r'.kernel ∧ Q r'.state (r'.kernel.posts + b) := by
  obtain ⟨hwired', hstep⟩ := process_step hwired hnext hproc b
  exact ⟨hwired', hQ hstep hG h⟩

/-- A delivery of a preload posts messages of a preload. -/
lemma process_preloads {r r' : ScmsRun S P} {q : Queued (ScmsMsg S P)}
    {k : Kernel (ScmsMsg S P)} {result : Except ProtoError Unit} {out : Outbox (ScmsMsg S P)}
    (hnext : r.kernel.nextDelivery = some (q, k))
    (hproc : process c charge r q k = .ok ((result, out), r'))
    (h : ∀ p ∈ r.kernel.posts, p.msg.family.Preloads) :
    ∀ p ∈ r'.kernel.posts, p.msg.family.Preloads := by
  rw [Kernel.nextDelivery_posts hnext] at h
  have hq := h _ (Multiset.mem_cons_self _ _)
  have hk := fun p hp => h p (Multiset.mem_cons_of_mem hp)
  unfold process at hproc
  cases hh : r.state.handle c q.delivery (Outbox.new (charge (k.profileOf q.delivery.dst))) with
  | error e =>
    cases e with
    | panic => simp [hh] at hproc
    | proto e =>
      simp only [hh, Except.ok.injEq, Prod.mk.injEq] at hproc
      obtain ⟨-, rfl⟩ := hproc
      exact hk
  | ok x =>
    obtain ⟨s', out'⟩ := x
    simp only [hh, Except.ok.injEq, Prod.mk.injEq] at hproc
    obtain ⟨⟨-, rfl⟩, rfl⟩ := hproc
    obtain ⟨kept, hsub, hkept, -⟩ := k.dispatch_posts q.delivery.time q.delivery.dst out'
    intro p hp
    rcases Multiset.mem_add.1 (hkept ▸ hp) with hp | hp
    · rcases handle_posts q.delivery.dst hh p (hsub.subset (Multiset.mem_coe.1 hp)) with hf | hf
      · rw [hf]; exact hq
      · rcases hq with hq | hq <;> exact absurd (hf.1.symm.trans hq) (by decide)
    · exact hk p hp

lemma keeps_start (hQ : (scms c).Keeps G Q) {s s' : ScmsState S P} {b : Multiset (ScmsPost S P)}
    {p : ScmsPost S P} (e : Event) (he : e.apply c s = (s', [p])) (hG : G (.inl e) s b)
    (h : Q s b) : Q s' (p ::ₘ b) := by
  have := keeps_event hQ e hG h
  rw [he] at this
  simpa using this

lemma keeps_silent (hQ : (scms c).Keeps G Q) {s s' : ScmsState S P}
    {b : Multiset (ScmsPost S P)} (e : Event) (he : e.apply c s = (s', [])) (hG : G (.inl e) s b)
    (h : Q s b) : Q s' b := by
  have := keeps_event hQ e hG h
  rw [he] at this
  simpa using this

/-- **One call is one event of the system**, or changes nothing there. -/
lemma call_keeps (hQ : (scms c).Keeps G Q) (hfree : G.Free)
    (hparams : ∀ s b params, Q s b → Q { s with params := params } b) {r : ScmsRun S P} {op : Op}
    {o : Reply S P} {D' : Driver S P} (hwired : Wired r.kernel) (hG : Allowed G ⟨r, none⟩ op)
    (h : Q r.state r.kernel.posts) (hcall : call c r op = (o, D')) :
    D'.Sound ∧ Q D'.state D'.posts := by
  have hbag := Driver.posts_none r
  obtain ⟨henrol, hreport, hfetch, hair, hskip⟩ := hfree r.state r.kernel.posts
  cases op with
  | addDevice node =>
    cases hcall
    simp only [Allowed, hbag] at hG
    refine ⟨⟨(hwired.connectAccess _ _).hostDevice _ _, fun _ hp => (nomatch hp), fun _ hp =>
      (nomatch hp)⟩, ?_⟩
    rw [Driver.posts_none]
    exact keeps_silent hQ (.addDevice node) rfl hG h
  | setAccess device link =>
    cases hcall
    exact ⟨⟨hwired.connectAccess _ _, fun _ hp => (nomatch hp), fun _ hp => (nomatch hp)⟩,
      (Driver.posts_none _).symm ▸ h⟩
  | attachRsu device =>
    cases hcall
    refine ⟨⟨⟨hwired.hosted, fun a b hab => ?_⟩, fun _ hp => (nomatch hp), fun _ hp => (nomatch hp)⟩,
      (Driver.posts_none _).symm ▸ h⟩
    exact BackendNet.isSome_link_connect _ (hwired.linked a b hab)
  | enrol device time =>
    cases hcall
    refine ⟨⟨hwired.injectAt _ _, fun _ hp => (nomatch hp), fun _ hp => (nomatch hp)⟩, ?_⟩
    rw [Driver.posts_none]
    exact keeps_start hQ (.enrol device) rfl (henrol device) h
  | provision device time startI periods jmax =>
    cases hcall
    simp only [Allowed, hbag] at hG
    refine ⟨⟨hwired.injectAt _ _, fun _ hp => (nomatch hp), fun _ hp => (nomatch hp)⟩, ?_⟩
    rw [Driver.posts_none]
    exact keeps_start hQ (.request device startI periods jmax .provisioning)
      rfl hG h
  | topup device time i jmax =>
    cases hcall
    simp only [Allowed, hbag] at hG
    refine ⟨⟨hwired.injectAt _ _, fun _ hp => (nomatch hp), fun _ hp => (nomatch hp)⟩, ?_⟩
    rw [Driver.posts_none]
    exact keeps_start hQ (.request device i 1 jmax .topup) rfl hG h
  | submitReport reporter subjectI subjectLv =>
    cases hcall
    refine ⟨⟨hwired.injectAt _ _, fun _ hp => (nomatch hp), fun _ hp => (nomatch hp)⟩, ?_⟩
    rw [Driver.posts_none]
    exact keeps_start hQ (.report reporter reporter _) rfl (hreport _ _ _) h
  | reportAtProxy reporter subjectI subjectLv detectedAt sentAt arriveAt transport bytes =>
    cases hcall
    refine ⟨⟨hwired.congr (fun _ => rfl) rfl, fun _ hp => (nomatch hp), fun _ hp => (nomatch hp)⟩, ?_⟩
    rw [Driver.posts_none]
    exact keeps_start hQ (.report reporter nodes.lop _) rfl (hreport _ _ _) h
  | investigate a b iRev jmax =>
    simp only [call, investigate, newRun] at hcall
    simp only [Allowed, hbag] at hG
    split at hcall
    next ra rb hra hrb =>
      cases hcall
      refine ⟨⟨hwired.injectAt _ _, fun _ hp => (nomatch hp), fun _ hp => (nomatch hp)⟩, ?_⟩
      rw [Driver.posts_none]
      exact keeps_start hQ (.openCase ra rb iRev jmax false) rfl
        (hG ra rb hra hrb) h
    next =>
      cases hcall
      refine ⟨⟨hwired, fun _ hp => (nomatch hp), fun _ hp => (nomatch hp)⟩, ?_⟩
      rw [Driver.posts_none]
      exact keeps_silent hQ .skip rfl hskip h
  | revoke index iRev jmax =>
    simp only [call, revoke, newRun] at hcall
    simp only [Allowed, hbag] at hG
    split at hcall
    next =>
      cases hcall
      exact ⟨⟨hwired, fun _ hp => (nomatch hp), fun _ hp => (nomatch hp)⟩,
        (Driver.posts_none _).symm ▸ h⟩
    next hopen =>
      cases hrep : r.state.ma.reports[index]? with
      | none =>
        simp only [hrep] at hcall
        cases hcall
        exact ⟨⟨hwired, fun _ hp => (nomatch hp), fun _ hp => (nomatch hp)⟩,
          (Driver.posts_none _).symm ▸ h⟩
      | some report =>
        simp only [hrep] at hcall
        cases hcall
        refine ⟨⟨hwired.injectAt _ _, fun _ hp => (nomatch hp), fun _ hp => (nomatch hp)⟩, ?_⟩
        rw [Driver.posts_none]
        exact keeps_start hQ (.openCase report report iRev jmax true) rfl
          (hG report (by simpa using hopen) hrep) h
  | distributeCrl device =>
    cases hcall
    refine ⟨⟨hwired.injectAt _ _, fun _ hp => (nomatch hp), fun _ hp => (nomatch hp)⟩, ?_⟩
    rw [Driver.posts_none]
    exact keeps_start hQ (.fetchCrl device) rfl (hfetch device) h
  | broadcastCrlTo device =>
    cases hcall
    refine ⟨⟨hwired.injectAt _ _, fun _ hp => (nomatch hp), fun _ hp => (nomatch hp)⟩, ?_⟩
    rw [Driver.posts_none]
    exact keeps_start hQ (.airCrl device) rfl (hair device) h
  | preload device startI periods jmax =>
    simp only [Allowed, hbag] at hG
    -- The device is added if need be, the windows are closed and the enrolment is started.
    obtain ⟨r₁, hr₁, hwired₁, hQ₁⟩ : ∃ r₁ : ScmsRun S P,
        (if r.state.devices[device]?.isNone then r.addDevice device else r) = r₁ ∧
          Wired r₁.kernel ∧ Q r₁.state r₁.kernel.posts := by
      by_cases hdev : r.state.devices[device]?.isNone
      · refine ⟨_, if_pos hdev, (hwired.connectAccess _ _).hostDevice _ _, ?_⟩
        exact keeps_silent hQ (.addDevice device) rfl (hG (Option.isNone_iff_eq_none.1 hdev)) h
      · exact ⟨_, if_neg hdev, hwired, h⟩
    simp only [call, enterPreload, hr₁] at hcall
    cases hcall
    have hscratch : (enrolAt ⟨{ r₁.state with
        params := { r₁.state.params with shuffleWindow := ⟨0⟩, firstBatchDelay := ⟨0⟩ } },
        scratchKernel r₁.kernel.net r₁.state.params device⟩ device 0).2.kernel.posts =
        {⟨device, device, .enrolRequest device, .enrolment, r₁.state.nextRun + 1⟩} := by
      simp only [enrolAt, newRun, ScmsRun.injectAt, Kernel.posts_injectAt, posts_scratchKernel]
      rfl
    refine ⟨⟨(hwired₁.scratch r₁.state.params device).injectAt _ _, ?_, ?_⟩, ?_⟩
    · rintro p hp
      cases hp
      exact hwired₁
    · rintro p - q hq
      rw [hscratch, Multiset.mem_singleton] at hq
      subst hq
      exact .inl rfl
    · have h₁ := hparams _ _ { r₁.state.params with shuffleWindow := ⟨0⟩, firstBatchDelay := ⟨0⟩ } hQ₁
      have h₂ := keeps_start hQ (.enrol device) rfl ((hfree _ _).1 device) h₁
      simp only [Driver.posts, hscratch, Option.elim_some, Multiset.singleton_add]
      exact h₂
  | deliver =>
    cases hcall
    exact ⟨⟨hwired, fun _ hp => (nomatch hp), fun _ hp => (nomatch hp)⟩,
      (Driver.posts_none _).symm ▸ h⟩

/-- **One operation of the driver**: what the system preserves is preserved by the machine.

**Proof sketch.** A call is an event. A delivery is a step of the system on the posts of both
kernels, of which the one put aside is untouched. What is left are the ends of a preload, which
change the parameters and put the kernel back, and the request in its middle, which is an event. -/
theorem step_keeps (hQ : (scms c).Keeps G Q) (hfree : G.Free)
    (hparams : ∀ s b params, Q s b → Q { s with params := params } b)
    (hdrop : ∀ s b b', (∀ p ∈ b, p.msg.family.Preloads) → Q s (b + b') → Q s b')
    {certs : CertificateSizes}
    {params : ScmsParams} {t0 : SimTime} {D D' : Driver S P} {op : Op} {o : Reply S P}
    (hsound : D.Sound) (hG : Allowed G D op) (h : Q D.state D.posts)
    (hstep : (machine c charge certs params t0).step D op = .ok (o, D')) :
    D'.Sound ∧ Q D'.state D'.posts := by
  obtain ⟨r, preloading⟩ := D
  by_cases hop : op = .deliver
  · subst hop
    simp only [machine, deliver] at hstep
    cases hnext : r.kernel.nextDelivery with
    | none =>
      simp only [hnext] at hstep
      cases preloading with
      | none => cases hstep; exact ⟨hsound, h⟩
      | some p =>
        have hzero : r.kernel.posts = 0 := by
          rw [Kernel.posts, Kernel.nextDelivery_eq_none hnext]; rfl
        have hbag : Driver.posts (⟨r, some p⟩ : Driver S P) = p.real.posts := by
          rw [Driver.posts, hzero, Multiset.zero_add]; rfl
        rw [hbag] at h
        dsimp only at hstep
        split at hstep
        next hreq =>
          cases hstep
          refine ⟨⟨hsound.real p rfl, fun _ hp => (nomatch hp), fun _ hp => (nomatch hp)⟩, ?_⟩
          rw [Driver.posts_none]
          exact hparams _ _ p.saved h
        next hreq =>
          cases hstep
          have hG' := hG.2 p hnext rfl (by simpa using hreq)
          rw [hbag] at hG'
          refine ⟨⟨hsound.wired.injectAt _ _, fun p' hp' => ?_, fun p' _ q hq => ?_⟩, ?_⟩
          · cases hp'
            exact hsound.real p rfl
          · simp only [requestPreload, startProvisioning, newRun, ScmsRun.injectAt,
              Kernel.posts_injectAt, hzero, Multiset.cons_zero, Multiset.mem_singleton] at hq
            subst hq
            exact .inr rfl
          · have hkeep := keeps_start hQ
              (.request p.device p.startI p.periods p.jmax .provisioning) rfl hG' h
            simp only [Driver.posts, requestPreload, startProvisioning, newRun, ScmsRun.injectAt,
              Kernel.posts_injectAt, Option.elim_some, hzero, Multiset.cons_add,
              Multiset.zero_add]
            exact hkeep
    | some x =>
      obtain ⟨q, k⟩ := x
      simp only [hnext] at hstep
      cases hproc : process c charge r q k with
      | error e => simp [hproc] at hstep
      | ok y =>
        obtain ⟨⟨result, out⟩, r'⟩ := y
        obtain ⟨hwired', hkeep⟩ := process_keeps hQ hsound.wired hnext hproc (hG.1 q k hnext) h
        simp only [hproc] at hstep
        split at hstep
        next e p =>
          cases hstep
          refine ⟨⟨hsound.real p rfl, fun _ hp => (nomatch hp), fun _ hp => (nomatch hp)⟩, ?_⟩
          rw [Driver.posts_none]
          have hscratch := process_preloads hnext hproc (hsound.scratch p rfl)
          exact hparams _ _ p.saved (hdrop _ _ _ hscratch hkeep)
        next =>
          cases hstep
          exact ⟨⟨hwired', hsound.real, fun p hp =>
            process_preloads hnext hproc (hsound.scratch p hp)⟩, hkeep⟩
  · have hstep' : (if preloading.isSome then Except.error Abort.busy
        else .ok (call c r op)) = .ok (o, D') := by
      cases op <;> first | exact hstep | exact absurd rfl hop
    cases preloading with
    | some p => cases hstep'
    | none =>
      refine call_keeps hQ hfree hparams hsound.wired hG ?_ (Except.ok.inj hstep')
      rwa [Driver.posts_none] at h

lemma sound_init (c : Crypto S P) (charge : String → OpDescriptor → Duration)
    (certs : CertificateSizes) (params : ScmsParams) (t0 : SimTime) :
    (machine c charge certs params t0).init.Sound ∧
      (machine c charge certs params t0).init.posts = 0 := by
  refine ⟨⟨Wired.newAt certs params t0, fun _ hp => (nomatch hp), fun _ hp => (nomatch hp)⟩, ?_⟩
  show Driver.posts ⟨newAt certs params t0, none⟩ = 0
  rw [Driver.posts_none, newAt, posts_hostBackend, Kernel.posts_newAt]

lemma step_sound {certs : CertificateSizes} {params : ScmsParams} {t0 : SimTime}
    {D D' : Driver S P} {op : Op} {o : Reply S P} (hsound : D.Sound)
    (hstep : (machine c charge certs params t0).step D op = .ok (o, D')) : D'.Sound := by
  refine (step_keeps (G := fun _ _ _ => True) (Q := fun _ _ => True) (fun _ _ _ => trivial)
    free_true (fun _ _ _ _ => trivial) (fun _ _ _ _ _ => trivial) hsound (allowed_true D op) trivial
    hstep).1

/-- **Runs of the driver**: what the system preserves and holds of the state a run starts in holds
of the state it ends in, if its operations meet the guard. -/
lemma steps_keeps_from (hQ : (scms c).Keeps G Q) (hfree : G.Free)
    (hparams : ∀ s b params, Q s b → Q { s with params := params } b)
    (hdrop : ∀ s b b', (∀ p ∈ b, p.msg.family.Preloads) → Q s (b + b') → Q s b')
    {certs : CertificateSizes} {params : ScmsParams} {t0 : SimTime} {D D' : Driver S P}
    (hsound : D.Sound) (hD : Q D.state D.posts) {is : List Op} {os : List (Reply S P)}
    (h : (machine c charge certs params t0).StepsIf (Allowed G) D is os D') :
    D'.Sound ∧ Q D'.state D'.posts := by
  refine h.invariant (Q := fun D => D.Sound ∧ Q D.state D.posts) ⟨hsound, hD⟩ ?_
  intro D op o D' hD hG hstep
  exact step_keeps hQ hfree hparams hdrop hD.1 hG hD.2 hstep

lemma steps_keeps (hQ : (scms c).Keeps G Q) (hfree : G.Free)
    (hparams : ∀ s b params, Q s b → Q { s with params := params } b)
    (hdrop : ∀ s b b', (∀ p ∈ b, p.msg.family.Preloads) → Q s (b + b') → Q s b')
    {certs : CertificateSizes} {params : ScmsParams} {t0 : SimTime} (hnew : Q (.new certs params) 0)
    {is : List Op} {os : List (Reply S P)} {D : Driver S P}
    (h : (machine c charge certs params t0).StepsIf (Allowed G)
      (machine c charge certs params t0).init is os D) : D.Sound ∧ Q D.state D.posts := by
  obtain ⟨hsound, hposts⟩ := sound_init c charge certs params t0
  refine steps_keeps_from hQ hfree hparams hdrop hsound ?_ h
  rw [hposts]
  exact hnew

end Steps

end V2xw.Scms
