import Mathlib.Data.Prod.Lex
import V2xw.Core.Time
import V2xw.Lib.MinQueue
import V2xw.Lib.OrdMap

/-!
# The event kernel of the protocol crate

`crates/v2xw-proto/src/{kernel,service,net,stage}.rs`: deliveries ordered by time and sequence
number, one service queue per entity, and the links messages cross. A handler fills an outbox;
`Kernel.dispatch` charges its work to the entity's queue, stamps its stages and schedules what it
sent. The operation counters of the kernel are read by no flow and are left out.

## Main definitions

* `Link`, `BackendNet` — links and their delays.
* `ServiceQueue` — the servers of one entity.
* `Outbox` — what an entity produced while handling one message.
* `Kernel` — the schedule, the queues and the logs.
-/

namespace V2xw.Scms

open V2xw.Core

/-- The index of a node. -/
abbrev NodeId := ℕ

/-- A number as a `u32`, keeping the low bits. -/
def wrap32 (n : ℕ) : ℕ := n % 2 ^ 32

/-- A count as a `u32`, at most the largest one. -/
def sat32 (n : ℕ) : ℕ := min n (2 ^ 32 - 1)

/-- A count as a `u64`, at most the largest one. -/
def sat64 (n : ℕ) : ℕ := min n u64Max

/-! ## Links -/

/-- Which transport carried a message. -/
inductive Transport where
  | backendNet
  | cellularUu
  | rsuBackhaul
  | v2xAir
  deriving DecidableEq, Repr

/-- One directed link. -/
structure Link where
  latency : Duration
  /-- Bandwidth in bits per second, zero when only the latency counts. -/
  bandwidthBps : ℕ
  /-- Which transport the link is. -/
  transport : Transport
  deriving DecidableEq, Repr

/-- The time to move `bytes` across a link: its latency and the serialisation. -/
def Link.delay (l : Link) (bytes : ℕ) : Duration :=
  if l.bandwidthBps = 0 then l.latency
  else ⟨sat64 (l.latency.ns + sat64 (sat64 (bytes * 8) * 1000000000) / l.bandwidthBps)⟩

/-- The links of a deployment, by sender and receiver. -/
structure BackendNet where
  links : OrdMap (NodeId ×ₗ NodeId) Link

namespace BackendNet

/-- An empty topology. -/
def new : BackendNet := ⟨∅⟩

/-- Adds a link in both directions. -/
def connect (net : BackendNet) (a b : NodeId) (link : Link) : BackendNet :=
  ⟨(net.links.insert (toLex (a, b)) link).insert (toLex (b, a)) link⟩

/-- The link between two nodes, in the direction of the message. -/
def link (net : BackendNet) (src dst : NodeId) : Option Link := net.links[toLex (src, dst)]?

end BackendNet

/-! ## Service queues -/

/-- How an entity serves requests. The batching window of the source is read by nothing. -/
structure ServiceModelSpec where
  /-- How many requests are served at once. -/
  servers : ℕ
  /-- The time of a request besides its cryptography. -/
  fixedOverhead : Duration

/-- The servers of one entity, by the instants they become free. -/
structure ServiceQueue where
  freeAt : List SimTime
  fixedOverhead : Duration
  busyNs : ℕ
  served : ℕ
  waitedNs : ℕ

/-- The first server that becomes free earliest, with that instant. -/
def firstFree : List SimTime → Option (ℕ × SimTime)
  | [] => none
  | t :: l =>
    match firstFree l with
    | none => some (0, t)
    | some (i, u) => if t ≤ u then some (0, t) else some (i + 1, u)

namespace ServiceQueue

/-- An idle queue. -/
def new (spec : ServiceModelSpec) : ServiceQueue where
  freeAt := List.replicate (max spec.servers 1) 0
  fixedOverhead := spec.fixedOverhead
  busyNs := 0
  served := 0
  waitedNs := 0

/-- Admits a request that arrived at `arrival` and needs `work`: the instant it is finished. -/
def admitRequest (q : ServiceQueue) (arrival : SimTime) (work : Duration) : SimTime × ServiceQueue :=
  let (index, free) := (firstFree q.freeAt).getD (0, arrival)
  let start := max free arrival
  let service : Duration := ⟨sat64 (work.ns + q.fixedOverhead.ns)⟩
  let done := service.after start
  (done,
    { q with
      freeAt := q.freeAt.set index done
      busyNs := sat64 (q.busyNs + service.ns)
      waitedNs := sat64 (q.waitedNs + (start - arrival))
      served := q.served + 1 })

/-- The latest instant any server becomes free. -/
def busyUntil (q : ServiceQueue) : SimTime := q.freeAt.foldl max 0

end ServiceQueue

/-! ## Flows, stages and costs -/

/-- A named flow. -/
inductive FlowId where
  | enrolment
  | provisioning
  | topup
  | report
  | linkageResolution
  | crlIssuance
  | crlDistribution
  | etsiEnrolment
  | etsiAuthorization
  | etsiButterflyAuthorization
  | etsiAtDownload
  | etsiTrustList
  | etsiCaCrl
  | etsiMisbehaviourReport
  deriving DecidableEq, Repr

/-- One run of one flow. -/
abbrev FlowRun := ℕ

/-- A stage a flow stamps. -/
inductive StageId where
  | detect
  | reportSent
  | reportReceived
  | decision
  | resolved
  | issued
  | published
  | firstRsuBroadcast
  | downloaded
  | processed
  | enforced
  | blocklisted
  | requested
  | proxyForwarded
  | acknowledged
  | expanded
  | preLinkageReady
  | shuffled
  | certified
  | batchReady
  | installed
  deriving DecidableEq, Repr

/-- One stamped stage. -/
structure StageStamp where
  t : SimTime
  run : FlowRun
  flow : FlowId
  stage : StageId
  node : Option NodeId
  size : Option ℕ
  deriving DecidableEq

/-- One hop, as the wire log records it. -/
structure WireStep where
  t : SimTime
  src : NodeId
  dst : NodeId
  flow : FlowId
  run : FlowRun
  step : String
  bytes : ℕ
  transport : Transport
  deriving DecidableEq

/-- The primitives the flows charge. -/
inductive PrimitiveId where
  | ecdsaP256Sha256
  | ecqvP256
  | sha256
  | aes128Block
  deriving DecidableEq, Repr

/-- The operations on a primitive. -/
inductive PrimitiveOpKind where
  | keyGen
  | sign
  | verify
  deriving DecidableEq, Repr

/-- One costed operation: a primitive, an operation on it and a count. -/
structure OpDescriptor where
  primitive : PrimitiveId
  kind : PrimitiveOpKind
  count : ℕ
  deriving DecidableEq

/-! ## The outbox -/

variable {M : Type}

/-- A message on its way to an entity. -/
structure Delivery (M : Type) where
  time : SimTime
  src : NodeId
  dst : NodeId
  msg : M
  flow : FlowId
  run : FlowRun

/-- A message an entity wants sent. -/
structure PendingSend (M : Type) where
  dst : NodeId
  msg : M
  step : String
  size : ℕ
  transport : Transport
  flow : FlowId
  run : FlowRun

/-- A message an entity wants to get itself later. -/
structure PendingTimer (M : Type) where
  delay : Duration
  msg : M
  flow : FlowId
  run : FlowRun

/-- A stage an entity wants stamped. -/
structure PendingStage where
  stage : StageId
  node : Option NodeId
  size : Option ℕ
  flow : FlowId
  run : FlowRun
  deriving DecidableEq

/-- What an entity produced while handling one message. The cost table stands for the hardware
profile of the entity. -/
structure Outbox (M : Type) where
  cost : OpDescriptor → Duration
  work : Duration
  sends : List (PendingSend M)
  timers : List (PendingTimer M)
  stages : List PendingStage

namespace Outbox

/-- An empty outbox charging against a cost table. -/
def new (cost : OpDescriptor → Duration) : Outbox M := ⟨cost, ⟨0⟩, [], [], []⟩

/-- Charges a costed operation. -/
def compute (out : Outbox M) (op : OpDescriptor) : Outbox M :=
  { out with work := ⟨sat64 (out.work.ns + (out.cost op).ns)⟩ }

/-- Queues a message. -/
def send (out : Outbox M) (dst : NodeId) (msg : M) (step : String) (size : ℕ)
    (transport : Transport) (flow : FlowId) (run : FlowRun) : Outbox M :=
  { out with sends := out.sends ++ [⟨dst, msg, step, size, transport, flow, run⟩] }

/-- Queues a message to the entity itself, `delay` after it finishes this step. -/
def startTimer (out : Outbox M) (delay : Duration) (msg : M) (flow : FlowId) (run : FlowRun) :
    Outbox M :=
  { out with timers := out.timers ++ [⟨delay, msg, flow, run⟩] }

/-- Stamps a stage of a node. -/
def stageAt (out : Outbox M) (stage : StageId) (node : NodeId) (size : Option ℕ) (flow : FlowId)
    (run : FlowRun) : Outbox M :=
  { out with stages := out.stages ++ [⟨stage, some node, size, flow, run⟩] }

end Outbox

/-! ## The kernel -/

/-- What can go wrong inside the protocol. The size and payload errors are raised before a run
starts, and are left out. -/
inductive ProtoError where
  | noEntity (node : NodeId)
  | noLink (src dst : NodeId)
  | flow (flow detail : String)
  deriving DecidableEq

/-- A scheduled delivery. -/
structure Queued (M : Type) where
  time : SimTime
  seq : ℕ
  delivery : Delivery M

/-- Deliveries are ordered by time, and at one instant by the order they were scheduled in. -/
def Queued.key (q : Queued M) : SimTime ×ₗ ℕ := toLex (q.time, q.seq)

/-- The schedule, one service queue per entity, and the two logs. -/
structure Kernel (M : Type) where
  now : SimTime
  seq : ℕ
  heap : List (Queued M)
  queues : OrdMap NodeId ServiceQueue
  profiles : OrdMap NodeId String
  net : BackendNet
  stages : List StageStamp
  steps : List WireStep

namespace Kernel

/-- A kernel over `net` with no entities yet, whose clock starts at `t0`. -/
def newAt (net : BackendNet) (t0 : SimTime) : Kernel M := ⟨t0, 0, [], ∅, ∅, net, [], []⟩

/-- Gives a node a service model and a hardware profile. -/
def host (k : Kernel M) (node : NodeId) (spec : ServiceModelSpec) (profile : String) : Kernel M :=
  { k with
    queues := k.queues.insert node (ServiceQueue.new spec)
    profiles := k.profiles.insert node profile }

/-- The hardware profile a node's costs are charged against. -/
def profileOf (k : Kernel M) (node : NodeId) : String := k.profiles[node]?.getD ""

/-- The instant a node will have finished everything already given to it. -/
def busyUntil (k : Kernel M) (node : NodeId) : SimTime :=
  max (k.queues[node]?.elim 0 ServiceQueue.busyUntil) k.now

/-- Schedules a delivery. -/
def push (k : Kernel M) (time : SimTime) (delivery : Delivery M) : Kernel M :=
  { k with seq := k.seq + 1, heap := ⟨time, k.seq + 1, delivery⟩ :: k.heap }

/-- Injects a delivery at the earliest instant that cannot invert a stage at the receiver. -/
def injectAt (k : Kernel M) (time : SimTime) (delivery : Delivery M) : Kernel M :=
  let time := max time (k.busyUntil delivery.dst)
  k.push time { delivery with time := time }

/-- The next delivery with its place in the schedule, advancing the clock to it. -/
def nextDelivery (k : Kernel M) : Option (Queued M × Kernel M) :=
  (MinQueue.extractMin Queued.key k.heap).map fun (q, rest) =>
    (q, { k with now := q.time, heap := rest })

/-- The next delivery, but only if it is due by `horizon`. -/
def nextDeliveryBefore (k : Kernel M) (horizon : SimTime) : Option (Queued M × Kernel M) :=
  k.nextDelivery.filter fun p => p.1.time ≤ horizon

/-- Schedules a timer of a step finished at `done`. -/
def pushTimer (done : SimTime) (node : NodeId) (k : Kernel M) (t : PendingTimer M) : Kernel M :=
  k.push (t.delay.after done) ⟨t.delay.after done, node, node, t.msg, t.flow, t.run⟩

/-- The transport a hop is charged to: the access link of a device says which one it really is. -/
def hopTransport (link : Link) (s : PendingSend M) : Transport :=
  if s.transport = .cellularUu then link.transport else s.transport

/-- Puts a message of a step finished at `done` on its link. -/
def pushSend (done : SimTime) (node : NodeId) (k : Kernel M) (s : PendingSend M) (link : Link) :
    Kernel M :=
  let arrival := (link.delay s.size).after done
  let step : WireStep :=
    ⟨done, node, s.dst, s.flow, s.run, s.step, s.size, hopTransport link s⟩
  push { k with steps := k.steps ++ [step] } arrival
    ⟨arrival, node, s.dst, s.msg, s.flow, s.run⟩

/-- Schedules the messages of a step in order, up to the first one without a link. -/
def pushSends (done : SimTime) (node : NodeId) :
    Kernel M → List (PendingSend M) → Except ProtoError Unit × Kernel M
  | k, [] => (.ok (), k)
  | k, s :: sends =>
    match k.net.link node s.dst with
    | none => (.error (.noLink node s.dst), k)
    | some link => pushSends done node (k.pushSend done node s link) sends

/-- The stamp of a stage at the end of a step. -/
def stamp (done : SimTime) (s : PendingStage) : StageStamp :=
  ⟨done, s.run, s.flow, s.stage, s.node, s.size⟩

/-- Charges an entity's work, stamps its stages and schedules what it sent. -/
def dispatch (k : Kernel M) (time : SimTime) (node : NodeId) (out : Outbox M) :
    Except ProtoError Unit × Kernel M :=
  match k.queues[node]? with
  | none => (.error (.noEntity node), k)
  | some queue =>
    let (done, queue) := queue.admitRequest time out.work
    let k := { k with
      queues := k.queues.insert node queue
      stages := k.stages ++ out.stages.map (stamp done) }
    pushSends done node (out.timers.foldl (pushTimer done node) k) out.sends

end Kernel

end V2xw.Scms
