import Mathlib.Data.List.Sort
import V2xw.Lib.Fallible
import V2xw.Lib.Loop
import V2xw.Lib.Machine
import V2xw.Node.Stores

/-!
# The on-board unit

The runtime of `crates/v2xw-node/src/runtime.rs`: frames are parsed, offered to the verification
policy, queued, checked on a server and handed to the applications, in continuous time inside the
discrete steps and wake-ups of the engine.

The verification policy is a trait of the source and a parameter here. So are the parts of the node
that reception calls but does not look into: the certificate stores and the security stack, the
event services, the position belief, and the messages the node's own generators come up with.

## Main definitions

* `NodeModels` — the policy and the stores a node is built over.
* `ObuRuntime` — the state of a node.
* `Turn` — a node inside a call, with what the call has produced so far.
* `Turn.receive` — the reception of an inbox.
* `ObuRuntime.stepTimed`, `ObuRuntime.wakeTimed` — the two calls of the engine.
* `nodeMachine` — a node as the engine runs it.
-/

namespace V2xw.Msg

/-- The message types. -/
inductive MsgType where
  | bsm | cam | denm | spat | map | psm | vam | cpm | srm | ssm | wsa | crl | mbr
  deriving DecidableEq, Repr

end V2xw.Msg

namespace V2xw.Node

open Core Msg
open Record (F64)

/-! ## Frames and reports -/

/-- A frame handed to a node by its radio. -/
structure RxFrame where
  /-- The signer's certificate digest, as the SPDU names it. -/
  signer : Option HashedId8
  msgType : MsgType
  bytes : ℕ
  claimedPos : Option Vec3
  claimedSpeedMps : F64
  claimedHeadingRad : F64
  claimedGenerationTime : SimTime
  /-- Whether the SPDU attached a full certificate rather than a digest. -/
  fullCertificate : Bool
  /-- Whether the signature is good, for a frame that carries no bytes. -/
  signatureValid : Bool
  claimedCertPeriod : ℕ
  claimedLinkage : Option ℕ
  /-- The signed SPDU as it arrived on the air. -/
  spdu : Option (List UInt8)
  deriving DecidableEq, Repr

/-- When and how a frame reached this node. -/
structure RxStamp where
  /-- The engine's reception-attempt id, echoed back in the report. -/
  token : ℕ
  /-- When the frame finished arriving; `none` means at the instant of the step. -/
  arrivedAt : Option SimTime
  deriving DecidableEq, Repr

/-- A message as the applications receive it. -/
structure VerifiedMessage where
  signer : Option HashedId8
  msgType : MsgType
  bytes : ℕ
  receivedAt : SimTime
  claimedGenerationTime : SimTime
  claimedPos : Option Vec3
  claimedSpeedMps : F64
  claimedHeadingRad : F64
  verification : VerificationState
  deriving DecidableEq, Repr

/-- What finally became of one received frame. -/
inductive RxDisposition
  | delivered (state : VerificationState)
  | dropped (cause : DropCause)
  /-- The node was switched off when the frame reached it. -/
  | nodeOff
  deriving DecidableEq, Repr

/-- One received frame's journey through the node, on the node's own clock. -/
structure RxReport where
  token : ℕ
  disposition : RxDisposition
  arrived : SimTime
  parsed : SimTime
  verifyStart : Option SimTime
  verifyDone : Option SimTime
  deriving DecidableEq, Repr

/-- What the verification queue holds beside each waiting frame. -/
structure Waiting where
  token : ℕ
  arrived : SimTime
  parsed : SimTime
  depth : ℕ
  deriving DecidableEq, Repr

/-- A frame whose signature check has started and not yet finished. -/
structure Verifying where
  message : VerifiedMessage
  report : RxReport
  deriving DecidableEq, Repr

/-- An entry of the map of checks in progress: the check, under the instant it finishes and the
number of its start. -/
structure Running where
  finish : SimTime
  seq : ℕ
  check : Verifying
  deriving DecidableEq, Repr

/-- The order of the keys of the checks in progress. -/
def Running.le (a b : Running) : Prop := a.finish < b.finish ∨ a.finish = b.finish ∧ a.seq ≤ b.seq

instance : DecidableRel Running.le := fun _ _ => inferInstanceAs (Decidable (_ ∨ _))

instance : Std.Total Running.le where
  total a b := by
    unfold Running.le
    grind

instance : IsTrans Running Running.le where
  trans a b c := by
    unfold Running.le
    grind

/-- The checks in progress, in the order of their keys. -/
structure RunningChecks where
  entries : List Running := []
  sorted : entries.Pairwise Running.le := by simp
  deriving DecidableEq, Repr

/-- Files a check under its key. -/
def RunningChecks.insert (m : RunningChecks) (r : Running) : RunningChecks :=
  ⟨m.entries.orderedInsert Running.le r, m.sorted.orderedInsert r⟩

/-- The checks without the first one. -/
def RunningChecks.tail (m : RunningChecks) : RunningChecks := ⟨m.entries.tail, m.sorted.tail⟩

/-! ## Decisions -/

/-- What a policy is told about one message. -/
structure RxSummary where
  signer : Option HashedId8
  msgType : MsgType
  bytes : ℕ
  receivedAt : SimTime
  claimedPos : Option Vec3
  relevance : Option F64
  deriving DecidableEq, Repr

/-- The node state a policy may consult. -/
structure PolicyView (Belief : Type) where
  position : Belief
  neighbors : NeighborTable
  queueDepth : ℕ
  queueCapacity : ℕ

/-- Why a message was chosen for verification. -/
inductive VerifyReason
  | policyVerifiesAll | applicationRelevant | proximate | unknownSigner
  deriving DecidableEq, Repr

/-- Why a signature check was skipped. -/
inductive SkipReason
  | notRelevant | knownVerifiedSigner
  deriving DecidableEq, Repr

/-- What a policy decided, and why. -/
inductive VerifyDecision
  | verify (priority : ℕ) (reason : VerifyReason)
  | deliverUnverified (reason : SkipReason)
  | drop (cause : DropCause)
  deriving DecidableEq, Repr

/-- One verification task and its fate, as `node.verify` records it. -/
structure VerifyDecisionRecord where
  node : ℕ
  tEnqueue : SimTime
  tStart : Option SimTime
  tDone : Option SimTime
  policy : String
  msgType : String
  outcome : String
  reason : String
  priority : ℕ
  primitive : Option String
  costUs : Option ℕ
  queueDepth : Option ℕ
  deriving DecidableEq, Repr

namespace VerifyDecisionRecord

/-- The record of a skip or a drop; a decision to verify is recorded when the check runs. -/
def decided (node : ℕ) (at_ : SimTime) (policy msgType : String) :
    VerifyDecision → Option VerifyDecisionRecord
  | .verify .. => none
  | .deliverUnverified reason =>
    let text := match reason with
      | .notRelevant => "not-relevant"
      | .knownVerifiedSigner => "known-verified-signer"
    some ⟨node, at_, none, none, policy, msgType, "skipped", text, 0, none, none, none⟩
  | .drop cause =>
    some ⟨node, at_, none, none, policy, msgType, "dropped", cause.asStr, 0, none, none, none⟩

/-- The record of a task the queue refused or evicted. -/
def overflowed (node : ℕ) (at_ : SimTime) (policy msgType : String) : VerifyDecisionRecord :=
  ⟨node, at_, none, none, policy, msgType, "dropped", DropCause.verifyOverflow.asStr, 0, none, none,
    none⟩

/-- The record of a signature check that ran. -/
def verified (node : ℕ) (enqueued start done : SimTime)
    (policy msgType primitive outcome : String) (queueDepth : ℕ) : VerifyDecisionRecord :=
  ⟨node, enqueued, some start, some done, policy, msgType, outcome, "verified", 0, some primitive,
    some ((done - start) / 1000), some queueDepth⟩

end VerifyDecisionRecord

/-- The name of a policy by its code. -/
def policyId : ℕ → String
  | 0 => "verification-policy/verify-all"
  | 1 => "verification-policy/on-demand"
  | _ => "verification-policy/prioritized"

/-- The spelling of a message type in the records. -/
def msgTypeName : MsgType → String
  | .cam => "cam"
  | .bsm => "bsm"
  | .denm => "denm"
  | .spat => "spat"
  | .map => "map"
  | .srm => "srm"
  | .ssm => "ssm"
  | .psm => "psm"
  | .vam => "vam"
  | .mbr => "mbr"
  | .crl => "crl"
  | _ => "other"

/-! ## What a node is built over -/

/-- What the node concludes from the bytes of an SPDU. -/
inductive SpduVerdict
  | valid | invalid
  /-- The signer's certificate is not held, so nothing has been concluded. -/
  | unverifiable
  deriving DecidableEq, Repr

/-- What the CRL gate decided. -/
inductive CrlVerdict
  | notRevoked | revoked
  | refusedImplausiblePeriod (claimed current : ℕ)
  deriving DecidableEq, Repr

/-- A message of the node's own generators, once it is due: it could not be built, or it is encoded
and signed and waits for the modelled time of its signature. -/
inductive Generated
  | unbuilt
  | signed (msgType : MsgType) (bytes : ℕ) (signer : HashedId8) (fullCertificate : Bool)
      (generationTime : SimTime) (payloadBytes : ℕ)
  deriving DecidableEq, Repr

/-- The parts of a node's configuration that its calls read. -/
structure NodeConfig where
  /-- The capacities of the receive, the verification and the transmit queue. -/
  rxCapacity : ℕ := 64
  verifyCapacity : ℕ := 64
  txCapacity : ℕ := 32
  peerCacheCapacity : ℕ := 128
  neighborCapacity : ℕ := 256
  telemetryPeriod : Duration := ⟨1000000000⟩
  /-- The primitive the signing cost table is keyed by. -/
  signOp : String := "ecdsa-p256-sign"
  /-- The verification primitive. -/
  verifyOp : String := "ecdsa-p256-verify"
  deriving DecidableEq, Repr

/-- The policy, the stores, the event services and the belief of a node, each with the operations
the runtime calls. -/
structure NodeModels where
  /-- The state of the verification policy. -/
  Policy : Type
  /-- The certificate stores and the security stack. -/
  Stores : Type
  /-- The event services and the message schedule. -/
  Events : Type
  Belief : Type
  newStores : NodeConfig → Stores
  /-- The event services of a new node. -/
  newEvents : NodeConfig → Events
  /-- `PositionEstimate::no_fix`. -/
  noFix : SimTime → Belief
  /-- `VerificationPolicy::decide`. -/
  decide : Policy → RxSummary → PolicyView Belief → VerifyDecision × Policy
  /-- `VerificationPolicy::code`. -/
  code : Policy → ℕ
  /-- `VerificationPolicy::oldest_drop`. -/
  oldestDrop : Policy → Bool
  learn : HashedId8 → Stores → Stores
  touch : HashedId8 → Stores → Bool × Stores
  /-- `PeerCertCache::record_p2pcd_request`. -/
  recordP2pcdRequest : Stores → Stores
  /-- `ObuRuntime::verify_on_the_wire`. -/
  verifyOnTheWire : List UInt8 → Stores → SpduVerdict × Stores
  /-- The i-period of the active credential. -/
  activePeriod : Stores → Option ℕ
  currentPeriod : Stores → ℕ
  setPeriod : ℕ → Stores → Stores
  crlCheck : ℕ → ℕ → Bool → Stores → CrlVerdict × Stores
  /-- `EventServices::on_delivered`. -/
  onDelivered : VerifiedMessage → Events → Events
  /-- Whether the belief has a position fix. -/
  hasPosition : Belief → Bool
  /-- What `step_timed` does to the credentials: distance travelled, sweep and rotation. -/
  credentials : SimTime → F64 → Stores → Stores
  /-- The messages due at an instant, encoded and signed. -/
  due : SimTime → Belief → Stores → Events → List Generated × Stores × Events
  /-- The window reset of the stores. -/
  resetStores : Stores → Stores

/-! ## The node -/

/-- What state a node is in. -/
inductive NodeState
  | off | booting | active | parked | degraded | down | compromised
  deriving DecidableEq, Repr

/-- Whether the node transmits in this state. -/
def NodeState.transmits : NodeState → Bool
  | .active | .degraded | .compromised => true
  | _ => false

/-- The reception counters of a telemetry window. -/
structure TelemetryWindow where
  start : SimTime
  msgsIn : ℕ := 0
  msgsOut : ℕ := 0
  verifications : ℕ := 0
  deliveredUnverified : ℕ := 0
  deliveredTotal : ℕ := 0
  fullCertMsgs : ℕ := 0
  verifyWaitsNs : List ℕ := []
  deriving DecidableEq, Repr

namespace TelemetryWindow

/-- One message delivered to the stack. -/
def messageIn (w : TelemetryWindow) : TelemetryWindow := { w with msgsIn := satAdd32 w.msgsIn 1 }

/-- One message transmitted. -/
def messageOut (w : TelemetryWindow) (fullCertificate : Bool) : TelemetryWindow :=
  { w with
    msgsOut := satAdd32 w.msgsOut 1
    fullCertMsgs := if fullCertificate then satAdd32 w.fullCertMsgs 1 else w.fullCertMsgs }

/-- One signature verification, and how long it waited for a server. -/
def verification (w : TelemetryWindow) (wait : ℕ) : TelemetryWindow :=
  { w with
    verifications := satAdd32 w.verifications 1
    verifyWaitsNs :=
      if w.verifyWaitsNs.length < 4096 then w.verifyWaitsNs ++ [wait] else w.verifyWaitsNs }

/-- One message handed to the applications. -/
def delivered (w : TelemetryWindow) (verified : Bool) : TelemetryWindow :=
  { w with
    deliveredTotal := satAdd32 w.deliveredTotal 1
    deliveredUnverified :=
      if verified then w.deliveredUnverified else satAdd32 w.deliveredUnverified 1 }

end TelemetryWindow

/-- One message this node wants transmitted. -/
structure Transmission where
  msgType : MsgType
  bytes : ℕ
  signer : HashedId8
  fullCertificate : Bool
  /-- When the signature completed. -/
  readyAt : SimTime
  generationTime : SimTime
  /-- When the signer picked the message up. -/
  signStart : SimTime
  deriving DecidableEq, Repr

/-- An on-board unit. -/
structure ObuRuntime (M : NodeModels) where
  node : ℕ
  config : NodeConfig
  service : ProfileServiceModel
  cpu : ServerBank
  hsm : ServerBank
  /-- A separate hardware engine, where the profile says one exists. -/
  accel : ServerBank
  rxQueue : NodeQueue (Queued RxFrame)
  verifyQueue : NodeQueue (Queued RxFrame)
  txQueue : NodeQueue Transmission
  /-- Beside every frame in the verification queue, in the same order. -/
  verifyMeta : List Waiting
  /-- The checks in progress, whose keys `verifySeq` keeps distinct. -/
  verifying : RunningChecks
  verifySeq : ℕ
  /-- When each frame still waiting to be parsed will start its parse. -/
  parseStarts : List SimTime
  drops : DropLedger
  clock : ClockModel
  belief : M.Belief
  neighbors : NeighborTable
  stores : M.Stores
  policy : M.Policy
  events : M.Events
  state : NodeState
  received : List VerifiedMessage
  evidenceCapacity : ℕ
  window : TelemetryWindow
  relevance : OrdMap HashedId8 F64

/-- What one call produced. -/
structure StepOutcome where
  transmissions : List Transmission := []
  delivered : List VerifiedMessage := []
  /-- Whether the call closed a telemetry window. -/
  telemetry : Bool := false
  rxReports : List RxReport := []
  deriving DecidableEq, Repr

/-- A node inside a call: its state, the outcome so far and the records it has emitted. -/
structure Turn (M : NodeModels) where
  node : ObuRuntime M
  out : StepOutcome := {}
  emitted : List VerifyDecisionRecord := []

variable {M : NodeModels}

namespace ObuRuntime

/-- A node on `profile`, with `policy` and `config`, starting at `at_`. -/
def new (node : ℕ) (profile : HardwareProfile) (policy : M.Policy) (config : NodeConfig)
    (at_ : SimTime) : ObuRuntime M where
  node := node
  config := config
  service := { profile := profile }
  cpu := .new (max (profile.cores.getD 1) 1) at_
  hsm := .new (max (profile.hsmServers.getD 1) 1) at_
  accel := .new 1 at_
  rxQueue := { kind := .rx, capacity := config.rxCapacity }
  verifyQueue := { kind := .verify, capacity := config.verifyCapacity }
  txQueue := { kind := .tx, capacity := config.txCapacity }
  verifyMeta := []
  verifying := {}
  verifySeq := 0
  parseStarts := []
  drops := {}
  clock := { driftPpm := 0 }
  belief := M.noFix at_
  neighbors := { capacity := config.neighborCapacity }
  stores := M.newStores config
  policy := policy
  events := M.newEvents config
  state := .active
  received := []
  evidenceCapacity := 256
  window := { start := at_ }
  relevance := ∅

/-- The bank an operation runs on. -/
def bank (s : ObuRuntime M) : RunsOn → ServerBank
  | .hsm => s.hsm
  | .accelerator => s.accel
  | .cpu => s.cpu

/-- The node with another bank in the place of one of its three. -/
def setBank (s : ObuRuntime M) (where_ : RunsOn) (b : ServerBank) : ObuRuntime M :=
  { s with
    hsm := if where_ = .hsm then b else s.hsm
    accel := if where_ = .accelerator then b else s.accel
    cpu := if where_ = .cpu then b else s.cpu }

/-- Offers one task to the bank it runs on. -/
def submit (s : ObuRuntime M) (where_ : RunsOn) (arrival : SimTime) (cost : Duration) :
    Scheduled × ObuRuntime M :=
  let (sched, b) := (s.bank where_).submit arrival cost
  (sched, s.setBank where_ b)

/-- The cost of a parse, when the scenario supplies one. -/
def parseCost (s : ObuRuntime M) : Option Duration :=
  s.service.serviceTime (.task "spdu-parse" .parse)

/-- The cost of a check, when the profile publishes one. -/
def verifyCost (s : ObuRuntime M) : Option Duration :=
  s.service.serviceTime (.verify s.config.verifyOp 0)

/-- Where checks run. -/
def verifyRunsOn (s : ObuRuntime M) : RunsOn :=
  s.service.runsOn (.verify s.config.verifyOp 0)

/-- The receive queue and the parse: the instant the frame is parsed, or `none` when the receive
queue is full. -/
def parse (s : ObuRuntime M) (cost : Option Duration) (arrived : SimTime) :
    Option SimTime × ObuRuntime M :=
  let s := { s with window := s.window.messageIn }
  match cost with
  | none => (some arrived, s)
  | some cost =>
    let starts := s.parseStarts.dropWhile (· ≤ arrived)
    if starts.length ≥ s.rxQueue.capacity then
      (none, { s with parseStarts := starts, drops := s.drops.record .rxOverflow })
    else
      let (sched, cpu) := s.cpu.submit arrived cost
      (some sched.finish,
        { s with
          cpu := cpu
          parseStarts := if sched.start > arrived then starts ++ [sched.start] else starts })

/-- The peer-to-peer certificate distribution path. -/
def learnOrRequest (s : ObuRuntime M) (frame : RxFrame) : ObuRuntime M :=
  match frame.signer with
  | none => s
  | some signer =>
    if frame.fullCertificate then { s with stores := M.learn signer s.stores }
    else
      match M.touch signer s.stores with
      | (true, stores) => { s with stores := stores }
      | (false, stores) => { s with stores := M.recordP2pcdRequest stores }

/-- The node without the frame at the front of the line and the entry beside it. -/
def behind (s : ObuRuntime M) (queue : NodeQueue (Queued RxFrame)) : ObuRuntime M :=
  { s with verifyQueue := queue, verifyMeta := s.verifyMeta.tail }

/-- What the node concludes about one frame, having spent the verification time. -/
def classify (stores : M.Stores) (frame : RxFrame) : VerificationState × M.Stores :=
  let (verdict, stores) := match frame.spdu with
    | some bytes => M.verifyOnTheWire bytes stores
    | none => (if frame.signatureValid then .valid else .invalid, stores)
  match verdict with
  | .unverifiable => (.unverified, stores)
  | .invalid => (.invalid, stores)
  | .valid =>
    match frame.claimedLinkage with
    | none => (.verified, stores)
    | some lv =>
      -- The gate is told the period of the node's own credential before it judges a peer's.
      let stores := match M.activePeriod stores with
        | some mine =>
          if M.currentPeriod stores ≠ mine then M.setPeriod mine stores else stores
        | none => stores
      match M.crlCheck frame.claimedCertPeriod lv true stores with
      | (.revoked, stores) => (.revoked, stores)
      | (.notRevoked, stores) => (.verified, stores)
      | (.refusedImplausiblePeriod .., stores) => (.invalid, stores)

end ObuRuntime

/-- A frame as the applications will receive it. -/
def RxFrame.toMessage (frame : RxFrame) (believed : SimTime) (verification : VerificationState) :
    VerifiedMessage where
  signer := frame.signer
  msgType := frame.msgType
  bytes := frame.bytes
  receivedAt := believed
  claimedGenerationTime := frame.claimedGenerationTime
  claimedPos := frame.claimedPos
  claimedSpeedMps := frame.claimedSpeedMps
  claimedHeadingRad := frame.claimedHeadingRad
  verification := verification

/-- Whether a message describes the station that sent it. -/
def VerifiedMessage.describesAStation (m : VerifiedMessage) : Bool :=
  match m.msgType with
  | .spat | .map | .srm | .ssm | .denm => false
  | _ => true

/-! ## Reception -/

namespace Turn

/-- Reports the fate of one frame. -/
def report (t : Turn M) (r : RxReport) : Turn M :=
  { t with out := { t.out with rxReports := t.out.rxReports ++ [r] } }

/-- Emits a record. -/
def emit (t : Turn M) (r : VerifyDecisionRecord) : Turn M := { t with emitted := t.emitted ++ [r] }

/-- Hands one message to the applications. -/
def deliver (t : Turn M) (m : VerifiedMessage) : Turn M :=
  let s := t.node
  let neighbors := match m.signer with
    | some signer =>
      if m.verification ≠ .invalid ∧ m.describesAStation then
        s.neighbors.observe
          { signer := signer
            claimedPos := m.claimedPos.getD .zero
            claimedSpeedMps := m.claimedSpeedMps
            claimedHeadingRad := m.claimedHeadingRad
            claimedGenerationTime := m.claimedGenerationTime
            lastHeard := m.receivedAt
            messages := 1
            state := m.verification }
      else s.neighbors
    | none => s.neighbors
  let kept := if s.received.length ≥ s.evidenceCapacity then s.received.tail else s.received
  { t with
    node := { s with
      window := s.window.delivered (m.verification == .verified)
      events := M.onDelivered m s.events
      neighbors := neighbors
      received := kept ++ [m] }
    out := { t.out with delivered := t.out.delivered ++ [m] } }

/-- Reports one frame the verification queue refused or evicted. -/
def overflow (t : Turn M) (refused : Queued RxFrame) (waiting : Waiting) : Turn M :=
  let t := { t with node := { t.node with drops := t.node.drops.record .verifyOverflow } }
  let t := t.emit (.overflowed t.node.node waiting.parsed (policyId (M.code t.node.policy))
    (msgTypeName refused.item.msgType))
  t.report ⟨waiting.token, .dropped .verifyOverflow, waiting.arrived, waiting.parsed, none, none⟩

/-- The outcome of a check in the records. -/
def outcomeName : VerificationState → String
  | .verified | .revoked => "valid"
  | .invalid => "invalid"
  | .unverified => "skipped"

/-- The check of a frame with its verdict, as its server does it. -/
def checkOf (q : Queued RxFrame) (waiting : Waiting) (sched : Scheduled)
    (verdict : VerificationState) : Verifying where
  message := q.item.toMessage waiting.arrived verdict
  report := ⟨waiting.token, .delivered verdict, waiting.arrived, waiting.parsed,
    some sched.start, some sched.finish⟩

/-- Charges the check of a frame taken from the line to its server, fixes its verdict and files it
under the instant it finishes. -/
def startCheck (t : Turn M) (q : Queued RxFrame) (waiting : Waiting) (cost : Duration) : Turn M :=
  let (sched, s) := t.node.submit t.node.verifyRunsOn q.enqueuedAt cost
  let (verdict, stores) := ObuRuntime.classify s.stores q.item
  let running : Running := ⟨sched.finish, s.verifySeq, checkOf q waiting sched verdict⟩
  let node := { s with
    window := s.window.verification sched.wait
    stores := stores
    verifySeq := s.verifySeq + 1
    verifying := s.verifying.insert running }
  emit { t with node := node } (.verified s.node q.enqueuedAt sched.start sched.finish
    (policyId (M.code s.policy)) (msgTypeName q.item.msgType) s.config.verifyOp
    (outcomeName verdict) waiting.depth)

/-- The entry of the checks in progress that the check of a frame becomes. -/
def runningOf (s : ObuRuntime M) (q : Queued RxFrame) (waiting : Waiting) (cost : Duration) :
    Running :=
  let sched := ((s.bank s.verifyRunsOn).submit q.enqueuedAt cost).1
  ⟨sched.finish, s.verifySeq, checkOf q waiting sched (ObuRuntime.classify s.stores q.item).1⟩

/-- The frame at the front of the line and the line behind it, if its check can start by
`until_`. -/
def startable (until_ : SimTime) (s : ObuRuntime M) :
    Option (Queued RxFrame × NodeQueue (Queued RxFrame)) :=
  s.verifyQueue.pop.filter fun x =>
    max x.1.enqueuedAt (s.bank s.verifyRunsOn).earliestFree ≤ until_

/-- One pass of `advance_verifications`: starts the check at the front of the line, `none` when it
cannot start by `until_`. -/
def startNext (until_ : SimTime) (t : Turn M) : Option (Turn M) :=
  (startable until_ t.node).map fun (q, queue) =>
    let s := t.node
    let waiting := s.verifyMeta.head?.getD ⟨0, q.enqueuedAt, q.enqueuedAt, 0⟩
    let t := { t with node := s.behind queue }
    match s.service.serviceTime (.verify s.config.verifyOp q.item.bytes) with
    | none => t
    | some cost => t.startCheck q waiting cost

/-- One pass of `complete_verifications`: hands over the first check that has finished by
`until_`, `none` when there is none. -/
def handNext (until_ : SimTime) (t : Turn M) : Option (Turn M) :=
  match t.node.verifying.entries with
  | [] => none
  | r :: _ =>
    if r.finish > until_ then none
    else
      let t := { t with node := { t.node with verifying := t.node.verifying.tail } }
      some ((t.deliver r.check.message).report r.check.report)

lemma startable_eq_some {until_ : SimTime} {s : ObuRuntime M} {q : Queued RxFrame}
    {queue : NodeQueue (Queued RxFrame)} (h : startable until_ s = some (q, queue)) :
    s.verifyQueue.items = q :: queue.items ∧ q.enqueuedAt ≤ until_ ∧
      (s.bank s.verifyRunsOn).earliestFree ≤ until_ := by
  obtain ⟨hpop, hle⟩ := Option.filter_eq_some_iff.1 h
  exact ⟨NodeQueue.pop_eq_some hpop, max_le_iff.1 (of_decide_eq_true hle)⟩

lemma startNext_length {until_ : SimTime} {t t' : Turn M} (h : t.startNext until_ = some t') :
    t'.node.verifyQueue.items.length < t.node.verifyQueue.items.length := by
  obtain ⟨⟨q, queue⟩, hq, rfl⟩ := Option.map_eq_some_iff.1 h
  rw [(startable_eq_some hq).1]
  dsimp only
  split
  · exact Nat.lt_succ_self _
  · exact Nat.lt_succ_self _

lemma handNext_length {until_ : SimTime} {t t' : Turn M} (h : t.handNext until_ = some t') :
    t'.node.verifying.entries.length < t.node.verifying.entries.length := by
  unfold handNext at h
  split at h
  next => cases h
  next r rest hr =>
    split_ifs at h
    cases h
    change t.node.verifying.entries.tail.length < _
    rw [hr]
    exact Nat.lt_succ_self _

/-- The loop of `advance_verifications`. -/
def startLoop (until_ : SimTime) : Loop (Turn M) where
  step := startNext until_
  measure t := t.node.verifyQueue.items.length
  measure_lt := startNext_length

/-- The loop of `complete_verifications`. -/
def handLoop (until_ : SimTime) : Loop (Turn M) where
  step := handNext until_
  measure t := t.node.verifying.entries.length
  measure_lt := handNext_length

/-- Starts every waiting signature check whose start instant is no later than `until_`. With no
verification cost in the profile the queue does not drain. -/
def advanceVerifications (until_ : SimTime) (t : Turn M) : Turn M :=
  match t.node.verifyCost with
  | none => t
  | some _ => (startLoop until_).run t

/-- Hands every check that has finished by `until_` to the applications, in the order they
finished. -/
def completeVerifications (until_ : SimTime) (t : Turn M) : Turn M := (handLoop until_).run t

/-- The verifier as it is at an instant: everything that has started by then is started, and
everything that has finished by then handed over. -/
def catchUp (until_ : SimTime) (t : Turn M) : Turn M :=
  (t.advanceVerifications until_).completeVerifications until_

/-- Offers a task to the verification queue, the way the policy wants it offered. -/
def offer (s : ObuRuntime M) (q : Queued RxFrame) :
    Admission (Queued RxFrame) × NodeQueue (Queued RxFrame) :=
  if M.oldestDrop s.policy then s.verifyQueue.pushEvicting q else s.verifyQueue.push q

/-- Puts the entry of a frame behind the others. -/
def pushMeta (t : Turn M) (waiting : Waiting) : Turn M :=
  { t with node := { t.node with verifyMeta := t.node.verifyMeta ++ [waiting] } }

/-- What follows an offer: the deque beside the queue is kept in step with it. -/
def admitFrame (t : Turn M) (waiting : Waiting) : Admission (Queued RxFrame) → Turn M
  | .queued => t.pushMeta waiting
  | .refused refused => t.overflow refused waiting
  | .evicted evicted =>
    match t.node.verifyMeta with
    -- The oldest waiting frame made room for this one: its report is the overflow.
    | old :: rest =>
      ({ t with node := { t.node with verifyMeta := rest } }.overflow evicted old).pushMeta waiting
    | [] => t.pushMeta waiting

/-- Offers a frame to the verification queue. -/
def enqueue (t : Turn M) (frame : RxFrame) (stamp : RxStamp) (arrived parsed : SimTime) : Turn M :=
  let waiting : Waiting := ⟨stamp.token, arrived, parsed, t.node.verifyQueue.items.length⟩
  let (admitted, queue) := offer t.node ⟨frame, parsed⟩
  { t with node := { t.node with verifyQueue := queue } }.admitFrame waiting admitted

lemma offered_offer (s : ObuRuntime M) (q : Queued RxFrame) :
    Offered s.verifyQueue.items q (offer s q).1 (offer s q).2.items := by
  unfold offer
  split
  · exact s.verifyQueue.offered_pushEvicting q
  · exact s.verifyQueue.offered_push q

/-- What a policy is told about a frame. -/
def summary (s : ObuRuntime M) (frame : RxFrame) (arrived : SimTime) : RxSummary where
  signer := frame.signer
  msgType := frame.msgType
  bytes := frame.bytes
  receivedAt := arrived
  claimedPos := frame.claimedPos
  relevance := frame.signer.bind fun signer => s.relevance[signer]?

/-- What a policy sees of the node. -/
def policyView (s : ObuRuntime M) : PolicyView M.Belief where
  position := s.belief
  neighbors := s.neighbors
  queueDepth := s.verifyQueue.items.length
  queueCapacity := s.verifyQueue.capacity

/-- Asks the policy about a frame, over the queue as it is at this instant. -/
def consult (t : Turn M) (frame : RxFrame) (arrived parsed : SimTime) : VerifyDecision × Turn M :=
  let s := t.node.learnOrRequest frame
  let (decision, policy) := M.decide s.policy (summary s frame arrived) (policyView s)
  let t := { t with node := { s with policy := policy } }
  match VerifyDecisionRecord.decided s.node parsed (policyId (M.code policy))
      (msgTypeName frame.msgType) decision with
  | some record => (decision, t.emit record)
  | none => (decision, t)

/-- Does what the policy decided. -/
def obey (t : Turn M) (frame : RxFrame) (stamp : RxStamp) (arrived parsed : SimTime) :
    VerifyDecision → Turn M
  | .drop cause =>
    report { t with node := { t.node with drops := t.node.drops.record cause } }
      ⟨stamp.token, .dropped cause, arrived, parsed, none, none⟩
  | .deliverUnverified _ =>
    let t := { t with node := { t.node with drops := t.node.drops.record .verifyPolicySkip } }
    (t.deliver (frame.toMessage arrived .unverified)).report
      ⟨stamp.token, .delivered .unverified, arrived, parsed, none, none⟩
  | .verify .. => t.enqueue frame stamp arrived parsed

/-- The policy's part of the reception of a frame. -/
def police (t : Turn M) (frame : RxFrame) (stamp : RxStamp) (arrived parsed : SimTime) : Turn M :=
  let (decision, t) := t.consult frame arrived parsed
  t.obey frame stamp arrived parsed decision

/-- One frame at the instant it arrived. -/
def receiveFrame (cost : Option Duration) (t : Turn M) (x : RxFrame × RxStamp × SimTime) : Turn M :=
  let (frame, stamp, arrived) := x
  match t.node.parse cost arrived with
  | (none, node) =>
    report { t with node := node }
      ⟨stamp.token, .dropped .rxOverflow, arrived, arrived, none, none⟩
  | (some parsed, node) =>
    (catchUp parsed { t with node := node }).police frame stamp arrived parsed

/-- The frames of an inbox with the instants they arrived at, on the node's clock, in the order of
these instants. -/
def arrivals (s : ObuRuntime M) (believed : SimTime) (inbox : List (RxFrame × RxStamp)) :
    List (RxFrame × RxStamp × SimTime) :=
  (inbox.map fun (frame, stamp) =>
    (frame, stamp, min ((stamp.arrivedAt.map s.clock.believedTime).getD believed) believed))
    |>.insertionSort fun a b => a.2.2 ≤ b.2.2

/-- The reception of an inbox. -/
def receive (t : Turn M) (believed : SimTime) (inbox : List (RxFrame × RxStamp)) : Turn M :=
  catchUp believed
    ((arrivals t.node believed inbox).foldl (receiveFrame t.node.parseCost) t)

/-- Everything a switched-off node was handed, and every check it had in progress, is reported as
reaching a node that was off. -/
def switchedOff (t : Turn M) (believed : SimTime) (inbox : List (RxFrame × RxStamp)) : Turn M :=
  let running := t.node.verifying.entries.map fun r =>
    { r.check.report with disposition := .nodeOff }
  let handed := inbox.map fun (_, stamp) =>
    let at_ := (stamp.arrivedAt.map t.node.clock.believedTime).getD believed
    (⟨stamp.token, .nodeOff, at_, at_, none, none⟩ : RxReport)
  { t with
    node := { t.node with verifying := {} }
    out := { t.out with rxReports := t.out.rxReports ++ running ++ handed } }

/-! ## The periodic step -/

/-- Sends one message of the node's own generators: its signature takes its time on the bank it
runs on. -/
def sendOne (believed : SimTime) (t : Turn M) : Generated → Turn M
  | .unbuilt => { t with node := { t.node with drops := t.node.drops.record .txOverflow } }
  | .signed msgType bytes signer fullCertificate generationTime payloadBytes =>
    let s := t.node
    let op := OpDescriptor.sign s.config.signOp payloadBytes
    match s.service.serviceTime op with
    -- The profile costs no signature. Nothing is signed for free.
    | none => { t with node := { s with drops := s.drops.record .txOverflow } }
    | some cost =>
      let (sched, s) := s.submit (s.service.runsOn op) believed cost
      let tx : Transmission :=
        ⟨msgType, bytes, signer, fullCertificate, sched.finish, generationTime, sched.start⟩
      match s.txQueue.push tx with
      | (.queued, queue) =>
        { t with
          node := { s with
            txQueue := (queue.pop.map (·.2)).getD queue
            window := s.window.messageOut fullCertificate }
          out := { t.out with transmissions := t.out.transmissions ++ [tx] } }
      | (_, queue) =>
        { t with node := { s with txQueue := queue, drops := s.drops.record .txOverflow } }

/-- Builds, signs and sends whatever is due. -/
def generate (believed : SimTime) (t : Turn M) : Turn M :=
  let s := t.node
  let (messages, stores, events) := M.due believed s.belief s.stores s.events
  messages.foldl (sendOne believed) { t with node := { s with stores := stores, events := events } }

/-- Opens a new telemetry window. -/
def closeWindow (now : SimTime) (t : Turn M) : Turn M :=
  let s := t.node
  { t with
    node := { s with
      window := { start := now }
      drops := {}
      cpu := s.cpu.resetWindow now
      hsm := s.hsm.resetWindow now
      accel := s.accel.resetWindow now
      rxQueue := s.rxQueue.resetWindow
      verifyQueue := s.verifyQueue.resetWindow
      txQueue := s.txQueue.resetWindow
      stores := M.resetStores s.stores }
    out := { t.out with telemetry := true } }

/-- The periodic upkeep of the stores. -/
def maintain (believed : SimTime) (distance : F64) (t : Turn M) : Turn M :=
  { t with node := { t.node with
    neighbors := t.node.neighbors.age believed
    stores := M.credentials believed distance t.node.stores } }

/-- Generation, in a state that transmits. -/
def transmit (believed : SimTime) (t : Turn M) : Turn M :=
  if t.node.state.transmits then t.generate believed else t

/-- Closes the telemetry window when it is due. -/
def closeDue (now : SimTime) (t : Turn M) : Turn M :=
  if now - t.node.window.start ≥ t.node.config.telemetryPeriod.ns then t.closeWindow now else t

/-- What follows the reception in a periodic step. -/
def afterReceive (now believed : SimTime) (distance : F64) (t : Turn M) : Turn M :=
  ((t.maintain believed distance).transmit believed).closeDue now

end Turn

namespace ObuRuntime

/-- The clock at the start of a call. -/
def tick (s : ObuRuntime M) (now : SimTime) : ObuRuntime M :=
  { s with clock := s.clock.advance now (M.hasPosition s.belief) }

/-- What a call does with its inbox: the instant the node believes it is, and the node after the
reception, or switched off. -/
def take (s : ObuRuntime M) (now : SimTime) (inbox : List (RxFrame × RxStamp)) : Turn M :=
  let s := s.tick now
  let believed := s.clock.believedTime now
  if s.state = .off then Turn.switchedOff { node := s } believed inbox
  else Turn.receive { node := s } believed inbox

/-- One engine tick. -/
def stepTimed (s : ObuRuntime M) (now : SimTime) (inbox : List (RxFrame × RxStamp))
    (distance : F64) : Turn M :=
  if s.state = .off then s.take now inbox
  else (s.take now inbox).afterReceive now ((s.tick now).clock.believedTime now) distance

/-- Wakes the node between its periodic steps, to hand over what has finished. -/
def wakeTimed (s : ObuRuntime M) (now : SimTime) (inbox : List (RxFrame × RxStamp)) : Turn M :=
  s.take now inbox

end ObuRuntime

/-! ## Runs -/

/-- What the engine does to a node: the two calls, and everything it sets in between. -/
inductive NodeOp (M : NodeModels)
  | step (now : SimTime) (inbox : List (RxFrame × RxStamp)) (distance : F64)
  | wake (now : SimTime) (inbox : List (RxFrame × RxStamp))
  /-- `set_state`, at an instant of the engine. -/
  | setState (now : SimTime) (state : NodeState)
  | setBelief (belief : M.Belief)
  | setClock (clock : ClockModel)
  /-- `stores_mut`, `security_mut`, and the setters of the event services. -/
  | setStores (neighbors : NeighborTable) (stores : M.Stores) (events : M.Events)
  | setRelevance (relevance : OrdMap HashedId8 F64)
  | setComputeUnlimited
  | setCpuServers (servers : ℕ)
  | setAppTaskCost (cost : Duration)

namespace ObuRuntime

/-- One operation of the engine on a node. -/
def perform (s : ObuRuntime M) : NodeOp M → Turn M
  | .step now inbox distance => s.stepTimed now inbox distance
  | .wake now inbox => s.wakeTimed now inbox
  | .setState _ state => { node := { s with state := state } }
  | .setBelief belief => { node := { s with belief := belief } }
  | .setClock clock => { node := { s with clock := clock } }
  | .setStores neighbors stores events =>
    { node := { s with neighbors := neighbors, stores := stores, events := events } }
  | .setRelevance relevance => { node := { s with relevance := relevance } }
  | .setComputeUnlimited => { node := { s with service := s.service.unlimited } }
  | .setCpuServers servers => { node := { s with cpu := s.cpu.resized servers } }
  | .setAppTaskCost cost => { node := { s with service := s.service.withAppTaskCost cost } }

end ObuRuntime

/-- A node as the engine runs it: each operation returns the turn it ended in. -/
def nodeMachine (s : ObuRuntime M) : Machine (ObuRuntime M) (NodeOp M) (Turn M) Empty where
  init := s
  step s op := .ok (s.perform op, (s.perform op).node)

/-- Operations one after the other: the turns they end in and the node that is left. -/
def ObuRuntime.performAll : ObuRuntime M → List (NodeOp M) → List (Turn M) × ObuRuntime M
  | s, [] => ([], s)
  | s, op :: ops =>
    let t := s.perform op
    let (ts, u) := t.node.performAll ops
    (t :: ts, u)

lemma steps_performAll (s₀ : ObuRuntime M) (ops : List (NodeOp M)) : ∀ s : ObuRuntime M,
    (nodeMachine s₀).Steps s ops (s.performAll ops).1 (s.performAll ops).2 := by
  induction ops with
  | nil => exact fun s => .nil s
  | cons op ops ih => exact fun s => .cons rfl (ih _)

/-! ## A bare node -/

/-- The decision of the policy that verifies everything. -/
def verifyAll (_ : RxSummary) {Belief : Type} (view : PolicyView Belief) : VerifyDecision :=
  if view.queueDepth ≥ view.queueCapacity then .drop .verifyOverflow
  else .verify 0 .policyVerifiesAll

/-- A node that verifies everything, holds no credentials of its own and hears frames without bytes:
its belief is whether it has a fix. -/
def bareModels : NodeModels where
  Policy := Unit
  Stores := Unit
  Events := Unit
  Belief := Bool
  newStores _ := ()
  newEvents _ := ()
  noFix _ := false
  decide _ m view := (verifyAll m view, ())
  code _ := 0
  oldestDrop _ := false
  learn _ s := s
  touch _ s := (false, s)
  recordP2pcdRequest s := s
  verifyOnTheWire _ s := (.unverifiable, s)
  activePeriod _ := none
  currentPeriod _ := 0
  setPeriod _ s := s
  crlCheck _ _ _ s := (.notRevoked, s)
  onDelivered _ e := e
  hasPosition b := b
  credentials _ _ s := s
  due _ _ s e := ([], s, e)
  resetStores s := s

/-- A profile whose security hardware verifies in 400 microseconds. -/
def bareProfile : HardwareProfile where
  cores := some 1
  hsmServers := some 1
  opCost op := if op = "ecdsa-p256-verify" then some (⟨400000⟩, .hsm) else none

/-- A well-signed frame of a sender that names no certificate. -/
def bareFrame : RxFrame where
  signer := none
  msgType := .bsm
  bytes := 100
  claimedPos := none
  claimedSpeedMps := ⟨0⟩
  claimedHeadingRad := ⟨0⟩
  claimedGenerationTime := 0
  fullCertificate := false
  signatureValid := true
  claimedCertPeriod := 0
  claimedLinkage := none
  spdu := none

end V2xw.Node
