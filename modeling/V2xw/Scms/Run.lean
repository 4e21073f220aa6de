import Mathlib.Algebra.Group.Fin.Basic
import V2xw.Lib.Machine
import V2xw.Scms.Handle

/-!
# Runs of the SCMS deployment

`ScmsRun` of `crates/v2xw-proto/src/scms/run.rs`: a deployment, the kernel it runs on, and the
operations its driver makes. A driver starts flows and lets deliveries happen; `run`, `run_until`
and the two loops of `preload` are one delivery after another. The machine of this file has the
deliveries as operations of their own, so that its runs contain every interleaving of deliveries
and calls, and a call of `preload` is entered, carried out and left in the same small steps.

## Main definitions

* `ScmsRun` — a deployment and its kernel, with the operations of the source.
* `ScmsRun.drain`, `ScmsRun.preload` — the loops of the source.
* `Driver`, `machine` — the deployment under a driver, as a machine.

## Main results

* `drain_idle` — a loop without a horizon ends with nothing scheduled.
-/

namespace V2xw.Scms

open V2xw.Core

variable {S P : Type} [AddCommGroup S] [AddCommGroup P]

/-- A deployment and the kernel it runs on. -/
structure ScmsRun (S P : Type) where
  state : ScmsState S P
  kernel : Kernel (ScmsMsg S P)

/-- How a run ends other than by returning. -/
inductive Abort where
  | panic
  /-- A call while another one is being carried out. -/
  | busy
  /-- A loop that has not ended within the steps it was given. -/
  | fuel
  deriving DecidableEq

namespace ScmsRun

/-! ## Topology -/

/-- Gives every backend node its service model. -/
def hostBackend (k : Kernel (ScmsMsg S P)) (params : ScmsParams) : Kernel (ScmsMsg S P) :=
  (nodes.backendServiceModels params).foldl (fun k m => k.host m.1 m.2 params.backendProfile) k

/-- Gives a device its service model. -/
def hostDevice (k : Kernel (ScmsMsg S P)) (params : ScmsParams) (device : NodeId) :
    Kernel (ScmsMsg S P) :=
  k.host device ⟨1, params.deviceOverhead⟩ params.deviceProfile

/-- The reference topology, with its clock at `t0`. -/
def newAt (certs : CertificateSizes) (params : ScmsParams) (t0 : SimTime) : ScmsRun S P :=
  let backend : Link := ⟨params.backendLinkLatency, params.backendLinkBandwidthBps, .backendNet⟩
  let net := nodes.backendLinks.foldl (fun net l => net.connect l.1 l.2 backend) BackendNet.new
  ⟨ScmsState.new certs params, hostBackend (Kernel.newAt net t0) params⟩

/-- Connects a device to the nodes its access link reaches. -/
def connectAccess (k : Kernel (ScmsMsg S P)) (device : NodeId) (link : Link) :
    Kernel (ScmsMsg S P) :=
  { k with net := nodes.accessPeers.foldl (fun net peer => net.connect device peer link) k.net }

/-- Adds a device, with its uplink to the backend. -/
def addDevice (r : ScmsRun S P) (node : NodeId) : ScmsRun S P :=
  let p := r.state.params
  let uu : Link := ⟨p.uuLinkLatency, p.uuLinkBandwidthBps, .cellularUu⟩
  ⟨{ r.state with devices := r.state.devices.insert node (DeviceState.new node) },
    hostDevice (connectAccess r.kernel node uu) p node⟩

/-- Replaces the link a device reaches the backend over. -/
def setAccess (r : ScmsRun S P) (device : NodeId) (link : Link) : ScmsRun S P :=
  { r with kernel := connectAccess r.kernel device link }

/-- Puts a device in range of the roadside broadcast path. -/
def attachRsu (r : ScmsRun S P) (device : NodeId) : ScmsRun S P :=
  let p := r.state.params
  let air : Link := ⟨p.v2xAirLatency, p.v2xAirBandwidthBps, .v2xAir⟩
  { r with kernel :=
      { r.kernel with net := r.kernel.net.connect device nodes.crlBroadcast air } }

/-! ## Starting flows -/

/-- The next run number. -/
def newRun (r : ScmsRun S P) : FlowRun × ScmsRun S P :=
  (r.state.nextRun + 1, { r with state := { r.state with nextRun := r.state.nextRun + 1 } })

/-- Schedules a flow's first message, never earlier than the kernel's clock. -/
def injectAt (r : ScmsRun S P) (time : SimTime) (dst : NodeId) (msg : ScmsMsg S P) (flow : FlowId)
    (run : FlowRun) : ScmsRun S P :=
  { r with kernel := r.kernel.injectAt time ⟨time, dst, dst, msg, flow, run⟩ }

/-- Schedules a flow's first message now. -/
def inject (r : ScmsRun S P) (dst : NodeId) (msg : ScmsMsg S P) (flow : FlowId) (run : FlowRun) :
    ScmsRun S P :=
  r.injectAt r.kernel.now dst msg flow run

/-- Starts the enrolment flow at an instant. -/
def enrolAt (r : ScmsRun S P) (device : NodeId) (time : SimTime) : FlowRun × ScmsRun S P :=
  let (run, r) := r.newRun
  (run, r.injectAt time device (.enrolRequest device) .enrolment run)

/-- The request a device makes with a caterpillar. -/
def requestOf (c : Crypto S P) (device : NodeId) (cat : Caterpillar S) (startI periods jmax : ℕ) :
    ProvisioningRequest P where
  device := device
  signingPublic := cat.signingPublic c
  encryptionPublic := cat.encryptionPublic c
  ck := cat.ck
  ek := cat.ek
  startI := startI
  periods := periods
  jmax := jmax

/-- Starts a provisioning flow: a new caterpillar, and the request that carries it. -/
def startProvisioning (c : Crypto S P) (r : ScmsRun S P) (device : NodeId) (time : SimTime)
    (startI periods jmax : ℕ) (flow : FlowId) : FlowRun × ScmsRun S P :=
  let (run, r) := r.newRun
  let (seed, rng) := r.state.rng.fillBytes c device seedBytes
  let cat := Caterpillar.fromSeed c seed
  let state := { r.state with rng := rng }.modifyDevice device fun dev =>
    { dev with
      caterpillar := some cat
      downloadRetries := 0
      provisioning := some ⟨startI, periods, 0, false⟩ }
  (run, { r with state := state }.injectAt time device
    (.provisioningRequest (requestOf c device cat startI periods jmax)) flow run)

/-- Starts the butterfly provisioning flow at an instant. -/
def provisionAt (c : Crypto S P) (r : ScmsRun S P) (device : NodeId) (time : SimTime)
    (startI periods jmax : ℕ) : FlowRun × ScmsRun S P :=
  r.startProvisioning c device time startI periods jmax .provisioning

/-- Starts a top-up of one period at an instant. -/
def topupAt (c : Crypto S P) (r : ScmsRun S P) (device : NodeId) (time : SimTime) (i jmax : ℕ) :
    FlowRun × ScmsRun S P :=
  r.startProvisioning c device (max time r.kernel.now) i 1 jmax .topup

/-- Submits a misbehaviour report. -/
def submitReport (r : ScmsRun S P) (reporter : NodeId) (subjectI : ℕ) (subjectLv : LinkageValue) :
    FlowRun × ScmsRun S P :=
  let (run, r) := r.newRun
  (run, r.inject reporter (.report ⟨reporter, subjectI, subjectLv, r.kernel.now⟩) .report run)

/-- A new case about two reports. -/
def caseOf (run crlRun : FlowRun) (a b : ReportSubmission) (iRev jmax : ℕ) (direct : Bool) :
    Case where
  run := run
  crlRun := crlRun
  subject1 := (a.subjectI, a.subjectLv)
  subject2 := (b.subjectI, b.subjectLv)
  lookups := []
  same := fun _ => none
  seeds := fun _ => none
  iRev := iRev
  jmax := jmax
  resolved := false
  direct := direct
  done := false

/-- Opens a case with its first lookup. -/
def openCase (r : ScmsRun S P) (case : Case) : ScmsRun S P :=
  { r with state := r.state.withCase case }.inject nodes.ma
    (.pcaLookupRequest case.subject1.1 case.subject1.2) .linkageResolution case.run

/-- Opens an investigation over two reports the Misbehaviour Authority holds. -/
def investigate (r : ScmsRun S P) (a b iRev jmax : ℕ) :
    Option (FlowRun × FlowRun) × ScmsRun S P :=
  let (run, r) := r.newRun
  let (crlRun, r) := r.newRun
  match r.state.ma.reports[a]?, r.state.ma.reports[b]? with
  | some ra, some rb =>
    (some (run, crlRun), r.openCase (caseOf run crlRun ra rb iRev jmax false))
  | _, _ => (none, r)

/-- Whether a case is in progress. -/
def caseOpen (s : ScmsState S P) : Bool := s.ma.case.any fun case => !case.done

/-- Revokes the device behind a report, unless a case is in progress. -/
def revoke (r : ScmsRun S P) (index iRev jmax : ℕ) : Option (FlowRun × FlowRun) × ScmsRun S P :=
  if caseOpen r.state then (none, r)
  else
    match r.state.ma.reports[index]? with
    | none => (none, r)
    | some report =>
      let (run, r) := r.newRun
      let (crlRun, r) := r.newRun
      (some (run, crlRun), r.openCase (caseOf run crlRun report report iRev jmax true))

/-- A report whose access leg was carried by the caller. -/
def reportAtProxy (r : ScmsRun S P) (reporter : NodeId) (subjectI : ℕ) (subjectLv : LinkageValue)
    (detectedAt sentAt arriveAt : SimTime) (transport : Transport) (bytes : ℕ) :
    FlowRun × ScmsRun S P :=
  let (run, r) := r.newRun
  let kernel : Kernel (ScmsMsg S P) := { r.kernel with
    stages := r.kernel.stages ++
      [⟨detectedAt, run, .report, .detect, some reporter, none⟩,
        ⟨sentAt, run, .report, .reportSent, some reporter, none⟩]
    steps := r.kernel.steps ++
      [⟨sentAt, reporter, nodes.lop, .report, run, "report", bytes, transport⟩] }
  let delivery : Delivery (ScmsMsg S P) :=
    ⟨arriveAt, reporter, nodes.lop, .report ⟨reporter, subjectI, subjectLv, detectedAt⟩, .report,
      run⟩
  (run, { r with kernel := kernel.injectAt arriveAt delivery })

/-- Has a device fetch and enforce the current list. -/
def distributeCrl (r : ScmsRun S P) (device : NodeId) : FlowRun × ScmsRun S P :=
  let (run, r) := r.newRun
  (run, r.inject device (.crlDownloadRequest device) .crlDistribution run)

/-- Has the broadcast path push the current list to a device. -/
def broadcastCrlTo (r : ScmsRun S P) (device : NodeId) : FlowRun × ScmsRun S P :=
  let (run, r) := r.newRun
  (run, r.inject nodes.crlBroadcast (.crlAirBroadcast device) .crlDistribution run)

/-! ## The loops -/

section Loops

variable (c : Crypto S P) (charge : String → OpDescriptor → Duration)

/-- Handles one delivery that has been taken off the schedule `k`: the body of every loop. The
outbox is returned with the outcome. -/
def process (r : ScmsRun S P) (q : Queued (ScmsMsg S P)) (k : Kernel (ScmsMsg S P)) :
    Except Abort ((Except ProtoError Unit × Outbox (ScmsMsg S P)) × ScmsRun S P) :=
  let out := Outbox.new (charge (k.profileOf q.delivery.dst))
  match r.state.handle c q.delivery out with
  | .error .panic => .error .panic
  | .error (.proto e) => .ok ((.error e, out), { r with kernel := k })
  | .ok (state, out) =>
    let (result, kernel) := k.dispatch q.delivery.time q.delivery.dst out
    .ok ((result, out), ⟨state, kernel⟩)

/-- The next delivery, up to a horizon if there is one. -/
def next (r : ScmsRun S P) (horizon : Option SimTime) :
    Option (Queued (ScmsMsg S P) × Kernel (ScmsMsg S P)) :=
  match horizon with
  | none => r.kernel.nextDelivery
  | some h => r.kernel.nextDeliveryBefore h

/-- Runs every delivery due by the horizon, or until nothing is scheduled: `run_until`, `run` and
`drain_into`. The first error ends the loop. -/
def drain (horizon : Option SimTime) (r : ScmsRun S P) :
    ℕ → Except Abort (Except ProtoError Unit × ScmsRun S P)
  | 0 => if (r.next horizon).isNone then .ok (.ok (), r) else .error .fuel
  | fuel + 1 =>
    match r.next horizon with
    | none => .ok (.ok (), r)
    | some (q, k) =>
      match process c charge r q k with
      | .error e => .error e
      | .ok ((.error e, _), r) => .ok (.error e, r)
      | .ok ((.ok (), _), r) => drain horizon r fuel

end Loops

/-! ## Preloading -/

/-- A call of `preload` being carried out: its arguments, the kernel and the parameters put aside,
and whether the enrolment is over and the request has been made. -/
structure Preload (S P : Type) where
  device : NodeId
  startI : ℕ
  periods : ℕ
  jmax : ℕ
  real : Kernel (ScmsMsg S P)
  saved : ScmsParams
  requested : Bool

/-- The kernel a preload runs on: no clock, no logs, and the links of the real one. -/
def scratchKernel (net : BackendNet) (params : ScmsParams) (device : NodeId) :
    Kernel (ScmsMsg S P) :=
  hostDevice (hostBackend (Kernel.newAt net 0) params) params device

/-- The beginning of `preload`: the scratch kernel in place of the real one, the windows at zero,
and the enrolment started. -/
def enterPreload (r : ScmsRun S P) (device : NodeId) (startI periods jmax : ℕ) :
    Preload S P × ScmsRun S P :=
  let r := if r.state.devices[device]?.isNone then r.addDevice device else r
  let p := r.state.params
  let state := { r.state with
    params := { p with shuffleWindow := ⟨0⟩, firstBatchDelay := ⟨0⟩ } }
  (⟨device, startI, periods, jmax, r.kernel, p, false⟩,
    (enrolAt ⟨state, scratchKernel r.kernel.net p device⟩ device 0).2)

/-- The middle of `preload`: the provisioning request. -/
def requestPreload (c : Crypto S P) (p : Preload S P) (r : ScmsRun S P) : ScmsRun S P :=
  (r.startProvisioning c p.device r.kernel.now p.startI p.periods p.jmax .provisioning).2

/-- The end of `preload`: the real kernel and the parameters are put back. -/
def leavePreload (p : Preload S P) (r : ScmsRun S P) : ScmsRun S P :=
  ⟨{ r.state with params := p.saved }, p.real⟩

/-- Enrols and provisions a device before the run, on a scratch kernel. -/
def preload (c : Crypto S P) (charge : String → OpDescriptor → Duration) (fuel : ℕ)
    (r : ScmsRun S P) (device : NodeId) (startI periods jmax : ℕ) :
    Except Abort (Except ProtoError Unit × ScmsRun S P) :=
  let (p, r) := r.enterPreload device startI periods jmax
  match drain c charge none r fuel with
  | .error e => .error e
  | .ok (.error e, r) => .ok (.error e, leavePreload p r)
  | .ok (.ok (), r) =>
    match drain c charge none (requestPreload c p r) fuel with
    | .error e => .error e
    | .ok (outcome, r) => .ok (outcome, leavePreload p r)

end ScmsRun

/-! ## The machine -/

open ScmsRun

/-- A deployment under a driver, possibly in the middle of a call of `preload`. -/
structure Driver (S P : Type) where
  run : ScmsRun S P
  preloading : Option (Preload S P)

/-- What a driver does: a call, or the next delivery. -/
inductive Op where
  | addDevice (node : NodeId)
  | setAccess (device : NodeId) (link : Link)
  | attachRsu (device : NodeId)
  | enrol (device : NodeId) (time : SimTime)
  | provision (device : NodeId) (time : SimTime) (startI periods jmax : ℕ)
  | topup (device : NodeId) (time : SimTime) (i jmax : ℕ)
  | submitReport (reporter : NodeId) (subjectI : ℕ) (subjectLv : LinkageValue)
  | reportAtProxy (reporter : NodeId) (subjectI : ℕ) (subjectLv : LinkageValue)
      (detectedAt sentAt arriveAt : SimTime) (transport : Transport) (bytes : ℕ)
  | investigate (a b iRev jmax : ℕ)
  | revoke (index iRev jmax : ℕ)
  | distributeCrl (device : NodeId)
  | broadcastCrlTo (device : NodeId)
  | preload (device : NodeId) (startI periods jmax : ℕ)
  | deliver
  deriving DecidableEq

/-- What a driver gets back. -/
inductive Reply (S P : Type) where
  | done
  | started (run : FlowRun)
  | case (runs : Option (FlowRun × FlowRun))
  | delivered (q : Queued (ScmsMsg S P)) (result : Except ProtoError Unit)
      (out : Outbox (ScmsMsg S P))
  | idle
  | requested
  | preloaded

section Machine

variable (c : Crypto S P) (charge : String → OpDescriptor → Duration)

/-- A call, outside of `preload`. -/
def call (r : ScmsRun S P) : Op → Reply S P × Driver S P
  | .addDevice node => (.done, ⟨r.addDevice node, none⟩)
  | .setAccess device link => (.done, ⟨r.setAccess device link, none⟩)
  | .attachRsu device => (.done, ⟨r.attachRsu device, none⟩)
  | .enrol device time => let (run, r) := r.enrolAt device time; (.started run, ⟨r, none⟩)
  | .provision device time startI periods jmax =>
    let (run, r) := r.provisionAt c device time startI periods jmax
    (.started run, ⟨r, none⟩)
  | .topup device time i jmax =>
    let (run, r) := r.topupAt c device time i jmax
    (.started run, ⟨r, none⟩)
  | .submitReport reporter subjectI subjectLv =>
    let (run, r) := r.submitReport reporter subjectI subjectLv
    (.started run, ⟨r, none⟩)
  | .reportAtProxy reporter subjectI subjectLv detectedAt sentAt arriveAt transport bytes =>
    let (run, r) :=
      r.reportAtProxy reporter subjectI subjectLv detectedAt sentAt arriveAt transport bytes
    (.started run, ⟨r, none⟩)
  | .investigate a b iRev jmax =>
    let (runs, r) := r.investigate a b iRev jmax
    (.case runs, ⟨r, none⟩)
  | .revoke index iRev jmax =>
    let (runs, r) := r.revoke index iRev jmax
    (.case runs, ⟨r, none⟩)
  | .distributeCrl device => let (run, r) := r.distributeCrl device; (.started run, ⟨r, none⟩)
  | .broadcastCrlTo device => let (run, r) := r.broadcastCrlTo device; (.started run, ⟨r, none⟩)
  | .preload device startI periods jmax =>
    let (p, r) := r.enterPreload device startI periods jmax
    (.done, ⟨r, some p⟩)
  | .deliver => (.idle, ⟨r, none⟩)

/-- The next delivery of the kernel in place. During `preload` an error ends the call, and so does
an empty schedule once the request has been made. -/
def deliver (D : Driver S P) : Except Abort (Reply S P × Driver S P) :=
  match D.run.kernel.nextDelivery with
  | some (q, k) =>
    match process c charge D.run q k with
    | .error e => .error e
    | .ok ((result, out), r) =>
      match result, D.preloading with
      | .error e, some p => .ok (.delivered q (.error e) out, ⟨leavePreload p r, none⟩)
      | result, preloading => .ok (.delivered q result out, ⟨r, preloading⟩)
  | none =>
    match D.preloading with
    | none => .ok (.idle, D)
    | some p =>
      if p.requested then .ok (.preloaded, ⟨leavePreload p D.run, none⟩)
      else .ok (.requested, ⟨requestPreload c p D.run, some { p with requested := true }⟩)

/-- The deployment under a driver. -/
def machine (certs : CertificateSizes) (params : ScmsParams) (t0 : SimTime) :
    Machine (Driver S P) Op (Reply S P) Abort where
  init := ⟨newAt certs params t0, none⟩
  step D op :=
    match op with
    | .deliver => deliver c charge D
    | op => if D.preloading.isSome then .error .busy else .ok (call c D.run op)

variable {c charge} {certs : CertificateSizes} {params : ScmsParams} {t0 : SimTime}

/-- A loop without a horizon ends in an error or with nothing scheduled. -/
lemma drain_idle (fuel : ℕ) : ∀ {r r' : ScmsRun S P},
    drain c charge none r fuel = .ok (.ok (), r') → r'.kernel.nextDelivery = none := by
  induction fuel with
  | zero =>
    intro r r' h
    unfold drain at h
    split at h
    next hidle => cases h; exact Option.isNone_iff_eq_none.1 hidle
    next => cases h
  | succ fuel ih =>
    intro r r' h
    unfold drain at h
    split at h
    next hidle => cases h; exact hidle
    next =>
      split at h
      · cases h
      · cases h
      · exact ih h

end Machine

/-! ## A deployment to run by hand -/

/-- The order of the group of P-256. -/
def p256Order : ℕ := 0xffffffff00000000ffffffffffffffffbce6faada7179e84f3b9cac2fc632551

instance : NeZero p256Order := ⟨by decide⟩

/-- A cyclic group of the order of P-256. -/
def HandGroup : Type := Fin p256Order

instance : AddCommGroup HandGroup := Fin.addCommGroup p256Order

instance : DecidableEq HandGroup := inferInstanceAs (DecidableEq (Fin p256Order))

/-- An element of the group from a byte string. -/
def HandGroup.ofBytes (b : Bytes) : HandGroup :=
  Fin.ofNat p256Order (b.foldl (fun n x => n * 256 + x.toNat) 0)

/-- Primitives that can be followed by hand: the group is its own group of scalars, and the hash,
the cipher and the random streams are simple functions. -/
def handCrypto : Crypto HandGroup HandGroup where
  mulBase := AddMonoidHom.id _
  scalarFromBeModN := HandGroup.ofBytes
  scalarFromSeedHalf := HandGroup.ofBytes
  compressed p := if p = 0 then none else some (beBytes 33 (Fin.val p))
  sha256 b := b
  daviesMeyer key block := key.take 8 ++ block
  keystream seed node pos := UInt8.ofNat (seed + node * 16 + pos)

/-- Parameters with short windows and links without a bandwidth. -/
def handParams : ScmsParams where
  masterSeed := 0
  epoch := 0
  shuffleWindow := ⟨60⟩
  reportShuffleWindow := ⟨60⟩
  crlCadence := ⟨86400⟩
  publishOnCadence := false
  firstBatchDelay := ⟨60⟩
  downloadPollInterval := ⟨60⟩
  maxDownloadPolls := 64
  backendServers := 4
  backendOverhead := ⟨1⟩
  deviceOverhead := ⟨1⟩
  backendLinkLatency := ⟨10⟩
  backendLinkBandwidthBps := 0
  uuLinkLatency := ⟨50⟩
  uuLinkBandwidthBps := 0
  v2xAirLatency := ⟨1⟩
  v2xAirBandwidthBps := 0
  backendProfile := ""
  deviceProfile := ""
  sizes := ⟨0, 0, 0, 0⟩

/-- The deployment over these, with no cost of computation. -/
def hand : Machine (Driver HandGroup HandGroup) Op (Reply HandGroup HandGroup) Abort :=
  machine handCrypto (fun _ _ => ⟨0⟩) ⟨0, 0, 0⟩ handParams 0

/-- Deliveries one after another. -/
def deliveries (n : ℕ) : List Op := List.replicate n .deliver

/-- The linkage value of the first credential this deployment issues. -/
def handLv : LinkageValue := [112, 112, 112, 112, 112, 112, 112, 112, 0]

/-- A device gets a credential, is reported and revoked. -/
def revokeOps : List Op :=
  [.addDevice 1000, .attachRsu 1000, .provision 1000 0 0 1 1] ++ deliveries 20 ++
    [.submitReport 1000 0 handLv] ++ deliveries 6 ++ [.revoke 0 0 1]

end V2xw.Scms
