import V2xw.Scms.State

/-!
# How the entities handle messages

`ScmsState::handle` of `crates/v2xw-proto/src/scms/run.rs`, one definition per arm and in the order
of the source. An arm changes the state and fills the outbox of the receiving node; the kernel
decides when the outbox takes effect.

## Main definitions

* `ScmsState.handle` — the dispatch over messages.
-/

namespace V2xw.Scms

open V2xw.Core

/-- How handling a message fails: with an error of the protocol, or by a panic that ends the
program. -/
inductive Fail where
  | proto (e : ProtoError)
  | panic
  deriving DecidableEq

/-! ## Charges -/

namespace Outbox

variable {M : Type}

/-- Charges signatures. -/
def sign (out : Outbox M) (n : ℕ) : Outbox M := out.compute ⟨.ecdsaP256Sha256, .sign, n⟩

/-- Charges verifications. -/
def verify (out : Outbox M) (n : ℕ) : Outbox M := out.compute ⟨.ecdsaP256Sha256, .verify, n⟩

/-- Charges scalar multiplications. -/
def scalarMults (out : Outbox M) (n : ℕ) : Outbox M := out.compute ⟨.ecqvP256, .sign, n⟩

/-- Charges block encryptions. -/
def aes (out : Outbox M) (n : ℕ) : Outbox M := out.compute ⟨.aes128Block, .sign, n⟩

/-- Charges hashes. -/
def hashes (out : Outbox M) (n : ℕ) : Outbox M := out.compute ⟨.sha256, .verify, n⟩

end Outbox

variable {S P : Type} [AddCommGroup S] [AddCommGroup P] (c : Crypto S P)

/-- What an arm of the dispatch produces. -/
abbrev Handled (S P : Type) := ScmsState S P × Outbox (ScmsMsg S P)

namespace ScmsState

variable (s : ScmsState S P) (d : Delivery (ScmsMsg S P)) (out : Outbox (ScmsMsg S P))

/-! ## Enrolment -/

/-- The device sends the request; the Device Configuration Manager re-signs and forwards it. -/
def onEnrolRequest (device : NodeId) : Handled S P :=
  if d.dst = device then
    (s, out.sign 1
      |>.stageAt .requested device none d.flow d.run
      |>.send nodes.dcm (.enrolRequest device) "enrol-request" s.sizes.enrolRequest
        .cellularUu d.flow d.run)
  else
    (s, out.verify 1
      |>.sign 1
      |>.stageAt .proxyForwarded d.dst none d.flow d.run
      |>.send nodes.eca (.enrolForward device) "enrol-forward" s.sizes.enrolForward
        .backendNet d.flow d.run)

/-- The Enrolment Certificate Authority issues the enrolment certificate. -/
def onEnrolForward (device : NodeId) : Handled S P :=
  ({ s with issuedEnrolment := insert device s.issuedEnrolment },
    out.verify 1
      |>.sign 1
      |>.stageAt .certified d.dst none d.flow d.run
      |>.send device (.enrolResponse device) "enrol-response" s.sizes.enrolResponse
        .cellularUu d.flow d.run)

/-- The device is enrolled. -/
def onEnrolResponse (device : NodeId) : Handled S P :=
  (s.modifyDevice device fun dev => { dev with enrolled := true },
    out.verify 2
      |>.stageAt .installed device none d.flow d.run)

/-! ## Provisioning -/

/-- The hash the Registration Authority knows a request by. -/
def requestHash (req : ProvisioningRequest P) : Bytes :=
  c.sha256 (beBytes 4 req.device ++ (c.compressed req.signingPublic).getD [] ++
    (c.compressed req.encryptionPublic).getD [] ++ req.ck ++ req.ek ++
    beBytes 4 req.startI ++ beBytes 4 req.periods ++ beBytes 4 req.jmax)

/-- The cocoon keys of a request. -/
def cocoonsOf (req : ProvisioningRequest P) : OrdMap Slot P :=
  (periodRange req.startI req.periods).foldl (fun m i =>
    (List.range req.jmax).foldl (fun m j =>
      m.insert (slot i j)
        (raCocoonKeys c req.signingPublic req.encryptionPublic req.ck req.ek i j).1) m) ∅

/-- The job the Registration Authority opens for a request. -/
def jobOf (req : ProvisioningRequest P) : ProvisioningJob P where
  run := d.run
  flow := d.flow
  device := req.device
  requestHash := requestHash c req
  startI := req.startI
  periods := req.periods
  jmax := req.jmax
  cocoons := cocoonsOf c req
  plv := fun _ => ∅
  lci := fun _ => none
  responses := 0
  periodsCertified := 0
  sent := false
  batchReadyStamped := false

/-- The request for a chain and its pre-linkage values. -/
def preLinkageRequestTo (out : Outbox (ScmsMsg S P)) (req : ProvisioningRequest P) (la : LaIndex) :
    Outbox (ScmsMsg S P) :=
  out.send (nodes.la la) (.preLinkageRequest req.device la req.startI req.periods req.jmax)
    "pre-linkage-request" s.sizes.preLinkageRequest .backendNet d.flow d.run

/-- The Registration Authority opens a job for a request, unless the device is blocklisted. -/
def onProvisioningRequestAtRa (req : ProvisioningRequest P) : Handled S P :=
  if req.device ∈ s.ra.blocklist then
    ({ s with ra := { s.ra with refused := s.ra.refused + 1 } }, out.verify 1)
  else
    let out := out.verify 1
      |>.stageAt .acknowledged d.dst none d.flow d.run
      |>.scalarMults (wrap32 (2 * sat32 (req.periods * req.jmax)))
      |>.stageAt .expanded d.dst none d.flow d.run
      |>.send req.device (.provisioningAck req.device (requestHash c req)) "provisioning-ack"
        s.sizes.provisioningAck .cellularUu d.flow d.run
    ({ s with
        ra := { s.ra with
          enrolled := insert req.device s.ra.enrolled
          requests := s.ra.requests.insert (requestHash c req) ⟨req.device, none, none⟩
          jobs := s.ra.jobs ++ [jobOf c d req] } },
      preLinkageRequestTo s d (preLinkageRequestTo s d out req .one) req .two)

/-- A request leaves the device, crosses the privacy proxy and reaches the Registration
Authority. -/
def onProvisioningRequest (req : ProvisioningRequest P) : Handled S P :=
  if d.dst = req.device then
    (s, out.sign 1
      |>.scalarMults 1
      |>.stageAt .requested req.device none d.flow d.run
      |>.send nodes.lop (.provisioningRequest req) "provisioning-request"
        s.sizes.provisioningRequest .cellularUu d.flow d.run)
  else if d.dst = nodes.lop then
    (s, out.stageAt .proxyForwarded d.dst none d.flow d.run
      |>.send nodes.ra (.provisioningRequest req) "provisioning-request-proxied"
        s.sizes.provisioningRequest .backendNet d.flow d.run)
  else s.onProvisioningRequestAtRa c d out req

/-- The device waits for the first batch time, then polls for the first period it wants. -/
def onProvisioningAck (device : NodeId) : Handled S P :=
  (s, out.startTimer s.params.firstBatchDelay
    (.batchDownloadRequest device
      ((s.devices[device]?.bind (·.provisioning)).elim 0 (·.startI)))
    d.flow d.run)

/-- The pre-linkage values of a chain. -/
def preLinkageValues (laId : LaId) (ls0 : LinkageSeed) (startI periods jmax : ℕ) :
    List (ℕ × ℕ × SealedForPca PreLinkageValue) :=
  (periodRange startI periods).flatMap fun i =>
    (List.range jmax).map fun j =>
      (i, j, ⟨preLinkageValue c laId (linkageSeedAt c laId ls0 i) j⟩)

/-- A Linkage Authority allocates a chain and answers with its pre-linkage values. -/
def onPreLinkageRequest (device : NodeId) (la : LaIndex) (startI periods jmax : ℕ) : Handled S P :=
  let st := s.la la
  let lci := st.nextLci
  let (ls0, rng) := s.rng.fillBytes c (nodes.la la) 16
  let values := preLinkageValues c st.laId ls0 startI periods jmax
  ({ s with
      rng := rng
      la := Function.update s.la la
        { st with
          nextLci := lci + 1
          chains := st.chains.insert lci ls0
          owner := st.owner.insert lci device } },
    out.hashes periods
      |>.aes (sat32 (sat32 (periods * jmax) * 2))
      |>.send nodes.ra (.preLinkageResponse ⟨la, st.laId, lci, values⟩) "pre-linkage-response"
        (s.sizes.preLinkageResponse (sat32 values.length)) .backendNet d.flow d.run)

/-- A job with the answer of a Linkage Authority. -/
def answered (batch : PreLinkageBatch) (job : ProvisioningJob P) : ProvisioningJob P :=
  { job with
    lci := Function.update job.lci batch.la (some batch.lci)
    plv := Function.update job.plv batch.la
      (batch.values.foldl (fun m v => m.insert (slot v.1 v.2.1) v.2.2) (job.plv batch.la))
    responses := job.responses + 1 }

/-- Changes the first job of a run. -/
def updateJob (run : FlowRun) (f : ProvisioningJob P → ProvisioningJob P) :
    List (ProvisioningJob P) → List (ProvisioningJob P)
  | [] => []
  | job :: jobs => if job.run = run then f job :: jobs else job :: updateJob run f jobs

/-- The record of a request with the chains its job has so far. -/
def recordChains (lci : LaIndex → Option Lci) (record : RequestRecord) : RequestRecord :=
  { record with lci1 := lci .one, lci2 := lci .two }

/-- The Registration Authority records the answer; with both answers the shuffle window opens. -/
def onPreLinkageResponse (batch : PreLinkageBatch) : Except Fail (Handled S P) :=
  match s.ra.jobs.find? (·.run = d.run) with
  | none => .error (.proto (.flow "provisioning"
      "pre-linkage values for a request the RA does not hold"))
  | some job =>
    let job' := answered batch job
    let requests :=
      match s.ra.requests[job'.requestHash]? with
      | none => s.ra.requests
      | some record => s.ra.requests.insert job'.requestHash (recordChains job'.lci record)
    let ra := { s.ra with
      jobs := updateJob d.run (answered batch) s.ra.jobs
      requests := requests }
    if job'.responses = 2 then
      let out := out.stageAt .preLinkageReady d.dst none d.flow d.run
      if s.ra.shuffleArmed then .ok ({ s with ra := ra }, out)
      else
        .ok ({ s with ra := { ra with shuffleArmed := true } },
          out.startTimer s.params.shuffleWindow .shuffleTimer d.flow d.run)
    else .ok ({ s with ra := ra }, out)

/-- Whether the shuffle releases a job. -/
def released (job : ProvisioningJob P) : Bool := !(job.responses < 2 || job.sent)

/-- The certificate requests of a job for one period: the indices for which everything is there. -/
def itemsOf (job : ProvisioningJob P) (i : ℕ) : List (CertRequestItem P) :=
  (List.range job.jmax).filterMap fun j => do
    let b ← job.cocoons[slot i j]?
    let p1 ← (job.plv .one)[slot i j]?
    let p2 ← (job.plv .two)[slot i j]?
    let l1 ← job.lci .one
    let l2 ← job.lci .two
    some ⟨i, j, b, p1, p2, ⟨l1⟩, ⟨l2⟩, job.requestHash⟩

/-- Sends the certificate requests of a released job, one message per period. -/
def releaseJob (out : Outbox (ScmsMsg S P)) (job : ProvisioningJob P) : Outbox (ScmsMsg S P) :=
  (periodRange job.startI job.periods).foldl (fun out i =>
    out.send nodes.pca (.certRequest job.device i (itemsOf job i)) "cert-request"
      (s.sizes.certRequest (sat32 (itemsOf job i).length)) .backendNet job.flow job.run)
    (out.stageAt .shuffled d.dst none job.flow job.run)

/-- The shuffle window closes: every job with both answers goes to the certifying authority. -/
def onShuffleTimer : Handled S P :=
  let ready := s.ra.jobs.filter released
  ({ s with
      ra := { s.ra with
        shuffleArmed := false
        jobs := s.ra.jobs.map fun job => if released job then { job with sent := true } else job
        repos := ready.foldl (fun repos job =>
          repos.insert job.device (repos[job.device]?.getD ∅)) s.ra.repos } },
    ready.foldl (releaseJob s d) out)

/-- What a certificate request holds once opened. -/
structure OpenedItem (P : Type) where
  item : CertRequestItem P
  plv1 : PreLinkageValue
  plv2 : PreLinkageValue
  lci1 : Lci
  lci2 : Lci

/-- Opens a certificate request. -/
def openItem (opener : NodeId) (item : CertRequestItem P) : Option (OpenedItem P) := do
  let plv1 ← item.plv1.openAs opener nodes.pca
  let plv2 ← item.plv2.openAs opener nodes.pca
  let lci1 ← item.lci1.openAs opener nodes.pca
  let lci2 ← item.lci2.openAs opener nodes.pca
  some ⟨item, plv1, plv2, lci1, lci2⟩

/-- Certifies one opened request with the next randomiser. -/
def certify (s : ScmsState S P) (x : OpenedItem P) : IssuedCredential S P × ScmsState S P :=
  let lv := linkageValue x.plv1 x.plv2
  let (be, rng) := s.rng.fillBytes c nodes.pca 32
  let r := c.scalarFromBeModN be
  (⟨x.item.i, x.item.j, lv, (pcaCertifyExplicit c x.item.cocoonSigning r).1, r⟩,
    { s with
      rng := rng
      pca := { s.pca with
        issued := s.pca.issued.insert (toLex (x.item.i, lv)) ⟨x.lci1, x.lci2, x.item.requestHash⟩
        issuedCount := s.pca.issuedCount + 1 } })

/-- Certifies the opened requests of a message in order. -/
def certifyAll : ScmsState S P → List (OpenedItem P) → List (IssuedCredential S P) × ScmsState S P
  | s, [] => ([], s)
  | s, x :: xs =>
    let (cred, s) := certify c s x
    let (creds, s) := certifyAll s xs
    (cred :: creds, s)

/-- The certifying authority issues one period of credentials. -/
def onCertRequest (device : NodeId) (i : ℕ) (items : List (CertRequestItem P)) :
    Except Fail (Handled S P) :=
  let count := sat32 items.length
  let out := out.scalarMults (wrap32 (4 * count)) |>.sign count
  match items.mapM (openItem d.dst) with
  | none => .error (.proto (.flow "provisioning"
      "only the PCA may open a sealed pre-linkage value"))
  | some opened =>
    let (credentials, s) := certifyAll c s opened
    let out :=
      if d.run ∈ s.pca.certifiedRuns then out
      else out.stageAt .certified d.dst none d.flow d.run
    .ok ({ s with pca := { s.pca with certifiedRuns := insert d.run s.pca.certifiedRuns } },
      out.send nodes.ra (.certResponse device i credentials) "cert-response"
        (s.sizes.certBatch count) .backendNet d.flow d.run)

/-- A job with one more period certified. -/
def certified (job : ProvisioningJob P) : ProvisioningJob P :=
  { job with periodsCertified := job.periodsCertified + 1, batchReadyStamped := true }

/-- The Registration Authority stores a batch; the last one ends the job. -/
def onCertResponse (device : NodeId) (i : ℕ) (credentials : List (IssuedCredential S P)) :
    Handled S P :=
  let repos := s.ra.repos.insert device ((s.ra.repos[device]?.getD ∅).insert i credentials)
  match s.ra.jobs.find? (·.run = d.run) with
  | none => ({ s with ra := { s.ra with repos := repos } }, out)
  | some job =>
    let jobs := updateJob d.run certified s.ra.jobs
    let finished := job.periods ≤ job.periodsCertified + 1
    ({ s with
        ra := { s.ra with
          repos := repos
          jobs := if finished then jobs.filter (fun j => j.run ≠ d.run) else jobs } },
      if job.batchReadyStamped then out
      else out.stageAt .batchReady d.dst none d.flow d.run)

/-- The device asks for a batch; the Registration Authority answers with what it has. -/
def onBatchDownloadRequest (device : NodeId) (i : ℕ) : Handled S P :=
  if d.dst = device then
    (s, out.send nodes.ra (.batchDownloadRequest device i) "batch-download-request"
      s.sizes.batchDownloadRequest .cellularUu d.flow d.run)
  else
    let credentials := (s.ra.batch device i).getD []
    (s, out.send device (.batchDownload device i credentials) "batch-download"
      (s.sizes.batchDownload (sat32 credentials.length)) .cellularUu d.flow d.run)

/-- The credentials of a device with a batch installed. -/
def installBatch (credentials : List (IssuedCredential S P))
    (m : OrdMap Slot (IssuedCredential S P)) : OrdMap Slot (IssuedCredential S P) :=
  credentials.foldl (fun m cred => m.insert (slot cred.i cred.j) cred) m

/-- A batch reaches the device: an empty one is polled for again, another one is installed and the
next period asked for, until the last one. -/
def onBatchDownload (device : NodeId) (i : ℕ) (credentials : List (IssuedCredential S P)) :
    Except Fail (Handled S P) :=
  match s.devices[device]? with
  | none => .error (.proto (.noEntity device))
  | some dev =>
    if credentials.isEmpty then
      let dev := { dev with downloadRetries := wrap32 (dev.downloadRetries + 1) }
      .ok ({ s with devices := s.devices.insert device dev },
        if dev.downloadRetries ≤ s.params.maxDownloadPolls then
          out.startTimer s.params.downloadPollInterval (.batchDownloadRequest device i) d.flow d.run
        else out)
    else
      let out := out.compute ⟨.ecqvP256, .verify, sat32 credentials.length⟩
      let dev := { dev with credentials := installBatch credentials dev.credentials }
      match dev.provisioning with
      | none => .ok ({ s with devices := s.devices.insert device dev }, out)
      | some p =>
        let out :=
          if p.firstBatchSeen then out else out.stageAt .downloaded device none d.flow d.run
        if p.periods ≤ p.downloaded + 1 then
          .ok ({ s with devices := s.devices.insert device { dev with provisioning := none } },
            out.stageAt .installed device none d.flow d.run)
        else
          let p := { p with downloaded := p.downloaded + 1, firstBatchSeen := true }
          .ok ({ s with devices := s.devices.insert device { dev with provisioning := some p } },
            out.send nodes.ra (.batchDownloadRequest device (wrap32 (p.startI + p.downloaded)))
              "batch-download-request" s.sizes.batchDownloadRequest .cellularUu d.flow d.run)

/-! ## Misbehaviour reporting -/

/-- A report leaves the device, crosses the proxy, waits for the shuffle at the Registration
Authority and reaches the Misbehaviour Authority. -/
def onReport (r : ReportSubmission) : Handled S P :=
  if d.dst = r.reporter then
    (s, out.sign 1
      |>.scalarMults 1
      |>.stageAt .detect r.reporter none d.flow d.run
      |>.stageAt .reportSent r.reporter none d.flow d.run
      |>.send nodes.lop (.report r) "report" s.sizes.report .cellularUu d.flow d.run)
  else if d.dst = nodes.lop then
    (s, out.stageAt .proxyForwarded d.dst none d.flow d.run
      |>.send nodes.ra (.report r) "report-proxied" s.sizes.report .backendNet d.flow d.run)
  else if d.dst = nodes.ra then
    let ra := { s.ra with reports := s.ra.reports ++ [(d.run, r)] }
    if s.ra.reportShuffleArmed then ({ s with ra := ra }, out)
    else
      ({ s with ra := { ra with reportShuffleArmed := true } },
        out.startTimer s.params.reportShuffleWindow .reportShuffleTimer d.flow d.run)
  else
    ({ s with ma := { s.ma with reports := s.ma.reports ++ [r] } },
      out.verify 1
        |>.scalarMults 1
        |>.stageAt .reportReceived d.dst none d.flow d.run)

/-- The report shuffle window closes. -/
def onReportShuffleTimer : Handled S P :=
  ({ s with ra := { s.ra with reportShuffleArmed := false, reports := [] } },
    s.ra.reports.foldl (fun out r =>
      out.stageAt .shuffled d.dst none .report r.1
        |>.send nodes.ma (.report r.2) "report-forward" s.sizes.report .backendNet .report r.1)
      out)

/-! ## Investigation and revocation -/

/-- The lookup leaves the Misbehaviour Authority; the certifying authority answers it. -/
def onPcaLookupRequest (i : ℕ) (lv : LinkageValue) : Handled S P :=
  if d.dst = nodes.ma then
    (s, out.stageAt .decision d.dst none d.flow d.run
      |>.send nodes.pca (.pcaLookupRequest i lv) "pca-lookup-request"
        s.sizes.pcaLookupRequest .backendNet d.flow d.run)
  else
    (s, out.send nodes.ma (.pcaLookupResponse s.pca.issued[toLex (i, lv)]?) "pca-lookup-response"
      s.sizes.pcaLookupResponse .backendNet d.flow d.run)

/-- The state with another case at the Misbehaviour Authority. -/
def withCase (case : Case) : ScmsState S P := { s with ma := { s.ma with case := some case } }

/-- The decision to revoke the device behind a request. -/
def decideCase (case : Case) (hash : Bytes) : Handled S P :=
  ({ s with ma := { s.ma with case := some case, decisions := s.ma.decisions ++ [hash] } },
    out.stageAt .resolved d.dst none d.flow d.run
      |>.send nodes.ra (.blocklistRequest hash) "blocklist-request" s.sizes.blocklistRequest
        .backendNet d.flow d.run)

/-- The question to a Linkage Authority whether two chains belong to one device. -/
def askSameDevice (out : Outbox (ScmsMsg S P)) (la : LaIndex) (a b : Lci) :
    Outbox (ScmsMsg S P) :=
  out.send (nodes.la la) (.sameDeviceRequest la a b) "same-device-request"
    s.sizes.sameDeviceRequest .backendNet d.flow d.run

/-- The answer of the certifying authority: an unknown certificate ends the case, a direct case is
decided, and another one goes on to the second certificate and to the Linkage Authorities. -/
def onPcaLookupResponse (found : Option PcaLookup) : Handled S P :=
  match s.ma.case with
  | none => (s, out)
  | some case =>
    match found with
    | none => (s.withCase { case with done := true }, out)
    | some found =>
      let case := { case with lookups := case.lookups ++ [found] }
      if case.direct then
        s.decideCase d out { case with resolved := true } found.requestHash
      else
        match case.lookups with
        | [_] =>
          (s.withCase case,
            out.send nodes.pca (.pcaLookupRequest case.subject2.1 case.subject2.2)
              "pca-lookup-request" s.sizes.pcaLookupRequest .backendNet d.flow d.run)
        | [a, b] =>
          (s.withCase case,
            askSameDevice s d (askSameDevice s d out .one a.lci1 b.lci1) .two a.lci2 b.lci2)
        | _ => (s.withCase case, out)

/-- A Linkage Authority answers whether two chains belong to one device. -/
def onSameDeviceRequest (la : LaIndex) (a b : Lci) : Handled S P :=
  let same :=
    match (s.la la).owner[a]?, (s.la la).owner[b]? with
    | some x, some y => x == y
    | _, _ => false
  (s, out.send nodes.ma (.sameDeviceResponse la same) "same-device-response"
    s.sizes.sameDeviceResponse .backendNet d.flow d.run)

/-- The second answer resolves the case or ends it. -/
def onSameDeviceResponse (la : LaIndex) (same : Bool) : Except Fail (Handled S P) :=
  match s.ma.case with
  | none => .ok (s, out)
  | some case =>
    let case := { case with same := Function.update case.same la (some same) }
    match case.same .one, case.same .two with
    | some a, some b =>
      match case.lookups with
      | [] => .error .panic
      | first :: _ =>
        if a && b then .ok (s.decideCase d out { case with resolved := true } first.requestHash)
        else .ok (s.withCase { case with resolved := false, done := true }, out)
    | _, _ => .ok (s.withCase case, out)

/-- The Registration Authority blocklists the device behind a request and names its chains. -/
def onBlocklistRequest (hash : Bytes) : Handled S P :=
  let record := s.ra.requests[hash]?
  let s' :=
    match record with
    | none => s
    | some r => { s with ra := { s.ra with blocklist := insert r.device s.ra.blocklist } }
  (s', out.stageAt .blocklisted d.dst none d.flow d.run
    |>.send nodes.ma
      (.blocklistResponse record.isSome ((record.bind (·.lci1)).getD 0)
        ((record.bind (·.lci2)).getD 0))
      "blocklist-response" s.sizes.blocklistResponse .backendNet d.flow d.run)

/-- The request for a seed. -/
def askSeed (out : Outbox (ScmsMsg S P)) (la : LaIndex) (lci : Lci) (i : ℕ) :
    Outbox (ScmsMsg S P) :=
  out.send (nodes.la la) (.seedRequest la lci i) "seed-request" s.sizes.seedRequest .backendNet
    d.flow d.run

/-- An unknown request ends the case; the chains of a known one are asked for their seeds. -/
def onBlocklistResponse (known : Bool) (lci1 lci2 : Lci) : Handled S P :=
  match s.ma.case with
  | none => (s, out)
  | some case =>
    if known then
      (s, askSeed s d (askSeed s d out .one lci1 case.iRev) .two lci2 case.iRev)
    else (s.withCase { case with done := true }, out)

/-- A Linkage Authority releases the seed of a period, if it has the chain. -/
def onSeedRequest (la : LaIndex) (lci : Lci) (i : ℕ) : Handled S P :=
  match (s.la la).chains[lci]? with
  | none => (s, out)
  | some ls0 =>
    (s, out.hashes i
      |>.send nodes.ma
        (.seedResponse la (s.la la).laId (linkageSeedAt c (s.la la).laId ls0 i) i)
        "seed-response" s.sizes.seedResponse .backendNet d.flow d.run)

/-- Both seeds together go to the generator. -/
def onSeedResponse (la : LaIndex) (laId : LaId) (seed : LinkageSeed) (i : ℕ) : Handled S P :=
  match s.ma.case with
  | none => (s, out)
  | some case =>
    let case := { case with seeds := Function.update case.seeds la (some (laId, seed)) }
    match case.seeds .one, case.seeds .two with
    | some la1, some la2 =>
      (s.withCase case,
        out.send nodes.crlg (.crlAppend i la1 la2 case.jmax) "crl-append" s.sizes.crlAppend
          .backendNet .crlIssuance case.crlRun)
    | _, _ => (s.withCase case, out)

/-- The entry a generator appends. -/
def entryOf (i : ℕ) (la1 la2 : LaId × LinkageSeed) (jmax : ℕ) : CrlLinkageEntry :=
  ⟨i, la1.1, la2.1, la1.2, la2.2, jmax, defaultMaxForwardPeriods⟩

/-- The state with the case of the Misbehaviour Authority finished. -/
def endCase : ScmsState S P :=
  { s with ma := { s.ma with case := s.ma.case.map fun case => { case with done := true } } }

/-- The time from `time` to the next boundary of the cadence. -/
def untilBoundary (params : ScmsParams) (time : SimTime) : Duration :=
  let cadence := max params.crlCadence.ns 1
  let since := time - params.epoch
  let next := (since / cadence + 1) * cadence % 2 ^ 64
  ⟨(next + 2 ^ 64 - since) % 2 ^ 64⟩

/-- Sends the list to the store, then to the broadcast path. -/
def publish (out : Outbox (ScmsMsg S P)) (entries : ℕ) : Outbox (ScmsMsg S P) :=
  out.send nodes.crlStore (.crlPublish entries) "crl-publish" (s.sizes.crl entries) .backendNet
      d.flow d.run
    |>.send nodes.crlBroadcast (.crlPublish entries) "crl-broadcast" (s.sizes.crl entries)
      .backendNet d.flow d.run

/-- The generator appends an entry, which ends the case, and publishes the list at once or at the
next boundary of the cadence. -/
def onCrlAppend (i : ℕ) (la1 la2 : LaId × LinkageSeed) (jmax : ℕ) : Handled S P :=
  let crlg := { s.crlg with entries := s.crlg.entries ++ [entryOf i la1 la2 jmax] }
  let entries := sat32 crlg.entries.length
  let out := out.sign 1
    |>.stageAt .issued d.dst (some (s.sizes.crl entries)) d.flow d.run
  if s.params.publishOnCadence ∧ 0 < s.params.crlCadence.ns then
    if s.crlg.publishArmed then ({ s.endCase with crlg := crlg }, out)
    else
      ({ s.endCase with crlg := { crlg with publishArmed := true } },
        out.startTimer (untilBoundary s.params d.time) .crlPublishTimer d.flow d.run)
  else ({ s.endCase with crlg := crlg }, publish s d out entries)

/-- A boundary of the cadence: the list is published. -/
def onCrlPublishTimer : Handled S P :=
  ({ s with crlg := { s.crlg with publishArmed := false } },
    publish s d (out.sign 1) (sat32 s.crlg.entries.length))

/-- The list reaches the store or the broadcast path. -/
def onCrlPublish (entries : ℕ) : Handled S P :=
  let size := s.sizes.crl entries
  if d.dst = nodes.crlStore then
    ({ s with crlStore := { s.crlStore with entries := s.crlg.entries } },
      out.stageAt .published d.dst (some size) d.flow d.run)
  else
    ({ s with crlBroadcast := { s.crlBroadcast with entries := s.crlg.entries } },
      out.stageAt .firstRsuBroadcast d.dst (some size) d.flow d.run)

/-! ## Distribution of the list -/

/-- The device asks for the list; the store answers with its size. -/
def onCrlDownloadRequest (device : NodeId) : Handled S P :=
  if d.dst = device then
    (s, out.send nodes.crlStore (.crlDownloadRequest device) "crl-request" s.sizes.crlRequest
      .cellularUu d.flow d.run)
  else
    let entries := sat32 s.crlStore.entries.length
    (s, out.send device (.crlDownload device entries) "crl-download" (s.sizes.crl entries)
      .cellularUu d.flow d.run)

/-- The broadcast path puts the list it holds on the air. -/
def onCrlAirBroadcast (device : NodeId) : Handled S P :=
  let entries := sat32 s.crlBroadcast.entries.length
  (s, out.send device (.crlDownload device entries) "crl-air-broadcast" (s.sizes.crl entries)
    .v2xAir d.flow d.run)

/-- The list a download carries, by the node that sent it. -/
def listFrom (src : NodeId) : List CrlLinkageEntry :=
  if src = nodes.crlBroadcast then s.crlBroadcast.entries else s.crlStore.entries

/-- The hashes and block encryptions a list costs a device that holds credentials up to a
period. -/
def expansionCost (periods : ℕ) (list : List CrlLinkageEntry) : ℕ × ℕ :=
  list.foldl (fun acc e =>
    let walked := min (periods - e.i) e.maxForward
    (sat32 (acc.1 + sat32 (2 * walked)), sat32 (acc.2 + sat32 (sat32 (2 * e.jmax) * max walked 1))))
    (0, 0)

/-- A device with a list installed: it falls silent exactly if it finds itself on it. -/
def enforce (list : List CrlLinkageEntry) (dev : DeviceState S P) : DeviceState S P :=
  let dev := { dev with crl := list }
  { dev with silenced := !(dev.revokedCredentials c).isEmpty }

/-- The device processes the list of the path that delivered it. -/
def onCrlDownload (device : NodeId) (entries : ℕ) : Except Fail (Handled S P) :=
  let out := out.stageAt .downloaded device (some (s.sizes.crl entries)) d.flow d.run
    |>.verify 1
  let list := s.listFrom d.src
  match s.devices[device]? with
  | none => .error (.proto (.noEntity device))
  | some dev =>
    let periods := sat32 ((dev.credentials.keys.map fun k => (ofLex k).1).foldl max 0 + 1)
    let cost := expansionCost periods list
    .ok ({ s with devices := s.devices.insert device (enforce c list dev) },
      out.hashes cost.1
        |>.aes cost.2
        |>.stageAt .processed device none d.flow d.run
        |>.stageAt .enforced device none d.flow d.run)

/-! ## The dispatch -/

/-- Handles one delivery. -/
def handle : Except Fail (Handled S P) :=
  match d.msg with
  | .enrolRequest device => .ok (s.onEnrolRequest d out device)
  | .enrolForward device => .ok (s.onEnrolForward d out device)
  | .enrolResponse device => .ok (s.onEnrolResponse d out device)
  | .provisioningRequest req => .ok (s.onProvisioningRequest c d out req)
  | .provisioningAck device _ => .ok (s.onProvisioningAck d out device)
  | .preLinkageRequest device la startI periods jmax =>
    .ok (s.onPreLinkageRequest c d out device la startI periods jmax)
  | .preLinkageResponse batch => s.onPreLinkageResponse d out batch
  | .shuffleTimer => .ok (s.onShuffleTimer d out)
  | .certRequest device i items => s.onCertRequest c d out device i items
  | .certResponse device i credentials => .ok (s.onCertResponse d out device i credentials)
  | .batchDownloadRequest device i => .ok (s.onBatchDownloadRequest d out device i)
  | .batchDownload device i credentials => s.onBatchDownload d out device i credentials
  | .report r => .ok (s.onReport d out r)
  | .reportShuffleTimer => .ok (s.onReportShuffleTimer d out)
  | .crlPublishTimer => .ok (s.onCrlPublishTimer d out)
  | .pcaLookupRequest i lv => .ok (s.onPcaLookupRequest d out i lv)
  | .pcaLookupResponse found => .ok (s.onPcaLookupResponse d out found)
  | .sameDeviceRequest la a b => .ok (s.onSameDeviceRequest d out la a b)
  | .sameDeviceResponse la same => s.onSameDeviceResponse d out la same
  | .blocklistRequest hash => .ok (s.onBlocklistRequest d out hash)
  | .blocklistResponse known lci1 lci2 => .ok (s.onBlocklistResponse d out known lci1 lci2)
  | .seedRequest la lci i => .ok (s.onSeedRequest c d out la lci i)
  | .seedResponse la laId seed i => .ok (s.onSeedResponse out la laId seed i)
  | .crlAppend i la1 la2 jmax => .ok (s.onCrlAppend d out i la1 la2 jmax)
  | .crlPublish entries => .ok (s.onCrlPublish d out entries)
  | .crlDownloadRequest device => .ok (s.onCrlDownloadRequest d out device)
  | .crlDownload device entries => s.onCrlDownload c d out device entries
  | .crlAirBroadcast device => .ok (s.onCrlAirBroadcast d out device)

end ScmsState

end V2xw.Scms
