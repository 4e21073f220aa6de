import V2xw.Scms.Handle
import V2xw.Scms.KernelSpec

set_option linter.unusedSectionVars false

/-!
# What handling a message leaves alone

The messages of the deployment fall into families, and a family works on its own part of the state:
provisioning on the Registration Authority's jobs and the certificates, resolution on the case and
the blocklist, publication on the copies of the list, distribution on what a device makes of it.
Handling a message posts messages of its own family, except that an appended entry starts a
publication.

## Main definitions

* `ScmsMsg.family` — the family of a message.

## Main results

* `handle_frame`, `handle_frame_provisioning`, `handle_frame_resolution`,
  `handle_frame_publication`, `handle_frame_distribution` — what the other families leave alone.
* `handle_posts` — the families of the messages a handler posts.
* `handle_sends` — timers are never sent.
-/

namespace V2xw.Scms

open V2xw.Core ScmsState

variable {S P : Type} [AddCommGroup S] [AddCommGroup P]

/-! ## Families -/

/-- The families of messages. -/
inductive Family where
  | enrolment
  | provisioning
  | reporting
  | resolution
  | publication
  | distribution
  deriving DecidableEq

/-- The family of a message. -/
def ScmsMsg.family : ScmsMsg S P → Family
  | .enrolRequest _ | .enrolForward _ | .enrolResponse _ => .enrolment
  | .provisioningRequest _ | .provisioningAck _ _ | .preLinkageRequest _ _ _ _ _
  | .preLinkageResponse _ | .shuffleTimer | .certRequest _ _ _ | .certResponse _ _ _
  | .batchDownloadRequest _ _ | .batchDownload _ _ _ => .provisioning
  | .report _ | .reportShuffleTimer => .reporting
  | .pcaLookupRequest _ _ | .pcaLookupResponse _ | .sameDeviceRequest _ _ _
  | .sameDeviceResponse _ _ | .blocklistRequest _ | .blocklistResponse _ _ _
  | .seedRequest _ _ _ | .seedResponse _ _ _ _ | .crlAppend _ _ _ _ => .resolution
  | .crlPublishTimer | .crlPublish _ => .publication
  | .crlDownloadRequest _ | .crlDownload _ _ | .crlAirBroadcast _ => .distribution

/-- The messages entities set themselves as timers and never send. -/
def ScmsMsg.isTimer : ScmsMsg S P → Bool
  | .shuffleTimer | .reportShuffleTimer | .crlPublishTimer => true
  | _ => false

/-! ## Devices -/

lemma map_insert_device {α : Type} {devices : OrdMap NodeId (DeviceState S P)} {k : NodeId}
    {dev dev' : DeviceState S P} (f : DeviceState S P → α) (hk : devices[k]? = some dev)
    (hf : f dev' = f dev) (n : NodeId) : (devices.insert k dev')[n]?.map f = devices[n]?.map f := by
  rw [OrdMap.get_insert]
  split_ifs with hn
  · rw [← hn, hk, Option.map_some, Option.map_some, hf]
  · rfl

lemma map_modifyDevice {α : Type} (s : ScmsState S P) (k : NodeId)
    (g : DeviceState S P → DeviceState S P) (f : DeviceState S P → α)
    (hf : ∀ dev, f (g dev) = f dev) (n : NodeId) :
    (s.modifyDevice k g).devices[n]?.map f = s.devices[n]?.map f := by
  unfold modifyDevice
  cases hk : s.devices[k]? with
  | none => rfl
  | some dev => exact map_insert_device f hk (hf dev) n

/-- What provisioning changes of a device. -/
def DeviceState.holdings (dev : DeviceState S P) :
    Option (Caterpillar S) × OrdMap Slot (IssuedCredential S P) × Option ProvisioningProgress × ℕ :=
  (dev.caterpillar, dev.credentials, dev.provisioning, dev.downloadRetries)

/-- What the distribution of lists changes of a device. -/
def DeviceState.stance (dev : DeviceState S P) : List CrlLinkageEntry × Bool :=
  (dev.crl, dev.silenced)

/-! ## Charges post nothing -/

namespace Outbox

variable {M : Type} (out : Outbox M) (n : ℕ)

@[simp]
lemma sends_sign : (out.sign n).sends = out.sends := rfl

@[simp]
lemma sends_verify : (out.verify n).sends = out.sends := rfl

@[simp]
lemma sends_scalarMults : (out.scalarMults n).sends = out.sends := rfl

@[simp]
lemma sends_aes : (out.aes n).sends = out.sends := rfl

@[simp]
lemma sends_hashes : (out.hashes n).sends = out.sends := rfl

@[simp]
lemma timers_sign : (out.sign n).timers = out.timers := rfl

@[simp]
lemma timers_verify : (out.verify n).timers = out.timers := rfl

@[simp]
lemma timers_scalarMults : (out.scalarMults n).timers = out.timers := rfl

@[simp]
lemma timers_aes : (out.aes n).timers = out.timers := rfl

@[simp]
lemma timers_hashes : (out.hashes n).timers = out.timers := rfl

end Outbox

/-! ## Loops over the outbox -/

lemma foldl_send_spec {α M : Type} (f : Outbox M → α → Outbox M) (g : α → PendingSend M)
    (h : ∀ out a, (f out a).sends = out.sends ++ [g a] ∧ (f out a).timers = out.timers)
    (l : List α) : ∀ out : Outbox M, (l.foldl f out).sends = out.sends ++ l.map g ∧
      (l.foldl f out).timers = out.timers := by
  induction l with
  | nil => simp
  | cons a l ih =>
    intro out
    obtain ⟨hs, ht⟩ := ih (f out a)
    rw [List.foldl_cons, hs, ht, (h out a).1, (h out a).2, List.append_assoc]
    exact ⟨rfl, rfl⟩

/-- Releasing jobs sends their certificate requests and nothing else. -/
lemma foldl_releaseJob_spec (s : ScmsState S P) (d : Delivery (ScmsMsg S P))
    (jobs : List (ProvisioningJob P)) : ∀ out : Outbox (ScmsMsg S P),
      (jobs.foldl (releaseJob s d) out).sends = out.sends ++ jobs.flatMap (fun job =>
        (periodRange job.startI job.periods).map fun i =>
          ⟨nodes.pca, .certRequest job.device i (itemsOf job i), "cert-request",
            s.sizes.certRequest (sat32 (itemsOf job i).length), .backendNet, job.flow, job.run⟩) ∧
      (jobs.foldl (releaseJob s d) out).timers = out.timers := by
  induction jobs with
  | nil => simp
  | cons job jobs ih =>
    intro out
    obtain ⟨hs, ht⟩ := ih (releaseJob s d out job)
    obtain ⟨hs', ht'⟩ := foldl_send_spec
      (fun (out : Outbox (ScmsMsg S P)) i =>
        out.send nodes.pca (.certRequest job.device i (itemsOf job i)) "cert-request"
          (s.sizes.certRequest (sat32 (itemsOf job i).length)) .backendNet job.flow job.run)
      (fun i => ⟨nodes.pca, .certRequest job.device i (itemsOf job i), "cert-request",
        s.sizes.certRequest (sat32 (itemsOf job i).length), .backendNet, job.flow, job.run⟩)
      (fun _ _ => ⟨rfl, rfl⟩) (periodRange job.startI job.periods)
      (out.stageAt .shuffled d.dst none job.flow job.run)
    rw [List.foldl_cons, hs, ht, List.flatMap_cons, ← List.append_assoc]
    unfold releaseJob
    rw [hs', ht']
    exact ⟨rfl, rfl⟩

lemma foldl_reports_spec (s : ScmsState S P) (d : Delivery (ScmsMsg S P))
    (reports : List (FlowRun × ReportSubmission)) (out : Outbox (ScmsMsg S P)) :
      (reports.foldl (fun out r =>
        out.stageAt .shuffled d.dst none .report r.1
          |>.send nodes.ma (.report r.2) "report-forward" s.sizes.report .backendNet .report r.1)
        out).sends = out.sends ++ reports.map (fun r =>
          ⟨nodes.ma, .report r.2, "report-forward", s.sizes.report, .backendNet, .report, r.1⟩) ∧
      (reports.foldl (fun out r =>
        out.stageAt .shuffled d.dst none .report r.1
          |>.send nodes.ma (.report r.2) "report-forward" s.sizes.report .backendNet .report r.1)
        out).timers = out.timers :=
  foldl_send_spec _ _ (fun _ _ => by exact ⟨rfl, rfl⟩) reports out

lemma certifyAll_frame (c : Crypto S P) (xs : List (OpenedItem P)) :
    ∀ s : ScmsState S P, ∃ rng pca, (certifyAll c s xs).2 = { s with rng := rng, pca := pca } := by
  induction xs with
  | nil => exact fun s => ⟨s.rng, s.pca, rfl⟩
  | cons x xs ih =>
    intro s
    obtain ⟨rng, pca, h⟩ := ih (certify c s x).2
    exact ⟨rng, pca, h⟩

/-! ## Frames -/

lemma eq_of_ok {x : Handled S P} {s' : ScmsState S P} {out : Outbox (ScmsMsg S P)}
    (h : (.ok x : Except Fail (Handled S P)) = .ok (s', out)) : x.1 = s' ∧ x.2 = out := by
  cases h
  exact ⟨rfl, rfl⟩

variable {c : Crypto S P} {s s' : ScmsState S P} {d : Delivery (ScmsMsg S P)}
  {out out' : Outbox (ScmsMsg S P)}

/-- Certifying changes the issuer and the random streams only, and sends the certificates. -/
lemma onCertRequest_spec {device : NodeId} {i : ℕ} {items : List (CertRequestItem P)}
    (h : s.onCertRequest c d out device i items = .ok (s', out')) :
    ∃ rng pca creds size, s' = { s with rng, pca } ∧ out'.timers = out.timers ∧
      out'.sends = out.sends ++
        [⟨nodes.ra, .certResponse device i creds, "cert-response", size, .backendNet, d.flow,
          d.run⟩] := by
  unfold onCertRequest at h
  cases hopen : items.mapM (openItem d.dst) with
  | none => simp [hopen] at h
  | some opened =>
    obtain ⟨rng, pca, hframe⟩ := certifyAll_frame c opened s
    simp only [hopen, hframe, Except.ok.injEq, Prod.mk.injEq] at h
    obtain ⟨rfl, rfl⟩ := h
    refine ⟨_, _, (certifyAll c s opened).1, s.sizes.certBatch (sat32 items.length), rfl, ?_⟩
    split_ifs <;> exact ⟨rfl, rfl⟩

/-- No message changes the parameters, the sizes or the run numbers. -/
lemma handle_frame (h : s.handle c d out = .ok (s', out')) :
    s'.params = s.params ∧ s'.sizes = s.sizes ∧ s'.nextRun = s.nextRun := by
  unfold handle at h
  cases hm : d.msg <;> simp only [hm, Except.ok.injEq] at h
  case certRequest device i items =>
    obtain ⟨rng, pca, -, -, rfl, -⟩ := onCertRequest_spec h
    exact ⟨rfl, rfl, rfl⟩
  all_goals
    simp only [onEnrolRequest, onEnrolForward, onEnrolResponse, onProvisioningRequest,
      onProvisioningRequestAtRa, onProvisioningAck, onPreLinkageRequest, onPreLinkageResponse,
      onShuffleTimer, onCertResponse, onBatchDownloadRequest, onBatchDownload, onReport,
      onReportShuffleTimer, onPcaLookupRequest, onPcaLookupResponse, onSameDeviceRequest,
      onSameDeviceResponse, onBlocklistRequest, onBlocklistResponse, onSeedRequest, onSeedResponse,
      onCrlAppend, onCrlPublishTimer, onCrlPublish, onCrlDownloadRequest, onCrlDownload,
      onCrlAirBroadcast, modifyDevice, decideCase] at h
    repeat' split at h
  all_goals
    first
    | (cases h; done)
    | (cases h; exact ⟨rfl, rfl, rfl⟩)

/-- Only provisioning works on the jobs, the records, the chains, the certificates and what a device
holds of them. -/
lemma handle_frame_provisioning (h : s.handle c d out = .ok (s', out'))
    (hf : d.msg.family ≠ .provisioning) :
    s'.ra.jobs = s.ra.jobs ∧ s'.ra.repos = s.ra.repos ∧ s'.ra.requests = s.ra.requests ∧
      s'.ra.refused = s.ra.refused ∧ s'.ra.shuffleArmed = s.ra.shuffleArmed ∧ s'.la = s.la ∧
      s'.pca = s.pca ∧ s'.rng = s.rng ∧
      ∀ n : NodeId, s'.devices[n]?.map DeviceState.holdings =
        s.devices[n]?.map DeviceState.holdings := by
  unfold handle at h
  cases hm : d.msg <;>
    simp only [hm, ScmsMsg.family, ne_eq, not_true_eq_false, reduceCtorEq, not_false_eq_true,
      Except.ok.injEq] at hf h
  case enrolResponse device =>
    unfold onEnrolResponse modifyDevice at h
    cases hdev : s.devices[device]? with
    | none => rw [hdev] at h; cases h; exact ⟨rfl, rfl, rfl, rfl, rfl, rfl, rfl, rfl, fun _ => rfl⟩
    | some dev =>
      rw [hdev] at h
      cases h
      exact ⟨rfl, rfl, rfl, rfl, rfl, rfl, rfl, rfl,
        map_insert_device DeviceState.holdings hdev (by rfl)⟩
  case crlDownload device entries =>
    unfold onCrlDownload at h
    cases hdev : s.devices[device]? with
    | none => simp [hdev] at h
    | some dev =>
      simp only [hdev, Except.ok.injEq] at h
      cases h
      exact ⟨rfl, rfl, rfl, rfl, rfl, rfl, rfl, rfl,
        map_insert_device DeviceState.holdings hdev (by rfl)⟩
  all_goals
    simp only [onEnrolRequest, onEnrolForward, onReport, onReportShuffleTimer, onPcaLookupRequest,
      onPcaLookupResponse, onSameDeviceRequest, onSameDeviceResponse, onBlocklistRequest,
      onBlocklistResponse, onSeedRequest, onSeedResponse, onCrlAppend, onCrlPublishTimer,
      onCrlPublish, onCrlDownloadRequest, onCrlAirBroadcast, decideCase] at h
    repeat' split at h
  all_goals
    first
    | (cases h; done)
    | (cases h; exact ⟨rfl, rfl, rfl, rfl, rfl, rfl, rfl, rfl, fun _ => rfl⟩)

/-- Only resolution works on the case, the decisions, the blocklist and the generator's list. -/
lemma handle_frame_resolution (h : s.handle c d out = .ok (s', out'))
    (hf : d.msg.family ≠ .resolution) :
    s'.ma.case = s.ma.case ∧ s'.ma.decisions = s.ma.decisions ∧
      s'.ra.blocklist = s.ra.blocklist ∧ s'.crlg.entries = s.crlg.entries := by
  unfold handle at h
  cases hm : d.msg <;>
    simp only [hm, ScmsMsg.family, ne_eq, not_true_eq_false, reduceCtorEq, not_false_eq_true,
      Except.ok.injEq] at hf h
  case certRequest device i items =>
    obtain ⟨rng, pca, -, -, rfl, -⟩ := onCertRequest_spec h
    exact ⟨rfl, rfl, rfl, rfl⟩
  all_goals
    simp only [onEnrolRequest, onEnrolForward, onEnrolResponse, onProvisioningRequest,
      onProvisioningRequestAtRa, onProvisioningAck, onPreLinkageRequest, onPreLinkageResponse,
      onShuffleTimer, onCertResponse, onBatchDownloadRequest, onBatchDownload, onReport,
      onReportShuffleTimer, onCrlPublishTimer, onCrlPublish, onCrlDownloadRequest, onCrlDownload,
      onCrlAirBroadcast, modifyDevice] at h
    repeat' split at h
  all_goals
    first
    | (cases h; done)
    | (cases h; exact ⟨rfl, rfl, rfl, rfl⟩)

/-- Only publication works on the copies of the list. -/
lemma handle_frame_publication (h : s.handle c d out = .ok (s', out'))
    (hf : d.msg.family ≠ .publication) :
    s'.crlStore = s.crlStore ∧ s'.crlBroadcast = s.crlBroadcast ∧
      (d.msg.family ≠ .resolution → s'.crlg = s.crlg) := by
  unfold handle at h
  cases hm : d.msg <;>
    simp only [hm, ScmsMsg.family, ne_eq, not_true_eq_false, reduceCtorEq, not_false_eq_true,
      Except.ok.injEq] at hf h
  case certRequest device i items =>
    obtain ⟨rng, pca, -, -, rfl, -⟩ := onCertRequest_spec h
    exact ⟨rfl, rfl, fun _ => rfl⟩
  all_goals
    simp only [onEnrolRequest, onEnrolForward, onEnrolResponse, onProvisioningRequest,
      onProvisioningRequestAtRa, onProvisioningAck, onPreLinkageRequest, onPreLinkageResponse,
      onShuffleTimer, onCertResponse, onBatchDownloadRequest, onBatchDownload, onReport,
      onReportShuffleTimer, onPcaLookupRequest, onPcaLookupResponse, onSameDeviceRequest,
      onSameDeviceResponse, onBlocklistRequest, onBlocklistResponse, onSeedRequest, onSeedResponse,
      onCrlAppend, onCrlDownloadRequest, onCrlDownload, onCrlAirBroadcast, modifyDevice,
      decideCase] at h
    repeat' split at h
  all_goals
    first
    | (cases h; done)
    | (cases h; exact ⟨rfl, rfl, fun _ => rfl⟩)
    | (cases h; exact ⟨rfl, rfl, fun hne => absurd rfl hne⟩)

/-- The messages that change a device. -/
def ScmsMsg.changesDevice : ScmsMsg S P → Bool
  | .enrolResponse _ | .batchDownload _ _ _ | .crlDownload _ _ => true
  | _ => false

/-- The other messages change no device. -/
lemma handle_frame_devices (h : s.handle c d out = .ok (s', out'))
    (hm : d.msg.changesDevice = false) : s'.devices = s.devices := by
  unfold handle at h
  cases hmsg : d.msg <;> simp only [hmsg, ScmsMsg.changesDevice, Bool.true_eq_false,
    Except.ok.injEq] at hm h
  case certRequest device i items =>
    obtain ⟨rng, pca, -, -, rfl, -⟩ := onCertRequest_spec h
    rfl
  all_goals
    simp only [onEnrolRequest, onEnrolForward, onProvisioningRequest,
      onProvisioningRequestAtRa, onProvisioningAck, onPreLinkageRequest, onPreLinkageResponse,
      onShuffleTimer, onCertResponse, onBatchDownloadRequest, onReport,
      onReportShuffleTimer, onPcaLookupRequest, onPcaLookupResponse, onSameDeviceRequest,
      onSameDeviceResponse, onBlocklistRequest, onBlocklistResponse, onSeedRequest, onSeedResponse,
      onCrlAppend, onCrlPublishTimer, onCrlPublish, onCrlDownloadRequest, onCrlAirBroadcast,
      decideCase] at h
    repeat' split at h
  all_goals
    first
    | (cases h; done)
    | (cases h; rfl)

/-- Only distribution works on the list a device holds and on its silence. -/
lemma handle_frame_distribution (h : s.handle c d out = .ok (s', out'))
    (hf : d.msg.family ≠ .distribution) (n : NodeId) :
    s'.devices[n]?.map DeviceState.stance = s.devices[n]?.map DeviceState.stance := by
  cases hm : d.msg.changesDevice with
  | false => rw [handle_frame_devices h hm]
  | true =>
    unfold handle at h
    cases hmsg : d.msg <;> simp only [hmsg, ScmsMsg.changesDevice, ScmsMsg.family, ne_eq,
      not_true_eq_false, Bool.false_eq_true, Except.ok.injEq] at hf hm h
    case enrolResponse device =>
      cases h
      exact map_modifyDevice s device _ DeviceState.stance (fun _ => by rfl) n
    case batchDownload device i credentials =>
      unfold onBatchDownload at h
      cases hdev : s.devices[device]? with
      | none => simp [hdev] at h
      | some dev =>
        simp only [hdev] at h
        repeat' split at h
        all_goals
          cases h
          exact map_insert_device DeviceState.stance hdev (by rfl) n

/-! ## Posts -/

/-- Timers are never sent. -/
lemma handle_sends {cost : OpDescriptor → Duration}
    (h : s.handle c d (Outbox.new cost) = .ok (s', out')) :
    ∀ x ∈ out'.sends, x.msg.isTimer = false := by
  unfold handle at h
  cases hm : d.msg <;> simp only [hm, Except.ok.injEq] at h
  case shuffleTimer =>
    cases h
    rw [(foldl_releaseJob_spec s d _ _).1]
    simp only [Outbox.sends_new, List.nil_append, List.mem_flatMap, List.mem_map]
    rintro x ⟨job, -, i, -, rfl⟩
    rfl
  case reportShuffleTimer =>
    cases h
    rw [(foldl_reports_spec s d _ _).1]
    simp only [Outbox.sends_new, List.nil_append, List.mem_map]
    rintro x ⟨r, -, rfl⟩
    rfl
  case certRequest device i items =>
    obtain ⟨-, -, creds, size, -, -, hsends⟩ := onCertRequest_spec h
    simp [hsends, ScmsMsg.isTimer]
  all_goals
    simp only [onEnrolRequest, onEnrolForward, onEnrolResponse, onProvisioningRequest,
      onProvisioningRequestAtRa, onProvisioningAck, onPreLinkageRequest, onPreLinkageResponse,
      onCertResponse, onBatchDownloadRequest, onBatchDownload, onReport, onPcaLookupRequest,
      onPcaLookupResponse, onSameDeviceRequest, onSameDeviceResponse, onBlocklistRequest,
      onBlocklistResponse, onSeedRequest, onSeedResponse, onCrlAppend, onCrlPublishTimer,
      onCrlPublish, onCrlDownloadRequest, onCrlDownload, onCrlAirBroadcast, decideCase,
      preLinkageRequestTo, askSameDevice, askSeed, publish] at h
    repeat' split at h
  all_goals
    first
    | (cases h; done)
    | (cases h; simp [ScmsMsg.isTimer])

/-- A message posts messages of its own family, and an appended entry starts a publication. -/
lemma handle_posts {cost : OpDescriptor → Duration} (node : NodeId)
    (h : s.handle c d (Outbox.new cost) = .ok (s', out')) :
    ∀ q ∈ out'.posts node, q.msg.family = d.msg.family ∨
      d.msg.family = .resolution ∧ q.msg.family = .publication := by
  unfold handle at h
  cases hm : d.msg <;> simp only [hm, Except.ok.injEq] at h
  case shuffleTimer =>
    cases h
    obtain ⟨hsends, htimers⟩ := foldl_releaseJob_spec s d (s.ra.jobs.filter released)
      (Outbox.new cost)
    simp only [Outbox.posts, hsends, htimers, Outbox.sends_new, Outbox.timers_new,
      List.map_nil, List.nil_append, List.mem_map, List.mem_flatMap]
    rintro q ⟨x, ⟨job, -, i, -, rfl⟩, rfl⟩
    exact .inl rfl
  case reportShuffleTimer =>
    cases h
    obtain ⟨hsends, htimers⟩ := foldl_reports_spec s d s.ra.reports (Outbox.new cost)
    simp only [Outbox.posts, hsends, htimers, Outbox.sends_new,
      Outbox.timers_new, List.map_nil, List.nil_append, List.mem_map]
    rintro q ⟨x, ⟨r, -, rfl⟩, rfl⟩
    exact .inl rfl
  case certRequest device i items =>
    obtain ⟨-, -, creds, size, -, htimers, hsends⟩ := onCertRequest_spec h
    simp [hsends, htimers, ScmsMsg.family, Outbox.posts, Outbox.sendPost]
  all_goals
    simp only [onEnrolRequest, onEnrolForward, onEnrolResponse, onProvisioningRequest,
      onProvisioningRequestAtRa, onProvisioningAck, onPreLinkageRequest, onPreLinkageResponse,
      onCertResponse, onBatchDownloadRequest, onBatchDownload, onReport, onPcaLookupRequest,
      onPcaLookupResponse, onSameDeviceRequest, onSameDeviceResponse, onBlocklistRequest,
      onBlocklistResponse, onSeedRequest, onSeedResponse, onCrlAppend, onCrlPublishTimer,
      onCrlPublish, onCrlDownloadRequest, onCrlDownload, onCrlAirBroadcast, decideCase,
      preLinkageRequestTo, askSameDevice, askSeed, publish] at h
    repeat' split at h
  all_goals
    first
    | (cases h; done)
    | (cases h; simp [ScmsMsg.family, Outbox.posts, Outbox.timerPost, Outbox.sendPost])

end V2xw.Scms
