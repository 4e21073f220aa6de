import Mathlib.Algebra.Order.BigOperators.Group.List
import Mathlib.Algebra.Order.Group.Nat
import V2xw.Scms.System

set_option linter.unusedSectionVars false

/-!
# The backend goes quiet

`ScmsRun::run` handles one delivery after another until nothing is scheduled. Every message has a
weight, and the state a potential: the certificate requests of the jobs that wait for the shuffle,
the reports that wait for theirs, the polls and the batches a device has left, and the second lookup
of a case. Handling a message costs more than what it posts. The polls of a device are counted in a
`u32` that starts over, so that an answer that is not polled for again pays for a whole round of the
counter; and where the limit is the largest number the counter never exceeds it.

## Main definitions

* `Post.weight`, `ScmsState.potential` — the weights and the potential.
* `Straight` — a message does not come back to the entity that passes it on.
* `Patient` — the polls of the devices are limited.
* `Answerable` — the answers in flight do not decide a case before its first lookup.

## Main results

* `handle_load` — handling a message lowers the load.
* `run_ends` — a run ends, with an error or with nothing scheduled.
* `run_panics` — a run over two overlapping investigations.
-/

namespace V2xw.Scms

open V2xw.Core ScmsRun ScmsState

variable {S P : Type} [AddCommGroup S] [AddCommGroup P]

/-! ## Weights -/

/-- More than a device can poll before its counter starts over, three for each poll. -/
def pollRound : ℕ := 3 * 2 ^ 32

/-- The weight of a request for periods: the acknowledgement, the requests to the Linkage
Authorities and the certificate requests that come of it. -/
def requestWeight (startI periods : ℕ) : ℕ := pollRound + 9 + 2 * (periodRange startI periods).length

/-- The weight of a message in flight. -/
def Post.weight (p : ScmsPost S P) : ℕ :=
  match p.msg with
  | .enrolRequest _ => if p.dst = nodes.dcm then 3 else 4
  | .enrolForward _ => 2
  | .enrolResponse _ => 1
  | .provisioningRequest req =>
    requestWeight req.startI req.periods +
      if p.dst = nodes.ra then 1 else if p.dst = nodes.lop then 2 else 3
  | .provisioningAck _ _ => pollRound + 3
  | .preLinkageRequest _ _ _ _ _ => 3
  | .preLinkageResponse _ => 2
  | .shuffleTimer => 1
  | .certRequest _ _ _ => 2
  | .certResponse _ _ _ => 1
  | .batchDownloadRequest _ _ => pollRound + if p.dst = nodes.ra then 1 else 2
  | .batchDownload _ _ _ => pollRound
  | .report _ =>
    if p.dst = nodes.ma then 1 else if p.dst = nodes.ra then 3
    else if p.dst = nodes.lop then 4 else 5
  | .reportShuffleTimer => 1
  | .crlPublishTimer => 3
  | .pcaLookupRequest _ _ => if p.dst = nodes.ma then 35 else 34
  | .pcaLookupResponse _ => 33
  | .sameDeviceRequest _ _ _ => 16
  | .sameDeviceResponse _ _ => 15
  | .blocklistRequest _ => 14
  | .blocklistResponse _ _ _ => 13
  | .seedRequest _ _ _ => 6
  | .seedResponse _ _ _ _ => 5
  | .crlAppend _ _ _ _ => 4
  | .crlPublish _ => 1
  | .crlDownloadRequest _ => if p.dst = nodes.crlStore then 2 else 3
  | .crlDownload _ _ => 1
  | .crlAirBroadcast _ => 2

/-- The certificate requests a job still has to make. -/
def ProvisioningJob.potential (job : ProvisioningJob P) : ℕ :=
  if job.sent then 0 else 2 * (periodRange job.startI job.periods).length

/-- The polls until the counter of a device reaches the limit. -/
def pollsLeft (limit retries : ℕ) : ℕ := (limit + (2 ^ 32 - 1) * retries) % 2 ^ 32

/-- The polls and the batches a device has left. -/
def DeviceState.potential (limit : ℕ) (dev : DeviceState S P) : ℕ :=
  3 * pollsLeft limit dev.downloadRetries +
    dev.provisioning.elim 0 fun p => 3 * (p.periods - p.downloaded)

/-- The second lookup a case may still ask for. -/
def Case.potential (case : Case) : ℕ := if case.lookups = [] then 2 else 0

/-- What the entities may still set in motion. -/
def ScmsState.potential (s : ScmsState S P) : ℕ :=
  s.devices.total (DeviceState.potential s.params.maxDownloadPolls) +
    (s.ra.jobs.map ProvisioningJob.potential).sum + s.ra.reports.length +
    s.ma.case.elim 0 Case.potential

/-! ## Messages that do not come back -/

/-- A message whose device is none of the entities that pass it on, or one without a link to where
its own messages go. -/
def Straight (net : BackendNet) : ScmsMsg S P → Prop
  | .enrolRequest device => device = nodes.dcm → net.link nodes.dcm nodes.dcm = none
  | .provisioningRequest req =>
    req.device ≠ nodes.ra ∧ (req.device = nodes.lop → net.link nodes.lop nodes.lop = none)
  | .provisioningAck device _ | .batchDownloadRequest device _ | .batchDownload device _ _ =>
    device ≠ nodes.ra
  | .report r =>
    r.reporter ≠ nodes.ra ∧
      (r.reporter = nodes.lop ∨ r.reporter = nodes.ma → net.link r.reporter nodes.lop = none)
  | .crlDownloadRequest device =>
    device = nodes.crlStore → net.link nodes.crlStore nodes.crlStore = none
  | _ => True

/-- Whether a message may come to a poll. -/
def ScmsMsg.polls : ScmsMsg S P → Bool
  | .provisioningRequest _ | .provisioningAck _ _ | .batchDownloadRequest _ _
  | .batchDownload _ _ _ => true
  | _ => false

/-! ## What an outbox weighs -/

namespace Outbox

/-- The weights of what an outbox posts. -/
def weight (node : NodeId) (out : Outbox (ScmsMsg S P)) : ℕ :=
  ((out.posts node).map Post.weight).sum

variable (node : NodeId) (out : Outbox (ScmsMsg S P))

@[simp]
lemma weight_new (cost : OpDescriptor → Duration) :
    (new cost : Outbox (ScmsMsg S P)).weight node = 0 := rfl

@[simp]
lemma weight_compute (op : OpDescriptor) : (out.compute op).weight node = out.weight node := rfl

@[simp]
lemma weight_sign (n : ℕ) : (out.sign n).weight node = out.weight node := rfl

@[simp]
lemma weight_verify (n : ℕ) : (out.verify n).weight node = out.weight node := rfl

@[simp]
lemma weight_scalarMults (n : ℕ) : (out.scalarMults n).weight node = out.weight node := rfl

@[simp]
lemma weight_aes (n : ℕ) : (out.aes n).weight node = out.weight node := rfl

@[simp]
lemma weight_hashes (n : ℕ) : (out.hashes n).weight node = out.weight node := rfl

@[simp]
lemma weight_stageAt (stage : StageId) (n : NodeId) (size : Option ℕ) (flow : FlowId)
    (run : FlowRun) : (out.stageAt stage n size flow run).weight node = out.weight node := rfl

@[simp]
lemma weight_send (dst : NodeId) (msg : ScmsMsg S P) (step : String) (size : ℕ)
    (transport : Transport) (flow : FlowId) (run : FlowRun) :
    (out.send dst msg step size transport flow run).weight node =
      out.weight node + Post.weight ⟨node, dst, msg, flow, run⟩ := by
  simp only [weight, posts, sends_send, timers_send, List.map_append, List.sum_append,
    List.map_cons, List.map_nil, List.sum_cons, List.sum_nil, sendPost]
  omega

@[simp]
lemma weight_startTimer (delay : Duration) (msg : ScmsMsg S P) (flow : FlowId) (run : FlowRun) :
    (out.startTimer delay msg flow run).weight node =
      out.weight node + Post.weight ⟨node, node, msg, flow, run⟩ := by
  simp only [weight, posts, sends_startTimer, timers_startTimer, List.map_append, List.sum_append,
    List.map_cons, List.map_nil, List.sum_cons, List.sum_nil, timerPost]
  omega

end Outbox

/-! ## One delivery -/

section Handle

variable {c : Crypto S P} {s s' : ScmsState S P} {d : Delivery (ScmsMsg S P)}
  {out out' : Outbox (ScmsMsg S P)}

lemma pollsLeft_succ {limit : ℕ} (retries : ℕ) (hlimit : limit + 1 < 2 ^ 32) :
    pollsLeft limit (wrap32 (retries + 1)) < 2 ^ 32 ∧
      (wrap32 (retries + 1) ≤ limit →
        pollsLeft limit (wrap32 (retries + 1)) + 1 = pollsLeft limit retries) := by
  unfold pollsLeft wrap32
  omega

/-- Releasing jobs turns their potential into certificate requests. -/
lemma sum_released (jobs : List (ProvisioningJob P)) :
    ((jobs.map fun job => if released job then { job with sent := true } else job).map
      ProvisioningJob.potential).sum +
      ((jobs.filter released).map fun job => 2 * (periodRange job.startI job.periods).length).sum =
    (jobs.map ProvisioningJob.potential).sum := by
  induction jobs with
  | nil => rfl
  | cons job jobs ih =>
    simp only [List.map_cons, List.sum_cons, List.filter_cons]
    cases hrel : released job with
    | false => simp only [Bool.false_eq_true, ↓reduceIte]; omega
    | true =>
      have hsent : job.sent = false := by
        simp only [released, Bool.not_eq_true', Bool.or_eq_false_iff] at hrel
        exact hrel.2
      simp only [↓reduceIte, List.map_cons, List.sum_cons, ProvisioningJob.potential, hsent,
        Bool.false_eq_true]
      omega

lemma nodes_ne : nodes.lop ≠ nodes.ma ∧ nodes.lop ≠ nodes.ra ∧ nodes.ra ≠ nodes.ma ∧
    nodes.pca ≠ nodes.ma := by
  decide

lemma potential_insert_device {k : NodeId} {dev : DeviceState S P}
    (hk : s.devices[k]? = some dev) (dev' : DeviceState S P) :
    ({ s with devices := s.devices.insert k dev' } : ScmsState S P).potential +
        dev.potential s.params.maxDownloadPolls =
      s.potential + dev'.potential s.params.maxDownloadPolls := by
  have hsum := OrdMap.total_insert (DeviceState.potential s.params.maxDownloadPolls) hk dev'
  simp only [ScmsState.potential]
  omega

/-- Enrolment, publication and distribution lower the load. -/
lemma handle_load_simple {cost : OpDescriptor → Duration} {net : BackendNet}
    (h : s.handle c d (Outbox.new cost) = .ok (s', out')) (hs : Straight net d.msg)
    (hlinked : ∀ x ∈ out'.sends, (net.link d.dst x.dst).isSome)
    (hf : d.msg.family = .enrolment ∨ d.msg.family = .publication ∨ d.msg.family = .distribution) :
    s'.potential + out'.weight d.dst < s.potential + d.post.weight := by
  unfold handle at h
  cases hm : d.msg <;> simp only [hm, ScmsMsg.family, reduceCtorEq, or_self, Except.ok.injEq] at hf h
  case enrolRequest device =>
    simp only [onEnrolRequest] at h
    rw [hm] at hs
    split_ifs at h with hdst
    · cases h
      have hne : device ≠ nodes.dcm := by
        intro heq
        have hlink := hlinked _ (List.mem_append_right _ List.mem_cons_self)
        rw [hdst, heq, hs heq] at hlink
        cases hlink
      simp [Post.weight, Delivery.post, hm, hdst, hne]
    · cases h
      simp only [Outbox.weight_send, Outbox.weight_stageAt, Outbox.weight_sign,
        Outbox.weight_verify, Outbox.weight_new, Post.weight, Delivery.post, hm]
      split_ifs <;> omega
  case enrolResponse device =>
    cases h
    have hsame : (s.modifyDevice device fun dev => { dev with enrolled := true }).potential =
        s.potential := by
      unfold modifyDevice
      cases hdev : s.devices[device]? with
      | none => rfl
      | some dev => exact Nat.add_right_cancel (potential_insert_device hdev _)
    simp [hsame, Post.weight, Delivery.post, hm]
  case crlDownload device entries =>
    unfold onCrlDownload at h
    cases hdev : s.devices[device]? with
    | none => simp [hdev] at h
    | some dev =>
      simp only [hdev, Except.ok.injEq] at h
      cases h
      have hsame := Nat.add_right_cancel
        (potential_insert_device hdev (enforce c (s.listFrom d.src) dev))
      simp [hsame, Post.weight, Delivery.post, hm]
  case crlDownloadRequest device =>
    simp only [onCrlDownloadRequest] at h
    rw [hm] at hs
    split_ifs at h with hdst
    · cases h
      have hne : device ≠ nodes.crlStore := by
        intro heq
        have hlink := hlinked _ (List.mem_append_right _ List.mem_cons_self)
        rw [hdst, heq, hs heq] at hlink
        cases hlink
      simp [Post.weight, Delivery.post, hm, hdst, hne]
    · cases h
      simp only [Outbox.weight_send, Outbox.weight_new, Post.weight, Delivery.post, hm]
      split_ifs <;> omega
  case crlPublish entries =>
    simp only [onCrlPublish] at h
    split_ifs at h <;> cases h <;> simp [ScmsState.potential, Post.weight, Delivery.post, hm]
  all_goals
    cases h
    simp [ScmsState.potential, publish, Post.weight, Delivery.post, hm]

/-- Reporting lowers the load. -/
lemma handle_load_reporting {cost : OpDescriptor → Duration} {net : BackendNet}
    (h : s.handle c d (Outbox.new cost) = .ok (s', out')) (hs : Straight net d.msg)
    (hlinked : ∀ x ∈ out'.sends, (net.link d.dst x.dst).isSome)
    (hf : d.msg.family = .reporting) :
    s'.potential + out'.weight d.dst < s.potential + d.post.weight := by
  unfold handle at h
  cases hm : d.msg <;> simp only [hm, ScmsMsg.family, reduceCtorEq, Except.ok.injEq] at hf h
  case report r =>
    simp only [onReport] at h
    rw [hm] at hs
    split_ifs at h with hdst hlop hra harmed
    · cases h
      have hne : r.reporter ≠ nodes.lop ∧ r.reporter ≠ nodes.ma := by
        rw [← not_or]
        intro heq
        have hlink := hlinked _ (List.mem_append_right _ List.mem_cons_self)
        rw [hdst, hs.2 heq] at hlink
        cases hlink
      simp only [Outbox.weight_send, Outbox.weight_stageAt, Outbox.weight_sign,
        Outbox.weight_scalarMults, Outbox.weight_new, Post.weight, Delivery.post, hm, hdst,
        if_neg hne.1, if_neg hne.2, if_neg hs.1]
      simp [nodes_ne]
    · cases h
      simp [Post.weight, Delivery.post, hm, hlop, nodes_ne]
    · cases h
      simp [ScmsState.potential, Post.weight, Delivery.post, hm, hra, nodes_ne]
      omega
    · cases h
      simp [ScmsState.potential, Post.weight, Delivery.post, hm, hra, nodes_ne]
      omega
    · cases h
      simp only [ScmsState.potential, Outbox.weight_stageAt, Outbox.weight_verify,
        Outbox.weight_scalarMults, Outbox.weight_new, Post.weight, Delivery.post, hm]
      split_ifs <;> omega
  case reportShuffleTimer =>
    cases h
    obtain ⟨hsends, htimers⟩ := foldl_reports_spec s d s.ra.reports (Outbox.new cost)
    simp only [ScmsState.potential, Outbox.weight, Outbox.posts, hsends, htimers,
      Outbox.sends_new, Outbox.timers_new, List.map_nil, List.nil_append, List.map_map]
    simp [Function.comp_def, Outbox.sendPost, Post.weight, Delivery.post, hm]
    omega

/-- Resolution lowers the load. -/
lemma handle_load_resolution {cost : OpDescriptor → Duration}
    (h : s.handle c d (Outbox.new cost) = .ok (s', out'))
    (hf : d.msg.family = .resolution) :
    s'.potential + out'.weight d.dst < s.potential + d.post.weight := by
  unfold handle at h
  cases hm : d.msg <;> simp only [hm, ScmsMsg.family, reduceCtorEq, Except.ok.injEq] at hf h
  case pcaLookupRequest i lv =>
    simp only [onPcaLookupRequest] at h
    split_ifs at h with hdst
    · cases h
      simp [Post.weight, Delivery.post, hm, hdst, nodes_ne]
    · cases h
      simp [Post.weight, Delivery.post, hm, hdst]
  case pcaLookupResponse found =>
    unfold onPcaLookupResponse at h
    cases hcase : s.ma.case with
    | none =>
      simp only [hcase] at h
      cases h
      simp [Post.weight, Delivery.post, hm]
    | some case =>
      simp only [hcase] at h
      cases found with
      | none =>
        cases h
        simp [ScmsState.potential, withCase, Case.potential, hcase, Post.weight, Delivery.post, hm]
      | some found =>
        -- The second lookup is paid for by the case, which has its first one now.
        dsimp only at h
        split_ifs at h with hdirect
        · cases h
          simp [ScmsState.potential, Case.potential, hcase, Post.weight, Delivery.post, hm]
          omega
        · split at h
          next hone =>
            have hnil : case.lookups = [] := by simpa using congrArg List.length hone
            cases h
            simp [ScmsState.potential, withCase, Case.potential, hcase, hnil, Post.weight,
              Delivery.post, hm, nodes_ne]
          next =>
            cases h
            simp [ScmsState.potential, withCase, Case.potential, hcase, askSameDevice, Post.weight,
              Delivery.post, hm]
            all_goals omega
          next =>
            cases h
            simp [ScmsState.potential, withCase, Case.potential, hcase, Post.weight, Delivery.post,
              hm]
            omega
  case sameDeviceResponse la same =>
    unfold onSameDeviceResponse at h
    cases hcase : s.ma.case with
    | none =>
      simp only [hcase, Except.ok.injEq] at h
      cases h
      simp [Post.weight, Delivery.post, hm]
    | some case =>
      simp only [hcase] at h
      repeat' split at h
      all_goals
        first
        | (cases h; done)
        | (cases h
           simp [ScmsState.potential, withCase, Case.potential, hcase, Post.weight, Delivery.post,
             hm])
  case blocklistRequest hash =>
    cases h
    dsimp only
    split <;> simp [ScmsState.potential, Post.weight, Delivery.post, hm]
  case blocklistResponse known lci1 lci2 =>
    unfold onBlocklistResponse at h
    cases hcase : s.ma.case with
    | none =>
      simp only [hcase] at h
      cases h
      simp [Post.weight, Delivery.post, hm]
    | some case =>
      simp only [hcase] at h
      split_ifs at h
      · cases h
        simp [askSeed, Post.weight, Delivery.post, hm]
      · cases h
        simp [ScmsState.potential, withCase, Case.potential, hcase, Post.weight, Delivery.post, hm]
  case seedRequest la lci i =>
    unfold onSeedRequest at h
    split at h <;> cases h <;> simp [Post.weight, Delivery.post, hm]
  case seedResponse la laId seed i =>
    unfold onSeedResponse at h
    cases hcase : s.ma.case with
    | none =>
      simp only [hcase] at h
      cases h
      simp [Post.weight, Delivery.post, hm]
    | some case =>
      simp only [hcase] at h
      split at h <;> cases h <;>
        simp [ScmsState.potential, withCase, Case.potential, hcase, Post.weight, Delivery.post, hm]
  case crlAppend i la1 la2 jmax =>
    have hcase : (s.endCase).ma.case.elim 0 Case.potential = s.ma.case.elim 0 Case.potential := by
      cases hcase : s.ma.case <;> simp [endCase, hcase, Case.potential]
    unfold onCrlAppend at h
    dsimp only at h
    split_ifs at h <;> cases h <;>
      simp [ScmsState.potential, endCase, publish, Post.weight, Delivery.post, hm] at hcase ⊢ <;>
      omega
  case sameDeviceRequest la a b =>
    cases h
    simp [Post.weight, Delivery.post, hm]

lemma sum_updateJob (run : FlowRun) {f : ProvisioningJob P → ProvisioningJob P}
    (hf : ∀ job, (f job).potential = job.potential) (jobs : List (ProvisioningJob P)) :
    ((updateJob run f jobs).map ProvisioningJob.potential).sum =
      (jobs.map ProvisioningJob.potential).sum := by
  induction jobs with
  | nil => rfl
  | cons a jobs ih =>
    rw [updateJob]
    split_ifs
    · rw [List.map_cons, List.map_cons, hf]
    · rw [List.map_cons, List.map_cons, List.sum_cons, List.sum_cons, ih]

/-- Provisioning lowers the load, if the polls are limited. -/
lemma handle_load_provisioning {cost : OpDescriptor → Duration} {net : BackendNet}
    (h : s.handle c d (Outbox.new cost) = .ok (s', out')) (hs : Straight net d.msg)
    (hlinked : ∀ x ∈ out'.sends, (net.link d.dst x.dst).isSome)
    (hpolls : d.msg.polls = true → s.params.maxDownloadPolls + 1 < 2 ^ 32)
    (hf : d.msg.family = .provisioning) :
    s'.potential + out'.weight d.dst < s.potential + d.post.weight := by
  unfold handle at h
  cases hm : d.msg <;> simp only [hm, ScmsMsg.family, reduceCtorEq, Except.ok.injEq] at hf h
  case provisioningRequest req =>
    simp only [onProvisioningRequest] at h
    rw [hm] at hs
    split_ifs at h with hdst hlop
    · cases h
      have hne : req.device ≠ nodes.lop := by
        intro heq
        have hlink := hlinked _ (List.mem_append_right _ List.mem_cons_self)
        rw [hdst, heq, hs.2 heq] at hlink
        cases hlink
      simp [Post.weight, Delivery.post, hm, hdst, hne, hs.1, nodes_ne]
    · cases h
      simp [Post.weight, Delivery.post, hm, hlop, nodes_ne]
    · unfold onProvisioningRequestAtRa at h
      split_ifs at h
      · cases h
        simp only [ScmsState.potential, Outbox.weight_verify, Outbox.weight_new, Post.weight,
          Delivery.post, hm]
        split_ifs <;> omega
      · cases h
        simp [ScmsState.potential, preLinkageRequestTo, ProvisioningJob.potential, jobOf,
          Post.weight, Delivery.post, hm, requestWeight]
        split_ifs <;> omega
  case provisioningAck device hash =>
    cases h
    simp only [Outbox.weight_startTimer, Outbox.weight_new, Post.weight, Delivery.post, hm]
    split_ifs <;> omega
  case preLinkageRequest device la startI periods jmax =>
    cases h
    simp [ScmsState.potential, Post.weight, Delivery.post, hm]
  case preLinkageResponse batch =>
    have hjobs := sum_updateJob d.run (f := answered batch) (fun _ => by rfl) s.ra.jobs
    unfold onPreLinkageResponse at h
    cases hjob : s.ra.jobs.find? (·.run = d.run) with
    | none => simp [hjob] at h
    | some job =>
      simp only [hjob] at h
      repeat' split at h
      all_goals
        cases h
        simp [ScmsState.potential, hjobs, Post.weight, Delivery.post, hm]
  case shuffleTimer =>
    cases h
    obtain ⟨hsends, htimers⟩ := foldl_releaseJob_spec s d (s.ra.jobs.filter released)
      (Outbox.new cost)
    have hsum := sum_released s.ra.jobs
    have hweight : ((s.ra.jobs.filter released).foldl (releaseJob s d) (Outbox.new cost)).weight
        d.dst = ((s.ra.jobs.filter released).map fun job =>
          2 * (periodRange job.startI job.periods).length).sum := by
      simp only [Outbox.weight, Outbox.posts, hsends, htimers, Outbox.sends_new,
        Outbox.timers_new, List.map_nil, List.nil_append, List.map_map, List.flatMap_def]
      simp [Function.comp_def, Outbox.sendPost, Post.weight, Nat.mul_comm]
    simp only [ScmsState.potential, hweight, Post.weight, Delivery.post, hm]
    omega
  case certRequest device i items =>
    obtain ⟨rng, pca, creds, size, rfl, htimers, hsends⟩ := onCertRequest_spec h
    simp [Outbox.weight, Outbox.posts, hsends, htimers, Outbox.sendPost, ScmsState.potential,
      Post.weight, Delivery.post, hm]
  case certResponse device i creds =>
    have hjobs := sum_updateJob d.run (f := ScmsState.certified) (fun _ => by rfl) s.ra.jobs
    unfold onCertResponse at h
    cases hjob : s.ra.jobs.find? (·.run = d.run) with
    | none =>
      simp only [hjob] at h
      cases h
      simp [ScmsState.potential, Post.weight, Delivery.post, hm]
    | some job =>
      simp only [hjob] at h
      have hfilter := (List.filter_sublist (p := fun j : ProvisioningJob P => j.run ≠ d.run)
        (l := updateJob d.run certified s.ra.jobs)).map ProvisioningJob.potential
      have hle := hfilter.sum_le_sum fun _ _ => Nat.zero_le _
      clear hfilter
      rw [hjobs] at hle
      cases h
      simp only [ScmsState.potential, Post.weight, Delivery.post, hm]
      split_ifs <;> simp only [hjobs, Outbox.weight_stageAt, Outbox.weight_new] <;> omega
  case batchDownloadRequest device i =>
    simp only [onBatchDownloadRequest] at h
    rw [hm] at hs
    split_ifs at h with hdst
    · cases h
      have hne : device ≠ nodes.ra := hs
      simp [Post.weight, Delivery.post, hm, hdst, hne]
    · cases h
      simp only [Outbox.weight_send, Outbox.weight_new, Post.weight, Delivery.post, hm]
      split_ifs <;> omega
  case batchDownload device i creds =>
    have hlimit := hpolls (by rw [hm]; rfl)
    unfold onBatchDownload at h
    cases hdev : s.devices[device]? with
    | none => simp [hdev] at h
    | some dev =>
      simp only [hdev] at h
      split at h
      next hempty =>
        -- A poll less, or an answer that pays for the next round of the counter.
        cases h
        obtain ⟨hround, hpoll⟩ := pollsLeft_succ dev.downloadRetries hlimit
        have hdevice := potential_insert_device hdev
          { dev with downloadRetries := wrap32 (dev.downloadRetries + 1) }
        simp only [DeviceState.potential] at hdevice
        split_ifs with hcap
        · have hleft := hpoll hcap
          simp only [Outbox.weight_startTimer, Outbox.weight_new, Post.weight, Delivery.post, hm]
          split_ifs <;> omega
        · simp only [Outbox.weight_new, Post.weight, Delivery.post, hm, pollRound]
          omega
      next hempty =>
        cases hprov : dev.provisioning with
        | none =>
          simp only [hprov] at h
          cases h
          have hdevice := potential_insert_device hdev
            { dev with credentials := installBatch creds dev.credentials }
          simp only [DeviceState.potential, hprov, Option.elim_none] at hdevice
          simp only [Outbox.weight_compute, Outbox.weight_new, Post.weight, Delivery.post, hm,
            pollRound]
          omega
        | some p =>
          rw [hm] at hs
          have hne : device ≠ nodes.ra := hs
          simp only [hprov] at h
          split at h
          next hlast =>
            cases h
            have hdevice := potential_insert_device hdev
              { dev with
                credentials := installBatch creds dev.credentials
                provisioning := none }
            simp only [DeviceState.potential, hprov, Option.elim_none, Option.elim_some] at hdevice
            simp only [Post.weight, Delivery.post, hm]
            split_ifs <;> simp only [Outbox.weight_compute, Outbox.weight_stageAt,
              Outbox.weight_new, pollRound] <;> omega
          next hmore =>
            cases h
            have hdevice := potential_insert_device hdev
              { dev with
                credentials := installBatch creds dev.credentials
                provisioning := some { p with
                  downloaded := p.downloaded + 1
                  firstBatchSeen := true } }
            simp only [DeviceState.potential, hprov, Option.elim_some] at hdevice
            simp only [Post.weight, Delivery.post, hm, Outbox.weight_send]
            split_ifs <;> simp only [Outbox.weight_compute, Outbox.weight_stageAt,
              Outbox.weight_new] <;> omega

/-- **Handling a message lowers the load**, if the message does not come back to the entity that
passes it on, all that it posts is linked and the polls are limited. -/
theorem handle_load {cost : OpDescriptor → Duration} {net : BackendNet}
    (h : s.handle c d (Outbox.new cost) = .ok (s', out')) (hs : Straight net d.msg)
    (hlinked : ∀ x ∈ out'.sends, (net.link d.dst x.dst).isSome)
    (hpolls : d.msg.polls = true → s.params.maxDownloadPolls + 1 < 2 ^ 32) :
    s'.potential + out'.weight d.dst < s.potential + d.post.weight := by
  cases hf : d.msg.family with
  | enrolment => exact handle_load_simple h hs hlinked (.inl hf)
  | provisioning => exact handle_load_provisioning h hs hlinked hpolls hf
  | reporting => exact handle_load_reporting h hs hlinked hf
  | resolution => exact handle_load_resolution h hf
  | publication => exact handle_load_simple h hs hlinked (.inr (.inl hf))
  | distribution => exact handle_load_simple h hs hlinked (.inr (.inr hf))

/-! ## What stays true of the messages in flight -/

/-- Messages that do not come back post messages that do not. -/
lemma handle_straight {cost : OpDescriptor → Duration} {net : BackendNet}
    (h : s.handle c d (Outbox.new cost) = .ok (s', out')) (hs : Straight net d.msg)
    (hreports : ∀ x ∈ s.ra.reports, Straight net (.report x.2 : ScmsMsg S P)) :
    (∀ q ∈ out'.posts d.dst, Straight net q.msg) ∧
      ∀ x ∈ s'.ra.reports, Straight net (.report x.2 : ScmsMsg S P) := by
  unfold handle at h
  cases hm : d.msg <;> simp only [hm, Except.ok.injEq] at h <;> rw [hm] at hs
  case shuffleTimer =>
    cases h
    obtain ⟨hsends, htimers⟩ := foldl_releaseJob_spec s d (s.ra.jobs.filter released)
      (Outbox.new cost)
    refine ⟨?_, hreports⟩
    simp only [Outbox.posts, hsends, htimers, Outbox.sends_new, Outbox.timers_new,
      List.map_nil, List.nil_append, List.mem_map, List.mem_flatMap]
    rintro q ⟨x, ⟨job, -, i, -, rfl⟩, rfl⟩
    trivial
  case reportShuffleTimer =>
    cases h
    obtain ⟨hsends, htimers⟩ := foldl_reports_spec s d s.ra.reports (Outbox.new cost)
    refine ⟨?_, fun x hx => absurd hx List.not_mem_nil⟩
    simp only [Outbox.posts, hsends, htimers, Outbox.sends_new, Outbox.timers_new,
      List.map_nil, List.nil_append, List.mem_map]
    rintro q ⟨x, ⟨r, hr, rfl⟩, rfl⟩
    exact hreports r hr
  case certRequest device i items =>
    obtain ⟨rng, pca, creds, size, rfl, htimers, hsends⟩ := onCertRequest_spec h
    refine ⟨?_, hreports⟩
    simp [hsends, htimers, Straight, Outbox.posts, Outbox.sendPost]
  case report r =>
    simp only [onReport] at h
    have hra : ∀ x ∈ s.ra.reports ++ [(d.run, r)],
        Straight net (.report x.2 : ScmsMsg S P) := by
      intro x hx
      rcases List.mem_append.1 hx with hx | hx
      · exact hreports x hx
      · rw [List.mem_singleton.1 hx]
        exact hs
    simp only [Straight] at hs
    split_ifs at h <;> cases h
    · exact ⟨by simpa [Straight, Outbox.posts, Outbox.sendPost] using hs, hreports⟩
    · exact ⟨by simpa [Straight, Outbox.posts, Outbox.sendPost] using hs, hreports⟩
    · exact ⟨by simp [Outbox.posts], hra⟩
    · exact ⟨by simp [Straight, Outbox.posts, Outbox.timerPost], hra⟩
    · exact ⟨by simp [Outbox.posts], hreports⟩
  all_goals
    simp only [onEnrolRequest, onEnrolForward, onEnrolResponse, onProvisioningRequest,
      onProvisioningRequestAtRa, onProvisioningAck, onPreLinkageRequest, onPreLinkageResponse,
      onCertResponse, onBatchDownloadRequest, onBatchDownload, onPcaLookupRequest,
      onPcaLookupResponse, onSameDeviceRequest, onSameDeviceResponse, onBlocklistRequest,
      onBlocklistResponse, onSeedRequest, onSeedResponse, onCrlAppend, onCrlPublishTimer,
      onCrlPublish, onCrlDownloadRequest, onCrlDownload, onCrlAirBroadcast, decideCase,
      preLinkageRequestTo, askSameDevice, askSeed, publish, modifyDevice] at h
    simp only [Straight] at hs
    repeat' split at h
  all_goals
    first
    | (cases h; done)
    | (cases h
       refine ⟨?_, hreports⟩
       simp [Straight, Outbox.posts, Outbox.timerPost, Outbox.sendPost]
       done)
    | (cases h
       refine ⟨?_, hreports⟩
       simp [Straight, Outbox.posts, Outbox.timerPost, Outbox.sendPost]
       first | exact hs | exact hs.1)

lemma ScmsMsg.polls_eq_false {m : ScmsMsg S P} (h : m.family ≠ .provisioning) :
    m.polls = false := by
  cases m <;> first | rfl | exact absurd rfl h

/-- Messages that do not come to a poll post messages that do not. -/
lemma handle_polls {cost : OpDescriptor → Duration}
    (h : s.handle c d (Outbox.new cost) = .ok (s', out')) (hp : d.msg.polls = false) :
    ∀ q ∈ out'.posts d.dst, q.msg.polls = false := by
  have hposts := handle_posts d.dst h
  by_cases hf : d.msg.family = .provisioning
  · unfold handle at h
    cases hm : d.msg <;>
      simp only [hm, ScmsMsg.family, ScmsMsg.polls, reduceCtorEq, Bool.true_eq_false,
        Except.ok.injEq] at hf hp h
    case preLinkageRequest => cases h; simp [Outbox.posts, Outbox.sendPost, ScmsMsg.polls]
    case preLinkageResponse batch =>
      simp only [onPreLinkageResponse] at h
      repeat' split at h
      all_goals
        first
        | (cases h; done)
        | (cases h; simp [Outbox.posts, Outbox.timerPost, ScmsMsg.polls])
    case shuffleTimer =>
      cases h
      obtain ⟨hsends, htimers⟩ := foldl_releaseJob_spec s d (s.ra.jobs.filter released)
        (Outbox.new cost)
      simp only [Outbox.posts, hsends, htimers, Outbox.sends_new, Outbox.timers_new,
        List.map_nil, List.nil_append, List.mem_map, List.mem_flatMap]
      rintro q ⟨x, ⟨job, -, i, -, rfl⟩, rfl⟩
      rfl
    case certRequest device i items =>
      unfold onCertRequest at h
      split at h
      · cases h
      · cases h
        split_ifs <;> simp [Outbox.posts, Outbox.sendPost, ScmsMsg.polls]
    case certResponse device i creds =>
      unfold onCertResponse at h
      split at h <;> cases h
      · simp [Outbox.posts]
      · split_ifs <;> simp [Outbox.posts]
  · intro q hq
    refine ScmsMsg.polls_eq_false ?_
    rcases hposts q hq with heq | ⟨-, heq⟩ <;> rw [heq]
    · exact hf
    · decide

/-- Whether a message is the question to a Linkage Authority whether two chains belong to one
device, or its answer. -/
def ScmsMsg.concerns (la : LaIndex) : ScmsMsg S P → Bool
  | .sameDeviceRequest l _ _ | .sameDeviceResponse l _ => l == la
  | _ => false

lemma ScmsMsg.concerns_eq_false {m : ScmsMsg S P} (la : LaIndex) (h : m.family ≠ .resolution) :
    m.concerns la = false := by
  cases m <;> first | rfl | exact absurd rfl h

/-- The answers given and in flight do not decide a case before its first lookup. -/
def Answerable (s : ScmsState S P) (b : Multiset (ScmsPost S P)) : Prop :=
  ∀ case, s.ma.case = some case → case.lookups = [] →
    ∃ la, case.same la = none ∧ ∀ p ∈ b, p.msg.concerns la = false

/-- A case without a lookup is one without a lookup before, with the same answers but that of the
message, and no question has been posted. -/
lemma handle_unasked {cost : OpDescriptor → Duration}
    (h : s.handle c d (Outbox.new cost) = .ok (s', out')) {case' : Case}
    (hcase' : s'.ma.case = some case') (hnil' : case'.lookups = []) :
    (∃ case, s.ma.case = some case ∧ case.lookups = [] ∧
      ∀ la, case.same la = none → d.msg.concerns la = false → case'.same la = none) ∧
    ∀ q ∈ out'.posts d.dst, ∀ la, d.msg.concerns la = false → q.msg.concerns la = false := by
  have hposts := handle_posts d.dst h
  by_cases hf : d.msg.family = .resolution
  · unfold handle at h
    cases hm : d.msg <;>
      simp only [hm, ScmsMsg.family, reduceCtorEq, Except.ok.injEq] at hf h
    case pcaLookupResponse found =>
      simp only [onPcaLookupResponse, decideCase, withCase] at h
      repeat' split at h
      -- An answer adds a lookup, or ends the case.
      all_goals cases h
      next hnone => exact absurd (hnone.symm.trans hcase') (by simp)
      next case hcase _ =>
        cases hcase'
        exact ⟨⟨case, hcase, hnil', fun _ h _ => h⟩, by simp [Outbox.posts]⟩
      all_goals
        cases hcase'
        exact absurd hnil' (by simp)
    case sameDeviceRequest la a b =>
      cases h
      refine ⟨⟨case', hcase', hnil', fun _ h _ => h⟩, ?_⟩
      simp [Outbox.posts, Outbox.sendPost, ScmsMsg.concerns]
    case sameDeviceResponse la same =>
      simp only [onSameDeviceResponse, decideCase, withCase] at h
      cases hcase : s.ma.case with
      | none =>
        simp only [hcase, Except.ok.injEq] at h
        cases h
        exact absurd (hcase.symm.trans hcase') (by simp)
      | some case =>
        have hsame : ∀ l, case.same l = none → ScmsMsg.concerns l d.msg = false →
            Function.update case.same la (some same) l = none := by
          intro l hl hconcerns
          rw [hm] at hconcerns
          rw [Function.update_of_ne (by rintro rfl; simp [ScmsMsg.concerns] at hconcerns), hl]
        rw [hm] at hsame
        simp only [hcase] at h
        repeat' split at h
        all_goals
          first
          | (cases h; done)
          | (cases h
             cases hcase'
             exact ⟨⟨case, rfl, hnil', hsame⟩, by simp [Outbox.posts, Outbox.sendPost,
               ScmsMsg.concerns]⟩)
    case crlAppend i la1 la2 jmax =>
      simp only [onCrlAppend, publish, endCase] at h
      obtain ⟨case, hcase, hdone⟩ : ∃ case, s.ma.case = some case ∧
          { case with done := true } = case' := by
        split_ifs at h <;> cases h <;> exact Option.map_eq_some_iff.1 hcase'
      subst hdone
      refine ⟨⟨case, hcase, hnil', fun _ h _ => h⟩, ?_⟩
      split_ifs at h <;> cases h <;>
        simp [Outbox.posts, Outbox.timerPost, Outbox.sendPost, ScmsMsg.concerns]
    all_goals
      simp only [onPcaLookupRequest, onBlocklistRequest, onBlocklistResponse, onSeedRequest,
        onSeedResponse, withCase, askSeed] at h
      cases hcase : s.ma.case with
      | none =>
        try simp only [hcase] at h
        repeat' split at h
        all_goals
          cases h
          exact absurd (hcase.symm.trans hcase') (by simp)
      | some case =>
        try simp only [hcase] at h
        repeat' split at h
        all_goals
          cases h
          first | cases hcase.symm.trans hcase' | cases hcase'
          exact ⟨⟨_, rfl, hnil', fun _ h _ => h⟩, by simp [Outbox.posts, Outbox.sendPost,
            ScmsMsg.concerns]⟩
  · refine ⟨⟨case', ?_, hnil', fun _ hnone _ => hnone⟩, fun q hq la _ => ?_⟩
    · rw [← (handle_frame_resolution h hf).1]
      exact hcase'
    · refine ScmsMsg.concerns_eq_false la ?_
      rcases hposts q hq with heq | ⟨heq, -⟩
      · rw [heq]
        exact hf
      · exact absurd heq hf

lemma handle_answerable {cost : OpDescriptor → Duration} {b : Multiset (ScmsPost S P)}
    (h : s.handle c d (Outbox.new cost) = .ok (s', out'))
    (ha : Answerable s (d.post ::ₘ b)) : Answerable s' (out'.posts d.dst + b) := by
  intro case' hcase' hnil'
  obtain ⟨⟨case, hcase, hnil, hsame⟩, hposts⟩ := handle_unasked h hcase' hnil'
  obtain ⟨la, hnone, hbag⟩ := ha case hcase hnil
  have hd : d.msg.concerns la = false := hbag d.post (Multiset.mem_cons_self _ _)
  refine ⟨la, hsame la hnone hd, fun p hp => ?_⟩
  rcases Multiset.mem_add.1 hp with hp | hp
  · exact hposts p (Multiset.mem_coe.1 hp) la hd
  · exact hbag p (Multiset.mem_cons_of_mem hp)

/-- Then no handler panics. -/
lemma handle_not_panic {b : Multiset (ScmsPost S P)} (ha : Answerable s (d.post ::ₘ b)) :
    s.handle c d out ≠ .error .panic := by
  intro h
  unfold handle at h
  cases hm : d.msg <;> simp only [hm, reduceCtorEq] at h
  case preLinkageResponse batch =>
    simp only [onPreLinkageResponse] at h
    repeat' split at h
    all_goals cases h
  case certRequest device i items =>
    simp only [onCertRequest] at h
    split at h <;> cases h
  case batchDownload device i creds =>
    simp only [onBatchDownload] at h
    repeat' split at h
    all_goals cases h
  case crlDownload device entries =>
    simp only [onCrlDownload] at h
    split at h <;> cases h
  case sameDeviceResponse la same =>
    simp only [onSameDeviceResponse] at h
    split at h
    · cases h
    next case hcase =>
      split at h
      next a b hone htwo =>
        split at h
        next hnil =>
          -- One answer has not been given, and it is not this one.
          obtain ⟨l, hnone, hbag⟩ := ha case hcase hnil
          have hne : l ≠ la := by
            rintro rfl
            have hd := hbag d.post (Multiset.mem_cons_self _ _)
            simp [Delivery.post, hm, ScmsMsg.concerns] at hd
          rw [← Function.update_of_ne hne (some same) case.same] at hnone
          cases l with
          | one => exact absurd (hone.symm.trans hnone) (by simp)
          | two => exact absurd (htwo.symm.trans hnone) (by simp)
        next => split at h <;> cases h
      next => cases h

end Handle

/-! ## Runs -/

section Runs

variable {c : Crypto S P} {charge : String → OpDescriptor → Duration} {r r' : ScmsRun S P}

/-- The load of a deployment. -/
def ScmsRun.load (r : ScmsRun S P) : ℕ :=
  Mailbox.load ScmsState.potential Post.weight r.state r.kernel.posts

/-- The polls of the devices are limited, or there are none to come. -/
def Patient (r : ScmsRun S P) : Prop :=
  r.state.params.maxDownloadPolls + 1 < 2 ^ 32 ∨ ∀ p ∈ r.kernel.posts, p.msg.polls = false

/-- A deployment that goes quiet: no message in flight and no report that waits comes back to the
entity that passes it on, the polls are limited, and the answers do not decide a case before its
first lookup. -/
structure Settles (r : ScmsRun S P) : Prop where
  straight : ∀ p ∈ r.kernel.posts, Straight r.kernel.net p.msg
  reports : ∀ x ∈ r.state.ra.reports, Straight r.kernel.net (.report x.2 : ScmsMsg S P)
  patient : Patient r
  answerable : Answerable r.state r.kernel.posts

/-- **One delivery** without an error leaves a deployment that goes quiet, with a lower load. -/
lemma process_settles {q : Queued (ScmsMsg S P)} {k : Kernel (ScmsMsg S P)}
    {out : Outbox (ScmsMsg S P)} (hr : Settles r) (hnext : r.kernel.nextDelivery = some (q, k))
    (hproc : process c charge r q k = .ok ((.ok (), out), r')) :
    Settles r' ∧ r'.load < r.load := by
  have hposts := Kernel.nextDelivery_posts hnext
  have hnet : k.net = r.kernel.net := by rw [(Kernel.nextDelivery_spec hnext).2.2]
  obtain ⟨hstraight, hreports, hpatient, hanswer⟩ := hr
  unfold Patient at hpatient
  rw [hposts] at hstraight hpatient hanswer
  unfold process at hproc
  cases hh : r.state.handle c q.delivery (Outbox.new (charge (k.profileOf q.delivery.dst))) with
  | error e => cases e <;> simp [hh] at hproc
  | ok x =>
    obtain ⟨s', out'⟩ := x
    simp only [hh, Except.ok.injEq, Prod.mk.injEq] at hproc
    obtain ⟨⟨hok, rfl⟩, rfl⟩ := hproc
    have hconn := Kernel.dispatch_ok hok
    obtain ⟨kept, -, hkept, hnet', -, hall⟩ :=
      k.dispatch_posts q.delivery.time q.delivery.dst out'
    obtain ⟨rfl, -⟩ := hall hconn
    have hq := hstraight _ (Multiset.mem_cons_self _ _)
    obtain ⟨hnew, hreports'⟩ := handle_straight hh hq hreports
    have hparams := (handle_frame hh).1
    refine ⟨⟨fun p hp => ?_, ?_, ?_, ?_⟩, ?_⟩
    · rw [hkept] at hp
      rw [hnet', hnet]
      rcases Multiset.mem_add.1 hp with hp | hp
      · exact hnew p (Multiset.mem_coe.1 hp)
      · exact hstraight p (Multiset.mem_cons_of_mem hp)
    · rw [hnet', hnet]
      exact hreports'
    · unfold Patient
      rw [hkept, hparams]
      refine hpatient.imp_right fun hpolls p hp => ?_
      rcases Multiset.mem_add.1 hp with hp | hp
      · exact handle_polls hh (hpolls _ (Multiset.mem_cons_self _ _)) p (Multiset.mem_coe.1 hp)
      · exact hpolls p (Multiset.mem_cons_of_mem hp)
    · show Answerable s' (k.dispatch q.delivery.time q.delivery.dst out').2.posts
      rw [hkept]
      exact handle_answerable hh hanswer
    · have hload := handle_load hh hq (fun x hx => hnet ▸ hconn.2 x hx) fun hp =>
        hpatient.resolve_right fun hpolls =>
          absurd (hpolls _ (Multiset.mem_cons_self _ _)) (by simp [Delivery.post, hp])
      unfold ScmsRun.load
      rw [hposts, hkept]
      exact Mailbox.load_lt hload k.posts

/-- A run ends within its load. -/
lemma drain_settles (fuel : ℕ) : ∀ {r : ScmsRun S P}, Settles r → r.load < fuel →
    ∃ x, drain c charge none r fuel = .ok x := by
  induction fuel with
  | zero => exact fun _ hlt => absurd hlt (Nat.not_lt_zero _)
  | succ fuel ih =>
    intro r hr hlt
    unfold drain
    cases hnext : r.next none with
    | none => exact ⟨_, rfl⟩
    | some y =>
      obtain ⟨q, k⟩ := y
      dsimp only
      cases hproc : process c charge r q k with
      | error e =>
        have hanswer := hr.answerable
        rw [Kernel.nextDelivery_posts hnext] at hanswer
        exfalso
        unfold process at hproc
        cases hh : r.state.handle c q.delivery
            (Outbox.new (charge (k.profileOf q.delivery.dst))) with
        | error f =>
          cases f with
          | panic => exact handle_not_panic hanswer hh
          | proto f => simp [hh] at hproc
        | ok x => simp [hh] at hproc
      | ok z =>
        obtain ⟨⟨result, out⟩, r'⟩ := z
        cases result with
        | error e => exact ⟨_, rfl⟩
        | ok u =>
          obtain ⟨hr', hload⟩ := process_settles hr hnext hproc
          exact ih hr' (by omega)

/-- **The backend goes quiet**: from every deployment in which no message comes back to the entity
that passes it on, the polls are limited and the answers do not decide a case before its first
lookup, a run ends after finitely many deliveries, with an error or with nothing scheduled.

**Proof sketch.** Every delivery without an error lowers the load and keeps the three conditions, of
which the last one rules out the panic. The load is the number of deliveries at most. -/
theorem run_ends (hr : Settles r) : ∃ fuel outcome r',
    drain c charge none r fuel = .ok (outcome, r') ∧ (outcome = .ok () → r'.kernel.heap = []) := by
  obtain ⟨⟨outcome, r'⟩, h⟩ : ∃ x, drain c charge none r (r.load + 1) = .ok x :=
    drain_settles (r.load + 1) hr (Nat.lt_succ_self _)
  refine ⟨_, outcome, r', h, ?_⟩
  rintro rfl
  exact Kernel.nextDelivery_eq_none (drain_idle _ h)

/-! ## Runs that do not end -/

/-- Once a loop has panicked, it ends in no other way with more or fewer deliveries. -/
lemma drain_panics (n : ℕ) : ∀ {r : ScmsRun S P}, drain c charge none r n = .error .panic →
    ∀ fuel x, drain c charge none r fuel ≠ .ok x := by
  induction n with
  | zero =>
    intro r h
    unfold drain at h
    split at h <;> cases h
  | succ n ih =>
    intro r h fuel x hx
    unfold drain at h
    cases hnext : r.next none with
    | none => simp [hnext] at h
    | some y =>
      obtain ⟨q, k⟩ := y
      simp only [hnext] at h
      cases fuel with
      | zero =>
        unfold drain at hx
        simp [hnext] at hx
      | succ fuel =>
        unfold drain at hx
        simp only [hnext] at hx
        cases hproc : process c charge r q k with
        | error e => simp [hproc] at hx
        | ok z =>
          obtain ⟨⟨result, out⟩, r'⟩ := z
          cases result with
          | error e => simp [hproc] at h
          | ok u =>
            simp only [hproc] at h hx
            exact ih h fuel x hx

end Runs

/-! ## A run that ends and one that panics -/

/-- A device that has just asked for credentials. -/
def asking : ScmsRun HandGroup HandGroup :=
  ((newAt ⟨0, 0, 0⟩ handParams 0).addDevice 1000 |>.provisionAt handCrypto 1000 0 0 1 1).2

/-- Its run ends. -/
theorem run_ends_asking : ∃ fuel outcome r', drain handCrypto (fun _ _ => ⟨0⟩) none asking fuel =
    .ok (outcome, r') ∧ (outcome = .ok () → r'.kernel.heap = []) := by
  refine run_ends ⟨?_, ?_, .inl (by decide), ?_⟩
  · intro p hp
    have hmem : p ∈ ({⟨1000, 1000, .provisioningRequest (requestOf handCrypto 1000
        (((newAt ⟨0, 0, 0⟩ handParams 0).addDevice 1000).newRun.2.state.nextCaterpillar
          handCrypto 1000) 0 1 1), .provisioning, 1⟩} :
        Multiset (ScmsPost HandGroup HandGroup)) := hp
    rw [Multiset.mem_singleton.1 hmem]
    exact ⟨by decide, by decide⟩
  · exact fun x hx => absurd hx List.not_mem_nil
  · intro case hcase
    cases hcase

/-- Whether a run has panicked within the deliveries it was given. -/
def panicked (r : ScmsRun HandGroup HandGroup) (fuel : ℕ) : Bool :=
  match drain handCrypto (fun _ _ => ⟨0⟩) none r fuel with
  | .error .panic => true
  | _ => false

/-- **A run that panics.** A second investigation is opened while the questions of the first one are
with the Linkage Authorities; both answers find a case without a lookup. -/
theorem run_panics : ∃ is os D, hand.Steps hand.init is os D ∧ D.preloading = none ∧
    ∀ fuel x, drain handCrypto (fun _ _ => ⟨0⟩) none D.run fuel ≠ .ok x := by
  have hrun : (hand.runIf (fun _ _ => true) hand.init
      ([.addDevice 1000, .provision 1000 0 0 1 1] ++ deliveries 20 ++
        [.submitReport 1000 0 handLv] ++ deliveries 6 ++ [.investigate 0 0 0 1] ++ deliveries 5 ++
        [.investigate 0 0 0 1])).any (fun x => x.2.preloading.isNone && panicked x.2.run 10) =
      true := by
    decide +kernel
  obtain ⟨os, D, h, hend⟩ := Machine.exists_stepsIf (G := fun _ _ => True)
    (fun _ _ _ => trivial) hrun
  simp only [Bool.and_eq_true, Option.isNone_iff_eq_none] at hend
  refine ⟨_, os, D, h.steps, hend.1, drain_panics 10 ?_⟩
  have hpanic := hend.2
  unfold panicked at hpanic
  split at hpanic
  next heq => exact heq
  next => cases hpanic

end V2xw.Scms
