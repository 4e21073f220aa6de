import V2xw.Scms.Provision
import V2xw.Scms.System

set_option linter.unusedSectionVars false

/-!
# Requests and their linkage chains

Every request the Registration Authority accepts is given a chain by each of the two Linkage
Authorities, and every certificate issued for it carries the linkage value of these chains. What
identifies the request on this way is its run number, which messages carry, and its hash, under
which the Registration Authority keeps the record that a case looks up later. This file follows a
request from the device to the certificates: as long as no two accepted requests share a hash, what
the certifying authority has stored about a certificate names the record of its request, with both
chains in it, and the record stays as it is.

## Main definitions

* `ScmsState.Complete` — a record with both of its chains.
* `ScmsState.plvAt` — the share of a chain in the linkage value of a slot.
* `ScmsState.IssuedTo` — a credential that carries the linkage value of a request.
* `distinctHashes` — no request is accepted under the hash of another one.
* `Chained`, `Traced` — the invariant of the state and of the messages.

## Main results

* `keeps_chained` — the invariant is preserved.
-/

namespace V2xw.Scms

open V2xw.Core ScmsState

variable {S P : Type}

/-! ## Records, chains and shares -/

/-- The chain a Linkage Authority has allocated for a request, if it has. -/
def RequestRecord.lci (r : RequestRecord) : LaIndex → Option Lci
  | .one => r.lci1
  | .two => r.lci2

/-- The record of a request whose chains have both been allocated. -/
def ScmsState.Complete (s : ScmsState S P) (h : Bytes) (device : NodeId) (l₁ l₂ : Lci) : Prop :=
  s.ra.requests[h]? = some ⟨device, some l₁, some l₂⟩

variable [AddCommGroup S] [AddCommGroup P]

/-- The seed of a chain in a period. -/
def ScmsState.seedAt (c : Crypto S P) (s : ScmsState S P) (la : LaIndex) (l : Lci) (i : ℕ) :
    Option LinkageSeed :=
  (s.la la).chains[l]?.map fun ls0 => linkageSeedAt c (s.la la).laId ls0 i

/-- The share of a chain in the linkage value of a slot. -/
def ScmsState.plvAt (c : Crypto S P) (s : ScmsState S P) (la : LaIndex) (l : Lci) (i j : ℕ) :
    Option PreLinkageValue :=
  (s.seedAt c la l i).map fun ls => preLinkageValue c (s.la la).laId ls j

/-- The linkage value of a slot from two chains. -/
def ScmsState.LinkedBy (c : Crypto S P) (s : ScmsState S P) (l₁ l₂ : Lci) (i j : ℕ)
    (lv : LinkageValue) : Prop :=
  ∃ v₁ v₂, s.plvAt c .one l₁ i j = some v₁ ∧ s.plvAt c .two l₂ i j = some v₂ ∧
    lv = linkageValue v₁ v₂

/-- A credential that carries the linkage value of a request of a device. -/
def ScmsState.IssuedTo (c : Crypto S P) (s : ScmsState S P) (device : NodeId)
    (cred : IssuedCredential S P) : Prop :=
  ∃ h l₁ l₂, s.Complete h device l₁ l₂ ∧ s.LinkedBy c l₁ l₂ cred.i cred.j cred.lv

/-- What a state keeps of an earlier one: the chains, their owners and the complete records. -/
structure ChainsGrow (s s' : ScmsState S P) : Prop where
  laId : ∀ la, (s'.la la).laId = (s.la la).laId
  chains : ∀ la (l : Lci) ls0, (s.la la).chains[l]? = some ls0 → (s'.la la).chains[l]? = some ls0
  owner : ∀ la (l : Lci) d, (s.la la).owner[l]? = some d → (s'.la la).owner[l]? = some d
  complete : ∀ h d l₁ l₂, s.Complete h d l₁ l₂ → s'.Complete h d l₁ l₂

namespace ChainsGrow

variable {c : Crypto S P} {s s' s'' : ScmsState S P}

lemma same (hla : s'.la = s.la) (hreq : s'.ra.requests = s.ra.requests) : ChainsGrow s s' where
  laId la := by rw [hla]
  chains la l ls0 h := by rw [hla]; exact h
  owner la l d h := by rw [hla]; exact h
  complete h d l₁ l₂ hc := by unfold Complete; rw [hreq]; exact hc

lemma trans (h : ChainsGrow s s') (h' : ChainsGrow s' s'') : ChainsGrow s s'' where
  laId la := (h'.laId la).trans (h.laId la)
  chains la l ls0 hl := h'.chains la l ls0 (h.chains la l ls0 hl)
  owner la l d hl := h'.owner la l d (h.owner la l d hl)
  complete x d l₁ l₂ hc := h'.complete x d l₁ l₂ (h.complete x d l₁ l₂ hc)

lemma seedAt (h : ChainsGrow s s') {la : LaIndex} {l : Lci} {i : ℕ} {ls : LinkageSeed}
    (hls : s.seedAt c la l i = some ls) : s'.seedAt c la l i = some ls := by
  unfold ScmsState.seedAt at *
  obtain ⟨ls0, hl, rfl⟩ := Option.map_eq_some_iff.1 hls
  rw [h.chains la l ls0 hl, h.laId la, Option.map_some]

lemma plvAt (h : ChainsGrow s s') {la : LaIndex} {l : Lci} {i j : ℕ} {v : PreLinkageValue}
    (hv : s.plvAt c la l i j = some v) : s'.plvAt c la l i j = some v := by
  unfold ScmsState.plvAt at *
  obtain ⟨ls, hls, rfl⟩ := Option.map_eq_some_iff.1 hv
  rw [h.seedAt hls, h.laId la, Option.map_some]

lemma linkedBy (h : ChainsGrow s s') {l₁ l₂ : Lci} {i j : ℕ} {lv : LinkageValue}
    (hlv : s.LinkedBy c l₁ l₂ i j lv) : s'.LinkedBy c l₁ l₂ i j lv := by
  obtain ⟨v₁, v₂, h₁, h₂, rfl⟩ := hlv
  exact ⟨v₁, v₂, h.plvAt h₁, h.plvAt h₂, rfl⟩

lemma issuedTo (h : ChainsGrow s s') {device : NodeId} {cred : IssuedCredential S P}
    (hcred : s.IssuedTo c device cred) : s'.IssuedTo c device cred := by
  obtain ⟨x, l₁, l₂, hc, hlv⟩ := hcred
  exact ⟨x, l₁, l₂, h.complete x device l₁ l₂ hc, h.linkedBy hlv⟩

end ChainsGrow

/-! ## The invariant -/

/-- A job agrees with the record of its request, and its shares are those of its chains. -/
structure JobSound (c : Crypto S P) (s : ScmsState S P) (job : ProvisioningJob P) : Prop where
  run : job.run ≤ s.nextRun
  record : s.ra.requests[job.requestHash]? = some ⟨job.device, job.lci .one, job.lci .two⟩
  plv : ∀ la i j x, (job.plv la)[slot i j]? = some x →
    ∃ l, job.lci la = some l ∧ s.plvAt c la l i j = some x.inner

/-- A certificate request carries the hash and the chains of a request, and their shares. -/
structure ItemSound (c : Crypto S P) (s : ScmsState S P) (device : NodeId)
    (x : CertRequestItem P) : Prop where
  complete : s.Complete x.requestHash device x.lci1.inner x.lci2.inner
  plv1 : s.plvAt c .one x.lci1.inner x.i x.j = some x.plv1.inner
  plv2 : s.plvAt c .two x.lci2.inner x.i x.j = some x.plv2.inner

/-- The invariant of the state. -/
structure Chained (c : Crypto S P) (s : ScmsState S P) : Prop where
  fresh : ∀ la (l : Lci), (s.la la).nextLci ≤ l →
    (s.la la).chains[l]? = none ∧ (s.la la).owner[l]? = none
  record : ∀ (h : Bytes) r, s.ra.requests[h]? = some r → ∀ la l, r.lci la = some l →
    (s.la la).owner[l]? = some r.device ∧ (s.la la).chains[l]?.isSome
  hashes : (s.ra.jobs.map (·.requestHash)).Nodup
  job : ∀ job ∈ s.ra.jobs, JobSound c s job
  issued : ∀ i lv f, s.pca.issued[toLex (i, lv)]? = some f → ∃ d j,
    s.Complete f.requestHash d f.lci1 f.lci2 ∧ s.LinkedBy c f.lci1 f.lci2 i j lv

/-- The messages that will bring a request a chain of a Linkage Authority. -/
def ScmsMsg.asks (la : LaIndex) : ScmsMsg S P → Bool
  | .provisioningRequest _ => true
  | .preLinkageRequest _ la' _ _ _ => la' = la
  | .preLinkageResponse batch => batch.la = la
  | _ => false

/-- What holds of a message on the way of a request. -/
def Traced (c : Crypto S P) (s : ScmsState S P) (p : ScmsPost S P) : Prop :=
  match p.msg with
  | .provisioningRequest _ => p.run ≤ s.nextRun ∧ ∀ job ∈ s.ra.jobs, job.run ≠ p.run
  | .preLinkageRequest device la _ _ _ => p.run ≤ s.nextRun ∧
    ∀ job ∈ s.ra.jobs, job.run = p.run → job.device = device ∧ job.lci la = none
  | .preLinkageResponse batch => p.run ≤ s.nextRun ∧
    (∀ job ∈ s.ra.jobs, job.run = p.run →
      (s.la batch.la).owner[batch.lci]? = some job.device ∧ job.lci batch.la = none) ∧
    (s.la batch.la).chains[batch.lci]?.isSome ∧
    ∀ v ∈ batch.values, s.plvAt c batch.la batch.lci v.1 v.2.1 = some v.2.2.inner
  | .certRequest device _ items => ∀ x ∈ items, ItemSound c s device x
  | .certResponse device _ creds => ∀ cred ∈ creds, s.IssuedTo c device cred
  | _ => True

/-- The messages in flight that will bring a run a chain of a Linkage Authority. -/
def tokens (run : FlowRun) (la : LaIndex) (b : Multiset (ScmsPost S P)) : ℕ :=
  b.countP fun p => p.run = run ∧ p.msg.asks la = true

lemma tokens_cons (run : FlowRun) (la : LaIndex) (q : ScmsPost S P)
    (b : Multiset (ScmsPost S P)) :
    tokens run la (q ::ₘ b) = tokens run la b + if q.run = run ∧ q.msg.asks la =
        true then 1 else 0 :=
  Multiset.countP_cons _ _ _

lemma tokens_zero (run : FlowRun) (la : LaIndex) :
    tokens run la (0 : Multiset (ScmsPost S P)) = 0 := Multiset.countP_zero _

lemma tokens_singleton (run : FlowRun) (la : LaIndex) (q : ScmsPost S P) :
    tokens run la {q} = if q.run = run ∧ q.msg.asks la = true then 1 else 0 := by
  rw [← Multiset.cons_zero, tokens_cons, tokens_zero, Nat.zero_add]

lemma tokens_coe_cons (run : FlowRun) (la : LaIndex) (q : ScmsPost S P)
    (l : List (ScmsPost S P)) :
    tokens run la ((q :: l : List (ScmsPost S P)) : Multiset (ScmsPost S P)) =
      tokens run la (l : Multiset (ScmsPost S P)) +
        if q.run = run ∧ q.msg.asks la = true then 1 else 0 := by
  rw [← Multiset.cons_coe, tokens_cons]

/-- The invariant: at most one message of a run is on its way to bring it a chain. -/
structure ChainInv (c : Crypto S P) (s : ScmsState S P) (b : Multiset (ScmsPost S P)) : Prop where
  state : Chained c s
  posts : ∀ p ∈ b, Traced c s p
  single : ∀ run la, tokens run la b ≤ 1

/-- Requests reach the Registration Authority under hashes of their own, unless they are refused. -/
def distinctHashes (c : Crypto S P) : Guard S P
  | .inr p, s, _ =>
    match p.msg with
    | .provisioningRequest req => p.dst ≠ req.device → p.dst ≠ nodes.lop →
      req.device ∉ s.ra.blocklist → s.ra.requests[requestHash c req]? = none
    | _ => True
  | _, _, _ => True

/-! ## What a step keeps -/

section Keep

variable {c : Crypto S P} {s s' : ScmsState S P}

lemma JobSound.mono {job : ProvisioningJob P} (h : JobSound c s job) (hgrow : ChainsGrow s s')
    (hrun : s.nextRun ≤ s'.nextRun)
    (hrec : s'.ra.requests[job.requestHash]? = s.ra.requests[job.requestHash]?) :
    JobSound c s' job where
  run := h.run.trans hrun
  record := hrec.trans h.record
  plv la i j x hx := by
    obtain ⟨l, hl, hv⟩ := h.plv la i j x hx
    exact ⟨l, hl, hgrow.plvAt hv⟩

lemma ItemSound.mono {device : NodeId} {x : CertRequestItem P} (h : ItemSound c s device x)
    (hgrow : ChainsGrow s s') : ItemSound c s' device x :=
  ⟨hgrow.complete _ _ _ _ h.complete, hgrow.plvAt h.plv1, hgrow.plvAt h.plv2⟩

lemma Chained.issued_mono (h : Chained c s) (hgrow : ChainsGrow s s') (i : ℕ) (lv : LinkageValue)
    (f : PcaLookup) (hf : s.pca.issued[toLex (i, lv)]? = some f) : ∃ d j,
      s'.Complete f.requestHash d f.lci1 f.lci2 ∧ s'.LinkedBy c f.lci1 f.lci2 i j lv := by
  obtain ⟨d, j, hc, hlv⟩ := h.issued i lv f hf
  exact ⟨d, j, hgrow.complete _ _ _ _ hc, hgrow.linkedBy hlv⟩

/-- The jobs of a run were there before, and had no chain that a message in flight would bring them
again. -/
def JobsFrom (q : ScmsPost S P) (s s' : ScmsState S P) : Prop :=
  ∀ job' ∈ s'.ra.jobs, job'.run = q.run → ∃ job ∈ s.ra.jobs, job.run = q.run ∧
    job.device = job'.device ∧
    ∀ la, q.msg.asks la = true → job.lci la = none → job'.lci la = none

/-- A message that stays in flight is traced. -/
lemma Traced.mono {q : ScmsPost S P} (h : Traced c s q) (hgrow : ChainsGrow s s')
    (hrun : s.nextRun ≤ s'.nextRun)
    (hjobs : (∃ la, q.msg.asks la = true) → JobsFrom q s s') : Traced c s' q := by
  unfold Traced at *
  cases hm : q.msg <;> simp only [hm] at h ⊢
  case provisioningRequest req =>
    have hfrom := hjobs ⟨.one, by rw [hm]; rfl⟩
    refine ⟨h.1.trans hrun, fun job' hjob' hr => ?_⟩
    obtain ⟨job, hjob, hr', -⟩ := hfrom job' hjob' hr
    exact h.2 job hjob hr'
  case preLinkageRequest device la startI periods jmax =>
    have hasks : q.msg.asks la = true := by rw [hm]; simp [ScmsMsg.asks]
    refine ⟨h.1.trans hrun, fun job' hjob' hr => ?_⟩
    obtain ⟨job, hjob, hr', hdev, hlci⟩ := hjobs ⟨la, hasks⟩ job' hjob' hr
    obtain ⟨hd, hnone⟩ := h.2 job hjob hr'
    exact ⟨hdev ▸ hd, hlci la hasks hnone⟩
  case preLinkageResponse batch =>
    have hasks : q.msg.asks batch.la = true := by rw [hm]; simp [ScmsMsg.asks]
    obtain ⟨hle, hjob, hchain, hvalues⟩ := h
    refine ⟨hle.trans hrun, fun job' hjob' hr => ?_, ?_, fun v hv => hgrow.plvAt (hvalues v hv)⟩
    · obtain ⟨job, hmem, hr', hdev, hlci⟩ := hjobs ⟨batch.la, hasks⟩ job' hjob' hr
      obtain ⟨hd, hnone⟩ := hjob job hmem hr'
      exact ⟨hdev ▸ hgrow.owner _ _ _ hd, hlci batch.la hasks hnone⟩
    · obtain ⟨ls0, hls0⟩ := Option.isSome_iff_exists.1 hchain
      rw [hgrow.chains _ _ _ hls0]
      rfl
  case certRequest device i items => exact fun x hx => (h x hx).mono hgrow
  case certResponse device i creds => exact fun cred hcred => hgrow.issuedTo (h cred hcred)

/-- What handling a message does to the invariant. -/
structure Handling (c : Crypto S P) (p : ScmsPost S P) (s s' : ScmsState S P)
    (posts : List (ScmsPost S P)) : Prop where
  state : Chained c s'
  grow : ChainsGrow s s'
  posts : ∀ q ∈ posts, Traced c s' q
  jobs : ∀ q : ScmsPost S P, (∃ la, q.msg.asks la = true) →
    (∀ la, p.msg.asks la = true → q.msg.asks la = true → q.run ≠ p.run) → JobsFrom q s s'

lemma Chained.same (h : Chained c s) (hrun : s'.nextRun = s.nextRun) (hla : s'.la = s.la)
    (hreq : s'.ra.requests = s.ra.requests) (hjobs : s'.ra.jobs = s.ra.jobs)
    (hissued : s'.pca.issued = s.pca.issued) : Chained c s' := by
  have hgrow : ChainsGrow s s' := .same hla hreq
  refine ⟨?_, ?_, ?_, fun job hjob => ?_, fun i lv f hf => ?_⟩
  · rw [hla]; exact h.fresh
  · rw [hla, hreq]; exact h.record
  · rw [hjobs]; exact h.hashes
  · exact (h.job job (hjobs ▸ hjob)).mono hgrow hrun.ge (by rw [hreq])
  · exact h.issued_mono hgrow i lv f (hissued ▸ hf)

lemma Handling.quiet {p : ScmsPost S P} {posts : List (ScmsPost S P)} (h : Chained c s)
    (hrun : s'.nextRun = s.nextRun) (hla : s'.la = s.la) (hreq : s'.ra.requests = s.ra.requests)
    (hjobs : s'.ra.jobs = s.ra.jobs) (hissued : s'.pca.issued = s.pca.issued)
    (hposts : ∀ q ∈ posts, Traced c s' q) : Handling c p s s' posts where
  state := h.same hrun hla hreq hjobs hissued
  grow := .same hla hreq
  posts := hposts
  jobs _ _ _ job' hjob' hr := ⟨job', hjobs ▸ hjob', hr, rfl, fun _ _ h => h⟩

end Keep

/-! ## The arms that work on requests -/

section Arms

variable {c : Crypto S P} {s : ScmsState S P} {p : ScmsPost S P} {time : SimTime}
  {cost : OpDescriptor → Duration}

/-- A request is accepted: a record without chains, and a job for it. -/
lemma handling_accept {req : ProvisioningRequest P} (hchain : Chained c s)
    (hmsg : p.msg = .provisioningRequest req) (hp : Traced c s p)
    (hblock : req.device ∉ s.ra.blocklist) (hnone : s.ra.requests[requestHash c req]? = none) :
    Handling c p s (s.onProvisioningRequestAtRa c (p.deliverAt time) (Outbox.new cost) req).1
      ((s.onProvisioningRequestAtRa c (p.deliverAt time) (Outbox.new cost) req).2.posts p.dst) := by
  simp only [Traced, hmsg] at hp
  obtain ⟨hrun, hjobs⟩ := hp
  simp only [onProvisioningRequestAtRa, if_neg hblock]
  set s' : ScmsState S P := { s with ra := { s.ra with
    enrolled := insert req.device s.ra.enrolled
    requests := s.ra.requests.insert (requestHash c req) ⟨req.device, none, none⟩
    jobs := s.ra.jobs ++ [jobOf c (p.deliverAt time) req] } } with hs'
  have hget : ∀ h : Bytes, s'.ra.requests[h]? =
      if requestHash c req = h then some ⟨req.device, none, none⟩ else s.ra.requests[h]? :=
    fun h => (OrdMap.get_insert _ _ _ _).trans (by congr)
  have hkeep : ∀ (h : Bytes) r, s.ra.requests[h]? = some r → s'.ra.requests[h]? = some r := by
    intro h r hr
    rw [hget, if_neg]
    · exact hr
    · rintro rfl
      exact absurd (hnone.symm.trans hr) (by simp)
  have hgrow : ChainsGrow s s' :=
    ⟨fun _ => rfl, fun _ _ _ h => h, fun _ _ _ h => h, fun h d l₁ l₂ hc => hkeep h _ hc⟩
  have hmem : ∀ job ∈ s'.ra.jobs, job ∈ s.ra.jobs ∨ job = jobOf c (p.deliverAt time) req := by
    intro job hjob
    rcases List.mem_append.1 hjob with hjob | hjob
    · exact .inl hjob
    · exact .inr (List.mem_singleton.1 hjob)
  refine ⟨⟨hchain.fresh, fun h r hr la l hl => ?_, ?_, fun job hjob => ?_,
    hchain.issued_mono hgrow⟩, hgrow, fun q hq => ?_, fun q hasks halone job' hjob' hr => ?_⟩
  · rw [hget] at hr
    split_ifs at hr
    · cases hr
      cases la <;> cases hl
    · exact hchain.record h r hr la l hl
  · -- Every job has a record, and the new hash has none.
    show ((s.ra.jobs ++ [jobOf c (p.deliverAt time) req]).map (·.requestHash)).Nodup
    rw [List.map_append, List.map_singleton]
    refine List.nodup_append.2 ⟨hchain.hashes, List.nodup_singleton _, ?_⟩
    rintro x hx y hy rfl
    obtain ⟨job, hjob, rfl⟩ := List.mem_map.1 hx
    rw [List.mem_singleton] at hy
    have hrec := (hchain.job job hjob).record
    rw [hy] at hrec
    exact absurd (hnone.symm.trans hrec) (by simp)
  · rcases hmem job hjob with hjob | rfl
    · have hjs := hchain.job job hjob
      exact hjs.mono hgrow le_rfl ((hkeep _ _ hjs.record).trans hjs.record.symm)
    · refine ⟨hrun, ?_, fun la i j x hx => ?_⟩
      · show s'.ra.requests[requestHash c req]? = _
        rw [hget, if_pos rfl]
        rfl
      · cases hx.symm.trans Std.ExtTreeMap.getElem?_empty
  · simp only [preLinkageRequestTo, Outbox.posts, Outbox.timers_send, Outbox.timers_stageAt,
      Outbox.timers_scalarMults, Outbox.timers_verify, Outbox.timers_new, List.map_nil,
      List.nil_append, Outbox.sends_send, Outbox.sends_stageAt, Outbox.sends_scalarMults,
      Outbox.sends_verify, Outbox.sends_new, List.map_cons, List.cons_append, List.mem_cons,
      List.not_mem_nil, or_false] at hq
    have hnew : ∀ la, p.run ≤ s'.nextRun ∧ ∀ job ∈ s'.ra.jobs, job.run = p.run →
        job.device = req.device ∧ job.lci la = none := by
      refine fun la => ⟨hrun, fun job hjob hr => ?_⟩
      rcases hmem job hjob with hjob | rfl
      · exact absurd hr (hjobs job hjob)
      · exact ⟨rfl, rfl⟩
    rcases hq with rfl | rfl | rfl
    · trivial
    · exact hnew .one
    · exact hnew .two
  · rcases hmem job' hjob' with hjob | rfl
    · exact ⟨job', hjob, hr, rfl, fun _ _ h => h⟩
    · obtain ⟨la, hla⟩ := hasks
      exact absurd hr.symm (halone la (by rw [hmsg]; rfl) hla)

/-- A chain is allocated, and its shares are sent. -/
lemma handling_allocate {device : NodeId} {la : LaIndex} {startI periods jmax : ℕ}
    (hchain : Chained c s) (hmsg : p.msg = .preLinkageRequest device la startI periods jmax)
    (hp : Traced c s p) :
    Handling c p s
      (s.onPreLinkageRequest c (p.deliverAt time) (Outbox.new cost) device la startI periods jmax).1
      ((s.onPreLinkageRequest c (p.deliverAt time) (Outbox.new cost) device la startI periods
        jmax).2.posts p.dst) := by
  simp only [Traced, hmsg] at hp
  obtain ⟨hrun, hjobs⟩ := hp
  simp only [onPreLinkageRequest]
  set ls0 := (s.rng.fillBytes c (nodes.la la) 16).1
  set s' : ScmsState S P := { s with
    rng := (s.rng.fillBytes c (nodes.la la) 16).2
    la := Function.update s.la la { s.la la with
      nextLci := (s.la la).nextLci + 1
      chains := (s.la la).chains.insert (s.la la).nextLci ls0
      owner := (s.la la).owner.insert (s.la la).nextLci device } } with hs'
  have hself : s'.la la = { s.la la with
      nextLci := (s.la la).nextLci + 1
      chains := (s.la la).chains.insert (s.la la).nextLci ls0
      owner := (s.la la).owner.insert (s.la la).nextLci device } := Function.update_self ..
  have hother : ∀ la', la' ≠ la → s'.la la' = s.la la' := fun la' h => Function.update_of_ne h ..
  obtain ⟨hfresh₁, hfresh₂⟩ := hchain.fresh la (s.la la).nextLci le_rfl
  have hgrow : ChainsGrow s s' := by
    refine ⟨fun la' => ?_, fun la' l x hx => ?_, fun la' l d hd => ?_, fun _ _ _ _ hc => hc⟩
    · by_cases h : la' = la
      · rw [h, hself]
      · rw [hother la' h]
    · by_cases h : la' = la
      · subst h
        rw [hself, OrdMap.get_insert, if_neg]
        · exact hx
        · rintro rfl
          exact absurd (hfresh₁.symm.trans hx) (by simp)
      · rw [hother la' h]
        exact hx
    · by_cases h : la' = la
      · subst h
        rw [hself, OrdMap.get_insert, if_neg]
        · exact hd
        · rintro rfl
          exact absurd (hfresh₂.symm.trans hd) (by simp)
      · rw [hother la' h]
        exact hd
  have hnew : (s'.la la).chains[(s.la la).nextLci]? = some ls0 := by
    rw [hself, OrdMap.get_insert, if_pos rfl]
  have hlaId : (s'.la la).laId = (s.la la).laId := hgrow.laId la
  refine ⟨⟨fun la' l hl => ?_, fun h r hr la' l hl => ?_, hchain.hashes, fun job hjob => ?_,
    hchain.issued_mono hgrow⟩, hgrow, fun q hq => ?_, fun q _ _ job' hjob' hr => ?_⟩
  · by_cases h : la' = la
    · subst h
      rw [hself] at hl ⊢
      have hl' : (s.la la').nextLci + 1 ≤ l := hl
      obtain ⟨h₁, h₂⟩ := hchain.fresh la' l (by omega)
      have hne : (s.la la').nextLci ≠ l := by omega
      rw [OrdMap.get_insert, if_neg hne, OrdMap.get_insert, if_neg hne]
      exact ⟨h₁, h₂⟩
    · rw [hother la' h] at hl ⊢
      exact hchain.fresh la' l hl
  · obtain ⟨hown, hsome⟩ := hchain.record h r hr la' l hl
    obtain ⟨x, hx⟩ := Option.isSome_iff_exists.1 hsome
    refine ⟨hgrow.owner _ _ _ hown, ?_⟩
    rw [hgrow.chains _ _ _ hx]
    rfl
  · exact (hchain.job job hjob).mono hgrow le_rfl rfl
  · simp only [Outbox.posts, Outbox.sendPost, Outbox.timers_send, Outbox.timers_aes,
      Outbox.timers_hashes, Outbox.timers_new, List.map_nil, List.nil_append, Outbox.sends_send,
      Outbox.sends_aes, Outbox.sends_hashes, Outbox.sends_new, List.map_cons,
      List.mem_singleton] at hq
    subst hq
    refine ⟨hrun, fun job hjob hr => ?_, ?_, fun v hv => ?_⟩
    · obtain ⟨hd, hnone⟩ := hjobs job hjob hr
      refine ⟨?_, hnone⟩
      rw [hself, OrdMap.get_insert, if_pos rfl, hd]
    · rw [hnew]
      rfl
    · simp only [preLinkageValues, List.mem_flatMap, List.mem_map] at hv
      obtain ⟨i, -, j, -, rfl⟩ := hv
      unfold ScmsState.plvAt ScmsState.seedAt
      rw [hnew, hlaId]
      rfl
  · exact ⟨job', hjob', hr, rfl, fun _ _ h => h⟩

/-- The first job of a run gets a chain, and its record with it. -/
lemma handling_answer {s' : ScmsState S P} {batch : PreLinkageBatch} {old : ProvisioningJob P}
    {posts : List (ScmsPost S P)} (hchain : Chained c s) (hmsg : p.msg = .preLinkageResponse batch)
    (hp : Traced c s p) (hold : s.ra.jobs.find? (·.run = p.run) = some old)
    (hrun : s'.nextRun = s.nextRun) (hla : s'.la = s.la)
    (hissued : s'.pca.issued = s.pca.issued)
    (hjobs : s'.ra.jobs = updateJob p.run (answered batch) s.ra.jobs)
    (hreq : s'.ra.requests = s.ra.requests.insert old.requestHash
      ⟨old.device, (answered batch old).lci .one, (answered batch old).lci .two⟩)
    (hposts : ∀ q ∈ posts, Traced c s' q) : Handling c p s s' posts := by
  simp only [Traced, hmsg] at hp
  obtain ⟨-, hjob, hsome, hvalues⟩ := hp
  have hmem := List.mem_of_find?_eq_some hold
  have holdrun : old.run = p.run := by simpa using List.find?_some hold
  obtain ⟨hown, hnone⟩ := hjob old hmem holdrun
  have hjs := hchain.job old hmem
  -- The record of the job is the only one that changes, and it was not complete.
  have hget : ∀ h : Bytes, h ≠ old.requestHash → s'.ra.requests[h]? = s.ra.requests[h]? := by
    intro h hne
    rw [hreq, OrdMap.get_insert, if_neg fun heq => hne heq.symm]
  have hself : s'.ra.requests[old.requestHash]? =
      some ⟨old.device, (answered batch old).lci .one, (answered batch old).lci .two⟩ := by
    rw [hreq, OrdMap.get_insert, if_pos rfl]
  have hgrow : ChainsGrow s s' := by
    refine ⟨fun la => by rw [hla], fun la l x hx => by rw [hla]; exact hx,
      fun la l d hd => by rw [hla]; exact hd, fun h d l₁ l₂ hc => ?_⟩
    by_cases hh : h = old.requestHash
    · subst hh
      have heq := Option.some.inj (hjs.record.symm.trans hc)
      rw [RequestRecord.mk.injEq] at heq
      cases hb : batch.la with
      | one => exact absurd (hb ▸ hnone) (by rw [heq.2.1]; simp)
      | two => exact absurd (hb ▸ hnone) (by rw [heq.2.2]; simp)
    · exact (hget h hh).trans hc
  have hlci : ∀ la, (answered batch old).lci la =
      if la = batch.la then some batch.lci else old.lci la := by
    intro la
    show Function.update old.lci batch.la (some batch.lci) la = _
    rw [Function.update_apply]
  refine ⟨⟨?_, fun h r hr la l hl => ?_, ?_, fun job hmem' => ?_, fun i lv f hf => ?_⟩,
    hgrow, hposts,
    fun q _ halone job' hjob' hr => ?_⟩
  · rw [hla]
    exact hchain.fresh
  · rw [hla]
    by_cases hh : h = old.requestHash
    · subst hh
      rw [hself, Option.some.injEq] at hr
      subst hr
      have hl' : (answered batch old).lci la = some l := by cases la <;> exact hl
      rw [hlci] at hl'
      split_ifs at hl' with hb
      · cases hl'
        subst hb
        exact ⟨hown, hsome⟩
      · refine hchain.record _ _ hjs.record la l ?_
        cases la <;> exact hl'
    · exact hchain.record h r ((hget h hh).symm.trans hr) la l hl
  · rw [hjobs, map_updateJob p.run (f := answered batch) (g := (·.requestHash)) fun _ => rfl]
    exact hchain.hashes
  · rw [hjobs] at hmem'
    rcases mem_updateJob_of_nodup hchain.hashes hold hmem' with rfl | ⟨hmem', hne⟩
    · refine ⟨hjs.run.trans hrun.ge, hself, fun la i j x hx => ?_⟩
      rw [hlci]
      by_cases hb : la = batch.la
      · subst hb
        rw [if_pos rfl]
        refine ⟨batch.lci, rfl, hgrow.plvAt ?_⟩
        have hx' : (batch.values.foldl (fun m v => m.insert (slot v.1 v.2.1) v.2.2)
            (old.plv batch.la))[slot i j]? = some x := by
          have hplv : (answered batch old).plv batch.la = batch.values.foldl
              (fun m v => m.insert (slot v.1 v.2.1) v.2.2) (old.plv batch.la) :=
            Function.update_self ..
          rw [← hplv]
          exact hx
        rcases OrdMap.get_foldl_insert_some
          (fun v : ℕ × ℕ × SealedForPca PreLinkageValue => slot v.1 v.2.1) (fun v => v.2.2)
          batch.values _ _ _ hx' with hx' | ⟨v, hv, hk, rfl⟩
        · obtain ⟨l, hl, -⟩ := hjs.plv _ i j x hx'
          exact absurd (hnone.symm.trans hl) (by simp)
        · obtain ⟨rfl, rfl⟩ := slot_inj.1 hk
          exact hvalues v hv
      · rw [if_neg hb]
        have hplv : (answered batch old).plv la = old.plv la := Function.update_of_ne hb ..
        rw [hplv] at hx
        obtain ⟨l, hl, hv⟩ := hjs.plv la i j x hx
        exact ⟨l, hl, hgrow.plvAt hv⟩
    · exact (hchain.job job hmem').mono hgrow hrun.ge (hget _ hne)
  · exact hchain.issued_mono hgrow i lv f (hissued ▸ hf)
  · rw [hjobs] at hjob'
    rcases mem_updateJob hjob' with hjob' | ⟨old', hold', rfl⟩
    · exact ⟨job', hjob', hr, rfl, fun _ _ h => h⟩
    · obtain rfl := Option.some.inj (hold.symm.trans hold')
      refine ⟨old, hmem, hr, rfl, fun la hla' hnone' => ?_⟩
      rw [hlci, if_neg]
      · exact hnone'
      · rintro rfl
        refine halone batch.la ?_ hla' (hr.symm.trans holdrun)
        rw [hmsg]
        simp [ScmsMsg.asks]

/-- Jobs that are the same as far as their requests are concerned. -/
structure SameJob (job job' : ProvisioningJob P) : Prop where
  run : job'.run = job.run
  device : job'.device = job.device
  hash : job'.requestHash = job.requestHash
  lci : job'.lci = job.lci
  plv : job'.plv = job.plv

/-- Jobs are marked or finished. -/
lemma handling_jobs {s' : ScmsState S P} {posts : List (ScmsPost S P)} (hchain : Chained c s)
    (hrun : s'.nextRun = s.nextRun) (hla : s'.la = s.la) (hreq : s'.ra.requests = s.ra.requests)
    (hissued : s'.pca.issued = s.pca.issued)
    (hjobs : ∀ job' ∈ s'.ra.jobs, ∃ job ∈ s.ra.jobs, SameJob job job')
    (hhash : (s'.ra.jobs.map (·.requestHash)).Sublist (s.ra.jobs.map (·.requestHash)))
    (hposts : ∀ q ∈ posts, Traced c s' q) : Handling c p s s' posts := by
  have hgrow : ChainsGrow s s' := .same hla hreq
  refine ⟨⟨?_, ?_, hchain.hashes.sublist hhash, fun job' hjob' => ?_, fun i lv f hf => ?_⟩, hgrow,
    hposts, fun q _ _ job' hjob' hr => ?_⟩
  · rw [hla]
    exact hchain.fresh
  · rw [hla, hreq]
    exact hchain.record
  · obtain ⟨job, hjob, hsame⟩ := hjobs job' hjob'
    have hjs := hchain.job job hjob
    refine ⟨?_, ?_, fun la i j x hx => ?_⟩
    · rw [hsame.run, hrun]
      exact hjs.run
    · rw [hsame.hash, hsame.device, hsame.lci, hreq]
      exact hjs.record
    · rw [hsame.plv] at hx
      rw [hsame.lci]
      obtain ⟨l, hl, hv⟩ := hjs.plv la i j x hx
      exact ⟨l, hl, hgrow.plvAt hv⟩
  · exact hchain.issued_mono hgrow i lv f (hissued ▸ hf)
  · obtain ⟨job, hjob, hsame⟩ := hjobs job' hjob'
    refine ⟨job, hjob, hsame.run ▸ hr, hsame.device.symm, fun la _ h => ?_⟩
    rw [hsame.lci]
    exact h

/-- The certificate requests of a job are those of its record. -/
lemma JobSound.items {job : ProvisioningJob P} (h : JobSound c s job) (i : ℕ)
    (x : CertRequestItem P) (hx : x ∈ itemsOf job i) : ItemSound c s job.device x := by
  unfold itemsOf at hx
  obtain ⟨j, -, hx⟩ := List.mem_filterMap.1 hx
  simp only [Option.bind_eq_bind, Option.bind_eq_some_iff, Option.some.injEq] at hx
  obtain ⟨b, -, p1, hp1, p2, hp2, l1, hl1, l2, hl2, rfl⟩ := hx
  obtain ⟨m1, hm1, hv1⟩ := h.plv .one i j p1 hp1
  obtain ⟨m2, hm2, hv2⟩ := h.plv .two i j p2 hp2
  obtain rfl := Option.some.inj (hl1.symm.trans hm1)
  obtain rfl := Option.some.inj (hl2.symm.trans hm2)
  refine ⟨?_, hv1, hv2⟩
  show s.ra.requests[job.requestHash]? = _
  rw [h.record, hl1, hl2]

/-- The shuffle sends the certificate requests of its jobs. -/
lemma handling_shuffle (hchain : Chained c s) :
    Handling c p s (s.onShuffleTimer (p.deliverAt time) (Outbox.new cost)).1
      ((s.onShuffleTimer (p.deliverAt time) (Outbox.new cost)).2.posts p.dst) := by
  refine handling_jobs hchain rfl rfl rfl rfl (fun job' hjob' => ?_) ?_ fun q hq => ?_
  · obtain ⟨job, hjob, rfl⟩ := List.mem_map.1 hjob'
    refine ⟨job, hjob, ?_⟩
    split_ifs <;> exact ⟨rfl, rfl, rfl, rfl, rfl⟩
  · show ((s.ra.jobs.map fun job => if released job then { job with sent := true } else job).map
      (·.requestHash)).Sublist _
    rw [List.map_map]
    have heq : s.ra.jobs.map ((fun job : ProvisioningJob P => job.requestHash) ∘ fun job =>
        if released job then { job with sent := true } else job) =
        s.ra.jobs.map (·.requestHash) := by
      refine List.map_congr_left fun job _ => ?_
      simp only [Function.comp_apply]
      split_ifs <;> rfl
    rw [heq]
  · obtain ⟨hsends, htimers⟩ := foldl_releaseJob_spec s (p.deliverAt time)
      (s.ra.jobs.filter released) (Outbox.new cost)
    simp only [onShuffleTimer, Outbox.posts, hsends, htimers, Outbox.sends_new, Outbox.timers_new,
      List.map_nil, List.nil_append, List.mem_map, List.mem_flatMap] at hq
    obtain ⟨y, ⟨job, hjob, i, -, rfl⟩, rfl⟩ := hq
    intro x hx
    exact ((hchain.job job (List.mem_of_mem_filter hjob)).items i x hx).mono (.same rfl rfl)

/-- A batch is stored, and the job it belongs to is marked or finished. -/
lemma handling_store {device : NodeId} {i : ℕ} {creds : List (IssuedCredential S P)}
    (hchain : Chained c s) :
    Handling c p s (s.onCertResponse (p.deliverAt time) (Outbox.new cost) device i creds).1
      ((s.onCertResponse (p.deliverAt time) (Outbox.new cost) device i creds).2.posts p.dst) := by
  unfold onCertResponse
  split
  next => exact .quiet hchain rfl rfl rfl rfl rfl (by simp [Outbox.posts])
  next job hjob =>
    have hmap : (updateJob p.run certified s.ra.jobs).map (·.requestHash) =
        s.ra.jobs.map (·.requestHash) :=
      map_updateJob p.run (f := certified) (g := (·.requestHash)) (fun _ => rfl) _
    have hsame : ∀ job' ∈ updateJob p.run certified s.ra.jobs,
        ∃ job ∈ s.ra.jobs, SameJob job job' := by
      intro job' hjob'
      rcases mem_updateJob hjob' with hjob' | ⟨old, hold, rfl⟩
      · exact ⟨job', hjob', rfl, rfl, rfl, rfl, rfl⟩
      · exact ⟨old, List.mem_of_find?_eq_some hold, rfl, rfl, rfl, rfl, rfl⟩
    refine handling_jobs hchain rfl rfl rfl rfl (fun job' hjob' => hsame job' ?_) ?_ ?_
    · dsimp only at hjob'
      split_ifs at hjob'
      · exact List.mem_of_mem_filter hjob'
      · exact hjob'
    · dsimp only
      rw [← hmap]
      split_ifs
      · exact List.filter_sublist.map _
      · exact .refl _
    · dsimp only
      split_ifs <;> simp [Outbox.posts]

/-- Certificates are issued with the linkage values of their requests. -/
lemma handling_certify {s' : ScmsState S P} {out : Outbox (ScmsMsg S P)} {device : NodeId} {i : ℕ}
    {items : List (CertRequestItem P)} (hchain : Chained c s)
    (hmsg : p.msg = .certRequest device i items) (hp : Traced c s p)
    (h : s.onCertRequest c (p.deliverAt time) (Outbox.new cost) device i items = .ok (s', out)) :
    Handling c p s s' (out.posts p.dst) := by
  simp only [Traced, hmsg] at hp
  unfold onCertRequest at h
  cases hopen : items.mapM (openItem (p.deliverAt time).dst) with
  | none => simp [hopen] at h
  | some opened =>
    obtain rfl := mapM_openItem hopen
    obtain ⟨rng, pca, hframe⟩ := certifyAll_frame c (items.map openedOf) s
    have hissued := issued_certifyAll c (items.map openedOf) s
    have hcreds := mem_certifyAll c (items.map openedOf) s
    simp only [hframe] at hissued
    simp only [hopen, hframe, Except.ok.injEq, Prod.mk.injEq] at h
    obtain ⟨rfl, rfl⟩ := h
    have hlinked : ∀ x ∈ items, s.LinkedBy c x.lci1.inner x.lci2.inner x.i x.j
        (linkageValue x.plv1.inner x.plv2.inner) := fun x hx =>
      ⟨_, _, (hp x hx).plv1, (hp x hx).plv2, rfl⟩
    refine ⟨⟨hchain.fresh, hchain.record, hchain.hashes, fun job hjob => ?_, fun k lv f hf => ?_⟩,
      .same rfl rfl, ?_, fun q _ _ job' hjob' hr => ⟨job', hjob', hr, rfl, fun _ _ h => h⟩⟩
    · exact (hchain.job job hjob).mono (.same rfl rfl) le_rfl rfl
    · rcases hissued _ f hf with hf | ⟨x, hx, hk, rfl⟩
      · exact hchain.issued_mono (.same rfl rfl) k lv f hf
      · obtain ⟨item, hitem, rfl⟩ := List.mem_map.1 hx
        rw [toLex_inj, Prod.mk.injEq] at hk
        obtain ⟨rfl, rfl⟩ := hk
        exact ⟨device, item.j, (hp item hitem).complete, hlinked item hitem⟩
    · have hpost : ∀ cred ∈ (certifyAll c s (items.map openedOf)).1, s.IssuedTo c device cred := by
        intro cred hcred
        obtain ⟨x, hx, r, rfl⟩ := hcreds cred hcred
        obtain ⟨item, hitem, rfl⟩ := List.mem_map.1 hx
        exact ⟨item.requestHash, _, _, (hp item hitem).complete, hlinked item hitem⟩
      split_ifs <;> simp only [Outbox.posts, Outbox.timers_send, Outbox.timers_stageAt,
        Outbox.timers_sign, Outbox.timers_scalarMults, Outbox.timers_new, Outbox.sends_send,
        Outbox.sends_stageAt, Outbox.sends_sign, Outbox.sends_scalarMults, Outbox.sends_new,
        List.map_nil, List.nil_append, List.map_cons, List.mem_singleton] <;>
        rintro q rfl <;>
        exact fun cred hcred => (ChainsGrow.same rfl rfl).issuedTo (hpost cred hcred)

lemma traced_of_family {q : ScmsPost S P} (hq : q.msg.family ≠ .provisioning) : Traced c s q := by
  unfold Traced
  cases hm : q.msg <;> simp [hm, ScmsMsg.family] at hq ⊢

/-- **What handling a message does to requests.** -/
lemma handle_chained {s' : ScmsState S P} {out : Outbox (ScmsMsg S P)}
    {b : Multiset (ScmsPost S P)}
    (h : s.handle c (p.deliverAt time) (Outbox.new cost) = .ok (s', out)) (hchain : Chained c s)
    (hp : Traced c s p) (hG : distinctHashes c (.inr p) s b) :
    Handling c p s s' (out.posts p.dst) := by
  have hrun := (handle_frame h).2.2
  by_cases hf : (p.deliverAt time).msg.family = .provisioning
  swap
  · obtain ⟨hjobs, -, hreq, -, -, hla, hpca, -⟩ := handle_frame_provisioning h hf
    refine .quiet hchain hrun hla hreq hjobs (by rw [hpca]) fun q hq => traced_of_family ?_
    rcases handle_posts p.dst h q hq with hq | ⟨-, hq⟩
    · rw [hq]
      exact hf
    · rw [hq]
      decide
  have hmsg : (p.deliverAt time).msg = p.msg := rfl
  rw [hmsg] at hf
  unfold handle at h
  cases hm : p.msg <;> simp only [hm, hmsg, ScmsMsg.family, reduceCtorEq] at hf h
  case provisioningRequest req =>
    obtain ⟨rfl, rfl⟩ := eq_of_ok h
    unfold onProvisioningRequest
    have hsame : ∀ q : ScmsPost S P, q.msg = .provisioningRequest req → q.run = p.run →
        Traced c s q := by
      intro q hq hr
      simp only [Traced, hm] at hp
      simp only [Traced, hq, hr]
      exact hp
    split_ifs with hdev hlop
    · refine .quiet hchain rfl rfl rfl rfl rfl fun q hq => ?_
      simp only [Outbox.posts, Outbox.timers_send, Outbox.timers_stageAt,
        Outbox.timers_scalarMults, Outbox.timers_sign, Outbox.timers_new, Outbox.sends_send,
        Outbox.sends_stageAt, Outbox.sends_scalarMults, Outbox.sends_sign, Outbox.sends_new,
        List.map_nil, List.nil_append, List.map_cons, List.mem_singleton] at hq
      subst hq
      exact hsame _ rfl rfl
    · refine .quiet hchain rfl rfl rfl rfl rfl fun q hq => ?_
      simp only [Outbox.posts, Outbox.timers_send, Outbox.timers_stageAt, Outbox.timers_new,
        Outbox.sends_send, Outbox.sends_stageAt, Outbox.sends_new, List.map_nil, List.nil_append,
        List.map_cons, List.mem_singleton] at hq
      subst hq
      exact hsame _ rfl rfl
    · by_cases hblock : req.device ∈ s.ra.blocklist
      · simp only [onProvisioningRequestAtRa, if_pos hblock]
        exact .quiet hchain rfl rfl rfl rfl rfl (by simp [Outbox.posts])
      · simp only [distinctHashes, hm] at hG
        exact handling_accept hchain hm hp hblock (hG hdev hlop hblock)
  case provisioningAck device hash =>
    cases h
    exact .quiet hchain rfl rfl rfl rfl rfl (by simp [Outbox.posts, Outbox.timerPost, Traced])
  case preLinkageRequest device la startI periods jmax =>
    obtain ⟨rfl, rfl⟩ := eq_of_ok h
    exact handling_allocate hchain hm hp
  case preLinkageResponse batch =>
    unfold onPreLinkageResponse at h
    cases hold : s.ra.jobs.find? (·.run = (p.deliverAt time).run) with
    | none => simp [hold] at h
    | some old =>
      have hrec := (hchain.job old (List.mem_of_find?_eq_some hold)).record
      have hhash : (answered batch old).requestHash = old.requestHash := rfl
      simp only [hold, hhash, hrec] at h
      split_ifs at h <;> cases h <;>
        exact handling_answer hchain hm hp hold rfl rfl rfl rfl rfl
          (by simp [Outbox.posts, Outbox.timerPost, Traced])
  case shuffleTimer =>
    obtain ⟨rfl, rfl⟩ := eq_of_ok h
    exact handling_shuffle hchain
  case certRequest device i items => exact handling_certify hchain hm hp h
  case certResponse device i creds =>
    obtain ⟨rfl, rfl⟩ := eq_of_ok h
    exact handling_store hchain
  case batchDownloadRequest device i =>
    obtain ⟨rfl, rfl⟩ := eq_of_ok h
    unfold onBatchDownloadRequest
    split_ifs <;>
      exact .quiet hchain rfl rfl rfl rfl rfl (by simp [Outbox.posts, Outbox.sendPost, Traced])
  case batchDownload device i creds =>
    unfold onBatchDownload at h
    cases hdev : s.devices[device]? with
    | none => simp [hdev] at h
    | some dev =>
      simp only [hdev] at h
      repeat' split at h
      all_goals
        cases h
        exact .quiet hchain rfl rfl rfl rfl rfl
          (by simp [Outbox.posts, Outbox.timerPost, Outbox.sendPost, Traced])

lemma asks_of_family {q : ScmsPost S P} (hq : q.msg.family ≠ .provisioning) (la : LaIndex) :
    q.msg.asks la = false := by
  cases hm : q.msg <;> simp [hm, ScmsMsg.family, ScmsMsg.asks] at hq ⊢

lemma tokens_eq_zero {posts : List (ScmsPost S P)} {r : FlowRun} {a : LaIndex}
    (h : ∀ q ∈ posts, q.msg.asks a = false) : tokens r a (posts : Multiset (ScmsPost S P)) = 0 := by
  refine Multiset.countP_eq_zero.2 fun q hq hboth => ?_
  rw [h q (Multiset.mem_coe.1 hq)] at hboth
  exact absurd hboth.2 (by simp)

/-- A message brings a run at most the chain it was on its way for: handling it posts no more
messages to bring one than it is itself. -/
lemma handle_tokens {s' : ScmsState S P} {out : Outbox (ScmsMsg S P)}
    (h : s.handle c (p.deliverAt time) (Outbox.new cost) = .ok (s', out)) (run : FlowRun)
    (la : LaIndex) :
    tokens run la (out.posts p.dst : Multiset (ScmsPost S P)) ≤
      tokens run la ({p} : Multiset (ScmsPost S P)) := by
  have hzero : (∀ q ∈ out.posts p.dst, q.msg.asks la = false) →
      tokens run la (out.posts p.dst : Multiset (ScmsPost S P)) ≤
        tokens run la ({p} : Multiset (ScmsPost S P)) :=
    fun hq => (tokens_eq_zero hq).le.trans (Nat.zero_le _)
  by_cases hf : (p.deliverAt time).msg.family = .provisioning
  swap
  · refine hzero fun q hq => asks_of_family ?_ la
    rcases handle_posts p.dst h q hq with hq | ⟨-, hq⟩
    · rw [hq]
      exact hf
    · rw [hq]
      decide
  have hmsg : (p.deliverAt time).msg = p.msg := rfl
  rw [hmsg] at hf
  unfold handle at h
  cases hm : p.msg <;> simp only [hm, hmsg, ScmsMsg.family, reduceCtorEq] at hf h
  case provisioningRequest req =>
    obtain ⟨rfl, rfl⟩ := eq_of_ok h
    unfold onProvisioningRequest onProvisioningRequestAtRa preLinkageRequestTo
    clear hzero h
    rw [tokens_singleton, hm]
    split_ifs <;> cases la <;>
      simp_all [tokens_zero, tokens_singleton, tokens_coe_cons, Outbox.posts, Outbox.sendPost,
        ScmsMsg.asks, Post.deliverAt]
  case preLinkageRequest device la' startI periods jmax =>
    obtain ⟨rfl, rfl⟩ := eq_of_ok h
    rw [tokens_singleton, hm]
    unfold onPreLinkageRequest
    simp [tokens_singleton, Outbox.posts, Outbox.sendPost, ScmsMsg.asks, Post.deliverAt]
  case shuffleTimer =>
    obtain ⟨rfl, rfl⟩ := eq_of_ok h
    refine hzero fun q hq => ?_
    obtain ⟨hsends, htimers⟩ := foldl_releaseJob_spec s (p.deliverAt time)
      (s.ra.jobs.filter released) (Outbox.new cost)
    simp only [onShuffleTimer, Outbox.posts, hsends, htimers, Outbox.sends_new, Outbox.timers_new,
      List.map_nil, List.nil_append, List.mem_map, List.mem_flatMap] at hq
    obtain ⟨y, ⟨job, -, i, -, rfl⟩, rfl⟩ := hq
    rfl
  case certRequest device i items =>
    refine hzero ?_
    unfold onCertRequest at h
    cases hopen : items.mapM (openItem (p.deliverAt time).dst) with
    | none => simp [hopen] at h
    | some opened =>
      simp only [hopen, Except.ok.injEq, Prod.mk.injEq] at h
      rw [← h.2]
      split_ifs <;> simp [Outbox.posts, Outbox.sendPost, ScmsMsg.asks]
  all_goals
    refine hzero ?_
    simp only [onProvisioningAck, onPreLinkageResponse, onCertResponse, onBatchDownloadRequest,
      onBatchDownload] at h
    repeat' split at h
  all_goals
    first
    | (cases h; done)
    | (cases h; simp [Outbox.posts, Outbox.timerPost, Outbox.sendPost, ScmsMsg.asks])

end Arms

/-! ## The invariant is preserved -/

section Keeps

variable {c : Crypto S P}

/-- **Requests keep their chains**: the invariant is preserved as long as no request is accepted
under the hash of another one.

**Proof sketch.** A run has at most one message on its way that will bring it a chain of a Linkage
Authority, so that no job is given a chain twice and the record of a request, once complete, stays.
A new request has a run number of its own. -/
theorem keeps_chained (c : Crypto S P) : (scms c).Keeps (distinctHashes c) (ChainInv c) := by
  rintro e s b s' b' hstep hG ⟨hstate, hposts, hsingle⟩
  cases hstep with
  | act e =>
    show ChainInv c (e.apply c s).1 ((e.apply c s).2 + b)
    have hquiet : ∀ s' : ScmsState S P, s.nextRun ≤ s'.nextRun → s'.la = s.la →
        s'.ra = s.ra → s'.pca = s.pca → Chained c s' ∧ ∀ q ∈ b, Traced c s' q := by
      intro s' hrun hla hra hpca
      have hgrow : ChainsGrow s s' := .same hla (by rw [hra])
      refine ⟨⟨?_, ?_, ?_, fun job hjob => ?_, fun i lv f hf => ?_⟩, fun q hq => ?_⟩
      · rw [hla]; exact hstate.fresh
      · rw [hla, hra]; exact hstate.record
      · rw [hra]; exact hstate.hashes
      · rw [hra] at hjob
        exact (hstate.job job hjob).mono hgrow hrun (by rw [hra])
      · exact hstate.issued_mono hgrow i lv f (hpca ▸ hf)
      · refine (hposts q hq).mono hgrow hrun fun _ job' hjob' hr => ?_
        rw [hra] at hjob'
        exact ⟨job', hjob', hr, rfl, fun _ _ h => h⟩
    -- A request is the only event that posts a message of provisioning.
    by_cases hreq : ∃ device startI periods jmax flow, e = .request device startI periods jmax flow
    · obtain ⟨device, startI, periods, jmax, flow, rfl⟩ := hreq
      obtain ⟨hchain, hold⟩ := hquiet (s.requested c device startI periods)
        (by unfold ScmsState.requested modifyDevice; split <;> exact Nat.le_succ _)
        (by unfold ScmsState.requested modifyDevice; split <;> rfl)
        (by unfold ScmsState.requested modifyDevice; split <;> rfl)
        (by unfold ScmsState.requested modifyDevice; split <;> rfl)
      have hnext : (s.requested c device startI periods).nextRun = s.nextRun + 1 := by
        unfold ScmsState.requested modifyDevice
        split <;> rfl
      have hjobs : (s.requested c device startI periods).ra.jobs = s.ra.jobs := by
        unfold ScmsState.requested modifyDevice
        split <;> rfl
      refine ⟨hchain, fun q hq => ?_, fun run la => ?_⟩
      · rcases Multiset.mem_add.1 hq with hq | hq
        · obtain rfl := List.mem_singleton.1 (Multiset.mem_coe.1 hq)
          refine ⟨hnext.ge, fun job hjob hr => ?_⟩
          have hle := (hstate.job job (hjobs ▸ hjob)).run
          have hr' : job.run = s.nextRun + 1 := hr
          rw [hr'] at hle
          exact Nat.not_succ_le_self _ hle
        · exact hold q hq
      · unfold tokens
        rw [Multiset.countP_add]
        by_cases hr : run = s.nextRun + 1
        · have hnone : b.countP (fun p => p.run = run ∧ p.msg.asks la = true) = 0 := by
            refine Multiset.countP_eq_zero.2 fun q hq hboth => ?_
            have hle : q.run ≤ s.nextRun := by
              have htr := hposts q hq
              unfold Traced at htr
              revert htr hboth
              cases q.msg <;> simp +contextual [ScmsMsg.asks]
            rw [hboth.1, hr] at hle
            exact Nat.not_succ_le_self _ hle
          rw [hnone, Nat.add_zero]
          exact Multiset.countP_le_card _ _
        · have hnone : Multiset.countP (fun p : ScmsPost S P => p.run = run ∧ p.msg.asks la = true)
              (((Event.request device startI periods jmax flow).apply c s).2 :
                Multiset (ScmsPost S P)) = 0 := by
            refine Multiset.countP_eq_zero.2 fun q hq hboth => ?_
            obtain rfl := List.mem_singleton.1 (Multiset.mem_coe.1 hq)
            exact hr hboth.1.symm
          rw [hnone, Nat.zero_add]
          exact hsingle run la
    · have hnew : ∀ q ∈ (e.apply c s).2, q.msg.family ≠ .provisioning := by
        cases e <;> simp [Event.apply, ScmsMsg.family] at hreq ⊢
      obtain ⟨hchain, hold⟩ := hquiet (e.apply c s).1
        (by cases e <;> simp [Event.apply, ScmsState.bump, withCase] at hreq ⊢)
        (by cases e <;> simp [Event.apply, ScmsState.bump, withCase] at hreq ⊢)
        (by cases e <;> simp [Event.apply, ScmsState.bump, withCase] at hreq ⊢)
        (by cases e <;> simp [Event.apply, ScmsState.bump, withCase] at hreq ⊢)
      refine ⟨hchain, fun q hq => ?_, fun run la => ?_⟩
      · rcases Multiset.mem_add.1 hq with hq | hq
        · exact traced_of_family (hnew q (Multiset.mem_coe.1 hq))
        · exact hold q hq
      · have hzero := tokens_eq_zero (r := run) (a := la)
          fun q hq => asks_of_family (hnew q hq) la
        unfold tokens at hzero ⊢
        rw [Multiset.countP_add, hzero, Nat.zero_add]
        exact hsingle run la
  | @react p _ _ b posts kept hr hsub _ =>
    have hkept : ∀ run la, tokens run la (kept + b : Multiset (ScmsPost S P)) ≤
        tokens run la (posts : Multiset (ScmsPost S P)) + tokens run la b := by
      intro run la
      unfold tokens
      rw [Multiset.countP_add]
      exact Nat.add_le_add_right (hsub.countP_le) _
    cases hr with
    | refused e time cost h =>
      refine ⟨hstate, fun q hq => ?_, fun run la => ?_⟩
      · rcases Multiset.mem_add.1 hq with hq | hq
        · exact absurd (hsub.subset (Multiset.mem_coe.1 hq)) List.not_mem_nil
        · exact hposts q (Multiset.mem_cons_of_mem hq)
      · refine (hkept run la).trans ?_
        have hle : tokens run la b ≤ tokens run la (p ::ₘ b) :=
          Multiset.countP_le_of_le _ (Multiset.le_cons_self _ _)
        simpa [tokens] using hle.trans (hsingle run la)
    | handled time cost h =>
      obtain ⟨hstate', hgrow, hnew, hjobs⟩ :=
        handle_chained h hstate (hposts p (Multiset.mem_cons_self _ _)) hG
      have hcons : ∀ run la, tokens run la (p ::ₘ b) =
          tokens run la ({p} : Multiset (ScmsPost S P)) + tokens run la b := by
        intro run la
        unfold tokens
        rw [← Multiset.countP_add, Multiset.singleton_add]
      refine ⟨hstate', fun q hq => ?_, fun run la => ?_⟩
      · rcases Multiset.mem_add.1 hq with hq | hq
        · exact hnew q (hsub.subset (Multiset.mem_coe.1 hq))
        · refine (hposts q (Multiset.mem_cons_of_mem hq)).mono hgrow (handle_frame h).2.2.ge
            fun hasks => hjobs q hasks fun la hpa hqa hrun => ?_
          -- The message and the one that stays would both bring the run the same chain.
          have h1 : 1 ≤ tokens p.run la ({p} : Multiset (ScmsPost S P)) :=
            Multiset.countP_pos.2 ⟨p, Multiset.mem_singleton_self p, rfl, hpa⟩
          have h2 : 1 ≤ tokens p.run la b := Multiset.countP_pos.2 ⟨q, hq, hrun, hqa⟩
          have h3 := hsingle p.run la
          rw [hcons] at h3
          omega
      · have h1 := hkept run la
        have h2 := handle_tokens h run la
        have h3 := hsingle run la
        rw [hcons] at h3
        omega

lemma ChainInv.withParams {s : ScmsState S P} {b : Multiset (ScmsPost S P)} (h : ChainInv c s b)
    (params : ScmsParams) : ChainInv c { s with params := params } b := by
  have hgrow : ChainsGrow s { s with params := params } := .same rfl rfl
  refine ⟨h.state.same rfl rfl rfl rfl rfl, fun p hp => ?_, h.single⟩
  exact (h.posts p hp).mono hgrow le_rfl fun _ job' hjob' hr =>
    ⟨job', hjob', hr, rfl, fun _ _ h => h⟩

lemma ChainInv.drop {s : ScmsState S P} {b b' : Multiset (ScmsPost S P)}
    (h : ChainInv c s (b + b')) : ChainInv c s b' :=
  ⟨h.state, fun p hp => h.posts p (Multiset.mem_add.2 (.inr hp)), fun run la =>
    (Multiset.countP_le_of_le _ (Multiset.le_add_left b' b)).trans (h.single run la)⟩

lemma chainInv_new (c : Crypto S P) (certs : CertificateSizes) (params : ScmsParams) :
    ChainInv c (.new certs params) 0 := by
  refine ⟨⟨fun la l _ => ?_, fun h r hr => ?_, List.nodup_nil, fun job hjob => ?_,
    fun i lv f hf => ?_⟩, fun p hp => absurd hp (Multiset.notMem_zero _), fun run la => ?_⟩
  · cases la <;> exact ⟨Std.ExtTreeMap.getElem?_empty, Std.ExtTreeMap.getElem?_empty⟩
  · cases hr.symm.trans Std.ExtTreeMap.getElem?_empty
  · exact absurd hjob List.not_mem_nil
  · cases hf.symm.trans Std.ExtTreeMap.getElem?_empty
  · exact Nat.zero_le _

end Keeps

end V2xw.Scms
