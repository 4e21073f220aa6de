import V2xw.Scms.Provision
import V2xw.Scms.System

set_option linter.unusedSectionVars false

/-!
# Keys and the caterpillars they come from

A device can sign with a credential if the certified key is the one its caterpillar derives. The
caterpillar is replaced by every request of the device, while the keys made from an older one are
still at the authorities, on their way, or held by the device. This file follows the keys from the
request to the device: no message makes a key out of nothing, so whatever is true of the keys of
every request is true of every credential held.

## Main definitions

* `Key` — a public key for a slot, with the randomiser that went into it.
* `ScmsMsg.Within`, `ScmsState.PendingWithin`,
  `ScmsState.HeldWithin` — every key of a message, at the authorities, and held by a
  device, meets a condition.
* `freshRequests` — requests are made, and devices added, only where no key of an older
  caterpillar is left.

## Main results

* `handle_within` — handling a message makes no key out of nothing.
* `credentials_usable` — a device can sign with every credential it holds.
-/

namespace V2xw.Scms

open V2xw.Core ScmsState

variable {S P : Type}

/-- A public key for a period and an index, with the randomiser that went into it. -/
structure Key (S P : Type) where
  i : ℕ
  j : ℕ
  r : S
  pub : P

/-- The key of a credential. -/
def IssuedCredential.key (cred : IssuedCredential S P) : Key S P :=
  ⟨cred.i, cred.j, cred.c, cred.certifiedPublic⟩

variable [AddCommGroup S] [AddCommGroup P]

/-- A key of the Registration Authority, with no randomiser yet. -/
def cocoonKey (i j : ℕ) (b : P) : Key S P := ⟨i, j, 0, b⟩

/-- The key of a caterpillar: the device derives its private key. -/
def Key.Fits (c : Crypto S P) (cat : Caterpillar S) (x : Key S P) : Prop :=
  c.mulBase (cat.signingPrivate c x.i x.j x.r) = x.pub

/-! ## Conditions on keys -/

section Within

variable (c : Crypto S P) (F : NodeId → Key S P → Prop)

/-- Every key a message carries for a device meets a condition. -/
def ScmsMsg.Within : ScmsMsg S P → Prop
  | .provisioningRequest req =>
    ∀ i j b, (cocoonsOf c req)[slot i j]? = some b → F req.device (cocoonKey i j b)
  | .certRequest device _ items => ∀ x ∈ items, F device (cocoonKey x.i x.j x.cocoonSigning)
  | .certResponse device _ creds => ∀ cred ∈ creds, F device cred.key
  | .batchDownload device _ creds => ∀ cred ∈ creds, F device cred.key
  | _ => True

/-- Every key waiting at the Registration Authority meets a condition: those of jobs that have not
been sent, and those of the repositories. -/
structure ScmsState.PendingWithin (s : ScmsState S P) : Prop where
  jobs : ∀ job ∈ s.ra.jobs, job.sent = false →
    ∀ i j b, job.cocoons[slot i j]? = some b → F job.device (cocoonKey i j b)
  repos : ∀ device i creds, batchIn s.ra.repos device i = some creds →
    ∀ cred ∈ creds, F device cred.key

/-- Every key a device holds meets a condition. -/
def ScmsState.HeldWithin (s : ScmsState S P) : Prop :=
  ∀ device dev, s.devices[device]? = some dev → ∀ i j cred, dev.credentials[slot i j]? = some cred →
    F device ⟨i, j, cred.c, cred.certifiedPublic⟩

variable {c F}

lemma ScmsMsg.Within.imp {G : NodeId → Key S P → Prop} {msg : ScmsMsg S P}
    (h : msg.Within c F) (hFG : ∀ d x, F d x → G d x) : msg.Within c G := by
  cases msg with
  | provisioningRequest req => exact fun i j b hb => hFG _ _ (h i j b hb)
  | certRequest device i items => exact fun x hx => hFG _ _ (h x hx)
  | certResponse device i creds => exact fun cred hcred => hFG _ _ (h cred hcred)
  | batchDownload device i creds => exact fun cred hcred => hFG _ _ (h cred hcred)
  | _ => trivial

lemma ScmsMsg.Within.and {G : NodeId → Key S P → Prop} {msg : ScmsMsg S P}
    (h : msg.Within c F) (h' : msg.Within c G) : msg.Within c fun d x => F d x ∧ G d x := by
  cases msg with
  | provisioningRequest req => exact fun i j b hb => ⟨h i j b hb, h' i j b hb⟩
  | certRequest device i items => exact fun x hx => ⟨h x hx, h' x hx⟩
  | certResponse device i creds => exact fun cred hcred => ⟨h cred hcred, h' cred hcred⟩
  | batchDownload device i creds => exact fun cred hcred => ⟨h cred hcred, h' cred hcred⟩
  | _ => trivial

lemma ScmsState.PendingWithin.congr {s s' : ScmsState S P} (h : s.PendingWithin F)
    (hjobs : s'.ra.jobs = s.ra.jobs) (hrepos : s'.ra.repos = s.ra.repos) : s'.PendingWithin F where
  jobs := by rw [hjobs]; exact h.jobs
  repos := by rw [hrepos]; exact h.repos

lemma ScmsState.HeldWithin.congr {s s' : ScmsState S P} (h : s.HeldWithin F)
    (hdev : ∀ n : NodeId, s'.devices[n]?.map DeviceState.holdings =
      s.devices[n]?.map DeviceState.holdings) : s'.HeldWithin F := by
  intro device dev' hdev' i j cred hcred
  have hmap := hdev device
  rw [hdev', Option.map_some, eq_comm, Option.map_eq_some_iff] at hmap
  obtain ⟨dev, hdev, hhold⟩ := hmap
  refine h device dev hdev i j cred ?_
  have hcreds : dev.credentials = dev'.credentials := congrArg (fun x => x.2.1) hhold
  rw [hcreds, hcred]

end Within

/-! ## No key is made out of nothing -/

section Handle

variable {c : Crypto S P} {F : NodeId → Key S P → Prop} {s s' : ScmsState S P}
  {d : Delivery (ScmsMsg S P)} {out' : Outbox (ScmsMsg S P)} {cost : OpDescriptor → Duration}

lemma mem_itemsOf {job : ProvisioningJob P} {i : ℕ} {x : CertRequestItem P}
    (h : x ∈ itemsOf job i) : x.i = i ∧ job.cocoons[slot x.i x.j]? = some x.cocoonSigning := by
  simp only [itemsOf, List.mem_filterMap, Option.bind_eq_bind, Option.bind_eq_some_iff,
    Option.some.injEq] at h
  obtain ⟨j, -, b, hb, p1, -, p2, -, l1, -, l2, -, rfl⟩ := h
  exact ⟨rfl, hb⟩

lemma get_installBatch (creds : List (IssuedCredential S P))
    (m : OrdMap Slot (IssuedCredential S P)) (k : Slot) (cred : IssuedCredential S P)
    (h : (installBatch creds m)[k]? = some cred) :
    m[k]? = some cred ∨ cred ∈ creds ∧ k = slot cred.i cred.j := by
  rcases OrdMap.get_foldl_insert_some (fun cred : IssuedCredential S P => slot cred.i cred.j) id
    creds m k cred h with h | ⟨x, hx, hk, rfl⟩
  · exact .inl h
  · exact .inr ⟨hx, hk.symm⟩

/-- **No key is made out of nothing.** A condition that certification respects is met by every key
at the authorities, held by a device or posted by a handler, if it was met before the message and by
the message.

**Proof sketch.** By the messages of the provisioning flow: a request opens a job with its cocoon
keys, the shuffle sends the keys of jobs not sent yet, certification adds a randomiser, and a batch
is stored, downloaded and installed as it is. The other families touch no key. -/
theorem handle_within
    (hF : ∀ n i j b r, F n (cocoonKey i j b) → F n ⟨i, j, r, b + c.mulBase r⟩)
    (h : s.handle c d (Outbox.new cost) = .ok (s', out')) (hpend : s.PendingWithin F)
    (hheld : s.HeldWithin F) (hmsg : d.msg.Within c F) (node : NodeId) :
    s'.PendingWithin F ∧ s'.HeldWithin F ∧ ∀ q ∈ out'.posts node, q.msg.Within c F := by
  by_cases hf : d.msg.family = .provisioning
  swap
  · obtain ⟨hjobs, hrepos, -, -, -, -, -, -, hdev⟩ := handle_frame_provisioning h hf
    refine ⟨hpend.congr hjobs hrepos, hheld.congr hdev, fun q hq => ?_⟩
    have hq := handle_posts node h q hq
    have hqf : q.msg.family ≠ .provisioning := by
      rcases hq with hq | ⟨-, hq⟩
      · rw [hq]; exact hf
      · rw [hq]; decide
    revert hqf
    cases q.msg <;> simp [ScmsMsg.family, ScmsMsg.Within]
  unfold handle at h
  cases hm : d.msg <;> simp only [hm, Except.ok.injEq, ScmsMsg.family, reduceCtorEq] at h hf
  case provisioningRequest req =>
    rw [hm] at hmsg
    simp only [onProvisioningRequest, onProvisioningRequestAtRa, preLinkageRequestTo] at h
    split_ifs at h <;> cases h
    · refine ⟨hpend, hheld, ?_⟩
      simpa [Outbox.posts, Outbox.sendPost] using hmsg
    · refine ⟨hpend, hheld, ?_⟩
      simpa [Outbox.posts, Outbox.sendPost] using hmsg
    · exact ⟨hpend.congr rfl rfl, hheld, by simp [Outbox.posts]⟩
    · refine ⟨⟨fun job hjob hsent => ?_, hpend.repos⟩, hheld, ?_⟩
      · rcases List.mem_append.1 hjob with hjob | hjob
        · exact hpend.jobs job hjob hsent
        · obtain rfl := List.mem_singleton.1 hjob
          exact hmsg
      · simp [Outbox.posts, Outbox.sendPost, ScmsMsg.Within]
  case provisioningAck device hash =>
    cases h
    exact ⟨hpend, hheld, by simp [Outbox.posts, Outbox.timerPost, ScmsMsg.Within]⟩
  case preLinkageRequest device la startI periods jmax =>
    cases h
    exact ⟨hpend.congr rfl rfl, hheld, by simp [Outbox.posts, Outbox.sendPost, ScmsMsg.Within]⟩
  case preLinkageResponse batch =>
    unfold onPreLinkageResponse at h
    split at h
    · cases h
    next job hjob =>
      have hjobs : ∀ job' ∈ updateJob d.run (answered batch) s.ra.jobs, job'.sent = false →
          ∀ i j b, job'.cocoons[slot i j]? = some b → F job'.device (cocoonKey i j b) := by
        intro job' hmem hsent i j b hb
        rcases mem_updateJob hmem with hmem | ⟨old, hold, rfl⟩
        · exact hpend.jobs job' hmem hsent i j b hb
        · exact hpend.jobs old (List.mem_of_find?_eq_some hold) hsent i j b hb
      dsimp only at h
      split_ifs at h <;> cases h <;>
        exact ⟨⟨hjobs, hpend.repos⟩, hheld, by simp [Outbox.posts, Outbox.timerPost, ScmsMsg.Within]⟩
  case shuffleTimer =>
    cases h
    obtain ⟨hsends, htimers⟩ := foldl_releaseJob_spec s d (s.ra.jobs.filter released)
      (Outbox.new cost)
    refine ⟨⟨fun job hjob hsent => ?_, fun device i creds hb => ?_⟩, hheld, ?_⟩
    · obtain ⟨old, hold, rfl⟩ := List.mem_map.1 hjob
      split_ifs at hsent ⊢
      exact hpend.jobs old hold hsent
    · exact hpend.repos device i creds ((batchIn_openRepos _ _ _ _).symm.trans hb)
    · simp only [Outbox.posts, hsends, htimers, Outbox.sends_new,
        Outbox.timers_new, List.map_nil, List.nil_append, List.mem_map, List.mem_flatMap]
      rintro q ⟨x, ⟨job, hjob, i, -, rfl⟩, rfl⟩ item hitem
      obtain ⟨hmem, hrel⟩ := List.mem_filter.1 hjob
      have hsent : job.sent = false := by
        simp only [released, Bool.not_or, Bool.and_eq_true, Bool.not_eq_true'] at hrel
        exact hrel.2
      exact hpend.jobs job hmem hsent _ _ _ (mem_itemsOf hitem).2
  case certRequest device i items =>
    rw [hm] at hmsg
    unfold onCertRequest at h
    cases hopen : items.mapM (openItem d.dst) with
    | none => simp [hopen] at h
    | some opened =>
      obtain ⟨rng, pca, hframe⟩ := certifyAll_frame c opened s
      simp only [hopen, hframe, Except.ok.injEq, Prod.mk.injEq] at h
      obtain ⟨rfl, rfl⟩ := h
      refine ⟨hpend.congr rfl rfl, hheld, ?_⟩
      have hcreds : ∀ cred ∈ (certifyAll c s opened).1, F device cred.key := by
        intro cred hcred
        obtain ⟨x, hx, r, rfl⟩ := mem_certifyAll c opened s cred hcred
        rw [mapM_openItem hopen] at hx
        obtain ⟨item, hitem, rfl⟩ := List.mem_map.1 hx
        exact hF _ _ _ _ r (hmsg item hitem)
      split_ifs <;> simpa [Outbox.posts, Outbox.sendPost, ScmsMsg.Within] using hcreds
  case certResponse device i creds =>
    rw [hm] at hmsg
    have hrepos : ∀ n k bs, batchIn (s.ra.repos.insert device
        ((s.ra.repos[device]?.getD ∅).insert i creds)) n k = some bs →
        ∀ cred ∈ bs, F n cred.key := by
      intro n k bs hb
      rw [batchIn_store] at hb
      split_ifs at hb with hn
      · cases hb
        obtain ⟨rfl, rfl⟩ := hn
        exact hmsg
      · exact hpend.repos n k bs hb
    have hjobs : ∀ job' ∈ updateJob d.run certified s.ra.jobs, job'.sent = false →
        ∀ i j b, job'.cocoons[slot i j]? = some b → F job'.device (cocoonKey i j b) := by
      intro job' hmem hsent i j b hb
      rcases mem_updateJob hmem with hmem | ⟨old, hold, rfl⟩
      · exact hpend.jobs job' hmem hsent i j b hb
      · exact hpend.jobs old (List.mem_of_find?_eq_some hold) hsent i j b hb
    unfold onCertResponse at h
    split at h
    · cases h
      exact ⟨⟨hpend.jobs, hrepos⟩, hheld, by simp [Outbox.posts]⟩
    · cases h
      refine ⟨⟨fun job' hmem => hjobs job' ?_, hrepos⟩, hheld, ?_⟩
      · dsimp only at hmem
        split_ifs at hmem
        · exact List.mem_of_mem_filter hmem
        · exact hmem
      · split_ifs <;> simp [Outbox.posts]
  case batchDownloadRequest device i =>
    unfold onBatchDownloadRequest at h
    split_ifs at h <;> cases h
    · exact ⟨hpend, hheld, by simp [Outbox.posts, Outbox.sendPost, ScmsMsg.Within]⟩
    · refine ⟨hpend, hheld, ?_⟩
      cases hb : s.ra.batch device i with
      | none => simp [Outbox.posts, Outbox.sendPost, ScmsMsg.Within]
      | some creds =>
        simpa [Outbox.posts, Outbox.sendPost, ScmsMsg.Within] using hpend.repos device i creds hb
  case batchDownload device i creds =>
    rw [hm] at hmsg
    unfold onBatchDownload at h
    cases hdev : s.devices[device]? with
    | none => simp [hdev] at h
    | some dev =>
      -- Whatever else happens to the device, it holds what it held or the batch.
      have hinstall : ∀ dev' : DeviceState S P, (dev'.credentials = dev.credentials ∨
          dev'.credentials = installBatch creds dev.credentials) →
          ({ s with devices := s.devices.insert device dev' } : ScmsState S P).HeldWithin F := by
        intro dev' hdev' n x hx i j cred hcred
        change (s.devices.insert device dev')[n]? = some x at hx
        rw [OrdMap.get_insert] at hx
        split_ifs at hx with hn
        · cases hx
          subst hn
          rcases hdev' with heq | heq
          · exact hheld device dev hdev i j cred (heq ▸ hcred)
          · rcases get_installBatch creds _ _ _ (heq ▸ hcred) with hcred | ⟨hmem, hk⟩
            · exact hheld device dev hdev i j cred hcred
            · obtain ⟨rfl, rfl⟩ := slot_inj.1 hk
              exact hmsg cred hmem
        · exact hheld n x hx i j cred hcred
      simp only [hdev] at h
      split_ifs at h
      · cases h
        exact ⟨hpend.congr rfl rfl, hinstall _ (.inl rfl),
          by simp [Outbox.posts, Outbox.timerPost, ScmsMsg.Within]⟩
      · cases h
        exact ⟨hpend.congr rfl rfl, hinstall _ (.inl rfl), by simp [Outbox.posts]⟩
      · split at h
        · cases h
          exact ⟨hpend.congr rfl rfl, hinstall _ (.inr rfl), by simp [Outbox.posts]⟩
        · split_ifs at h <;> cases h <;>
            exact ⟨hpend.congr rfl rfl, hinstall _ (.inr rfl),
              by simp [Outbox.posts, Outbox.sendPost, ScmsMsg.Within]⟩

end Handle

/-! ## Usable credentials -/

section Usable

variable (c : Crypto S P)

/-- The keys of a known device are those of its caterpillar. -/
def ScmsState.OwnKey (s : ScmsState S P) (device : NodeId) (x : Key S P) : Prop :=
  ∀ dev, s.devices[device]? = some dev → ∃ cat, dev.caterpillar = some cat ∧ x.Fits c cat

/-- No key for a device is at the authorities or on its way. -/
def Cleared (s : ScmsState S P) (b : Multiset (ScmsPost S P)) (device : NodeId) : Prop :=
  s.PendingWithin (fun d _ => d ≠ device) ∧ ∀ p ∈ b, p.msg.Within c fun d _ => d ≠ device

/-- A device is added only where no key for it is on its way, and a known device makes a request
only where it holds no credential either. -/
def freshRequests : Guard S P
  | .inl (.addDevice node), s, b => Cleared c s b node
  | .inl (.request device _ _ _ _), s, b =>
    ∀ dev, s.devices[device]? = some dev →
      Cleared c s b device ∧ ∀ i j : ℕ, dev.credentials[slot i j]? = none
  | _, _, _ => True

variable {c}

lemma ScmsState.OwnKey.certified {s : ScmsState S P} {device : NodeId} {i j : ℕ} {b : P} (r : S)
    (h : s.OwnKey c device (cocoonKey i j b)) : s.OwnKey c device ⟨i, j, r, b + c.mulBase r⟩ := by
  intro dev hdev
  obtain ⟨cat, hcat, hfits⟩ := h dev hdev
  refine ⟨cat, hcat, ?_⟩
  have hb : c.mulBase (cat.a + f1 c cat.ck i j + 0) = b := hfits
  show c.mulBase (cat.a + f1 c cat.ck i j + r) = b + c.mulBase r
  rw [map_add _ _ r, ← hb, add_zero]

lemma fits_cocoonsOf {cat : Caterpillar S} {device : NodeId} {startI periods jmax i j : ℕ} {b : P}
    (h : (cocoonsOf c (ScmsRun.requestOf c device cat startI periods jmax))[slot i j]? = some b) :
    (cocoonKey i j b : Key S P).Fits c cat := by
  rw [get_cocoonsOf] at h
  split_ifs at h
  cases h
  show c.mulBase (cat.a + f1 c cat.ck i j + 0) = c.mulBase cat.a + c.mulBase (f1 c cat.ck i j)
  rw [add_zero, map_add]

/-- Two states whose devices hold the same have the same keys of devices. -/
lemma ownKey_congr {s s' : ScmsState S P}
    (hdev : ∀ n : NodeId, s'.devices[n]?.map DeviceState.caterpillar =
      s.devices[n]?.map DeviceState.caterpillar) : s'.OwnKey c = s.OwnKey c := by
  have himp : ∀ s s' : ScmsState S P, (∀ n : NodeId, s'.devices[n]?.map DeviceState.caterpillar =
      s.devices[n]?.map DeviceState.caterpillar) → ∀ d x, s.OwnKey c d x → s'.OwnKey c d x := by
    intro s s' hdev d x h dev' hdev'
    have hmap := hdev d
    rw [hdev', Option.map_some, eq_comm, Option.map_eq_some_iff] at hmap
    obtain ⟨dev, hd, hcat⟩ := hmap
    obtain ⟨cat, hcat', hfits⟩ := h dev hd
    exact ⟨cat, hcat ▸ hcat', hfits⟩
  funext d x
  exact propext ⟨himp s' s (fun n => (hdev n).symm) d x, himp s s' hdev d x⟩

/-- No message changes a caterpillar. -/
lemma handle_caterpillar {s s' : ScmsState S P} {d : Delivery (ScmsMsg S P)}
    {out out' : Outbox (ScmsMsg S P)} (h : s.handle c d out = .ok (s', out')) (n : NodeId) :
    s'.devices[n]?.map DeviceState.caterpillar = s.devices[n]?.map DeviceState.caterpillar := by
  by_cases hf : d.msg.family = .provisioning
  swap
  · obtain ⟨-, -, -, -, -, -, -, -, hdev⟩ := handle_frame_provisioning h hf
    have hn := congrArg (Option.map Prod.fst) (hdev n)
    rwa [Option.map_map, Option.map_map] at hn
  cases hm : d.msg.changesDevice with
  | false => rw [handle_frame_devices h hm]
  | true =>
    unfold handle at h
    cases hmsg : d.msg <;> simp only [hmsg, ScmsMsg.changesDevice, ScmsMsg.family, reduceCtorEq,
      Bool.false_eq_true] at hf hm h
    case batchDownload device i creds =>
      unfold onBatchDownload at h
      cases hdev : s.devices[device]? with
      | none => simp [hdev] at h
      | some dev =>
        simp only [hdev] at h
        repeat' split at h
        all_goals
          cases h
          exact map_insert_device DeviceState.caterpillar hdev (by rfl) n

lemma ownKey_insert {s : ScmsState S P} {device d : NodeId} {dev : DeviceState S P} {x : Key S P}
    (hd : d ≠ device) (h : s.OwnKey c d x) :
    ({ s with devices := s.devices.insert device dev } : ScmsState S P).OwnKey c d x := by
  intro dev' hdev'
  change (s.devices.insert device dev)[d]? = some dev' at hdev'
  rw [OrdMap.get_insert, if_neg fun h => hd h.symm] at hdev'
  exact h dev' hdev'

/-- Every key at the authorities, on its way or held belongs to the caterpillar of its device. -/
def Owned (c : Crypto S P) (s : ScmsState S P) (b : Multiset (ScmsPost S P)) : Prop :=
  (s.PendingWithin (s.OwnKey c) ∧ s.HeldWithin (s.OwnKey c)) ∧
    ∀ p ∈ b, p.msg.Within c (s.OwnKey c)

/-- **Keys stay with their caterpillars** as long as no request replaces the caterpillar of a key
that is left.

**Proof sketch.** A message changes no caterpillar and makes no key out of nothing. A request
changes the caterpillar of a device of which no key is left, and its own keys are those of the new
one; a device that is added has no key, and none is left for it. -/
lemma keeps_owned (c : Crypto S P) : (scms c).Keeps (freshRequests c) (Owned c) := by
  refine Mailbox.Keeps.of_forall
    (I := fun s : ScmsState S P => s.PendingWithin (s.OwnKey c) ∧ s.HeldWithin (s.OwnKey c))
    (L := fun (s : ScmsState S P) (p : ScmsPost S P) => p.msg.Within c (s.OwnKey c)) ?_ ?_
  · rintro e s b hG ⟨hpend, hheld⟩ hmsg
    cases e with
    | addDevice node =>
      obtain ⟨hclear, hclear'⟩ := hG
      have hF : ∀ d x, s.OwnKey c d x → d ≠ node → ({ s with
          devices := s.devices.insert node (DeviceState.new node) } : ScmsState S P).OwnKey c d x :=
        fun d x h hd => ownKey_insert hd h
      refine ⟨⟨⟨fun job hjob hsent i j b hb => ?_, fun d i creds hb cred hcred => ?_⟩,
        fun d dev hdev i j cred hcred => ?_⟩, by simp [scms, Event.apply], fun p hp => ?_⟩
      · exact hF _ _ (hpend.jobs job hjob hsent i j b hb) (hclear.jobs job hjob hsent i j b hb)
      · exact hF _ _ (hpend.repos d i creds hb cred hcred) (hclear.repos d i creds hb cred hcred)
      · change (s.devices.insert node (DeviceState.new node))[d]? = some dev at hdev
        by_cases hd : node = d
        · rw [OrdMap.get_insert, if_pos hd] at hdev
          cases hdev
          cases hcred.symm.trans Std.ExtTreeMap.getElem?_empty
        · rw [OrdMap.get_insert, if_neg hd] at hdev
          exact hF _ _ (hheld d dev hdev i j cred hcred) fun h => hd h.symm
      · exact ((hmsg p hp).and (hclear' p hp)).imp fun d x h => hF d x h.1 h.2
    | request device startI periods jmax flow =>
      cases hdev : s.devices[device]? with
      | none =>
        simp only [scms, Event.apply, requested_of_none c startI periods hdev]
        refine ⟨⟨⟨hpend.jobs, hpend.repos⟩, hheld⟩, ?_, hmsg⟩
        simp only [List.mem_singleton]
        rintro p rfl i j b hb dev' hdev'
        change s.devices[device]? = some dev' at hdev'
        rw [hdev] at hdev'
        cases hdev'
      | some dev =>
        obtain ⟨⟨hclear, hclear'⟩, hnone⟩ := hG dev hdev
        simp only [scms, Event.apply, requested_of_some c startI periods hdev]
        set dev' : DeviceState S P := { dev with
          caterpillar := some (s.nextCaterpillar c device)
          downloadRetries := 0
          provisioning := some ⟨startI, periods, 0, false⟩ } with hdev'
        have hF : ∀ d x, s.OwnKey c d x → d ≠ device → ({ s.bump 1 with
            rng := (s.rng.fillBytes c device seedBytes).2
            devices := s.devices.insert device dev' } : ScmsState S P).OwnKey c d x :=
          fun d x h hd => ownKey_insert (s := s) hd h
        refine ⟨⟨⟨fun job hjob hsent i j b hb => ?_, fun d i creds hb cred hcred => ?_⟩,
          fun d x hx i j cred hcred => ?_⟩, ?_, fun p hp => ?_⟩
        · exact hF _ _ (hpend.jobs job hjob hsent i j b hb) (hclear.jobs job hjob hsent i j b hb)
        · exact hF _ _ (hpend.repos d i creds hb cred hcred) (hclear.repos d i creds hb cred hcred)
        · change (s.devices.insert device dev')[d]? = some x at hx
          by_cases hd : device = d
          · rw [OrdMap.get_insert, if_pos hd] at hx
            cases hx
            cases hcred.symm.trans (hnone i j)
          · rw [OrdMap.get_insert, if_neg hd] at hx
            exact hF _ _ (hheld d x hx i j cred hcred) fun h => hd h.symm
        · simp only [List.mem_singleton]
          rintro p rfl i j b hb x hx
          change (s.devices.insert device dev')[device]? = some x at hx
          rw [OrdMap.get_insert, if_pos rfl] at hx
          cases hx
          exact ⟨_, rfl, fits_cocoonsOf hb⟩
        · exact ((hmsg p hp).and (hclear' p hp)).imp fun d x h => hF d x h.1 h.2
    | _ =>
      exact ⟨⟨⟨hpend.jobs, hpend.repos⟩, hheld⟩,
        by simp [scms, Event.apply, ScmsMsg.Within], hmsg⟩
  · rintro p s s' posts b hr - ⟨hpend, hheld⟩ hmsg
    cases hr with
    | handled time cost h =>
      have hown : s'.OwnKey c = s.OwnKey c := ownKey_congr fun n => handle_caterpillar h n
      rw [hown]
      obtain ⟨hpend', hheld', hposts⟩ := handle_within
        (fun n i j b r hb => hb.certified r) h hpend hheld hmsg p.dst
      exact ⟨⟨hpend', hheld'⟩, hposts, fun q _ hq => hq⟩
    | refused e time cost h =>
      exact ⟨⟨hpend, hheld⟩, fun q hq => absurd hq List.not_mem_nil, fun q _ hq => hq⟩

/-- **Every credential a device holds is one it can sign with**, in every state of every run in
which no request is made, and no device added, while a key made for the device with an older
caterpillar is left. -/
theorem credentials_usable [DecidableEq P] {charge : String → OpDescriptor → Duration}
    {certs : CertificateSizes} {params : ScmsParams} {t0 : SimTime} {is : List Op}
    {os : List (Reply S P)} {D : Driver S P}
    (h : (machine c charge certs params t0).StepsIf (Allowed (freshRequests c))
      (machine c charge certs params t0).init is os D) {device : NodeId} {dev : DeviceState S P}
    (hdev : D.state.devices[device]? = some dev) {i j : ℕ} {cred : IssuedCredential S P}
    (hcred : dev.credentials[slot i j]? = some cred) : dev.credentialIsUsable c i j = true := by
  have hfree : (freshRequests c).Free :=
    fun s b => ⟨fun _ => trivial, fun _ _ _ => trivial, fun _ => trivial, fun _ => trivial, trivial⟩
  have hnew : Owned c (.new certs params) 0 := by
    refine ⟨⟨⟨fun job hjob => absurd hjob List.not_mem_nil, fun d i creds hb => ?_⟩,
      fun d dev hdev => ?_⟩, fun p hp => absurd hp (Multiset.notMem_zero _)⟩
    · cases hb.symm.trans (congrArg (Option.bind · _) Std.ExtTreeMap.getElem?_empty)
    · cases hdev.symm.trans Std.ExtTreeMap.getElem?_empty
  obtain ⟨-, ⟨-, hheld⟩, -⟩ := steps_keeps (keeps_owned c) hfree
    (fun s b params h => ⟨⟨⟨h.1.1.jobs, h.1.1.repos⟩, h.1.2⟩, h.2⟩)
    (fun s b b' _ h => ⟨h.1, fun p hp => h.2 p (Multiset.mem_add.2 (.inr hp))⟩) hnew h
  obtain ⟨cat, hcat, hfits⟩ := hheld device dev hdev i j cred hcred dev hdev
  simp only [DeviceState.credentialIsUsable, hcat, hcred, derivedKeyMatches, decide_eq_true_eq]
  exact hfits

end Usable

/-! ## One request, and a second one -/

/-- A check that implies `freshRequests`: devices are added, and requests made, while nothing has
been issued yet and nothing is scheduled. -/
def blankRequests (D : Driver S P) : Op → Bool
  | .addDevice _ | .provision _ _ _ _ _ =>
    D.run.state.ra.jobs.isEmpty && D.run.state.ra.repos.isEmpty && D.run.kernel.heap.isEmpty &&
      D.run.state.devices.toList.all (fun x => x.2.credentials.isEmpty) && D.preloading.isNone
  | .enrol _ _ => true
  | .deliver => D.preloading.isNone
  | _ => false

lemma allowed_of_blankRequests {c : Crypto S P} {D : Driver S P} {op : Op}
    (h : blankRequests D op = true) : Allowed (freshRequests c) D op := by
  obtain ⟨r, preloading⟩ := D
  have hclear : ∀ device, r.state.ra.jobs.isEmpty → r.state.ra.repos.isEmpty →
      r.kernel.heap.isEmpty → preloading.isNone →
      Cleared c r.state (Driver.posts ⟨r, preloading⟩) device := by
    intro device hjobs hrepos hheap hpre
    obtain rfl := Option.isNone_iff_eq_none.1 hpre
    refine ⟨⟨fun job hjob => ?_, fun d i creds hb => ?_⟩, fun p hp => ?_⟩
    · rw [List.isEmpty_iff.1 hjobs] at hjob
      exact absurd hjob List.not_mem_nil
    · rw [batchIn, OrdMap.get_of_isEmpty hrepos] at hb
      cases hb
    · rw [Driver.posts_none, Kernel.posts, List.isEmpty_iff.1 hheap] at hp
      exact absurd hp (Multiset.notMem_zero _)
  cases op with
  | addDevice node =>
    simp only [blankRequests, Bool.and_eq_true] at h
    exact hclear node h.1.1.1.1 h.1.1.1.2 h.1.1.2 h.2
  | provision device time startI periods jmax =>
    simp only [blankRequests, Bool.and_eq_true] at h
    refine fun dev hdev => ⟨hclear device h.1.1.1.1 h.1.1.1.2 h.1.1.2 h.2, fun i j => ?_⟩
    have hempty := List.all_eq_true.1 h.1.2 _ (OrdMap.mem_toList.2 hdev)
    exact OrdMap.get_of_isEmpty hempty _
  | enrol device time => trivial
  | deliver =>
    refine ⟨fun q k _ => trivial, fun p _ hp => ?_⟩
    obtain rfl := Option.isNone_iff_eq_none.1 h
    cases hp
  | _ => cases h

/-- A device that makes one request can sign with the credential it gets. -/
theorem credentials_usable_provisioned : ∃ is os D dev cred,
    hand.StepsIf (Allowed (freshRequests handCrypto)) hand.init is os D ∧
      D.state.devices[1000]? = some dev ∧ dev.credentials[slot 0 0]? = some cred ∧
      dev.credentialIsUsable handCrypto 0 0 = true := by
  have hrun : (hand.runIf blankRequests hand.init
      ([.addDevice 1000, .provision 1000 0 0 1 1] ++ deliveries 40)).any (fun x =>
        x.2.state.devices[1000]?.any fun dev => dev.credentials[slot 0 0]?.isSome) = true := by
    decide +kernel
  obtain ⟨os, D, hsteps, hany⟩ := Machine.exists_stepsIf
    (fun _ _ h => allowed_of_blankRequests (c := handCrypto) h) hrun
  obtain ⟨dev, hdev, hsome⟩ := (Option.any_eq_true _ _).1 hany
  obtain ⟨cred, hcred⟩ := Option.isSome_iff_exists.1 hsome
  exact ⟨_, os, D, dev, cred, hsteps, hdev, hcred, credentials_usable hsteps hdev hcred⟩

/-- A top-up replaces the caterpillar, and the device cannot sign with the credential it already
holds any more. -/
theorem topup_spoils_credential : ∃ D dev, hand.Reachable D ∧
    D.state.devices[1000]? = some dev ∧ dev.credentials[slot 0 0]?.isSome ∧
      dev.credentialIsUsable handCrypto 0 0 = false := by
  have hrun : (hand.runIf (fun _ _ => true) hand.init ([.addDevice 1000, .enrol 1000 0] ++
      deliveries 10 ++ [.provision 1000 0 0 1 1] ++ deliveries 40 ++ [.topup 1000 0 1 1])).any
      (fun x => x.2.state.devices[1000]?.any fun dev =>
        dev.credentials[slot 0 0]?.isSome && !dev.credentialIsUsable handCrypto 0 0) = true := by
    decide +kernel
  obtain ⟨os, D, hreach, hany⟩ := Machine.exists_reachable hrun
  obtain ⟨dev, hdev, hboth⟩ := (Option.any_eq_true _ _).1 hany
  simp only [Bool.and_eq_true, Bool.not_eq_true'] at hboth
  exact ⟨D, dev, hreach, hdev, hboth⟩

end V2xw.Scms
