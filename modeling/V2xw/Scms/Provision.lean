import V2xw.Scms.HandleSpec

set_option linter.unusedSectionVars false

/-!
# The data of the provisioning flow

What the loops of the provisioning handlers compute, said once for every property of the flow: the
slots of a request, the lookups in its cocoon keys, a job found or changed by its run, the batches
of the repositories, and the credentials of a certificate request.

## Main results

* `get_cocoonsOf` — the cocoon keys of a request.
* `mem_updateJob` — jobs and their runs.
* `batchIn_store`, `batchIn_openRepos` — batches.
* `mem_certifyAll` — the credentials issued for opened requests.
-/

namespace V2xw.Scms

open V2xw.Core ScmsState

variable {S P : Type} [AddCommGroup S] [AddCommGroup P]

/-! ## Slots -/

@[simp]
lemma slot_inj {i j i' j' : ℕ} : slot i j = slot i' j' ↔ i = i' ∧ j = j' := by
  unfold slot
  rw [toLex_inj, Prod.mk.injEq]

/-- A loop of insertions under keys with a common value finds it under each of them. -/
lemma get_foldl_insert_fun {κ ν α : Type} [LinearOrder κ] (key : α → κ) (f : κ → ν) (l : List α) :
    ∀ (m : OrdMap κ ν) (k : κ), (l.foldl (fun m a => m.insert (key a) (f (key a))) m)[k]? =
      if ∃ a ∈ l, key a = k then some (f k) else m[k]? := by
  induction l with
  | nil => intro m k; simp
  | cons a l ih =>
    intro m k
    rw [List.foldl_cons, ih, OrdMap.get_insert]
    by_cases hl : ∃ x ∈ l, key x = k
    · have hal : ∃ x ∈ a :: l, key x = k := by
        obtain ⟨x, hx, hk⟩ := hl
        exact ⟨x, List.mem_cons_of_mem _ hx, hk⟩
      rw [if_pos hl, if_pos hal]
    · rw [if_neg hl]
      by_cases ha : key a = k
      · rw [if_pos ha, if_pos ⟨a, List.mem_cons_self, ha⟩, ha]
      · rw [if_neg ha, if_neg]
        rintro ⟨x, hx, hk⟩
        rcases List.mem_cons.1 hx with rfl | hx
        · exact ha hk
        · exact hl ⟨x, hx, hk⟩

/-- The slots of a request, in the order of its loops. -/
def slotsOf (startI periods jmax : ℕ) : List Slot :=
  (periodRange startI periods).flatMap fun i => (List.range jmax).map fun j => slot i j

/-- The cocoon signing key of a request for a slot. -/
def cocoonOf (c : Crypto S P) (req : ProvisioningRequest P) (k : Slot) : P :=
  (raCocoonKeys c req.signingPublic req.encryptionPublic req.ck req.ek (ofLex k).1 (ofLex k).2).1

lemma cocoonsOf_eq (c : Crypto S P) (req : ProvisioningRequest P) :
    cocoonsOf c req = (slotsOf req.startI req.periods req.jmax).foldl
      (fun m k => m.insert k (cocoonOf c req k)) ∅ := by
  unfold cocoonsOf slotsOf
  rw [List.foldl_flatMap]
  simp only [List.foldl_map]
  rfl

/-- **The cocoon keys of a request**: one for each of its slots, and no others. -/
theorem get_cocoonsOf (c : Crypto S P) (req : ProvisioningRequest P) (k : Slot) :
    (cocoonsOf c req)[k]? =
      if k ∈ slotsOf req.startI req.periods req.jmax then some (cocoonOf c req k) else none := by
  have hfold := get_foldl_insert_fun id (cocoonOf c req) (slotsOf req.startI req.periods req.jmax)
    ∅ k
  simp only [id_eq, exists_eq_right, Std.ExtTreeMap.getElem?_empty] at hfold
  rw [cocoonsOf_eq, hfold]

/-! ## Jobs -/

/-- A job after a change is an old one, or the changed one of the run. -/
lemma mem_updateJob {run : FlowRun} {f : ProvisioningJob P → ProvisioningJob P}
    {jobs : List (ProvisioningJob P)} {job : ProvisioningJob P} (h : job ∈ updateJob run f jobs) :
    job ∈ jobs ∨ ∃ old, jobs.find? (·.run = run) = some old ∧ job = f old := by
  induction jobs with
  | nil => exact .inl h
  | cons a jobs ih =>
    rw [updateJob] at h
    split at h
    next hrun =>
      rcases List.mem_cons.1 h with rfl | h
      · exact .inr ⟨a, by simp [hrun], rfl⟩
      · exact .inl (List.mem_cons_of_mem _ h)
    next hrun =>
      rcases List.mem_cons.1 h with rfl | h
      · exact .inl List.mem_cons_self
      · rcases ih h with h | ⟨old, hold, rfl⟩
        · exact .inl (List.mem_cons_of_mem _ h)
        · exact .inr ⟨old, by simpa [hrun] using hold, rfl⟩

/-- Where the hashes of jobs are distinct, a change makes one job new and leaves the jobs with other
hashes. -/
lemma mem_updateJob_of_nodup {run : FlowRun} {f : ProvisioningJob P → ProvisioningJob P}
    {jobs : List (ProvisioningJob P)} {job old : ProvisioningJob P}
    (hnodup : (jobs.map (·.requestHash)).Nodup) (hold : jobs.find? (·.run = run) = some old)
    (h : job ∈ updateJob run f jobs) :
    job = f old ∨ job ∈ jobs ∧ job.requestHash ≠ old.requestHash := by
  induction jobs with
  | nil => cases hold
  | cons a jobs ih =>
    rw [List.map_cons, List.nodup_cons] at hnodup
    rw [updateJob] at h
    split at h
    next hrun =>
      obtain rfl : a = old := by simpa [hrun] using hold
      rcases List.mem_cons.1 h with rfl | h
      · exact .inl rfl
      · refine .inr ⟨List.mem_cons_of_mem _ h, fun heq => hnodup.1 ?_⟩
        exact List.mem_map.2 ⟨job, h, heq⟩
    next hrun =>
      have hold' : jobs.find? (·.run = run) = some old := by simpa [hrun] using hold
      rcases List.mem_cons.1 h with rfl | h
      · refine .inr ⟨List.mem_cons_self, fun heq => hnodup.1 ?_⟩
        exact List.mem_map.2 ⟨old, List.mem_of_find?_eq_some hold', heq.symm⟩
      · rcases ih hnodup.2 hold' h with h | ⟨h, hne⟩
        · exact .inl h
        · exact .inr ⟨List.mem_cons_of_mem _ h, hne⟩

lemma map_updateJob {α : Type} (run : FlowRun) {f : ProvisioningJob P → ProvisioningJob P}
    {g : ProvisioningJob P → α} (hf : ∀ job, g (f job) = g job) (jobs : List (ProvisioningJob P)) :
    (updateJob run f jobs).map g = jobs.map g := by
  induction jobs with
  | nil => rfl
  | cons a jobs ih =>
    rw [updateJob]
    split
    · rw [List.map_cons, List.map_cons, hf]
    · rw [List.map_cons, List.map_cons, ih]

/-! ## Repositories -/

/-- The batch of a device and a period in the repositories. -/
def batchIn (repos : OrdMap NodeId (OrdMap ℕ (List (IssuedCredential S P)))) (device : NodeId)
    (i : ℕ) : Option (List (IssuedCredential S P)) :=
  repos[device]?.bind fun r => r[i]?

/-- A stored batch is the only one that changes. -/
lemma batchIn_store (repos : OrdMap NodeId (OrdMap ℕ (List (IssuedCredential S P))))
    (device : NodeId) (i : ℕ) (creds : List (IssuedCredential S P)) (d : NodeId) (k : ℕ) :
    batchIn (repos.insert device ((repos[device]?.getD ∅).insert i creds)) d k =
      if device = d ∧ i = k then some creds else batchIn repos d k := by
  unfold batchIn
  rw [OrdMap.get_insert]
  by_cases hd : device = d
  · subst hd
    rw [if_pos rfl, Option.bind_some, OrdMap.get_insert]
    by_cases hi : i = k
    · rw [if_pos hi, if_pos ⟨rfl, hi⟩]
    · rw [if_neg hi, if_neg fun h => hi h.2]
      cases repos[device]? with
      | none => exact Std.ExtTreeMap.getElem?_empty
      | some r => rfl
  · rw [if_neg hd, if_neg fun h => hd h.1]

/-- Opening repositories changes no batch. -/
lemma batchIn_openRepos (jobs : List (ProvisioningJob P)) :
    ∀ (repos : OrdMap NodeId (OrdMap ℕ (List (IssuedCredential S P)))) (d : NodeId) (k : ℕ),
      batchIn (jobs.foldl (fun repos job =>
        repos.insert job.device (repos[job.device]?.getD ∅)) repos) d k = batchIn repos d k := by
  induction jobs with
  | nil => exact fun repos d k => rfl
  | cons job jobs ih =>
    intro repos d k
    rw [List.foldl_cons, ih]
    unfold batchIn
    rw [OrdMap.get_insert]
    split_ifs with hd
    · subst hd
      cases repos[job.device]? with
      | none => exact Std.ExtTreeMap.getElem?_empty
      | some r => rfl
    · rfl

/-! ## Certification -/

/-- An opened certificate request. -/
def openedOf (item : CertRequestItem P) : OpenedItem P :=
  ⟨item, item.plv1.inner, item.plv2.inner, item.lci1.inner, item.lci2.inner⟩

lemma openItem_eq (opener : NodeId) (item : CertRequestItem P) :
    openItem opener item = if opener = nodes.pca then some (openedOf item) else none := by
  unfold openItem SealedForPca.openAs
  split_ifs <;> rfl

/-- Opened requests are the requests of the message. -/
lemma mapM_openItem {opener : NodeId} {items : List (CertRequestItem P)}
    {opened : List (OpenedItem P)} (h : items.mapM (openItem opener) = some opened) :
    opened = items.map openedOf := by
  induction items generalizing opened with
  | nil => simpa using h.symm
  | cons item items ih =>
    simp only [List.mapM_cons, openItem_eq, Option.bind_eq_bind, Option.pure_def] at h
    obtain ⟨x, hx, h⟩ := Option.bind_eq_some_iff.1 h
    obtain ⟨xs, hxs, h⟩ := Option.bind_eq_some_iff.1 h
    cases h
    split_ifs at hx
    cases hx
    rw [List.map_cons]
    congr 1
    refine ih ?_
    simpa only [openItem_eq] using hxs

/-- What has been issued after certifying was there before, or comes from an opened request. -/
lemma issued_certifyAll (c : Crypto S P) (xs : List (OpenedItem P)) :
    ∀ (s : ScmsState S P) (k : ℕ ×ₗ LinkageValue) (f : PcaLookup),
      (certifyAll c s xs).2.pca.issued[k]? = some f → s.pca.issued[k]? = some f ∨
        ∃ x ∈ xs, k = toLex (x.item.i, linkageValue x.plv1 x.plv2) ∧
          f = ⟨x.lci1, x.lci2, x.item.requestHash⟩ := by
  induction xs with
  | nil => exact fun s k f h => .inl h
  | cons x xs ih =>
    intro s k f h
    rcases ih (certify c s x).2 k f h with h | ⟨y, hy, hk, hf⟩
    · simp only [certify] at h
      rw [OrdMap.get_insert] at h
      split_ifs at h with hk
      · exact .inr ⟨x, List.mem_cons_self, hk.symm, (Option.some.inj h).symm⟩
      · exact .inl h
    · exact .inr ⟨y, List.mem_cons_of_mem _ hy, hk, hf⟩

/-- The credential of an opened request, with a randomiser. -/
def credentialOf (c : Crypto S P) (x : OpenedItem P) (r : S) : IssuedCredential S P :=
  ⟨x.item.i, x.item.j, linkageValue x.plv1 x.plv2,
    (pcaCertifyExplicit c x.item.cocoonSigning r).1, r⟩

/-- **The credentials issued for opened requests**: one for each, with some randomiser. -/
theorem mem_certifyAll (c : Crypto S P) (xs : List (OpenedItem P)) :
    ∀ (s : ScmsState S P) (cred : IssuedCredential S P), cred ∈ (certifyAll c s xs).1 →
      ∃ x ∈ xs, ∃ r, cred = credentialOf c x r := by
  induction xs with
  | nil => exact fun s cred h => absurd h List.not_mem_nil
  | cons x xs ih =>
    intro s cred h
    rcases List.mem_cons.1 h with rfl | h
    · exact ⟨x, List.mem_cons_self, _, rfl⟩
    · obtain ⟨y, hy, r, rfl⟩ := ih _ cred h
      exact ⟨y, List.mem_cons_of_mem _ hy, r, rfl⟩

end V2xw.Scms
