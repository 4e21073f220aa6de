import V2xw.Scms.Crl

set_option linter.unusedSectionVars false

/-!
# Silenced devices

A device falls silent when the list it installs revokes a credential it holds. Whether it is silent
is computed anew with every list, from the credentials it holds then. The list only grows, so what
it revoked it goes on to revoke; but a batch that was on its way may replace every revoked
credential, and the next list makes the device speak again. This file shows that nothing else can.

## Main definitions

* `DeviceState.Hushed` — a silent device holds a credential its list revokes.
* `keepsRevoked` — a batch leaves a silent device with a revoked credential.

## Main results

* `handle_hushed` — one delivery keeps silent devices silent, and hushed.
* `silenced_stays` — a silenced device stays silenced.
-/

namespace V2xw.Scms

open V2xw.Core ScmsRun ScmsState

variable {S P : Type} [AddCommGroup S] [AddCommGroup P]

/-! ## Revoked credentials -/

/-- The list of a device revokes one of its credentials. -/
def DeviceState.Revoked (c : Crypto S P) (dev : DeviceState S P) : Prop :=
  ∃ i j, dev.isRevoked c i j = true

/-- A silent device holds a credential its list revokes. -/
def DeviceState.Hushed (c : Crypto S P) (dev : DeviceState S P) : Prop :=
  dev.silenced = true → dev.Revoked c

section Device

variable {c : Crypto S P} {dev dev' : DeviceState S P}

lemma DeviceState.Hushed.congr (h : dev.Hushed c) (hsil : dev'.silenced = dev.silenced)
    (hcrl : dev'.crl = dev.crl) (hcreds : dev'.credentials = dev.credentials) :
    dev'.Hushed c := by
  intro hs
  obtain ⟨i, j, hrev⟩ := h (hsil ▸ hs)
  refine ⟨i, j, ?_⟩
  unfold DeviceState.isRevoked at hrev ⊢
  rw [hcreds, hcrl]
  exact hrev

lemma DeviceState.Revoked.mono (h : dev.Revoked c) {list : List CrlLinkageEntry}
    (hle : dev.crl <+: list) : ({ dev with crl := list } : DeviceState S P).Revoked c := by
  obtain ⟨i, j, hrev⟩ := h
  refine ⟨i, j, ?_⟩
  obtain ⟨cred, hcred, hany⟩ := (Option.any_eq_true _ _).1 hrev
  obtain ⟨e, he, hmatch⟩ := List.any_eq_true.1 hany
  refine (Option.any_eq_true _ _).2 ⟨cred, hcred, List.any_eq_true.2 ⟨e, ?_, hmatch⟩⟩
  exact hle.subset he

/-- A device is silent with a list exactly if the list revokes one of its credentials. -/
lemma silenced_enforce {list : List CrlLinkageEntry} :
    (enforce c list dev).silenced = true ↔
      ({ dev with crl := list } : DeviceState S P).Revoked c := by
  show (!(DeviceState.revokedCredentials c { dev with crl := list }).isEmpty) = true ↔ _
  rw [Bool.not_eq_true', List.isEmpty_eq_false_iff_exists_mem]
  unfold DeviceState.revokedCredentials
  constructor
  · rintro ⟨k, hk⟩
    exact ⟨_, _, (List.mem_filter.1 hk).2⟩
  · rintro ⟨i, j, hrev⟩
    refine ⟨slot i j, List.mem_filter.2 ⟨?_, hrev⟩⟩
    obtain ⟨cred, hcred, -⟩ := (Option.any_eq_true _ _).1 hrev
    exact OrdMap.mem_keys.2 ⟨cred, hcred⟩

end Device

/-! ## One delivery -/

/-- A batch leaves a silent device with a credential its list revokes: one that the batch does not
replace, or one that comes with it. -/
def BatchLeavesRevoked (c : Crypto S P) (s : ScmsState S P) : ScmsMsg S P → Prop
  | .batchDownload device _ creds => ∀ dev, s.devices[device]? = some dev → dev.silenced = true →
    creds = [] ∨ ({ dev with credentials := installBatch creds dev.credentials } :
      DeviceState S P).Revoked c
  | _ => True

section Handle

variable {c : Crypto S P} {s s' : ScmsState S P} {d : Delivery (ScmsMsg S P)}
  {out out' : Outbox (ScmsMsg S P)}

/-- Replacing a device by one that is hushed, and silent if it was, keeps devices silent and
hushed. -/
lemma hushed_insert {device : NodeId} {dev e : DeviceState S P}
    (hdev : s.devices[device]? = some dev)
    (hall : ∀ (n : NodeId) (dev : DeviceState S P), s.devices[n]? = some dev → dev.Hushed c)
    (hhush : e.Hushed c) (hsil : dev.silenced = true → e.silenced = true) :
    (∀ (n : NodeId) (x : DeviceState S P),
      (s.devices.insert device e)[n]? = some x → x.Hushed c) ∧
    ∀ (n : NodeId) (x : DeviceState S P), s.devices[n]? = some x → x.silenced = true →
      ∃ x', (s.devices.insert device e)[n]? = some x' ∧ x'.silenced = true := by
  refine ⟨fun n x hx => ?_, fun n x hx hs => ?_⟩
  · rw [OrdMap.get_insert] at hx
    split_ifs at hx
    · cases hx
      exact hhush
    · exact hall n x hx
  · rw [OrdMap.get_insert]
    split_ifs with hn
    · subst hn
      rw [hdev, Option.some.injEq] at hx
      exact ⟨e, rfl, hsil (hx ▸ hs)⟩
    · exact ⟨x, hx, hs⟩

/-- **One delivery** leaves silent devices silent and hushed, if a batch leaves a silent device
with a revoked credential and a download brings a list that extends the one the device holds.

**Proof sketch.** Only an enrolment, a batch and a download change a device. The enrolment changes
neither the credentials nor the list; the batch is covered by the condition; and what the old list
of a download revoked, the longer one revokes too. -/
theorem handle_hushed (h : s.handle c d out = .ok (s', out'))
    (hall : ∀ (n : NodeId) (dev : DeviceState S P), s.devices[n]? = some dev → dev.Hushed c)
    (hbatch : BatchLeavesRevoked c s d.msg)
    (hlist : ∀ device entries, d.msg = .crlDownload device entries →
      ∀ dev, s.devices[device]? = some dev → dev.crl <+: s.listFrom d.src) :
    (∀ (n : NodeId) (dev : DeviceState S P), s'.devices[n]? = some dev → dev.Hushed c) ∧
    ∀ (n : NodeId) (dev : DeviceState S P), s.devices[n]? = some dev → dev.silenced = true →
      ∃ dev', s'.devices[n]? = some dev' ∧ dev'.silenced = true := by
  cases hm : d.msg.changesDevice with
  | false =>
    rw [handle_frame_devices h hm]
    exact ⟨hall, fun n dev hn hs => ⟨dev, hn, hs⟩⟩
  | true =>
    unfold handle at h
    cases hmsg : d.msg <;> simp only [hmsg, ScmsMsg.changesDevice, Bool.false_eq_true,
      Except.ok.injEq] at hm h
    case enrolResponse device =>
      cases h
      simp only [modifyDevice]
      cases hdev : s.devices[device]? with
      | none => exact ⟨hall, fun n dev hn hs => ⟨dev, hn, hs⟩⟩
      | some dev =>
        exact hushed_insert hdev hall ((hall device dev hdev).congr rfl rfl rfl) id
    case batchDownload device i creds =>
      rw [hmsg] at hbatch
      unfold onBatchDownload at h
      cases hdev : s.devices[device]? with
      | none => simp [hdev] at h
      | some dev =>
        simp only [hdev] at h
        have hinstalled : creds ≠ [] →
            ({ dev with credentials := installBatch creds dev.credentials } :
              DeviceState S P).Hushed c :=
          fun hne hs => (hbatch dev hdev hs).resolve_left hne
        split_ifs at h with hempty
        · cases h
          exact hushed_insert hdev hall ((hall device dev hdev).congr rfl rfl rfl) id
        · cases h
          exact hushed_insert hdev hall ((hall device dev hdev).congr rfl rfl rfl) id
        · have hne : creds ≠ [] := fun heq => hempty (by rw [heq]; rfl)
          split at h
          · cases h
            exact hushed_insert hdev hall (hinstalled hne) id
          · split_ifs at h <;> cases h <;>
              exact hushed_insert hdev hall ((hinstalled hne).congr rfl rfl rfl) id
    case crlDownload device entries =>
      unfold onCrlDownload at h
      cases hdev : s.devices[device]? with
      | none => simp [hdev] at h
      | some dev =>
        simp only [hdev, Except.ok.injEq, Prod.mk.injEq] at h
        obtain ⟨rfl, -⟩ := h
        refine hushed_insert hdev hall (fun hs => ?_) fun hs => ?_
        · exact silenced_enforce.1 hs
        · refine silenced_enforce.2 ((hall device dev hdev hs).mono ?_)
          exact hlist device entries hmsg dev hdev

end Handle

/-! ## Runs -/

/-- A batch leaves a silent device with a revoked credential. -/
def keepsRevoked (c : Crypto S P) : Guard S P
  | .inr p, s, _ => BatchLeavesRevoked c s p.msg
  | _, _, _ => True

/-- The condition of `keepsRevoked`, with downloads that bring longer lists. -/
def keepsRevokedLists (c : Crypto S P) : Guard S P
  | .inr p, s, _ => BatchLeavesRevoked c s p.msg ∧
    ∀ device entries, p.msg = .crlDownload device entries →
      ∀ dev, s.devices[device]? = some dev → dev.crl <+: s.listFrom p.src
  | _, _, _ => True

section Runs

variable {c : Crypto S P} {charge : String → OpDescriptor → Duration} {certs : CertificateSizes}
  {params : ScmsParams} {t0 : SimTime} {D D' : Driver S P} {op : Op} {o : Reply S P}

/-- Every silent device is hushed. -/
def AllHushed (c : Crypto S P) (s : ScmsState S P) : Prop :=
  ∀ (n : NodeId) (dev : DeviceState S P), s.devices[n]? = some dev → dev.Hushed c

/-- Silent devices stay hushed. -/
lemma keeps_hushed (c : Crypto S P) :
    (scms c).Keeps (keepsRevokedLists c) fun s _ => AllHushed c s := by
  intro e s b s' b' hstep hG hall
  cases hstep with
  | act e =>
    cases e with
    | addDevice node =>
      intro n dev hn
      change (s.devices.insert node (DeviceState.new node))[n]? = some dev at hn
      rw [OrdMap.get_insert] at hn
      split_ifs at hn
      · cases hn
        exact fun hs => (nomatch hs)
      · exact hall n dev hn
    | request device startI periods jmax flow =>
      show AllHushed c (s.requested c device startI periods)
      cases hdev : s.devices[device]? with
      | none =>
        rw [requested_of_none c startI periods hdev]
        exact hall
      | some dev =>
        rw [requested_of_some c startI periods hdev]
        refine (hushed_insert (e := { dev with
          caterpillar := some (s.nextCaterpillar c device)
          downloadRetries := 0
          provisioning := some ⟨startI, periods, 0, false⟩ }) hdev hall ?_ id).1
        exact (hall device dev hdev).congr rfl rfl rfl
    | _ => exact hall
  | react hr _ _ =>
    cases hr with
    | handled time cost h => exact (handle_hushed h hall hG.1 hG.2).1
    | refused e time cost h => exact hall

/-- What the driver may do: batches leave silent devices with a revoked credential, and the links of
the generator are left alone. -/
def keepsSilence (c : Crypto S P) (D : Driver S P) (op : Op) : Prop :=
  Allowed (keepsRevoked c) D op ∧ op.wires ≠ some nodes.crlg

/-- With the invariant of the lists, downloads bring longer lists. -/
lemma allowed_lists (hsound : D.Sound) (hinv : CrlInv D.state D.real)
    (hG : Allowed (keepsRevoked c) D op) : Allowed (keepsRevokedLists c) D op := by
  cases op with
  | deliver =>
    refine ⟨fun q k hnext => ⟨hG.1 q k hnext, fun device entries hmsg dev hdev => ?_⟩,
      fun _ _ _ _ => trivial⟩
    change q.delivery.msg = .crlDownload device entries at hmsg
    cases hpre : D.preloading with
    | none =>
      have hreal : D.real = D.run.kernel := by rw [Driver.real, hpre]; rfl
      rw [hreal] at hinv
      have hset := hinv.settled hnext (by rw [hmsg]; rfl)
      unfold listFrom
      split_ifs
      · exact hinv.devices device dev hdev
      · rw [hset.agree]
        exact hinv.devices device dev hdev
    | some p =>
      have hmem : q.delivery.post ∈ D.run.kernel.posts := by
        rw [Kernel.nextDelivery_posts hnext]
        exact Multiset.mem_cons_self _ _
      have hf := hsound.scratch p hpre _ hmem
      change q.delivery.msg.family.Preloads at hf
      rw [hmsg] at hf
      rcases hf with hf | hf <;> cases hf
  | _ => simp [Allowed, keepsRevokedLists]

lemma step_hushed (hsound : D.Sound) (hinv : CrlInv D.state D.real) (hall : AllHushed c D.state)
    (hG : keepsSilence c D op)
    (hstep : (machine c charge certs params t0).step D op = .ok (o, D')) :
    D'.Sound ∧ CrlInv D'.state D'.real ∧ AllHushed c D'.state := by
  have hfree : (keepsRevokedLists c).Free := fun _ _ =>
    ⟨fun _ => trivial, fun _ _ _ => trivial, fun _ => trivial, fun _ => trivial, trivial⟩
  obtain ⟨hsound', hall'⟩ := step_keeps (keeps_hushed c) hfree (fun _ _ _ h => h)
    (fun _ _ _ _ h => h) hsound (allowed_lists hsound hinv hG.1) hall hstep
  exact ⟨hsound', (step_crlInv hsound hinv hG.2 hstep).1, hall'⟩

/-- One operation other than adding the device again keeps a silent device silent. -/
lemma step_silenced {n : NodeId} (hsound : D.Sound) (hinv : CrlInv D.state D.real)
    (hall : AllHushed c D.state) (hG : keepsSilence c D op) (hn : op ≠ .addDevice n)
    (hstep : (machine c charge certs params t0).step D op = .ok (o, D')) {dev : DeviceState S P}
    (hdev : D.state.devices[n]? = some dev) (hsil : dev.silenced = true) :
    ∃ dev', D'.state.devices[n]? = some dev' ∧ dev'.silenced = true := by
  have hlists := allowed_lists hsound hinv hG.1
  rcases step_real hsound hstep with ⟨-, -, hquiet⟩ |
    ⟨q, k, result, out, r', -, rfl, hnext, hproc, rfl, rfl⟩
  · rcases hquiet.devices n with heq | ⟨hadd, -⟩
    · rw [hdev, Option.map_some, Option.map_eq_some_iff] at heq
      obtain ⟨dev', hdev', hstance⟩ := heq
      have hsame : dev'.silenced = dev.silenced := congrArg Prod.snd hstance
      exact ⟨dev', hdev', hsame.trans hsil⟩
    · cases op with
      | addDevice node => exact absurd (congrArg Op.addDevice hadd) hn
      | preload device startI periods jmax => cases hdev.symm.trans hadd.2
      | _ => exact hadd.elim
  · rcases process_cases hproc with ⟨rfl, -⟩ | ⟨hh, -⟩
    · exact ⟨dev, hdev, hsil⟩
    · obtain ⟨hbatch, hlist⟩ := hlists.1 q k hnext
      exact (handle_hushed hh hall hbatch hlist).2 n dev hdev hsil

/-- **A silenced device stays silenced**: from every state of every run in which no batch takes the
last revoked credential from a silent device, and the links of the generator are left alone, on to
every later state, unless the device is added again in between.

**Proof sketch.** A silent device holds a credential its list revokes, in every state of such a run.
A later list extends the one it holds, because the store and the broadcast path agree whenever a
device listens, and so revokes that credential as well. -/
theorem silenced_stays {is js : List Op} {os ps : List (Reply S P)} {n : NodeId}
    {dev : DeviceState S P}
    (h : (machine c charge certs params t0).StepsIf (keepsSilence c)
      (machine c charge certs params t0).init is os D)
    (h' : (machine c charge certs params t0).StepsIf
      (fun D op => keepsSilence c D op ∧ op ≠ .addDevice n) D js ps D')
    (hdev : D.state.devices[n]? = some dev) (hsil : dev.silenced = true) :
    ∃ dev', D'.state.devices[n]? = some dev' ∧ dev'.silenced = true := by
  have hstart : D.Sound ∧ CrlInv D.state D.real ∧ AllHushed c D.state := by
    refine h.invariant (Q := fun D => D.Sound ∧ CrlInv D.state D.real ∧ AllHushed c D.state)
      ⟨(sound_init c charge certs params t0).1, crlInv_init c charge certs params t0,
        fun n dev hn => ?_⟩ ?_
    · cases hn.symm.trans Std.ExtTreeMap.getElem?_empty
    · rintro D op o D' ⟨hsound, hinv, hall⟩ hG hstep
      exact step_hushed hsound hinv hall hG hstep
  refine (h'.invariant (Q := fun D' => (D'.Sound ∧ CrlInv D'.state D'.real ∧
    AllHushed c D'.state) ∧ ∃ dev', D'.state.devices[n]? = some dev' ∧ dev'.silenced = true)
    ⟨hstart, dev, hdev, hsil⟩ ?_).2
  rintro D₁ op o D₂ ⟨⟨hsound, hinv, hall⟩, dev₁, hdev₁, hsil₁⟩ ⟨hG, hn⟩ hstep
  exact ⟨step_hushed hsound hinv hall hG hstep,
    step_silenced hsound hinv hall hG hn hstep hdev₁ hsil₁⟩

end Runs

/-! ## A batch that makes a device speak again -/

/-- A check that implies `keepsSilence`: no batch comes to a silent device. -/
def noLateBatch (D : Driver S P) (op : Op) : Bool :=
  decide (op.wires ≠ some nodes.crlg) && D.preloading.isNone &&
    D.run.kernel.nextDelivery.all fun x =>
      match x.1.delivery.msg with
      | .batchDownload device _ _ => D.state.devices[device]?.all fun dev => !dev.silenced
      | _ => true

lemma keepsSilence_of_check {c : Crypto S P} {D : Driver S P} {op : Op}
    (h : noLateBatch D op = true) : keepsSilence c D op := by
  simp only [noLateBatch, Bool.and_eq_true, decide_eq_true_eq] at h
  obtain ⟨⟨hwires, hpre⟩, hnext⟩ := h
  refine ⟨?_, hwires⟩
  cases op with
  | deliver =>
    refine ⟨fun q k hq => ?_, fun p _ hp => ?_⟩
    · show BatchLeavesRevoked c D.state q.delivery.msg
      rw [hq, Option.all_some] at hnext
      cases hmsg : q.delivery.msg with
      | batchDownload device i creds =>
        intro dev hdev hs
        rw [hmsg] at hnext
        simp only [hdev, Option.all_some, hs] at hnext
        cases hnext
      | _ => trivial
    · cases hp.symm.trans (Option.isNone_iff_eq_none.1 hpre)
  | _ => simp [Allowed, keepsRevoked]

/-- Whether a device is silent. -/
def isSilent (D : Driver S P) (device : NodeId) : Bool :=
  D.state.devices[device]?.any fun dev => dev.silenced

/-- A revoked device that fetches the list twice stays silent. -/
theorem silenced_stays_twice : ∃ is os D js ps D' dev dev',
    hand.StepsIf (keepsSilence handCrypto) hand.init is os D ∧
      hand.StepsIf (fun D op => keepsSilence handCrypto D op ∧ op ≠ .addDevice 1000) D js ps D' ∧
      D.state.devices[1000]? = some dev ∧ dev.silenced = true ∧
      D'.state.devices[1000]? = some dev' ∧ dev'.silenced = true := by
  have hrun : (hand.runIf noLateBatch hand.init
      (revokeOps ++ deliveries 13 ++ [.distributeCrl 1000] ++ deliveries 4)).any (fun x =>
        (hand.runIf (fun D op => noLateBatch D op && decide (op ≠ .addDevice 1000)) x.2
          ([.distributeCrl 1000] ++ deliveries 4)).any fun _ => isSilent x.2 1000) = true := by
    decide +kernel
  obtain ⟨os, D, h, hrest⟩ := Machine.exists_stepsIf
    (fun _ _ => keepsSilence_of_check (c := handCrypto)) hrun
  obtain ⟨ps, D', h', hsilent⟩ := Machine.exists_stepsIf
    (G := fun D op => keepsSilence handCrypto D op ∧ op ≠ .addDevice 1000)
    (fun _ _ hok => by
      simp only [Bool.and_eq_true, decide_eq_true_eq] at hok
      exact ⟨keepsSilence_of_check hok.1, hok.2⟩) hrest
  obtain ⟨dev, hdev, hsil⟩ := (Option.any_eq_true _ _).1 hsilent
  obtain ⟨dev', hdev', hsil'⟩ := silenced_stays h h' hdev hsil
  exact ⟨_, os, D, _, ps, D', dev, dev', h, h', hdev, hsil, hdev', hsil'⟩

/-- **A silenced device that speaks again.** A second request reaches the Registration Authority
before the device is blocklisted; its batch replaces the revoked credential, and the next list finds
nothing to revoke. -/
theorem silenced_device_speaks : ∃ is os D js ps D',
    hand.Steps hand.init is os D ∧ hand.Steps D js ps D' ∧
      (∀ op ∈ js, op = .distributeCrl 1000 ∨ op = .deliver) ∧
      isSilent D 1000 = true ∧ isSilent D' 1000 = false := by
  have hrun : (hand.runIf (fun _ _ => true) hand.init
      ([.addDevice 1000, .provision 1000 0 0 1 1] ++ deliveries 20 ++
        [.submitReport 1000 0 handLv] ++ deliveries 6 ++ [.provision 1000 0 0 1 1] ++
        deliveries 3 ++ [.revoke 0 0 1] ++ deliveries 20 ++ [.distributeCrl 1000] ++
        deliveries 5)).any (fun x =>
        (hand.runIf (fun _ _ => true) x.2
          (deliveries 1 ++ [.distributeCrl 1000] ++ deliveries 3)).any fun y =>
            isSilent x.2 1000 && !isSilent y.2 1000) = true := by
    decide +kernel
  obtain ⟨os, D, ps, D', h, h', hboth⟩ := Machine.exists_stepsIf_stepsIf
    (p := fun D D' => isSilent D 1000 && !isSilent D' 1000) (G := fun _ _ => True)
    (fun _ _ _ => trivial) hrun
  simp only [Bool.and_eq_true, Bool.not_eq_true'] at hboth
  exact ⟨_, os, D, _, ps, D', h.steps, h'.steps, by decide, hboth⟩

end V2xw.Scms
