import V2xw.Scms.Cases
import V2xw.Scms.Crl

set_option linter.unusedSectionVars false

/-!
# What a revocation covers

The seeds of an entry recognise every certificate of the two chains they belong to, from the first
revoked period on. A device gets a new pair of chains with every request, so that an entry covers
the certificates of one request; it covers the device exactly if the device has made no other.

## Main definitions

* `IssuedIn` — the credentials the certifying authority has issued along a run.
* `Unique` — no credential has the linkage value of another request's chains.
* `PublishInv` — the store has what the generator has, or will get it.

## Main results

* `issuedIn_issuedTo` — what has been issued has the linkage values of its requests.
* `published` — with no publication pending the store has every entry.
* `revocation_covers_device` — what an entry matches and what it does not.
* `revoked_device_not_covered` — a revoked device with a credential no entry matches.
-/

namespace V2xw.Scms

open V2xw.Core ScmsRun ScmsState

variable {S P : Type} [AddCommGroup S] [AddCommGroup P] {c : Crypto S P}

/-! ## What has been issued -/

/-- A credential that a certifying authority has sent to a device, by the outboxes of a run. -/
def IssuedIn (os : List (Reply S P)) (device : NodeId) (cred : IssuedCredential S P) : Prop :=
  ∃ x result out, Reply.delivered x result out ∈ os ∧ ∃ sent ∈ out.sends, ∃ i creds,
    sent.msg = .certResponse device i creds ∧ cred ∈ creds

/-- The chains and records of a state stay along the steps of the system. -/
lemma keeps_grow (c : Crypto S P) (s₀ : ScmsState S P) :
    (scms c).Keeps (distinctHashes c) fun s b => ChainInv c s b ∧ ChainsGrow s₀ s := by
  rintro e s b s' b' hstep hG ⟨hchain, hgrow⟩
  refine ⟨keeps_chained c hstep hG hchain, hgrow.trans ?_⟩
  cases hstep with
  | act e =>
    show ChainsGrow s (e.apply c s).1
    cases e with
    | request device startI periods jmax flow =>
      show ChainsGrow s (s.requested c device startI periods)
      unfold ScmsState.requested modifyDevice
      split <;> exact .same rfl rfl
    | _ => exact .same rfl rfl
  | @react p _ _ b posts kept hr hsub hvouched =>
    cases hr with
    | refused => exact .same rfl rfl
    | handled time cost h =>
      exact (handle_chained h hchain.state (hchain.posts p (Multiset.mem_cons_self _ _)) hG).grow

section Ledger

variable {charge : String → OpDescriptor → Duration} {certs : CertificateSizes}
  {params : ScmsParams} {t0 : SimTime} {D D' : Driver S P} {is : List Op} {os : List (Reply S P)}

lemma free_distinctHashes (c : Crypto S P) : (distinctHashes c).Free := fun _ _ =>
  ⟨fun _ => trivial, fun _ _ _ => trivial, fun _ => trivial, fun _ => trivial, trivial⟩

lemma step_grow {op : Op} {o : Reply S P} (hsound : D.Sound) (hchain : ChainInv c D.state D.posts)
    (hG : Allowed (distinctHashes c) D op)
    (hstep : (machine c charge certs params t0).step D op = .ok (o, D')) :
    ChainInv c D'.state D'.posts ∧ ChainsGrow D.state D'.state :=
  (step_keeps (keeps_grow c D.state) (free_distinctHashes c)
    (fun _ _ params h => ⟨h.1.withParams params, h.2.trans (.same rfl rfl)⟩)
    (fun _ _ _ _ h => ⟨h.1.drop, h.2⟩) hsound hG ⟨hchain, .same rfl rfl⟩ hstep).2

lemma delivered_deliver {op : Op} {x : Queued (ScmsMsg S P)} {result : Except ProtoError Unit}
    {out : Outbox (ScmsMsg S P)}
    (hstep : (machine c charge certs params t0).step D op = .ok (.delivered x result out, D')) :
    op = .deliver := by
  obtain ⟨r, preloading⟩ := D
  by_contra hop
  have hcall : (if preloading.isSome then Except.error Abort.busy else .ok (call c r op)) =
      .ok (.delivered x result out, D') := by
    cases op <;> first | exact hstep | exact absurd rfl hop
  cases preloading with
  | some p => cases hcall
  | none => cases op <;> cases hcall

/-- What a delivery sends as issued has the linkage values of a request. -/
lemma delivered_issuedTo {x : Queued (ScmsMsg S P)} {result : Except ProtoError Unit}
    {out : Outbox (ScmsMsg S P)} {sent : PendingSend (ScmsMsg S P)} {device : NodeId} {i : ℕ}
    {creds : List (IssuedCredential S P)} (hchain : ChainInv c D.state D.posts)
    (hG : Allowed (distinctHashes c) D .deliver)
    (hstep : (machine c charge certs params t0).step D .deliver = .ok (.delivered x result out, D'))
    (hsent : sent ∈ out.sends) (hmsg : sent.msg = .certResponse device i creds) :
    ∀ cred ∈ creds, D'.state.IssuedTo c device cred := by
  obtain ⟨k, r', hnext, hproc, hD'⟩ := deliver_cases hstep
  have hgrow : ChainsGrow r'.state D'.state := by
    rcases hD' with rfl | ⟨p, -, rfl⟩ <;> exact .same rfl rfl
  have hp : Traced c D.state x.delivery.post := by
    refine hchain.posts _ ?_
    rw [Driver.posts, Kernel.nextDelivery_posts hnext, Multiset.cons_add]
    exact Multiset.mem_cons_self _ _
  rcases process_cases hproc with ⟨-, hnil, -⟩ | ⟨hh, -⟩
  · rw [hnil] at hsent
    exact absurd hsent List.not_mem_nil
  · have hhandling := handle_chained (p := x.delivery.post) hh hchain.state hp (hG.1 x k hnext)
    have htraced := hhandling.posts (Outbox.sendPost x.delivery.dst sent)
      (List.mem_append_right _ (List.mem_map_of_mem hsent))
    simp only [Traced, Outbox.sendPost, hmsg] at htraced
    exact fun cred hcred => hgrow.issuedTo (htraced cred hcred)

/-- **What has been issued has the linkage values of its requests**, in every run. -/
theorem issuedIn_issuedTo
    (h : (machine c charge certs params t0).StepsIf (Allowed (distinctHashes c))
      (machine c charge certs params t0).init is os D)
    {device : NodeId} {cred : IssuedCredential S P} (hcred : IssuedIn os device cred) :
    D.state.IssuedTo c device cred := by
  obtain ⟨hsound₀, hposts₀⟩ := sound_init c charge certs params t0
  refine (h.induction (Q := fun _ os D => D.Sound ∧ ChainInv c D.state D.posts ∧
    ∀ device cred, IssuedIn os device cred → D.state.IssuedTo c device cred)
    ⟨hsound₀, ?_, fun device cred => ?_⟩ ?_).2.2 device cred hcred
  · rw [hposts₀]
    exact chainInv_new c certs params
  · rintro ⟨x, result, out, hmem, -⟩
    exact absurd hmem List.not_mem_nil
  · rintro is os D op o D' - ⟨hsound, hchain, hissued⟩ hG hstep
    obtain ⟨hchain', hgrow⟩ := step_grow hsound hchain hG hstep
    refine ⟨step_sound hsound hstep, hchain', ?_⟩
    rintro device cred ⟨x, result, out, hmem, sent, hsent, i, creds, hmsg, hcred⟩
    rcases List.mem_append.1 hmem with hmem | hmem
    · exact hgrow.issuedTo
        (hissued device cred ⟨x, result, out, hmem, sent, hsent, i, creds, hmsg, hcred⟩)
    · obtain rfl := List.mem_singleton.1 hmem
      obtain rfl := delivered_deliver hstep
      exact delivered_issuedTo hchain hG hstep hsent hmsg cred hcred

/-- **The authorities name one device**, in every run: the hash that the certifying authority has on
record for a linkage value is that of a request of one device, both Linkage Authorities have this
device for the owner of the chains behind the value, and no request of another device has one of
these chains. -/
theorem ledgers_agree
    (h : (machine c charge certs params t0).StepsIf (Allowed (distinctHashes c))
      (machine c charge certs params t0).init is os D)
    {i : ℕ} {lv : LinkageValue} {f : PcaLookup} (hf : D.state.pca.issued[toLex (i, lv)]? = some f) :
    ∃ device j, D.state.Complete f.requestHash device f.lci1 f.lci2 ∧
      D.state.LinkedBy c f.lci1 f.lci2 i j lv ∧ ∀ la,
        (D.state.la la).owner[f.lci la]? = some device ∧ ∀ (hash : Bytes) record,
          D.state.ra.requests[hash]? = some record → record.lci la = some (f.lci la) →
            record.device = device := by
  obtain ⟨-, hinv⟩ := steps_keeps (keeps_chained c) (free_distinctHashes c)
    (fun _ _ params h => h.withParams params) (fun _ _ _ _ h => h.drop) (chainInv_new c certs params)
    h
  obtain ⟨device, j, hcomplete, hlinked⟩ := hinv.state.issued i lv f hf
  refine ⟨device, j, hcomplete, hlinked, fun la => ?_⟩
  have howner := (hinv.state.record _ _ hcomplete la (f.lci la) (by cases la <;> rfl)).1
  refine ⟨howner, fun hash record hrecord hlci => ?_⟩
  exact Option.some.inj ((hinv.state.record hash record hrecord la _ hlci).1.symm.trans howner)

end Ledger

/-- A device that makes one request. -/
theorem ledgers_agree_provisioned : ∃ os D i lv f device j,
    hand.StepsIf (Allowed (distinctHashes handCrypto)) hand.init
        ([.addDevice 1000, .provision 1000 0 0 1 1] ++ deliveries 20) os D ∧
      D.state.pca.issued[toLex (i, lv)]? = some f ∧
      D.state.Complete f.requestHash device f.lci1 f.lci2 ∧
      D.state.LinkedBy handCrypto f.lci1 f.lci2 i j lv := by
  have hrun : (hand.runIf (soloCheck handCrypto) hand.init
      ([.addDevice 1000, .provision 1000 0 0 1 1] ++ deliveries 20)).any
        (fun x => !x.2.state.pca.issued.toList.isEmpty) = true := by
    decide +kernel
  obtain ⟨os, D, h, hne⟩ := Machine.exists_stepsIf (fun _ _ => allowed_of_soloCheck) hrun
  obtain ⟨⟨k, f⟩, hmem⟩ := List.exists_mem_of_ne_nil _
    (List.isEmpty_eq_false_iff.1 ((Bool.not_eq_true' _).mp hne))
  have hsteps := h.mono fun _ _ => Allowed.imp fun _ _ _ => soloCases.hashes
  obtain ⟨device, j, hcomplete, hlinked, -⟩ := ledgers_agree hsteps (OrdMap.mem_toList.1 hmem)
  exact ⟨os, D, _, _, f, device, j, hsteps, OrdMap.mem_toList.1 hmem, hcomplete, hlinked⟩

/-! ## Publications -/

section Publications

variable {s s' : ScmsState S P}

/-- A publication that will bring the list of the generator to the store. -/
def Publishes (p : ScmsPost S P) : Prop :=
  p.msg = .crlPublishTimer ∨ p.dst = nodes.crlStore ∧ p.msg.publishes = true

lemma Publishes.family {p : ScmsPost S P} (h : Publishes p) : p.msg.family = .publication := by
  rcases h with h | ⟨-, h⟩
  · rw [h]
    rfl
  · revert h
    cases p.msg <;> simp [ScmsMsg.publishes, ScmsMsg.family]

/-- The store has what the generator has, or will get it. -/
structure PublishInv (s : ScmsState S P) (b : Multiset (ScmsPost S P)) : Prop where
  issuesAt : ∀ p ∈ b, p.msg.issues = true → p.dst = nodes.crlg
  armed : s.crlg.publishArmed = true → ∃ p ∈ b, p.msg = .crlPublishTimer
  store : s.crlStore.entries = s.crlg.entries ∨ ∃ p ∈ b, Publishes p

lemma PublishInv.same {b : Multiset (ScmsPost S P)} (h : PublishInv s b)
    (hcrlg : s'.crlg = s.crlg) (hstore : s'.crlStore = s.crlStore) : PublishInv s' b :=
  ⟨h.issuesAt, by rw [hcrlg]; exact h.armed, by rw [hcrlg, hstore]; exact h.store⟩

lemma PublishInv.remove {p : ScmsPost S P} {b : Multiset (ScmsPost S P)}
    (h : PublishInv s (p ::ₘ b)) (hp : ¬Publishes p) : PublishInv s b := by
  have hrest : ∀ {X : ScmsPost S P → Prop}, ¬X p → (∃ q ∈ p ::ₘ b, X q) → ∃ q ∈ b, X q := by
    rintro X hX ⟨q, hq, hx⟩
    rcases Multiset.mem_cons.1 hq with rfl | hq
    · exact absurd hx hX
    · exact ⟨q, hq, hx⟩
  exact ⟨fun q hq => h.issuesAt q (Multiset.mem_cons_of_mem hq),
    fun harmed => hrest (fun hm => hp (.inl hm)) (h.armed harmed), h.store.imp_right (hrest hp)⟩

lemma PublishInv.add {b : Multiset (ScmsPost S P)} {kept : List (ScmsPost S P)}
    (h : PublishInv s b) (hkept : ∀ q ∈ kept, q.msg.issues = true → q.dst = nodes.crlg) :
    PublishInv s (kept + b) := by
  have hrest : ∀ {X : ScmsPost S P → Prop}, (∃ q ∈ b, X q) →
      ∃ q ∈ (kept : Multiset (ScmsPost S P)) + b, X q := by
    rintro X ⟨q, hq, hx⟩
    exact ⟨q, Multiset.mem_add.2 (.inr hq), hx⟩
  refine ⟨fun q hq => ?_, fun harmed => hrest (h.armed harmed), h.store.imp_right hrest⟩
  rcases Multiset.mem_add.1 hq with hq | hq
  · exact hkept q (Multiset.mem_coe.1 hq)
  · exact h.issuesAt q hq

lemma PublishInv.drop {b b' : Multiset (ScmsPost S P)} (hb : ∀ p ∈ b, p.msg.family.Preloads)
    (h : PublishInv s (b + b')) : PublishInv s b' := by
  have hrest : ∀ {X : ScmsPost S P → Prop}, (∀ p, X p → p.msg.family = .publication) →
      (∃ q ∈ b + b', X q) → ∃ q ∈ b', X q := by
    rintro X hX ⟨q, hq, hx⟩
    rcases Multiset.mem_add.1 hq with hq | hq
    · rcases hb q hq with hf | hf <;> exact absurd ((hX q hx).symm.trans hf) (by decide)
    · exact ⟨q, hq, hx⟩
  refine ⟨fun q hq => h.issuesAt q (Multiset.mem_add.2 (.inr hq)),
    fun ha => hrest (fun p hp => by rw [hp]; rfl) (h.armed ha), h.store.imp_right (hrest ?_)⟩
  exact fun p hp => hp.family

lemma not_publishes {p : ScmsPost S P} (hp : p.msg.changesLists = false) : ¬Publishes p := by
  rintro (h | ⟨-, h⟩)
  · rw [h] at hp
    cases hp
  · revert hp h
    cases p.msg <;> simp [ScmsMsg.changesLists, ScmsMsg.publishes]

lemma vouched_generator {p : ScmsPost S P} {posts : List (ScmsPost S P)} (hp : p.dst = nodes.crlg)
    (h : ∀ q ∈ posts, q.dst = nodes.crlStore ∨ q.dst = nodes.crlBroadcast ∨
      q.dst = nodes.crlg ∧ q.msg.isTimer) : (scms c).vouched p posts := by
  refine ⟨by rw [hp]; decide, fun q hq => ?_⟩
  rw [hp]
  rcases h q hq with h | h | h
  · rw [h]
    exact .inl (by decide)
  · rw [h]
    exact .inl (by decide)
  · exact .inr h

/-- A publication that starts will bring the list to the store. -/
lemma PublishInv.start {b : Multiset (ScmsPost S P)} {posts : List (ScmsPost S P)}
    (hb : ∀ q ∈ b, q.msg.issues = true → q.dst = nodes.crlg)
    (hposts : ∀ q ∈ posts, q.msg.issues = true → q.dst = nodes.crlg)
    (hpub : ∃ q ∈ posts, Publishes q)
    (harmed : s'.crlg.publishArmed = true →
      (∃ q ∈ posts, q.msg = .crlPublishTimer) ∨ ∃ q ∈ b, q.msg = .crlPublishTimer) :
    PublishInv s' (posts + b) := by
  refine ⟨fun q hq => ?_, fun ha => ?_, .inr ?_⟩
  · rcases Multiset.mem_add.1 hq with hq | hq
    · exact hposts q (Multiset.mem_coe.1 hq)
    · exact hb q hq
  · rcases harmed ha with ⟨q, hq, hm⟩ | ⟨q, hq, hm⟩
    · exact ⟨q, Multiset.mem_add.2 (.inl (Multiset.mem_coe.2 hq)), hm⟩
    · exact ⟨q, Multiset.mem_add.2 (.inr hq), hm⟩
  · obtain ⟨q, hq, hm⟩ := hpub
    exact ⟨q, Multiset.mem_add.2 (.inl (Multiset.mem_coe.2 hq)), hm⟩

/-- **A publication brings the list to the store.**

**Proof sketch.** The generator's list grows only with an appended entry, which leaves a timer or a
publication in flight. A timer makes a publication, and a publication that reaches the store copies
the list as it is then. -/
lemma keeps_published (c : Crypto S P) : (scms c).Keeps (fun _ _ _ => True) PublishInv := by
  rintro e s b s' b' hstep - h
  cases hstep with
  | act e =>
    show PublishInv (e.apply c s).1 ((e.apply c s).2 + b)
    have hposts : ∀ q ∈ (e.apply c s).2, q.msg.issues = true → q.dst = nodes.crlg := by
      intro q hq hi
      cases e <;> simp_all [Event.apply, ScmsMsg.issues]
    refine PublishInv.add ?_ hposts
    cases e with
    | request device startI periods jmax flow =>
      show PublishInv (s.requested c device startI periods) b
      unfold ScmsState.requested modifyDevice
      split <;> exact h.same rfl rfl
    | _ => exact h.same rfl rfl
  | @react p _ _ b posts kept hr hsub hvouched =>
    cases hr with
    | refused e time cost hh =>
      have hkept : kept = [] := List.eq_nil_of_subset_nil hsub.subset
      rw [hkept, Multiset.coe_nil, Multiset.zero_add]
      refine h.remove ?_
      rintro (hm | ⟨-, hm⟩)
      · have hmsg : (p.deliverAt time).msg = .crlPublishTimer := hm
        simp [handle, hmsg] at hh
      · unfold handle at hh
        have hmsg : (p.deliverAt time).msg = p.msg := rfl
        rw [hmsg] at hh
        revert hh hm
        cases p.msg <;> simp [ScmsMsg.publishes]
    | @handled s' out time cost hh =>
      cases hlists : p.msg.changesLists with
      | false =>
        obtain ⟨hquiet, hposts⟩ := handle_quiet (A := fun _ => False) p.dst hh hlists
        exact ((h.remove (not_publishes hlists)).same hquiet.crlg hquiet.store).add
          fun q hq => (hposts q (hsub.subset hq)).2
      | true =>
        have hmsg : (p.deliverAt time).msg = p.msg := rfl
        unfold handle at hh
        cases hm : p.msg <;> simp only [hm, hmsg, ScmsMsg.changesLists, Bool.false_eq_true,
          Except.ok.injEq] at hlists hh
        case crlAppend i la1 la2 jmax =>
          have hdst : p.dst = nodes.crlg :=
            h.issuesAt p (Multiset.mem_cons_self _ _) (by rw [hm]; rfl)
          have hrest := h.remove (p := p) (by rintro (hp | ⟨-, hp⟩) <;> rw [hm] at hp <;> cases hp)
          unfold onCrlAppend at hh
          dsimp only at hh
          split_ifs at hh with hcadence harmed <;> cases hh
          · -- The publication is scheduled already.
            obtain ⟨q, hq, hmsg⟩ := hrest.armed harmed
            have hkept : kept = [] := List.eq_nil_of_subset_nil hsub.subset
            rw [hkept, Multiset.coe_nil, Multiset.zero_add]
            exact ⟨hrest.issuesAt, fun _ => ⟨q, hq, hmsg⟩, .inr ⟨q, hq, .inl hmsg⟩⟩
          · -- The publication is scheduled now.
            rw [hvouched (vouched_generator hdst (by
              simp [Outbox.posts, Outbox.timerPost, ScmsMsg.isTimer, hdst]))]
            refine .start hrest.issuesAt ?_ ?_ fun _ => .inl ?_
            all_goals simp [Outbox.posts, Outbox.timerPost, Publishes, hdst]
          · -- The list is sent at once.
            rw [hvouched (vouched_generator hdst (by simp [Outbox.posts, publish, Outbox.sendPost]))]
            refine .start hrest.issuesAt ?_ ?_ fun ha => .inr (hrest.armed ha)
            · simp [Outbox.posts, publish, Outbox.sendPost, ScmsMsg.issues]
            · simp [Outbox.posts, publish, Outbox.sendPost, Publishes, ScmsMsg.publishes]
        case crlPublishTimer =>
          have hdst : p.dst = nodes.crlg :=
            h.issuesAt p (Multiset.mem_cons_self _ _) (by rw [hm]; rfl)
          cases hh
          rw [hvouched (vouched_generator hdst (by simp [Outbox.posts, publish, Outbox.sendPost]))]
          refine .start (fun q hq => h.issuesAt q (Multiset.mem_cons_of_mem hq)) ?_ ?_
            fun ha => by cases ha
          · simp [Outbox.posts, publish, Outbox.sendPost, ScmsMsg.issues]
          · simp [Outbox.posts, publish, Outbox.sendPost, Publishes, ScmsMsg.publishes]
        case crlPublish n =>
          unfold onCrlPublish at hh
          dsimp only at hh
          split_ifs at hh with hdst <;> cases hh
          · -- The store copies the list.
            have hkept : kept = [] := List.eq_nil_of_subset_nil hsub.subset
            rw [hkept, Multiset.coe_nil, Multiset.zero_add]
            refine ⟨fun q hq => h.issuesAt q (Multiset.mem_cons_of_mem hq), fun ha => ?_, .inl rfl⟩
            obtain ⟨q, hq, hmq⟩ := h.armed ha
            rcases Multiset.mem_cons.1 hq with rfl | hq
            · cases hm.symm.trans hmq
            · exact ⟨q, hq, hmq⟩
          · have hrest := h.remove (p := p) (by
              rintro (hp | ⟨hp, -⟩)
              · cases hm.symm.trans hp
              · exact hdst hp)
            exact (hrest.add fun q hq => absurd (hsub.subset hq) List.not_mem_nil).same rfl rfl
        case crlDownload device entries =>
          have hrest := h.remove (p := p) (by rintro (hp | ⟨-, hp⟩) <;> rw [hm] at hp <;> cases hp)
          unfold onCrlDownload at hh
          cases hdev : s.devices[device]? with
          | none => simp [hdev] at hh
          | some dev =>
            simp only [hdev, Except.ok.injEq] at hh
            cases hh
            exact (hrest.add fun q hq => absurd (hsub.subset hq) List.not_mem_nil).same rfl rfl

end Publications

/-! ## What an entry matches -/

section Matching

variable {s : ScmsState S P}

/-- A credential with the linkage value of the chains recorded for a request. -/
def ScmsState.IssuedFor (c : Crypto S P) (s : ScmsState S P) (hash : Bytes)
    (cred : IssuedCredential S P) : Prop :=
  ∃ device l₁ l₂, s.Complete hash device l₁ l₂ ∧ s.LinkedBy c l₁ l₂ cred.i cred.j cred.lv

/-- Linkage values do not collide: what has been issued is linked to one request only. -/
def Unique (c : Crypto S P) (s : ScmsState S P) (os : List (Reply S P)) : Prop :=
  ∀ device cred, IssuedIn os device cred → ∀ hash hash', s.IssuedFor c hash cred →
    s.IssuedFor c hash' cred → hash = hash'

/-- **What an entry matches**: the linkage values of its chains, from its first period on and up to
the number of periods it reaches. -/
lemma EntryFrom.matches_iff {f : PcaLookup} {e : CrlLinkageEntry} {i j : ℕ} {lv : LinkageValue}
    (h : EntryFrom c s e.i e.jmax f e) : e.matchesCert c i j lv = true ↔
      e.i ≤ i ∧ i ≤ e.i + defaultMaxForwardPeriods ∧ j < e.jmax ∧
        s.LinkedBy c f.lci1 f.lci2 i j lv := by
  obtain ⟨x₁, x₂, h₁, h₂, he⟩ := h
  obtain ⟨ls₁, hl₁, rfl⟩ := Option.map_eq_some_iff.1 h₁
  obtain ⟨ls₂, hl₂, rfl⟩ := Option.map_eq_some_iff.1 h₂
  have hforward : e.maxForward = defaultMaxForwardPeriods := by rw [he]; rfl
  have hid₁ : e.laId1 = (s.la .one).laId := by rw [he]; rfl
  have hid₂ : e.laId2 = (s.la .two).laId := by rw [he]; rfl
  have hls₁ : e.ls1 = linkageSeedAt c (s.la .one).laId ls₁ e.i := by rw [he]; rfl
  have hls₂ : e.ls2 = linkageSeedAt c (s.la .two).laId ls₂ e.i := by rw [he]; rfl
  have hlinked : s.LinkedBy c f.lci1 f.lci2 i j lv ↔
      linkageValue (preLinkageValue c (s.la .one).laId (linkageSeedAt c (s.la .one).laId ls₁ i) j)
        (preLinkageValue c (s.la .two).laId (linkageSeedAt c (s.la .two).laId ls₂ i) j) = lv := by
    unfold ScmsState.LinkedBy ScmsState.plvAt ScmsState.seedAt
    rw [hl₁, hl₂]
    simp [eq_comm]
  unfold CrlLinkageEntry.matchesCert CrlLinkageEntry.seedsAt
  by_cases hj : e.jmax ≤ j
  · simp [hj]
  by_cases hi : i < e.i
  · simp [hi]
  by_cases hmax : e.maxForward < i - e.i
  · have hlate : ¬i ≤ e.i + defaultMaxForwardPeriods := by omega
    simp [hi, hmax, hlate]
  · have hreach : e.i ≤ i ∧ i ≤ e.i + defaultMaxForwardPeriods ∧ j < e.jmax := by omega
    have hwalk : e.i + (i - e.i) = i := by omega
    rw [if_neg hj, if_neg hi, if_neg hmax, hlinked, hid₁, hid₂, hls₁, hls₂, ← linkageSeedAt_add,
      ← linkageSeedAt_add, hwalk]
    simp [hreach]

end Matching

/-! ## Runs -/

section Runs

variable {charge : String → OpDescriptor → Duration} {certs : CertificateSizes}
  {params : ScmsParams} {t0 : SimTime} {D : Driver S P} {is : List Op} {os : List (Reply S P)}

lemma published {G : Driver S P → Op → Prop}
    (h : (machine c charge certs params t0).StepsIf G
      (machine c charge certs params t0).init is os D)
    (hquiet : ∀ p ∈ D.posts, p.msg.family ≠ .publication) :
    D.state.crlStore.entries = D.state.crlg.entries := by
  have hinv := (steps_keeps (keeps_published c) free_true (fun _ _ _ h => h.same rfl rfl)
    (fun _ _ _ hb h => h.drop hb) ⟨fun _ hp => (nomatch hp), fun ha => (nomatch ha), .inl rfl⟩
    (h.mono fun D op _ => allowed_true D op)).2
  rcases hinv.store with hstore | ⟨p, hp, hpub⟩
  · exact hstore
  · exact absurd hpub.family (hquiet p hp)

/-- **What a revocation covers.** In every run in which no case is opened while another one is open,
once no publication is pending and if linkage values do not collide, every entry is about one
request, whose device is blocklisted.

* Of the credentials issued to this device, it matches those of the request, from its first period
  on and up to the number of periods it reaches, below its number of certificates.
* If the request is the only one on record of the device, then every credential of the device in
  these periods is matched by an entry of the store.
* It matches no credential of the device from before its first period.
* It matches no credential of another device.

**Proof sketch.** The entry has the seeds of the two chains recorded for the request, so that it
matches the linkage values of these chains. What has been issued to a device has the linkage values
of a request of the device; without collisions of one request only. -/
theorem revocation_covers_device
    (h : (machine c charge certs params t0).StepsIf (Allowed (soloCases c))
      (machine c charge certs params t0).init is os D)
    (hquiet : ∀ p ∈ D.posts, p.msg.family ≠ .publication) (hunique : Unique c D.state os)
    {e : CrlLinkageEntry} (he : e ∈ D.state.crlg.entries) :
    ∃ hash device, (∃ record, D.state.ra.requests[hash]? = some record ∧ record.device = device) ∧
      (∃ op ∈ is, op.opensCase e.i e.jmax = true) ∧ device ∈ D.state.ra.blocklist ∧
      hash ∈ D.state.ma.decisions ∧
      (∀ cred, IssuedIn os device cred → (e.matchesCert c cred.i cred.j cred.lv = true ↔
        e.i ≤ cred.i ∧ cred.i ≤ e.i + 156 ∧ cred.j < e.jmax ∧ D.state.IssuedFor c hash cred)) ∧
      ((∀ (hash' : Bytes) record, D.state.ra.requests[hash']? = some record →
          record.device = device → hash' = hash) →
        ∀ cred, IssuedIn os device cred → e.i ≤ cred.i → cred.i ≤ e.i + 156 → cred.j < e.jmax →
          ∃ e' ∈ D.state.crlStore.entries, e'.matchesCert c cred.i cred.j cred.lv = true) ∧
      (∀ cred, IssuedIn os device cred → cred.i < e.i →
        e.matchesCert c cred.i cred.j cred.lv = false) ∧
      ∀ device' cred, device' ≠ device → IssuedIn os device' cred →
        e.matchesCert c cred.i cred.j cred.lv = false := by
  obtain ⟨-, -, -, hentries, -⟩ := steps_cases h
  obtain ⟨hop, f, device, hnames, hentry, hblock, hhash⟩ := hentries e he
  have hissued : ∀ device cred, IssuedIn os device cred → D.state.IssuedTo c device cred :=
    fun _ _ hcred => issuedIn_issuedTo (h.mono fun _ _ => Allowed.imp fun _ _ _ => soloCases.hashes)
      hcred
  have hmatch : ∀ cred : IssuedCredential S P, e.matchesCert c cred.i cred.j cred.lv = true ↔
      e.i ≤ cred.i ∧ cred.i ≤ e.i + 156 ∧ cred.j < e.jmax ∧
        D.state.IssuedFor c f.requestHash cred := by
    intro cred
    have hlinked : D.state.LinkedBy c f.lci1 f.lci2 cred.i cred.j cred.lv ↔
        D.state.IssuedFor c f.requestHash cred := by
      refine ⟨fun hlv => ⟨device, _, _, hnames, hlv⟩, ?_⟩
      rintro ⟨device', l₁, l₂, hc, hlv⟩
      cases hc.symm.trans hnames
      exact hlv
    rw [hentry.matches_iff, hlinked]
    exact Iff.rfl
  refine ⟨f.requestHash, device, ⟨_, hnames, rfl⟩, hop, hblock, hhash, fun cred _ => hmatch cred,
    fun hone cred hcred hi hmax hj => ⟨e, ?_, ?_⟩, fun cred _ hi => ?_,
    fun device' cred hne hcred => ?_⟩
  · rw [published h hquiet]
    exact he
  · obtain ⟨hash', l₁, l₂, hc, hlv⟩ := hissued device cred hcred
    obtain rfl := hone hash' _ hc rfl
    exact (hmatch cred).2 ⟨hi, hmax, hj, device, l₁, l₂, hc, hlv⟩
  · rw [Bool.eq_false_iff, ne_eq, hmatch]
    exact fun hm => absurd hm.1 (Nat.not_le.2 hi)
  · rw [Bool.eq_false_iff, ne_eq, hmatch]
    rintro ⟨-, -, -, hfor⟩
    obtain ⟨hash', l₁, l₂, hc, hlv⟩ := hissued device' cred hcred
    obtain rfl := hunique device' cred hcred _ _ hfor ⟨device', l₁, l₂, hc, hlv⟩
    cases hc.symm.trans hnames
    exact hne rfl

end Runs

/-! ## A device that is covered, and one that is not -/

/-- The credentials a certifying authority has sent along a run. -/
def issuedList (os : List (Reply S P)) : List (NodeId × IssuedCredential S P) :=
  os.flatMap fun o =>
    match o with
    | .delivered _ _ out => out.sends.flatMap fun sent =>
      match sent.msg with
      | .certResponse device _ creds => creds.map fun cred => (device, cred)
      | _ => []
    | _ => []

/-- The list has what has been issued. -/
lemma mem_issuedList {os : List (Reply S P)} {device : NodeId} {cred : IssuedCredential S P} :
    (device, cred) ∈ issuedList os ↔ IssuedIn os device cred := by
  unfold issuedList IssuedIn
  constructor
  · intro h
    obtain ⟨o, ho, h⟩ := List.mem_flatMap.1 h
    cases o with
    | delivered x result out =>
      obtain ⟨sent, hsent, h⟩ := List.mem_flatMap.1 h
      split at h
      next device' i creds hmsg =>
        obtain ⟨cred', hcred, heq⟩ := List.mem_map.1 h
        cases heq
        exact ⟨x, result, out, ho, sent, hsent, i, creds, hmsg, hcred⟩
      next => exact absurd h List.not_mem_nil
    | _ => exact absurd h List.not_mem_nil
  · rintro ⟨x, result, out, ho, sent, hsent, i, creds, hmsg, hcred⟩
    refine List.mem_flatMap.2 ⟨_, ho, List.mem_flatMap.2 ⟨sent, hsent, ?_⟩⟩
    rw [hmsg]
    exact List.mem_map_of_mem hcred

/-- Whether a credential has the linkage value of the chains recorded for a request. -/
def linkedCheck (c : Crypto S P) (s : ScmsState S P) (cred : IssuedCredential S P)
    (record : RequestRecord) : Bool :=
  (record.lci1.bind fun l₁ => s.plvAt c .one l₁ cred.i cred.j).any fun v₁ =>
    (record.lci2.bind fun l₂ => s.plvAt c .two l₂ cred.i cred.j).any fun v₂ =>
      cred.lv = linkageValue v₁ v₂

/-- A check that implies `Unique`. -/
def uniqueCheck (c : Crypto S P) (s : ScmsState S P) (os : List (Reply S P)) : Bool :=
  (issuedList os).all fun x =>
    s.ra.requests.toList.all fun a => s.ra.requests.toList.all fun b =>
      !linkedCheck c s x.2 a.2 || !linkedCheck c s x.2 b.2 || a.1 == b.1

lemma ScmsState.IssuedFor.check {s : ScmsState S P} {hash : Bytes} {cred : IssuedCredential S P}
    (h : s.IssuedFor c hash cred) :
    ∃ record, (hash, record) ∈ s.ra.requests.toList ∧ linkedCheck c s cred record = true := by
  obtain ⟨device, l₁, l₂, hc, v₁, v₂, h₁, h₂, hlv⟩ := h
  refine ⟨_, OrdMap.mem_toList.2 hc, ?_⟩
  simp [linkedCheck, h₁, h₂, hlv]

lemma unique_of_check {s : ScmsState S P} {os : List (Reply S P)}
    (h : uniqueCheck c s os = true) : Unique c s os := by
  intro device cred hcred hash hash' hfor hfor'
  obtain ⟨record, hmem, hlinked⟩ := hfor.check
  obtain ⟨record', hmem', hlinked'⟩ := hfor'.check
  have hall := List.all_eq_true.1 (List.all_eq_true.1 (List.all_eq_true.1 h _
    (mem_issuedList.2 hcred)) _ hmem) _ hmem'
  simpa [hlinked, hlinked'] using hall

/-- Whether a run has ended with nothing scheduled, without collisions, and with an entry that
reaches a credential the list of the store matches, or does not. -/
def coverCheck (c : Crypto S P) (device : NodeId) (covered : Bool)
    (x : List (Reply S P) × Driver S P) : Bool :=
  x.2.posts.card == 0 && uniqueCheck c x.2.state x.1 && x.2.state.crlg.entries.any fun e =>
    (issuedList x.1).any fun y => y.1 == device && decide (e.i ≤ y.2.i) &&
      decide (y.2.i ≤ e.i + 156) && decide (y.2.j < e.jmax) &&
      (x.2.state.crlStore.entries.any fun e' => e'.matchesCert c y.2.i y.2.j y.2.lv) == covered

lemma exists_of_coverCheck {device : NodeId} {covered : Bool} {os : List (Reply S P)}
    {D : Driver S P} (h : coverCheck c device covered (os, D) = true) :
    (∀ p ∈ D.posts, p.msg.family ≠ .publication) ∧ Unique c D.state os ∧
      ∃ e ∈ D.state.crlg.entries, ∃ cred, IssuedIn os device cred ∧ e.i ≤ cred.i ∧
        cred.i ≤ e.i + 156 ∧ cred.j < e.jmax ∧
        (D.state.crlStore.entries.any fun e' => e'.matchesCert c cred.i cred.j cred.lv) =
            covered := by
  simp only [coverCheck, Bool.and_eq_true, beq_iff_eq, List.any_eq_true, decide_eq_true_eq] at h
  obtain ⟨⟨hcard, hunique⟩, e, he, ⟨device', cred⟩, hcred, ⟨⟨⟨rfl, hi⟩, hmax⟩, hj⟩, hcovered⟩ := h
  refine ⟨fun p hp => ?_, unique_of_check hunique, e, he, cred, mem_issuedList.1 hcred, hi, hmax, hj,
    hcovered⟩
  rw [Multiset.card_eq_zero.1 hcard] at hp
  exact absurd hp (Multiset.notMem_zero p)

/-- A device gets a credential, is reported and revoked, and the list is published. -/
def revokedOps : List Op := revokeOps ++ deliveries 20

/-- Whether all requests on record are the same one, of one device. -/
def oneRequest (device : NodeId) (s : ScmsState S P) : Bool :=
  s.ra.requests.toList.all fun a => a.2.device == device &&
    s.ra.requests.toList.all fun b => a.1 == b.1

/-- A device with one request is covered. -/
theorem revocation_covers_device_revoked : ∃ os D e device cred,
    hand.StepsIf (Allowed (soloCases handCrypto)) hand.init revokedOps os D ∧
      e ∈ D.state.crlg.entries ∧ device ∈ D.state.ra.blocklist ∧ IssuedIn os device cred ∧
      ∃ e' ∈ D.state.crlStore.entries, e'.matchesCert handCrypto cred.i cred.j cred.lv = true := by
  have hrun : (hand.runIf (soloCheck handCrypto) hand.init revokedOps).any
      (fun x => coverCheck handCrypto 1000 true x && oneRequest 1000 x.2.state) = true := by
    decide +kernel
  obtain ⟨os, D, h, hcheck⟩ := Machine.exists_stepsIf (fun _ _ => allowed_of_soloCheck) hrun
  obtain ⟨hcover, hone⟩ := Bool.and_eq_true_iff.1 hcheck
  obtain ⟨hquiet, hunique, e, he, cred, hcred, hi, hmax, hj, -⟩ := exists_of_coverCheck hcover
  obtain ⟨hash, device, ⟨record, hrecord, rfl⟩, -, hblock, -, -, hcovers, -⟩ :=
    revocation_covers_device h hquiet hunique he
  simp only [oneRequest, List.all_eq_true, Bool.and_eq_true, beq_iff_eq] at hone
  have hmem := OrdMap.mem_toList.2 hrecord
  have hdevice : record.device = 1000 := (hone _ hmem).1
  refine ⟨os, D, e, record.device, cred, h, he, hblock, hdevice ▸ hcred, ?_⟩
  refine hcovers (fun hash' record' hrecord' _ => ?_) cred (hdevice ▸ hcred) hi hmax hj
  exact ((hone _ hmem).2 _ (OrdMap.mem_toList.2 hrecord')).symm

/-- The device gets a credential of the next period with another request before it is revoked. -/
def toppedUpOps : List Op :=
  [.addDevice 1000, .attachRsu 1000, .provision 1000 0 0 1 1] ++ deliveries 20 ++
    [.topup 1000 0 1 1] ++ deliveries 20 ++ [.submitReport 1000 0 handLv] ++ deliveries 6 ++
    [.revoke 0 0 1] ++ deliveries 20

/-- **A revoked device that is not covered.** After a top-up the device holds a credential of
another request, in the periods and below the number of certificates that are revoked, and no entry
of the store matches it. -/
theorem revoked_device_not_covered : ∃ os D e device cred,
    hand.StepsIf (Allowed (soloCases handCrypto)) hand.init toppedUpOps os D ∧
      (∀ p ∈ D.posts, p.msg.family ≠ .publication) ∧ Unique handCrypto D.state os ∧
      e ∈ D.state.crlg.entries ∧ device ∈ D.state.ra.blocklist ∧ IssuedIn os device cred ∧
      e.i ≤ cred.i ∧ cred.i ≤ e.i + 156 ∧ cred.j < e.jmax ∧
      ∀ e' ∈ D.state.crlStore.entries, e'.matchesCert handCrypto cred.i cred.j cred.lv = false := by
  have hrun : (hand.runIf (soloCheck handCrypto) hand.init toppedUpOps).any
      (fun x => coverCheck handCrypto 1000 false x && decide (1000 ∈ x.2.state.ra.blocklist)) =
        true := by
    decide +kernel
  obtain ⟨os, D, h, hcheck⟩ := Machine.exists_stepsIf (fun _ _ => allowed_of_soloCheck) hrun
  obtain ⟨hcover, hblock⟩ := Bool.and_eq_true_iff.1 hcheck
  obtain ⟨hquiet, hunique, e, he, cred, hcred, hi, hmax, hj, hnone⟩ := exists_of_coverCheck hcover
  refine ⟨os, D, e, 1000, cred, h, hquiet, hunique, he, of_decide_eq_true hblock, hcred, hi, hmax,
    hj, fun e' he' => ?_⟩
  rw [Bool.eq_false_iff]
  exact fun hm => absurd (List.any_eq_true.2 ⟨e', he', hm⟩) (by rw [hnone]; decide)

end V2xw.Scms
