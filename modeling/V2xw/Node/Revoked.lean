import V2xw.Node.Sender

/-!
# A node's own revocation

`CrlGate::revoke_own` of `crates/v2xw-node/src/stores.rs` names a certificate of the node by its
digest, and every sweep asks for the digest each credential has at that moment. The digest of a
credential is a stand-in until the first transmission writes that of the certificate back, and a
revocation of the stand-in is then forgotten.

## Main definitions

* `Sender.Issued` — the stored credentials of a pseudonym carry the digest of the
  certificate issued for it.
* `Sender.Banned` — the invariant of a revocation that holds.

## Main results

* `Sender.Banned.step` — a step keeps a banned pseudonym banned and sends nothing under
  it.
* `revoked_never_signs` — the revocation of an issued certificate holds for ever.
-/

namespace V2xw.Node

open Core Msg
open Record (F64)

variable {P : SenderModels}

namespace Sender

/-- Every stored credential of the pseudonym carries the digest of the certificate issued for it. -/
def Issued (s : Sender P) (p : ℕ ×ₗ ℕ) : Prop :=
  ∀ c ∈ s.certs.creds, c.pseudonym = p →
    ∃ h, s.security.signers[p]? = some h ∧ c.digest = h.digest

/-- The certificate of a pseudonym is revoked, and so is every credential stored for it. -/
structure Banned (p : ℕ ×ₗ ℕ) (s : Sender P) : Prop where
  stored : ∀ c ∈ s.certs.creds, c.pseudonym = p → s.crl.revokesOwn c.digest = true
  issued : ∃ h, s.security.signers[p]? = some h ∧ s.crl.revokesOwn h.digest = true

lemma Issued.banned {s : Sender P} {c : CredentialHandle} (h : s.Issued c.pseudonym)
    (hc : c ∈ s.certs.creds) : Banned c.pseudonym (s.perform (.revokeOwn c.digest)).2 := by
  obtain ⟨hd, hhd, hdigest⟩ := h c hc rfl
  have hrevoked : (s.crl.revokeOwn c.digest).revokesOwn hd.digest = true :=
    CrlGate.revokesOwn_revokeOwn.2 (.inl hdigest.symm)
  refine ⟨fun c' hc' hp => ?_, hd, hhd, hrevoked⟩
  obtain ⟨hd', hhd', hdigest'⟩ := h c' hc' hp
  obtain rfl := Option.some.inj (hhd.symm.trans hhd')
  rw [hdigest']
  exact hrevoked

lemma Banned.provisioned {p : ℕ ×ₗ ℕ} {s t : Sender P} (h : Banned p s) (hst : s.Provisioned t) :
    Banned p t := by
  obtain ⟨hd, hhd, hrevoked⟩ := h.issued
  have hhd' := hst.grows.signers p hd hhd
  refine ⟨fun c' hc' hp => ?_, hd, hhd', hst.crl ▸ hrevoked⟩
  obtain ⟨c, hc, hpseudonym, -, hdigest | ⟨hd', hhd'', hdigest⟩⟩ := hst.creds c' hc'
  · rw [hst.crl, hdigest]
    exact h.stored c hc (hpseudonym ▸ hp)
  · rw [← hpseudonym, hp, hhd'] at hhd''
    obtain rfl := Option.some.inj hhd''
    rw [hst.crl, hdigest]
    exact hrevoked

lemma Banned.sends {p : ℕ ×ₗ ℕ} {s t : Sender P} {believed : SimTime} {out : List Sent}
    (h : Banned p s) (hst : Sends believed s out t) : Banned p t := by
  obtain ⟨hcrl, hcerts, -, hsigners, -⟩ := hst.frame
  obtain ⟨hd, hhd, hrevoked⟩ := h.issued
  exact ⟨fun c hc hp => hcrl ▸ h.stored c (hcerts ▸ hc) hp, hd, hsigners p hd hhd, hcrl ▸ hrevoked⟩

lemma Banned.maintain {p : ℕ ×ₗ ℕ} {s : Sender P} (h : Banned p s) (believed : SimTime)
    (distance : F64) : Banned p (s.maintain believed distance) ∧
      ∀ c ∈ (s.maintain believed distance).certs.creds, c.pseudonym = p → c.state = .revoked := by
  refine ⟨⟨fun c hc hp => ?_, h.issued⟩, fun c hc hp => ?_⟩
  · obtain ⟨c₀, hc₀, rfl⟩ := mem_maintain hc
    exact h.stored c₀ hc₀ hp
  · obtain ⟨c₀, hc₀, rfl⟩ := mem_maintain hc
    exact CertStore.sweptState_of_revoked (h.stored c₀ hc₀ hp)

/-- **A step keeps a banned pseudonym banned and sends nothing under it.** -/
theorem Banned.step {p : ℕ ×ₗ ℕ} {s : Sender P} (h : Banned p s) (believed : SimTime)
    (distance : F64) : Banned p (s.step believed distance).2 ∧
      ∀ x ∈ (s.step believed distance).1, x.signed.pseudonym ≠ p := by
  unfold Sender.step
  split_ifs with hoff
  · exact ⟨h, by simp⟩
  obtain ⟨hbanned, hrevoked⟩ := h.maintain believed distance
  dsimp only
  split_ifs
  · obtain ⟨t, hprov, hsends, hout⟩ := generates_generate (s.maintain believed distance) believed
    refine ⟨(hbanned.provisioned hprov).sends hsends, fun x hx heq => ?_⟩
    rcases hout with hnil | ⟨cred, hcred, hactive⟩
    · rw [hnil] at hx
      exact absurd hx List.not_mem_nil
    · obtain ⟨hmem, hstate⟩ := CertStore.mem_of_active hcred
      have hsigner := hsends.frame.2.2.2.2 x hx
      rw [hactive, Option.some.injEq, heq] at hsigner
      rw [hrevoked cred hmem hsigner] at hstate
      cases hstate
  · exact ⟨hbanned, by simp⟩

/-- The operation stores no credential for the pseudonym, unless its digest is revoked. -/
def KeepsOut (p : ℕ ×ₗ ℕ) (s : Sender P) : SenderOp P → Prop
  | .insert cred => cred.pseudonym = p → s.crl.revokesOwn cred.digest = true
  | .install _ creds => ∀ c ∈ creds, c.pseudonym = p → s.crl.revokesOwn c.digest = true
  | _ => True

lemma creds_foldl_insert (creds : List CredentialHandle) : ∀ certs : CertStore,
    (creds.foldl CertStore.insert certs).creds = certs.creds ++ creds := by
  induction creds with
  | nil => exact fun certs => (List.append_nil _).symm
  | cons c creds ih =>
    intro certs
    rw [List.foldl_cons, ih]
    simp [CertStore.insert]

/-- A banned pseudonym stays banned under every operation that keeps it out. -/
lemma Banned.perform {p : ℕ ×ₗ ℕ} {s : Sender P} {op : SenderOp P} (h : Banned p s)
    (hop : KeepsOut p s op) :
    Banned p (s.perform op).2 ∧ ∀ x ∈ (s.perform op).1, x.signed.pseudonym ≠ p := by
  cases op with
  | step believed distance => exact h.step believed distance
  | absorb other => exact ⟨⟨h.stored, h.issued⟩, by simp [Sender.perform]⟩
  | insert cred =>
    refine ⟨⟨fun c hc hp => ?_, h.issued⟩, by simp [Sender.perform]⟩
    rcases List.mem_append.1 hc with hc | hc
    · exact h.stored c hc hp
    · obtain rfl := List.mem_singleton.1 hc
      exact hop hp
  | install policy creds =>
    refine ⟨⟨fun c hc hp => ?_, h.issued⟩, by simp [Sender.perform]⟩
    change c ∈ (creds.foldl CertStore.insert { policy := some policy }).creds at hc
    rw [creds_foldl_insert, List.nil_append] at hc
    exact hop c hc hp
  | revokeOwn digest =>
    obtain ⟨hd, hhd, hrevoked⟩ := h.issued
    refine ⟨⟨fun c hc hp => ?_, hd, hhd, ?_⟩, by simp [Sender.perform]⟩
    · exact CrlGate.revokesOwn_revokeOwn.2 (.inr (h.stored c hc hp))
    · exact CrlGate.revokesOwn_revokeOwn.2 (.inr hrevoked)

end Sender

/-- **A revocation that holds for ever.** Once a stored credential is revoked by its digest while
the credentials of its pseudonym carry the digest of the certificate issued for it, no later step
sends anything signed under that pseudonym, as long as no credential is stored for it again under a
digest that is not revoked. -/
theorem revoked_never_signs {s u : Sender P} {c : CredentialHandle} {ops : List (SenderOp P)}
    {os : List (List Sent)} (hc : c ∈ s.certs.creds) (hissued : s.Issued c.pseudonym)
    (h : (senderMachine s).StepsIf (Sender.KeepsOut c.pseudonym)
      (s.perform (.revokeOwn c.digest)).2 ops os u) :
    ∀ out ∈ os, ∀ x ∈ out, x.signed.pseudonym ≠ c.pseudonym := by
  refine (h.induction (Q := fun _ os t => Sender.Banned c.pseudonym t ∧
    ∀ out ∈ os, ∀ x ∈ out, x.signed.pseudonym ≠ c.pseudonym) ⟨hissued.banned hc, by simp⟩ ?_).2
  rintro is os t op out t' - ⟨hbanned, hos⟩ hop hstep
  obtain ⟨rfl, rfl⟩ : (t.perform op).1 = out ∧ (t.perform op).2 = t' := by
    have hperform : t.perform op = (out, t') := Except.ok.inj hstep
    rw [hperform]
    exact ⟨rfl, rfl⟩
  obtain ⟨hnext, hout⟩ := hbanned.perform hop
  refine ⟨hnext, fun out' hout' => ?_⟩
  rcases List.mem_append.1 hout' with hout' | hout'
  · exact hos out' hout'
  · obtain rfl := List.mem_singleton.1 hout'
    exact hout

/-- The node with two credentials, after its first transmission. -/
def afterFirst : Sender bareSenders := ((bareSender [standIn 0, standIn 1]).step 0 ⟨0⟩).2

/-- The credential with the identity the first transmission has given it. -/
def issuedFirst : CredentialHandle := { standIn 0 with digest := 1000 }

/-- The pseudonym is revoked once its certificate is issued, and the node moves to the other one for
good. -/
theorem revoked_never_signs_rotated : ∃ os u,
    (senderMachine afterFirst).StepsIf (Sender.KeepsOut issuedFirst.pseudonym)
      (afterFirst.perform (.revokeOwn issuedFirst.digest)).2
      [.step 1000000000 ⟨0⟩, .step 2000000000 ⟨0⟩] os u ∧
    os.flatten.length = 4 ∧ ∀ out ∈ os, ∀ x ∈ out, x.signed.pseudonym ≠ issuedFirst.pseudonym := by
  have hmem : issuedFirst ∈ afterFirst.certs.creds := by decide +kernel
  have hissued : afterFirst.Issued issuedFirst.pseudonym := by
    have hcheck : ∀ c ∈ afterFirst.certs.creds,
        (afterFirst.security.signers[c.pseudonym]?).any (c.digest = ·.digest) = true := by
      decide +kernel
    intro c hc hp
    obtain ⟨h, hh, hdigest⟩ := (Option.any_eq_true _ _).1 (hcheck c hc)
    exact ⟨h, hp ▸ hh, of_decide_eq_true hdigest⟩
  obtain ⟨os, u, hsteps, hlength⟩ := Machine.exists_stepsIf (m := senderMachine afterFirst)
    (f := fun _ op => match op with | .step .. => true | _ => false)
    (G := Sender.KeepsOut issuedFirst.pseudonym)
    (l := [.step 1000000000 ⟨0⟩, .step 2000000000 ⟨0⟩])
    (s := (afterFirst.perform (.revokeOwn issuedFirst.digest)).2)
    (p := fun x => x.1.flatten.length = 4)
    (fun t op hop => by cases op <;> trivial) (by decide +kernel)
  exact ⟨os, u, hsteps, of_decide_eq_true hlength, revoked_never_signs hmem hissued hsteps⟩

/-- The node with one credential, after its first transmission. -/
def aloneAfterFirst : Sender bareSenders := ((bareSender [standIn 0]).step 0 ⟨0⟩).2

/-- Revoked before the first transmission, a pseudonym signs again once the node has transmitted
under another one; and a pseudonym that is stored again signs once more. -/
theorem revoked_signs_again :
    ¬ (∀ (s u : Sender bareSenders) (c : CredentialHandle) (ops : List (SenderOp bareSenders))
        (os : List (List Sent)), c ∈ s.certs.creds →
        (senderMachine s).Steps (s.perform (.revokeOwn c.digest)).2 ops os u →
        ∀ out ∈ os, ∀ x ∈ out, x.signed.pseudonym ≠ c.pseudonym) ∧
      ∃ os u, (senderMachine aloneAfterFirst).Steps
        (aloneAfterFirst.perform (.revokeOwn issuedFirst.digest)).2
        [.insert (standIn 0), .step 1000000000 ⟨0⟩] os u ∧
        ∃ out ∈ os, ∃ x ∈ out, x.signed.pseudonym = issuedFirst.pseudonym := by
  constructor
  · intro hnever
    set s := bareSender [standIn 0, standIn 1]
    obtain ⟨os, u, hsteps, hagain⟩ := Machine.exists_stepsIf (m := senderMachine s)
      (f := fun _ _ => true) (G := fun _ _ => True)
      (l := [.step 0 ⟨0⟩, .step 10000000000 ⟨0⟩])
      (s := (s.perform (.revokeOwn (standIn 0).digest)).2)
      (p := fun x => x.1.any fun out => out.any fun y => y.signed.pseudonym = (standIn 0).pseudonym)
      (fun _ _ _ => trivial) (by decide +kernel)
    obtain ⟨out, hout, hany⟩ := List.any_eq_true.1 hagain
    obtain ⟨x, hx, heq⟩ := List.any_eq_true.1 hany
    exact hnever s u (standIn 0) _ os (by simp [s, bareSender]) hsteps.steps out hout x hx
      (of_decide_eq_true heq)
  · obtain ⟨os, u, hsteps, hagain⟩ := Machine.exists_stepsIf (m := senderMachine aloneAfterFirst)
      (f := fun _ _ => true) (G := fun _ _ => True)
      (l := [.insert (standIn 0), .step 1000000000 ⟨0⟩])
      (s := (aloneAfterFirst.perform (.revokeOwn issuedFirst.digest)).2)
      (p := fun x => x.1.any fun out => out.any fun y =>
        y.signed.pseudonym = issuedFirst.pseudonym)
      (fun _ _ _ => trivial) (by decide +kernel)
    obtain ⟨out, hout, hany⟩ := List.any_eq_true.1 hagain
    obtain ⟨x, hx, heq⟩ := List.any_eq_true.1 hany
    exact ⟨os, u, hsteps.steps, out, hout, x, hx, of_decide_eq_true heq⟩

end V2xw.Node
