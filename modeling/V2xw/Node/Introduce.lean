import V2xw.Node.Sender

/-!
# How a pseudonym introduces itself

A receiver can resolve a digest only if it has heard the certificate. The node attaches its
certificate at a cadence it keeps per message type (`last_certificate` of
`crates/v2xw-node/src/secure.rs`), and the cadence goes on when the pseudonym changes.

## Main definitions

* `lastAttached` — when a certificate was last attached to a message of a type.
* `Due` — what a message attaches its certificate for.
* `Introduced`, `Resolvable` — the first message of every pseudonym carries its
  certificate, and no digest is sent of a certificate that was not.

## Main results

* `Sender.Sends.explained` — what a node sends carries its certificate exactly when it is
  due.
* `introduced_iff` — which runs introduce their pseudonyms.
-/

namespace V2xw.Node

open Core Msg
open Record (F64)

variable {P : SenderModels}

/-! ## Introductions -/

/-- The message is the first under its pseudonym, after those before it. -/
def Introduces (past : List Sent) (x : Sent) : Prop :=
  ∀ y ∈ past, y.signed.pseudonym ≠ x.signed.pseudonym

/-- The first message of every pseudonym carries its certificate. -/
def Introduced (l : List Sent) : Prop :=
  ∀ pre x post, l = pre ++ x :: post → Introduces pre x → x.transmission.fullCertificate = true

/-- A message that carries only a digest comes after one that carries the certificate. -/
def Resolvable (l : List Sent) : Prop :=
  ∀ pre x post, l = pre ++ x :: post → x.transmission.fullCertificate = false →
    ∃ y ∈ pre, y.signed.pseudonym = x.signed.pseudonym ∧ y.transmission.fullCertificate = true

/-- A receiver that has heard everything can resolve every digest once every pseudonym introduces
itself. -/
lemma Introduced.resolvable {l : List Sent} (h : Introduced l) : Resolvable l := by
  intro pre x post hl hdigest
  have hold : ¬ Introduces pre x := fun hnew => by simp [h pre x post hl hnew] at hdigest
  simp only [Introduces, ne_eq, not_forall, not_not] at hold
  obtain ⟨y, hy, heq⟩ := hold
  -- The first message under the pseudonym is the one that introduces it.
  have hany : (pre.find? fun z => z.signed.pseudonym = x.signed.pseudonym).isSome = true :=
    List.find?_isSome.2 ⟨y, hy, by simpa using heq⟩
  obtain ⟨z, hz⟩ := Option.isSome_iff_exists.1 hany
  obtain ⟨hfound, before, after, rfl, hfirst⟩ := List.find?_eq_some_iff_append.1 hz
  have hzx : z.signed.pseudonym = x.signed.pseudonym := of_decide_eq_true hfound
  refine ⟨z, by simp, hzx, h before z (after ++ x :: post) (by simp [hl]) fun w hw => ?_⟩
  rw [hzx]
  simpa using hfirst w hw

/-! ## Attachments -/

/-- When a certificate was last attached to a message of a type, whatever the pseudonym. -/
def lastAttached (past : List Sent) (ty : MsgType) : Option SimTime :=
  ((past.filter fun y => y.transmission.fullCertificate && y.transmission.msgType == ty).getLast?).map
    (·.transmission.generationTime)

/-- One more message. -/
lemma lastAttached_snoc (past : List Sent) (x : Sent) (ty : MsgType) :
    lastAttached (past ++ [x]) ty =
      if x.transmission.fullCertificate = true ∧ ty = x.transmission.msgType then
        some x.transmission.generationTime
      else lastAttached past ty := by
  unfold lastAttached
  rw [List.filter_append]
  split_ifs with hx
  · simp [hx]
  · have hnot : (x.transmission.fullCertificate && x.transmission.msgType == ty) = false := by
      rw [Bool.and_eq_false_iff, beq_eq_false_iff_ne]
      by_cases hfull : x.transmission.fullCertificate = true
      · exact .inr fun heq => hx ⟨hfull, heq.symm⟩
      · exact .inl (Bool.not_eq_true _ ▸ hfull)
    simp [hnot]

/-- A message attaches its certificate: the profile wants it for this type, the cadence wants it for
every message, no certificate was attached to this type before, or the last attachment is long
enough ago. -/
def Due (n : NodeSecurity P) (past : List Sent) (x : Transmission) : Prop :=
  n.profile = .etsiTs103097 ∧ x.msgType = .denm ∨
    (n.policyFor x.msgType).alwaysCertificate = true ∨
    lastAttached past x.msgType = none ∨
    ∃ every last, (n.policyFor x.msgType).fullCertEvery = some every ∧
      lastAttached past x.msgType = some last ∧ x.generationTime - last ≥ every.ns

/-- The choice of the stack, over what has been sent. -/
lemma signerIdFor_eq_certificate {n : NodeSecurity P} {past : List Sent}
    (hlast : n.lastCertificate = lastAttached past) {x : Transmission} {believed : SimTime}
    (htime : x.generationTime = believed) :
    n.signerIdFor x.msgType believed = .certificate ↔ Due n past x := by
  subst htime
  unfold NodeSecurity.signerIdFor Due SignerIdPolicy.choose
  rw [hlast]
  by_cases hprofile : n.profile = .etsiTs103097 ∧ x.msgType = .denm
  · simp [hprofile]
  cases halways : (n.policyFor x.msgType).alwaysCertificate with
  | true => simp [hprofile]
  | false =>
    cases hevery : (n.policyFor x.msgType).fullCertEvery with
    | none => cases hpast : lastAttached past x.msgType <;> simp [hprofile]
    | some every =>
      cases hpast : lastAttached past x.msgType with
      | none => simp [hprofile]
      | some last => simp [hprofile]

namespace Sender

/-- **What is sent carries its certificate exactly when it is due**, over everything sent before it,
and the record of the stack keeps up. -/
theorem Sends.explained {believed : SimTime} {s s' : Sender P} {out : List Sent}
    (h : Sends believed s out s') :
    ∀ past, s.security.lastCertificate = lastAttached past →
      s'.security.lastCertificate = lastAttached (past ++ out) ∧
      s'.security.profile = s.security.profile ∧ s'.security.policyFor = s.security.policyFor ∧
      ∀ pre x post, out = pre ++ x :: post →
        (x.transmission.fullCertificate = true ↔ Due s.security (past ++ pre) x.transmission) := by
  induction h with
  | nil s =>
    intro past hlast
    exact ⟨by simpa using hlast, rfl, rfl, fun pre x post hnil => absurd hnil.symm (by simp)⟩
  | @cons s t u sent rest hone _ ih =>
    intro past hlast
    have hdue : ∀ past' x, Due t.security past' x ↔ Due s.security past' x := fun past' x => by
      simp only [Due, hone.profile, hone.policyFor]
    cases sent with
    | none =>
      obtain ⟨hlast', hprofile, hpolicy, hrest⟩ := ih past ((hone.idle rfl).trans hlast)
      exact ⟨hlast', hprofile.trans hone.profile, hpolicy.trans hone.policyFor,
        fun pre x post hout => (hrest pre x post hout).trans (hdue _ _)⟩
    | some y =>
      obtain ⟨-, htime, hfull, hnoted⟩ := hone.signed y rfl
      have hnext : t.security.lastCertificate = lastAttached (past ++ [y]) := by
        funext ty
        rw [hnoted, lastAttached_snoc]
        cases y.transmission.fullCertificate with
        | true => simp [NodeSecurity.noteCertificateAttached, hlast, htime]
        | false => simp [hlast]
      obtain ⟨hlast', hprofile, hpolicy, hrest⟩ := ih (past ++ [y]) hnext
      refine ⟨by simpa using hlast', hprofile.trans hone.profile, hpolicy.trans hone.policyFor,
        fun pre x post hout => ?_⟩
      cases pre with
      | nil =>
        obtain ⟨rfl, -⟩ := List.cons.inj hout
        rw [List.append_nil]
        exact hfull.trans (signerIdFor_eq_certificate hlast htime)
      | cons z pre =>
        obtain ⟨rfl, htail⟩ := List.cons.inj hout
        have hx := (hrest pre x post htail).trans (hdue _ _)
        rwa [List.append_assoc] at hx

/-- The record of a node and its messages, after it has sent `past`: the certificates are attached
when they are due. -/
structure Explained (n : NodeSecurity P) (past : List Sent) (s : Sender P) : Prop where
  last : s.security.lastCertificate = lastAttached past
  profile : s.security.profile = n.profile
  policyFor : s.security.policyFor = n.policyFor
  due : ∀ pre x post, past = pre ++ x :: post →
    (x.transmission.fullCertificate = true ↔ Due n pre x.transmission)

/-- Every operation explains what it sends. -/
lemma Explained.perform {n : NodeSecurity P} {past : List Sent} {s : Sender P}
    (h : Explained n past s) (op : SenderOp P) :
    Explained n (past ++ (s.perform op).1) (s.perform op).2 := by
  have hquiet : ∀ t : Sender P, t.security.lastCertificate = s.security.lastCertificate →
      t.security.profile = s.security.profile → t.security.policyFor = s.security.policyFor →
      Explained n (past ++ []) t := fun t hlast hprofile hpolicy => by
    rw [List.append_nil]
    exact ⟨hlast.trans h.last, hprofile.trans h.profile, hpolicy.trans h.policyFor, h.due⟩
  cases op with
  | absorb other => exact hquiet _ rfl rfl rfl
  | insert cred => exact hquiet _ rfl rfl rfl
  | install policy creds => exact hquiet _ rfl rfl rfl
  | revokeOwn digest => exact hquiet _ rfl rfl rfl
  | step believed distance =>
    change Explained n (past ++ (s.step believed distance).1) (s.step believed distance).2
    unfold Sender.step
    split_ifs
    · exact hquiet _ rfl rfl rfl
    dsimp only
    split_ifs
    · obtain ⟨t, hprov, hsends, -⟩ := generates_generate (s.maintain believed distance) believed
      have hgrows : s.security.Grows t.security := hprov.grows
      obtain ⟨hlast, hprofile, hpolicy, hdue⟩ :=
        hsends.explained past (hgrows.lastCertificate.trans h.last)
      have hprofile' := hgrows.profile.trans h.profile
      have hpolicy' := hgrows.policyFor.trans h.policyFor
      refine ⟨hlast, hprofile.trans hprofile', hpolicy.trans hpolicy', fun pre x post heq => ?_⟩
      rcases List.append_eq_append_iff.1 heq with ⟨mid, rfl, hout⟩ | ⟨mid, hpast, hrest⟩
      · have hx := hdue mid x post hout
        rwa [Due, hprofile', hpolicy'] at hx
      · cases mid with
        | nil =>
          have hx := hdue [] x post (by simpa using hrest.symm)
          rw [List.append_nil] at hpast hx
          subst hpast
          rwa [Due, hprofile', hpolicy'] at hx
        | cons z mid =>
          obtain ⟨rfl, -⟩ := List.cons.inj hrest
          exact h.due pre x mid hpast
    · exact hquiet _ rfl rfl rfl

end Sender

/-- **Which runs introduce their pseudonyms.** From a new node on, the first message of every
pseudonym carries its certificate, and so no digest is sent of a certificate that was not attached,
exactly if every message that is the first of its pseudonym is one whose certificate is due: the
cadence of its type is at its beginning or has run out, whatever the pseudonym was. -/
theorem introduced_iff {s u : Sender P} {ops : List (SenderOp P)} {os : List (List Sent)}
    (hnew : s.security.lastCertificate = fun _ => none) (h : (senderMachine s).Steps s ops os u) :
    Introduced os.flatten ∧ Resolvable os.flatten ↔
      ∀ pre x post, os.flatten = pre ++ x :: post → Introduces pre x →
        Due s.security pre x.transmission := by
  have hrun : Sender.Explained s.security os.flatten u := by
    refine h.stepsIf.induction (Q := fun _ os t => Sender.Explained s.security os.flatten t)
      ⟨hnew, rfl, rfl, fun pre x post hnil => absurd hnil.symm (by simp)⟩ ?_
    rintro is os t op out t' - ht - hstep
    have hperform : t.perform op = (out, t') := Except.ok.inj hstep
    have hnext := ht.perform op
    rw [hperform] at hnext
    simpa using hnext
  constructor
  · rintro ⟨hintro, -⟩ pre x post hl hx
    exact (hrun.due pre x post hl).1 (hintro pre x post hl hx)
  · intro hdue
    have hintro : Introduced os.flatten := fun pre x post hl hx =>
      (hrun.due pre x post hl).2 (hdue pre x post hl hx)
    exact ⟨hintro, hintro.resolvable⟩

/-! ## A change of pseudonym -/

instance (n : NodeSecurity P) (past : List Sent) (x : Transmission) : Decidable (Due n past x) :=
  decidable_of_iff (n.profile = .etsiTs103097 ∧ x.msgType = .denm ∨
    (n.policyFor x.msgType).alwaysCertificate = true ∨
    lastAttached past x.msgType = none ∨
    ∃ every ∈ (n.policyFor x.msgType).fullCertEvery,
      ∃ last ∈ lastAttached past x.msgType, x.generationTime - last ≥ every.ns) <| by
    simp only [Due, Option.mem_def, exists_and_left]

instance (past : List Sent) (x : Sent) : Decidable (Introduces past x) :=
  inferInstanceAs (Decidable (∀ y ∈ past, _))

lemma forall_place {Q : List Sent → Sent → Prop} {l : List Sent}
    (h : ∀ i : Fin l.length, Q (l.take i) (l.get i)) :
    ∀ pre x post, l = pre ++ x :: post → Q pre x := by
  rintro pre x post rfl
  simpa using h ⟨pre.length, by simp⟩

/-- A node with two pseudonyms that steps twice, two seconds apart: the pseudonym has changed, and
the cadences of both message types have run out. -/
theorem introduced_iff_rotated : ∃ os u,
    (senderMachine (bareSender [standIn 0, standIn 1])).Steps (bareSender [standIn 0, standIn 1])
      [.step 0 ⟨0⟩, .step 2000000000 ⟨0⟩] os u ∧
    os.flatten.map (·.signed.pseudonym) = [toLex (0, 0), toLex (0, 0), toLex (0, 1), toLex (0, 1)] ∧
    Introduced os.flatten ∧ Resolvable os.flatten := by
  set s := bareSender [standIn 0, standIn 1]
  obtain ⟨os, u, hsteps, hcheck⟩ := Machine.exists_stepsIf (m := senderMachine s)
    (f := fun _ _ => true) (G := fun _ _ => True) (l := [.step 0 ⟨0⟩, .step 2000000000 ⟨0⟩]) (s := s)
    (p := fun x => (x.1.flatten.map (·.signed.pseudonym) =
        [toLex (0, 0), toLex (0, 0), toLex (0, 1), toLex (0, 1)] : Bool) &&
      decide (∀ i : Fin x.1.flatten.length,
        Introduces (x.1.flatten.take i) (x.1.flatten.get i) →
          Due s.security (x.1.flatten.take i) (x.1.flatten.get i).transmission))
    (fun _ _ _ => trivial) (by decide +kernel)
  simp only [Bool.and_eq_true, decide_eq_true_eq] at hcheck
  exact ⟨os, u, hsteps.steps, hcheck.1, (introduced_iff rfl hsteps.steps).2
    (forall_place (Q := fun pre x => Introduces pre x → Due s.security pre x.transmission)
      hcheck.2)⟩

/-- The pseudonym is revoked between two messages, and the node goes on under the other one with a
digest that no receiver can resolve. -/
theorem not_introduced :
    ¬ ∀ (s u : Sender bareSenders) (ops : List (SenderOp bareSenders)) (os : List (List Sent)),
      s.security.lastCertificate = (fun _ => none) → (senderMachine s).Steps s ops os u →
      Introduced os.flatten ∨ Resolvable os.flatten := by
  intro hall
  set s := bareSender [standIn 0, standIn 1]
  obtain ⟨os, u, hsteps, hcheck⟩ := Machine.exists_stepsIf (m := senderMachine s)
    (f := fun _ _ => true) (G := fun _ _ => True)
    (l := [.step 0 ⟨0⟩, .revokeOwn 1000, .step 100000000 ⟨0⟩]) (s := s)
    (p := fun x => x.1.flatten[2]?.any fun c =>
      !c.transmission.fullCertificate && decide (Introduces (x.1.flatten.take 2) c))
    (fun _ _ _ => trivial) (by decide +kernel)
  obtain ⟨c, hc, hcheck⟩ := (Option.any_eq_true _ _).1 hcheck
  simp only [Bool.and_eq_true, Bool.not_eq_true', decide_eq_true_eq] at hcheck
  obtain ⟨hdigest, hnew⟩ := hcheck
  have heq : os.flatten = os.flatten.take 2 ++ c :: os.flatten.drop 3 := by
    obtain ⟨hlt, rfl⟩ := List.getElem?_eq_some_iff.1 hc
    rw [List.getElem_cons_drop, List.take_append_drop]
  rcases hall s u _ os rfl hsteps.steps with h | h
  · have hfull := h _ c _ heq hnew
    rw [hdigest] at hfull
    cases hfull
  · obtain ⟨y, hy, hsame, -⟩ := h _ c _ heq hdigest
    exact hnew y hy hsame

end V2xw.Node
