import V2xw.Node.Credentials
import V2xw.Node.Events

/-!
# The sending half of the on-board unit

What `ObuRuntime::step_timed` of `crates/v2xw-node/src/runtime.rs` does after the reception: the
upkeep of the credentials and `generate`, with the security stack of
`crates/v2xw-node/src/secure.rs` and the signer identifiers of `crates/v2xw-sec/src/envelope.rs`.

The cryptography is a parameter, and so are the message timers and the encoders. The reception is
in `Runtime`; here it is an operation that leaves the parts it shares with the sending
half in any state.

## Main definitions

* `SignerIdPolicy` — the cadence at which certificates are attached.
* `NodeSecurity` — the certificates of a node, with `provision` and `sign`.
* `Sender` — the sending half of a node, with `generate` and `step`.
* `senderMachine` — a node as the engine drives it.

## Main results

* `Sender.generates_generate` — a step sends nothing, or it signs with the pseudonym of
  the active credential.
-/

namespace V2xw.Node

open Core Msg
open Record (F64)

/-! ## Signer identifiers -/

/-- How an SPDU names its signer. -/
inductive SignerIdChoice
  | digest
  /-- The full certificate is attached. -/
  | certificate
  deriving DecidableEq, Repr

/-- Which profile of the envelope a stack speaks. -/
inductive EnvelopeProfile
  | ieee1609Dot2 | etsiTs103097
  deriving DecidableEq, Repr

/-- How often the certificate is attached. -/
structure SignerIdPolicy where
  /-- Attach the certificate when this long has passed since the last attachment. -/
  fullCertEvery : Option Duration
  alwaysCertificate : Bool
  deriving DecidableEq, Repr

namespace SignerIdPolicy

/-- The SAE cadence: a full certificate every 450 ms. -/
def sae450ms : SignerIdPolicy := ⟨some (.fromMillis 450), false⟩

/-- The ETSI cadence: a full certificate one second after the last inclusion. -/
def etsi1s : SignerIdPolicy := ⟨some (.fromMillis 1000), false⟩

/-- Which identifier to use at `now`, given when the certificate was last attached. -/
def choose (p : SignerIdPolicy) (now : SimTime) (lastAttached : Option SimTime) :
    SignerIdChoice :=
  if p.alwaysCertificate then .certificate
  else
    match p.fullCertEvery, lastAttached with
    | _, none => .certificate
    | none, some _ => .digest
    | some every, some last => if now - last ≥ every.ns then .certificate else .digest

end SignerIdPolicy

/-! ## The security stack -/

/-- A certificate and the key it signs with. -/
structure SignerHandle where
  key : ℕ
  certCoer : List UInt8
  digest : HashedId8
  deriving DecidableEq, Repr

/-- The parts of a node that its sending half is built over. -/
structure SenderModels extends EventModels where
  odometer : Odometer
  Schedule : Type
  /-- The crypto backend, the issuing authority and the random stream. -/
  Crypto : Type
  /-- `MessageSchedule::services`. -/
  services : Schedule → ServiceSet
  scheduleDue : SimTime → Belief → Schedule → List MsgType × Schedule
  /-- The key and the certificate `NodeSecurity::provision` makes for a new pseudonym. -/
  issue : ℕ ×ₗ ℕ → SimTime → Crypto → Option SignerHandle × Crypto
  /-- `Envelope::sign`: the bytes of the SPDU. The location is that of the belief, for a DENM. -/
  signEnvelope : SignerHandle → MsgType → List UInt8 → SignerIdChoice → Belief → Crypto →
    Option (List UInt8) × Crypto
  /-- `ObuRuntime::encode_payload` of an awareness message. -/
  encodePayload : MsgType → SimTime → Belief → CredentialHandle → Schedule → Option (List UInt8)
  /-- What `EventServices::encode` makes of a request and the detection data of its event. -/
  encodeEvent : EventRequest → SimTime → CredentialHandle → Option (SimTime × Belief) →
    Option (List UInt8)

variable {P : SenderModels}

/-- A message signed and encoded. -/
structure SignedFrame where
  payload : List UInt8
  spdu : List UInt8
  certBytes : ℕ
  /-- The pseudonym whose key signed it. The source has no field for it: the bytes of the SPDU name
  its certificate. -/
  pseudonym : ℕ ×ₗ ℕ
  deriving DecidableEq

/-- The security stack of a node. -/
structure NodeSecurity (P : SenderModels) where
  profile : EnvelopeProfile
  crypto : P.Crypto
  /-- One signer handle per pseudonym. -/
  signers : OrdMap (ℕ ×ₗ ℕ) SignerHandle := ∅
  /-- Which pseudonym is signing now. -/
  active : Option (ℕ ×ₗ ℕ) := none
  /-- When a full certificate was last attached to a message of each type. -/
  lastCertificate : MsgType → Option SimTime := fun _ => none
  camPolicy : SignerIdPolicy := .etsi1s
  bsmPolicy : SignerIdPolicy := .sae450ms

namespace NodeSecurity

/-- Provisions, or reuses, the signer handle of one pseudonym; `false` if it fails. -/
def provision (n : NodeSecurity P) (at_ : SimTime) (p : ℕ ×ₗ ℕ) : Bool × NodeSecurity P :=
  match n.signers[p]? with
  | some _ => (true, n)
  | none =>
    match P.issue p at_ n.crypto with
    | (some handle, crypto) =>
      (true, { n with crypto := crypto, signers := n.signers.insert p handle })
    | (none, crypto) => (false, { n with crypto := crypto })

/-- Selects the pseudonym that signs from now on, if it is provisioned. -/
def setActive (n : NodeSecurity P) (p : ℕ ×ₗ ℕ) : Option (NodeSecurity P) :=
  if n.signers[p]?.isSome then some { n with active := some p } else none

/-- The signer handle in use. -/
def signer (n : NodeSecurity P) : Option SignerHandle := n.active.bind fun p => n.signers[p]?

/-- The cadence a message type goes by. -/
def policyFor (n : NodeSecurity P) : MsgType → SignerIdPolicy
  | .bsm => n.bsmPolicy
  | _ => n.camPolicy

/-- Whether a full certificate is due for `msgType`. The ETSI profile attaches one to every
DENM. -/
def signerIdFor (n : NodeSecurity P) (msgType : MsgType) (believed : SimTime) : SignerIdChoice :=
  if n.profile = .etsiTs103097 ∧ msgType = .denm then .certificate
  else (n.policyFor msgType).choose believed (n.lastCertificate msgType)

/-- Signs a payload. -/
def sign (n : NodeSecurity P) (msgType : MsgType) (payload : List UInt8) (sid : SignerIdChoice)
    (belief : P.Belief) : Option SignedFrame × NodeSecurity P :=
  match n.active, n.signer with
  | some p, some signer =>
    let (spdu, crypto) := P.signEnvelope signer msgType payload sid belief n.crypto
    (spdu.map fun spdu =>
      ⟨payload, spdu, if sid = .certificate then signer.certCoer.length else 0, p⟩,
      { n with crypto := crypto })
  | _, _ => (none, n)

/-- Records that a full certificate went out. -/
def noteCertificateAttached (n : NodeSecurity P) (msgType : MsgType) (believed : SimTime) :
    NodeSecurity P :=
  { n with
    lastCertificate := fun ty => if ty = msgType then some believed else n.lastCertificate ty }

end NodeSecurity

/-! ## The sending half -/

/-- A message a node has transmitted. -/
structure Sent where
  transmission : Transmission
  signed : SignedFrame
  deriving DecidableEq

/-- The sending half of a node. -/
structure Sender (P : SenderModels) where
  config : NodeConfig
  service : ProfileServiceModel
  cpu : ServerBank
  hsm : ServerBank
  accel : ServerBank
  txQueue : NodeQueue Transmission
  drops : DropLedger
  state : NodeState
  belief : P.Belief
  certs : CertStore
  crl : CrlGate
  security : NodeSecurity P
  schedule : P.Schedule
  events : EventServices P.toEventModels

namespace Sender

/-- Records `n` messages that were not sent. -/
def dropped (s : Sender P) (n : ℕ) : Sender P :=
  { s with drops := ⟨s.drops.counts.modify DropCause.txOverflow.index (satAdd32 · n)⟩ }

/-- Offers one signature to the bank it runs on. -/
def submit (s : Sender P) (where_ : RunsOn) (arrival : SimTime) (cost : Duration) :
    Scheduled × Sender P :=
  match where_ with
  | .hsm =>
    let (sched, b) := s.hsm.submit arrival cost
    (sched, { s with hsm := b })
  | .accelerator =>
    let (sched, b) := s.accel.submit arrival cost
    (sched, { s with accel := b })
  | .cpu =>
    let (sched, b) := s.cpu.submit arrival cost
    (sched, { s with cpu := b })

/-- The payload of a periodic message. The intersection messages are sent as they were installed. -/
def encode (s : Sender P) (msgType : MsgType) (believed : SimTime) (cred : CredentialHandle) :
    Option (List UInt8) :=
  match msgType with
  | .cam | .bsm => P.encodePayload msgType believed s.belief cred s.schedule
  | .spat | .map => s.events.infraPayload msgType
  | _ => none

/-- Provisions pseudonyms one after the other, up to the first that fails. -/
def provisionEach (at_ : SimTime) : List (ℕ ×ₗ ℕ) → NodeSecurity P → Bool × NodeSecurity P
  | [], n => (true, n)
  | p :: ps, n =>
    match n.provision at_ p with
    | (false, n) => (false, n)
    | (true, n) => provisionEach at_ ps n

/-- The credential with the identity of the certificate issued for it. -/
def writeBack (n : NodeSecurity P) (c : CredentialHandle) : CredentialHandle :=
  match n.signers[c.pseudonym]? with
  | some signer =>
    if c.digest ≠ signer.digest then { c with digest := signer.digest, certCoer := signer.certCoer }
    else c
  | none => c

/-- Writes the identities of the certificates back into the store, up to the first credential that
has none. -/
def writeBackEach (n : NodeSecurity P) : List CredentialHandle → Bool × List CredentialHandle
  | [] => (true, [])
  | c :: cs =>
    match n.signers[c.pseudonym]? with
    | none => (false, c :: cs)
    | some _ =>
      let (ok, cs) := writeBackEach n cs
      (ok, writeBack n c :: cs)

/-- Issues a certificate for every credential of the store, and writes each one's identity back. -/
def provisionAll (s : Sender P) (believed : SimTime) : Bool × Sender P :=
  match provisionEach believed (s.certs.creds.map (·.pseudonym)) s.security with
  | (false, n) => (false, { s with security := n })
  | (true, n) =>
    let (ok, creds) := writeBackEach n s.certs.creds
    (ok, { s with security := n, certs := { s.certs with creds := creds } })

/-- Signs one message and puts it on the air: what is sent, and the node. -/
def sendOne (believed : SimTime) (cred : CredentialHandle) (s : Sender P)
    (m : MsgType × Option (List UInt8)) : Option Sent × Sender P :=
  match m.2 with
  | none => (none, s.dropped 1)
  | some payload =>
    let sid := s.security.signerIdFor m.1 believed
    match s.security.sign m.1 payload sid s.belief with
    | (none, n) => (none, dropped { s with security := n } 1)
    | (some frame, n) =>
      let s := { s with security := n }
      let op := OpDescriptor.sign s.config.signOp frame.payload.length
      match s.service.serviceTime op with
      -- The profile costs no signature. Nothing is signed for free.
      | none => (none, s.dropped 1)
      | some cost =>
        let (sched, s) := s.submit (s.service.runsOn op) believed cost
        let full : Bool := sid = .certificate
        let tx : Transmission :=
          ⟨m.1, frame.spdu.length, cred.digest, full, sched.finish, believed, sched.start⟩
        match s.txQueue.push tx with
        | (.queued, queue) =>
          (some ⟨tx, frame⟩,
            { s with
              txQueue := (queue.pop.map (·.2)).getD queue
              security :=
                if full then s.security.noteCertificateAttached m.1 believed else s.security })
        | (_, queue) => (none, dropped { s with txQueue := queue } 1)

/-- Sends the messages of a step, one after the other. -/
def sendEach (believed : SimTime) (cred : CredentialHandle) :
    List (MsgType × Option (List UInt8)) → Sender P → List Sent × Sender P
  | [], s => ([], s)
  | m :: ms, s =>
    let (sent, s) := sendOne believed cred s m
    let (rest, s) := sendEach believed cred ms s
    (sent.toList ++ rest, s)

/-- Everything a step builds, with the payloads under the credential in use. -/
def built (s : Sender P) (believed : SimTime) (cred : CredentialHandle) (requests : List MsgType)
    (events : List EventRequest) : List (MsgType × Option (List UInt8)) :=
  (requests.map fun ty => (ty, s.encode ty believed cred)) ++
    events.map fun e => (e.msgType, P.encodeEvent e believed cred (s.events.detection e))

/-- Builds, signs and sends whatever is due. -/
def generate (s : Sender P) (believed : SimTime) : List Sent × Sender P :=
  let (requests, schedule) := P.scheduleDue believed s.belief s.schedule
  let stationId := s.certs.active.map (·.stationId)
  let (events, services) := s.events.due ⟨believed, s.belief, P.services schedule, stationId⟩
  let s := { s with schedule := schedule, events := services }
  let wanted := requests.length + events.length
  if requests.isEmpty ∧ events.isEmpty then ([], s)
  else
    match s.certs.active with
    | none => ([], s.dropped wanted)
    | some cred =>
      match s.provisionAll believed with
      | (false, s) => ([], s.dropped wanted)
      | (true, s) =>
        match s.security.setActive cred.pseudonym with
        | none => ([], s.dropped wanted)
        | some n =>
          let s := { s with security := n }
          match s.certs.active with
          | none => ([], s.dropped wanted)
          | some cred => sendEach believed cred (s.built believed cred requests events) s

/-- The upkeep of the credentials in a step. -/
def maintain (s : Sender P) (believed : SimTime) (distance : F64) : Sender P :=
  let certs := ((s.certs.travelled P.odometer distance).sweep believed s.crl).2
  { s with certs := (certs.rotate P.odometer believed).2 }

/-- The periodic step, after the reception. -/
def step (s : Sender P) (believed : SimTime) (distance : F64) : List Sent × Sender P :=
  if s.state = .off then ([], s)
  else
    let s := s.maintain believed distance
    if s.state.transmits then s.generate believed else ([], s)

/-- The node with its credentials, its revocations and the state of its certificates, and with
everything else as in `other`. -/
def absorb (s other : Sender P) : Sender P :=
  { other with
    config := s.config
    certs := s.certs
    crl := s.crl
    security := { s.security with crypto := other.security.crypto } }

end Sender

/-! ## Runs -/

/-- What the engine does to the sending half of a node. -/
inductive SenderOp (P : SenderModels)
  | step (believed : SimTime) (distance : F64)
  /-- A reception, or a setter of the parts that have nothing to do with the credentials. -/
  | absorb (other : Sender P)
  | insert (cred : CredentialHandle)
  /-- A new store of credentials in the place of the old one. -/
  | install (policy : RotationPolicy) (creds : List CredentialHandle)
  | revokeOwn (digest : HashedId8)

/-- One operation of the engine: what is sent, and the node. -/
def Sender.perform (s : Sender P) : SenderOp P → List Sent × Sender P
  | .step believed distance => s.step believed distance
  | .absorb other => ([], s.absorb other)
  | .insert cred => ([], { s with certs := s.certs.insert cred })
  | .install policy creds =>
    ([], { s with certs := creds.foldl CertStore.insert { policy := some policy } })
  | .revokeOwn digest => ([], { s with crl := s.crl.revokeOwn digest })

/-- A node as the engine drives it. No operation aborts. -/
def senderMachine (s : Sender P) : Machine (Sender P) (SenderOp P) (List Sent) Empty where
  init := s
  step s op := .ok (s.perform op)

/-! ## What a step does -/

namespace NodeSecurity

/-- A later state of the stack, between two attachments: certificates are issued and none is
withdrawn, and the cadence is where it was. -/
structure Grows (n n' : NodeSecurity P) : Prop where
  signers : ∀ (p : ℕ ×ₗ ℕ) (h : SignerHandle), n.signers[p]? = some h → n'.signers[p]? = some h
  profile : n'.profile = n.profile
  policyFor : n'.policyFor = n.policyFor
  lastCertificate : n'.lastCertificate = n.lastCertificate

lemma Grows.refl (n : NodeSecurity P) : n.Grows n := ⟨fun _ _ h => h, rfl, rfl, rfl⟩

lemma Grows.trans {n m k : NodeSecurity P} (h : n.Grows m) (h' : m.Grows k) : n.Grows k where
  signers p hd hp := h'.signers p hd (h.signers p hd hp)
  profile := h'.profile.trans h.profile
  policyFor := h'.policyFor.trans h.policyFor
  lastCertificate := h'.lastCertificate.trans h.lastCertificate

/-- Provisioning only adds a certificate. -/
lemma grows_provision (n : NodeSecurity P) (at_ : SimTime) (p : ℕ ×ₗ ℕ) :
    n.Grows (n.provision at_ p).2 := by
  unfold provision
  split
  next => exact .refl n
  next hnone =>
    split
    next handle crypto _ =>
      refine ⟨fun q h hq => ?_, rfl, rfl, rfl⟩
      rw [OrdMap.get_insert]
      split_ifs with heq
      · rw [← heq, hnone] at hq
        cases hq
      · exact hq
    next => exact ⟨fun _ _ h => h, rfl, rfl, rfl⟩

lemma setActive_spec {n n' : NodeSecurity P} {p : ℕ ×ₗ ℕ} (h : n.setActive p = some n') :
    n.Grows n' ∧ n'.active = some p := by
  unfold setActive at h
  split_ifs at h
  cases h
  exact ⟨⟨fun _ _ h => h, rfl, rfl, rfl⟩, rfl⟩

lemma sign_spec (n : NodeSecurity P) (ty : MsgType) (payload : List UInt8) (sid : SignerIdChoice)
    (belief : P.Belief) : n.Grows (n.sign ty payload sid belief).2 ∧
      (n.sign ty payload sid belief).2.active = n.active ∧
      ∀ f, (n.sign ty payload sid belief).1 = some f → n.active = some f.pseudonym := by
  unfold sign
  split
  next p signer hp _ =>
    refine ⟨⟨fun _ _ h => h, rfl, rfl, rfl⟩, rfl, fun f hf => ?_⟩
    obtain ⟨spdu, -, rfl⟩ := Option.map_eq_some_iff.1 hf
    exact hp
  next => exact ⟨.refl n, rfl, fun f hf => by cases hf⟩

end NodeSecurity

namespace Sender

/-- Provisioning several pseudonyms only adds certificates. -/
lemma grows_provisionEach (at_ : SimTime) (ps : List (ℕ ×ₗ ℕ)) : ∀ n : NodeSecurity P,
    n.Grows (provisionEach at_ ps n).2 := by
  induction ps with
  | nil => exact fun n => .refl n
  | cons p ps ih =>
    intro n
    have hfirst := n.grows_provision at_ p
    unfold provisionEach
    split
    next n' h => rwa [h] at hfirst
    next n' h =>
      rw [h] at hfirst
      exact hfirst.trans (ih n')

lemma writeBack_spec (n : NodeSecurity P) (c : CredentialHandle) :
    (writeBack n c).pseudonym = c.pseudonym ∧ (writeBack n c).state = c.state ∧
      ((writeBack n c).digest = c.digest ∨
        ∃ h, n.signers[c.pseudonym]? = some h ∧ (writeBack n c).digest = h.digest) := by
  unfold writeBack
  split
  next h hh =>
    split_ifs
    · exact ⟨rfl, rfl, .inr ⟨h, hh, rfl⟩⟩
    · exact ⟨rfl, rfl, .inl rfl⟩
  next => exact ⟨rfl, rfl, .inl rfl⟩

/-- The credential has kept its pseudonym and its state, and its digest is what it was or that of
the certificate issued for it. -/
def Identifies (n : NodeSecurity P) (c c' : CredentialHandle) : Prop :=
  c'.pseudonym = c.pseudonym ∧ c'.state = c.state ∧
    (c'.digest = c.digest ∨ ∃ h, n.signers[c.pseudonym]? = some h ∧ c'.digest = h.digest)

lemma Identifies.refl (n : NodeSecurity P) (c : CredentialHandle) : Identifies n c c :=
  ⟨rfl, rfl, .inl rfl⟩

/-- The credentials after the write-back are those before it, with the identities of their
certificates. -/
lemma mem_writeBackEach {n : NodeSecurity P} {c' : CredentialHandle} :
    ∀ {cs : List CredentialHandle}, c' ∈ (writeBackEach n cs).2 →
      ∃ c ∈ cs, Identifies n c c' := by
  intro cs
  induction cs with
  | nil => exact fun h => absurd h List.not_mem_nil
  | cons c cs ih =>
    intro h
    unfold writeBackEach at h
    split at h
    next => exact ⟨c', h, .refl n c'⟩
    next =>
      rcases List.mem_cons.1 h with rfl | h
      · exact ⟨c, List.mem_cons_self, writeBack_spec n c⟩
      · obtain ⟨c₀, hc₀, hid⟩ := ih h
        exact ⟨c₀, List.mem_cons_of_mem _ hc₀, hid⟩

/-- What a node does before it signs: certificates are issued, and credentials take their
identities. -/
structure Provisioned (s s' : Sender P) : Prop where
  crl : s'.crl = s.crl
  grows : s.security.Grows s'.security
  creds : ∀ c' ∈ s'.certs.creds, ∃ c ∈ s.certs.creds, Identifies s'.security c c'

lemma Provisioned.same {s s' : Sender P} (hcrl : s'.crl = s.crl) (hcerts : s'.certs = s.certs)
    (hsec : s'.security = s.security) : s.Provisioned s' where
  crl := hcrl
  grows := hsec ▸ .refl _
  creds c' hc' := ⟨c', hcerts ▸ hc', .refl _ c'⟩

lemma Provisioned.setActive {s s' : Sender P} (h : s.Provisioned s') {p : ℕ ×ₗ ℕ}
    {n : NodeSecurity P} (hn : s'.security.setActive p = some n) :
    s.Provisioned { s' with security := n } where
  crl := h.crl
  grows := h.grows.trans (NodeSecurity.setActive_spec hn).1
  creds c' hc' := by
    obtain ⟨c, hc, hpseudonym, hstate, hdigest⟩ := h.creds c' hc'
    refine ⟨c, hc, hpseudonym, hstate, hdigest.imp_right ?_⟩
    rintro ⟨handle, hhandle, heq⟩
    exact ⟨handle, (NodeSecurity.setActive_spec hn).1.signers _ _ hhandle, heq⟩

lemma provisioned_provisionAll (s : Sender P) (believed : SimTime) :
    s.Provisioned (s.provisionAll believed).2 := by
  have hgrows := grows_provisionEach believed (s.certs.creds.map (·.pseudonym)) s.security
  unfold provisionAll
  split
  next n hn =>
    rw [hn] at hgrows
    exact ⟨rfl, hgrows, fun c hc => ⟨c, hc, .refl n c⟩⟩
  next n hn =>
    rw [hn] at hgrows
    exact ⟨rfl, hgrows, fun c hc => mem_writeBackEach hc⟩

/-- What one message does to a node: the selected pseudonym stays, and what is sent is signed by it,
names the certificate as the cadence of its type wants it, and is noted if it carries it. -/
structure SendsOne (believed : SimTime) (s : Sender P) (sent : Option Sent) (s' : Sender P) :
    Prop where
  crl : s'.crl = s.crl
  certs : s'.certs = s.certs
  active : s'.security.active = s.security.active
  signers : ∀ (p : ℕ ×ₗ ℕ) (h : SignerHandle),
    s.security.signers[p]? = some h → s'.security.signers[p]? = some h
  profile : s'.security.profile = s.security.profile
  policyFor : s'.security.policyFor = s.security.policyFor
  idle : sent = none → s'.security.lastCertificate = s.security.lastCertificate
  signed : ∀ x, sent = some x → s.security.active = some x.signed.pseudonym ∧
    x.transmission.generationTime = believed ∧
    (x.transmission.fullCertificate = true ↔
      s.security.signerIdFor x.transmission.msgType believed = .certificate) ∧
    s'.security.lastCertificate = if x.transmission.fullCertificate then
      (s.security.noteCertificateAttached x.transmission.msgType believed).lastCertificate
      else s.security.lastCertificate

@[simp] lemma security_submit (s : Sender P) (where_ : RunsOn) (arrival : SimTime)
    (cost : Duration) : (s.submit where_ arrival cost).2.security = s.security ∧
      (s.submit where_ arrival cost).2.certs = s.certs ∧
      (s.submit where_ arrival cost).2.crl = s.crl := by
  cases where_
  · exact ⟨rfl, rfl, rfl⟩
  · exact ⟨rfl, rfl, rfl⟩
  · exact ⟨rfl, rfl, rfl⟩

lemma mem_maintain {s : Sender P} {believed : SimTime} {distance : F64} {c : CredentialHandle}
    (h : c ∈ (s.maintain believed distance).certs.creds) :
    ∃ c₀ ∈ s.certs.creds, c = { c₀ with state := CertStore.sweptState c₀ believed s.crl } := by
  have hmem := (CertStore.perm_rotate P.odometer _ believed).mem_iff.1 h
  obtain ⟨c₀, hc₀, heq⟩ := CertStore.mem_sweep hmem
  rw [CertStore.creds_travelled] at hc₀
  exact ⟨c₀, hc₀, heq⟩

lemma SendsOne.none {believed : SimTime} {s s' : Sender P} (hcrl : s'.crl = s.crl)
    (hcerts : s'.certs = s.certs) (hactive : s'.security.active = s.security.active)
    (h : s.security.Grows s'.security) : SendsOne believed s none s' where
  crl := hcrl
  certs := hcerts
  active := hactive
  signers := h.signers
  profile := h.profile
  policyFor := h.policyFor
  idle _ := h.lastCertificate
  signed x hx := by cases hx

lemma sendsOne (believed : SimTime) (cred : CredentialHandle) (s : Sender P)
    (m : MsgType × Option (List UInt8)) :
    SendsOne believed s (sendOne believed cred s m).1 (sendOne believed cred s m).2 := by
  unfold sendOne
  split
  next => exact .none rfl rfl rfl (.refl _)
  next payload _ =>
    obtain ⟨hgrows, hactive, hframe⟩ := s.security.sign_spec m.1 payload
      (s.security.signerIdFor m.1 believed) s.belief
    dsimp only
    split
    next n hsign =>
      rw [hsign] at hgrows hactive
      exact .none rfl rfl hactive hgrows
    next frame n hsign =>
      rw [hsign] at hgrows hactive hframe
      have hframe : s.security.active = some frame.pseudonym := hframe frame rfl
      split
      next => exact .none rfl rfl hactive hgrows
      next cost _ =>
        set t : Sender P := { s with security := n }
        set op := OpDescriptor.sign t.config.signOp frame.payload.length
        obtain ⟨hsec, hcerts, hcrl⟩ := t.security_submit (t.service.runsOn op) believed cost
        have hgrows' : s.security.Grows (t.submit (t.service.runsOn op) believed cost).2.security :=
          hsec ▸ hgrows
        have hactive' : (t.submit (t.service.runsOn op) believed cost).2.security.active =
            s.security.active := hsec ▸ hactive
        split
        next queue hqueue =>
          refine
            { crl := hcrl, certs := hcerts, idle := nofun, active := ?_, signers := ?_,
              profile := ?_, policyFor := ?_, signed := fun x hx => ?_ }
          · dsimp only
            split_ifs <;> exact hactive'
          · dsimp only
            split_ifs <;> exact hgrows'.signers
          · dsimp only
            split_ifs <;> exact hgrows'.profile
          · dsimp only
            split_ifs <;> exact hgrows'.policyFor
          · obtain rfl := Option.some.inj hx
            refine ⟨hframe, rfl, by simp, ?_⟩
            dsimp only
            split_ifs
            · funext ty
              simp only [NodeSecurity.noteCertificateAttached]
              split_ifs
              · rfl
              · exact congrFun hgrows'.lastCertificate ty
            · exact hgrows'.lastCertificate
        next => exact .none hcrl hcerts hactive' hgrows'

/-- What several messages do to a node, one after the other. -/
inductive Sends (believed : SimTime) : Sender P → List Sent → Sender P → Prop
  | nil (s : Sender P) : Sends believed s [] s
  | cons {s t u : Sender P} {sent : Option Sent} {rest : List Sent} :
      SendsOne believed s sent t → Sends believed t rest u →
      Sends believed s (sent.toList ++ rest) u

/-- Sending leaves the credentials, the revocations and the selected pseudonym alone, and everything
sent is signed by that pseudonym. -/
lemma Sends.frame {believed : SimTime} {s s' : Sender P} {out : List Sent}
    (h : Sends believed s out s') : s'.crl = s.crl ∧ s'.certs = s.certs ∧
      s'.security.active = s.security.active ∧
      (∀ (p : ℕ ×ₗ ℕ) (hd : SignerHandle),
        s.security.signers[p]? = some hd → s'.security.signers[p]? = some hd) ∧
      ∀ x ∈ out, s.security.active = some x.signed.pseudonym := by
  induction h with
  | nil s => exact ⟨rfl, rfl, rfl, fun _ _ h => h, fun x hx => absurd hx List.not_mem_nil⟩
  | @cons s t u sent rest hone _ ih =>
    obtain ⟨hcrl, hcerts, hactive, hsigners, hout⟩ := ih
    refine ⟨hcrl.trans hone.crl, hcerts.trans hone.certs, hactive.trans hone.active,
      fun p hd hp => hsigners p hd (hone.signers p hd hp), fun x hx => ?_⟩
    rcases List.mem_append.1 hx with hx | hx
    · exact (hone.signed x (Option.mem_toList.1 hx)).1
    · rw [← hone.active]
      exact hout x hx

lemma sends_sendEach (believed : SimTime) (cred : CredentialHandle)
    (ms : List (MsgType × Option (List UInt8))) : ∀ s : Sender P,
    Sends believed s (sendEach believed cred ms s).1 (sendEach believed cred ms s).2 := by
  induction ms with
  | nil => exact fun s => .nil s
  | cons m ms ih => exact fun s => .cons (sendsOne believed cred s m) (ih _)

/-- What `generate` does: certificates are issued and their identities written back, and then
nothing is sent, or messages are sent one after the other under the pseudonym of the active
credential. -/
def Generates (believed : SimTime) (s : Sender P) (out : List Sent) (s' : Sender P) : Prop :=
  ∃ t, s.Provisioned t ∧ Sends believed t out s' ∧
    (out = [] ∨ ∃ cred, s.certs.active = some cred ∧ t.security.active = some cred.pseudonym)

lemma Provisioned.generates {s s' : Sender P} (h : s.Provisioned s') (believed : SimTime) :
    Generates believed s [] s' := ⟨s', h, .nil s', .inl rfl⟩

lemma generates_generate (s : Sender P) (believed : SimTime) :
    Generates believed s (s.generate believed).1 (s.generate believed).2 := by
  unfold generate
  dsimp only
  split_ifs
  · refine Provisioned.generates ?_ believed
    exact .same rfl rfl rfl
  split
  next =>
    refine Provisioned.generates ?_ believed
    exact .same rfl rfl rfl
  next cred hcred =>
    set s₀ : Sender P := { s with
      schedule := (P.scheduleDue believed s.belief s.schedule).2
      events := _ }
    have hprov : s.Provisioned (s₀.provisionAll believed).2 :=
      let h := s₀.provisioned_provisionAll believed
      ⟨h.crl, h.grows, h.creds⟩
    split
    next s' hs' =>
      rw [hs'] at hprov
      refine Provisioned.generates ?_ believed
      exact ⟨hprov.crl, hprov.grows, hprov.creds⟩
    next s' hs' =>
      rw [hs'] at hprov
      split
      next =>
        refine Provisioned.generates ?_ believed
        exact ⟨hprov.crl, hprov.grows, hprov.creds⟩
      next n hn =>
        have hset := hprov.setActive hn
        split
        next =>
          refine Provisioned.generates ?_ believed
          exact ⟨hset.crl, hset.grows, hset.creds⟩
        next cred' _ =>
          exact ⟨_, hset, sends_sendEach believed cred' _ _,
            .inr ⟨cred, hcred, (NodeSecurity.setActive_spec hn).2⟩⟩

end Sender

/-! ## A bare sender -/

/-- A node that has a BSM to send in every step, and makes the certificates of its pseudonyms by
counting. -/
def bareSenders : SenderModels where
  toEventModels := bareEvents
  odometer := ⟨fun a _ => a, fun _ _ => true⟩
  Schedule := List MsgType
  Crypto := ℕ
  services _ := {}
  scheduleDue _ _ due := (due, due)
  issue _ _ n := (some ⟨n, [], 1000 + n⟩, n + 1)
  signEnvelope _ _ payload _ _ n := (some payload, n)
  encodePayload _ _ _ _ _ := some [0]
  encodeEvent _ _ _ _ := none

/-- The `j`-th credential as it is stored: its digest is a stand-in. -/
def standIn (j : ℕ) : CredentialHandle where
  digest := j + 1
  certCoer := []
  key := j
  iPeriod := 0
  jIndex := j
  validFrom := 0
  validUntil := 1000000000000
  state := .active

/-- A node with these credentials that changes its pseudonym every second, and sends a BSM and a
CAM in each step. -/
def bareSender (creds : List CredentialHandle) : Sender bareSenders where
  config := {}
  service := { profile := ⟨some 1, some 1, fun _ => some (⟨1000⟩, .hsm)⟩ }
  cpu := .new 1 0
  hsm := .new 1 0
  accel := .new 1 0
  txQueue := { kind := .tx, capacity := 32 }
  drops := {}
  state := .active
  belief := true
  certs := { creds := creds, policy := some ⟨.fromMillis 1000, ⟨0⟩, true⟩ }
  crl := {}
  security := { profile := .ieee1609Dot2, crypto := (0 : ℕ) }
  schedule := [.bsm, .cam]
  events := {}

end V2xw.Node
