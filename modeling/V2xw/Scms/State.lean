import Mathlib.Data.Finset.Insert
import V2xw.Scms.Msg

/-!
# What the entities of the SCMS deployment hold

The states of `crates/v2xw-proto/src/scms/run.rs`: devices, the Registration Authority and its
jobs, the certifying authority, the two Linkage Authorities, the Misbehaviour Authority with its
single case, and the three copies of the revocation list. A device's pseudonym store is driven by
none of the flows and is left out.

## Main definitions

* `DeviceState` — what a device holds, and which of its credentials are usable or
  revoked.
* `ScmsState` — everything the deployment knows.
-/

namespace V2xw.Scms

open V2xw.Core

variable {S P : Type} [AddCommGroup S] [AddCommGroup P]

/-- A period and an index within it. -/
abbrev Slot := ℕ ×ₗ ℕ

/-- The slot of a period and an index. -/
def slot (i j : ℕ) : Slot := toLex (i, j)

/-- The periods `start..start + periods` of a request, with the `u32` sum of the source. -/
def periodRange (startI periods : ℕ) : List ℕ :=
  List.range' startI (wrap32 (startI + periods) - startI)

/-! ## Devices -/

/-- The provisioning flow in progress. -/
structure ProvisioningProgress where
  startI : ℕ
  periods : ℕ
  downloaded : ℕ
  firstBatchSeen : Bool
  deriving DecidableEq

/-- What one device holds. -/
structure DeviceState (S P : Type) where
  node : NodeId
  enrolled : Bool
  /-- Its caterpillar, once it has made a provisioning request. -/
  caterpillar : Option (Caterpillar S)
  /-- The credentials it holds, by period and index. -/
  credentials : OrdMap Slot (IssuedCredential S P)
  /-- The revocation list it has processed. -/
  crl : List CrlLinkageEntry
  /-- Whether it has found itself on the list and stopped transmitting. -/
  silenced : Bool
  /-- How many times it has polled for a batch that was not ready. -/
  downloadRetries : ℕ
  provisioning : Option ProvisioningProgress

namespace DeviceState

/-- A device that has done nothing yet. -/
def new (node : NodeId) : DeviceState S P where
  node := node
  enrolled := false
  caterpillar := none
  credentials := ∅
  crl := []
  silenced := false
  downloadRetries := 0
  provisioning := none

/-- Whether the credential of a slot is revoked by the list the device holds. -/
def isRevoked (c : Crypto S P) (dev : DeviceState S P) (i j : ℕ) : Bool :=
  dev.credentials[slot i j]?.any fun cred => dev.crl.any fun e => e.matchesCert c i j cred.lv

/-- Every slot whose credential is revoked by the list the device holds. -/
def revokedCredentials (c : Crypto S P) (dev : DeviceState S P) : List Slot :=
  dev.credentials.keys.filter fun k => dev.isRevoked c (ofLex k).1 (ofLex k).2

/-- Whether a credential's derived private key matches its certified public key. -/
def credentialIsUsable [DecidableEq P] (c : Crypto S P) (dev : DeviceState S P) (i j : ℕ) : Bool :=
  match dev.caterpillar, dev.credentials[slot i j]? with
  | some cat, some cred =>
    derivedKeyMatches c (cat.signingPrivate c i j cred.c) cred.certifiedPublic
  | _, _ => false

end DeviceState

/-! ## The Registration Authority -/

/-- What the Registration Authority records about one provisioning request. -/
structure RequestRecord where
  device : NodeId
  /-- The first authority's chain, once it has allocated one. -/
  lci1 : Option Lci
  /-- The second authority's chain. -/
  lci2 : Option Lci
  deriving DecidableEq

/-- A provisioning job on its way through the Registration Authority. -/
structure ProvisioningJob (P : Type) where
  run : FlowRun
  flow : FlowId
  device : NodeId
  requestHash : Bytes
  startI : ℕ
  periods : ℕ
  jmax : ℕ
  cocoons : OrdMap Slot P
  plv : LaIndex → OrdMap Slot (SealedForPca PreLinkageValue)
  lci : LaIndex → Option Lci
  responses : ℕ
  periodsCertified : ℕ
  sent : Bool
  batchReadyStamped : Bool

/-- The Registration Authority's state. -/
structure RaState (S P : Type) where
  enrolled : Finset NodeId
  /-- Blocklisted enrolment certificates. -/
  blocklist : Finset NodeId
  /-- The request records, by request hash. -/
  requests : OrdMap Bytes RequestRecord
  /-- Requests refused because the device is blocklisted. -/
  refused : ℕ
  /-- Jobs waiting for the shuffle window, or for their certificates. -/
  jobs : List (ProvisioningJob P)
  /-- Reports waiting for the report shuffle window. -/
  reports : List (FlowRun × ReportSubmission)
  /-- Batches ready for download, by device and period. -/
  repos : OrdMap NodeId (OrdMap ℕ (List (IssuedCredential S P)))
  shuffleArmed : Bool
  reportShuffleArmed : Bool

/-- The batch ready for a device in a period. -/
def RaState.batch (ra : RaState S P) (device : NodeId) (i : ℕ) :
    Option (List (IssuedCredential S P)) :=
  ra.repos[device]?.bind fun r => r[i]?

/-! ## The other authorities -/

/-- The certifying authority's state. -/
structure PcaState where
  /-- What was stored when a certificate was issued, by period and linkage value. -/
  issued : OrdMap (ℕ ×ₗ LinkageValue) PcaLookup
  issuedCount : ℕ
  certifiedRuns : Finset FlowRun

/-- One Linkage Authority's state. -/
structure LaState where
  index : LaIndex
  laId : LaId
  /-- The initial seeds of the chains. -/
  chains : OrdMap Lci LinkageSeed
  /-- The devices the chains belong to. -/
  owner : OrdMap Lci NodeId
  nextLci : ℕ

/-- A Linkage Authority with no chains. -/
def LaState.new (index : LaIndex) (laId : LaId) : LaState := ⟨index, laId, ∅, ∅, 1⟩

/-- One investigation. -/
structure Case where
  run : FlowRun
  /-- The run reserved for the issuance that follows it. -/
  crlRun : FlowRun
  /-- The two reports being correlated. -/
  subject1 : ℕ × LinkageValue
  subject2 : ℕ × LinkageValue
  /-- What the certifying authority answered, in order. -/
  lookups : List PcaLookup
  /-- What the two Linkage Authorities answered. -/
  same : LaIndex → Option Bool
  /-- The seeds the Linkage Authorities released. -/
  seeds : LaIndex → Option (LaId × LinkageSeed)
  iRev : ℕ
  /-- Certificates per period, for the entry. -/
  jmax : ℕ
  resolved : Bool
  /-- Whether the decision names one certificate, with nothing to correlate. -/
  direct : Bool
  /-- Whether the case has finished. -/
  done : Bool

/-- The Misbehaviour Authority's state. -/
structure MaState where
  reports : List ReportSubmission
  case : Option Case
  /-- The request hashes it has decided to revoke. -/
  decisions : List Bytes

/-- A copy of the revocation list. -/
structure CrlState where
  entries : List CrlLinkageEntry
  /-- Whether a publication is already scheduled, at the generator. -/
  publishArmed : Bool

/-! ## The deployment -/

/-- Everything the deployment knows. The nodes are those of `ScmsNodes.default`. -/
structure ScmsState (S P : Type) where
  params : ScmsParams
  sizes : ScmsSizes
  ra : RaState S P
  pca : PcaState
  la : LaIndex → LaState
  ma : MaState
  /-- What the generator has assembled. -/
  crlg : CrlState
  crlStore : CrlState
  /-- What the broadcast path has carried. -/
  crlBroadcast : CrlState
  devices : OrdMap NodeId (DeviceState S P)
  rng : RngRegistry
  issuedEnrolment : Finset NodeId
  nextRun : ℕ

/-- The nodes of the deployment. -/
abbrev nodes : ScmsNodes := ScmsNodes.default

/-- Applies a change to a device, if it is known. -/
def ScmsState.modifyDevice (s : ScmsState S P) (device : NodeId)
    (f : DeviceState S P → DeviceState S P) : ScmsState S P :=
  match s.devices[device]? with
  | none => s
  | some dev => { s with devices := s.devices.insert device (f dev) }

/-- The deployment before anything happens. -/
def ScmsState.new (certs : CertificateSizes) (params : ScmsParams) : ScmsState S P where
  params := params
  sizes := ⟨certs, params.sizes⟩
  ra := ⟨∅, ∅, ∅, 0, [], [], ∅, false, false⟩
  pca := ⟨∅, 0, ∅⟩
  la := fun
    | .one => LaState.new .one 1
    | .two => LaState.new .two 2
  ma := ⟨[], none, []⟩
  crlg := ⟨[], false⟩
  crlStore := ⟨[], false⟩
  crlBroadcast := ⟨[], false⟩
  devices := ∅
  rng := ⟨params.masterSeed, ∅⟩
  issuedEnrolment := ∅
  nextRun := 0

end V2xw.Scms
