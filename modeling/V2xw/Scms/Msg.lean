import V2xw.Scms.Crypto

/-!
# Messages, nodes and parameters of the SCMS deployment

`crates/v2xw-proto/src/scms/{msg,params}.rs` and the sizes of `sizes.rs`: what crosses a link, how
many bytes it is, which node hosts which role, and the numbers a deployment is tuned by. The
provenance of a size is left out; what a link carries is its byte count.

## Main definitions

* `ScmsMsg` — the messages of the flows.
* `ScmsNodes` — the nodes, their links and their service models.
* `ScmsParams`, `ScmsSizes` — the parameters and the size model.
-/

namespace V2xw.Scms

open V2xw.Core

/-! ## Payloads -/

/-- A value only the Pseudonym Certificate Authority may open. -/
structure SealedForPca (α : Type) where
  inner : α

/-- Opens a sealed value, if the opener is the authority it is sealed for. -/
def SealedForPca.openAs {α : Type} (x : SealedForPca α) (opener pca : NodeId) : Option α :=
  if opener = pca then some x.inner else none

/-- A linkage-chain identifier. -/
abbrev Lci := ℕ

/-- Which of the two Linkage Authorities. -/
inductive LaIndex where
  | one
  | two
  deriving DecidableEq, Repr

/-- The butterfly request material a device uploads. -/
structure ProvisioningRequest (P : Type) where
  device : NodeId
  signingPublic : P
  encryptionPublic : P
  ck : Bytes
  ek : Bytes
  /-- The first period requested. -/
  startI : ℕ
  periods : ℕ
  jmax : ℕ

/-- One certified pseudonym credential. -/
structure IssuedCredential (S P : Type) where
  i : ℕ
  j : ℕ
  lv : LinkageValue
  certifiedPublic : P
  /-- The certifying authority's randomiser. -/
  c : S

/-- One request of the Registration Authority: a cocoon key and two sealed pre-linkage values. -/
structure CertRequestItem (P : Type) where
  i : ℕ
  j : ℕ
  cocoonSigning : P
  plv1 : SealedForPca PreLinkageValue
  plv2 : SealedForPca PreLinkageValue
  lci1 : SealedForPca Lci
  lci2 : SealedForPca Lci
  requestHash : Bytes

/-- What one Linkage Authority answers a pre-linkage request with. -/
structure PreLinkageBatch where
  la : LaIndex
  laId : LaId
  lci : Lci
  values : List (ℕ × ℕ × SealedForPca PreLinkageValue)

/-- A misbehaviour report as it leaves a device. -/
structure ReportSubmission where
  reporter : NodeId
  subjectI : ℕ
  subjectLv : LinkageValue
  observedAt : SimTime

/-- What the certifying authority answers a lookup with. -/
structure PcaLookup where
  lci1 : Lci
  lci2 : Lci
  requestHash : Bytes
  deriving DecidableEq

/-! ## Messages -/

/-- The messages of the flows. -/
inductive ScmsMsg (S P : Type) where
  | enrolRequest (device : NodeId)
  | enrolForward (device : NodeId)
  | enrolResponse (device : NodeId)
  | provisioningRequest (req : ProvisioningRequest P)
  | provisioningAck (device : NodeId) (requestHash : Bytes)
  | preLinkageRequest (device : NodeId) (la : LaIndex) (startI periods jmax : ℕ)
  | preLinkageResponse (batch : PreLinkageBatch)
  | shuffleTimer
  | certRequest (device : NodeId) (i : ℕ) (items : List (CertRequestItem P))
  | certResponse (device : NodeId) (i : ℕ) (credentials : List (IssuedCredential S P))
  | batchDownloadRequest (device : NodeId) (i : ℕ)
  | batchDownload (device : NodeId) (i : ℕ) (credentials : List (IssuedCredential S P))
  | report (r : ReportSubmission)
  | reportShuffleTimer
  | crlPublishTimer
  | pcaLookupRequest (i : ℕ) (lv : LinkageValue)
  | pcaLookupResponse (found : Option PcaLookup)
  | sameDeviceRequest (la : LaIndex) (a b : Lci)
  | sameDeviceResponse (la : LaIndex) (same : Bool)
  | blocklistRequest (requestHash : Bytes)
  | blocklistResponse (known : Bool) (lci1 lci2 : Lci)
  | seedRequest (la : LaIndex) (lci : Lci) (i : ℕ)
  | seedResponse (la : LaIndex) (laId : LaId) (seed : LinkageSeed) (i : ℕ)
  | crlAppend (i : ℕ) (la1 la2 : LaId × LinkageSeed) (jmax : ℕ)
  | crlPublish (entries : ℕ)
  | crlDownloadRequest (device : NodeId)
  | crlDownload (device : NodeId) (entries : ℕ)
  | crlAirBroadcast (device : NodeId)

/-! ## Sizes -/

/-- The sizes that no standard publishes. -/
structure SizeParams where
  repoUrlBytes : ℕ
  batchContainerBytes : ℕ
  reportPayloadBytes : ℕ
  linkageChainIdentifierBytes : ℕ

/-- The sizes of the certificates, as the encoder measures them. -/
structure CertificateSizes where
  pseudonym : ℕ
  enrolment : ℕ
  authority : ℕ

/-- Every message size, in one place. -/
structure ScmsSizes where
  certs : CertificateSizes
  params : SizeParams

/-- Bytes of a compressed curve point. -/
def ecPointCompressedBytes : ℕ := 33

/-- Bytes of a cipher key. -/
def aes128KeyBytes : ℕ := 16

/-- Bytes of a digest. -/
def sha256Bytes : ℕ := 32

/-- Bytes of a short hash. -/
def hashedId8Bytes : ℕ := 8

/-- Bytes of a time. -/
def time32Bytes : ℕ := 4

/-- Bytes an encryption wrapper adds. -/
def eciesP256EncryptedKeyBytes : ℕ := 65

/-- Bytes an envelope adds when it names its signer by a digest. -/
def envelopeOverheadDigestBytes : ℕ := 93

/-- Bytes an envelope adds besides the certificate it carries. -/
def envelopeOverheadCertBytes : ℕ := 87

/-- Bytes of a linkage value. -/
def linkageValueBytes : ℕ := 9

/-- Bytes of a linkage seed. -/
def linkageSeedBytes : ℕ := 16

/-- Bytes of an entry of a revocation list. -/
def crlLinkageEntryBytes : ℕ := 40

namespace ScmsSizes

variable (z : ScmsSizes)

/-- Device to Device Configuration Manager: the canonical key. -/
def enrolRequest (_ : ScmsSizes) : ℕ := envelopeOverheadDigestBytes +
    ecPointCompressedBytes + time32Bytes

/-- The same, re-signed with the manager's certificate attached. -/
def enrolForward : ℕ :=
  envelopeOverheadCertBytes + z.certs.authority + ecPointCompressedBytes + time32Bytes

/-- The enrolment certificate under the issuer's own. -/
def enrolResponse : ℕ := envelopeOverheadCertBytes + z.certs.authority + z.certs.enrolment

/-- The butterfly request under the enrolment certificate. -/
def provisioningRequest : ℕ :=
  envelopeOverheadCertBytes + z.certs.enrolment + 2 * ecPointCompressedBytes +
    2 * aes128KeyBytes + 2 * time32Bytes

/-- The acknowledgement with the repository's address. -/
def provisioningAck : ℕ :=
  envelopeOverheadDigestBytes + hashedId8Bytes + time32Bytes + z.params.repoUrlBytes

/-- A chain request. -/
def preLinkageRequest : ℕ :=
  envelopeOverheadDigestBytes + z.params.linkageChainIdentifierBytes + 3 * time32Bytes

/-- Sealed pre-linkage values. -/
def preLinkageResponse (n : ℕ) : ℕ :=
  wrap32 (envelopeOverheadDigestBytes + z.params.linkageChainIdentifierBytes +
    n * (linkageValueBytes + eciesP256EncryptedKeyBytes))

/-- Certificate requests of one period. -/
def certRequest (n : ℕ) : ℕ :=
  wrap32 (envelopeOverheadDigestBytes + n * (ecPointCompressedBytes +
    2 * (linkageValueBytes + eciesP256EncryptedKeyBytes) +
    2 * (z.params.linkageChainIdentifierBytes + eciesP256EncryptedKeyBytes) + sha256Bytes))

/-- Certificates with their sealed randomisers. -/
def certBatch (n : ℕ) : ℕ :=
  wrap32 (envelopeOverheadDigestBytes + n * (z.certs.pseudonym + eciesP256EncryptedKeyBytes))

/-- One batch in its container. -/
def batchDownload (n : ℕ) : ℕ :=
  wrap32 (z.params.batchContainerBytes + envelopeOverheadDigestBytes +
    n * (z.certs.pseudonym + eciesP256EncryptedKeyBytes))

/-- A batch request. -/
def batchDownloadRequest (_ : ScmsSizes) : ℕ := envelopeOverheadDigestBytes +
    hashedId8Bytes + time32Bytes

/-- A misbehaviour report. -/
def report : ℕ :=
  envelopeOverheadCertBytes + z.certs.pseudonym + z.params.reportPayloadBytes +
    eciesP256EncryptedKeyBytes

/-- A lookup by period and linkage value. -/
def pcaLookupRequest (_ : ScmsSizes) : ℕ := envelopeOverheadDigestBytes + time32Bytes +
    linkageValueBytes

/-- Two chain identifiers and a request hash. -/
def pcaLookupResponse : ℕ :=
  envelopeOverheadDigestBytes + 2 * z.params.linkageChainIdentifierBytes + sha256Bytes

/-- The question whether two chains belong to one device. -/
def sameDeviceRequest : ℕ :=
  envelopeOverheadDigestBytes + 2 * z.params.linkageChainIdentifierBytes

/-- The answer, one bit in an envelope. -/
def sameDeviceResponse (_ : ScmsSizes) : ℕ := envelopeOverheadDigestBytes + 1

/-- A request hash. -/
def blocklistRequest (_ : ScmsSizes) : ℕ := envelopeOverheadDigestBytes + sha256Bytes

/-- The chains of a request. -/
def blocklistResponse : ℕ :=
  envelopeOverheadDigestBytes + 2 * z.params.linkageChainIdentifierBytes

/-- A seed request. -/
def seedRequest : ℕ :=
  envelopeOverheadDigestBytes + z.params.linkageChainIdentifierBytes + time32Bytes

/-- The seed of a period. -/
def seedResponse (_ : ScmsSizes) : ℕ := envelopeOverheadDigestBytes + linkageSeedBytes +
    2 + time32Bytes

/-- One entry's worth of material. -/
def crlAppend (_ : ScmsSizes) : ℕ := envelopeOverheadDigestBytes + crlLinkageEntryBytes

/-- A signed revocation list. -/
def crl (entries : ℕ) : ℕ :=
  wrap32 (envelopeOverheadCertBytes + z.certs.authority + entries * crlLinkageEntryBytes)

/-- A fetch of the current list. -/
def crlRequest (_ : ScmsSizes) : ℕ := envelopeOverheadDigestBytes + time32Bytes

end ScmsSizes

/-! ## Parameters -/

/-- The parameters of a deployment, those the flows read. -/
structure ScmsParams where
  /-- The master seed of the random streams. -/
  masterSeed : ℕ
  epoch : SimTime
  /-- The window the Registration Authority shuffles certificate requests over. -/
  shuffleWindow : Duration
  /-- The window it shuffles reports over. -/
  reportShuffleWindow : Duration
  /-- How often revocation lists are issued. -/
  crlCadence : Duration
  /-- Whether a new entry waits for the next boundary of the cadence. -/
  publishOnCadence : Bool
  /-- How long after the acknowledgement a device first polls. -/
  firstBatchDelay : Duration
  /-- How long between polls of a repository that is not ready. -/
  downloadPollInterval : Duration
  /-- How many polls before a device gives up. -/
  maxDownloadPolls : ℕ
  backendServers : ℕ
  backendOverhead : Duration
  deviceOverhead : Duration
  backendLinkLatency : Duration
  backendLinkBandwidthBps : ℕ
  uuLinkLatency : Duration
  uuLinkBandwidthBps : ℕ
  v2xAirLatency : Duration
  v2xAirBandwidthBps : ℕ
  backendProfile : String
  deviceProfile : String
  sizes : SizeParams

/-! ## Nodes -/

/-- Which node hosts which role. -/
structure ScmsNodes where
  ra : NodeId
  pca : NodeId
  la1 : NodeId
  la2 : NodeId
  ma : NodeId
  crlg : NodeId
  lop : NodeId
  crlStore : NodeId
  crlBroadcast : NodeId
  eca : NodeId
  dcm : NodeId

namespace ScmsNodes

/-- The fixed nodes of the reference deployment. -/
def default : ScmsNodes where
  ra := 1
  pca := 2
  la1 := 3
  la2 := 4
  ma := 5
  crlg := 6
  lop := 7
  crlStore := 8
  crlBroadcast := 9
  eca := 10
  dcm := 11

/-- The node hosting one of the two Linkage Authorities. -/
def la (n : ScmsNodes) : LaIndex → NodeId
  | .one => n.la1
  | .two => n.la2

/-- Every backend node. -/
def all (n : ScmsNodes) : List NodeId :=
  [n.ra, n.pca, n.la1, n.la2, n.ma, n.crlg, n.lop, n.crlStore, n.crlBroadcast, n.eca, n.dcm]

/-- The links the reference deployment needs. -/
def backendLinks (n : ScmsNodes) : List (NodeId × NodeId) :=
  [(n.lop, n.ra), (n.ra, n.la1), (n.ra, n.la2), (n.ra, n.pca), (n.ra, n.ma), (n.ma, n.pca),
    (n.ma, n.la1), (n.ma, n.la2), (n.ma, n.crlg), (n.crlg, n.crlStore), (n.crlg, n.crlBroadcast),
    (n.dcm, n.eca), (n.eca, n.ra)]

/-- The service model each backend node runs. -/
def backendServiceModels (n : ScmsNodes) (p : ScmsParams) : List (NodeId × ServiceModelSpec) :=
  n.all.map fun node => (node, ⟨p.backendServers, p.backendOverhead⟩)

/-- The nodes a device's access link reaches. -/
def accessPeers (n : ScmsNodes) : List NodeId := [n.lop, n.ra, n.dcm, n.eca, n.crlStore]

end ScmsNodes

end V2xw.Scms
