import Mathlib.Algebra.Order.BigOperators.Group.List
import Mathlib.Algebra.Order.Floor.Div
import Mathlib.Order.Bounds.Defs
import V2xw.Net.FragDelivery

/-!
# Splitting an SDU

The sending side of the three fragmenters of `crates/v2xw-net/src/frag`: how many descriptors an
SDU is split into, what each of them carries, and that the reassembly buffer puts the pieces back
together in whatever order they arrive.

## Main definitions

* `splitEqual` — as-equal-as-possible parts of a byte count.
* `GenericSduFragmenter.split`, `FacilitiesSegmentation.split`,
  `CertCyclePartialHybrid.split` — the three splits.
* `Divides` — what a split must be, for an SDU, a size, a limit and a count.
* `Carries`, `Rides` — the payload lists a scheme may send.

## Main results

* `split_sound` — every split is one, with the smallest count its scheme has, and the
  pieces of a split complete in a fresh buffer.

## Implementation notes

The byte counts of the source are `u32` and its fragment counts `u16`; they are naturals here, with
the conversion to `u16` and the saturating operations written out.
-/

namespace V2xw.Net

open V2xw.Core

/-- Splits `total` bytes into `n` as-equal-as-possible parts; the first `total % n` get one byte
more. -/
def splitEqual (total n : ℕ) : List ℕ :=
  if n = 0 then []
  else
    let base := total / n
    let extra := total % n
    (List.range n).map (fun i => if i < extra then base + 1 else base)

/-- A whole, unfragmented SDU. -/
def FragmentDesc.whole (sdu : SduId) (payloadBytes : ℕ) : FragmentDesc where
  sdu := sdu
  index := 0
  count := 1
  headerBytes := 0
  payloadBytes := payloadBytes
  kind := .whole

/-- Overhead plus payload: what the network layer below is asked to carry. -/
def FragmentDesc.totalBytes (f : FragmentDesc) : ℕ :=
  min (f.headerBytes + f.payloadBytes) (2 ^ 32 - 1)

/-- Why an SDU is not split: the causes of `DropCause` on the sending side. -/
inductive SplitError
  | mtu (sduBytes mtu : ℕ)
  | tooManyFragments (needed max : ℕ)
  | cycleTooShort (needed tau : ℕ)
  deriving DecidableEq, Repr

/-- The descriptors of some payloads, numbered from zero, which every split ends with. -/
def describe (sdu : SduId) (count headerBytes : ℕ) (kind : FragmentKind) (payloads : List ℕ) :
    List FragmentDesc :=
  payloads.mapIdx (fun i payload => ⟨sdu, i, count, headerBytes, payload, kind⟩)

/-! ## The three fragmenters -/

/-- The parameter of generic SDU fragmentation that a split reads. -/
structure GenericParams where
  /-- The per-fragment header, bytes. -/
  fragmentHeaderBytes : ℕ

namespace GenericSduFragmenter

/-- The largest fragment count the one-octet count field can express. -/
def maxFragments : ℕ := 255

/-- The SDU bytes one fragment carries at an MTU. -/
def effectiveMtu (p : GenericParams) (mtu : ℕ) : ℕ := mtu - p.fragmentHeaderBytes

/-- Splits an SDU; one that fits is passed through whole, without a header. -/
def split (p : GenericParams) (sdu : SduId) (sduBytes mtu : ℕ) :
    Except SplitError (List FragmentDesc) :=
  if sduBytes ≤ mtu then .ok [.whole sdu sduBytes]
  else
    let perFragment := effectiveMtu p mtu
    if perFragment = 0 then .error (.mtu sduBytes mtu)
    else
      let needed := sduBytes ⌈/⌉ perFragment
      if maxFragments < needed then .error (.tooManyFragments needed maxFragments)
      else
        .ok (describe sdu needed p.fragmentHeaderBytes .piece (splitEqual sduBytes needed))

end GenericSduFragmenter

/-- The parameters of facilities-layer segmentation that a split reads. -/
structure FacilitiesParams where
  /-- The size at which segmentation starts, bytes. -/
  segmentationThresholdBytes : ℕ
  /-- The containers every segment repeats, bytes. -/
  perSegmentOverheadBytes : ℕ

namespace FacilitiesSegmentation

/-- The size at which segmentation starts on a link: the smaller of the threshold and the MTU. -/
def effectiveThreshold (p : FacilitiesParams) (mtu : ℕ) : ℕ :=
  if p.segmentationThresholdBytes < mtu then p.segmentationThresholdBytes else mtu

/-- Segments an SDU; one below the threshold is an ordinary message. -/
def split (p : FacilitiesParams) (sdu : SduId) (sduBytes mtu : ℕ) :
    Except SplitError (List FragmentDesc) :=
  let threshold := effectiveThreshold p mtu
  if sduBytes ≤ threshold then .ok [.whole sdu sduBytes]
  else
    let perSegment := threshold - p.perSegmentOverheadBytes
    if perSegment = 0 then .error (.mtu sduBytes threshold)
    else
      let needed := sduBytes ⌈/⌉ perSegment
      -- the count is a `u16`
      if 2 ^ 16 ≤ needed then .error (.tooManyFragments needed (2 ^ 16 - 1))
      else
        .ok (describe sdu needed p.perSegmentOverheadBytes .segment (splitEqual sduBytes needed))

end FacilitiesSegmentation

/-- The parameters of the certificate cycle that a split reads. -/
structure CertCycleParams where
  /-- How many SPDUs one certificate cycle has. -/
  tauSpdus : ℕ
  /-- What a cycle frame costs before a certificate fragment is added, bytes. -/
  baseFrameBytes : ℕ

/-- The ranges the card declares, which a parameter set is resolved against. -/
structure CertCycleParams.Accepted (p : CertCycleParams) : Prop where
  tau : 1 ≤ p.tauSpdus ∧ p.tauSpdus ≤ 50
  base : p.baseFrameBytes ≤ 2304

namespace CertCyclePartialHybrid

/-- The certificate bytes one cycle frame has room for. -/
def fragmentBudget (p : CertCycleParams) (cap : ℕ) : ℕ := cap - p.baseFrameBytes

/-- How many fragments a credential is split into at a payload cap. -/
def alphaFor (p : CertCycleParams) (bytes cap : ℕ) : Except SplitError ℕ :=
  let budget := fragmentBudget p cap
  if budget = 0 then .error (.mtu bytes cap)
  else
    let needed := max (bytes ⌈/⌉ budget) 1
    -- a count that does not fit a `u16` saturates
    let alpha := min needed (2 ^ 16 - 1)
    if p.tauSpdus < alpha then .error (.cycleTooShort alpha p.tauSpdus) else .ok alpha

/-- Splits a credential over the first frames of a cycle. -/
def split (p : CertCycleParams) (sdu : SduId) (sduBytes mtu : ℕ) :
    Except SplitError (List FragmentDesc) := do
  let alpha ← alphaFor p sduBytes mtu
  return describe sdu alpha 0 .certFragment (splitEqual sduBytes alpha)

end CertCyclePartialHybrid

/-! ## Equal parts -/

@[simp]
lemma length_splitEqual (total n : ℕ) : (splitEqual total n).length = n := by
  rw [splitEqual]
  split_ifs with hn
  · exact hn.symm
  · simp

lemma mem_splitEqual {total n x : ℕ} (h : x ∈ splitEqual total n) :
    x = total / n ∨ x = total / n + 1 ∧ 0 < total % n := by
  rw [splitEqual] at h
  split_ifs at h with hn
  · simp at h
  · obtain ⟨i, -, rfl⟩ := List.mem_map.1 h
    split_ifs with hi
    · exact Or.inr ⟨rfl, by omega⟩
    · exact Or.inl rfl

lemma sum_map_range_add_one (base extra m : ℕ) :
    ((List.range m).map (fun i => if i < extra then base + 1 else base)).sum =
      m * base + min m extra := by
  induction m with
  | zero => simp
  | succ m ih =>
    rw [List.range_succ, List.map_append, List.sum_append, ih, Nat.succ_mul]
    simp only [List.map_cons, List.map_nil, List.sum_cons, List.sum_nil]
    split_ifs with hm
    · omega
    · omega

lemma sum_splitEqual (total : ℕ) {n : ℕ} (hn : 0 < n) : (splitEqual total n).sum = total := by
  have hlt := Nat.mod_lt total hn
  have hdiv := Nat.div_add_mod total n
  rw [splitEqual, if_neg hn.ne']
  dsimp only
  rw [sum_map_range_add_one, Nat.min_eq_right hlt.le, hdiv]

lemma le_add_one_of_mem_splitEqual {total n x y : ℕ} (hx : x ∈ splitEqual total n)
    (hy : y ∈ splitEqual total n) : x ≤ y + 1 := by
  have hx := mem_splitEqual hx
  have hy := mem_splitEqual hy
  omega

lemma le_of_mem_splitEqual {total n per x : ℕ} (h : total ≤ n * per)
    (hx : x ∈ splitEqual total n) : x ≤ per := by
  have hdiv := Nat.div_add_mod total n
  rcases mem_splitEqual hx with rfl | ⟨rfl, hmod⟩
  · exact Nat.div_le_of_le_mul h
  · -- with a remainder the quotient is below the bound
    refine Nat.lt_of_mul_lt_mul_left (a := n) ?_
    omega

lemma ceilDiv_le_length {per : ℕ} (hper : 0 < per) {ps : List ℕ} (h : ∀ p ∈ ps, p ≤ per) :
    ps.sum ⌈/⌉ per ≤ ps.length := by
  rw [ceilDiv_le_iff_le_mul hper, Nat.mul_comm]
  exact List.sum_le_card_nsmul ps per h

/-! ## What a split is -/

/-- Some descriptors divide an SDU of `bytes` bytes into `n`, none larger than `limit`. -/
structure Divides (sdu : SduId) (bytes limit n : ℕ) (parts : List FragmentDesc) : Prop where
  index : parts.map FragmentDesc.index = List.range n
  same : ∀ f ∈ parts, f.sdu = sdu ∧ f.count = n
  sum : (parts.map FragmentDesc.payloadBytes).sum = bytes
  even : ∀ f ∈ parts, ∀ g ∈ parts, f.payloadBytes ≤ g.payloadBytes + 1
  total : ∀ f ∈ parts, f.totalBytes ≤ limit

/-- The payloads carry `bytes` bytes within `limit`: alone without a header, or each with one. -/
def Carries (bytes limit header : ℕ) (ps : List ℕ) : Prop :=
  ps.sum = bytes ∧
    ((ps.length = 1 ∧ ∀ p ∈ ps, p ≤ limit) ∨ (2 ≤ ps.length ∧ ∀ p ∈ ps, header + p ≤ limit))

/-- The payloads carry `bytes` bytes beside the base of each cycle frame. -/
def Rides (bytes cap base : ℕ) (ps : List ℕ) : Prop :=
  ps.sum = bytes ∧ 1 ≤ ps.length ∧ ∀ p ∈ ps, base + p ≤ cap

@[simp]
lemma length_describe (sdu : SduId) (count header : ℕ) (kind : FragmentKind) (ps : List ℕ) :
    (describe sdu count header kind ps).length = ps.length := List.length_mapIdx

lemma map_index_describe (sdu : SduId) (count header : ℕ) (kind : FragmentKind) (ps : List ℕ) :
    (describe sdu count header kind ps).map FragmentDesc.index = List.range ps.length := by
  apply List.ext_getElem
  · simp
  · intro i hi hi'
    simp [describe]

lemma map_payload_describe (sdu : SduId) (count header : ℕ) (kind : FragmentKind)
    (ps : List ℕ) : (describe sdu count header kind ps).map FragmentDesc.payloadBytes = ps := by
  apply List.ext_getElem
  · simp
  · intro i hi hi'
    simp [describe]

lemma of_mem_describe {sdu : SduId} {count header : ℕ} {kind : FragmentKind} {ps : List ℕ}
    {f : FragmentDesc} (h : f ∈ describe sdu count header kind ps) :
    f.sdu = sdu ∧ f.count = count ∧ f.headerBytes = header ∧ f.payloadBytes ∈ ps := by
  obtain ⟨i, hi, rfl⟩ := List.mem_mapIdx.1 h
  exact ⟨rfl, rfl, rfl, List.getElem_mem hi⟩

/-- **Equal parts divide the SDU**, as long as a part and its header are within the limit. -/
lemma divides_describe (sdu : SduId) (kind : FragmentKind) {bytes header per limit n : ℕ}
    (hn : 0 < n) (hper : bytes ≤ n * per) (hlimit : header + per ≤ limit) :
    Divides sdu bytes limit n (describe sdu n header kind (splitEqual bytes n)) where
  index := by rw [map_index_describe, length_splitEqual]
  same f hf := by
    obtain ⟨hsdu, hcount, -, -⟩ := of_mem_describe hf
    exact ⟨hsdu, hcount⟩
  sum := by rw [map_payload_describe, sum_splitEqual bytes hn]
  even f hf g hg := by
    obtain ⟨-, -, -, hf⟩ := of_mem_describe hf
    obtain ⟨-, -, -, hg⟩ := of_mem_describe hg
    exact le_add_one_of_mem_splitEqual hf hg
  total f hf := by
    obtain ⟨-, -, hheader, hmem⟩ := of_mem_describe hf
    have hpart := le_of_mem_splitEqual hper hmem
    rw [FragmentDesc.totalBytes, hheader]
    omega

/-- An SDU within the limit divides into itself. -/
lemma divides_whole (sdu : SduId) {bytes limit : ℕ} (h : bytes ≤ limit) :
    Divides sdu bytes limit 1 [.whole sdu bytes] where
  index := rfl
  same f hf := by
    rw [List.mem_singleton.1 hf]
    exact ⟨rfl, rfl⟩
  sum := rfl
  even f hf g hg := by
    rw [List.mem_singleton.1 hf, List.mem_singleton.1 hg]
    exact Nat.le_succ _
  total f hf := by
    rw [List.mem_singleton.1 hf]
    refine (Nat.min_le_left _ _).trans ?_
    rwa [FragmentDesc.whole, Nat.zero_add]

/-! ### The smallest count -/

lemma isLeast_carries_one {bytes limit header : ℕ} (h : bytes ≤ limit) :
    IsLeast {n | ∃ ps, Carries bytes limit header ps ∧ ps.length = n} 1 := by
  refine ⟨⟨[bytes], ⟨List.sum_singleton, Or.inl ⟨rfl, ?_⟩⟩, rfl⟩, ?_⟩
  · intro p hp
    rwa [List.mem_singleton.1 hp]
  · rintro n ⟨ps, ⟨-, ⟨hlen, -⟩ | ⟨hlen, -⟩⟩, rfl⟩
    · exact hlen.ge
    · exact hlen.trans' (by decide)

/-- **A larger SDU** is carried by as many payloads as its size over what a fragment holds, rounded
up, and by no fewer. -/
lemma isLeast_carries {bytes limit header per : ℕ} (hper : header + per = limit) (hpos : 0 < per)
    (h : limit < bytes) :
    IsLeast {n | ∃ ps, Carries bytes limit header ps ∧ ps.length = n} (bytes ⌈/⌉ per) := by
  have hle : bytes ≤ bytes ⌈/⌉ per * per := by
    rw [Nat.mul_comm]
    exact (ceilDiv_le_iff_le_mul hpos).1 le_rfl
  have htwo : 2 ≤ bytes ⌈/⌉ per := by
    by_contra hlt
    have hone : bytes ⌈/⌉ per ≤ 1 := by omega
    have := (ceilDiv_le_iff_le_mul hpos).1 hone
    omega
  refine ⟨⟨splitEqual bytes (bytes ⌈/⌉ per), ⟨sum_splitEqual bytes (by omega), Or.inr ⟨?_, ?_⟩⟩,
    length_splitEqual _ _⟩, ?_⟩
  · rwa [length_splitEqual]
  · intro p hp
    have := le_of_mem_splitEqual hle hp
    omega
  · rintro n ⟨ps, ⟨hsum, ⟨hlen, hps⟩ | ⟨-, hps⟩⟩, rfl⟩
    · -- a single payload is over the limit
      obtain ⟨p, rfl⟩ := List.length_eq_one_iff.1 hlen
      have := hps p List.mem_cons_self
      rw [List.sum_singleton] at hsum
      omega
    · rw [← hsum]
      refine ceilDiv_le_length hpos fun p hp => ?_
      have := hps p hp
      omega

/-- **A credential** rides in as many frames as its size over the room of one, at least one, and in
no fewer. -/
lemma isLeast_rides {bytes cap base budget : ℕ} (hbudget : base + budget = cap)
    (hpos : 0 < budget) :
    IsLeast {n | ∃ ps, Rides bytes cap base ps ∧ ps.length = n} (max (bytes ⌈/⌉ budget) 1) := by
  have hle : bytes ≤ max (bytes ⌈/⌉ budget) 1 * budget := by
    rw [Nat.mul_comm]
    exact (ceilDiv_le_iff_le_mul hpos).1 (Nat.le_max_left _ _)
  have hone : 1 ≤ max (bytes ⌈/⌉ budget) 1 := Nat.le_max_right _ _
  refine ⟨⟨splitEqual bytes _, ⟨sum_splitEqual bytes hone, ?_, ?_⟩, length_splitEqual _ _⟩, ?_⟩
  · rwa [length_splitEqual]
  · intro p hp
    have := le_of_mem_splitEqual hle hp
    omega
  · rintro n ⟨ps, ⟨rfl, hlen, hps⟩, rfl⟩
    refine Nat.max_le.2 ⟨ceilDiv_le_length hpos fun p hp => ?_, hlen⟩
    have := hps p hp
    omega

/-! ### The three splits -/

/-- What a split by a header gives is the whole SDU or as many equal parts as needed. -/
lemma divides_of_carries (sdu : SduId) (kind : FragmentKind) {bytes limit header : ℕ}
    (hpos : limit - header ≠ 0) (h : limit < bytes) :
    Divides sdu bytes limit (bytes ⌈/⌉ (limit - header))
        (describe sdu (bytes ⌈/⌉ (limit - header)) header kind
          (splitEqual bytes (bytes ⌈/⌉ (limit - header)))) ∧
      IsLeast {n | ∃ ps, Carries bytes limit header ps ∧ ps.length = n}
        (bytes ⌈/⌉ (limit - header)) := by
  have hroom : 0 < limit - header := by omega
  have hle : bytes ≤ bytes ⌈/⌉ (limit - header) * (limit - header) := by
    rw [Nat.mul_comm]
    exact (ceilDiv_le_iff_le_mul hroom).1 le_rfl
  have hleast := @isLeast_carries bytes limit header _
    (by omega) hroom h
  refine ⟨divides_describe sdu kind ?_ hle (by omega), hleast⟩
  by_contra hzero
  have hzero : bytes ⌈/⌉ (limit - header) = 0 := by omega
  rw [hzero] at hle
  omega

/-- **Generic fragmentation** divides the SDU within the MTU, into the fewest fragments. -/
lemma GenericSduFragmenter.split_divides {p : GenericParams} {sdu : SduId} {bytes mtu : ℕ}
    {parts : List FragmentDesc} (h : GenericSduFragmenter.split p sdu bytes mtu = .ok parts) :
    ∃ n, n ≤ 255 ∧ Divides sdu bytes mtu n parts ∧
      IsLeast {m | ∃ ps, Carries bytes mtu p.fragmentHeaderBytes ps ∧ ps.length = m} n := by
  simp only [GenericSduFragmenter.split] at h
  split at h
  next hfits =>
    obtain rfl := Except.ok.inj h
    exact ⟨1, by decide, divides_whole sdu hfits, isLeast_carries_one hfits⟩
  next hfits =>
    split at h
    next => exact absurd h nofun
    next hroom =>
      split at h
      next => exact absurd h nofun
      next hmany =>
        obtain rfl := Except.ok.inj h
        obtain ⟨hdiv, hleast⟩ := divides_of_carries sdu .piece hroom (not_le.1 hfits)
        exact ⟨_, not_lt.1 hmany, hdiv, hleast⟩

/-- **Facilities segmentation** divides the SDU within the threshold, into the fewest segments. -/
lemma FacilitiesSegmentation.split_divides {p : FacilitiesParams} {sdu : SduId} {bytes mtu : ℕ}
    {parts : List FragmentDesc} (h : FacilitiesSegmentation.split p sdu bytes mtu = .ok parts) :
    ∃ n, Divides sdu bytes (effectiveThreshold p mtu) n parts ∧
      IsLeast {m | ∃ ps, Carries bytes (effectiveThreshold p mtu) p.perSegmentOverheadBytes ps ∧
        ps.length = m} n := by
  simp only [FacilitiesSegmentation.split] at h
  split at h
  next hfits =>
    obtain rfl := Except.ok.inj h
    exact ⟨1, divides_whole sdu hfits, isLeast_carries_one hfits⟩
  next hfits =>
    split at h
    next => exact absurd h nofun
    next hroom =>
      split at h
      next => exact absurd h nofun
      next =>
        obtain rfl := Except.ok.inj h
        exact ⟨_, divides_of_carries sdu .segment hroom (not_le.1 hfits)⟩

/-- Within a cycle of at most fifty frames the count does not saturate. -/
lemma CertCyclePartialHybrid.alphaFor_eq_ok {p : CertCycleParams} {bytes cap alpha : ℕ}
    (h : alphaFor p bytes cap = .ok alpha) (htau : p.tauSpdus ≤ 50) :
    0 < cap - p.baseFrameBytes ∧ alpha ≤ p.tauSpdus ∧
      alpha = max (bytes ⌈/⌉ (cap - p.baseFrameBytes)) 1 := by
  simp only [alphaFor] at h
  split at h
  next => exact absurd h nofun
  next hroom =>
    split at h
    next => exact absurd h nofun
    next hlong =>
      rw [fragmentBudget] at hroom hlong h
      have halpha := Except.ok.inj h
      refine ⟨by omega, by omega, ?_⟩
      generalize max (bytes ⌈/⌉ (cap - p.baseFrameBytes)) 1 = needed at *
      omega

/-- **A certificate cycle** divides the credential beside the base of its frames, into the fewest
fragments, and no more than the cycle has frames. -/
lemma CertCyclePartialHybrid.split_divides {p : CertCycleParams} (hp : p.Accepted) {sdu : SduId}
    {bytes mtu : ℕ} {parts : List FragmentDesc}
    (h : CertCyclePartialHybrid.split p sdu bytes mtu = .ok parts) :
    ∃ n, n ≤ 50 ∧ Divides sdu bytes mtu n parts ∧
      (∀ f ∈ parts, p.baseFrameBytes + f.totalBytes ≤ mtu) ∧
      IsLeast {m | ∃ ps, Rides bytes mtu p.baseFrameBytes ps ∧ ps.length = m} n := by
  have htau := hp.tau.2
  cases halpha : alphaFor p bytes mtu with
  | error e =>
    rw [CertCyclePartialHybrid.split, halpha] at h
    exact absurd h nofun
  | ok alpha =>
    rw [CertCyclePartialHybrid.split, halpha] at h
    obtain rfl := Except.ok.inj h
    obtain ⟨hpos, htau', rfl⟩ := alphaFor_eq_ok halpha htau
    have hle : bytes ≤ max (bytes ⌈/⌉ (mtu - p.baseFrameBytes)) 1 * (mtu - p.baseFrameBytes) := by
      rw [Nat.mul_comm]
      exact (ceilDiv_le_iff_le_mul hpos).1 (Nat.le_max_left _ _)
    have hone : 0 < max (bytes ⌈/⌉ (mtu - p.baseFrameBytes)) 1 :=
      Nat.lt_of_lt_of_le Nat.one_pos (Nat.le_max_right _ _)
    refine ⟨_, htau'.trans htau, divides_describe sdu .certFragment hone hle (by omega), ?_,
      isLeast_rides (by omega) hpos⟩
    intro f hf
    have := (@divides_describe sdu .certFragment _ 0 _ (mtu - p.baseFrameBytes) _
      hone hle (by omega)).total f hf
    omega

/-! ## Reassembly -/

lemma payloadSum_of_nodup {l : List FragmentDesc} (h : (l.map FragmentDesc.index).Nodup) :
    payloadSum l = (l.map FragmentDesc.payloadBytes).sum := by
  induction l using List.reverseRecOn with
  | nil => rfl
  | append_singleton l f ih =>
    rw [List.map_append, List.map_singleton, List.nodup_append] at h
    have hnew : f.index ∉ indices l := by
      intro hmem
      exact h.2.2 _ (List.mem_toFinset.1 hmem) _ List.mem_cons_self rfl
    rw [payloadSum_snoc, if_neg hnew, ih h.1, List.map_append, List.sum_append,
      List.map_singleton, List.sum_singleton]

/-- The calls that feed some timed fragments of one sender to a buffer. -/
def feed (sender : NodeId) (arrivals : List (SimTime × FragmentDesc)) : List Call :=
  arrivals.map (fun a => .accept a.1 sender a.2)

lemma feed_snoc (sender : NodeId) (arrivals : List (SimTime × FragmentDesc)) (t : SimTime)
    (f : FragmentDesc) :
    feed sender (arrivals ++ [(t, f)]) = feed sender arrivals ++ [.accept t sender f] := by
  rw [feed, List.map_append]
  rfl

section Reassembly

variable {sdu : SduId} {bytes limit n maxOpen : ℕ} {timeout : Duration}
  {parts : List FragmentDesc} {t₀ : SimTime} {f₀ : FragmentDesc}
  {rest : List (SimTime × FragmentDesc)}

lemma Divides.isSplit (h : Divides sdu bytes limit n parts) (h2 : 2 ≤ n) (h256 : n ≤ 256)
    {f : FragmentDesc} (hf : f ∈ parts) : ReassemblyBuffer.IsSplit f := by
  have hcount := (h.same f hf).2
  have hindex : f.index ∈ List.range n := h.index ▸ List.mem_map.2 ⟨f, hf, rfl⟩
  have hlt := List.mem_range.1 hindex
  exact ⟨by omega, by omega, by omega⟩

/-- The parts received so far, with one that comes next: what the buffer checks of it. -/
lemma Divides.next (h : Divides sdu bytes limit n parts) {l post : List FragmentDesc}
    {f : FragmentDesc} (hperm : (l ++ f :: post).Perm parts) :
    f ∈ parts ∧ f.index ∉ indices l ∧ (indices l).card = l.length ∧
      n = l.length + 1 + post.length ∧
      payloadSum (l ++ [f]) + (post.map FragmentDesc.payloadBytes).sum = bytes := by
  have hindex : ((l ++ f :: post).map FragmentDesc.index).Perm (List.range n) :=
    h.index ▸ hperm.map _
  have hnodup : ((l ++ f :: post).map FragmentDesc.index).Nodup :=
    hindex.nodup_iff.2 List.nodup_range
  have hsplit : l ++ f :: post = (l ++ [f]) ++ post := by simp
  have hsnoc : ((l ++ [f]).map FragmentDesc.index).Nodup := by
    rw [hsplit, List.map_append] at hnodup
    exact (List.nodup_append.1 hnodup).1
  have hl := hsnoc
  rw [List.map_append, List.map_singleton, List.nodup_append] at hl
  refine ⟨hperm.mem_iff.1 (by simp), ?_, ?_, ?_, ?_⟩
  · intro hmem
    exact hl.2.2 _ (List.mem_toFinset.1 hmem) _ List.mem_cons_self rfl
  · rw [indices, List.toFinset_card_of_nodup hl.1, List.length_map]
  · have hlen := hindex.length_eq
    simp only [List.length_map, List.length_append, List.length_cons, List.length_range] at hlen
    omega
  · rw [payloadSum_of_nodup hsnoc, ← List.sum_append, ← List.map_append, ← hsplit, ← h.sum]
    exact (hperm.map _).sum_eq

open ReassemblyBuffer in
/-- **While a part is missing** a fresh buffer holds exactly the parts that have arrived.

**Proof sketch.** Induction on the arrivals after the first: the next one is new and, another being
missing, is not the last. -/
lemma Divides.collecting (h : Divides sdu bytes limit n parts) (h2 : 2 ≤ n) (h256 : n ≤ 256)
    (hbytes : bytes < 2 ^ 32) (hmax : 1 ≤ maxOpen) (sender : NodeId)
    (hperm : (f₀ :: rest.map Prod.snd).Perm parts) (hwithin : ∀ a ∈ rest, a.1 < timeout.after t₀)
    (mid : List (SimTime × FragmentDesc)) :
    ∀ post, post ≠ [] → rest = mid ++ post →
      Collecting timeout (toLex (sender, sdu)) n t₀
        ((new maxOpen timeout).exec (feed sender ((t₀, f₀) :: mid)))
        (f₀ :: mid.map Prod.snd) := by
  induction mid using List.reverseRecOn with
  | nil =>
    intro post _ _
    have hf₀ : f₀ ∈ parts := hperm.mem_iff.1 List.mem_cons_self
    obtain ⟨hsdu, hcount⟩ := h.same f₀ hf₀
    have hkey : f₀.sdu = (ofLex (toLex (sender, sdu) : Key)).2 := hsdu
    have hnone : (((new maxOpen timeout).exec []).purge t₀).opened ≤ 0 :=
      Std.ExtTreeMap.size_filter_le_size.trans (by simp [new])
    have hfirst : frags (toLex (sender, sdu)) [] = [] := rfl
    exact (opens_of_first hfirst (h.isSplit h2 h256 hf₀) hcount hkey (hnone.trans_lt hmax)).2
  | append_singleton mid a ih =>
    intro post hpost hrest
    obtain ⟨t, f⟩ := a
    have hcol := ih ((t, f) :: post) (List.cons_ne_nil _ _) (by rw [hrest, List.append_assoc]; rfl)
    have hperm' : ((f₀ :: mid.map Prod.snd) ++ f :: post.map Prod.snd).Perm parts := by
      rw [hrest] at hperm
      simpa using hperm
    obtain ⟨hf, hnew, hcard, hn, hsum⟩ := h.next hperm'
    have hlen : 0 < (post.map Prod.snd).length := by
      rw [List.length_map]
      exact List.length_pos_iff.2 hpost
    have ht : t < timeout.after t₀ := hwithin (t, f) (by rw [hrest]; simp)
    obtain ⟨hsdu, hcount⟩ := h.same f hf
    have hstep := (hcol.arrival (h.isSplit h2 h256 hf) hcount ht hsdu (by omega)).1
      (Or.inr (by omega))
    rw [← List.cons_append, feed_snoc, List.map_append]
    exact hstep.2

open ReassemblyBuffer in
/-- **The parts of a split SDU complete** in a fresh buffer, in whatever order they arrive before
the first one's deadline, with the SDU's byte count. -/
lemma Divides.reassembles (h : Divides sdu bytes limit n parts) (h2 : 2 ≤ n) (h256 : n ≤ 256)
    (hbytes : bytes < 2 ^ 32) (hmax : 1 ≤ maxOpen) (sender : NodeId)
    (hperm : (f₀ :: rest.map Prod.snd).Perm parts)
    (hwithin : ∀ a ∈ rest, a.1 < timeout.after t₀) :
    ∃ mid t f, rest = mid ++ [(t, f)] ∧
      (new maxOpen timeout).answer (feed sender ((t₀, f₀) :: mid)) (.accept t sender f) =
        .outcome (.complete sdu bytes n) := by
  rcases List.eq_nil_or_concat rest with rfl | ⟨mid, ⟨t, f⟩, rfl⟩
  · have hlen := (hperm.map FragmentDesc.index).length_eq
    rw [h.index, List.length_range] at hlen
    simp at hlen
    omega
  · rw [List.concat_eq_append] at *
    have hcol := h.collecting h2 h256 hbytes hmax sender hperm hwithin mid [(t, f)]
      (List.cons_ne_nil _ _) rfl
    have hperm' : ((f₀ :: mid.map Prod.snd) ++ f :: []).Perm parts := by simpa using hperm
    obtain ⟨hf, hnew, hcard, hn, hsum⟩ := h.next hperm'
    obtain ⟨hsdu, hcount⟩ := h.same f hf
    have ht : t < timeout.after t₀ := hwithin (t, f) (by simp)
    rw [List.map_nil, List.sum_nil, Nat.add_zero] at hsum
    have hlast := (hcol.arrival (h.isSplit h2 h256 hf) hcount ht hsdu (by omega)).2 hnew
      (by rw [hcard]; exact hn.symm)
    refine ⟨mid, t, f, rfl, ?_⟩
    rw [hsum, hsdu] at hlast
    exact hlast.1

end Reassembly

lemma Divides.length_eq {sdu : SduId} {bytes limit n : ℕ} {parts : List FragmentDesc}
    (h : Divides sdu bytes limit n parts) : parts.length = n := by
  rw [← List.length_map (f := FragmentDesc.index), h.index, List.length_range]

/-- **Splits are sound.** Whenever a fragmenter splits an SDU, whatever its parameters, the parts
divide it within the MTU or the threshold, and there are as few of them as its scheme allows; for a
certificate cycle, whose count is a `u16`, this is for the parameters its card accepts, and a part
fits beside the base of its frame. And the parts of a generic or a certificate split, fed to a fresh
buffer in any order before the first one's deadline, complete with the SDU's byte count.

**Proof sketch.** A count is the size over what a part holds, rounded up, so equal parts fit and
fewer do not. It is at most 255 or fifty, below the cap of the buffer, and before the deadline the
buffer holds exactly what arrived, so that the last part to arrive completes the set. -/
theorem split_sound :
    (∀ (p : GenericParams) (sdu : SduId) (bytes mtu : ℕ) (parts : List FragmentDesc),
      GenericSduFragmenter.split p sdu bytes mtu = .ok parts →
        ∃ n, Divides sdu bytes mtu n parts ∧
          IsLeast {m | ∃ ps, Carries bytes mtu p.fragmentHeaderBytes ps ∧ ps.length = m} n) ∧
    (∀ (p : FacilitiesParams) (sdu : SduId) (bytes mtu : ℕ) (parts : List FragmentDesc),
      FacilitiesSegmentation.split p sdu bytes mtu = .ok parts →
        ∃ n, Divides sdu bytes (FacilitiesSegmentation.effectiveThreshold p mtu) n parts ∧
          IsLeast {m | ∃ ps, Carries bytes (FacilitiesSegmentation.effectiveThreshold p mtu)
            p.perSegmentOverheadBytes ps ∧ ps.length = m} n) ∧
    (∀ (p : CertCycleParams) (sdu : SduId) (bytes mtu : ℕ) (parts : List FragmentDesc),
      p.Accepted → CertCyclePartialHybrid.split p sdu bytes mtu = .ok parts →
        ∃ n, Divides sdu bytes mtu n parts ∧
          (∀ f ∈ parts, p.baseFrameBytes + f.totalBytes ≤ mtu) ∧
          IsLeast {m | ∃ ps, Rides bytes mtu p.baseFrameBytes ps ∧ ps.length = m} n) ∧
    (∀ (sdu : SduId) (bytes mtu : ℕ) (parts : List FragmentDesc), bytes < 2 ^ 32 →
      ((∃ p : GenericParams, GenericSduFragmenter.split p sdu bytes mtu = .ok parts) ∨
        (∃ p : CertCycleParams, p.Accepted ∧
          CertCyclePartialHybrid.split p sdu bytes mtu = .ok parts)) →
      2 ≤ parts.length → ∀ (maxOpen : ℕ) (timeout : Duration), 1 ≤ maxOpen →
      ∀ (sender : NodeId) (t₀ : SimTime) (f₀ : FragmentDesc)
        (rest : List (SimTime × FragmentDesc)), (f₀ :: rest.map Prod.snd).Perm parts →
        (∀ a ∈ rest, a.1 < timeout.after t₀) →
        ∃ mid t f, rest = mid ++ [(t, f)] ∧
          (ReassemblyBuffer.new maxOpen timeout).answer (feed sender ((t₀, f₀) :: mid))
              (.accept t sender f) =
            .outcome (.complete sdu bytes parts.length)) := by
  refine ⟨?_, ?_, ?_, ?_⟩
  · intro p sdu bytes mtu parts h
    obtain ⟨n, -, hsplit⟩ := GenericSduFragmenter.split_divides h
    exact ⟨n, hsplit⟩
  · intro p sdu bytes mtu parts h
    exact FacilitiesSegmentation.split_divides h
  · intro p sdu bytes mtu parts hp h
    obtain ⟨n, -, hsplit⟩ := CertCyclePartialHybrid.split_divides hp h
    exact ⟨n, hsplit⟩
  · intro sdu bytes mtu parts hbytes hsplit h2 maxOpen timeout hmax sender t₀ f₀ rest hperm hwithin
    obtain ⟨n, h256, hdiv⟩ : ∃ n, n ≤ 256 ∧ Divides sdu bytes mtu n parts := by
      rcases hsplit with ⟨p, h⟩ | ⟨p, hp, h⟩
      · obtain ⟨n, hn, hdiv, -⟩ := GenericSduFragmenter.split_divides h
        exact ⟨n, hn.trans (by decide), hdiv⟩
      · obtain ⟨n, hn, hdiv, -⟩ := CertCyclePartialHybrid.split_divides hp h
        exact ⟨n, hn.trans (by decide), hdiv⟩
    rw [hdiv.length_eq] at h2 ⊢
    exact hdiv.reassembles h2 h256 hbytes hmax sender hperm hwithin

/-- The three pieces of 4000 bytes over an MTU of 1398, the last one first. -/
theorem split_sound_pieces :
    ∃ parts, GenericSduFragmenter.split ⟨4⟩ 1 4000 1398 = .ok parts ∧
      parts.map FragmentDesc.payloadBytes = [1334, 1333, 1333] ∧
      ∃ mid t f, [(3, ⟨1, 0, 3, 4, 1334, .piece⟩), (5, ⟨1, 1, 3, 4, 1333, .piece⟩)] =
          mid ++ [(t, f)] ∧
        (ReassemblyBuffer.new 1 ⟨10⟩).answer
            (feed 7 ((0, ⟨1, 2, 3, 4, 1333, .piece⟩) :: mid)) (.accept t 7 f) =
          .outcome (.complete 1 4000 3) := by
  have hsplit : GenericSduFragmenter.split ⟨4⟩ 1 4000 1398 =
      .ok [⟨1, 0, 3, 4, 1334, .piece⟩, ⟨1, 1, 3, 4, 1333, .piece⟩, ⟨1, 2, 3, 4, 1333, .piece⟩] := by
    decide +kernel
  exact ⟨_, hsplit, rfl, split_sound.2.2.2 1 4000 1398 _ (by decide) (Or.inl ⟨⟨4⟩, hsplit⟩)
    (by decide) 1 ⟨10⟩ (by decide) 7 0 ⟨1, 2, 3, 4, 1333, .piece⟩
    [(3, ⟨1, 0, 3, 4, 1334, .piece⟩), (5, ⟨1, 1, 3, 4, 1333, .piece⟩)] (by decide) (by decide)⟩

end V2xw.Net
