import Mathlib.Logic.Function.Iterate
import V2xw.Sec.Butterfly

/-!
# Linkage values over bytes

`crates/v2xw-sec/src/linkage.rs` down to the bytes: the seed chains of two Linkage Authorities, the
linkage value of a certificate, and the revocation entry that recognises a device from a period on.
The issuing side walks each chain from the device's initial seed, the enforcing side from the seed
the entry publishes; the two agree because walking a chain in two parts is walking it at once.

## Main definitions

* `linkageSeedAt`, `preLinkageValue`, `linkageValue` — the formulas.
* `DeviceLinkageContext` — a device's two chains.
* `CrlLinkageEntry` — a revocation entry, and what it matches.

## Main results

* `linkageSeedAt_add` — walking a chain in two parts.
* `CrlLinkageEntry.seedsAt_fromDevice` — the seeds an entry reaches are the device's.
* `CrlLinkageEntry.revocation_exact` — what an entry matches.
* `CrlLinkageEntry.matchesCert_toScms` — the credential system's model matches the same
  certificates.
-/

namespace V2xw.Sec

open Scms (Bytes beBytes)

/-! ## The formulas -/

/-- A Linkage Authority's identifier. -/
structure LaId where
  id : UInt16
  deriving DecidableEq

/-- The two bytes that go into a hash or a block. -/
def LaId.toBeBytes (la : LaId) : Bytes := beBytes 2 la.id.toNat

/-- The seed of a period. -/
abbrev LinkageSeed := U8Array 16

/-- One authority's share of a linkage value. -/
abbrev PreLinkageValue := U8Array 9

/-- The linkage value of a certificate. -/
abbrev LinkageValue := U8Array 9

variable {P : Type} [AddCommGroup P] (prim : Primitives P)

/-- One step of a seed chain. -/
def linkageSeedNext (la : LaId) (lsPrev : LinkageSeed) : LinkageSeed :=
  ⟨(prim.sha256 (la.toBeBytes ++ lsPrev.1 ++ List.replicate 14 0)).1.take 16, by
    rw [List.length_take, (prim.sha256 _).2]
    rfl⟩

/-- A seed hashed forward `i` times. -/
def linkageSeedAt (la : LaId) (ls0 : LinkageSeed) (i : UInt32) : LinkageSeed :=
  (linkageSeedNext prim la)^[i.toNat] ls0

/-- The block `la_id ‖ j ‖ 0`. -/
def linkageBlock (la : LaId) (j : UInt32) : U8Array 16 :=
  ⟨la.toBeBytes ++ beBytes 4 j.toNat ++ List.replicate 10 0, by simp [LaId.toBeBytes]⟩

/-- One authority's share for index `j` of the period of a seed. -/
def preLinkageValue (la : LaId) (ls : LinkageSeed) (j : UInt32) : PreLinkageValue :=
  ⟨(daviesMeyer prim ls (linkageBlock la j)).1.take 9, by
    rw [List.length_take, (daviesMeyer prim ls _).2]
    rfl⟩

/-- The two shares together. -/
def linkageValue (plv1 plv2 : PreLinkageValue) : LinkageValue :=
  ⟨plv1.1.zipWith (· ^^^ ·) plv2.1, by rw [List.length_zipWith, plv1.2, plv2.2, Nat.min_self]⟩

/-- **Walking a chain** to period `k` is walking it to a period before and going on from there. -/
theorem linkageSeedAt_add (la : LaId) (ls0 : LinkageSeed) {i d k : UInt32}
    (h : i.toNat + d.toNat = k.toNat) :
    linkageSeedAt prim la (linkageSeedAt prim la ls0 i) d = linkageSeedAt prim la ls0 k := by
  unfold linkageSeedAt
  rw [← Function.iterate_add_apply, Nat.add_comm, h]

/-! ## Devices -/

/-- One device's linkage material, both authorities' halves together. -/
structure DeviceLinkageContext where
  laId1 : LaId
  laId2 : LaId
  /-- The first authority's initial seed. -/
  ls1 : LinkageSeed
  /-- The second authority's initial seed. -/
  ls2 : LinkageSeed

/-- The linkage value of the device's certificate for period `i` and index `j`. -/
def DeviceLinkageContext.linkageValueFor (ctx : DeviceLinkageContext) (i j : UInt32) :
    LinkageValue :=
  linkageValue (preLinkageValue prim ctx.laId1 (linkageSeedAt prim ctx.laId1 ctx.ls1 i) j)
    (preLinkageValue prim ctx.laId2 (linkageSeedAt prim ctx.laId2 ctx.ls2 i) j)

/-! ## Revocation entries -/

/-- An entry that revokes one device from a period on. -/
structure CrlLinkageEntry where
  i : UInt32
  laId1 : LaId
  laId2 : LaId
  /-- The first authority's seed at period `i`. -/
  ls1 : LinkageSeed
  /-- The second authority's seed at period `i`. -/
  ls2 : LinkageSeed
  jmax : UInt32
  /-- How many periods past `i` the chains are walked. -/
  maxForward : UInt32

/-- How far forward an entry walks its chains. -/
def defaultMaxForwardPeriods : UInt32 := 156

namespace CrlLinkageEntry

/-- The entry that revokes a device from period `i` on. -/
def fromDevice (ctx : DeviceLinkageContext) (i jmax : UInt32) : CrlLinkageEntry where
  i := i
  laId1 := ctx.laId1
  laId2 := ctx.laId2
  ls1 := linkageSeedAt prim ctx.laId1 ctx.ls1 i
  ls2 := linkageSeedAt prim ctx.laId2 ctx.ls2 i
  jmax := jmax
  maxForward := defaultMaxForwardPeriods

/-- The same entry with another forward bound. -/
def withMaxForward (e : CrlLinkageEntry) (maxForward : UInt32) : CrlLinkageEntry :=
  { e with maxForward := maxForward }

/-- The device's seeds in a period, if the entry reaches it. -/
def seedsAt (e : CrlLinkageEntry) (certI : UInt32) : Option (LinkageSeed × LinkageSeed) :=
  if certI < e.i then none
  else if certI - e.i > e.maxForward then none
  else some (linkageSeedAt prim e.laId1 e.ls1 (certI - e.i),
    linkageSeedAt prim e.laId2 e.ls2 (certI - e.i))

/-- Whether some index of a period carries a linkage value. -/
def matchesAnyIndex (e : CrlLinkageEntry) (certI : UInt32) (certLv : LinkageValue) : Bool :=
  match e.seedsAt prim certI with
  | none => false
  | some (ls1, ls2) => (List.range e.jmax.toNat).any fun j =>
    linkageValue (preLinkageValue prim e.laId1 ls1 (UInt32.ofNat j))
      (preLinkageValue prim e.laId2 ls2 (UInt32.ofNat j)) == certLv

/-- Whether a certificate is revoked by the entry. -/
def matchesCert (e : CrlLinkageEntry) (certI certJ : UInt32) (certLv : LinkageValue) : Bool :=
  if certJ ≥ e.jmax then false
  else
    match e.seedsAt prim certI with
    | none => false
    | some (ls1, ls2) =>
      linkageValue (preLinkageValue prim e.laId1 ls1 certJ) (preLinkageValue prim e.laId2 ls2 certJ)
        == certLv

/-! ## What an entry matches -/

private lemma toNat_sub_add {i k : UInt32} (h : i ≤ k) :
    i.toNat + (k - i).toNat = k.toNat := by
  rw [UInt32.toNat_sub_of_le _ _ h]
  exact Nat.add_sub_of_le (UInt32.le_iff_toNat_le.1 h)

/-- **The seeds an entry reaches** are those of the device, from the revocation period on and as
far as the entry walks. -/
theorem seedsAt_fromDevice (ctx : DeviceLinkageContext) (i jmax maxForward k : UInt32) :
    ((fromDevice prim ctx i jmax).withMaxForward maxForward).seedsAt prim k =
      if i ≤ k ∧ k.toNat ≤ i.toNat + maxForward.toNat then
        some (linkageSeedAt prim ctx.laId1 ctx.ls1 k, linkageSeedAt prim ctx.laId2 ctx.ls2 k)
      else none := by
  unfold seedsAt withMaxForward fromDevice
  dsimp only
  by_cases hlt : k < i
  · rw [if_pos hlt, if_neg fun h => absurd h.1 (UInt32.not_le.2 hlt)]
  · have hle : i ≤ k := UInt32.not_lt.1 hlt
    have hsum := toNat_sub_add hle
    have hfar : k - i > maxForward ↔ ¬ k.toNat ≤ i.toNat + maxForward.toNat := by
      rw [gt_iff_lt, UInt32.lt_iff_toNat_lt]
      omega
    rw [if_neg hlt, linkageSeedAt_add prim _ _ hsum, linkageSeedAt_add prim _ _ hsum]
    by_cases hreach : k.toNat ≤ i.toNat + maxForward.toNat
    · rw [if_neg fun h => hfar.1 h hreach, if_pos ⟨hle, hreach⟩]
    · rw [if_pos (hfar.2 hreach), if_neg fun h => hreach h.2]

/-- A certificate is matched by the entry of the device whose linkage value it has. -/
lemma matchesCert_fromDevice (ctx : DeviceLinkageContext) (i jmax maxForward k j : UInt32)
    (lv : LinkageValue) :
    ((fromDevice prim ctx i jmax).withMaxForward maxForward).matchesCert prim k j lv = true ↔
      i ≤ k ∧ k.toNat ≤ i.toNat + maxForward.toNat ∧ j < jmax ∧
        lv = ctx.linkageValueFor prim k j := by
  unfold matchesCert
  rw [seedsAt_fromDevice]
  have hjmax : ((fromDevice prim ctx i jmax).withMaxForward maxForward).jmax = jmax := rfl
  rw [hjmax]
  by_cases hj : j ≥ jmax
  · rw [if_pos hj]
    exact iff_of_false Bool.false_ne_true fun h => absurd h.2.2.1 (UInt32.not_lt.2 hj)
  · rw [if_neg hj]
    by_cases hreach : i ≤ k ∧ k.toNat ≤ i.toNat + maxForward.toNat
    · rw [if_pos hreach]
      constructor
      · intro h
        exact ⟨hreach.1, hreach.2, UInt32.not_le.1 hj, (eq_of_beq h).symm⟩
      · rintro ⟨-, -, -, rfl⟩
        exact beq_self_eq_true _
    · rw [if_neg hreach]
      exact iff_of_false Bool.false_ne_true fun h => hreach ⟨h.1, h.2.1⟩

/-- Searching the indices finds a match where one of them matches. -/
lemma matchesAnyIndex_iff (e : CrlLinkageEntry) (k : UInt32) (lv : LinkageValue) :
    e.matchesAnyIndex prim k lv = true ↔ ∃ j < e.jmax, e.matchesCert prim k j lv = true := by
  unfold matchesAnyIndex matchesCert
  cases e.seedsAt prim k with
  | none =>
    refine iff_of_false Bool.false_ne_true ?_
    rintro ⟨j, hj, h⟩
    rw [if_neg (UInt32.not_le.2 hj)] at h
    cases h
  | some seeds =>
    dsimp only
    rw [List.any_eq_true]
    constructor
    · rintro ⟨n, hn, h⟩
      have hlt : n < e.jmax.toNat := List.mem_range.1 hn
      have htoNat : (UInt32.ofNat n).toNat = n :=
        UInt32.toNat_ofNat_of_lt' (hlt.trans e.jmax.toNat_lt)
      have hj : UInt32.ofNat n < e.jmax := by
        rw [UInt32.lt_iff_toNat_lt, htoNat]
        exact hlt
      exact ⟨UInt32.ofNat n, hj, by rwa [if_neg (UInt32.not_le.2 hj)]⟩
    · rintro ⟨j, hj, h⟩
      rw [if_neg (UInt32.not_le.2 hj)] at h
      refine ⟨j.toNat, List.mem_range.2 (UInt32.lt_iff_toNat_lt.1 hj), ?_⟩
      rw [UInt32.ofNat_toNat]
      exact h

/-- **Revocation is exact and forward-only.** The entry of a device matches the certificates that
have the device's linkage value for a period from the revocation on, as far as the entry walks, and
an index below its bound; the search over the indices finds what one of them matches. Chains
compose, so that the seeds of the entry give the device's shares in every period it covers. -/
theorem revocation_exact (ctx : DeviceLinkageContext) (i jmax maxForward : UInt32) :
    (∀ k j lv,
      ((fromDevice prim ctx i jmax).withMaxForward maxForward).matchesCert prim k j lv = true ↔
        i ≤ k ∧ k.toNat ≤ i.toNat + maxForward.toNat ∧ j < jmax ∧
          lv = ctx.linkageValueFor prim k j) ∧
    (∀ k lv,
      ((fromDevice prim ctx i jmax).withMaxForward maxForward).matchesAnyIndex prim k lv = true ↔
        ∃ j < jmax,
          ((fromDevice prim ctx i jmax).withMaxForward maxForward).matchesCert prim k j lv = true) ∧
    (fromDevice prim ctx i jmax).withMaxForward defaultMaxForwardPeriods =
      fromDevice prim ctx i jmax ∧
    (∀ la ls (a b c : UInt32), a.toNat + b.toNat = c.toNat →
      linkageSeedAt prim la (linkageSeedAt prim la ls a) b = linkageSeedAt prim la ls c) ∧
    ∀ k, i ≤ k → k.toNat ≤ i.toNat + maxForward.toNat → ∃ ls1 ls2,
      ((fromDevice prim ctx i jmax).withMaxForward maxForward).seedsAt prim k = some (ls1, ls2) ∧
      ∀ j, preLinkageValue prim ctx.laId1 ls1 j =
          preLinkageValue prim ctx.laId1 (linkageSeedAt prim ctx.laId1 ctx.ls1 k) j ∧
        preLinkageValue prim ctx.laId2 ls2 j =
          preLinkageValue prim ctx.laId2 (linkageSeedAt prim ctx.laId2 ctx.ls2 k) j := by
  refine ⟨matchesCert_fromDevice prim ctx i jmax maxForward, fun k lv => ?_, rfl,
    fun la ls a b c h => linkageSeedAt_add prim la ls h, fun k hle hfar => ?_⟩
  · exact matchesAnyIndex_iff prim _ k lv
  · exact ⟨_, _, (seedsAt_fromDevice prim ctx i jmax maxForward k).trans (if_pos ⟨hle, hfar⟩),
      fun j => ⟨rfl, rfl⟩⟩

end CrlLinkageEntry

/-! ## The credential system's entries -/

section Crypto

variable (compressed : P → Option Bytes) (keystream : ℕ → Scms.NodeId → ℕ → UInt8)

lemma linkageSeedAt_toScms (la : LaId) (ls0 : LinkageSeed) (i : UInt32) :
    Scms.linkageSeedAt (prim.crypto compressed keystream) la.id.toNat ls0.1 i.toNat =
      (linkageSeedAt prim la ls0 i).1 := by
  unfold linkageSeedAt
  induction i.toNat with
  | zero => rfl
  | succ n ih =>
    rw [Scms.linkageSeedAt, ih, Function.iterate_succ_apply']
    rfl

lemma preLinkageValue_toScms (la : LaId) (ls : LinkageSeed) (j : UInt32) :
    Scms.preLinkageValue (prim.crypto compressed keystream) la.id.toNat ls.1 j.toNat =
      (preLinkageValue prim la ls j).1 := by
  show (daviesMeyer prim (arrayOf 16 ls.1) (arrayOf 16 (linkageBlock la j).1)).1.take 9 = _
  rw [arrayOf_val, arrayOf_val]
  rfl

/-- An entry as the credential system holds it. -/
def CrlLinkageEntry.toScms (e : CrlLinkageEntry) : Scms.CrlLinkageEntry where
  i := e.i.toNat
  laId1 := e.laId1.id.toNat
  laId2 := e.laId2.id.toNat
  ls1 := e.ls1.1
  ls2 := e.ls2.1
  jmax := e.jmax.toNat
  maxForward := e.maxForward.toNat

/-- The credential system reaches the seeds reached here. -/
lemma CrlLinkageEntry.seedsAt_toScms (e : CrlLinkageEntry) (k : UInt32) :
    e.toScms.seedsAt (prim.crypto compressed keystream) k.toNat =
      (e.seedsAt prim k).map fun seeds => (seeds.1.1, seeds.2.1) := by
  unfold Scms.CrlLinkageEntry.seedsAt seedsAt toScms
  dsimp only
  by_cases hlt : k < e.i
  · rw [if_pos hlt, if_pos (UInt32.lt_iff_toNat_lt.1 hlt)]
    rfl
  · have hsub : k.toNat - e.i.toNat = (k - e.i).toNat :=
      (UInt32.toNat_sub_of_le _ _ (UInt32.not_lt.1 hlt)).symm
    rw [if_neg hlt, if_neg fun h => hlt (UInt32.lt_iff_toNat_lt.2 h), hsub]
    by_cases hfar : k - e.i > e.maxForward
    · rw [if_pos hfar, if_pos (UInt32.lt_iff_toNat_lt.1 hfar)]
      rfl
    · rw [if_neg hfar, if_neg fun h => hfar (UInt32.lt_iff_toNat_lt.2 h),
        linkageSeedAt_toScms, linkageSeedAt_toScms]
      rfl

/-- **The credential system matches the certificates matched here.** -/
theorem CrlLinkageEntry.matchesCert_toScms (e : CrlLinkageEntry) (k j : UInt32)
    (lv : LinkageValue) :
    e.toScms.matchesCert (prim.crypto compressed keystream) k.toNat j.toNat lv.1 =
      e.matchesCert prim k j lv := by
  unfold Scms.CrlLinkageEntry.matchesCert matchesCert
  rw [seedsAt_toScms]
  have hjmax : e.toScms.jmax ≤ j.toNat ↔ j ≥ e.jmax := UInt32.le_iff_toNat_le.symm
  simp only [hjmax]
  by_cases hj : j ≥ e.jmax
  · rw [if_pos hj, if_pos hj]
  · rw [if_neg hj, if_neg hj]
    cases e.seedsAt prim k with
    | none => rfl
    | some seeds =>
      show decide (Scms.linkageValue (Scms.preLinkageValue _ e.laId1.id.toNat seeds.1.1 j.toNat)
        (Scms.preLinkageValue _ e.laId2.id.toNat seeds.2.1 j.toNat) = lv.1) = _
      rw [preLinkageValue_toScms, preLinkageValue_toScms]
      dsimp only
      rw [beq_eq_decide]
      exact decide_eq_decide.2 ⟨fun h => Subtype.ext h, congrArg Subtype.val⟩

end Crypto

end V2xw.Sec
