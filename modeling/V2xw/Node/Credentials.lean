import Mathlib.Data.List.MinMax
import Mathlib.Data.List.Perm.Basic
import Mathlib.Data.List.Sort
import Mathlib.Data.Prod.Lex
import Mathlib.Order.OrderDual
import V2xw.Node.Stores

/-!
# A node's own credentials

The credential store of `crates/v2xw-node/src/stores.rs`, with the part of the CRL gate that names
the node's own certificates. The floating-point arithmetic on distances is a parameter.

## Main definitions

* `CredentialHandle`, `CertStore` — the credentials, the selected one first.
* `CertStore.sweep`, `CertStore.rotate` — expiry, revocation and the change of
  pseudonym.
* `CrlGate` — the node's own certificates that are revoked, by digest.

## Main results

* `CertStore.mem_sweep` — what a sweep makes of a credential.
* `CertStore.perm_rotate` — a change of pseudonym only reorders the credentials.
-/

namespace V2xw.Node

open Core
open Record (F64)

/-! ## Credentials -/

/-- Where a credential is in its lifecycle. -/
inductive CredState
  | active
  /-- Not yet inside its validity window. -/
  | preloaded
  | expired
  | revoked
  deriving DecidableEq, Repr

/-- One credential of a node: a certificate and the key it signs with. -/
structure CredentialHandle where
  digest : HashedId8
  certCoer : List UInt8
  key : ℕ
  iPeriod : ℕ
  jIndex : ℕ
  validFrom : SimTime
  validUntil : SimTime
  state : CredState
  deriving DecidableEq, Repr

namespace CredentialHandle

/-- Whether the credential is usable at `t`. -/
def isValidAt (c : CredentialHandle) (t : SimTime) : Bool :=
  c.state ≠ .revoked ∧ t ≥ c.validFrom ∧ t < c.validUntil

/-- The pseudonym a credential is for. -/
def pseudonym (c : CredentialHandle) : ℕ ×ₗ ℕ := toLex (c.iPeriod, c.jIndex)

/-- What the activations are counted by. -/
def activationKey (c : CredentialHandle) : ℕ ×ₗ ℕ ×ₗ ℕ :=
  toLex (c.iPeriod, toLex (c.jIndex, c.validFrom))

/-- The station identifier of a pseudonym: the first four bytes of the digest. -/
def stationId (c : CredentialHandle) : UInt32 := .ofNat (c.digest / 2 ^ 32)

end CredentialHandle

/-! ## Revocation of the node's own certificates -/

/-- The node's view of revocation, as far as its own certificates go. -/
structure CrlGate where
  /-- The digests of the node's own revoked certificates, in order. -/
  ownRevoked : List HashedId8 := []
  deriving DecidableEq, Repr

namespace CrlGate

/-- Marks one of the node's own certificates revoked. -/
def revokeOwn (g : CrlGate) (digest : HashedId8) : CrlGate :=
  if digest ∈ g.ownRevoked then g else ⟨(g.ownRevoked ++ [digest]).insertionSort (· ≤ ·)⟩

/-- Whether one of the node's own certificates is revoked: the list is kept in order, so the search
by bisection finds what is in it. -/
def revokesOwn (g : CrlGate) (digest : HashedId8) : Bool := digest ∈ g.ownRevoked

lemma revokesOwn_revokeOwn {g : CrlGate} {digest d : HashedId8} :
    (g.revokeOwn digest).revokesOwn d = true ↔ d = digest ∨ g.revokesOwn d = true := by
  unfold revokesOwn revokeOwn
  split_ifs with hmem
  · simp only [decide_eq_true_eq]
    exact ⟨.inr, fun h => h.elim (fun h => h ▸ hmem) id⟩
  · simp [or_comm]

end CrlGate

/-! ## The store -/

/-- Why a node changed pseudonym. -/
inductive ChangeReason
  | age | distance | expired | revoked | startup
  deriving DecidableEq, Repr

/-- The pseudonym-change rule. -/
structure RotationPolicy where
  minAge : Duration
  minDistanceM : F64
  /-- Whether both conditions must hold, or either. -/
  requireBoth : Bool
  deriving DecidableEq, Repr

/-- The arithmetic of distances. -/
structure Odometer where
  add : F64 → F64 → F64
  atLeast : F64 → F64 → Bool

/-- Whether a change is due. -/
def RotationPolicy.isDue (p : RotationPolicy) (O : Odometer) (age : Duration) (distance : F64) :
    Bool :=
  let oldEnough := decide (age.ns ≥ p.minAge.ns)
  let farEnough := O.atLeast distance p.minDistanceM
  if p.requireBoth then oldEnough && farEnough else oldEnough || farEnough

/-- The credentials of a node, the selected one first. -/
structure CertStore where
  creds : List CredentialHandle := []
  lastChange : Option SimTime := none
  distanceSinceChangeM : F64 := ⟨0⟩
  changes : ℕ := 0
  policy : Option RotationPolicy := none
  /-- How often each credential has been the selected one. -/
  activations : OrdMap (ℕ ×ₗ ℕ ×ₗ ℕ) ℕ := ∅
  lastReason : Option ChangeReason := none

namespace CertStore

/-- Adds a credential. -/
def insert (s : CertStore) (cred : CredentialHandle) : CertStore :=
  { s with creds := s.creds ++ [cred] }

/-- The credential a message signed now would use. -/
def active (s : CertStore) : Option CredentialHandle :=
  s.creds.head?.filter (·.state = .active)

/-- Adds distance travelled since the last change; only a finite positive one counts. -/
def travelled (s : CertStore) (O : Odometer) (metres : F64) : CertStore :=
  if 0 < metres.bits ∧ metres.bits < 0x7FF0000000000000 then
    { s with distanceSinceChangeM := O.add s.distanceSinceChangeM metres }
  else s

/-- The state of a credential at `now`, whatever it was before. -/
def sweptState (c : CredentialHandle) (now : SimTime) (crl : CrlGate) : CredState :=
  if crl.revokesOwn c.digest then .revoked
  else if now ≥ c.validUntil then .expired
  else if now < c.validFrom then .preloaded
  else .active

/-- Marks every credential whose window has closed, and every one the CRL revokes. -/
def sweep (s : CertStore) (now : SimTime) (crl : CrlGate) : ℕ × CertStore :=
  (s.creds.countP fun c => sweptState c now crl ≠ c.state,
    { s with creds := s.creds.map fun c => { c with state := sweptState c now crl } })

/-- Why a change is due, if it is. -/
def changeDue (s : CertStore) (O : Odometer) (now : SimTime) : Option ChangeReason :=
  match s.creds with
  | [] => some .startup
  | c :: _ =>
    if c.state = .revoked then some .revoked
    else if !c.isValidAt now then some .expired
    else
      match s.policy with
      | none => none
      | some policy =>
        let age : Duration := ⟨now - s.lastChange.getD 0⟩
        if policy.isDue O age s.distanceSinceChangeM then
          some (if age.ns ≥ policy.minAge.ns then .age else .distance)
        else none

/-- What decides between the credentials a node can move to: the least used one, of the newest
period, with the lowest index. -/
def pickKey (activations : OrdMap (ℕ ×ₗ ℕ ×ₗ ℕ) ℕ) (c : CredentialHandle) :
    ℕ ×ₗ ℕᵒᵈ ×ₗ ℕ ×ₗ ℕ :=
  toLex ((activations[c.activationKey]?).getD 0,
    toLex (OrderDual.toDual c.iPeriod, toLex (c.jIndex, c.validFrom)))

/-- The position of the credential to move to. -/
def pick (s : CertStore) (now : SimTime) : Option ℕ :=
  ((s.creds.zipIdx.filter fun x => x.2 ≠ 0 ∧ x.1.isValidAt now).argmin
    fun x => pickKey s.activations x.1).map (·.2)

/-- The store with the credentials at the front and at `i` exchanged. -/
def swapFront (creds : List CredentialHandle) (i : ℕ) : List CredentialHandle :=
  match creds.head?, creds[i]? with
  | some front, some chosen => (creds.set i front).set 0 chosen
  | _, _ => creds

/-- Moves to the next usable pseudonym if a change is due. -/
def rotate (s : CertStore) (O : Odometer) (now : SimTime) : Option ChangeReason × CertStore :=
  match s.changeDue O now with
  | none => (none, s)
  | some reason =>
    -- The credential being left counts as used once, however it became active.
    let activations := match s.creds.head? with
      | some current =>
        s.activations.insert current.activationKey
          (max ((s.activations[current.activationKey]?).getD 0) 1)
      | none => s.activations
    let s := { s with activations := activations }
    match s.pick now with
    | none => (some reason, s)
    | some i =>
      let creds := swapFront s.creds i
      let activations := match creds.head? with
        | some chosen =>
          s.activations.insert chosen.activationKey
            ((s.activations[chosen.activationKey]?).getD 0 + 1)
        | none => s.activations
      (some reason,
        { s with
          creds := creds
          activations := activations
          lastChange := some now
          distanceSinceChangeM := ⟨0⟩
          changes := satAdd32 s.changes 1
          lastReason := some reason })

/-! ## What the store does -/

variable (O : Odometer)

@[simp] lemma creds_travelled (s : CertStore) (metres : F64) :
    (s.travelled O metres).creds = s.creds := by
  unfold travelled
  split_ifs <;> rfl

lemma mem_sweep {s : CertStore} {now : SimTime} {crl : CrlGate} {c : CredentialHandle}
    (h : c ∈ (s.sweep now crl).2.creds) :
    ∃ c₀ ∈ s.creds, c = { c₀ with state := sweptState c₀ now crl } := by
  obtain ⟨c₀, hc₀, rfl⟩ := List.mem_map.1 h
  exact ⟨c₀, hc₀, rfl⟩

lemma sweptState_of_revoked {c : CredentialHandle} {now : SimTime} {crl : CrlGate}
    (h : crl.revokesOwn c.digest = true) : sweptState c now crl = .revoked := if_pos h

/-- An exchange only reorders. -/
lemma perm_swapFront (creds : List CredentialHandle) (i : ℕ) :
    (swapFront creds i).Perm creds := by
  unfold swapFront
  split
  next front chosen hfront hchosen =>
    obtain ⟨hi, rfl⟩ := List.getElem?_eq_some_iff.1 hchosen
    cases creds with
    | nil => cases hfront
    | cons c creds =>
      obtain rfl : c = front := Option.some.inj hfront
      cases i with
      | zero => simp
      | succ i =>
        have hi : i < creds.length := Nat.lt_of_succ_lt_succ hi
        simp only [List.set_cons_succ, List.set_cons_zero, List.getElem_cons_succ]
        have hset : (creds.set i c).Perm (c :: creds.eraseIdx i) :=
          List.set_perm_cons_eraseIdx hi c
        have herase : (creds[i] :: creds.eraseIdx i).Perm creds :=
          List.getElem_cons_eraseIdx_perm hi
        exact (hset.cons _).trans ((List.Perm.swap _ _ _).trans (herase.cons c))
  next => exact .refl _

/-- **A change of pseudonym only reorders the credentials.** -/
theorem perm_rotate (s : CertStore) (now : SimTime) :
    (s.rotate O now).2.creds.Perm s.creds := by
  unfold rotate
  split
  next => exact .refl _
  next reason _ =>
    dsimp only
    split
    · exact .refl _
    · exact perm_swapFront _ _

lemma mem_of_active {s : CertStore} {c : CredentialHandle} (h : s.active = some c) :
    c ∈ s.creds ∧ c.state = .active := by
  obtain ⟨hhead, hstate⟩ := Option.filter_eq_some_iff.1 h
  exact ⟨List.mem_of_mem_head? hhead, of_decide_eq_true hstate⟩

end CertStore

end V2xw.Node
