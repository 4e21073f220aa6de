import V2xw.Lib.Mealy
import V2xw.Lib.Recency
import V2xw.Node.Stores

/-!
# The peer certificate cache

What a node knows of its peers' certificates: the cache of `crates/v2xw-sec/src/envelope.rs`, which
holds them, and that of `crates/v2xw-node/src/stores.rs` around it, which has a capacity and an
order of eviction. An eviction takes a digest from the list and leaves its certificate. A
certificate is a parameter, with its digest where it has an encoding.

## Main definitions

* `PeerCertCache` — the certificates, by digest.
* `PeerCertCache` — the digests in the order of their last uses, around it.
* `PeerCertCache.uses` — the digests a history uses.
* `PeerCertCache.Spares` — a call that leaves no certificate behind.

## Main results

* `PeerCertCache.lru_after` — the list is that of the most recent uses.
* `PeerCertCache.bounded_iff` — the list is bounded and evicts the least recently used
  digest; the certificates are bounded exactly as long as every call spares them.
* `PeerCertCache.certificate_outlives` — a certificate that outlives its digest.
-/

namespace V2xw.Sec

open Node (HashedId8)

variable {Cert : Type}

/-- A certificate held in the peer cache, with whether its own signature has been checked. -/
structure CachedCert (Cert : Type) where
  certificate : Cert
  verified : Bool

/-- What a node knows about its neighbours' certificates. -/
structure PeerCertCache (Cert : Type) where
  certs : OrdMap HashedId8 (CachedCert Cert) := ∅

namespace PeerCertCache

/-- Inserts a certificate, with its digest, or fails where it has none. -/
def insert (c : PeerCertCache Cert) (certificateDigest : Cert → Option HashedId8)
    (certificate : Cert) (verified : Bool) : Option HashedId8 × PeerCertCache Cert :=
  match certificateDigest certificate with
  | none => (none, c)
  | some digest => (some digest, ⟨c.certs.insert digest ⟨certificate, verified⟩⟩)

/-- The entry for a digest. -/
def get (c : PeerCertCache Cert) (digest : HashedId8) : Option (CachedCert Cert) := c.certs[digest]?

/-- How many certificates are cached. -/
def len (c : PeerCertCache Cert) : ℕ := c.certs.size

end PeerCertCache

end V2xw.Sec

namespace V2xw.Node

open Core

variable {Cert : Type}

/-- The peer certificate cache with a capacity and a least-recently-used eviction order. -/
structure PeerCertCache (Cert : Type) where
  inner : Sec.PeerCertCache Cert := {}
  capacity : ℕ
  /-- Digests in least-recently-used order. -/
  lru : List HashedId8 := []
  evictions : ℕ := 0

namespace PeerCertCache

/-- A cache holding at most `capacity` certificates. -/
def new (capacity : ℕ) : PeerCertCache Cert := { capacity := capacity }

/-- How many certificates are held. -/
def len (c : PeerCertCache Cert) : ℕ := c.lru.length

/-- Whether this certificate is already known. -/
def contains (c : PeerCertCache Cert) (digest : HashedId8) : Bool := digest ∈ c.lru

/-- Notes that `digest` is the newest entry and evicts the oldest if the cache is over capacity. -/
def noteInsert (c : PeerCertCache Cert) (digest : HashedId8) :
    Option HashedId8 × PeerCertCache Cert :=
  let lru := c.lru.filter (· ≠ digest) ++ [digest]
  if lru.length > c.capacity then
    (lru.head?, { c with lru := lru.tail, evictions := satAdd32 c.evictions 1 })
  else (none, { c with lru := lru })

/-- Learns a certificate that arrived attached to a message. -/
def learn (c : PeerCertCache Cert) (digest : HashedId8) : Option HashedId8 × PeerCertCache Cert :=
  c.noteInsert digest

/-- Learns a real certificate that arrived attached to a message. -/
def learnCertificate (c : PeerCertCache Cert) (certificateDigest : Cert → Option HashedId8)
    (certificate : Cert) : Option HashedId8 × PeerCertCache Cert :=
  match c.inner.insert certificateDigest certificate false with
  | (none, inner) => (none, { c with inner := inner })
  | (some digest, inner) => { c with inner := inner }.noteInsert digest

/-- The certificate held for `digest`, if this cache holds one. -/
def certificate (c : PeerCertCache Cert) (digest : HashedId8) : Option Cert :=
  (c.inner.get digest).map (·.certificate)

/-- Looks a certificate up, refreshing its recency. -/
def touch (c : PeerCertCache Cert) (digest : HashedId8) : Bool × PeerCertCache Cert :=
  if digest ∈ c.lru then (true, { c with lru := c.lru.filter (· ≠ digest) ++ [digest] })
  else (false, c)

end PeerCertCache

/-! ## Histories -/

/-- A call of the cache. -/
inductive PeerCall (Cert : Type)
  | learn (digest : HashedId8)
  | learnCertificate (certificate : Cert)
  | touch (digest : HashedId8)
  | noteInsert (digest : HashedId8)
  deriving DecidableEq, Repr

/-- What a call returns. -/
inductive PeerReply
  | evicted (digest : Option HashedId8)
  /-- Whether a lookup found its certificate. -/
  | hit (found : Bool)
  deriving DecidableEq, Repr

/-- The digest a call evicted. -/
def PeerReply.evicted? : PeerReply → Option HashedId8
  | .evicted digest => digest
  | .hit _ => none

namespace PeerCertCache

variable (certificateDigest : Cert → Option HashedId8)

/-- A call of the cache. -/
def call (c : PeerCertCache Cert) : PeerCall Cert → PeerReply × PeerCertCache Cert
  | .learn digest => (c.learn digest).map .evicted id
  | .learnCertificate certificate =>
    (c.learnCertificate certificateDigest certificate).map .evicted id
  | .touch digest => (c.touch digest).map .hit id
  | .noteInsert digest => (c.noteInsert digest).map .evicted id

/-- The cache of a given capacity after a history of calls. -/
def after (capacity : ℕ) (calls : List (PeerCall Cert)) : PeerCertCache Cert :=
  Mealy.run (call certificateDigest) (new capacity) calls

/-- The digest a call uses. A lookup that misses uses none. -/
def used : PeerCall Cert → PeerReply → Option HashedId8
  | .learn digest, _ | .noteInsert digest, _ => some digest
  | .learnCertificate certificate, _ => certificateDigest certificate
  | .touch digest, reply => if reply = .hit true then some digest else none

/-- The digests a history uses, the last one last. -/
def uses (capacity : ℕ) (calls : List (PeerCall Cert)) : List HashedId8 :=
  Mealy.log (call certificateDigest)
    (fun l call reply => l ++ (used certificateDigest call reply).toList) (new capacity) [] calls

/-- The digest a call brings into the cache, with its certificate if there is one. -/
def brings : PeerCall Cert → Option (HashedId8 × Option Cert)
  | .learn digest | .noteInsert digest => some (digest, none)
  | .learnCertificate certificate =>
    (certificateDigest certificate).map fun digest => (digest, some certificate)
  | .touch _ => none

/-- A call that leaves no certificate behind: the digest it brings in is listed, or there is room,
or the oldest one has no certificate. Where there is no capacity, the oldest is the digest
itself. -/
def Spares (c : PeerCertCache Cert) (i : PeerCall Cert) : Prop :=
  ∀ digest certificate, brings certificateDigest i = some (digest, certificate) →
    digest ∈ c.lru ∨ c.len < c.capacity ∨
      c.certificate (c.lru.headD digest) = none ∧ (c.lru = [] → certificate = none)

/-! ## One call -/

/-- The certificates with the one that comes with a digest, if one does. -/
def holding (c : PeerCertCache Cert) (digest : HashedId8) (certificate : Option Cert) :
    PeerCertCache Cert :=
  match certificate with
  | none => c
  | some certificate => { c with inner := ⟨c.inner.certs.insert digest ⟨certificate, false⟩⟩ }

variable {certificateDigest} {c : PeerCertCache Cert} {i : PeerCall Cert} {digest : HashedId8}
  {certificate : Option Cert}

@[simp]
lemma lru_holding : (c.holding digest certificate).lru = c.lru := by
  cases certificate <;> rfl

@[simp]
lemma capacity_holding : (c.holding digest certificate).capacity = c.capacity := by
  cases certificate <;> rfl

lemma isSome_holding (d : HashedId8) : ((c.holding digest certificate).certificate d).isSome ↔
    (c.certificate d).isSome ∨ d = digest ∧ certificate.isSome := by
  cases certificate with
  | none => simp [holding]
  | some x =>
    simp only [PeerCertCache.certificate, holding, Sec.PeerCertCache.get, OrdMap.get_insert]
    by_cases h : digest = d
    · simp [h]
    · simp [h, Ne.symm h]

lemma noteInsert_eq (c : PeerCertCache Cert) (digest : HashedId8) :
    c.noteInsert digest =
      if c.capacity < (Recency.refresh c.lru digest).length then
        ((Recency.refresh c.lru digest).head?,
          { c with lru := (Recency.refresh c.lru digest).tail, evictions := satAdd32 c.evictions 1 })
      else (none, { c with lru := Recency.refresh c.lru digest }) := rfl

@[simp]
lemma certificate_noteInsert (d : HashedId8) :
    (c.noteInsert digest).2.certificate d = c.certificate d := by
  rw [noteInsert_eq]
  split_ifs <;> rfl

@[simp]
lemma capacity_noteInsert : (c.noteInsert digest).2.capacity = c.capacity := by
  rw [noteInsert_eq]
  split_ifs <;> rfl

lemma lru_noteInsert : (c.noteInsert digest).2.lru =
    if c.capacity < (Recency.refresh c.lru digest).length then (Recency.refresh c.lru digest).tail
    else Recency.refresh c.lru digest := by
  rw [noteInsert_eq]
  split_ifs <;> rfl

lemma evicted_noteInsert {e : HashedId8} (h : (c.noteInsert digest).1 = some e) :
    Recency.refresh c.lru digest = e :: (c.noteInsert digest).2.lru := by
  rw [noteInsert_eq] at h ⊢
  split_ifs at h ⊢
  exact (List.cons_head?_tail h).symm

/-- A call that brings a digest in. -/
lemma call_of_brings (h : brings certificateDigest i = some (digest, certificate)) :
    (c.call certificateDigest i).1.evicted? = (c.noteInsert digest).1 ∧
      (c.call certificateDigest i).2 = ((c.holding digest certificate).noteInsert digest).2 ∧
      used certificateDigest i (c.call certificateDigest i).1 = some digest := by
  cases i with
  | learn d | noteInsert d =>
    cases h
    exact ⟨rfl, rfl, rfl⟩
  | touch d => cases h
  | learnCertificate x =>
    obtain ⟨d, hd, hpair⟩ := Option.map_eq_some_iff.1 h
    cases hpair
    simp only [call, learnCertificate, Sec.PeerCertCache.insert, hd]
    refine ⟨?_, rfl, hd⟩
    simp only [Prod.map_fst, PeerReply.evicted?, noteInsert_eq]
    split_ifs <;> rfl

/-- Any other call moves a listed digest, or nothing. -/
lemma call_of_not_brings (h : brings certificateDigest i = none) :
    (c.call certificateDigest i).1.evicted? = none ∧
      (used certificateDigest i (c.call certificateDigest i).1 = none ∧
          (c.call certificateDigest i).2 = c ∨
        ∃ d ∈ c.lru, used certificateDigest i (c.call certificateDigest i).1 = some d ∧
          (c.call certificateDigest i).2 = { c with lru := Recency.refresh c.lru d }) := by
  cases i with
  | learn d | noteInsert d => cases h
  | touch d =>
    by_cases hmem : d ∈ c.lru
    · simp only [call, touch, used, if_pos hmem]
      exact ⟨rfl, .inr ⟨d, hmem, rfl, rfl⟩⟩
    · simp only [call, touch, used, if_neg hmem]
      exact ⟨rfl, .inl ⟨rfl, rfl⟩⟩
  | learnCertificate x =>
    have hnone : certificateDigest x = none := Option.map_eq_none_iff.1 h
    simp only [call, learnCertificate, Sec.PeerCertCache.insert, hnone]
    exact ⟨rfl, .inl ⟨hnone, rfl⟩⟩

/-! ## The list -/

variable (certificateDigest) (capacity : ℕ)

lemma uses_concat (calls : List (PeerCall Cert)) (i : PeerCall Cert) :
    uses certificateDigest capacity (calls ++ [i]) = uses certificateDigest capacity calls ++
      (used certificateDigest i
        ((after certificateDigest capacity calls).call certificateDigest i).1).toList :=
  Mealy.log_append _ _ calls [i] _ _

lemma after_concat (calls : List (PeerCall Cert)) (i : PeerCall Cert) :
    after certificateDigest capacity (calls ++ [i]) =
      ((after certificateDigest capacity calls).call certificateDigest i).2 :=
  Mealy.run_concat _ _ calls i

/-- **The list is that of the most recent uses.** -/
theorem lru_after (calls : List (PeerCall Cert)) :
    (after certificateDigest capacity calls).capacity = capacity ∧
      (after certificateDigest capacity calls).lru =
        Recency.recent capacity (uses certificateDigest capacity calls) := by
  induction calls using List.reverseRecOn with
  | nil => exact ⟨rfl, (Recency.recent_nil capacity).symm⟩
  | append_singleton calls i ih =>
    obtain ⟨hcap, hlru⟩ := ih
    rw [after_concat, uses_concat]
    generalize after certificateDigest capacity calls = c at hcap hlru ⊢
    cases hbrings : brings certificateDigest i with
    | some x =>
      obtain ⟨digest, certificate⟩ := x
      obtain ⟨-, hnext, hused⟩ := call_of_brings (c := c) hbrings
      rw [hnext, hused, Option.toList_some, Recency.recent_concat, lru_noteInsert, ← hlru]
      simp only [capacity_noteInsert, capacity_holding, lru_holding, hcap, true_and]
    | none =>
      obtain ⟨-, hstill | hmoved⟩ := call_of_not_brings (c := c) hbrings
      · obtain ⟨hused, hnext⟩ := hstill
        rw [hnext, hused, Option.toList_none, List.append_nil]
        exact ⟨hcap, hlru⟩
      · obtain ⟨d, hd, hused, hnext⟩ := hmoved
        rw [hnext, hused, Option.toList_some, Recency.recent_concat, ← hlru]
        refine ⟨hcap, (if_neg ?_).symm⟩
        have hlen := Recency.length_recent capacity (uses certificateDigest capacity calls)
        have hnodup := Recency.nodup_recent capacity (uses certificateDigest capacity calls)
        rw [← hlru] at hlen hnodup
        rw [Recency.length_refresh hnodup hd]
        omega

lemma lru_bounded (calls : List (PeerCall Cert)) :
    (after certificateDigest capacity calls).lru.Nodup ∧
      (after certificateDigest capacity calls).len ≤ capacity := by
  obtain ⟨-, hlru⟩ := lru_after certificateDigest capacity calls
  rw [len, hlru, Recency.length_recent]
  exact ⟨Recency.nodup_recent _ _, Nat.min_le_left _ _⟩

/-- **An eviction is of the least recently used digest**: it is listed no more, and every digest
that is has been used since. -/
lemma evicts_oldest (calls : List (PeerCall Cert)) (i : PeerCall Cert) (e : HashedId8)
    (h : ((after certificateDigest capacity calls).call certificateDigest i).1.evicted? = some e) :
    e ∉ (after certificateDigest capacity (calls ++ [i])).lru ∧
      ∀ d ∈ (after certificateDigest capacity (calls ++ [i])).lru,
        Recency.UsedSince (uses certificateDigest capacity (calls ++ [i])) e d := by
  obtain ⟨-, hlru⟩ := lru_after certificateDigest capacity calls
  obtain ⟨hnodup, -⟩ := lru_bounded certificateDigest capacity calls
  rw [after_concat, uses_concat]
  generalize after certificateDigest capacity calls = c at hlru hnodup h ⊢
  cases hbrings : brings certificateDigest i with
  | none =>
    obtain ⟨hnone, -⟩ := call_of_not_brings (c := c) hbrings
    rw [hnone] at h
    cases h
  | some x =>
    obtain ⟨digest, certificate⟩ := x
    obtain ⟨hevicted, hnext, hused⟩ := call_of_brings (c := c) hbrings
    rw [hevicted] at h
    have hsplit := evicted_noteInsert h
    have hlru' : ((c.holding digest certificate).noteInsert digest).2.lru =
        (c.noteInsert digest).2.lru := by
      rw [lru_noteInsert, lru_noteInsert, lru_holding, capacity_holding]
    have horder := Recency.pairwise_refresh_recent capacity
      (uses certificateDigest capacity calls) digest
    have hdistinct := Recency.nodup_refresh hnodup digest
    rw [← hlru, hsplit] at horder
    rw [hsplit] at hdistinct
    rw [hnext, hused, hlru', Option.toList_some]
    exact ⟨(List.nodup_cons.1 hdistinct).1, (List.pairwise_cons.1 horder).1⟩

/-! ## The certificates -/

/-- The certificates are those of listed digests, and within the capacity. -/
def Bounded (c : PeerCertCache Cert) : Prop :=
  (∀ d, (c.certificate d).isSome → c.contains d) ∧ c.inner.len ≤ c.capacity

variable {certificateDigest}

lemma Bounded.of_contains (hlen : c.len ≤ c.capacity)
    (h : ∀ d, (c.certificate d).isSome → d ∈ c.lru) : c.Bounded := by
  refine ⟨fun d hd => decide_eq_true (h d hd), ?_⟩
  have hsub : OrdMap.keySet c.inner.certs ⊆ c.lru.toFinset := by
    intro d hd
    obtain ⟨x, hx⟩ := OrdMap.mem_keySet.1 hd
    refine List.mem_toFinset.2 (h d ?_)
    rw [PeerCertCache.certificate, Sec.PeerCertCache.get, hx]
    rfl
  rw [Sec.PeerCertCache.len, ← OrdMap.card_keySet]
  exact ((Finset.card_le_card hsub).trans (List.toFinset_card_le _)).trans hlen

/-- What an insertion leaves listed, where there may be no room: all but the oldest. -/
lemma mem_noteInsert (hnodup : c.lru.Nodup) (hlen : c.len ≤ c.capacity) (d : HashedId8) :
    d ∈ (c.noteInsert digest).2.lru ↔ (d ∈ c.lru ∨ d = digest) ∧
      (digest ∈ c.lru ∨ c.len < c.capacity ∨ d ≠ c.lru.headD digest) := by
  rw [lru_noteInsert]
  by_cases hmem : digest ∈ c.lru
  · have hfits : ¬ c.capacity < c.lru.length := Nat.not_lt.2 hlen
    rw [Recency.length_refresh hnodup hmem, if_neg hfits, Recency.mem_refresh]
    simp [hmem]
  · have hdistinct := Recency.nodup_refresh hnodup digest
    rw [Recency.refresh_of_notMem hmem] at hdistinct ⊢
    rw [List.length_append, List.length_singleton]
    have hiff : c.capacity < c.lru.length + 1 ↔ ¬ c.len < c.capacity := by
      unfold len
      omega
    simp only [hmem, false_or]
    split_ifs with hover
    · have hfull := hiff.1 hover
      cases hl : c.lru with
      | nil => simp [hfull]
      | cons a l =>
        rw [hl, List.cons_append, List.nodup_cons] at hdistinct
        have hne : ∀ x ∈ l ++ [digest], x ≠ a := fun x hx hxa => hdistinct.1 (hxa ▸ hx)
        simp only [List.cons_append, List.tail_cons, List.headD_cons, List.mem_cons, hfull,
          false_or]
        constructor
        · intro hd
          refine ⟨?_, hne d hd⟩
          exact (List.mem_append.1 hd).imp .inr List.mem_singleton.1
        · rintro ⟨(rfl | hd) | rfl, hda⟩
          · exact absurd rfl hda
          · exact List.mem_append_left _ hd
          · simp
    · have hroom : c.len < c.capacity := by
        by_contra hno
        exact hover (hiff.2 hno)
      simp [hroom]

/-- **One call** leaves the certificates those of listed digests exactly if it spares them. -/
lemma bounded_call_iff (hnodup : c.lru.Nodup) (hlen : c.len ≤ c.capacity) (hbound : c.Bounded)
    (hlen' : (c.call certificateDigest i).2.len ≤ (c.call certificateDigest i).2.capacity) :
    (c.call certificateDigest i).2.Bounded ↔ c.Spares certificateDigest i := by
  obtain ⟨hheld, -⟩ := hbound
  have hheld : ∀ d, (c.certificate d).isSome → d ∈ c.lru := fun d hd =>
    of_decide_eq_true (hheld d hd)
  cases hbrings : brings certificateDigest i with
  | none =>
    have hspares : c.Spares certificateDigest i := by
      intro digest certificate h
      rw [hbrings] at h
      cases h
    refine iff_of_true (Bounded.of_contains hlen' ?_) hspares
    obtain ⟨-, ⟨-, hnext⟩ | ⟨d, -, -, hnext⟩⟩ := call_of_not_brings (c := c) hbrings
    · rw [hnext]
      exact hheld
    · rw [hnext]
      exact fun e he => Recency.mem_refresh.2 (.inl (hheld e he))
  | some x =>
    obtain ⟨digest, certificate⟩ := x
    obtain ⟨-, hnext, -⟩ := call_of_brings (c := c) hbrings
    rw [hnext] at hlen' ⊢
    have hmem : ∀ d, d ∈ ((c.holding digest certificate).noteInsert digest).2.lru ↔
        (d ∈ c.lru ∨ d = digest) ∧
          (digest ∈ c.lru ∨ c.len < c.capacity ∨ d ≠ c.lru.headD digest) := by
      intro d
      have h : d ∈ ((c.holding digest certificate).noteInsert digest).2.lru ↔ _ :=
        mem_noteInsert (by simpa using hnodup) (by simpa [len] using hlen) d
      simpa [len] using h
    have hiff : ((c.holding digest certificate).noteInsert digest).2.Bounded ↔
        ∀ d, (c.certificate d).isSome ∨ d = digest ∧ certificate.isSome →
          digest ∈ c.lru ∨ c.len < c.capacity ∨ d ≠ c.lru.headD digest := by
      constructor
      · intro h d hd
        have hin := h.1 d (by rw [certificate_noteInsert, isSome_holding]; exact hd)
        exact ((hmem d).1 (of_decide_eq_true hin)).2
      · intro h
        refine Bounded.of_contains hlen' fun d hd => ?_
        rw [certificate_noteInsert, isSome_holding] at hd
        exact (hmem d).2 ⟨hd.imp (hheld d) And.left, h d hd⟩
    rw [hiff]
    unfold Spares
    rw [hbrings]
    constructor
    · rintro h _ _ ⟨⟩
      by_contra hno
      push Not at hno
      obtain ⟨hnew, hfull, holdest⟩ := hno
      have hnone : c.certificate (c.lru.headD digest) = none := by
        by_contra hsome
        obtain hin | hroom | hne := h _ (.inl (Option.isSome_iff_ne_none.2 hsome))
        · exact hnew hin
        · exact absurd hroom (Nat.not_lt.2 hfull)
        · exact hne rfl
      obtain ⟨hempty, hsome⟩ := holdest hnone
      obtain hin | hroom | hne := h digest (.inr ⟨rfl, Option.isSome_iff_ne_none.2 hsome⟩)
      · exact hnew hin
      · exact absurd hroom (Nat.not_lt.2 hfull)
      · rw [hempty] at hne
        exact hne rfl
    · intro h d hd
      obtain hin | hroom | ⟨hnone, hempty⟩ := h digest certificate rfl
      · exact .inl hin
      · exact .inr (.inl hroom)
      by_cases hin : digest ∈ c.lru
      · exact .inl hin
      refine .inr (.inr ?_)
      rintro rfl
      obtain hsome | ⟨hself, hsome⟩ := hd
      · rw [hnone] at hsome
        cases hsome
      · cases hl : c.lru with
        | nil =>
          rw [hempty hl] at hsome
          cases hsome
        | cons a l =>
          rw [hl] at hself hin
          exact hin (hself ▸ List.mem_cons_self)

/-- **The peer certificate cache**, of any capacity and after any calls: its list has no duplicates
and at most as many digests as the capacity, and what a call evicts is the least recently used of
them. Its certificates are those of listed digests, and as few, all along a history, if and only if
every call of it spares them. -/
theorem bounded_iff (certificateDigest : Cert → Option HashedId8) (capacity : ℕ)
    (calls : List (PeerCall Cert)) :
    ((after certificateDigest capacity calls).lru.Nodup ∧
      (after certificateDigest capacity calls).len ≤ capacity) ∧
    (∀ i e,
      ((after certificateDigest capacity calls).call certificateDigest i).1.evicted? = some e →
      e ∉ (after certificateDigest capacity (calls ++ [i])).lru ∧
        ∀ d ∈ (after certificateDigest capacity (calls ++ [i])).lru,
          Recency.UsedSince (uses certificateDigest capacity (calls ++ [i])) e d) ∧
    ((∀ before, before <+: calls → (after certificateDigest capacity before).Bounded) ↔
      Mealy.Always (call certificateDigest) (Spares certificateDigest) (new capacity) calls) := by
  refine ⟨lru_bounded _ _ _, evicts_oldest _ _ calls, ?_⟩
  induction calls using List.reverseRecOn with
  | nil =>
    refine iff_of_true (fun before hbefore => ?_) trivial
    rw [List.prefix_nil.1 hbefore]
    refine Bounded.of_contains (Nat.zero_le _) fun d hd => ?_
    simp [after, Mealy.run, new, PeerCertCache.certificate, Sec.PeerCertCache.get] at hd
  | append_singleton calls i ih =>
    rw [Mealy.always_append, ← ih]
    obtain ⟨hnodup, hlen⟩ := lru_bounded certificateDigest capacity calls
    obtain ⟨-, hlen'⟩ := lru_bounded certificateDigest capacity (calls ++ [i])
    obtain ⟨hcap, -⟩ := lru_after certificateDigest capacity calls
    obtain ⟨hcap', -⟩ := lru_after certificateDigest capacity (calls ++ [i])
    have hstep (hbound : (after certificateDigest capacity calls).Bounded) :
        (after certificateDigest capacity (calls ++ [i])).Bounded ↔
          (after certificateDigest capacity calls).Spares certificateDigest i := by
      rw [after_concat] at hlen' hcap' ⊢
      exact bounded_call_iff hnodup (hlen.trans_eq hcap.symm) hbound (hlen'.trans_eq hcap'.symm)
    constructor
    · intro h
      have hbefore := fun before (hb : before <+: calls) =>
        h before (hb.trans (List.prefix_append calls [i]))
      exact ⟨hbefore, (hstep (hbefore calls (List.prefix_refl _))).1 (h _ (List.prefix_refl _)),
        trivial⟩
    · rintro ⟨hbefore, hspares, -⟩ before hb
      obtain rfl | hb := List.prefix_concat_iff.1 hb
      · exact (hstep (hbefore calls (List.prefix_refl _))).2 hspares
      · exact hbefore before hb

/-- **A certificate that outlives its digest**: of two certificates learned in a cache of one, the
first is held when its digest is evicted. -/
theorem certificate_outlives :
    ((after some 1 [.learnCertificate 7]).call some (.learnCertificate 8)).1.evicted? = some 7 ∧
      (after some 1 [.learnCertificate 7, .learnCertificate 8]).lru = [8] ∧
      (after some 1 [.learnCertificate 7, .learnCertificate 8]).certificate 7 = some 7 ∧
      (after some 1 [.learnCertificate 7, .learnCertificate 8]).inner.len = 2 := by
  decide +kernel

end PeerCertCache

end V2xw.Node
