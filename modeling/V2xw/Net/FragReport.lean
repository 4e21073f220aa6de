import V2xw.Net.FragInv

/-!
# Which ends of a reassembly reach the caller

A set that was opened ends in a reply to the arrival that ended it, or expires; the expiry happens
inside whatever call comes next and reaches the caller through `expire`. This file follows every
set of a run and compares the two fragmenters behind the same buffer.

## Main definitions

* `Reassembler` — a fragmenter backed by a reassembly buffer.
* `Reassembler.log` — the states and calls of a run.
* `Reassembler.openings`, `Reassembler.endings`, `Reassembler.retirements`
  — the sets a run opened, ended by a reply, and let expire.
* `Reassembler.Accounted` — every set of a run is accounted for.

## Main results

* `Reassembler.log_conservation` — an opened set is open, ended by a reply, or retired.
* `genericSdu_reported`, `certCycle_reported` — which retired sets `expire`
  returns.
-/

namespace V2xw.Net

open V2xw.Core

/-- A call on a fragmenter's receiving side. -/
inductive FragCall
  | reassemble (now : SimTime) (rx : NodeId) (frag : FragmentDesc) (sender : NodeId)
  | expire (rx : NodeId) (now : SimTime)

/-- When a call is made. -/
def FragCall.time : FragCall → SimTime
  | reassemble now _ _ _ => now
  | expire _ now => now

/-- A fragmenter backed by a reassembly buffer: its `reassemble` answers what the buffer's `accept`
does and drains the retired sets, its `expire` is the buffer's. What becomes of the drained sets is
up to the fragmenter. -/
structure Reassembler (σ : Type) where
  /-- The buffer behind the fragmenter. -/
  buffer : σ → ReassemblyBuffer
  /-- The retired sets held for the next `expire`. -/
  queued : σ → List ReassemblyOutcome
  /-- Takes one arriving fragment. -/
  reassemble : σ → SimTime → NodeId → FragmentDesc → NodeId →
    ReassemblyOutcome × List FragRecord × σ
  /-- Retires every set whose timer has run out. -/
  expire : σ → NodeId → SimTime → List ReassemblyOutcome × List FragRecord × σ
  /-- The answer is the buffer's. -/
  reassemble_fst : ∀ s now rx frag sender,
    (reassemble s now rx frag sender).1 = ((buffer s).accept now sender frag).1
  /-- The buffer moves on and is drained. -/
  reassemble_buffer : ∀ s now rx frag sender,
    buffer (reassemble s now rx frag sender).2.2 =
      ((buffer s).accept now sender frag).2.takeExpired.2
  /-- The buffer moves on and is drained. -/
  expire_buffer : ∀ s rx now, buffer (expire s rx now).2.2 = ((buffer s).expire now).2
  /-- `expire` leaves nothing waiting. -/
  expire_queued : ∀ s rx now, queued (expire s rx now).2.2 = []

/-- The receiving side of `fragmenter/generic-sdu`. -/
def GenericSduFragmenter.receiver : Reassembler GenericSduFragmenter where
  buffer f := f.buffer
  queued f := f.retired ++ f.buffer.expired
  reassemble := reassemble
  expire := expire
  reassemble_fst _ _ _ _ _ := rfl
  reassemble_buffer _ _ _ _ _ := rfl
  expire_buffer _ _ _ := rfl
  expire_queued _ _ _ := rfl

/-- The receiving side of `fragmenter/cert-cycle-partial-hybrid`. -/
def CertCyclePartialHybrid.receiver : Reassembler CertCyclePartialHybrid where
  buffer f := f.buffer
  queued f := f.buffer.expired
  reassemble := reassemble
  expire := expire
  reassemble_fst _ _ _ _ _ := rfl
  reassemble_buffer _ _ _ _ _ := rfl
  expire_buffer _ _ _ := rfl
  expire_queued _ _ _ := rfl

namespace Reassembler

variable {σ : Type} (r : Reassembler σ)

/-! ## Runs -/

/-- The state after a call. -/
def next (s : σ) : FragCall → σ
  | .reassemble now rx frag sender => (r.reassemble s now rx frag sender).2.2
  | .expire rx now => (r.expire s rx now).2.2

/-- The state after some calls. -/
def exec (s : σ) (cs : List FragCall) : σ := cs.foldl r.next s

/-- Each call of a run with the state it was made in. -/
def log : σ → List FragCall → List (σ × FragCall)
  | _, [] => []
  | s, c :: cs => (s, c) :: log (r.next s c) cs

/-- The key has an open set. -/
def isOpen (s : σ) (key : Key) : Bool := (r.buffer s).entries[key]?.isSome

/-- The call is the first fragment of a new set of the key: it found none open and was answered
`Pending`. -/
def opens (key : Key) : σ × FragCall → Bool
  | (s, .reassemble now rx frag sender) =>
    toLex (sender, frag.sdu) == key && ((r.buffer s).purge now).entries[key]?.isNone &&
      match (r.reassemble s now rx frag sender).1 with
      | .pending _ _ _ => true
      | _ => false
  | (_, .expire _ _) => false

/-- The call ended an open set of the key and its answer says so: `Complete` (of a split SDU), or
`Failed` by a count mismatch. -/
def ends (key : Key) : σ × FragCall → Bool
  | (s, .reassemble now rx frag sender) =>
    toLex (sender, frag.sdu) == key && ((r.buffer s).purge now).entries[key]?.isSome &&
      !frag.isWhole &&
      match (r.reassemble s now rx frag sender).1 with
      | .complete _ _ _ => true
      | .failed _ (.fragmentCountMismatch _ _) => true
      | _ => false
  | (_, .expire _ _) => false

/-- How many sets of the key a run opened. -/
def openings (s : σ) (cs : List FragCall) (key : Key) : ℕ := (r.log s cs).countP (r.opens key)

/-- How many sets of the key a run ended with a reply that says so. -/
def endings (s : σ) (cs : List FragCall) (key : Key) : ℕ := (r.log s cs).countP (r.ends key)

/-- The sets whose deadline had passed at some call of the run, in the order in which they were
retired. -/
def retirements (s : σ) (cs : List FragCall) : List (Key × Entry) :=
  (r.log s cs).flatMap (fun p => (r.buffer p.1).stale p.2.time)

/-- Everything the `expire` calls of a run returned. -/
def returned (s : σ) (cs : List FragCall) : List ReassemblyOutcome :=
  (r.log s cs).flatMap (fun p =>
    match p.2 with
    | .reassemble _ _ _ _ => []
    | .expire rx now => (r.expire p.1 rx now).1)

/-- The terminal outcomes of some retired sets. -/
def outcomes (l : List (Key × Entry)) : List ReassemblyOutcome :=
  l.map (fun p => ReassemblyBuffer.expiredOutcome p.1 p.2)

/-- Every set of a run is accounted for: an opened set is still open, was ended by a reply that
says so, or was retired, each exactly once; what `expire` returned, followed by what waits for the
next call of it, is the retired sets in order; and right after an `expire` nothing waits and no set
is open past its deadline. -/
structure Accounted (s : σ) (cs : List FragCall) : Prop where
  /-- Opened sets are open, ended by a reply, or retired. -/
  conservation : ∀ key, r.openings s cs key =
    (r.isOpen (r.exec s cs) key).toNat + r.endings s cs key +
      ((r.retirements s cs).map Prod.fst).count key
  /-- Retired sets are returned once, in order. -/
  reported : r.returned s cs ++ r.queued (r.exec s cs) = outcomes (r.retirements s cs)
  /-- An `expire` leaves nothing behind. -/
  drained : ∀ pre rx now, cs = pre ++ [.expire rx now] →
    r.queued (r.exec s cs) = [] ∧
      ∀ (k : Key) (e : Entry), (r.buffer (r.exec s cs)).entries[k]? = some e → now < e.deadline

/-! ## Conservation -/

/-- A key is retired at most once by a purge, and exactly when it was open and no longer is. -/
lemma toNat_isSome_purge (b : ReassemblyBuffer) (now : SimTime) (key : Key) :
    b.entries[key]?.isSome.toNat =
      (b.purge now).entries[key]?.isSome.toNat + ((b.stale now).map Prod.fst).count key := by
  have hnodup : ((b.stale now).map Prod.fst).Nodup := by
    have hkeys : (b.entries.toList.map Prod.fst).Nodup := by
      rw [Std.ExtTreeMap.map_fst_toList_eq_keys]
      exact Std.ExtTreeMap.distinct_keys.imp fun h => by simpa only [compare_eq_iff_eq] using h
    exact hkeys.sublist (List.filter_sublist.map _)
  rw [ReassemblyBuffer.entries_purge]
  cases he : b.entries[key]? with
  | none =>
    have hnot : key ∉ (b.stale now).map Prod.fst := by
      intro hmem
      obtain ⟨⟨k, e⟩, hst, rfl⟩ := List.mem_map.1 hmem
      exact absurd (he.symm.trans (ReassemblyBuffer.mem_stale.1 hst).1) (by simp)
    simp [List.count_eq_zero_of_not_mem hnot]
  | some e =>
    by_cases hdl : e.deadline ≤ now
    · have hmem : key ∈ (b.stale now).map Prod.fst :=
        List.mem_map.2 ⟨(key, e), ReassemblyBuffer.mem_stale.2 ⟨he, hdl⟩, rfl⟩
      simp [hdl, List.count_eq_one_of_mem hnodup hmem]
    · have hnot : key ∉ (b.stale now).map Prod.fst := by
        intro hmem
        obtain ⟨⟨k, e'⟩, hst, rfl⟩ := List.mem_map.1 hmem
        obtain ⟨he', hdl'⟩ := ReassemblyBuffer.mem_stale.1 hst
        obtain rfl := Option.some.inj (he.symm.trans he')
        exact hdl hdl'
      simp [not_le.1 hdl, List.count_eq_zero_of_not_mem hnot]

/-- A call opens a set, ends one with a reply that says so, or leaves the key as the purge left
it. -/
lemma toNat_opens_add (s : σ) (c : FragCall) (key : Key) :
    (r.opens key (s, c)).toNat + ((r.buffer s).purge c.time).entries[key]?.isSome.toNat =
      (r.isOpen (r.next s c) key).toNat + (r.ends key (s, c)).toNat := by
  cases c with
  | expire rx now =>
    simp only [opens, ends, isOpen, next, r.expire_buffer, FragCall.time, Bool.toNat_false]
    simp [ReassemblyBuffer.expire, ReassemblyBuffer.takeExpired]
  | reassemble now rx frag sender =>
    have hstep := (r.buffer s).accept_step now sender frag
    simp only [opens, ends, isOpen, next, r.reassemble_fst, r.reassemble_buffer, FragCall.time,
      ReassemblyBuffer.takeExpired]
    by_cases hk : (toLex (sender, frag.sdu) : Key) = key
    · subst hk
      simp only [beq_self_eq_true, Bool.true_and]
      generalize (r.buffer s).purge now = b at hstep ⊢
      generalize (r.buffer s).accept now sender frag = p at hstep ⊢
      obtain ⟨o, b'⟩ := p
      dsimp only at hstep ⊢
      cases hstep with
      | refused cause hns hcause =>
        cases cause with
        | fragmentCountMismatch had saw => exact absurd rfl (hcause had saw)
        | _ => simp
      | whole hone => simp [FragmentDesc.isWhole, hone]
      | mismatch e hs he =>
        simp [he, hs.isWhole_eq_false]
      | again e hs he => simp [he]
      | progress e seen hs he => simp [he]
      | finish e hs he =>
        simp [he, ReassemblyBuffer.remember_frame, hs.isWhole_eq_false]
      | repeated d hs he => simp [he]
      | contradicts d hs he => simp [he]
      | full hs he => simp [he]
      | opens seen hs he => simp [he]
    · have hkey : (toLex (sender, frag.sdu) == key) = false := beq_eq_false_iff_ne.2 hk
      rw [hstep.entries_of_ne hk, hkey]
      simp

/-- **Conservation.** The sets a run opened, with those open before it, are those open after it,
those it ended with a reply, and those it retired.

**Proof sketch.** Induction on the calls; each call purges (`toNat_isSome_purge`) and then opens or
ends at most one set (`toNat_opens_add`). -/
theorem log_conservation (key : Key) : ∀ (s : σ) (cs : List FragCall),
    r.openings s cs key + (r.isOpen s key).toNat =
      (r.isOpen (r.exec s cs) key).toNat + r.endings s cs key +
        ((r.retirements s cs).map Prod.fst).count key := by
  intro s cs
  induction cs generalizing s with
  | nil => simp [openings, endings, retirements, log, exec]
  | cons c cs ih =>
    have hcall := r.toNat_opens_add s c key
    have hpurge := toNat_isSome_purge (r.buffer s) c.time key
    have hrest := ih (r.next s c)
    have hopen : r.openings s (c :: cs) key =
        r.openings (r.next s c) cs key + (r.opens key (s, c)).toNat := by
      simp only [openings, log, List.countP_cons]
      cases r.opens key (s, c) <;> rfl
    have hend : r.endings s (c :: cs) key =
        r.endings (r.next s c) cs key + (r.ends key (s, c)).toNat := by
      simp only [endings, log, List.countP_cons]
      cases r.ends key (s, c) <;> rfl
    have hret : ((r.retirements s (c :: cs)).map Prod.fst).count key =
        (((r.buffer s).stale c.time).map Prod.fst).count key +
          ((r.retirements (r.next s c) cs).map Prod.fst).count key := by
      simp only [retirements, log, List.flatMap_cons, List.map_append, List.count_append]
    have hexec : r.exec s (c :: cs) = r.exec (r.next s c) cs := rfl
    rw [hopen, hend, hret, hexec]
    simp only [isOpen] at hrest hcall ⊢
    omega

/-! ## What `expire` returns -/

lemma drained_of_expire (s : σ) {cs pre : List FragCall} {rx : NodeId} {now : SimTime}
    (h : cs = pre ++ [.expire rx now]) :
    r.queued (r.exec s cs) = [] ∧
      ∀ (k : Key) (e : Entry), (r.buffer (r.exec s cs)).entries[k]? = some e → now < e.deadline := by
  have hexec : r.exec s cs = (r.expire (r.exec s pre) rx now).2.2 := by
    rw [h, exec, List.foldl_append]
    rfl
  rw [hexec, r.expire_queued, r.expire_buffer]
  refine ⟨rfl, fun k e he => ?_⟩
  change (((r.buffer (r.exec s pre)).purge now).entries)[k]? = some e at he
  rw [ReassemblyBuffer.entries_purge] at he
  simpa using (Option.filter_eq_some_iff.1 he).2

/-- No `reassemble` of the run comes at or after the deadline of a set that is open. -/
def Timely (s : σ) (cs : List FragCall) : Prop :=
  ∀ p ∈ r.log s cs, ∀ now rx frag sender, p.2 = .reassemble now rx frag sender →
    ∀ (k : Key) (e : Entry), (r.buffer p.1).entries[k]? = some e → now < e.deadline

lemma stale_eq_nil_iff {b : ReassemblyBuffer} {now : SimTime} :
    b.stale now = [] ↔ ∀ (k : Key) (e : Entry), b.entries[k]? = some e → now < e.deadline := by
  rw [List.eq_nil_iff_forall_not_mem]
  constructor
  · intro h k e he
    by_contra hle
    exact h (k, e) (ReassemblyBuffer.mem_stale.2 ⟨he, not_lt.1 hle⟩)
  · rintro h ⟨k, e⟩ hmem
    obtain ⟨he, hle⟩ := ReassemblyBuffer.mem_stale.1 hmem
    exact absurd (h k e he) (not_lt.2 hle)

lemma expired_accept (b : ReassemblyBuffer) (now : SimTime) (sender : NodeId)
    (frag : FragmentDesc) :
    (b.accept now sender frag).2.expired = b.expired ++ outcomes (b.stale now) :=
  (b.accept_step now sender frag).frame.2.2

end Reassembler

open Reassembler

/-- **The generic fragmenter returns every retired set**, in order and once: what its `expire`
calls returned and what still waits are the sets retired so far.

**Proof sketch.** Induction on the calls. A `reassemble` moves the sets it retires behind those
already waiting, an `expire` returns all of them. -/
theorem genericSdu_reported : ∀ (f : GenericSduFragmenter) (cs : List FragCall),
    GenericSduFragmenter.receiver.returned f cs ++
        GenericSduFragmenter.receiver.queued (GenericSduFragmenter.receiver.exec f cs) =
      GenericSduFragmenter.receiver.queued f ++
        outcomes (GenericSduFragmenter.receiver.retirements f cs) := by
  intro f cs
  induction cs generalizing f with
  | nil => simp [returned, retirements, log, exec, outcomes]
  | cons c cs ih =>
    have hret : outcomes (GenericSduFragmenter.receiver.retirements f (c :: cs)) =
        outcomes (f.buffer.stale c.time) ++ outcomes (GenericSduFragmenter.receiver.retirements
          (GenericSduFragmenter.receiver.next f c) cs) := List.map_append
    rw [hret, ← List.append_assoc]
    cases c with
    | reassemble now rx frag sender =>
      have hqueue : GenericSduFragmenter.receiver.queued
          (GenericSduFragmenter.receiver.next f (.reassemble now rx frag sender)) =
          GenericSduFragmenter.receiver.queued f ++ outcomes (f.buffer.stale now) := by
        change (f.retired ++ (f.buffer.accept now sender frag).2.expired) ++ [] = _
        rw [expired_accept, List.append_nil, ← List.append_assoc]
        rfl
      have hrest := ih (GenericSduFragmenter.receiver.next f (.reassemble now rx frag sender))
      rw [hqueue] at hrest
      exact hrest
    | expire rx now =>
      have hrest := ih (GenericSduFragmenter.receiver.next f (.expire rx now))
      have hout : (f.expire rx now).1 =
          GenericSduFragmenter.receiver.queued f ++ outcomes (f.buffer.stale now) :=
        (List.append_assoc _ _ _).symm
      calc GenericSduFragmenter.receiver.returned f (.expire rx now :: cs) ++ _
          = (f.expire rx now).1 ++ (GenericSduFragmenter.receiver.returned
              (GenericSduFragmenter.receiver.next f (.expire rx now)) cs ++
            GenericSduFragmenter.receiver.queued (GenericSduFragmenter.receiver.exec
              (GenericSduFragmenter.receiver.next f (.expire rx now)) cs)) :=
            List.append_assoc _ _ _
        _ = _ := by rw [hrest, hout]; rfl

/-- The certificate-cycle fragmenter returns no more than the sets it retired. -/
lemma certCycle_length_le : ∀ (f : CertCyclePartialHybrid) (cs : List FragCall),
    f.buffer.expired = [] →
    (CertCyclePartialHybrid.receiver.returned f cs ++ CertCyclePartialHybrid.receiver.queued
        (CertCyclePartialHybrid.receiver.exec f cs)).length ≤
      (CertCyclePartialHybrid.receiver.retirements f cs).length := by
  intro f cs hexp
  induction cs generalizing f with
  | nil => simp [returned, retirements, log, exec, CertCyclePartialHybrid.receiver, hexp]
  | cons c cs ih =>
    have hret : (CertCyclePartialHybrid.receiver.retirements f (c :: cs)).length =
        (f.buffer.stale c.time).length + (CertCyclePartialHybrid.receiver.retirements
          (CertCyclePartialHybrid.receiver.next f c) cs).length := List.length_append
    rw [hret]
    cases c with
    | reassemble now rx frag sender =>
      exact (ih (CertCyclePartialHybrid.receiver.next f (.reassemble now rx frag sender)) rfl).trans
        (Nat.le_add_left _ _)
    | expire rx now =>
      have hrest := ih (CertCyclePartialHybrid.receiver.next f (.expire rx now)) rfl
      have hout : (f.expire rx now).1.length = (f.buffer.stale now).length := by
        change (f.buffer.expired ++ outcomes (f.buffer.stale now)).length = _
        rw [hexp, List.nil_append, outcomes, List.length_map]
      calc (CertCyclePartialHybrid.receiver.returned f (.expire rx now :: cs) ++ _).length
          = (f.expire rx now).1.length + (CertCyclePartialHybrid.receiver.returned
              (CertCyclePartialHybrid.receiver.next f (.expire rx now)) cs ++
            CertCyclePartialHybrid.receiver.queued (CertCyclePartialHybrid.receiver.exec
              (CertCyclePartialHybrid.receiver.next f (.expire rx now)) cs)).length := by
            rw [← List.length_append, ← List.append_assoc]
            rfl
        _ ≤ _ := by rw [hout]; exact Nat.add_le_add_left hrest _

/-- **The certificate-cycle fragmenter returns every retired set exactly when none is retired by a
`reassemble`**: the sets retired there are recorded and dropped.

**Proof sketch.** Induction on the calls. A `reassemble` returns nothing to the caller's `expire`,
so if it retires a set the run returns fewer sets than it retired (`certCycle_length_le`). -/
theorem certCycle_reported : ∀ (f : CertCyclePartialHybrid) (cs : List FragCall),
    f.buffer.expired = [] →
    (CertCyclePartialHybrid.receiver.returned f cs ++ CertCyclePartialHybrid.receiver.queued
        (CertCyclePartialHybrid.receiver.exec f cs) =
      outcomes (CertCyclePartialHybrid.receiver.retirements f cs) ↔
        CertCyclePartialHybrid.receiver.Timely f cs) := by
  intro f cs hexp
  induction cs generalizing f with
  | nil =>
    simp [returned, retirements, log, exec, outcomes, Timely, CertCyclePartialHybrid.receiver, hexp]
  | cons c cs ih =>
    have hret : outcomes (CertCyclePartialHybrid.receiver.retirements f (c :: cs)) =
        outcomes (f.buffer.stale c.time) ++ outcomes (CertCyclePartialHybrid.receiver.retirements
          (CertCyclePartialHybrid.receiver.next f c) cs) := List.map_append
    rw [hret]
    cases c with
    | reassemble now rx frag sender =>
      have hrest := ih (CertCyclePartialHybrid.receiver.next f (.reassemble now rx frag sender)) rfl
      have htimely : CertCyclePartialHybrid.receiver.Timely f
        (.reassemble now rx frag sender :: cs) ↔
          f.buffer.stale now = [] ∧ CertCyclePartialHybrid.receiver.Timely
            (CertCyclePartialHybrid.receiver.next f (.reassemble now rx frag sender)) cs := by
        rw [stale_eq_nil_iff, Timely, log, List.forall_mem_cons]
        refine and_congr ?_ Iff.rfl
        constructor
        · exact fun h => h now rx frag sender rfl
        · rintro h now' rx' frag' sender' heq
          cases heq
          exact h
      rw [htimely, ← hrest]
      have hlen := certCycle_length_le
        (CertCyclePartialHybrid.receiver.next f (.reassemble now rx frag sender)) cs rfl
      constructor
      · intro heq
        have hnil : f.buffer.stale now = [] := by
          have hl := congrArg List.length heq
          have hr := List.length_append.symm.trans hl.symm
          simp only [outcomes, List.length_map, FragCall.time] at hr
          refine List.length_eq_zero_iff.1 (Nat.le_zero.1 ?_)
          exact Nat.le_of_add_le_add_right ((hr.trans_le hlen).trans (Nat.zero_add _).ge)
        refine ⟨hnil, ?_⟩
        simp only [FragCall.time, hnil, outcomes, List.map_nil, List.nil_append] at heq
        exact heq
      · rintro ⟨hnil, heq⟩
        simp only [FragCall.time, hnil, outcomes, List.map_nil, List.nil_append]
        exact heq
    | expire rx now =>
      have hrest := ih (CertCyclePartialHybrid.receiver.next f (.expire rx now)) rfl
      have htimely : CertCyclePartialHybrid.receiver.Timely f (.expire rx now :: cs) ↔
          CertCyclePartialHybrid.receiver.Timely
            (CertCyclePartialHybrid.receiver.next f (.expire rx now)) cs := by
        rw [Timely, log, List.forall_mem_cons]
        refine ⟨fun h => h.2, fun h => ⟨?_, h⟩⟩
        intro now' rx' frag' sender' heq
        cases heq
      have hout : (f.expire rx now).1 = outcomes (f.buffer.stale now) := by
        change f.buffer.expired ++ outcomes (f.buffer.stale now) = _
        rw [hexp, List.nil_append]
      rw [htimely, ← hrest]
      change ((f.expire rx now).1 ++ CertCyclePartialHybrid.receiver.returned
        (CertCyclePartialHybrid.receiver.next f (.expire rx now)) cs) ++ _ = _ ↔ _
      rw [hout, List.append_assoc]
      exact List.append_right_inj _

/-- **Which fragmenter reports every set.** In every run the generic fragmenter accounts for every
set; the certificate-cycle fragmenter does exactly when no `reassemble` call comes at or after the
deadline of a set that is open. -/
theorem accounted_iff (maxOpenSdus reassemblyTimeoutMs cyclePeriodMs : ℕ) (cs : List FragCall) :
    GenericSduFragmenter.receiver.Accounted (.new maxOpenSdus reassemblyTimeoutMs) cs ∧
      (CertCyclePartialHybrid.receiver.Accounted (.new cyclePeriodMs) cs ↔
        CertCyclePartialHybrid.receiver.Timely (.new cyclePeriodMs) cs) := by
  refine ⟨⟨fun key => ?_, ?_, fun pre rx now hcs => ?_⟩,
    fun h => ?_, fun h => ⟨fun key => ?_, ?_, fun pre rx now hcs => ?_⟩⟩
  · simpa [isOpen, GenericSduFragmenter.receiver, GenericSduFragmenter.new, ReassemblyBuffer.new]
      using GenericSduFragmenter.receiver.log_conservation key
        (.new maxOpenSdus reassemblyTimeoutMs) cs
  · exact genericSdu_reported (.new maxOpenSdus reassemblyTimeoutMs) cs
  · exact GenericSduFragmenter.receiver.drained_of_expire _ hcs
  · exact (certCycle_reported (.new cyclePeriodMs) cs rfl).1 h.reported
  · simpa [isOpen, CertCyclePartialHybrid.receiver, CertCyclePartialHybrid.new,
      ReassemblyBuffer.new]
      using CertCyclePartialHybrid.receiver.log_conservation key (.new cyclePeriodMs) cs
  · exact (certCycle_reported (.new cyclePeriodMs) cs rfl).2 h
  · exact CertCyclePartialHybrid.receiver.drained_of_expire _ hcs

/-- Half a certificate from one peer, a fragment from another after its deadline, then an `expire`:
the first set is gone and only the second is returned. -/
theorem certCycle_drops_retired_set :
    ¬ CertCyclePartialHybrid.receiver.Accounted (.new 500)
      [.reassemble 0 7 ⟨5, 0, 2, 0, 400, .certFragment⟩ 1,
        .reassemble 1000000000 7 ⟨6, 0, 2, 0, 400, .certFragment⟩ 2,
        .expire 7 2000000000] := by
  intro h
  exact absurd h.reported (by decide +kernel)

end V2xw.Net
