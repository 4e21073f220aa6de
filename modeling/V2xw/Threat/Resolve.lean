import V2xw.Threat.Window

/-!
# Two-authority identity resolution

The pipeline `threat/ma/two-authority` of `crates/v2xw-threat/src/resolve.rs`: the windowed
correlator, and behind it a stage that revokes a correlated subject only when enough authorities can
resolve its pseudonym, and keeps the case open until then.

## Main definitions

* `ResolutionParams`, `TwoAuthorityResolution` — the pipeline, with
  `declareLinkage`, `ingestionRefusal`, `resolve`, `onReport` and `onTick`.
* `TwoAuthorityResolution.Enough` — a subject can be resolved.
* `Op` — what a run does to the pipeline.

## Main results

* `TwoAuthorityResolution.settle_of_enough`,
  `TwoAuthorityResolution.settle_of_not_enough` — what becomes of a correlated subject.
* `TwoAuthorityResolution.sweep_eq` — what becomes of a list of them.

## Implementation notes

The two loops of `on_tick` differ in the subjects they pass over, and are one definition with the
test as a parameter. The counters `ingested`, `dismissed` and `seq` are `u64` in the source.
-/

namespace V2xw.Threat

open V2xw.Core

/-- Which authority answered a resolution query. -/
inductive Authority
  | la1
  | la2
  /-- SCMS pseudonym certificate authority. -/
  | pca
  | ea
  deriving DecidableEq, Repr

/-- Why a case reached the outcome it did. -/
inductive CaseOutcome
  | ingested
  | dismissedNoEvidence
  | dismissedBelowThreshold
  | unresolvedUndeclared
  | unresolvedSingleAuthority
  | revoked
  deriving DecidableEq, Repr

/-- The spelling of an outcome on the channel `ma.case`. -/
def CaseOutcome.asStr : CaseOutcome → String
  | ingested => "ingested"
  | dismissedNoEvidence => "dismissed-no-evidence"
  | dismissedBelowThreshold => "dismissed-below-threshold"
  | unresolvedUndeclared => "unresolved-undeclared"
  | unresolvedSingleAuthority => "unresolved-single-authority"
  | revoked => "revoked"

/-- The operating point of the resolution stage. -/
structure ResolutionParams where
  /-- How many authorities must resolve a subject before a revocation may issue. -/
  authoritiesRequired : ℕ
  /-- The authority re-verifies what a report attached before opening a case. -/
  reverifyEvidence : Bool
  /-- A subject nothing was declared for is assumed resolvable. -/
  assumeResolvableWhenUndeclared : Bool
  /-- The operating point of the correlation stage. -/
  correlation : MaParams
  deriving DecidableEq, Repr

/-- The SCMS linkage split at the legacy operating point. -/
def ResolutionParams.default : ResolutionParams := ⟨2, true, false, MaParams.default⟩

/-- The single-authority comparison. -/
def ResolutionParams.singleAuthority : ResolutionParams :=
  { ResolutionParams.default with authoritiesRequired := 1 }

/-- One case the authority holds. -/
structure Case (D : Type) where
  caseId : String
  subject : D
  /-- When the case last changed. -/
  t : SimTime
  outcome : CaseOutcome
  /-- Distinct reporters in the evidence. -/
  reporters : ℕ
  /-- How many of those the authority trusts. -/
  trustedReporters : ℕ
  /-- How many authorities could resolve the subject. -/
  authoritiesResolved : ℕ
  deriving DecidableEq, Repr

/-- The windowed correlator and the identity-resolution stage. -/
structure TwoAuthorityResolution (D : Type) [LinearOrder D] where
  params : ResolutionParams
  inner : LegacyWindow D
  /-- Which authorities can resolve which subject, as the run declares it. -/
  linkage : OrdMap D (Finset Authority)
  /-- Correlated but unresolved subjects, with the instant they correlated. -/
  pending : OrdMap D SimTime
  revoked : Finset D
  /-- Subjects correlated while no authority had been declared for them. -/
  undeclared : Finset D
  /-- Every case, in the order they changed. -/
  cases : List (Case D)
  decisions : List (MaAction D)
  /-- How many reports were accepted into a case. -/
  ingested : ℕ
  /-- How many reports were thrown out before correlation. -/
  dismissed : ℕ
  /-- How many cases have been numbered. -/
  seq : ℕ

/-- The id of a case, its number padded to five digits. -/
def caseId (n : ℕ) : String :=
  "case_" ++ String.ofList (List.replicate (5 - (toString n).length) '0') ++ toString n

namespace TwoAuthorityResolution

variable {D : Type} [LinearOrder D]

/-- The pipeline at the given operating point. -/
def new (params : ResolutionParams) : TwoAuthorityResolution D :=
  ⟨params, LegacyWindow.new params.correlation, ∅, ∅, ∅, ∅, [], [], 0, 0, 0⟩

/-- An authority is declared to resolve a subject's pseudonym. -/
def declareLinkage (m : TwoAuthorityResolution D) (subject : D) (authority : Authority) :
    TwoAuthorityResolution D :=
  { m with
    linkage := m.linkage.insert subject (insert authority ((m.linkage[subject]?).getD ∅)) }

/-- How many authorities can resolve a subject. -/
def authoritiesResolving (m : TwoAuthorityResolution D) (subject : D) : ℕ :=
  ((m.linkage[subject]?).getD ∅).card

/-- Why a report would be thrown out at ingestion. -/
def ingestionRefusal (p : ResolutionParams) (r : MisbehaviourReport D) : Option CaseOutcome :=
  if !p.reverifyEvidence then none
  else if r.reasonCodes.isEmpty || r.detectorOutputs.isEmpty || r.evidenceMsgRefs.isEmpty then
    some .dismissedNoEvidence
  else if r.detectorScore < 1.0 then some .dismissedBelowThreshold
  else none

/-- A case reaches an outcome, and is recorded. -/
def recordCase (m : TwoAuthorityResolution D) (t : SimTime) (subject : D)
    (outcome : CaseOutcome) : MaRecord D × TwoAuthorityResolution D :=
  let (reporters, trusted) := m.inner.evidenceReporters subject
  let resolved := min (m.authoritiesResolving subject) u32Max
  let id := caseId (m.seq + 1)
  (.case t id subject outcome.asStr reporters trusted resolved
      (min m.params.authoritiesRequired u32Max),
    { m with
      seq := m.seq + 1
      cases := m.cases ++ [⟨id, subject, t, outcome, reporters, trusted, resolved⟩] })

/-- Decides what a correlated subject becomes: a revocation, or an open investigation. -/
def resolve (m : TwoAuthorityResolution D) (subject : D) (t : SimTime) :
    MaAction D × MaRecord D × TwoAuthorityResolution D :=
  let declared := m.authoritiesResolving subject
  let m := if declared = 0 then { m with undeclared := insert subject m.undeclared } else m
  let enough := if declared = 0 then m.params.assumeResolvableWhenUndeclared
    else decide (m.params.authoritiesRequired ≤ declared)
  if enough then
    let m := { m with
      revoked := insert subject m.revoked
      pending := m.pending.erase subject }
    let (c, m) := m.recordCase t subject .revoked
    (.revoke subject, c, m)
  else
    let m := { m with pending := m.pending.insert subject ((m.pending[subject]?).getD t) }
    let outcome := if declared = 0 then .unresolvedUndeclared else .unresolvedSingleAuthority
    let (c, m) := m.recordCase t subject outcome
    (.investigate subject, c, m)

/-- Records a decision. -/
def emitDecision (m : TwoAuthorityResolution D) (t : SimTime) (a : MaAction D) :
    MaRecord D × TwoAuthorityResolution D :=
  (.decision t a.subject a.asStr, { m with decisions := m.decisions ++ [a] })

/-- Resolves a correlated subject and records the decision. -/
def settle (m : TwoAuthorityResolution D) (subject : D) (t : SimTime) :
    MaAction D × List (MaRecord D) × TwoAuthorityResolution D :=
  let (a, c, m) := m.resolve subject t
  let (d, m) := m.emitDecision t a
  (a, [c, d], m)

/-- Settles in turn the subjects of a list that pass a test when their turn comes. -/
def sweep (test : TwoAuthorityResolution D → D → Bool) (t : SimTime) :
    List D → TwoAuthorityResolution D →
      List (MaAction D) × List (MaRecord D) × TwoAuthorityResolution D
  | [], m => ([], [], m)
  | s :: subjects, m =>
    if test m s then
      let (a, records, m) := m.settle s t
      let (out, records', m) := sweep test t subjects m
      (a :: out, records ++ records', m)
    else sweep test t subjects m

/-- One report. -/
def onReport (m : TwoAuthorityResolution D) (r : MisbehaviourReport D) :
    List (MaAction D) × List (MaRecord D) × TwoAuthorityResolution D :=
  let reportRecord := .report r.ingestTime r.reporter r.subjectCertDigest r.leadingReason
  match ingestionRefusal m.params r with
  | some refusal =>
    let m := { m with dismissed := m.dismissed + 1 }
    let (c, m) := m.recordCase r.ingestTime r.subjectCertDigest refusal
    let (d, m) := m.emitDecision r.ingestTime (.dismiss r.subjectCertDigest)
    ([.dismiss r.subjectCertDigest], [reportRecord, c, d], m)
  | none =>
    let m := { m with ingested := m.ingested + 1 }
    if r.subjectCertDigest ∈ m.revoked then
      ([], [reportRecord], { m with inner := (m.inner.ingest r).2 })
    else
      let correlated := (m.inner.ingest r).1.isSome
      let m := { m with inner := (m.inner.ingest r).2 }
      if !correlated then ([], [reportRecord], m)
      else
        let (a, records, m) := m.settle r.subjectCertDigest r.ingestTime
        ([a], reportRecord :: records, m)

/-- A correlated subject is not revoked yet. -/
def isNew (m : TwoAuthorityResolution D) (subject : D) : Bool := decide (subject ∉ m.revoked)

/-- Enough authorities have been declared for a subject. -/
def isDeclared (m : TwoAuthorityResolution D) (subject : D) : Bool :=
  decide (m.params.authoritiesRequired ≤ m.authoritiesResolving subject) &&
    decide (0 < m.authoritiesResolving subject)

/-- One tick: new correlations first, then the cases that were waiting on an authority. -/
def onTick (m : TwoAuthorityResolution D) (t : SimTime) :
    List (MaAction D) × List (MaRecord D) × TwoAuthorityResolution D :=
  let (correlated, inner) := m.inner.correlateAll t
  let (out, records, m) := sweep isNew t (correlated.map MaAction.subject) { m with inner := inner }
  let (out', records', m) := sweep isDeclared t m.pending.keys m
  (out ++ out', records ++ records', m)

end TwoAuthorityResolution

/-- What a run does to the pipeline. -/
inductive Op (D : Type)
  | onReport (r : MisbehaviourReport D)
  | onTick (t : SimTime)
  | declareLinkage (subject : D) (authority : Authority)

namespace TwoAuthorityResolution

variable {D : Type} [LinearOrder D]

/-- One operation: the actions returned, the records emitted and the pipeline after it. -/
def op (m : TwoAuthorityResolution D) :
    Op D → (List (MaAction D) × List (MaRecord D)) × TwoAuthorityResolution D
  | .onReport r => (((m.onReport r).1, (m.onReport r).2.1), (m.onReport r).2.2)
  | .onTick t => (((m.onTick t).1, (m.onTick t).2.1), (m.onTick t).2.2)
  | .declareLinkage s a => (([], []), m.declareLinkage s a)

/-- The pipeline after a list of operations. -/
def run (p : ResolutionParams) (ops : List (Op D)) : TwoAuthorityResolution D :=
  Mealy.run op (new p) ops

/-- The actions of one operation, and the pipeline after it. -/
def act (m : TwoAuthorityResolution D) (o : Op D) :
    List (MaAction D) × TwoAuthorityResolution D :=
  ((m.op o).1.1, (m.op o).2)

/-- The actions each of a list of operations returns. -/
def returns (p : ResolutionParams) (ops : List (Op D)) : List (List (MaAction D)) :=
  Mealy.outputs act (new p) ops

lemma run_concat (p : ResolutionParams) (ops : List (Op D)) (o : Op D) :
    run p (ops ++ [o]) = ((run p ops).op o).2 :=
  Mealy.run_concat op (new p) ops o

/-- A subject can be resolved: enough authorities were declared for it, or none was and that is
assumed to be enough. -/
def Enough (m : TwoAuthorityResolution D) (s : D) : Prop :=
  if m.authoritiesResolving s = 0 then m.params.assumeResolvableWhenUndeclared = true
  else m.params.authoritiesRequired ≤ m.authoritiesResolving s

instance (m : TwoAuthorityResolution D) (s : D) : Decidable (m.Enough s) :=
  inferInstanceAs (Decidable (ite _ _ _))

/-! ## One subject -/

/-- Nothing but the open cases and the revocations decides what becomes of a subject. -/
structure Same (m m' : TwoAuthorityResolution D) : Prop where
  params : m'.params = m.params
  inner : m'.inner = m.inner
  linkage : m'.linkage = m.linkage

lemma Same.authoritiesResolving {m m' : TwoAuthorityResolution D} (h : Same m m') (s : D) :
    m'.authoritiesResolving s = m.authoritiesResolving s := by
  rw [TwoAuthorityResolution.authoritiesResolving, h.linkage]
  rfl

lemma Same.enough {m m' : TwoAuthorityResolution D} (h : Same m m') (s : D) :
    m'.Enough s ↔ m.Enough s := by
  rw [Enough, Enough, h.authoritiesResolving, h.params]

/-- A subject that can be resolved is revoked. -/
lemma settle_of_enough {m : TwoAuthorityResolution D} {s : D} (t : SimTime) (h : m.Enough s) :
    (m.settle s t).1 = .revoke s ∧ Same m (m.settle s t).2.2 ∧
      (m.settle s t).2.2.revoked = insert s m.revoked ∧
      (m.settle s t).2.2.pending = m.pending.erase s := by
  unfold Enough at h
  unfold settle resolve
  by_cases hd : m.authoritiesResolving s = 0
  · rw [if_pos hd] at h
    simp only [hd, if_true, h]
    exact ⟨trivial, ⟨rfl, rfl, rfl⟩, rfl, rfl⟩
  · rw [if_neg hd] at h
    simp only [hd, if_false, h, decide_true, if_true]
    exact ⟨trivial, ⟨rfl, rfl, rfl⟩, rfl, rfl⟩

/-- A subject that cannot be resolved is investigated, and its case stays open. -/
lemma settle_of_not_enough {m : TwoAuthorityResolution D} {s : D} (t : SimTime)
    (h : ¬ m.Enough s) :
    (m.settle s t).1 = .investigate s ∧ Same m (m.settle s t).2.2 ∧
      (m.settle s t).2.2.revoked = m.revoked ∧
      (m.settle s t).2.2.pending = m.pending.insert s ((m.pending[s]?).getD t) := by
  unfold Enough at h
  unfold settle resolve
  by_cases hd : m.authoritiesResolving s = 0
  · rw [if_pos hd] at h
    simp only [hd, if_true, Bool.eq_false_iff.2 h, Bool.false_eq_true, if_false]
    exact ⟨trivial, ⟨rfl, rfl, rfl⟩, rfl, rfl⟩
  · rw [if_neg hd] at h
    simp only [hd, if_false, h, decide_false, Bool.false_eq_true]
    exact ⟨trivial, ⟨rfl, rfl, rfl⟩, rfl, rfl⟩

/-- What is decided about a subject. -/
def decided (m : TwoAuthorityResolution D) (s : D) : MaAction D :=
  if m.Enough s then .revoke s else .investigate s

/-! ## A list of subjects -/

/-- A list of distinct subjects is settled as each would be on its own: those that pass the test are
decided about in order, and become revoked or stay open. -/
lemma sweep_eq {test : TwoAuthorityResolution D → D → Bool}
    (htest : ∀ m m' s, Same m m' → (s ∈ m'.revoked ↔ s ∈ m.revoked) → test m' s = test m s)
    (t : SimTime) {subjects : List D} :
    subjects.Nodup → ∀ m : TwoAuthorityResolution D,
      (sweep test t subjects m).1 = (subjects.filter (test m)).map m.decided ∧
      Same m (sweep test t subjects m).2.2 ∧
      (∀ s, s ∈ (sweep test t subjects m).2.2.revoked ↔
        s ∈ m.revoked ∨ (s ∈ subjects ∧ test m s) ∧ m.Enough s) ∧
      ∀ s, (sweep test t subjects m).2.2.pending[s]?.isSome ↔
        (s ∈ subjects ∧ test m s) ∧ ¬ m.Enough s ∨
          ¬ (s ∈ subjects ∧ test m s) ∧ m.pending[s]?.isSome := by
  induction subjects with
  | nil =>
    intro _ m
    exact ⟨rfl, ⟨rfl, rfl, rfl⟩, fun s => by simp [sweep], fun s => by simp [sweep]⟩
  | cons a subjects ih =>
    intro hnd m
    obtain ⟨ha, hnd⟩ := List.nodup_cons.1 hnd
    by_cases hta : test m a = true
    · have hstep : sweep test t (a :: subjects) m =
          ((m.settle a t).1 :: (sweep test t subjects (m.settle a t).2.2).1,
            (m.settle a t).2.1 ++ (sweep test t subjects (m.settle a t).2.2).2.1,
            (sweep test t subjects (m.settle a t).2.2).2.2) := by
        rw [sweep, if_pos hta]
      obtain ⟨hout, hsame, hrev, hpend⟩ := ih hnd (m.settle a t).2.2
      -- what settling the first subject leaves, for it and for the others
      have hfirst : (m.settle a t).1 = m.decided a ∧ Same m (m.settle a t).2.2 ∧
          (∀ s, s ∈ (m.settle a t).2.2.revoked ↔ s ∈ m.revoked ∨ s = a ∧ m.Enough a) ∧
          ∀ s, (m.settle a t).2.2.pending[s]?.isSome ↔
            s = a ∧ ¬ m.Enough a ∨ s ≠ a ∧ m.pending[s]?.isSome := by
        by_cases hen : m.Enough a
        · obtain ⟨h1, h2, h3, h4⟩ := settle_of_enough t hen
          refine ⟨by rw [h1, decided, if_pos hen], h2, fun s => ?_, fun s => ?_⟩
          · rw [h3, Finset.mem_insert, and_iff_left hen, or_comm]
          · rw [h4, OrdMap.get_erase]
            by_cases hs : s = a
            · simp [hs, hen]
            · rw [if_neg fun h => hs h.symm]
              simp [hs]
        · obtain ⟨h1, h2, h3, h4⟩ := settle_of_not_enough t hen
          refine ⟨by rw [h1, decided, if_neg hen], h2, fun s => ?_, fun s => ?_⟩
          · simp [h3, hen]
          · rw [h4, OrdMap.get_insert]
            by_cases hs : s = a
            · simp [hs, hen]
            · rw [if_neg fun h => hs h.symm]
              simp [hs]
      obtain ⟨h1, h2, h3, h4⟩ := hfirst
      have hne : ∀ s ∈ subjects, s ≠ a := fun s hs h => ha (h ▸ hs)
      have htests : ∀ s ∈ subjects, test (m.settle a t).2.2 s = test m s := by
        intro s hs
        refine htest _ _ s h2 ?_
        rw [h3 s]
        exact ⟨fun h => h.resolve_right fun h => hne s hs h.1, .inl⟩
      rw [hstep]
      refine ⟨?_, ⟨hsame.params.trans h2.params, hsame.inner.trans h2.inner,
        hsame.linkage.trans h2.linkage⟩, fun s => ?_, fun s => ?_⟩
      · rw [List.filter_cons, if_pos hta, List.map_cons, h1, hout, List.filter_congr htests]
        refine congrArg _ (List.map_congr_left fun s _ => ?_)
        rw [decided, decided]
        simp only [h2.enough s]
      · rw [hrev s, h3 s, h2.enough s, List.mem_cons]
        by_cases hsa : s = a
        · subst hsa
          simp [ha, hta]
        · by_cases hs : s ∈ subjects
          · simp [hs, hsa, htests s hs]
          · simp [hs, hsa]
      · rw [hpend s, h4 s, h2.enough s, List.mem_cons]
        by_cases hsa : s = a
        · subst hsa
          simp [ha, hta]
        · by_cases hs : s ∈ subjects
          · simp [hs, hsa, htests s hs]
          · simp [hs, hsa]
    · have hstep : sweep test t (a :: subjects) m = sweep test t subjects m := by
        rw [sweep, if_neg hta]
      obtain ⟨hout, hsame, hrev, hpend⟩ := ih hnd m
      have hpass : ∀ s, (s ∈ a :: subjects ∧ test m s = true) ↔ s ∈ subjects ∧ test m s = true := by
        intro s
        rw [List.mem_cons]
        constructor
        · rintro ⟨rfl | hs, ht⟩
          · exact absurd ht hta
          · exact ⟨hs, ht⟩
        · exact fun ⟨hs, ht⟩ => ⟨.inr hs, ht⟩
      rw [hstep]
      refine ⟨?_, hsame, fun s => ?_, fun s => ?_⟩
      · rw [List.filter_cons, if_neg hta, hout]
      · rw [hrev s, hpass s]
      · rw [hpend s, hpass s]

end TwoAuthorityResolution

end V2xw.Threat
