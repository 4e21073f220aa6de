import Mathlib.Data.Finset.Card
import Mathlib.Data.List.Pairwise
import Mathlib.Data.List.TakeWhile
import Mathlib.Tactic.Tauto
import V2xw.Core.Time
import V2xw.Lib.Mealy
import V2xw.Lib.OrdMap

/-!
# The windowed correlator of the misbehaviour authority

The pipeline `threat/ma/legacy-window` of `crates/v2xw-threat/src/ma.rs`: reports are filed as
evidence about their subjects, and a subject is revoked once the evidence inside the sliding window
comes from enough trusted reporters, touches enough distinct seconds and spans enough time.

## Main definitions

* `MaParams` — the operating point.
* `LegacyWindow` — the pipeline, with `trusted`, `correlate`, `ingestEvidence`,
  `ingest`, `correlateAll`, `onReport` and `onTick`.
* `Call` — what a caller asks of the pipeline between two decisions.

## Main results

* `LegacyWindow.correlate_cases` — what a correlation can do.
* `LegacyWindow.correlate_action` — what a decision says about the evidence.
* `LegacyWindow.call_revoked` — which subjects a call marks.

## Implementation notes

Digests are hexadecimal strings in the source; here they are a linear order. The two spans of the
operating point are `f64` seconds there, read through `secs_to_ns` only; they are the nanoseconds
that function returns here. The two counters of the source are `u32` and wrap, as they do here.
`ctx.emit` appends to the records of the context.
-/

namespace V2xw.Threat

open V2xw.Core

/-- Nanoseconds in a second. -/
def nsPerS : ℕ := 1000000000

/-- The largest `u32`. -/
def u32Max : ℕ := 2 ^ 32 - 1

/-- What the authority decided to do about a subject. -/
inductive MaAction (D : Type)
  /-- Revoke the subject's credentials. -/
  | revoke (subject : D)
  | investigate (subject : D)
  /-- Dismiss the accumulated evidence. -/
  | dismiss (subject : D)
  deriving DecidableEq, Repr

namespace MaAction

variable {D : Type}

/-- The subject the action is about. -/
def subject : MaAction D → D
  | revoke subject => subject
  | investigate subject => subject
  | dismiss subject => subject

/-- The spelling of the decision on the channel `ma.decision`. -/
def asStr : MaAction D → String
  | revoke _ => "revoke"
  | investigate _ => "investigate"
  | dismiss _ => "dismiss"

end MaAction

/-- A misbehaviour report, with the fields the authority reads. -/
structure MisbehaviourReport (D : Type) where
  /-- When the report reached the authority. -/
  ingestTime : SimTime
  reporter : Option ℕ
  /-- The reporter's pseudonym certificate digest. -/
  reporterCertDigest : D
  /-- The subject's pseudonym certificate digest. -/
  subjectCertDigest : D
  /-- The checks that fired, highest score first. -/
  reasonCodes : List String
  detectorOutputs : List String
  /-- References to the evidence messages the report attaches. -/
  evidenceMsgRefs : List String
  detectorScore : Float

/-- The leading reason: the check the authority correlates on. -/
def MisbehaviourReport.leadingReason {D : Type} (r : MisbehaviourReport D) : Option String :=
  r.reasonCodes.head?

/-- A record of the channels `ma.report`, `ma.decision` and `ma.case`. -/
inductive MaRecord (D : Type)
  | report (t : SimTime) (reporter : Option ℕ) (subject : D) (detector : Option String)
  | decision (t : SimTime) (subject : D) (decision : String)
  | case (t : SimTime) (caseId : String) (subject : D) (outcome : String)
      (reporters trustedReporters authoritiesResolved authoritiesRequired : ℕ)
  deriving DecidableEq, Repr

/-- The correlation operating point. -/
structure MaParams where
  /-- Distinct trusted reporters required. -/
  reportThresholdK : ℕ
  /-- Distinct whole seconds the evidence must span. -/
  revokeMinSeconds : ℕ
  /-- How long the evidence must span. -/
  revokePersist : SimTime
  /-- The sliding window evidence must be sustained within. -/
  revokeWindow : SimTime
  /-- The trusted-reporter gate is on. -/
  defence : Bool
  /-- A reporter itself reported this many times or more is distrusted. -/
  reputationMax : UInt32
  /-- A reporter filing more than this many reports is distrusted. -/
  reportBudget : UInt32
  deriving DecidableEq, Repr

/-- The legacy operating point. -/
def MaParams.default : MaParams where
  reportThresholdK := 3
  revokeMinSeconds := 4
  revokePersist := 3 * nsPerS
  revokeWindow := 15 * nsPerS
  defence := true
  reputationMax := 40
  reportBudget := 30

/-- The evidence about one subject: dates and reporters. -/
abbrev Evidence (D : Type) := List (SimTime × D)

/-- The windowed correlator. -/
structure LegacyWindow (D : Type) [LinearOrder D] where
  params : MaParams
  /-- Per subject, the date and the reporter of each piece of evidence, oldest first. -/
  evidence : OrdMap D (Evidence D)
  /-- How many reports each reporter has filed. -/
  filedBy : OrdMap D UInt32
  /-- How many reports there have been about each subject. -/
  reported : OrdMap D UInt32
  revoked : Finset D
  /-- The certificates whose holder is trusted infrastructure. -/
  infrastructure : Finset D
  decisions : List (MaAction D)

namespace Evidence

variable {D : Type} [DecidableEq D]

/-- How many distinct reporters of the evidence are trusted. -/
def reporters (ev : Evidence D) (trusted : D → Bool) : ℕ :=
  ((ev.filter fun e => trusted e.2).map Prod.snd).toFinset.card

/-- How many distinct whole seconds the evidence touches. -/
def seconds (ev : Evidence D) : ℕ := (ev.map fun e => e.1 / nsPerS).toFinset.card

/-- The time from the first piece of evidence to the last. -/
def span (ev : Evidence D) : SimTime :=
  (ev.getLast?.map Prod.fst).getD 0 - (ev.head?.map Prod.fst).getD 0

/-- The three-part revocation condition. -/
def Meets (p : MaParams) (trusted : D → Bool) (ev : Evidence D) : Prop :=
  p.reportThresholdK ≤ ev.reporters trusted ∧ p.revokeMinSeconds ≤ ev.seconds ∧
    p.revokePersist ≤ ev.span

instance (p : MaParams) (trusted : D → Bool) (ev : Evidence D) :
    Decidable (Meets p trusted ev) :=
  inferInstanceAs (Decidable (_ ∧ _ ∧ _))

/-- Evidence dated `time` by `reporter` joins behind everything dated no later. -/
def file (ev : Evidence D) (time : SimTime) (reporter : D) : Evidence D :=
  (ev.takeWhile fun e => decide (e.1 ≤ time)) ++
    (time, reporter) :: ev.dropWhile fun e => decide (e.1 ≤ time)

/-- The span of evidence in the order of its dates is the largest distance between two pieces. -/
lemma le_span_iff {D : Type} {ev : Evidence D} (hne : ev ≠ [])
    (hs : ev.Pairwise fun a b => a.1 ≤ b.1) (d : SimTime) :
    d ≤ ev.span ↔ ∃ a ∈ ev, ∃ b ∈ ev, d ≤ b.1 - a.1 := by
  have hspan : ev.span = (ev.getLast hne).1 - (ev.head hne).1 := by
    rw [Evidence.span, List.getLast?_eq_some_getLast hne, List.head?_eq_some_head hne]
    rfl
  rw [hspan]
  constructor
  · exact fun h => ⟨_, List.head_mem hne, _, List.getLast_mem hne, h⟩
  · rintro ⟨a, ha, b, hb, h⟩
    have hfirst : (ev.head hne).1 ≤ a.1 := hs.rel_head_of_rel_head_head ha le_rfl
    have hlast : b.1 ≤ (ev.getLast hne).1 := hs.rel_getLast_of_rel_getLast_getLast hb le_rfl
    exact (h.trans (Nat.sub_le_sub_right hlast _)).trans (Nat.sub_le_sub_left hfirst _)

end Evidence

namespace LegacyWindow

variable {D : Type} [LinearOrder D]

/-- The pipeline at the given operating point. -/
def new (params : MaParams) : LegacyWindow D :=
  ⟨params, ∅, ∅, ∅, ∅, ∅, []⟩

/-- A certificate is declared trusted infrastructure. -/
def trustInfrastructure (w : LegacyWindow D) (digest : D) : LegacyWindow D :=
  { w with infrastructure := insert digest w.infrastructure }

/-- A reporter's evidence counts. -/
def trusted (w : LegacyWindow D) (reporter : D) : Bool :=
  if !w.params.defence then true
  else if reporter ∈ w.infrastructure then true
  else
    decide (reporter ∉ w.revoked) &&
      decide ((w.filedBy[reporter]?).getD 0 ≤ w.params.reportBudget) &&
      decide ((w.reported[reporter]?).getD 0 < w.params.reputationMax)

/-- The part of the evidence a correlation at `t` keeps. -/
def windowed (w : LegacyWindow D) (t : SimTime) (ev : Evidence D) : Evidence D :=
  ev.filter fun e => decide (t - w.params.revokeWindow ≤ e.1)

/-- Correlates the evidence about one subject at `t` and decides. -/
def correlate (w : LegacyWindow D) (subject : D) (t : SimTime) :
    Option (MaAction D) × LegacyWindow D :=
  if subject ∈ w.revoked then (none, w)
  else
    match w.evidence[subject]? with
    | none => (none, w)
    | some ev =>
      let ev := w.windowed t ev
      let w := { w with evidence := w.evidence.insert subject ev }
      if ev.isEmpty then (none, w)
      else if ev.Meets w.params w.trusted then
        (some (.revoke subject), { w with revoked := insert subject w.revoked })
      else (none, w)

/-- Counts a report and files it as evidence dated `time`. -/
def record (w : LegacyWindow D) (r : MisbehaviourReport D) (time : SimTime) : LegacyWindow D :=
  { w with
    filedBy := w.filedBy.insert r.reporterCertDigest
      ((w.filedBy[r.reporterCertDigest]?).getD 0 + 1)
    reported := w.reported.insert r.subjectCertDigest
      ((w.reported[r.subjectCertDigest]?).getD 0 + 1)
    evidence := w.evidence.insert r.subjectCertDigest
      (((w.evidence[r.subjectCertDigest]?).getD []).file time r.reporterCertDigest) }

/-- The date of the latest evidence about a subject, `time` where there is none. -/
def latest (w : LegacyWindow D) (subject : D) (time : SimTime) : SimTime :=
  (((w.evidence[subject]?).getD []).getLast?.map Prod.fst).getD time

/-- Records one report's evidence, dated `time`, and correlates it. -/
def ingestEvidence (w : LegacyWindow D) (r : MisbehaviourReport D) (time : SimTime) :
    Option (MaAction D) × LegacyWindow D :=
  let w := w.record r time
  w.correlate r.subjectCertDigest (w.latest r.subjectCertDigest time)

/-- Records one report's evidence, dated by its arrival, and correlates it. -/
def ingest (w : LegacyWindow D) (r : MisbehaviourReport D) :
    Option (MaAction D) × LegacyWindow D :=
  w.ingestEvidence r r.ingestTime

/-- How many distinct reporters the evidence about a subject holds, and how many are trusted. -/
def evidenceReporters (w : LegacyWindow D) (subject : D) : ℕ × ℕ :=
  match w.evidence[subject]? with
  | none => (0, 0)
  | some ev => (min (ev.reporters fun _ => true) u32Max, min (ev.reporters w.trusted) u32Max)

/-- Correlates the given subjects in turn at `t`. -/
def correlateEach (t : SimTime) : List D → LegacyWindow D → List (MaAction D) × LegacyWindow D
  | [], w => ([], w)
  | s :: subjects, w =>
    let (a, w) := w.correlate s t
    let (out, w) := correlateEach t subjects w
    (a.toList ++ out, w)

/-- Correlates every subject there is evidence about, in the order of their digests. -/
def correlateAll (w : LegacyWindow D) (t : SimTime) : List (MaAction D) × LegacyWindow D :=
  correlateEach t w.evidence.keys w

/-- Ingests one report and returns what it decided, with the records it emits. -/
def onReport (w : LegacyWindow D) (r : MisbehaviourReport D) :
    List (MaAction D) × List (MaRecord D) × LegacyWindow D :=
  let reportRecord := .report r.ingestTime r.reporter r.subjectCertDigest r.leadingReason
  match w.ingest r with
  | (none, w) => ([], [reportRecord], w)
  | (some a, w) =>
    ([a], [reportRecord, .decision r.ingestTime a.subject a.asStr],
      { w with decisions := w.decisions ++ [a] })

/-- Runs the windowed correlation at `t` and returns what it decided, with the records it emits. -/
def onTick (w : LegacyWindow D) (t : SimTime) :
    List (MaAction D) × List (MaRecord D) × LegacyWindow D :=
  let (out, w) := w.correlateAll t
  (out, out.map fun a => .decision t a.subject a.asStr, { w with decisions := w.decisions ++ out })

end LegacyWindow

/-- What a caller asks of the correlator: a report with the date its evidence carries, or a
correlation of everything. A report by `ingest` carries its arrival. -/
inductive Call (D : Type)
  | ingestEvidence (r : MisbehaviourReport D) (time : SimTime)
  | correlateAll (t : SimTime)

namespace LegacyWindow

variable {D : Type} [LinearOrder D]

/-- One call: the actions it returns and the pipeline after it. -/
def call (w : LegacyWindow D) : Call D → List (MaAction D) × LegacyWindow D
  | .ingestEvidence r time => ((w.ingestEvidence r time).1.toList, (w.ingestEvidence r time).2)
  | .correlateAll t => w.correlateAll t

/-- The pipeline after a list of calls. -/
def run (w : LegacyWindow D) (calls : List (Call D)) : LegacyWindow D := Mealy.run call w calls

/-- The actions each of a list of calls returns. -/
def returns (w : LegacyWindow D) (calls : List (Call D)) : List (List (MaAction D)) :=
  Mealy.outputs call w calls

lemma run_concat (w : LegacyWindow D) (calls : List (Call D)) (c : Call D) :
    w.run (calls ++ [c]) = ((w.run calls).call c).2 :=
  Mealy.run_concat call w calls c

lemma returns_concat (w : LegacyWindow D) (calls : List (Call D)) (c : Call D) :
    w.returns (calls ++ [c]) = w.returns calls ++ [((w.run calls).call c).1] :=
  Mealy.outputs_concat call w calls c

/-- The pipeline before the first report, with its trusted infrastructure declared. -/
def start (params : MaParams) (infrastructure : Finset D) : LegacyWindow D :=
  { new params with infrastructure := infrastructure }

/-! ## One correlation -/

/-- What a correlation can do: nothing, for a subject revoked or without evidence; prune; or prune
and revoke. -/
lemma correlate_cases (w : LegacyWindow D) (s : D) (t : SimTime) :
    ((s ∈ w.revoked ∨ w.evidence[s]? = none) ∧ w.correlate s t = (none, w)) ∨
    ∃ ev, s ∉ w.revoked ∧ w.evidence[s]? = some ev ∧
      ((w.windowed t ev = [] ∨ ¬ (w.windowed t ev).Meets w.params w.trusted) ∧
          w.correlate s t = (none, { w with evidence := w.evidence.insert s (w.windowed t ev) }) ∨
        (w.windowed t ev ≠ [] ∧ (w.windowed t ev).Meets w.params w.trusted) ∧
          w.correlate s t = (some (.revoke s),
            { w with
              evidence := w.evidence.insert s (w.windowed t ev)
              revoked := insert s w.revoked })) := by
  by_cases hs : s ∈ w.revoked
  · exact .inl ⟨.inl hs, by rw [correlate, if_pos hs]⟩
  cases hev : w.evidence[s]? with
  | none => exact .inl ⟨.inr rfl, by rw [correlate, if_neg hs, hev]⟩
  | some ev =>
    refine .inr ⟨ev, hs, rfl, ?_⟩
    rw [correlate, if_neg hs, hev]
    by_cases he : w.windowed t ev = []
    · exact .inl ⟨.inl he, by simp [he]⟩
    have hne : (w.windowed t ev).isEmpty = false := by
      simpa only [List.isEmpty_eq_false_iff] using he
    by_cases hm : (w.windowed t ev).Meets w.params w.trusted
    · refine .inr ⟨⟨he, hm⟩, ?_⟩
      simp only [hne, Bool.false_eq_true, if_false]
      exact if_pos hm
    · refine .inl ⟨.inr hm, ?_⟩
      simp only [hne, Bool.false_eq_true, if_false]
      exact if_neg hm

lemma correlate_action {w : LegacyWindow D} {s : D} {t : SimTime} {a : MaAction D}
    (h : (w.correlate s t).1 = some a) :
    a = .revoke s ∧ s ∉ w.revoked ∧ ∃ ev, w.evidence[s]? = some ev ∧
      (w.windowed t ev).Meets w.params w.trusted := by
  obtain ⟨-, he⟩ | ⟨ev, hs, hev, ⟨-, he⟩ | ⟨⟨-, hm⟩, he⟩⟩ := w.correlate_cases s t
  · rw [he] at h; cases h
  · rw [he] at h; cases h
  · rw [he] at h
    exact ⟨(Option.some.inj h).symm, hs, ev, hev, hm⟩

lemma correlate_revoked (w : LegacyWindow D) (s : D) (t : SimTime) :
    (w.correlate s t).1 = none ∧ (w.correlate s t).2.revoked = w.revoked ∨
    (w.correlate s t).1 = some (.revoke s) ∧ s ∉ w.revoked ∧
      (w.correlate s t).2.revoked = insert s w.revoked := by
  obtain ⟨-, he⟩ | ⟨ev, hs, -, ⟨-, he⟩ | ⟨-, he⟩⟩ := w.correlate_cases s t
  · exact .inl ⟨by rw [he], by rw [he]⟩
  · exact .inl ⟨by rw [he], by rw [he]⟩
  · exact .inr ⟨by rw [he], hs, by rw [he]⟩

/-- Correlating distinct subjects in turn decides about those it revokes, each once. -/
lemma correlateEach_revoked (t : SimTime) {subjects : List D} :
    subjects.Nodup → ∀ w : LegacyWindow D, ∃ found : List D, found.Sublist subjects ∧
      (correlateEach t subjects w).1 = found.map MaAction.revoke ∧ (∀ s ∈ found, s ∉ w.revoked) ∧
      ∀ s, s ∈ (correlateEach t subjects w).2.revoked ↔ s ∈ w.revoked ∨ s ∈ found := by
  induction subjects with
  | nil => exact fun _ w => ⟨[], .slnil, rfl, nofun, fun s => by simp [correlateEach]⟩
  | cons a subjects ih =>
    intro hnd w
    obtain ⟨ha, hnd⟩ := List.nodup_cons.1 hnd
    obtain ⟨found, hsub, hout, hnew, hrev⟩ := ih hnd (w.correlate a t).2
    have hstep : correlateEach t (a :: subjects) w =
        ((w.correlate a t).1.toList ++ (correlateEach t subjects (w.correlate a t).2).1,
          (correlateEach t subjects (w.correlate a t).2).2) := rfl
    rw [hstep]
    obtain ⟨hnone, hsame⟩ | ⟨hsome, hno, hins⟩ := w.correlate_revoked a t
    · rw [hsame] at hnew hrev
      refine ⟨found, hsub.cons a, ?_, hnew, hrev⟩
      rw [hnone, hout]
      rfl
    · rw [hins] at hnew hrev
      refine ⟨a :: found, hsub.cons_cons a, ?_, fun s hs => ?_, fun s => ?_⟩
      · rw [hsome, hout]
        rfl
      · rcases List.mem_cons.1 hs with rfl | hs
        · exact hno
        · exact fun hin => hnew s hs (Finset.mem_insert_of_mem hin)
      · rw [hrev s, Finset.mem_insert, List.mem_cons]
        tauto

lemma nodup_keys (w : LegacyWindow D) : w.evidence.keys.Nodup :=
  (OrdMap.pairwise_keys w.evidence).imp fun h => h.ne

/-- A call marks the subjects it decides about, and no others. -/
lemma call_revoked (w : LegacyWindow D) (c : Call D) (s : D) :
    s ∈ (w.call c).2.revoked ↔ s ∈ w.revoked ∨ .revoke s ∈ (w.call c).1 := by
  cases c with
  | ingestEvidence r time =>
    change s ∈ (w.ingestEvidence r time).2.revoked ↔
      s ∈ w.revoked ∨ .revoke s ∈ (w.ingestEvidence r time).1.toList
    obtain ⟨hnone, hsame⟩ | ⟨hsome, -, hins⟩ := (w.record r time).correlate_revoked
      r.subjectCertDigest ((w.record r time).latest r.subjectCertDigest time)
    · rw [ingestEvidence, hnone, hsame]
      exact (or_iff_left List.not_mem_nil).symm
    · rw [ingestEvidence, hsome, hins, Finset.mem_insert, Option.toList_some, List.mem_singleton,
        MaAction.revoke.injEq]
      exact or_comm
  | correlateAll t =>
    obtain ⟨found, -, hout, -, hrev⟩ := correlateEach_revoked t w.nodup_keys w
    change s ∈ (correlateEach t w.evidence.keys w).2.revoked ↔
      s ∈ w.revoked ∨ .revoke s ∈ (correlateEach t w.evidence.keys w).1
    rw [hrev s, hout, List.mem_map]
    simp only [MaAction.revoke.injEq, exists_eq_right]

lemma exists_call_of_mem_revoked {w : LegacyWindow D} {s : D} (hw : s ∉ w.revoked)
    (calls : List (Call D)) (h : s ∈ (w.run calls).revoked) :
    ∃ past c rest, calls = past ++ c :: rest ∧ .revoke s ∈ ((w.run past).call c).1 := by
  induction calls using List.reverseRecOn with
  | nil => exact absurd h hw
  | append_singleton calls c ih =>
    rw [run_concat, call_revoked] at h
    rcases h with h | h
    · obtain ⟨past, c', rest, rfl, hact⟩ := ih h
      exact ⟨past, c', rest ++ [c], by rw [List.append_assoc, List.cons_append], hact⟩
    · exact ⟨calls, c, [], rfl, h⟩

end LegacyWindow

end V2xw.Threat
