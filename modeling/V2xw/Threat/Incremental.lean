import V2xw.Threat.FullHistory

/-!
# Incremental windowing

The windowed correlator prunes the evidence about a subject at each correlation and decides from
what is left. This file relates it to the authority that keeps everything, and shows that the
relation survives each call while evidence comes in the order of its dates and no counter wraps.

## Main definitions

* `Call.clock`, `clock` — the latest instant a subject was correlated at.
* `Timely` — no report is dated before that instant.
* `Counted` — no counter of the run reaches `2 ^ 32`.
* `Incremental` — the correlator holds what the full history has in the window, and
  nothing is due.

## Main results

* `meets_evidence_iff` — the condition over the evidence and over the history.
* `Incremental.correlateAll`, `Incremental.report` — the two steps.
-/

namespace V2xw.Threat

open V2xw.Core

variable {D : Type} [LinearOrder D]

/-! ## Timely runs -/

/-- The latest instant a subject was correlated at, after one more call: its evidence is correlated
at each report about it and, once there is a report, whenever everything is correlated. -/
def Call.clock (s : D) (k : Option SimTime) : Call D → Option SimTime
  | .ingestEvidence r time => if r.subjectCertDigest = s then some (max (k.getD 0) time) else k
  | .correlateAll t => k.map fun k => max k t

/-- The latest instant a subject was correlated at in a run. -/
def clock (s : D) (calls : List (Call D)) : Option SimTime := calls.foldl (Call.clock s) none

/-- The dates of the reports about a subject do not decrease, and everything is correlated at no
instant beyond the next of them. -/
def Timely (calls : List (Call D)) : Prop :=
  ∀ past r time rest, calls = past ++ .ingestEvidence r time :: rest →
    ∀ k ∈ clock r.subjectCertDigest past, k ≤ time

/-- The reports of a run, in order. -/
def filedIn (calls : List (Call D)) : List (Filing D) := calls.filterMap Call.filing

/-- Nobody files `2 ^ 32` reports and nobody is reported that often. -/
def Counted (calls : List (Call D)) : Prop :=
  ∀ d : D, (filedIn calls).countP (fun f => f.reporter = d) < 2 ^ 32 ∧
    (filedIn calls).countP (fun f => f.subject = d) < 2 ^ 32

lemma Timely.left {calls calls' : List (Call D)} (h : Timely (calls ++ calls')) :
    Timely calls := by
  intro past r time rest he
  exact h past r time (rest ++ calls') (by rw [he, List.append_assoc, List.cons_append])

lemma Counted.left {calls calls' : List (Call D)} (h : Counted (calls ++ calls')) :
    Counted calls := by
  intro d
  obtain ⟨hr, hs⟩ := h d
  simp only [filedIn, List.filterMap_append, List.countP_append] at hr hs ⊢
  exact ⟨(Nat.le_add_right _ _).trans_lt hr, (Nat.le_add_right _ _).trans_lt hs⟩

/-! ## The condition -/

/-- The history about a subject from `cut` on, as the correlator keeps evidence. -/
def FullHistory.evidence (h : FullHistory D) (s : D) (cut : SimTime) : Evidence D :=
  (h.about s cut).map fun f => (f.time, f.reporter)

/-- The evidence from `cut` on meets the condition exactly when the history does. -/
lemma meets_evidence_iff {h : FullHistory D} {s : D} {cut : SimTime} {trusted : D → Bool}
    (hne : h.about s cut ≠ [])
    (hs : (h.about s cut).Pairwise fun f g => f.time ≤ g.time)
    (ht : ∀ r, trusted r = decide (h.Trusted r)) :
    (h.evidence s cut).Meets h.params trusted ↔ h.Meets s cut := by
  have hev : h.evidence s cut ≠ [] := by simpa only [FullHistory.evidence, ne_eq,
    List.map_eq_nil_iff]
  have hk : (h.evidence s cut).reporters trusted =
      (((h.about s cut).filter fun f => h.Trusted f.reporter).map
        Filing.reporter).toFinset.card := by
    unfold Evidence.reporters FullHistory.evidence
    rw [List.filter_map, List.map_map]
    simp only [Function.comp_def, ht]
  have hn : (h.evidence s cut).seconds =
      ((h.about s cut).map fun f => f.time / nsPerS).toFinset.card := by
    unfold Evidence.seconds FullHistory.evidence
    rw [List.map_map]
    rfl
  unfold Evidence.Meets FullHistory.Meets
  rw [hk, hn, Evidence.le_span_iff hev (List.pairwise_map.2 hs)]
  simp only [FullHistory.evidence, List.mem_map, exists_exists_and_eq_and]

/-! ## The relation -/

/-- The correlator and the full history agree on all but the evidence. -/
structure Alike (w : LegacyWindow D) (h : FullHistory D) : Prop where
  /-- Both run at one operating point. -/
  params : w.params = h.params
  /-- Both trust the same infrastructure. -/
  infrastructure : w.infrastructure = h.infrastructure
  /-- Both have revoked the same subjects. -/
  revoked : w.revoked = h.revoked
  /-- The reports filed are counted. -/
  filedBy : ∀ r, (w.filedBy[r]?).getD 0 = UInt32.ofNat (h.filedBy r)
  /-- The reports about a subject are counted. -/
  reported : ∀ s, (w.reported[s]?).getD 0 = UInt32.ofNat (h.reported s)

/-- The correlator holds, about each subject not yet revoked, what the full history has from the
window of the subject's clock on, and nothing in it is due. -/
structure Incremental (w : LegacyWindow D) (h : FullHistory D) (k : D → Option SimTime) : Prop
    extends Alike w h where
  /-- No report is dated beyond the clock of its subject. -/
  bounded : ∀ f ∈ h.filings, ∃ c, k f.subject = some c ∧ f.time ≤ c
  /-- The reports about a subject come in the order of their dates. -/
  sorted : ∀ s, (h.about s 0).Pairwise fun f g => f.time ≤ g.time
  /-- The evidence about a subject is the history from the window of its clock on. -/
  evidence : ∀ s, s ∉ h.revoked →
    w.evidence[s]? = (k s).map fun c => h.evidence s (c - h.params.revokeWindow)
  quiet : ∀ s, s ∉ h.revoked → ∀ c, k s = some c → ¬ h.Meets s (c - h.params.revokeWindow)

lemma FullHistory.about_of_le (h : FullHistory D) (s : D) {cut cut' : SimTime}
    (hc : cut ≤ cut') : h.about s cut' = (h.about s cut).filter fun f => cut' ≤ f.time := by
  unfold FullHistory.about
  rw [List.filter_filter]
  refine List.filter_congr fun f _ => ?_
  rw [← Bool.decide_and, decide_eq_decide]
  constructor
  · exact fun ⟨hs, ht⟩ => ⟨ht, hs, hc.trans ht⟩
  · exact fun ⟨ht, hs, _⟩ => ⟨hs, ht⟩

lemma windowed_evidence {w : LegacyWindow D} {h : FullHistory D} (hp : w.params = h.params)
    (s : D) (cut t : SimTime) :
    w.windowed t (h.evidence s cut) = h.evidence s (max cut (t - h.params.revokeWindow)) := by
  unfold LegacyWindow.windowed FullHistory.evidence
  rw [h.about_of_le s (le_max_left cut (t - h.params.revokeWindow)), List.filter_map, hp]
  congr 1
  refine List.filter_congr fun f hf => ?_
  simp only [FullHistory.about, List.mem_filter, decide_eq_true_eq] at hf
  simp only [Function.comp_apply, decide_eq_decide]
  rw [max_le_iff]
  exact ⟨fun ht => ⟨hf.2.2, ht⟩, And.right⟩

/-- While no counter has wrapped, both trust the same reporters. -/
lemma Alike.trusted {w : LegacyWindow D} {h : FullHistory D} (hi : Alike w h)
    (hc : ∀ d, h.filedBy d < 2 ^ 32 ∧ h.reported d < 2 ^ 32) (r : D) :
    w.trusted r = decide (h.Trusted r) := by
  obtain ⟨hf, hr⟩ := hc r
  have hfiled : (w.filedBy[r]?).getD 0 ≤ w.params.reportBudget ↔
      h.filedBy r ≤ h.params.reportBudget.toNat := by
    rw [hi.filedBy, hi.params, UInt32.le_iff_toNat_le, UInt32.toNat_ofNat_of_lt' hf]
  have hreported : (w.reported[r]?).getD 0 < w.params.reputationMax ↔
      h.reported r < h.params.reputationMax.toNat := by
    rw [hi.reported, hi.params, UInt32.lt_iff_toNat_lt, UInt32.toNat_ofNat_of_lt' hr]
  unfold LegacyWindow.trusted FullHistory.Trusted
  simp only [hfiled, hreported]
  rw [hi.params, hi.infrastructure, hi.revoked]
  by_cases hd : h.params.defence = true
  · by_cases hinf : r ∈ h.infrastructure
    · simp [hd, hinf]
    · simp [hd, hinf, Bool.and_assoc]
  · simp [hd]

namespace Incremental

variable {w : LegacyWindow D} {h : FullHistory D} {k : D → Option SimTime}

lemma sorted_about (hi : Incremental w h k) (s : D) (cut : SimTime) :
    (h.about s cut).Pairwise fun f g => f.time ≤ g.time := by
  rw [h.about_of_le s (Nat.zero_le cut)]
  exact (hi.sorted s).filter _

/-- A correlation decides nothing, and leaves the window of the later of the subject's clock and
its own instant. -/
lemma correlate (hi : Incremental w h k)
    (hc : ∀ d, h.filedBy d < 2 ^ 32 ∧ h.reported d < 2 ^ 32) (s : D) (t : SimTime) :
    (w.correlate s t).1 = none ∧
      Incremental (w.correlate s t).2 h (Function.update k s ((k s).map fun c => max c t)) := by
  have hbounded : ∀ f ∈ h.filings, ∃ c,
      Function.update k s ((k s).map fun c => max c t) f.subject = some c ∧ f.time ≤ c := by
    intro f hf
    obtain ⟨c, hk, hfc⟩ := hi.bounded f hf
    by_cases hs : f.subject = s
    · subst hs
      exact ⟨max c t, by rw [Function.update_self, hk]; rfl, hfc.trans (le_max_left _ _)⟩
    · exact ⟨c, by rw [Function.update_of_ne hs, hk], hfc⟩
  have hquiet : ∀ s', s' ∉ h.revoked → ∀ c,
      Function.update k s ((k s).map fun c => max c t) s' = some c →
        ¬ h.Meets s' (c - h.params.revokeWindow) := by
    intro s' hs' c hk hm
    by_cases hs : s' = s
    · subst hs
      rw [Function.update_self] at hk
      obtain ⟨c', hk', rfl⟩ := Option.map_eq_some_iff.1 hk
      exact hi.quiet s' hs' c' hk' (hm.anti (Nat.sub_le_sub_right (le_max_left _ _) _))
    · rw [Function.update_of_ne hs] at hk
      exact hi.quiet s' hs' c hk hm
  obtain ⟨hno, he⟩ | ⟨ev, hs, hev, hstep⟩ := w.correlate_cases s t
  · -- nothing to correlate: the clock of the subject stands, or its window no longer matters
    rw [he]
    refine ⟨rfl, ⟨⟨hi.params, hi.infrastructure, hi.revoked, hi.filedBy, hi.reported⟩, hbounded,
      hi.sorted, fun s' hs' => ?_, hquiet⟩⟩
    by_cases hss : s' = s
    · subst hss
      have hnone : w.evidence[s']? = none :=
        hno.resolve_left fun hin => hs' (hi.revoked ▸ hin)
      have hk : k s' = none := by
        have hev := hi.evidence s' hs'
        rw [hnone] at hev
        exact Option.map_eq_none_iff.1 hev.symm
      rw [Function.update_self, hk, hnone]
      rfl
    · rw [Function.update_of_ne hss]
      exact hi.evidence s' hs'
  · rw [hi.revoked] at hs
    have hev' := hi.evidence s hs
    rw [hev] at hev'
    obtain ⟨c, hk, hc'⟩ := Option.map_eq_some_iff.1 hev'.symm
    have hwin : w.windowed t ev = h.evidence s (max c t - h.params.revokeWindow) := by
      rw [← hc', windowed_evidence hi.params, Nat.sub_max_sub_right]
    obtain ⟨-, he⟩ | ⟨⟨hne, hm⟩, -⟩ := hstep
    · rw [he, hwin]
      refine ⟨rfl, ⟨⟨hi.params, hi.infrastructure, hi.revoked, hi.filedBy, hi.reported⟩, hbounded,
        hi.sorted, fun s' hs' => ?_, hquiet⟩⟩
      by_cases hss : s' = s
      · subst hss
        rw [Function.update_self, hk, OrdMap.get_insert, if_pos rfl]
        rfl
      · rw [Function.update_of_ne hss, OrdMap.get_insert, if_neg fun h => hss h.symm]
        exact hi.evidence s' hs'
    · -- the condition would have held before the window moved
      rw [hwin] at hm hne
      rw [hi.params] at hm
      have hne' : h.about s (max c t - h.params.revokeWindow) ≠ [] := fun h0 =>
        hne (by rw [FullHistory.evidence, h0]; rfl)
      have hmeets := (meets_evidence_iff hne' (hi.sorted_about s _) (hi.trusted hc)).1 hm
      exact absurd (hmeets.anti (Nat.sub_le_sub_right (le_max_left _ _) _)) (hi.quiet s hs c hk)

/-- Correlating subjects in turn decides nothing, and moves their clocks. -/
lemma correlateEach (t : SimTime) (subjects : List D) :
    ∀ {w : LegacyWindow D} {k : D → Option SimTime}, Incremental w h k →
      (∀ d, h.filedBy d < 2 ^ 32 ∧ h.reported d < 2 ^ 32) →
      (LegacyWindow.correlateEach t subjects w).1 = [] ∧
        ∃ k', Incremental (LegacyWindow.correlateEach t subjects w).2 h k' ∧
          ∀ s, k' s = if s ∈ subjects then (k s).map fun c => max c t else k s := by
  induction subjects with
  | nil => exact fun {w k} hi _ => ⟨rfl, k, hi, fun s => by rw [if_neg List.not_mem_nil]⟩
  | cons a subjects ih =>
    intro w k hi hc
    obtain ⟨hnone, hi'⟩ := hi.correlate hc a t
    obtain ⟨hnil, k', hk', he⟩ := ih hi' hc
    refine ⟨?_, k', hk', fun s => ?_⟩
    · rw [LegacyWindow.correlateEach]
      simp only [hnone, hnil, Option.toList_none, List.nil_append]
    · rw [he s]
      by_cases hs : s = a
      · -- moving a clock twice to one instant moves it once
        subst hs
        simp only [Function.update_self, List.mem_cons_self, if_true, Option.map_map]
        cases k s <;> simp
      · simp only [Function.update_of_ne hs, List.mem_cons, hs, false_or]

/-- Correlating everything decides nothing, and moves every clock that has started. -/
lemma correlateAll (hi : Incremental w h k)
    (hc : ∀ d, h.filedBy d < 2 ^ 32 ∧ h.reported d < 2 ^ 32) (t : SimTime) :
    (w.correlateAll t).1 = [] ∧
      Incremental (w.correlateAll t).2 h fun s => (k s).map fun c => max c t := by
  obtain ⟨hnil, k', hi', he⟩ := hi.correlateEach t w.evidence.keys hc
  refine ⟨hnil, ?_⟩
  have hk : ∀ s, s ∉ h.revoked → k' s = (k s).map fun c => max c t := by
    intro s hs
    rw [he s]
    split_ifs with hmem
    · rfl
    · cases hk : k s with
      | none => rfl
      | some c =>
        refine absurd (OrdMap.mem_keys.2 ⟨h.evidence s (c - h.params.revokeWindow), ?_⟩) hmem
        rw [hi.evidence s hs, hk]
        rfl
  refine ⟨hi'.toAlike, fun f hf => ?_, hi'.sorted, fun s hs => ?_, fun s hs => ?_⟩
  · obtain ⟨c, hk, hfc⟩ := hi.bounded f hf
    exact ⟨max c t, by rw [hk]; rfl, hfc.trans (le_max_left _ _)⟩
  · rw [← hk s hs]
    exact hi'.evidence s hs
  · rw [← hk s hs]
    exact hi'.quiet s hs

lemma about_of_clock_none (hi : Incremental w h k) {s : D} (hk : k s = none) (cut : SimTime) :
    h.about s cut = [] := by
  refine List.filter_eq_nil_iff.2 fun f hf hfs => ?_
  obtain ⟨rfl, -⟩ := of_decide_eq_true hfs
  obtain ⟨c, hc, -⟩ := hi.bounded f hf
  rw [hk] at hc
  cases hc

lemma time_le (hi : Incremental w h k) {f : Filing D} {s : D} {cut : SimTime}
    (hf : f ∈ h.about s cut) : ∃ c, k s = some c ∧ f.time ≤ c := by
  simp only [FullHistory.about, List.mem_filter, decide_eq_true_eq] at hf
  obtain ⟨hf, rfl, -⟩ := hf
  exact hi.bounded f hf

end Incremental

lemma Evidence.file_of_le {ev : Evidence D} {time : SimTime} (reporter : D)
    (h : ∀ e ∈ ev, e.1 ≤ time) : ev.file time reporter = ev ++ [(time, reporter)] := by
  have hall : ∀ e ∈ ev, (fun e : SimTime × D => decide (e.1 ≤ time)) e = true := fun e he =>
    decide_eq_true (h e he)
  rw [Evidence.file, List.takeWhile_eq_self_iff.2 hall, List.dropWhile_eq_nil_iff.2 hall]

lemma FullHistory.filedBy_file (h : FullHistory D) (f : Filing D) (r : D) :
    (h.file f).filedBy r = h.filedBy r + if f.reporter = r then 1 else 0 := by
  unfold FullHistory.filedBy FullHistory.file
  rw [List.countP_append, List.countP_singleton]
  simp only [decide_eq_true_eq]

lemma FullHistory.reported_file (h : FullHistory D) (f : Filing D) (s : D) :
    (h.file f).reported s = h.reported s + if f.subject = s then 1 else 0 := by
  unfold FullHistory.reported FullHistory.file
  rw [List.countP_append, List.countP_singleton]
  simp only [decide_eq_true_eq]

/-- The filing of a report. -/
abbrev MisbehaviourReport.filing (r : MisbehaviourReport D) (time : SimTime) : Filing D :=
  ⟨r.subjectCertDigest, r.reporterCertDigest, time⟩

/-- Filing a report keeps the correlator and the full history alike. -/
lemma Alike.record {w : LegacyWindow D} {h : FullHistory D} (hi : Alike w h)
    (r : MisbehaviourReport D) (time : SimTime) :
    Alike (w.record r time) (h.file (r.filing time)) := by
  refine ⟨hi.params, hi.infrastructure, hi.revoked, fun d => ?_, fun d => ?_⟩
  · rw [h.filedBy_file, LegacyWindow.record]
    dsimp only
    rw [OrdMap.get_insert]
    split_ifs with hd
    · subst hd
      rw [Option.getD_some, hi.filedBy, UInt32.ofNat_add]
      rfl
    · rw [hi.filedBy, Nat.add_zero]
  · rw [h.reported_file, LegacyWindow.record]
    dsimp only
    rw [OrdMap.get_insert]
    split_ifs with hd
    · subst hd
      rw [Option.getD_some, hi.reported, UInt32.ofNat_add]
      rfl
    · rw [hi.reported, Nat.add_zero]

namespace Incremental

variable {w : LegacyWindow D} {h : FullHistory D} {k : D → Option SimTime}

/-- Filing a report appends it to the evidence about its subject. -/
lemma evidence_record (hi : Incremental w h k) {r : MisbehaviourReport D} {time : SimTime}
    (hs : r.subjectCertDigest ∉ h.revoked) (hk : ∀ c ∈ k r.subjectCertDigest, c ≤ time) :
    (w.record r time).latest r.subjectCertDigest time = time ∧
      ∃ cut, cut ≤ time - h.params.revokeWindow ∧
        (w.record r time).evidence[r.subjectCertDigest]? =
          some ((h.file (r.filing time)).evidence r.subjectCertDigest cut) := by
  have happend : ∀ cut, cut ≤ time →
      (h.file (r.filing time)).evidence r.subjectCertDigest cut =
        h.evidence r.subjectCertDigest cut ++ [(time, r.reporterCertDigest)] := by
    intro cut hcut
    rw [FullHistory.evidence, FullHistory.evidence, h.about_file, if_pos ⟨rfl, hcut⟩,
      List.map_append]
    rfl
  have hfile : ∀ cut, (h.evidence r.subjectCertDigest cut).file time r.reporterCertDigest =
      h.evidence r.subjectCertDigest cut ++ [(time, r.reporterCertDigest)] := by
    intro cut
    refine Evidence.file_of_le _ fun e he => ?_
    obtain ⟨g, hg, rfl⟩ := List.mem_map.1 he
    obtain ⟨c, hc, hgc⟩ := hi.time_le hg
    exact hgc.trans (hk c hc)
  -- what was held is the history from some cut, the cut at 0 where nothing was held
  have hheld : ∃ cut, cut ≤ time - h.params.revokeWindow ∧
      (w.evidence[r.subjectCertDigest]?).getD [] = h.evidence r.subjectCertDigest cut := by
    have hev := hi.evidence r.subjectCertDigest hs
    cases hc : k r.subjectCertDigest with
    | none =>
      refine ⟨0, Nat.zero_le _, ?_⟩
      rw [hev, hc, FullHistory.evidence, hi.about_of_clock_none hc]
      rfl
    | some c =>
      refine ⟨c - h.params.revokeWindow, Nat.sub_le_sub_right (hk c hc) _, ?_⟩
      rw [hev, hc]
      rfl
  obtain ⟨cut, hcut, hheld⟩ := hheld
  have hev : (w.record r time).evidence[r.subjectCertDigest]? =
      some (h.evidence r.subjectCertDigest cut ++ [(time, r.reporterCertDigest)]) := by
    rw [LegacyWindow.record]
    dsimp only
    rw [OrdMap.get_insert, if_pos rfl, hheld, hfile]
  refine ⟨?_, cut, hcut, ?_⟩
  · rw [LegacyWindow.latest, hev]
    simp
  · rw [hev, happend cut (hcut.trans (Nat.sub_le _ _))]

/-- A report decides what the full history decides, from the evidence the full history has in the
window of the report. -/
lemma report (hi : Incremental w h k) {r : MisbehaviourReport D} {time : SimTime}
    (hc : ∀ d, (h.file (r.filing time)).filedBy d < 2 ^ 32 ∧
      (h.file (r.filing time)).reported d < 2 ^ 32)
    (hk : ∀ c ∈ k r.subjectCertDigest, c ≤ time) :
    (w.ingestEvidence r time).1.toList = (h.report (r.filing time)).1 ∧
      Incremental (w.ingestEvidence r time).2 (h.report (r.filing time)).2
        (Function.update k r.subjectCertDigest (some time)) ∧
      (r.subjectCertDigest ∉ h.revoked →
        (w.ingestEvidence r time).2.evidence[r.subjectCertDigest]? =
          some ((h.file (r.filing time)).evidence r.subjectCertDigest
            (time - h.params.revokeWindow))) := by
  set s := r.subjectCertDigest with hsdef
  set f := r.filing time with hf
  have halike : Alike (w.record r time) (h.file f) := hi.toAlike.record r time
  have hbounded : ∀ g ∈ (h.file f).filings, ∃ c,
      Function.update k s (some time) g.subject = some c ∧ g.time ≤ c := by
    intro g hg
    by_cases hgs : g.subject = s
    · rw [hgs, Function.update_self]
      refine ⟨time, rfl, ?_⟩
      rcases List.mem_append.1 hg with hg | hg
      · obtain ⟨c, hck, hgc⟩ := hi.bounded g hg
        exact hgc.trans (hk c (hgs ▸ hck))
      · rw [List.mem_singleton.1 hg]
    · rw [Function.update_of_ne hgs]
      rcases List.mem_append.1 hg with hg | hg
      · exact hi.bounded g hg
      · rw [List.mem_singleton.1 hg] at hgs
        exact absurd rfl hgs
  have hsorted : ∀ s', ((h.file f).about s' 0).Pairwise fun g g' => g.time ≤ g'.time := by
    intro s'
    rw [h.about_file]
    split_ifs with hs'
    · refine List.pairwise_append.2 ⟨hi.sorted s',
      List.pairwise_singleton _ _, fun g hg g' hg' => ?_⟩
      obtain ⟨c, hck, hgc⟩ := hi.time_le hg
      rw [List.mem_singleton.1 hg']
      exact hgc.trans (hk c (show k s = some c by rw [← hck, ← hs'.1]))
    · rw [List.append_nil]
      exact hi.sorted s'
  have hother : ∀ s', s' ≠ s → ∀ cut, (h.file f).evidence s' cut = h.evidence s' cut := by
    intro s' hs' cut
    rw [FullHistory.evidence, h.about_file, if_neg fun h => hs' h.1.symm, List.append_nil]
    rfl
  have hkeep : ∀ s', s' ≠ s → (w.record r time).evidence[s']? = w.evidence[s']? := by
    intro s' hs'
    rw [LegacyWindow.record]
    dsimp only
    rw [OrdMap.get_insert, if_neg fun h => hs' h.symm]
  have hnext : ∀ s', s' ≠ s → s' ∉ h.revoked →
      (w.record r time).evidence[s']? = (Function.update k s (some time) s').map fun c =>
        (h.file f).evidence s' (c - h.params.revokeWindow) := by
    intro s' hss hs'
    rw [hkeep s' hss, hi.evidence s' hs', Function.update_of_ne hss]
    simp only [hother s' hss]
  have hcalm : ∀ s', s' ≠ s → s' ∉ h.revoked → ∀ c, Function.update k s (some time) s' = some c →
      ¬ (h.file f).Meets s' (c - h.params.revokeWindow) := by
    intro s' hss hs' c hkc hm
    rw [Function.update_of_ne hss] at hkc
    exact hi.quiet s' hs' c hkc (hm.of_file fun h => hss h.symm)
  by_cases hs : s ∈ h.revoked
  · -- the evidence about a revoked subject is kept, and no longer looked at
    have hne : ∀ s', s' ∉ h.revoked → s' ≠ s := fun s' hs' h => hs' (h ▸ hs)
    have hcorr : w.ingestEvidence r time = (none, w.record r time) := by
      rw [LegacyWindow.ingestEvidence, LegacyWindow.correlate, if_pos (halike.revoked ▸ hs)]
    have hrep : h.report f = ([], h.file f) := if_neg fun hno => hno.1 hs
    rw [hcorr, hrep]
    exact ⟨rfl, ⟨halike, hbounded, hsorted, fun s' hs' => hnext s' (hne s' hs') hs',
      fun s' hs' => hcalm s' (hne s' hs') hs'⟩, fun hno => absurd hs hno⟩
  obtain ⟨hlatest, cut, hcut, hev⟩ := hi.evidence_record hs hk
  have hwin : (w.record r time).windowed time ((h.file f).evidence s cut) =
      (h.file f).evidence s (time - h.params.revokeWindow) := by
    rw [windowed_evidence halike.params]
    exact congrArg _ (max_eq_right hcut)
  have habout : (h.file f).about s (time - h.params.revokeWindow) ≠ [] := by
    rw [h.about_file, if_pos ⟨rfl, Nat.sub_le _ _⟩]
    exact List.append_ne_nil_of_right_ne_nil _ (List.cons_ne_nil _ _)
  have hmeets : ((h.file f).evidence s (time - h.params.revokeWindow)).Meets
      (w.record r time).params (w.record r time).trusted ↔ (h.file f).Due s time := by
    rw [halike.params]
    refine meets_evidence_iff habout ?_ (halike.trusted hc)
    rw [(h.file f).about_of_le s (Nat.zero_le _)]
    exact (hsorted s).filter _
  have hget : ∀ m : OrdMap D (Evidence D), ∀ e, (m.insert s e)[s]? = some e := fun m e => by
    rw [OrdMap.get_insert, if_pos rfl]
  have hgetne : ∀ m : OrdMap D (Evidence D), ∀ e s', s' ≠ s → (m.insert s e)[s']? = m[s']? :=
    fun m e s' hss => by rw [OrdMap.get_insert, if_neg fun h => hss h.symm]
  have hing : w.ingestEvidence r time = (w.record r time).correlate s time := by
    rw [LegacyWindow.ingestEvidence, hlatest]
  rw [hing]
  obtain ⟨hno, -⟩ | ⟨ev, -, hev', hstep⟩ := (w.record r time).correlate_cases s time
  · rcases hno with hno | hno
    · exact absurd (halike.revoked ▸ hno) hs
    · rw [hev] at hno
      cases hno
  obtain rfl : (h.file f).evidence s cut = ev := Option.some.inj (hev.symm.trans hev')
  rw [hwin, hmeets] at hstep
  obtain ⟨hno, he⟩ | ⟨⟨-, hdue⟩, he⟩ := hstep
  · have hnot : ¬ (h.file f).Due s time :=
      hno.resolve_left fun h0 => habout (List.map_eq_nil_iff.1 h0)
    have hrep : h.report f = ([], h.file f) := if_neg fun hd => hnot hd.2
    rw [he, hrep]
    refine ⟨rfl, ⟨⟨halike.params, halike.infrastructure, halike.revoked, halike.filedBy,
      halike.reported⟩, hbounded, hsorted, fun s' hs' => ?_, fun s' hs' => ?_⟩,
      fun _ => hget _ _⟩
    · by_cases hss : s' = s
      · subst hss
        rw [Function.update_self]
        exact hget _ _
      · exact (hgetne _ _ s' hss).trans (hnext s' hss hs')
    · by_cases hss : s' = s
      · subst hss
        intro c hkc
        rw [Function.update_self] at hkc
        rw [← Option.some.inj hkc]
        exact hnot
      · exact hcalm s' hss hs'
  · have hrep : h.report f =
        ([.revoke s], { h.file f with revoked := insert s h.revoked }) := if_pos ⟨hs, hdue⟩
    rw [he, hrep]
    have hout : ∀ s', s' ∉ insert s h.revoked → s' ≠ s ∧ s' ∉ h.revoked := fun s' hs' =>
      ⟨fun h => hs' (h ▸ Finset.mem_insert_self _ _), fun h => hs' (Finset.mem_insert_of_mem h)⟩
    refine ⟨rfl, ⟨⟨halike.params, halike.infrastructure, ?_, halike.filedBy, halike.reported⟩,
      hbounded, hsorted, fun s' hs' => ?_, fun s' hs' c hkc hm => ?_⟩, fun _ => hget _ _⟩
    · exact congrArg (insert s) halike.revoked
    · obtain ⟨hss, hs'⟩ := hout s' hs'
      exact (hgetne _ _ s' hss).trans (hnext s' hss hs')
    · obtain ⟨hss, hs'⟩ := hout s' hs'
      exact hcalm s' hss hs' c hkc hm.of_revoke

end Incremental

end V2xw.Threat
