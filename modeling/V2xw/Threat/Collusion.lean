import V2xw.Threat.Window

/-!
# The collusion gate

When the windowed correlator decides, enough distinct reporters that it trusts at that moment have
each filed a report about the subject dated inside the window. The seconds and the span of the
condition are counted over everything in the window, whoever filed it.

## Main definitions

* `LegacyWindow.moments` — the correlations a call makes, with the state each is made in.
* `Held` — all the evidence about a subject was reported about it.

## Main results

* `LegacyWindow.revoke_needs_trusted` — what a decision needs.
* `LegacyWindow.revoke_distrusted_second` — a decision the trusted evidence alone does
  not carry.
-/

namespace V2xw.Threat

open V2xw.Core

variable {D : Type} [LinearOrder D]

/-! ## The correlations of a call -/

namespace LegacyWindow

/-- The correlations of the given subjects in turn at `t`. -/
def momentsEach (t : SimTime) : List D → LegacyWindow D → List (LegacyWindow D × D × SimTime)
  | [], _ => []
  | s :: subjects, w => (w, s, t) :: momentsEach t subjects (w.correlate s t).2

/-- The correlations a call makes: the state each is made in, its subject and its instant. -/
def moments (w : LegacyWindow D) : Call D → List (LegacyWindow D × D × SimTime)
  | .ingestEvidence r time =>
    [(w.record r time, r.subjectCertDigest, (w.record r time).latest r.subjectCertDigest time)]
  | .correlateAll t => momentsEach t w.evidence.keys w

end LegacyWindow

/-! ## Where evidence comes from -/

/-- The correlator runs at its operating point with its infrastructure, and all the evidence about
a subject was reported about it, dated as it is and by the reporter it names. -/
structure Held (p : MaParams) (infrastructure : Finset D) (calls : List (Call D))
    (w : LegacyWindow D) : Prop where
  params : w.params = p
  infrastructure : w.infrastructure = infrastructure
  evidence : ∀ s ev, w.evidence[s]? = some ev → ∀ e ∈ ev, ∃ r,
    Call.ingestEvidence r e.1 ∈ calls ∧ r.subjectCertDigest = s ∧ r.reporterCertDigest = e.2

namespace Held

variable {p : MaParams} {infrastructure : Finset D} {calls : List (Call D)} {w : LegacyWindow D}

lemma mono (h : Held p infrastructure calls w) (c : Call D) :
    Held p infrastructure (calls ++ [c]) w := by
  refine ⟨h.params, h.infrastructure, fun s ev hev e he => ?_⟩
  obtain ⟨r, hr, hsub, hrep⟩ := h.evidence s ev hev e he
  exact ⟨r, List.mem_append_left _ hr, hsub, hrep⟩

/-- A correlation adds no evidence. -/
lemma correlate (h : Held p infrastructure calls w) (s : D) (t : SimTime) :
    Held p infrastructure calls (w.correlate s t).2 := by
  have hsub : ∀ ev, w.evidence[s]? = some ev → ∀ s' ev',
      (w.evidence.insert s (w.windowed t ev))[s']? = some ev' → ∀ e ∈ ev', ∃ r,
        Call.ingestEvidence r e.1 ∈ calls ∧ r.subjectCertDigest = s' ∧
          r.reporterCertDigest = e.2 := by
    intro ev hev s' ev' hev' e he
    rw [OrdMap.get_insert] at hev'
    split_ifs at hev' with hs
    · subst hs
      cases hev'
      exact h.evidence s ev hev e (List.mem_of_mem_filter he)
    · exact h.evidence s' ev' hev' e he
  obtain ⟨-, he⟩ | ⟨ev, -, hev, ⟨-, he⟩ | ⟨-, he⟩⟩ := w.correlate_cases s t
  · rw [he]
    exact h
  · rw [he]
    exact ⟨h.params, h.infrastructure, hsub ev hev⟩
  · rw [he]
    exact ⟨h.params, h.infrastructure, hsub ev hev⟩

/-- A report adds its own evidence. -/
lemma record (h : Held p infrastructure calls w) (r : MisbehaviourReport D) (time : SimTime) :
    Held p infrastructure (calls ++ [.ingestEvidence r time]) (w.record r time) := by
  refine ⟨h.params, h.infrastructure, fun s ev hev e he => ?_⟩
  have hold := (h.mono (.ingestEvidence r time)).evidence
  change (w.evidence.insert r.subjectCertDigest _)[s]? = some ev at hev
  rw [OrdMap.get_insert] at hev
  split_ifs at hev with hs
  · subst hs
    cases hev
    have hmem : e ∈ (w.evidence[r.subjectCertDigest]?).getD [] ∨
        e = (time, r.reporterCertDigest) := by
      rw [Evidence.file, List.mem_append, List.mem_cons] at he
      rcases he with he | rfl | he
      · exact .inl ((List.takeWhile_prefix _).mem he)
      · exact .inr rfl
      · exact .inl ((List.dropWhile_suffix _).mem he)
    rcases hmem with hmem | rfl
    · cases hev : w.evidence[r.subjectCertDigest]? with
      | none =>
        rw [hev] at hmem
        cases hmem
      | some ev =>
        rw [hev] at hmem
        exact hold _ ev hev e hmem
    · exact ⟨r, List.mem_append_right _ (List.mem_singleton_self _), rfl, rfl⟩
  · exact hold s ev hev e he

/-- The states of the correlations in turn hold what was reported. -/
lemma momentsEach (t : SimTime) (subjects : List D) :
    ∀ {w : LegacyWindow D}, Held p infrastructure calls w →
      (∀ m ∈ LegacyWindow.momentsEach t subjects w, Held p infrastructure calls m.1) ∧
        Held p infrastructure calls (LegacyWindow.correlateEach t subjects w).2 := by
  induction subjects with
  | nil => exact fun h => ⟨nofun, h⟩
  | cons s subjects ih =>
    intro w h
    obtain ⟨hall, hlast⟩ := ih (h.correlate s t)
    refine ⟨fun m hm => ?_, hlast⟩
    rcases List.mem_cons.1 hm with rfl | hm
    · exact h
    · exact hall m hm

lemma call (h : Held p infrastructure calls w) (c : Call D) :
    (∀ m ∈ w.moments c, Held p infrastructure (calls ++ [c]) m.1) ∧
      Held p infrastructure (calls ++ [c]) (w.call c).2 := by
  cases c with
  | correlateAll t => exact momentsEach t _ (h.mono _)
  | ingestEvidence r time =>
    refine ⟨fun m hm => ?_, (h.record r time).correlate _ _⟩
    rw [List.mem_singleton.1 hm]
    exact h.record r time

lemma run (p : MaParams) (infrastructure : Finset D) (calls : List (Call D)) :
    Held p infrastructure calls ((LegacyWindow.start p infrastructure).run calls) := by
  induction calls using List.reverseRecOn with
  | nil =>
    refine ⟨rfl, rfl, fun s ev hev => ?_⟩
    rw [show ((LegacyWindow.start p infrastructure).run []).evidence[s]? = none from
      Std.ExtTreeMap.getElem?_empty] at hev
    cases hev
  | append_singleton calls c ih =>
    rw [LegacyWindow.run_concat]
    exact (ih.call c).2

end Held

/-! ## The gate -/

/-- Whenever a correlation decides in a run with the gate on, it revokes its subject, and there are
enough distinct reporters, each of them infrastructure or else not revoked, within the budget and
below the cap at that moment, with a report about the subject inside the window. The distinct
seconds and the span are those of the reports about the subject inside the window. -/
theorem LegacyWindow.revoke_needs_trusted (p : MaParams) (hd : p.defence = true)
    (infrastructure : Finset D) (calls : List (Call D)) (c : Call D)
    {m : LegacyWindow D × D × SimTime}
    (hm : m ∈ ((start p infrastructure).run calls).moments c) {a : MaAction D}
    (ha : (m.1.correlate m.2.1 m.2.2).1 = some a) :
    a = .revoke m.2.1 ∧ ∃ ev : Evidence D,
      (∀ e ∈ ev, m.2.2 - p.revokeWindow ≤ e.1 ∧ ∃ r, Call.ingestEvidence r e.1 ∈ calls ++ [c] ∧
        r.subjectCertDigest = m.2.1 ∧ r.reporterCertDigest = e.2) ∧
      (∃ reporters : Finset D, p.reportThresholdK ≤ reporters.card ∧ ∀ x ∈ reporters,
        (x ∈ infrastructure ∨ x ∉ m.1.revoked ∧ (m.1.filedBy[x]?).getD 0 ≤ p.reportBudget ∧
          (m.1.reported[x]?).getD 0 < p.reputationMax) ∧ ∃ e ∈ ev, e.2 = x) ∧
      p.revokeMinSeconds ≤ ev.seconds ∧ p.revokePersist ≤ ev.span := by
  have hheld := ((Held.run p infrastructure calls).call c).1 m hm
  obtain ⟨rfl, -, ev, hev, hk, hn, hspan⟩ := correlate_action ha
  rw [hheld.params] at hk hn hspan
  refine ⟨rfl, m.1.windowed m.2.2 ev, fun e he => ?_, ⟨_, hk, fun x hx => ?_⟩, hn, hspan⟩
  · obtain ⟨hmem, hwin⟩ := List.mem_filter.1 he
    rw [hheld.params] at hwin
    exact ⟨of_decide_eq_true hwin, hheld.evidence _ ev hev e hmem⟩
  · simp only [List.mem_toFinset, List.mem_map, List.mem_filter] at hx
    obtain ⟨e, ⟨he, ht⟩, rfl⟩ := hx
    refine ⟨?_, e, he, rfl⟩
    rw [trusted, hheld.params, hheld.infrastructure] at ht
    by_cases hinf : e.2 ∈ infrastructure
    · exact .inl hinf
    · simp only [hd, Bool.not_true, Bool.false_eq_true, if_false, hinf, Bool.and_eq_true,
        decide_eq_true_eq] at ht
      exact .inr ⟨ht.1.1, ht.1.2, ht.2⟩

/-- A report by `reporter` about `subject`. -/
def bareReport (reporter subject : D) : MisbehaviourReport D where
  ingestTime := 0
  reporter := none
  reporterCertDigest := reporter
  subjectCertDigest := subject
  reasonCodes := []
  detectorOutputs := []
  evidenceMsgRefs := []
  detectorScore := 0

/-- An operating point with a budget of one report, at which one trusted reporter revokes when there
is evidence from two seconds. -/
def oneEach : MaParams where
  reportThresholdK := 1
  revokeMinSeconds := 2
  revokePersist := nsPerS
  revokeWindow := 15 * nsPerS
  defence := true
  reputationMax := 40
  reportBudget := 1

/-- Reporter 3 files about subject 1 and, past its budget, about subject 0. -/
def overBudget : List (Call ℕ) :=
  [.ingestEvidence (bareReport 3 1) 0, .ingestEvidence (bareReport 3 0) 0]

/-- The correlation made when reporter 4 reports subject 0 a second later. -/
def secondReport : LegacyWindow ℕ × ℕ × SimTime :=
  (((LegacyWindow.start oneEach ∅).run overBudget).record (bareReport 4 0) nsPerS, 0, nsPerS)

theorem LegacyWindow.revoke_needs_trusted_second :
    ∃ reporters : Finset ℕ, 1 ≤ reporters.card ∧ ∀ x ∈ reporters,
      x ∈ (∅ : Finset ℕ) ∨ x ∉ secondReport.1.revoked ∧
        (secondReport.1.filedBy[x]?).getD 0 ≤ 1 ∧ (secondReport.1.reported[x]?).getD 0 < 40 := by
  have hm : secondReport ∈ ((start oneEach ∅).run overBudget).moments
      (.ingestEvidence (bareReport 4 0) nsPerS) := by
    rw [moments, List.mem_singleton]
    have hlatest : (((start oneEach ∅).run overBudget).record (bareReport 4 0) nsPerS).latest
        0 nsPerS = nsPerS := by decide +kernel
    exact congrArg _ (congrArg _ hlatest.symm)
  have ha : (secondReport.1.correlate 0 nsPerS).1 = some (.revoke 0) := by decide +kernel
  obtain ⟨-, ev, -, ⟨reporters, hk, hx⟩, -⟩ :=
    revoke_needs_trusted oneEach rfl ∅ overBudget _ hm ha
  exact ⟨reporters, hk, fun x h => (hx x h).1⟩

/-- A correlation decides with the gate on, and what the reporters trusted at that moment have filed
about the subject inside the window does not meet the condition: it touches a single second. -/
theorem LegacyWindow.revoke_distrusted_second :
    oneEach.defence = true ∧
      secondReport ∈ ((start oneEach ∅).run overBudget).moments
        (.ingestEvidence (bareReport 4 0) nsPerS) ∧
      (secondReport.1.correlate secondReport.2.1 secondReport.2.2).1 = some (.revoke 0) ∧
      ∃ ev, secondReport.1.evidence[0]? = some ev ∧
        ¬ Evidence.Meets oneEach secondReport.1.trusted
          ((secondReport.1.windowed nsPerS ev).filter fun e => secondReport.1.trusted e.2) := by
  refine ⟨rfl, ?_, by decide +kernel, [(0, 3), (nsPerS, 4)], by decide +kernel, by decide +kernel⟩
  rw [moments, List.mem_singleton]
  have hlatest : (((start oneEach ∅).run overBudget).record (bareReport 4 0) nsPerS).latest
      0 nsPerS = nsPerS := by decide +kernel
  exact congrArg _ (congrArg _ hlatest.symm)

end V2xw.Threat
