import V2xw.Threat.Incremental

/-!
# Incremental windowing along runs

Over whole runs, the windowed correlator revokes the same subjects at the same reports as the
authority that keeps everything, while evidence about each subject comes in the order of its dates
and no counter wraps. The counters are `u32`: a reporter far over its budget counts again after
`2 ^ 32` reports, and a correlation between reports then decides.

## Main results

* `incremental_run` — the relation along runs.
* `LegacyWindow.run_eq_fullHistory` — the correlator revokes as the full history does.
* `LegacyWindow.correlateAll_wrapped` — a run whose last correlation decides.
-/

namespace V2xw.Threat

open V2xw.Core

variable {D : Type} [LinearOrder D]

/-! ## Runs -/

lemma FullHistory.call_eq (h : FullHistory D) (c : Call D) :
    (h.call c).2.params = h.params ∧ (h.call c).2.infrastructure = h.infrastructure ∧
      (h.call c).2.filings = h.filings ++ c.filing.toList := by
  unfold FullHistory.call
  cases c.filing with
  | none => exact ⟨rfl, rfl, by rw [Option.toList_none, List.append_nil]⟩
  | some f =>
    dsimp only
    unfold FullHistory.report
    split_ifs
    · exact ⟨rfl, rfl, rfl⟩
    · exact ⟨rfl, rfl, rfl⟩

/-- The full history holds the reports of the run. -/
lemma FullHistory.filings_run (p : MaParams) (infrastructure : Finset D)
    (calls : List (Call D)) :
    ((FullHistory.start p infrastructure).run calls).params = p ∧
      ((FullHistory.start p infrastructure).run calls).filings = filedIn calls := by
  induction calls using List.reverseRecOn with
  | nil => exact ⟨rfl, rfl⟩
  | append_singleton calls c ih =>
    obtain ⟨hp, -, hf⟩ := ((FullHistory.start p infrastructure).run calls).call_eq c
    rw [FullHistory.run_concat]
    refine ⟨hp.trans ih.1, ?_⟩
    rw [hf, ih.2, filedIn, filedIn, List.filterMap_append]
    cases hc : c.filing with
    | none => simp [hc]
    | some f => simp [hc]

/-- One call: both return the same actions and stay related, and everything correlated at once
decides nothing. -/
lemma Incremental.call {w : LegacyWindow D} {h : FullHistory D} {k : D → Option SimTime}
    (hi : Incremental w h k) {c : Call D}
    (hc : ∀ d, (h.call c).2.filedBy d < 2 ^ 32 ∧ (h.call c).2.reported d < 2 ^ 32)
    (hk : ∀ r time, c = .ingestEvidence r time → ∀ t ∈ k r.subjectCertDigest, t ≤ time) :
    (w.call c).1 = (h.call c).1 ∧
      Incremental (w.call c).2 (h.call c).2 fun s => c.clock s (k s) := by
  cases c with
  | correlateAll t => exact hi.correlateAll hc t
  | ingestEvidence r time =>
    have hfile : ∀ d, (h.file (r.filing time)).filedBy d < 2 ^ 32 ∧
        (h.file (r.filing time)).reported d < 2 ^ 32 := by
      intro d
      have heq : (h.call (.ingestEvidence r time)).2.filings =
          (h.file (r.filing time)).filings := (h.call_eq _).2.2
      have hd := hc d
      unfold FullHistory.filedBy FullHistory.reported at hd ⊢
      rwa [heq] at hd
    obtain ⟨hout, hnext, -⟩ := hi.report hfile (hk r time rfl)
    refine ⟨hout, ?_⟩
    have hclock : Function.update k r.subjectCertDigest (some time) =
        fun s => Call.clock s (k s) (.ingestEvidence r time) := by
      funext s
      rw [Call.clock]
      by_cases hs : r.subjectCertDigest = s
      · subst hs
        rw [Function.update_self, if_pos rfl, max_eq_right]
        cases hks : k r.subjectCertDigest with
        | none => exact Nat.zero_le _
        | some t => exact hk r time rfl t hks
      · rw [Function.update_of_ne fun h => hs h.symm, if_neg hs]
    rw [← hclock]
    exact hnext

/-- Along a timely run in which no counter wraps, the correlator returns what the full history does
and holds what it has in the window. -/
lemma incremental_run (p : MaParams) (infrastructure : Finset D) {calls : List (Call D)}
    (ht : Timely calls) (hc : Counted calls) :
    (LegacyWindow.start p infrastructure).returns calls =
        (FullHistory.start p infrastructure).returns calls ∧
      Incremental ((LegacyWindow.start p infrastructure).run calls)
        ((FullHistory.start p infrastructure).run calls) fun s => clock s calls := by
  induction calls using List.reverseRecOn with
  | nil =>
    refine ⟨rfl, ⟨rfl, rfl, rfl, fun _ => ?_, fun _ => ?_⟩, nofun, fun _ => List.Pairwise.nil,
      fun _ _ => ?_, nofun⟩
    · exact congrArg (Option.getD · 0) Std.ExtTreeMap.getElem?_empty
    · exact congrArg (Option.getD · 0) Std.ExtTreeMap.getElem?_empty
    · exact Std.ExtTreeMap.getElem?_empty
  | append_singleton calls c ih =>
    obtain ⟨hret, hi⟩ := ih ht.left hc.left
    have hcount : ∀ d,
        (((FullHistory.start p infrastructure).run calls).call c).2.filedBy d < 2 ^ 32 ∧
        (((FullHistory.start p infrastructure).run calls).call c).2.reported d < 2 ^ 32 := by
      intro d
      rw [← FullHistory.run_concat]
      unfold FullHistory.filedBy FullHistory.reported
      rw [(FullHistory.filings_run p infrastructure (calls ++ [c])).2]
      exact hc d
    obtain ⟨hout, hnext⟩ := hi.call hcount fun r time he => ht calls r time [] (he ▸ rfl)
    rw [LegacyWindow.returns_concat, FullHistory.returns_concat, hret, hout,
      LegacyWindow.run_concat, FullHistory.run_concat]
    refine ⟨rfl, ?_⟩
    have hclock : (fun s => clock s (calls ++ [c])) = fun s => c.clock s (clock s calls) := by
      funext s
      rw [clock, List.foldl_append]
      rfl
    rw [hclock]
    exact hnext

lemma FullHistory.length_call_le (h : FullHistory D) (c : Call D) : (h.call c).1.length ≤ 1 := by
  unfold FullHistory.call
  cases c.filing with
  | none => exact Nat.zero_le _
  | some f =>
    dsimp only
    unfold FullHistory.report
    split_ifs
    · exact le_rfl
    · exact Nat.zero_le _

lemma FullHistory.count_returns_le (s : D) (h : FullHistory D) (calls : List (Call D)) :
    (h.returns calls).flatten.count (.revoke s) ≤ 1 := by
  refine (Mealy.count_outputs_le_one (P := fun _ => True) (Q := fun h => s ∈ h.revoked)
    (fun _ _ _ => trivial) (fun h c _ hs => (call_revoked (h := h) (c := c)).1 hs)
    (fun h c _ => ?_) (fun h c _ hin => ?_) calls h trivial).1
  · exact List.count_le_length.trans (h.length_call_le c)
  · exact call_revoked.2 s hin

/-- While evidence about each subject comes in the order of its dates and no counter wraps, the
correlator revokes exactly the subjects the full history revokes, at the same reports; correlating
everything decides nothing, no subject is revoked twice, and what a report is decided from is all
the history has in its window. -/
theorem LegacyWindow.run_eq_fullHistory (p : MaParams) (infrastructure : Finset D)
    {calls : List (Call D)} (ht : Timely calls) (hc : Counted calls) :
    (start p infrastructure).returns calls =
        (FullHistory.start p infrastructure).returns calls ∧
      ((start p infrastructure).run calls).revoked =
        ((FullHistory.start p infrastructure).run calls).revoked ∧
      (∀ past t rest, calls = past ++ .correlateAll t :: rest →
        (((start p infrastructure).run past).correlateAll t).1 = []) ∧
      (∀ s, ((start p infrastructure).returns calls).flatten.count (.revoke s) ≤ 1) ∧
      ∀ past r time rest, calls = past ++ .ingestEvidence r time :: rest →
        r.subjectCertDigest ∉ ((start p infrastructure).run past).revoked →
        ((start p infrastructure).run (past ++ [.ingestEvidence r time])).evidence[
            r.subjectCertDigest]? =
          some (((FullHistory.start p infrastructure).run
            (past ++ [.ingestEvidence r time])).evidence r.subjectCertDigest
              (time - p.revokeWindow)) := by
  obtain ⟨hret, hi⟩ := incremental_run p infrastructure ht hc
  -- what holds of a run holds of everything before one of its calls
  have hsplit : ∀ {past c rest}, calls = past ++ c :: rest →
      Timely (past ++ [c]) ∧ Counted (past ++ [c]) := by
    intro past c rest he
    rw [List.append_cons] at he
    exact ⟨(he ▸ ht).left, (he ▸ hc).left⟩
  refine ⟨hret, hi.revoked, fun past t rest he => ?_, fun s => ?_, fun past r time rest he hs => ?_⟩
  · obtain ⟨ht', hc'⟩ := hsplit he
    obtain ⟨-, hi'⟩ := incremental_run p infrastructure ht'.left hc'.left
    refine (hi'.correlateAll (fun d => ?_) t).1
    unfold FullHistory.filedBy FullHistory.reported
    rw [(FullHistory.filings_run p infrastructure past).2]
    exact hc'.left d
  · rw [hret]
    exact FullHistory.count_returns_le s _ calls
  · obtain ⟨ht', hc'⟩ := hsplit he
    obtain ⟨-, hi'⟩ := incremental_run p infrastructure ht'.left hc'.left
    obtain ⟨hp, hf⟩ := FullHistory.filings_run p infrastructure past
    have hcall : (((FullHistory.start p infrastructure).run past).call
        (.ingestEvidence r time)).2.filings =
          (((FullHistory.start p infrastructure).run past).file (r.filing time)).filings :=
      (FullHistory.call_eq _ _).2.2
    have hcount : ∀ d,
        (((FullHistory.start p infrastructure).run past).file (r.filing time)).filedBy d < 2 ^ 32 ∧
        (((FullHistory.start p infrastructure).run past).file (r.filing time)).reported d <
          2 ^ 32 := by
      intro d
      unfold FullHistory.filedBy FullHistory.reported
      rw [← hcall, ← FullHistory.run_concat, (FullHistory.filings_run p infrastructure _).2]
      exact hc' d
    have hev := (hi'.report hcount (ht past r time rest he)).2.2 (hi'.revoked ▸ hs)
    rw [LegacyWindow.run_concat, FullHistory.run_concat]
    refine hev.trans ?_
    rw [hp]
    unfold FullHistory.evidence FullHistory.about
    rw [hcall]

/-! ## Timely runs, made -/

lemma timely_nil : Timely ([] : List (Call D)) := by
  intro past r time rest he
  simp at he

lemma Timely.correlateAll {calls : List (Call D)} (h : Timely calls) (t : SimTime) :
    Timely (calls ++ [.correlateAll t]) := by
  intro past r time rest he
  rcases List.eq_nil_or_concat' rest with rfl | ⟨rest, c, rfl⟩
  · cases (List.append_inj' he rfl).2
  · rw [← List.cons_append, ← List.append_assoc] at he
    exact h past r time rest (List.append_inj' he rfl).1

lemma Timely.ingestEvidence {calls : List (Call D)} (h : Timely calls)
    (r : MisbehaviourReport D) (time : SimTime)
    (hk : ∀ k ∈ clock r.subjectCertDigest calls, k ≤ time) :
    Timely (calls ++ [.ingestEvidence r time]) := by
  intro past r' time' rest he
  rcases List.eq_nil_or_concat' rest with rfl | ⟨rest, c, rfl⟩
  · obtain ⟨rfl, hlast⟩ := List.append_inj' he rfl
    cases hlast
    exact hk
  · rw [← List.cons_append, ← List.append_assoc] at he
    exact h past r' time' rest (List.append_inj' he rfl).1

lemma counted_of_length {calls : List (Call D)} (h : calls.length < 2 ^ 32) :
    Counted calls := by
  have hlen : (filedIn calls).length < 2 ^ 32 := (List.length_filterMap_le _ _).trans_lt h
  exact fun d => ⟨List.countP_le_length.trans_lt hlen, List.countP_le_length.trans_lt hlen⟩

/-- A report by `reporter` about `subject`, with one fired check. -/
def plainReport (reporter subject : D) : MisbehaviourReport D where
  ingestTime := 0
  reporter := none
  reporterCertDigest := reporter
  subjectCertDigest := subject
  reasonCodes := ["position-jump"]
  detectorOutputs := ["position-jump"]
  evidenceMsgRefs := ["bsm-0"]
  detectorScore := 2.0

/-- An operating point at which two reporters a second apart revoke. -/
def pairParams : MaParams where
  reportThresholdK := 2
  revokeMinSeconds := 2
  revokePersist := nsPerS
  revokeWindow := 15 * nsPerS
  defence := true
  reputationMax := 40
  reportBudget := 30

/-- Two reporters, and a correlation of everything between their reports. -/
def pairCalls : List (Call ℕ) :=
  [.ingestEvidence (plainReport 1 0) 0, .correlateAll nsPerS,
    .ingestEvidence (plainReport 2 0) nsPerS]

lemma timely_pairCalls : Timely pairCalls := by
  have hfirst : Timely ([] ++ [.ingestEvidence (plainReport 1 0) 0]) :=
    timely_nil.ingestEvidence _ _ (by decide)
  have hsecond := hfirst.correlateAll nsPerS
  exact hsecond.ingestEvidence (plainReport 2 0) nsPerS (by decide)

theorem LegacyWindow.run_eq_fullHistory_pair :
    ((start pairParams ∅).run pairCalls).revoked =
      ((FullHistory.start pairParams ∅).run pairCalls).revoked :=
  (run_eq_fullHistory pairParams ∅ timely_pairCalls (counted_of_length (by decide))).2.1

/-! ## A counter that wraps -/

/-- An operating point at which one trusted report revokes, and no reporter keeps to the budget. -/
def noBudget : MaParams where
  reportThresholdK := 1
  revokeMinSeconds := 1
  revokePersist := 0
  revokeWindow := 0
  defence := true
  reputationMax := 1
  reportBudget := 0

/-- Reporter 2 reports subject 0 once and then subject 1, `n` times. -/
def spray (n : ℕ) : List (Call ℕ) :=
  .ingestEvidence (plainReport 2 0) 0 ::
    List.replicate n (.ingestEvidence (plainReport 2 1) 0)

/-- What is left of a correlator after the reports of reporter 2: it has counted them modulo
`2 ^ 32`, and holds the report about subject 0. -/
structure Sprayed (n : ℕ) (w : LegacyWindow ℕ) : Prop where
  params : w.params = noBudget
  infrastructure : w.infrastructure = ∅
  filedBy : (w.filedBy[2]?).getD 0 = UInt32.ofNat (n + 1)
  reported : w.reported[2]? = none
  evidence : w.evidence[0]? = some [(0, 2)]
  revoked : w.revoked ⊆ {1}

lemma Sprayed.correlate {n : ℕ} {w : LegacyWindow ℕ} (h : Sprayed n w) (t : SimTime) :
    Sprayed n (w.correlate 1 t).2 := by
  have hkeep : ∀ ev, (w.evidence.insert 1 ev)[0]? = some [(0, 2)] := fun ev => by
    rw [OrdMap.get_insert, if_neg (by decide), h.evidence]
  obtain ⟨-, he⟩ | ⟨ev, -, -, ⟨-, he⟩ | ⟨-, he⟩⟩ := w.correlate_cases 1 t
  · rw [he]
    exact h
  · rw [he]
    exact ⟨h.params, h.infrastructure, h.filedBy, h.reported, hkeep _, h.revoked⟩
  · rw [he]
    exact ⟨h.params, h.infrastructure, h.filedBy, h.reported, hkeep _,
      Finset.insert_subset (Finset.mem_singleton_self 1) h.revoked⟩

lemma Sprayed.ingestEvidence {n : ℕ} {w : LegacyWindow ℕ} (h : Sprayed n w) :
    Sprayed (n + 1) (w.ingestEvidence (plainReport 2 1) 0).2 := by
  have hrecord : Sprayed (n + 1) (w.record (plainReport 2 1) 0) := by
    refine ⟨h.params, h.infrastructure, ?_, ?_, ?_, h.revoked⟩
    · change ((w.filedBy.insert 2 ((w.filedBy[2]?).getD 0 + 1))[2]?).getD 0 = _
      rw [OrdMap.get_insert, if_pos rfl, Option.getD_some, h.filedBy, UInt32.ofNat_add (n + 1)]
      rfl
    · change (w.reported.insert 1 _)[2]? = none
      rw [OrdMap.get_insert, if_neg (by decide), h.reported]
    · change (w.evidence.insert 1 _)[0]? = _
      rw [OrdMap.get_insert, if_neg (by decide), h.evidence]
  exact hrecord.correlate _

lemma sprayed_run (n : ℕ) : Sprayed n ((LegacyWindow.start noBudget ∅).run (spray n)) := by
  induction n with
  | zero => exact ⟨rfl, rfl, by decide +kernel, by decide +kernel, by decide +kernel, by decide⟩
  | succ n ih =>
    have hsucc : spray (n + 1) = spray n ++ [.ingestEvidence (plainReport 2 1) 0] := by
      rw [spray, List.replicate_succ', ← List.cons_append]
      rfl
    rw [hsucc, LegacyWindow.run_concat]
    exact ih.ingestEvidence

/-- The reports of reporter 2 are in order. -/
lemma timely_spray (n : ℕ) : Timely (spray n) ∧
    (∀ k ∈ clock 0 (spray n), k = 0) ∧ ∀ k ∈ clock 1 (spray n), k = 0 := by
  induction n with
  | zero =>
    have hfirst : Timely ([] ++ [.ingestEvidence (plainReport 2 0) 0]) :=
      timely_nil.ingestEvidence _ _ (by decide)
    exact ⟨hfirst, by decide, by decide⟩
  | succ n ih =>
    obtain ⟨ht, h0, h1⟩ := ih
    have hsucc : spray (n + 1) = spray n ++ [.ingestEvidence (plainReport 2 1) 0] := by
      rw [spray, List.replicate_succ', ← List.cons_append]
      rfl
    rw [hsucc]
    refine ⟨ht.ingestEvidence _ _ fun k hk => (h1 k hk).le, ?_, ?_⟩
    · rw [clock, List.foldl_append]
      exact h0
    · rw [clock, List.foldl_append]
      intro k hk
      cases hc : clock 1 (spray n) with
      | none =>
        change k ∈ some (max ((clock 1 (spray n)).getD 0) 0) at hk
        rw [hc] at hk
        simpa using hk.symm
      | some c =>
        change k ∈ some (max ((clock 1 (spray n)).getD 0) 0) at hk
        rw [hc, h1 c hc] at hk
        simpa using hk.symm

/-- With its counter at 0 again, reporter 2 is trusted, and the report about subject 0 decides. -/
lemma Sprayed.correlateAll {w : LegacyWindow ℕ} (h : Sprayed (2 ^ 32 - 1) w) :
    (w.correlateAll 0).1 ≠ [] := by
  have hzero : (w.filedBy[2]?).getD 0 = 0 := h.filedBy
  have h2 : 2 ∉ w.revoked := fun hin => absurd (h.revoked hin) (by decide)
  have h0 : 0 ∉ w.revoked := fun hin => absurd (h.revoked hin) (by decide)
  have htrusted : w.trusted 2 = true := by
    rw [LegacyWindow.trusted, hzero, h.reported, h.infrastructure, h.params]
    simp [noBudget, h2]
  have hwin : w.windowed 0 [(0, 2)] = [(0, 2)] := by
    simp [LegacyWindow.windowed]
  have hmeets : Evidence.Meets w.params w.trusted [(0, 2)] := by
    rw [h.params]
    refine ⟨?_, by decide, by decide⟩
    rw [Evidence.reporters, List.filter_singleton, htrusted]
    decide
  have hcorr : (w.correlate 0 0).1 = some (.revoke 0) := by
    obtain ⟨hno, -⟩ | ⟨ev, -, hev, ⟨hno, -⟩ | ⟨-, he⟩⟩ := w.correlate_cases 0 0
    · rw [h.evidence] at hno
      exact absurd hno (by simp [h0])
    · rw [h.evidence] at hev
      cases hev
      rw [hwin] at hno
      exact absurd hmeets (hno.resolve_left (by decide))
    · rw [he]
  -- 0 is the least digest, so the correlation of everything starts with it
  have hkeys : ∃ rest, w.evidence.keys = 0 :: rest := by
    have hmem : 0 ∈ w.evidence.keys := OrdMap.mem_keys.2 ⟨_, h.evidence⟩
    have hsorted := OrdMap.pairwise_keys w.evidence
    cases hk : w.evidence.keys with
    | nil =>
      rw [hk] at hmem
      cases hmem
    | cons a rest =>
      rw [hk] at hmem hsorted
      rcases List.mem_cons.1 hmem with rfl | hin
      · exact ⟨rest, rfl⟩
      · exact absurd ((List.pairwise_cons.1 hsorted).1 0 hin) (Nat.not_lt_zero a)
  obtain ⟨rest, hkeys⟩ := hkeys
  rw [LegacyWindow.correlateAll, hkeys]
  change (w.correlate 0 0).1.toList ++
    (LegacyWindow.correlateEach 0 rest (w.correlate 0 0).2).1 ≠ []
  rw [hcorr]
  exact List.cons_ne_nil _ _

/-- After `2 ^ 32` reports by one reporter, in order, a correlation of everything decides. -/
theorem LegacyWindow.correlateAll_wrapped :
    ∃ calls : List (Call ℕ), Timely (calls ++ [.correlateAll 0]) ∧
      (((start noBudget ∅).run calls).correlateAll 0).1 ≠ [] :=
  ⟨spray (2 ^ 32 - 1), (timely_spray _).1.correlateAll 0, (sprayed_run _).correlateAll⟩

end V2xw.Threat
