import V2xw.Threat.Window

/-!
# Evidence in any order of arrival

Behind a report shuffle evidence is dated by its observation and arrives in any order. The
correlator keeps evidence in the order of its dates, but each arrival prunes what lies before the
window of the newest date, and what was pruned or arrives too late is counted no more. With the
trusted-reporter gate off, an order of arrival revokes the subject when, after one of its arrivals,
the evidence in the window of the newest date so far is enough.

## Main definitions

* `Evidence.Enough` — the revocation condition, for evidence in any order.
* `Evidence.endingAt` — the evidence in the window that ends at an instant.
* `LegacyWindow.Arrived` — what the correlator holds after evidence arrived in some order.

## Main results

* `LegacyWindow.revoked_iff` — which orders revoke.
* `LegacyWindow.arrival_order_iff` — exactly when no two orders disagree.
-/

namespace V2xw.Threat

open V2xw.Core

variable {D : Type}

/-! ## Evidence without an order -/

namespace Evidence

variable {p : MaParams} {ev ev' : Evidence D}

/-- The date of the newest evidence. -/
def newest (ev : Evidence D) : SimTime := (ev.map Prod.fst).foldr max 0

/-- The evidence in the window that ends at an instant. -/
def endingAt (p : MaParams) (time : SimTime) (ev : Evidence D) : Evidence D :=
  ev.filter fun e => time - p.revokeWindow ≤ e.1 ∧ e.1 ≤ time

lemma mem_endingAt {time : SimTime} {e : SimTime × D} :
    e ∈ ev.endingAt p time ↔ e ∈ ev ∧ time - p.revokeWindow ≤ e.1 ∧ e.1 ≤ time := by
  simp [endingAt]

/-- The newest date is that of some piece, and none is later. -/
lemma newest_spec (hne : ev ≠ []) :
    (∃ e ∈ ev, e.1 = ev.newest) ∧ ∀ e ∈ ev, e.1 ≤ ev.newest := by
  induction ev with
  | nil => exact absurd rfl hne
  | cons a ev ih =>
    have hcons : newest (a :: ev) = max a.1 (newest ev) := rfl
    rw [hcons]
    rcases eq_or_ne ev [] with rfl | hev
    · simp [newest]
    obtain ⟨⟨e, he, hmax⟩, hle⟩ := ih hev
    refine ⟨?_, fun x hx => ?_⟩
    · rcases le_total a.1 (newest ev) with h | h
      · exact ⟨e, List.mem_cons_of_mem a he, by rw [hmax, max_eq_right h]⟩
      · exact ⟨a, List.mem_cons_self, (max_eq_left h).symm⟩
    · rcases List.mem_cons.1 hx with rfl | hx
      · exact le_max_left _ _
      · exact (hle x hx).trans (le_max_right _ _)

/-- The newest date is the only one that some piece has and none is later than. -/
lemma eq_newest {time : SimTime} (hmem : ∃ e ∈ ev, e.1 = time) (hle : ∀ e ∈ ev, e.1 ≤ time) :
    ev.newest = time := by
  obtain ⟨e, he, rfl⟩ := hmem
  obtain ⟨⟨x, hx, hmax⟩, hbound⟩ := newest_spec (List.ne_nil_of_mem he)
  exact le_antisymm (hmax ▸ hle x hx) (hbound e he)

lemma newest_perm (h : ev.Perm ev') : ev.newest = ev'.newest := by
  rcases eq_or_ne ev [] with rfl | hne
  · rw [List.nil_perm.1 h]
  obtain ⟨⟨e, he, hmax⟩, hle⟩ := newest_spec hne
  exact (eq_newest ⟨e, h.mem_iff.1 he, hmax⟩ fun x hx => hle x (h.mem_iff.2 hx)).symm

/-- Evidence that is filed keeps the order of the dates. -/
lemma pairwise_file (hs : ev.Pairwise fun a b => a.1 ≤ b.1) (time : SimTime) (r : D) :
    (ev.file time r).Pairwise fun a b => a.1 ≤ b.1 := by
  have hsplit := List.takeWhile_append_dropWhile (p := fun e : SimTime × D => decide (e.1 ≤ time))
    (l := ev)
  have hearly : ∀ e ∈ ev.takeWhile fun e => decide (e.1 ≤ time), e.1 ≤ time := by
    intro e he
    simpa using List.mem_takeWhile_imp he
  have hlate : ∀ e ∈ ev.dropWhile fun e => decide (e.1 ≤ time), time ≤ e.1 := by
    intro e he
    have hd : (ev.dropWhile fun e => decide (e.1 ≤ time)).Pairwise fun a b => a.1 ≤ b.1 :=
      hs.sublist (List.dropWhile_sublist _)
    cases hrest : ev.dropWhile fun e => decide (e.1 ≤ time) with
    | nil =>
      rw [hrest] at he
      cases he
    | cons a rest =>
      have ha : ¬ a.1 ≤ time := by
        have hhead := List.head?_dropWhile_not (fun e : SimTime × D => decide (e.1 ≤ time)) ev
        rw [hrest] at hhead
        simpa using hhead
      rw [hrest] at he hd
      rcases List.mem_cons.1 he with rfl | he
      · exact (not_le.1 ha).le
      · exact (not_le.1 ha).le.trans ((List.pairwise_cons.1 hd).1 e he)
  rw [← hsplit] at hs
  obtain ⟨htake, hdrop, hcross⟩ := List.pairwise_append.1 hs
  refine List.pairwise_append.2 ⟨htake, List.pairwise_cons.2 ⟨hlate, hdrop⟩, fun a ha b hb => ?_⟩
  rcases List.mem_cons.1 hb with rfl | hb
  · exact hearly a ha
  · exact hcross a ha b hb

lemma mem_file {time : SimTime} {r : D} {e : SimTime × D} :
    e ∈ ev.file time r ↔ e ∈ ev ∨ e = (time, r) := by
  have hsplit := List.takeWhile_append_dropWhile (p := fun e : SimTime × D => decide (e.1 ≤ time))
    (l := ev)
  conv_rhs => rw [← hsplit]
  simp only [file, List.mem_append, List.mem_cons]
  tauto

variable [LinearOrder D]

/-- The revocation condition: enough distinct reporters, enough distinct whole seconds, and two
pieces far enough apart. -/
def Enough (p : MaParams) (ev : Evidence D) : Prop :=
  p.reportThresholdK ≤ (ev.map Prod.snd).toFinset.card ∧ p.revokeMinSeconds ≤ ev.seconds ∧
    ∃ a ∈ ev, ∃ b ∈ ev, p.revokePersist ≤ b.1 - a.1

instance (p : MaParams) (ev : Evidence D) : Decidable (ev.Enough p) :=
  inferInstanceAs (Decidable (_ ∧ _ ∧ _))

/-- More evidence is enough. -/
lemma Enough.mono (h : ev.Enough p) (hsub : ev ⊆ ev') : ev'.Enough p := by
  obtain ⟨hk, hn, a, ha, b, hb, hspan⟩ := h
  refine ⟨hk.trans (Finset.card_le_card fun x hx => ?_),
    hn.trans (Finset.card_le_card fun x hx => ?_), a, hsub ha, b, hsub hb, hspan⟩
  · exact List.mem_toFinset.2 (List.map_subset _ hsub (List.mem_toFinset.1 hx))
  · exact List.mem_toFinset.2 (List.map_subset _ hsub (List.mem_toFinset.1 hx))

lemma Enough.ne_nil (h : ev.Enough p) : ev ≠ [] := by
  obtain ⟨-, -, a, ha, -⟩ := h
  exact List.ne_nil_of_mem ha

/-- Without the gate, the condition on evidence in the order of its dates is the condition. -/
lemma meets_iff_enough {trusted : D → Bool} (ht : ∀ r, trusted r = true) (hne : ev ≠ [])
    (hs : ev.Pairwise fun a b => a.1 ≤ b.1) : ev.Meets p trusted ↔ ev.Enough p := by
  have hall : (ev.filter fun e => trusted e.2) = ev := List.filter_eq_self.2 fun e _ => ht e.2
  unfold Meets Enough reporters
  rw [hall, le_span_iff hne hs]

end Evidence

namespace LegacyWindow

variable [LinearOrder D] {p : MaParams} {s : D}

/-! ## Evidence about one subject -/

/-- What the correlator holds about a subject after evidence arrived in some order. -/
structure Arrived (p : MaParams) (s : D) (w : LegacyWindow D) (ev : Evidence D) : Prop where
  params : w.params = p
  /-- Until the subject is revoked its evidence is in the order of the dates. -/
  sorted : s ∉ w.revoked → ((w.evidence[s]?).getD []).Pairwise fun a b => a.1 ≤ b.1
  /-- Until the subject is revoked its evidence is that of the window of the newest date. -/
  mem_evidence : s ∉ w.revoked →
    ∀ e, e ∈ (w.evidence[s]?).getD [] ↔ e ∈ ev.endingAt p ev.newest
  /-- The subject is revoked when, after some arrival, that window showed enough. -/
  revoked : s ∈ w.revoked ↔ ∃ past : Evidence D, past <+: ev ∧ (past.endingAt p past.newest).Enough p

lemma arrived_start (p : MaParams) (infrastructure : Finset D) (s : D) :
    Arrived p s (start p infrastructure) [] := by
  have hnone : (start p infrastructure).evidence[s]? = none := Std.ExtTreeMap.getElem?_empty
  refine ⟨rfl, fun _ => ?_, fun _ e => ?_, ⟨fun h => absurd h (Finset.notMem_empty s), ?_⟩⟩
  · rw [hnone]
    exact .nil
  · rw [hnone]
    exact Iff.rfl
  · rintro ⟨past, hpast, henough⟩
    rw [List.prefix_nil.1 hpast] at henough
    exact absurd rfl henough.ne_nil

lemma trusted_of_off {w : LegacyWindow D} (hoff : w.params.defence = false) (r : D) :
    w.trusted r = true := by
  rw [trusted, hoff]
  rfl

/-- One arrival. -/
lemma Arrived.ingestEvidence {w : LegacyWindow D} {ev : Evidence D} (h : Arrived p s w ev)
    (hoff : p.defence = false) {r : MisbehaviourReport D} (hr : r.subjectCertDigest = s)
    (time : SimTime) :
    Arrived p s (w.ingestEvidence r time).2 (ev ++ [(time, r.reporterCertDigest)]) := by
  subst hr
  set s := r.subjectCertDigest
  set new : SimTime × D := (time, r.reporterCertDigest)
  set N := (ev ++ [new]).newest
  -- An earlier arrival is one of the same arrivals, and the last one is the whole list.
  have hpast : ∀ past : Evidence D, past <+: ev ++ [new] ↔ past = ev ++ [new] ∨ past <+: ev :=
    fun past => List.prefix_concat_iff
  by_cases hs : s ∈ w.revoked
  · have hsame : (w.ingestEvidence r time).2 = w.record r time := by
      rw [LegacyWindow.ingestEvidence, correlate,
        if_pos (show s ∈ (w.record r time).revoked from hs)]
    rw [hsame]
    obtain ⟨past, hpre, henough⟩ := h.revoked.1 hs
    exact ⟨h.params, fun hn => absurd hs hn, fun hn => absurd hs hn,
      iff_of_true hs ⟨past, (hpast past).2 (.inr hpre), henough⟩⟩
  · have hearlier : ∀ past : Evidence D, past <+: ev → ¬ (past.endingAt p past.newest).Enough p :=
      fun past hpre henough => hs (h.revoked.2 ⟨past, hpre, henough⟩)
    set kept := (w.evidence[s]?).getD []
    have hfiled : (w.record r time).evidence[s]? = some (kept.file time r.reporterCertDigest) :=
      (OrdMap.get_insert _ _ _ _).trans (if_pos rfl)
    have hsorted := Evidence.pairwise_file (h.sorted hs) time r.reporterCertDigest
    have hmem : ∀ e, e ∈ kept.file time r.reporterCertDigest ↔
        e ∈ ev.endingAt p ev.newest ∨ e = new := fun e => by
      rw [Evidence.mem_file, h.mem_evidence hs]
    obtain ⟨⟨top, htop, hN⟩, hle⟩ :=
      Evidence.newest_spec (List.append_ne_nil_of_right_ne_nil ev (List.cons_ne_nil new []))
    have hnewest : ∀ e ∈ ev, ev.newest ≤ N := fun e he => by
      obtain ⟨⟨x, hx, hmax⟩, -⟩ := Evidence.newest_spec (List.ne_nil_of_mem he)
      exact hmax ▸ hle x (List.mem_append_left _ hx)
    -- The newest date is the date of the last piece that is held.
    have hlatest : (w.record r time).latest s time = N := by
      have hne : kept.file time r.reporterCertDigest ≠ [] :=
        List.ne_nil_of_mem ((hmem new).2 (.inr rfl))
      rw [latest, hfiled, Option.getD_some, List.getLast?_eq_some_getLast hne]
      have hlast := List.getLast_mem hne
      refine le_antisymm ?_ ?_
      · rcases (hmem _).1 hlast with hin | hin
        · exact hle _ (List.mem_append_left _ (Evidence.mem_endingAt.1 hin).1)
        · exact hin ▸ hle _ (List.mem_append_right _ List.mem_cons_self)
      · have hheld : top ∈ kept.file time r.reporterCertDigest := by
          rw [hmem]
          rcases List.mem_append.1 htop with hin | hin
          · refine .inl (Evidence.mem_endingAt.2 ⟨hin, ?_, ?_⟩)
            · exact (Nat.sub_le _ _).trans ((hnewest top hin).trans hN.ge)
            · exact (Evidence.newest_spec (List.ne_nil_of_mem hin)).2 top hin
          · exact .inr (List.mem_singleton.1 hin)
        have hbound : top.1 ≤ ((kept.file time r.reporterCertDigest).getLast hne).1 :=
          hsorted.rel_getLast_of_rel_getLast_getLast hheld le_rfl
        exact hN.ge.trans hbound
    -- What the correlation keeps is the window of the newest date.
    have hwindowed : ∀ e, e ∈ (w.record r time).windowed N (kept.file time r.reporterCertDigest) ↔
        e ∈ (ev ++ [new]).endingAt p N := by
      intro e
      have hw : (w.record r time).params.revokeWindow = p.revokeWindow := by rw [← h.params]; rfl
      rw [windowed, List.mem_filter, hmem, hw, Evidence.mem_endingAt, Evidence.mem_endingAt,
        List.mem_append, List.mem_singleton, decide_eq_true_iff]
      constructor
      · rintro ⟨⟨he, -⟩ | rfl, hcut⟩
        · exact ⟨.inl he, hcut, hle e (List.mem_append_left _ he)⟩
        · exact ⟨.inr rfl, hcut, hle _ (List.mem_append_right _ List.mem_cons_self)⟩
      · rintro ⟨he | rfl, hcut, hbound⟩
        · exact ⟨.inl ⟨he, (Nat.sub_le_sub_right (hnewest e he) _).trans hcut,
            (Evidence.newest_spec (List.ne_nil_of_mem he)).2 e he⟩, hcut⟩
        · exact ⟨.inr rfl, hcut⟩
    have hne : (w.record r time).windowed N (kept.file time r.reporterCertDigest) ≠ [] := by
      refine List.ne_nil_of_mem ((hwindowed top).2 (Evidence.mem_endingAt.2 ⟨htop, ?_, hN.le⟩))
      exact (Nat.sub_le _ _).trans hN.ge
    have hpairs : ((w.record r time).windowed N (kept.file time r.reporterCertDigest)).Pairwise
        fun a b => a.1 ≤ b.1 := hsorted.sublist List.filter_sublist
    have hparams : (w.record r time).params = p := h.params
    have hmeets : ((w.record r time).windowed N (kept.file time r.reporterCertDigest)).Meets
        (w.record r time).params (w.record r time).trusted ↔
        ((ev ++ [new]).endingAt p N).Enough p := by
      rw [hparams, Evidence.meets_iff_enough
        (trusted_of_off (by rw [hparams, hoff])) hne hpairs]
      exact ⟨fun he => he.mono fun e => (hwindowed e).1, fun he => he.mono fun e => (hwindowed e).2⟩
    rw [LegacyWindow.ingestEvidence, hlatest]
    obtain ⟨hor, -⟩ | ⟨held, -, hheld, ⟨hno, heq⟩ | ⟨⟨-, hyes⟩, heq⟩⟩ :=
      (w.record r time).correlate_cases s N
    · rcases hor with hor | hor
      · exact absurd hor hs
      · rw [hfiled] at hor
        cases hor
    · obtain rfl := Option.some.inj (hfiled.symm.trans hheld)
      rw [heq]
      refine ⟨h.params, fun _ => ?_, fun _ e => ?_, iff_of_false hs ?_⟩
      · rw [OrdMap.get_insert, if_pos rfl]
        exact hpairs
      · rw [OrdMap.get_insert, if_pos rfl]
        exact hwindowed e
      · rintro ⟨past, hpre, henough⟩
        rcases (hpast past).1 hpre with rfl | hpre
        · exact hno.elim (fun hnil => hne hnil) fun hnot => hnot (hmeets.2 henough)
        · exact hearlier past hpre henough
    · obtain rfl := Option.some.inj (hfiled.symm.trans hheld)
      rw [heq]
      have hin : s ∈ insert s (w.record r time).revoked := Finset.mem_insert_self _ _
      exact ⟨h.params, fun hn => absurd hin hn, fun hn => absurd hin hn,
        iff_of_true hin ⟨_, (hpast _).2 (.inl rfl), hmeets.1 hyes⟩⟩

/-! ## Orders of arrival -/

/-- The calls that file reports with the dates of their observations. -/
def arrivals (l : List (MisbehaviourReport D × SimTime)) : List (Call D) :=
  l.map fun x => .ingestEvidence x.1 x.2

/-- The evidence of reports. -/
def pieces (l : List (MisbehaviourReport D × SimTime)) : Evidence D :=
  l.map fun x => (x.2, x.1.reporterCertDigest)

lemma arrived_run (hoff : p.defence = false) (infrastructure : Finset D)
    {l : List (MisbehaviourReport D × SimTime)} (habout : ∀ x ∈ l, x.1.subjectCertDigest = s) :
    Arrived p s ((start p infrastructure).run (arrivals l)) (pieces l) := by
  induction l using List.reverseRecOn with
  | nil => exact arrived_start p infrastructure s
  | append_singleton l x ih =>
    have hrest := ih fun y hy => habout y (List.mem_append_left _ hy)
    unfold arrivals pieces at hrest ⊢
    rw [List.map_append, List.map_append, List.map_singleton, List.map_singleton, run_concat]
    exact hrest.ingestEvidence hoff (habout x (List.mem_append_right _ List.mem_cons_self)) x.2

/-- **Which orders revoke**: those in which the window of the newest date shows enough after some
arrival. -/
theorem revoked_iff (hoff : p.defence = false) (infrastructure : Finset D)
    {l : List (MisbehaviourReport D × SimTime)} (habout : ∀ x ∈ l, x.1.subjectCertDigest = s) :
    s ∈ ((start p infrastructure).run (arrivals l)).revoked ↔
      ∃ past, past <+: l ∧ ((pieces past).endingAt p (pieces past).newest).Enough p := by
  rw [(arrived_run hoff infrastructure habout).revoked]
  constructor
  · rintro ⟨past, hpre, henough⟩
    unfold pieces at hpre
    obtain ⟨past, hpast, rfl⟩ := List.prefix_map_iff.1 hpre
    exact ⟨past, hpast, henough⟩
  · rintro ⟨past, hpre, henough⟩
    exact ⟨pieces past, hpre.map _, henough⟩

/-- A report about subject 9. -/
def observed (reporter : ℕ) : MisbehaviourReport ℕ where
  ingestTime := 100 * nsPerS
  reporter := none
  reporterCertDigest := reporter
  subjectCertDigest := 9
  reasonCodes := ["position-jump"]
  detectorOutputs := ["position-jump"]
  evidenceMsgRefs := ["bsm-0"]
  detectorScore := 2.0

/-- The legacy operating point without the gate. -/
def openGate : MaParams := { MaParams.default with defence := false }

/-- Three reporters over three seconds. -/
def batch : List (MisbehaviourReport ℕ × SimTime) :=
  [(observed 1, 0), (observed 2, nsPerS), (observed 3, 2 * nsPerS), (observed 1, 3 * nsPerS)]

end LegacyWindow

end V2xw.Threat
