import Mathlib.Data.List.Count
import V2xw.Threat.Window

/-!
# Revocation over the full history

What the windowed correlator is for, with nothing pruned and nothing incremental: every report is
kept, and when one arrives its subject is revoked if the reports about it that are dated within the
window of the newest meet the revocation condition, with trust counted over the whole history.

## Main definitions

* `Filing` — a report as the authority files it.
* `FullHistory` — every filing so far and the subjects revoked.
* `FullHistory.Trusted`, `FullHistory.Meets` — trust and the condition.
* `FullHistory.call` — the rule.

## Main results

* `FullHistory.Trusted.of_file` — trust is only ever lost.
* `FullHistory.Meets.of_file`, `FullHistory.Meets.anti` — neither a report
  about another subject nor a later window makes the condition come true.
-/

namespace V2xw.Threat

open V2xw.Core

/-- A report as the authority files it. -/
structure Filing (D : Type) where
  subject : D
  reporter : D
  time : SimTime
  deriving DecidableEq, Repr

/-- The filing a call makes. -/
def Call.filing {D : Type} : Call D → Option (Filing D)
  | .ingestEvidence r time => some ⟨r.subjectCertDigest, r.reporterCertDigest, time⟩
  | .correlateAll _ => none

/-- An authority that keeps everything. -/
structure FullHistory (D : Type) [LinearOrder D] where
  params : MaParams
  /-- The certificates whose holder is trusted infrastructure. -/
  infrastructure : Finset D
  /-- Every report, in the order they came. -/
  filings : List (Filing D)
  revoked : Finset D

namespace FullHistory

variable {D : Type} [LinearOrder D]

/-- How many reports there are by a reporter. -/
def filedBy (h : FullHistory D) (r : D) : ℕ := h.filings.countP fun f => f.reporter = r

/-- How many reports there are about a subject. -/
def reported (h : FullHistory D) (s : D) : ℕ := h.filings.countP fun f => f.subject = s

/-- A reporter counts: the gate is off, or it is infrastructure, or it is not revoked, keeps to the
budget and is below the reputation cap. -/
def Trusted (h : FullHistory D) (r : D) : Prop :=
  h.params.defence = false ∨ r ∈ h.infrastructure ∨
    (r ∉ h.revoked ∧ h.filedBy r ≤ h.params.reportBudget.toNat ∧
      h.reported r < h.params.reputationMax.toNat)

instance (h : FullHistory D) (r : D) : Decidable (h.Trusted r) :=
  inferInstanceAs (Decidable (_ ∨ _ ∨ _))

/-- The reports about a subject that are not dated before `cut`. -/
def about (h : FullHistory D) (s : D) (cut : SimTime) : List (Filing D) :=
  h.filings.filter fun f => f.subject = s ∧ cut ≤ f.time

/-- The revocation condition over the reports about a subject from `cut` on: enough distinct trusted
reporters, enough distinct whole seconds, and two reports far enough apart. -/
def Meets (h : FullHistory D) (s : D) (cut : SimTime) : Prop :=
  h.params.reportThresholdK ≤
      (((h.about s cut).filter fun f => h.Trusted f.reporter).map Filing.reporter).toFinset.card ∧
    h.params.revokeMinSeconds ≤ ((h.about s cut).map fun f => f.time / nsPerS).toFinset.card ∧
    ∃ f ∈ h.about s cut, ∃ g ∈ h.about s cut, h.params.revokePersist ≤ g.time - f.time

instance (h : FullHistory D) (s : D) (cut : SimTime) : Decidable (h.Meets s cut) :=
  inferInstanceAs (Decidable (_ ∧ _ ∧ _))

/-- The condition holds over the reports dated within the window of the newest. -/
def Due (h : FullHistory D) (s : D) (newest : SimTime) : Prop :=
  h.Meets s (newest - h.params.revokeWindow)

instance (h : FullHistory D) (s : D) (newest : SimTime) : Decidable (h.Due s newest) :=
  inferInstanceAs (Decidable (h.Meets _ _))

/-- One more report. -/
def file (h : FullHistory D) (f : Filing D) : FullHistory D :=
  { h with filings := h.filings ++ [f] }

/-- One more report, and the decision about its subject. -/
def report (h : FullHistory D) (f : Filing D) : List (MaAction D) × FullHistory D :=
  if f.subject ∉ h.revoked ∧ (h.file f).Due f.subject f.time then
    ([.revoke f.subject], { h.file f with revoked := insert f.subject h.revoked })
  else ([], h.file f)

/-- The rule: a report is decided as it comes, and nothing else decides. -/
def call (h : FullHistory D) (c : Call D) : List (MaAction D) × FullHistory D :=
  match c.filing with
  | some f => h.report f
  | none => ([], h)

/-- The authority before the first report. -/
def start (params : MaParams) (infrastructure : Finset D) : FullHistory D :=
  ⟨params, infrastructure, [], ∅⟩

/-- The authority after a list of calls. -/
def run (h : FullHistory D) (calls : List (Call D)) : FullHistory D := Mealy.run call h calls

/-- The actions each of a list of calls returns. -/
def returns (h : FullHistory D) (calls : List (Call D)) : List (List (MaAction D)) :=
  Mealy.outputs call h calls

lemma run_concat (h : FullHistory D) (calls : List (Call D)) (c : Call D) :
    h.run (calls ++ [c]) = ((h.run calls).call c).2 :=
  Mealy.run_concat call h calls c

lemma returns_concat (h : FullHistory D) (calls : List (Call D)) (c : Call D) :
    h.returns (calls ++ [c]) = h.returns calls ++ [((h.run calls).call c).1] :=
  Mealy.outputs_concat call h calls c

/-! ## Monotonicity -/

lemma filedBy_le_file (h : FullHistory D) (f : Filing D) (r : D) :
    h.filedBy r ≤ (h.file f).filedBy r := by
  unfold filedBy file
  rw [List.countP_append]
  exact Nat.le_add_right _ _

lemma reported_le_file (h : FullHistory D) (f : Filing D) (s : D) :
    h.reported s ≤ (h.file f).reported s := by
  unfold reported file
  rw [List.countP_append]
  exact Nat.le_add_right _ _

lemma Trusted.of_file {h : FullHistory D} {f : Filing D} {r : D} (ht : (h.file f).Trusted r) :
    h.Trusted r := by
  rcases ht with ht | ht | ⟨hr, hb, hm⟩
  · exact .inl ht
  · exact .inr (.inl ht)
  · exact .inr (.inr ⟨hr, (h.filedBy_le_file f r).trans hb, (h.reported_le_file f r).trans_lt hm⟩)

lemma Trusted.of_revoke {h : FullHistory D} {s r : D}
    (ht : { h with revoked := insert s h.revoked }.Trusted r) : h.Trusted r := by
  rcases ht with ht | ht | ⟨hr, hb, hm⟩
  · exact .inl ht
  · exact .inr (.inl ht)
  · exact .inr (.inr ⟨fun hin => hr (Finset.mem_insert_of_mem hin), hb, hm⟩)

/-- The condition comes from any authority that holds more of the reports about the subject and
trusts at least the same reporters. -/
lemma Meets.of_subset {h h' : FullHistory D} {s : D} {cut cut' : SimTime}
    (hp : h'.params = h.params) (hsub : h'.about s cut' ⊆ h.about s cut)
    (ht : ∀ r, h'.Trusted r → h.Trusted r) (hm : h'.Meets s cut') : h.Meets s cut := by
  obtain ⟨hk, hn, f, hf, g, hg, hfg⟩ := hm
  rw [hp] at hk hn hfg
  refine ⟨hk.trans (Finset.card_le_card fun r hr => ?_),
    hn.trans (Finset.card_le_card fun n hn => ?_), f, hsub hf, g, hsub hg, hfg⟩
  · simp only [List.mem_toFinset, List.mem_map, List.mem_filter, decide_eq_true_eq] at hr ⊢
    obtain ⟨e, ⟨he, het⟩, rfl⟩ := hr
    exact ⟨e, ⟨hsub he, ht _ het⟩, rfl⟩
  · simp only [List.mem_toFinset, List.mem_map] at hn ⊢
    obtain ⟨e, he, rfl⟩ := hn
    exact ⟨e, hsub he, rfl⟩

lemma about_file (h : FullHistory D) (f : Filing D) (s : D) (cut : SimTime) :
    (h.file f).about s cut =
      h.about s cut ++ if f.subject = s ∧ cut ≤ f.time then [f] else [] := by
  unfold about file
  rw [List.filter_append, List.filter_singleton]
  by_cases hf : f.subject = s ∧ cut ≤ f.time
  · simp [hf]
  · simp [hf]

lemma about_anti (h : FullHistory D) (s : D) {cut cut' : SimTime} (hc : cut ≤ cut') :
    h.about s cut' ⊆ h.about s cut := by
  intro f hf
  simp only [about, List.mem_filter, decide_eq_true_eq] at hf ⊢
  exact ⟨hf.1, hf.2.1, hc.trans hf.2.2⟩

lemma Meets.anti {h : FullHistory D} {s : D} {cut cut' : SimTime} (hc : cut ≤ cut')
    (hm : h.Meets s cut') : h.Meets s cut :=
  hm.of_subset rfl (h.about_anti s hc) fun _ ht => ht

lemma Meets.of_file {h : FullHistory D} {f : Filing D} {s : D} {cut : SimTime}
    (hs : f.subject ≠ s) (hm : (h.file f).Meets s cut) : h.Meets s cut := by
  refine Meets.of_subset ?_ ?_ ?_ hm
  · rfl
  · rw [about_file, if_neg fun hf => hs hf.1, List.append_nil]
    exact List.Subset.refl _
  · exact fun _ ht => ht.of_file

lemma Meets.of_revoke {h : FullHistory D} {s s' : D} {cut : SimTime}
    (hm : { h with revoked := insert s' h.revoked }.Meets s cut) : h.Meets s cut := by
  refine Meets.of_subset ?_ ?_ ?_ hm
  · rfl
  · exact List.Subset.refl _
  · exact fun _ ht => ht.of_revoke

/-- Nothing is decided against a subject revoked, and a decision revokes. -/
lemma call_revoked {h : FullHistory D} {c : Call D} :
    h.revoked ⊆ (h.call c).2.revoked ∧
      ∀ s, MaAction.revoke s ∈ (h.call c).1 → s ∉ h.revoked ∧ s ∈ (h.call c).2.revoked := by
  unfold call
  cases c.filing with
  | none => exact ⟨fun _ hs => hs, fun s hs => absurd hs List.not_mem_nil⟩
  | some f =>
    dsimp only
    unfold report
    split_ifs with hf
    · refine ⟨Finset.subset_insert _ _, fun s hs => ?_⟩
      obtain rfl : s = f.subject := by simpa using hs
      exact ⟨hf.1, Finset.mem_insert_self _ _⟩
    · exact ⟨fun _ hs => hs, fun s hs => absurd hs List.not_mem_nil⟩

end FullHistory

end V2xw.Threat
