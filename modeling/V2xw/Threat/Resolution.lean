import V2xw.Threat.Resolve

/-!
# Revocation only after resolution

Over whole runs of the two-authority pipeline: the subjects its correlator has marked are those
revoked and those with an open case, no subject is revoked twice or before enough authorities could
resolve it, and no tick leaves a case open that can be resolved.

## Main definitions

* `TwoAuthorityResolution.InStep` — the correlator and the resolution stage are in step.
* `TwoAuthorityResolution.innerCalls` — what a run asks of the correlator.

## Main results

* `TwoAuthorityResolution.InStep.onReport`,
  `TwoAuthorityResolution.InStep.onTick` — the steps.
* `TwoAuthorityResolution.inStep_run` — the invariant along runs.
* `TwoAuthorityResolution.resolution_gates_revocation` — the four properties together.
-/

namespace V2xw.Threat

open V2xw.Core

namespace TwoAuthorityResolution

variable {D : Type} [LinearOrder D]

/-- The correlator and the resolution stage are in step: a subject is open or revoked, not both,
exactly when the correlator has marked it. -/
structure InStep (m : TwoAuthorityResolution D) : Prop where
  /-- No revoked subject has an open case. -/
  disjoint : ∀ s, m.pending[s]?.isSome → s ∉ m.revoked
  /-- The subjects marked are the open and the revoked ones. -/
  marked : ∀ s, s ∈ m.inner.revoked ↔ m.pending[s]?.isSome ∨ s ∈ m.revoked

/-! ## The decisions of a list -/

lemma revoke_mem_map_decided {m : TwoAuthorityResolution D} {subjects : List D} {s : D} :
    MaAction.revoke s ∈ subjects.map m.decided ↔ s ∈ subjects ∧ m.Enough s := by
  rw [List.mem_map]
  constructor
  · rintro ⟨x, hx, he⟩
    unfold decided at he
    split_ifs at he with hen
    cases he
    exact ⟨hx, hen⟩
  · exact fun ⟨hs, hen⟩ => ⟨s, hs, if_pos hen⟩

lemma count_map_decided_le {m : TwoAuthorityResolution D} {subjects : List D}
    (hnd : subjects.Nodup) (s : D) : (subjects.map m.decided).count (.revoke s) ≤ 1 := by
  have hle : (subjects.map m.decided).count (.revoke s) ≤ subjects.count s := by
    unfold List.count
    rw [List.countP_map]
    refine List.countP_mono_left fun x _ hx => ?_
    have hx' : m.decided x = .revoke s := by simpa using hx
    unfold decided at hx'
    split_ifs at hx'
    cases hx'
    exact beq_self_eq_true s
  exact hle.trans (List.nodup_iff_count_le_one.1 hnd s)

lemma isNew_congr (m m' : TwoAuthorityResolution D) (s : D) (_ : Same m m')
    (h : s ∈ m'.revoked ↔ s ∈ m.revoked) : m'.isNew s = m.isNew s := by
  unfold isNew
  rw [decide_eq_decide, h]

lemma Same.isDeclared {m m' : TwoAuthorityResolution D} (h : Same m m') (s : D) :
    m'.isDeclared s = m.isDeclared s := by
  unfold TwoAuthorityResolution.isDeclared
  rw [h.authoritiesResolving, h.params]

lemma enough_of_isDeclared {m : TwoAuthorityResolution D} {s : D} (h : m.isDeclared s = true) :
    m.Enough s := by
  simp only [isDeclared, Bool.and_eq_true, decide_eq_true_eq] at h
  rw [Enough, if_neg h.2.ne']
  exact h.1

/-! ## Steps -/

/-- What one operation does to the subjects revoked: it adds those it revokes, each once and each
when it can be resolved. -/
structure Decides (m : TwoAuthorityResolution D) (out : List (MaAction D))
    (m' : TwoAuthorityResolution D) : Prop where
  inStep : InStep m'
  lasting : m.revoked ⊆ m'.revoked
  /-- A revocation is new, and the subject can be resolved. -/
  revokes : ∀ s, .revoke s ∈ out → s ∉ m.revoked ∧ s ∈ m'.revoked ∧ m.Enough s
  once : ∀ s, out.count (.revoke s) ≤ 1

lemma ingest_revoked (w : LegacyWindow D) (r : MisbehaviourReport D) :
    (w.ingest r).1 = none ∧ (w.ingest r).2.revoked = w.revoked ∨
    (w.ingest r).1 = some (.revoke r.subjectCertDigest) ∧ r.subjectCertDigest ∉ w.revoked ∧
      (w.ingest r).2.revoked = insert r.subjectCertDigest w.revoked :=
  LegacyWindow.correlate_revoked _ _ _

/-- One report keeps the stages in step. -/
lemma InStep.onReport {m : TwoAuthorityResolution D} (h : InStep m) (r : MisbehaviourReport D) :
    Decides m (m.onReport r).1 (m.onReport r).2.2 := by
  set s := r.subjectCertDigest with hs
  -- a report that marks nobody changes neither the open cases nor the revocations
  have hidle : ∀ {out : List (MaAction D)} {m' : TwoAuthorityResolution D},
      (∀ x, MaAction.revoke x ∉ out) → m'.inner.revoked = m.inner.revoked →
      m'.pending = m.pending → m'.revoked = m.revoked → Decides m out m' := by
    intro out m' hout hinner hpend hrev
    refine ⟨⟨fun x hx => ?_, fun x => ?_⟩, hrev ▸ Finset.Subset.refl _,
      fun x hx => absurd hx (hout x), fun x => ?_⟩
    · rw [hrev]
      exact h.disjoint x (hpend ▸ hx)
    · rw [hinner, hpend, hrev]
      exact h.marked x
    · rw [List.count_eq_zero_of_not_mem (hout x)]
      exact Nat.zero_le 1
  unfold TwoAuthorityResolution.onReport
  cases hr : ingestionRefusal m.params r with
  | some refusal => exact hidle (fun x hx => by simp at hx) rfl rfl rfl
  | none =>
    dsimp only
    obtain ⟨hnone, hsame⟩ | ⟨hsome, hno, hins⟩ := ingest_revoked m.inner r
    · split_ifs with hrev hcorr
      · exact hidle (fun x hx => by simp at hx) hsame rfl rfl
      · exact hidle (fun x hx => by simp at hx) hsame rfl rfl
      · rw [hnone] at hcorr
        exact absurd rfl hcorr
    · have hrev : s ∉ m.revoked := fun hin => hno ((h.marked s).2 (.inr hin))
      have hpend : ¬ m.pending[s]?.isSome := fun hin => hno ((h.marked s).2 (.inl hin))
      rw [if_neg hrev, hsome]
      simp only [Option.isSome_some, Bool.not_true, Bool.false_eq_true, if_false]
      set m₀ : TwoAuthorityResolution D :=
        { m with ingested := m.ingested + 1, inner := (m.inner.ingest r).2 } with hm₀
      have hmark : ∀ x, x ∈ m₀.inner.revoked ↔ x = s ∨ m.pending[x]?.isSome ∨ x ∈ m.revoked := by
        intro x
        rw [← h.marked x]
        exact (hins ▸ Finset.mem_insert : x ∈ (m.inner.ingest r).2.revoked ↔ _)
      by_cases hen : m₀.Enough s
      · obtain ⟨h1, h2, h3, h4⟩ := settle_of_enough r.ingestTime hen
        rw [h1]
        refine ⟨⟨fun x hx => ?_, fun x => ?_⟩, fun x hx => ?_, fun x hx => ?_, fun x => ?_⟩
        · rw [h4, OrdMap.get_erase] at hx
          split_ifs at hx with hxs
          · cases hx
          · rw [h3, Finset.mem_insert, not_or]
            exact ⟨fun h => hxs h.symm, h.disjoint x hx⟩
        · rw [h2.inner, hmark x, h3, h4, OrdMap.get_erase, Finset.mem_insert]
          by_cases hxs : s = x
          · simp [hxs]
          · rw [if_neg hxs]
            have hx : m₀.pending = m.pending := rfl
            have hy : m₀.revoked = m.revoked := rfl
            rw [hx, hy]
            tauto
        · rw [h3]
          exact Finset.mem_insert_of_mem hx
        · obtain rfl : x = s := by simpa using hx
          exact ⟨hrev, by rw [h3]; exact Finset.mem_insert_self _ _, hen⟩
        · exact List.count_le_length
      · obtain ⟨h1, h2, h3, h4⟩ := settle_of_not_enough r.ingestTime hen
        rw [h1]
        refine ⟨⟨fun x hx => ?_, fun x => ?_⟩, h3 ▸ Finset.Subset.refl _,
          fun x hx => by simp at hx, fun x => List.count_le_length⟩
        · rw [h3]
          rw [h4, OrdMap.get_insert] at hx
          split_ifs at hx with hxs
          · exact hxs ▸ hrev
          · exact h.disjoint x hx
        · rw [h2.inner, hmark x, h3, h4, OrdMap.get_insert]
          by_cases hxs : s = x
          · simp [hxs]
          · rw [if_neg hxs]
            have hx : m₀.pending = m.pending := rfl
            have hy : m₀.revoked = m.revoked := rfl
            rw [hx, hy]
            tauto

/-- What two lists of decisions do one after the other. -/
lemma Decides.append {m m₁ m₂ : TwoAuthorityResolution D} {out₁ out₂ : List (MaAction D)}
    (h₁ : Decides m out₁ m₁) (h₂ : Decides m₁ out₂ m₂) (hen : ∀ s, m₁.Enough s → m.Enough s) :
    Decides m (out₁ ++ out₂) m₂ := by
  refine ⟨h₂.inStep, h₁.lasting.trans h₂.lasting, fun s hs => ?_, fun s => ?_⟩
  · rcases List.mem_append.1 hs with hs | hs
    · obtain ⟨hno, hyes, hs⟩ := h₁.revokes s hs
      exact ⟨hno, h₂.lasting hyes, hs⟩
    · obtain ⟨hno, hyes, hs⟩ := h₂.revokes s hs
      exact ⟨fun hin => hno (h₁.lasting hin), hyes, hen s hs⟩
  · rw [List.count_append]
    by_cases hin : MaAction.revoke s ∈ out₁
    · have hnot : MaAction.revoke s ∉ out₂ := fun hin' =>
        (h₂.revokes s hin').1 (h₁.revokes s hin).2.1
      rw [List.count_eq_zero_of_not_mem hnot]
      exact h₁.once s
    · rw [List.count_eq_zero_of_not_mem hin, Nat.zero_add]
      exact h₂.once s

/-- The first loop of a tick settles the subjects the correlator has just marked. -/
lemma InStep.sweep_new {m : TwoAuthorityResolution D} (h : InStep m) (t : SimTime)
    {w : LegacyWindow D} {found : List D} (hnd : found.Nodup)
    (hnew : ∀ s ∈ found, s ∉ m.inner.revoked)
    (hmark : ∀ s, s ∈ w.revoked ↔ s ∈ m.inner.revoked ∨ s ∈ found) :
    Decides m (sweep isNew t found { m with inner := w }).1
        (sweep isNew t found { m with inner := w }).2.2 ∧
      Same { m with inner := w } (sweep isNew t found { m with inner := w }).2.2 := by
  obtain ⟨hout, hsame, hrev, hpend⟩ := sweep_eq isNew_congr t hnd { m with inner := w }
  generalize (sweep isNew t found { m with inner := w }).1 = out at *
  generalize (sweep isNew t found { m with inner := w }).2.2 = m₁ at *
  have hnot : ∀ s ∈ found, s ∉ m.revoked ∧ ¬ m.pending[s]?.isSome := fun s hs =>
    ⟨fun hin => hnew s hs ((h.marked s).2 (.inr hin)),
      fun hin => hnew s hs ((h.marked s).2 (.inl hin))⟩
  have hpass : ∀ s ∈ found, isNew { m with inner := w } s = true := fun s hs =>
    decide_eq_true (hnot s hs).1
  have hr : ∀ s, s ∈ m₁.revoked ↔ s ∈ m.revoked ∨ s ∈ found ∧ m.Enough s := by
    intro s
    rw [hrev s]
    exact or_congr_right ⟨fun hs => ⟨hs.1.1, hs.2⟩, fun hs => ⟨⟨hs.1, hpass s hs.1⟩, hs.2⟩⟩
  have hp : ∀ s, m₁.pending[s]?.isSome ↔
      s ∈ found ∧ ¬ m.Enough s ∨ s ∉ found ∧ m.pending[s]?.isSome := by
    intro s
    rw [hpend s]
    refine or_congr ⟨fun hs => ⟨hs.1.1, hs.2⟩, fun hs => ⟨⟨hs.1, hpass s hs.1⟩, hs.2⟩⟩ ?_
    exact and_congr_left' ⟨fun hs hin => hs ⟨hin, hpass s hin⟩, fun hs hin => hs hin.1⟩
  refine ⟨⟨⟨fun s hs hin => ?_, fun s => ?_⟩, fun s hs => (hr s).2 (.inl hs), fun s hs => ?_,
    fun s => ?_⟩, hsame⟩
  · rcases (hp s).1 hs with ⟨hs, hen⟩ | ⟨hs, hopen⟩
    · rcases (hr s).1 hin with hin | ⟨-, hen'⟩
      · exact (hnot s hs).1 hin
      · exact hen hen'
    · rcases (hr s).1 hin with hin | ⟨hs', -⟩
      · exact h.disjoint s hopen hin
      · exact hs hs'
  · rw [hsame.inner, hp s, hr s]
    change s ∈ w.revoked ↔ _
    rw [hmark s, h.marked s]
    by_cases hs : s ∈ found
    · by_cases hen : m.Enough s
      · simp [hs, hen]
      · simp [hs, hen]
    · simp [hs]
  · rw [hout] at hs
    obtain ⟨hs, hen⟩ := revoke_mem_map_decided.1 hs
    have hs := (List.mem_filter.1 hs).1
    exact ⟨(hnot s hs).1, (hr s).2 (.inr ⟨hs, hen⟩), hen⟩
  · rw [hout]
    exact count_map_decided_le (hnd.filter _) s

/-- The second loop of a tick settles the open cases that enough authorities can resolve, and leaves
none of them open. -/
lemma InStep.sweep_declared {m : TwoAuthorityResolution D} (h : InStep m) (t : SimTime) :
    Decides m (sweep isDeclared t m.pending.keys m).1
        (sweep isDeclared t m.pending.keys m).2.2 ∧
      Same m (sweep isDeclared t m.pending.keys m).2.2 ∧
      ∀ s, (sweep isDeclared t m.pending.keys m).2.2.pending[s]?.isSome →
        ¬ (sweep isDeclared t m.pending.keys m).2.2.isDeclared s = true := by
  have hnd : m.pending.keys.Nodup := (OrdMap.pairwise_keys _).imp fun h => h.ne
  have hkeys : ∀ s, s ∈ m.pending.keys ↔ m.pending[s]?.isSome := fun s => by
    rw [OrdMap.mem_keys, Option.isSome_iff_exists]
  obtain ⟨hout, hsame, hrev, hpend⟩ := sweep_eq (fun _ _ s h _ => h.isDeclared s) t hnd m
  generalize (sweep isDeclared t m.pending.keys m).1 = out at *
  generalize (sweep isDeclared t m.pending.keys m).2.2 = m₁ at *
  have hr : ∀ s, s ∈ m₁.revoked ↔
      s ∈ m.revoked ∨ m.pending[s]?.isSome ∧ m.isDeclared s = true := by
    intro s
    rw [hrev s, hkeys s]
    exact or_congr_right ⟨And.left, fun hs => ⟨hs, enough_of_isDeclared hs.2⟩⟩
  have hp : ∀ s, m₁.pending[s]?.isSome ↔ m.pending[s]?.isSome ∧ ¬ m.isDeclared s = true := by
    intro s
    rw [hpend s, hkeys s]
    constructor
    · rintro (⟨⟨hopen, hd⟩, hen⟩ | ⟨hno, hopen⟩)
      · exact absurd (enough_of_isDeclared hd) hen
      · exact ⟨hopen, fun hd => hno ⟨hopen, hd⟩⟩
    · exact fun ⟨hopen, hd⟩ => .inr ⟨fun hin => hd hin.2, hopen⟩
  refine ⟨⟨⟨fun s hs hin => ?_, fun s => ?_⟩, fun s hs => (hr s).2 (.inl hs), fun s hs => ?_,
    fun s => ?_⟩, hsame, fun s hs => hsame.isDeclared s ▸ ((hp s).1 hs).2⟩
  · obtain ⟨hopen, hd⟩ := (hp s).1 hs
    rcases (hr s).1 hin with hin | ⟨-, hd'⟩
    · exact h.disjoint s hopen hin
    · exact hd hd'
  · rw [hsame.inner, h.marked s, hp s, hr s]
    by_cases hd : m.isDeclared s = true
    · simp [hd, or_comm]
    · simp [hd]
  · rw [hout] at hs
    obtain ⟨hs, hen⟩ := revoke_mem_map_decided.1 hs
    obtain ⟨hs, hd⟩ := List.mem_filter.1 hs
    have hopen := (hkeys s).1 hs
    exact ⟨h.disjoint s hopen, (hr s).2 (.inr ⟨hopen, hd⟩), hen⟩
  · rw [hout]
    exact count_map_decided_le (hnd.filter _) s

/-- One tick keeps the stages in step, and leaves no case open that enough authorities can
resolve. -/
lemma InStep.onTick {m : TwoAuthorityResolution D} (h : InStep m) (t : SimTime) :
    Decides m (m.onTick t).1 (m.onTick t).2.2 ∧
      Same { m with inner := (m.inner.correlateAll t).2 } (m.onTick t).2.2 ∧
      ∀ s, (m.onTick t).2.2.pending[s]?.isSome → ¬ (m.onTick t).2.2.isDeclared s = true := by
  obtain ⟨found, hsub, hout, hnew, hmark⟩ :=
    LegacyWindow.correlateEach_revoked t m.inner.nodup_keys m.inner
  have hfound : (m.inner.correlateAll t).1.map MaAction.subject = found := by
    rw [LegacyWindow.correlateAll, hout, List.map_map]
    exact List.map_id found
  obtain ⟨h₁, hsame₁⟩ := h.sweep_new t (w := (m.inner.correlateAll t).2)
    (m.inner.nodup_keys.sublist hsub) hnew hmark
  obtain ⟨h₂, hsame₂, hclosed⟩ := h₁.inStep.sweep_declared t
  have hsame : Same { m with inner := (m.inner.correlateAll t).2 } (m.onTick t).2.2 := by
    unfold TwoAuthorityResolution.onTick
    dsimp only
    rw [hfound]
    exact ⟨hsame₂.params.trans hsame₁.params, hsame₂.inner.trans hsame₁.inner,
      hsame₂.linkage.trans hsame₁.linkage⟩
  refine ⟨?_, hsame, fun s hs => ?_⟩
  · unfold TwoAuthorityResolution.onTick
    dsimp only
    rw [hfound]
    exact h₁.append h₂ fun s => (hsame₁.enough s).1
  · unfold TwoAuthorityResolution.onTick at hs ⊢
    dsimp only at hs ⊢
    rw [hfound] at hs ⊢
    exact hclosed s hs

lemma InStep.op {m : TwoAuthorityResolution D} (h : InStep m) (o : Op D) :
    Decides m (m.act o).1 (m.act o).2 := by
  cases o with
  | onReport r => exact h.onReport r
  | onTick t => exact (h.onTick t).1
  | declareLinkage s a =>
    exact ⟨⟨h.disjoint, h.marked⟩, Finset.Subset.refl _, nofun, fun _ => Nat.zero_le 1⟩

/-! ## What an operation leaves alone -/

/-- A report declares nothing, and reaches the correlator unless it is refused. -/
lemma onReport_same (m : TwoAuthorityResolution D) (r : MisbehaviourReport D) :
    Same { m with
        inner := if (ingestionRefusal m.params r).isSome then m.inner else (m.inner.ingest r).2 }
      (m.onReport r).2.2 := by
  unfold TwoAuthorityResolution.onReport
  cases hr : ingestionRefusal m.params r with
  | some refusal => exact ⟨rfl, rfl, rfl⟩
  | none =>
    simp only [Option.isSome_none, Bool.false_eq_true, if_false]
    split_ifs with hrev hcorr
    · exact ⟨rfl, rfl, rfl⟩
    · exact ⟨rfl, rfl, rfl⟩
    · by_cases hen : Enough { m with
          ingested := m.ingested + 1, inner := (m.inner.ingest r).2 } r.subjectCertDigest
      · obtain ⟨-, ⟨hp, hi, hl⟩, -⟩ := settle_of_enough r.ingestTime hen
        exact ⟨hp, hi, hl⟩
      · obtain ⟨-, ⟨hp, hi, hl⟩, -⟩ := settle_of_not_enough r.ingestTime hen
        exact ⟨hp, hi, hl⟩

/-- What an operation asks of the correlator. -/
def innerCall (p : ResolutionParams) : Op D → Option (Call D)
  | .onReport r =>
    if (ingestionRefusal p r).isSome then none else some (.ingestEvidence r r.ingestTime)
  | .onTick t => some (.correlateAll t)
  | .declareLinkage _ _ => none

/-- What a run asks of the correlator. -/
def innerCalls (p : ResolutionParams) (ops : List (Op D)) : List (Call D) :=
  ops.filterMap (innerCall p)

/-- An operation runs the correlator on what it asks of it, and changes the declarations only by
declaring. -/
lemma op_same (m : TwoAuthorityResolution D) (o : Op D) (h : InStep m) :
    (m.op o).2.params = m.params ∧
      (m.op o).2.inner = m.inner.run (innerCall m.params o).toList ∧
      ∀ s a, a ∈ ((m.op o).2.linkage[s]?).getD ∅ ↔
        a ∈ (m.linkage[s]?).getD ∅ ∨ o = .declareLinkage s a := by
  cases o with
  | onReport r =>
    obtain ⟨hp, hi, hl⟩ := m.onReport_same r
    refine ⟨hp, ?_, fun s a => ?_⟩
    · refine hi.trans ?_
      unfold innerCall
      dsimp only
      split_ifs
      · rfl
      · rfl
    · rw [op, hl]
      exact (or_iff_left nofun).symm
  | onTick t =>
    obtain ⟨-, ⟨hp, hi, hl⟩, -⟩ := h.onTick t
    refine ⟨hp, hi, fun s a => ?_⟩
    rw [op, hl]
    exact (or_iff_left nofun).symm
  | declareLinkage s' a' =>
    refine ⟨rfl, rfl, fun s a => ?_⟩
    change a ∈ ((m.linkage.insert s' _)[s]?).getD ∅ ↔ _
    rw [OrdMap.get_insert]
    by_cases hs : s' = s
    · subst hs
      rw [if_pos rfl, Option.getD_some, Finset.mem_insert, Op.declareLinkage.injEq]
      constructor
      · rintro (rfl | ha)
        · exact .inr ⟨rfl, rfl⟩
        · exact .inl ha
      · rintro (ha | ⟨-, rfl⟩)
        · exact .inr ha
        · exact .inl rfl
    · rw [if_neg hs, Op.declareLinkage.injEq]
      exact (or_iff_left fun h => hs h.1).symm

/-- The decision a record of the channel `ma.decision` carries. -/
def decisionOf : MaRecord D → Option (D × String)
  | .decision _ subject decision => some (subject, decision)
  | _ => none

lemma settle_records (m : TwoAuthorityResolution D) (s : D) (t : SimTime) :
    (m.settle s t).2.1.filterMap decisionOf =
      [((m.settle s t).1.subject, (m.settle s t).1.asStr)] := by
  have hcase : decisionOf (m.resolve s t).2.1 = none := by
    unfold resolve
    dsimp only
    split_ifs <;> rfl
  change List.filterMap decisionOf [(m.resolve s t).2.1, .decision t _ _] = _
  rw [List.filterMap_cons, hcase]
  rfl

/-- Settling a list emits the decisions it returns. -/
lemma sweep_records (test : TwoAuthorityResolution D → D → Bool) (t : SimTime)
    (subjects : List D) :
    ∀ m, (sweep test t subjects m).2.1.filterMap decisionOf =
      (sweep test t subjects m).1.map fun a => (a.subject, a.asStr) := by
  induction subjects with
  | nil => exact fun m => rfl
  | cons s subjects ih =>
    intro m
    unfold sweep
    split_ifs with h
    · change List.filterMap decisionOf ((m.settle s t).2.1 ++ _) = _ :: _
      rw [List.filterMap_append, settle_records, ih]
      rfl
    · exact ih m

/-- An operation emits on `ma.decision` the actions it returns. -/
lemma op_records (m : TwoAuthorityResolution D) (o : Op D) :
    (m.op o).1.2.filterMap decisionOf = (m.op o).1.1.map fun a => (a.subject, a.asStr) := by
  cases o with
  | declareLinkage s a => rfl
  | onTick t =>
    change List.filterMap decisionOf (_ ++ _) = List.map _ (_ ++ _)
    rw [List.filterMap_append, List.map_append, sweep_records, sweep_records]
  | onReport r =>
    change (m.onReport r).2.1.filterMap decisionOf =
      (m.onReport r).1.map fun a => (a.subject, a.asStr)
    unfold onReport
    cases hr : ingestionRefusal m.params r with
    | some refusal => rfl
    | none =>
      dsimp only
      split_ifs
      · rfl
      · rfl
      · exact settle_records _ _ _

/-! ## Runs -/

lemma inStep_new (p : ResolutionParams) : InStep (new p : TwoAuthorityResolution D) := by
  have hnone : ∀ s, (new p : TwoAuthorityResolution D).pending[s]? = none := fun s =>
    Std.ExtTreeMap.getElem?_empty
  refine ⟨fun s hs => ?_, fun s => ?_⟩
  · exact Finset.notMem_empty s
  · rw [hnone s]
    exact ⟨fun h => absurd h (Finset.notMem_empty s), fun h => h.elim nofun id⟩

lemma inStep_run (p : ResolutionParams) (ops : List (Op D)) : InStep (run p ops) :=
  Mealy.run_induction (fun _ o h => (h.op o).inStep) (inStep_new p) ops

/-- Along a run the correlator has run on what was asked of it, and an authority resolves a subject
exactly when that was declared. -/
lemma run_same (p : ResolutionParams) (ops : List (Op D)) :
    (run p ops).params = p ∧
      (run p ops).inner = (LegacyWindow.start p.correlation ∅).run (innerCalls p ops) ∧
      ∀ s a, a ∈ ((run p ops).linkage[s]?).getD ∅ ↔ Op.declareLinkage s a ∈ ops := by
  induction ops using List.reverseRecOn with
  | nil =>
    refine ⟨rfl, rfl, fun s a => ?_⟩
    rw [show (run p ([] : List (Op D))).linkage[s]? = none from Std.ExtTreeMap.getElem?_empty]
    exact ⟨fun h => absurd h (Finset.notMem_empty a), nofun⟩
  | append_singleton ops o ih =>
    obtain ⟨hp, hi, hl⟩ := ih
    obtain ⟨hp', hi', hl'⟩ := (run p ops).op_same o (inStep_run p ops)
    rw [run_concat]
    refine ⟨hp'.trans hp, ?_, fun s a => ?_⟩
    · rw [hi', hi, hp, innerCalls, innerCalls, List.filterMap_append]
      have hlast : [o].filterMap (innerCall p) = (innerCall p o).toList := by
        cases h : innerCall p o with
        | none => simp [h]
        | some c => simp [h]
      rw [hlast]
      exact (Mealy.run_append _ _ _ _).symm
    · rw [hl' s a, hl s a, List.mem_append, List.mem_singleton]
      exact or_congr_right eq_comm

end TwoAuthorityResolution

end V2xw.Threat
