import Mathlib.Data.List.DropRight
import Mathlib.Data.Rat.Floor
import V2xw.Lib.Mealy
import V2xw.Threat.Ts103759

/-!
# The streak gate over a history

A check of the observation suite is meant to fire on a message when the last `minConsecutive` scores
of the check on messages of the signer are all at least 1, however the messages of other signers and
the messages on which the check did not run lie between them. The streak is a `u32` that counts on
without a bound, so after `2 ^ 32` such scores in a row it starts again.

## Main definitions

* `runLength` — how many scores in a row, up to the last, are at least 1.
* `Ts103759Suite.scoresOf` — the scores of a check on the messages of a signer.
* `Ts103759Suite.GateMeets` — the specification of the gate.

## Main results

* `Ts103759Suite.streakOf_run` — the streak is the length of the run, modulo `2 ^ 32`.
* `Ts103759Suite.gate_meets_iff` — exactly when the gate meets its specification.
-/

namespace V2xw.Threat

/-! ## Runs of scores -/

section Runs

variable {K : Type} [LinearOrder K] [One K]

/-- How many scores in a row, up to the last, are at least 1. -/
def runLength (scores : List K) : ℕ := (scores.reverse.takeWhile (1 ≤ ·)).length

lemma runLength_concat (scores : List K) (x : K) :
    runLength (scores ++ [x]) = if 1 ≤ x then runLength scores + 1 else 0 := by
  rw [runLength, List.reverse_append, List.reverse_singleton, List.singleton_append,
    List.takeWhile_cons]
  by_cases hx : 1 ≤ x
  · rw [if_pos hx, decide_eq_true hx]
    rfl
  · rw [if_neg hx, decide_eq_false hx]
    rfl

/-- The last scores are all at least 1 when the run is as long. -/
lemma le_runLength (n : ℕ) (scores : List K) :
    n ≤ runLength scores ↔ n ≤ scores.length ∧ ∀ x ∈ scores.rtake n, 1 ≤ x := by
  rw [runLength, List.rtake_eq_reverse_take_reverse, ← @List.length_reverse _ scores]
  generalize scores.reverse = l
  simp only [List.mem_reverse]
  induction l generalizing n with
  | nil => simp
  | cons a l ih =>
    cases n with
    | zero => simp
    | succ n =>
      rw [List.takeWhile_cons, List.take_succ_cons]
      by_cases ha : 1 ≤ a
      · rw [decide_eq_true ha]
        simp only [if_true, List.length_cons, Nat.add_le_add_iff_right, ih, List.forall_mem_cons,
          ha, true_and]
      · rw [decide_eq_false ha]
        simp [ha]

/-- A streak counts the scores of a run. -/
lemma nextRun_ofNat (scores : List K) (x : K) :
    Ts103759Suite.nextRun (UInt32.ofNat (runLength scores)) x =
      UInt32.ofNat (runLength (scores ++ [x])) := by
  rw [runLength_concat, Ts103759Suite.nextRun]
  split_ifs
  · rw [UInt32.ofNat_add]
    rfl
  · rfl

end Runs

namespace Ts103759Suite

variable {K D : Type} [Field K] [LinearOrder K] [FloorRing K] [LinearOrder D]
  (p : Ts103759Params K) (lib : Libm K)

/-! ## Histories -/

/-- The verdicts on a sequence of messages. -/
def verdicts (calls : List (CheckCall K D)) : List (TsVerdict K D) :=
    Mealy.outputs (check p lib) {} calls

/-- The suite after a sequence of messages. -/
def after (calls : List (CheckCall K D)) : Ts103759Suite K D := Mealy.run (check p lib) {} calls

/-- The scores of a check on the messages of a signer, those on which it ran. -/
def scoresOf (d : D) (c : Ts103759Check) (outs : List (TsVerdict K D)) : List K :=
  outs.filterMap fun o => if o.subject = d then o.scores c else none

lemma verdicts_concat (calls : List (CheckCall K D)) (call : CheckCall K D) :
    verdicts p lib (calls ++ [call]) =
      verdicts p lib calls ++ [((after p lib calls).check p lib call).1] :=
  Mealy.outputs_concat ..

/-- **The invariant of the gate.** The streak of a check is the length of the run of its scores, and
neither other signers nor messages on which the check did not run make a difference. -/
theorem streakOf_run (calls : List (CheckCall K D)) (d : D) (c : Ts103759Check) :
    (after p lib calls).streakOf d c =
      UInt32.ofNat (runLength (scoresOf d c (verdicts p lib calls))) := by
  induction calls using List.reverseRecOn with
  | nil =>
    have hnone : (∅ : OrdMap D (SubjectState K))[d]? = none := Std.ExtTreeMap.getElem?_empty
    rw [after, streakOf]
    simp only [Mealy.run, List.foldl_nil, hnone]
    rfl
  | append_singleton calls call ih =>
    have hafter : after p lib (calls ++ [call]) = ((after p lib calls).check p lib call).2 :=
      Mealy.run_concat ..
    rw [hafter, check_streak, verdicts_concat, scoresOf, List.filterMap_append]
    simp only [List.filterMap_cons, List.filterMap_nil, check_subject]
    split_ifs with hd
    · rw [nextStreak, ih]
      cases ((after p lib calls).check p lib call).1.scores c with
      | none => simp [scoresOf]
      | some score => exact nextRun_ofNat _ _
    · rw [ih]
      simp [scoresOf]

/-! ## The specification -/

/-- The scores of a check on the messages of the signer of a message, up to that message. -/
def scoresTo (calls : List (CheckCall K D)) (k : ℕ) (o : TsVerdict K D)
    (c : Ts103759Check) : List K :=
  scoresOf o.subject c ((verdicts p lib calls).take (k + 1))

/-- The check ran on the message, and the last `minConsecutive` messages of the signer on which it
ran all scored at least 1. -/
def Due (calls : List (CheckCall K D)) (k : ℕ) (o : TsVerdict K D) (c : Ts103759Check) : Prop :=
  (o.scores c).isSome ∧ p.minConsecutive.toNat ≤ (scoresTo p lib calls k o c).length ∧
    ∀ x ∈ (scoresTo p lib calls k o c).rtake p.minConsecutive.toNat, 1 ≤ x

/-- What the gate is for: on each message it fires the checks that are due, each once with its
score, the highest score first and equal scores in the order of the checks. -/
def GateMeets (calls : List (CheckCall K D)) : Prop :=
  ∀ k o, (verdicts p lib calls)[k]? = some o →
    (∀ c, c ∈ o.fired.map TsObservation.check ↔ Due p lib calls k o c) ∧
    (∀ ob ∈ o.fired, o.scores ob.check = some ob.score ∧ ob.subject = o.subject) ∧
    o.fired.Pairwise fun a b =>
      b.score < a.score ∨ a.score = b.score ∧ a.check.rank < b.check.rank

/-- A message ends the history up to it. -/
lemma exists_call {calls : List (CheckCall K D)} {k : ℕ} {o : TsVerdict K D}
    (h : (verdicts p lib calls)[k]? = some o) :
    ∃ call, (verdicts p lib calls).take (k + 1) = verdicts p lib (calls.take k ++ [call]) ∧
      o = ((after p lib (calls.take k)).check p lib call).1 ∧ o.subject = call.m.signer := by
  obtain ⟨hlt, ho⟩ := List.getElem?_eq_some_iff.1 h
  have hlen : k < calls.length := by
    rwa [verdicts, Mealy.length_outputs] at hlt
  have hsplit : calls = calls.take k ++ [calls[k]] ++ calls.drop (k + 1) := by
    rw [List.append_assoc, List.singleton_append, List.cons_getElem_drop_succ,
      List.take_append_drop]
  have hverdicts : verdicts p lib calls = verdicts p lib (calls.take k ++ [calls[k]]) ++
      Mealy.outputs (check p lib) (after p lib (calls.take k ++ [calls[k]]))
        (calls.drop (k + 1)) := by
    conv_lhs => rw [hsplit]
    exact Mealy.outputs_append ..
  have hlength : (verdicts p lib (calls.take k ++ [calls[k]])).length = k + 1 := by
    rw [verdicts, Mealy.length_outputs, List.length_append, List.length_take,
      List.length_singleton, min_eq_left hlen.le]
  have hlast : o = ((after p lib (calls.take k)).check p lib calls[k]).1 := by
    rw [hverdicts, List.getElem?_append_left (by omega), verdicts_concat,
      List.getElem?_append_right (by rw [verdicts, Mealy.length_outputs]; simp)] at h
    rw [verdicts, Mealy.length_outputs, List.length_take, min_eq_left hlen.le, Nat.sub_self] at h
    exact (Option.some.inj h).symm
  refine ⟨calls[k], ?_, hlast, by rw [hlast, check_subject]⟩
  rw [hverdicts, List.take_append_of_le_length (by omega), ← hlength, List.take_length]

/-- **What fires on a message of a history**: a check that ran, when the run of its scores, modulo
`2 ^ 32`, is long enough. -/
lemma fired_iff {calls : List (CheckCall K D)} {k : ℕ} {o : TsVerdict K D}
    (h : (verdicts p lib calls)[k]? = some o) (c : Ts103759Check) :
    c ∈ o.fired.map TsObservation.check ↔ (o.scores c).isSome ∧
      p.minConsecutive.toNat ≤ runLength (scoresTo p lib calls k o c) % 2 ^ 32 := by
  obtain ⟨call, htake, ho, hsubject⟩ := exists_call p lib h
  have hscores (score : K) (hscore : o.scores c = some score) :
      scoresTo p lib calls k o c =
        scoresOf call.m.signer c (verdicts p lib (calls.take k)) ++ [score] := by
    rw [scoresTo, htake, verdicts_concat, scoresOf, List.filterMap_append, ← ho]
    simp only [List.filterMap_cons, hsubject, if_true, hscore, List.filterMap_nil]
    rfl
  have hfired := (check_fired p lib (after p lib (calls.take k)) call).1
  rw [← ho] at hfired
  rw [List.mem_map]
  constructor
  · rintro ⟨ob, hob, rfl⟩
    obtain ⟨score, hscore, hmin, -⟩ := (hfired ob).1 hob
    refine ⟨by rw [hscore]; rfl, ?_⟩
    rw [streakOf_run, nextRun_ofNat, ← hscores score hscore, UInt32.le_iff_toNat_le,
      UInt32.toNat_ofNat'] at hmin
    exact hmin
  · rintro ⟨hsome, hmin⟩
    obtain ⟨score, hscore⟩ := Option.isSome_iff_exists.1 hsome
    refine ⟨⟨c, score, call.m.signer, call.m.receivedAt⟩, (hfired _).2 ⟨score, hscore, ?_, rfl⟩, rfl⟩
    rw [streakOf_run, nextRun_ofNat, ← hscores score hscore, UInt32.le_iff_toNat_le,
      UInt32.toNat_ofNat']
    exact hmin

/-- **The streak gate.** It meets its specification exactly when no check runs on a message with so
long a run of scores of at least 1 that the streak has started again and is short of
`minConsecutive`. -/
theorem gate_meets_iff (calls : List (CheckCall K D)) :
    GateMeets p lib calls ↔
      ∀ k o c, (verdicts p lib calls)[k]? = some o → (o.scores c).isSome →
        ¬ (2 ^ 32 ≤ runLength (scoresTo p lib calls k o c) ∧
          runLength (scoresTo p lib calls k o c) % 2 ^ 32 < p.minConsecutive.toNat) := by
  have hmin : p.minConsecutive.toNat < 2 ^ 32 := p.minConsecutive.toNat_lt
  constructor
  · rintro hgate k o c h hsome ⟨hlong, hshort⟩
    have hdue : Due p lib calls k o c := ⟨hsome, (le_runLength _ _).1 (by omega)⟩
    have hfired := (fired_iff p lib h c).1 (((hgate k o h).1 c).2 hdue)
    omega
  · intro hruns k o h
    refine ⟨fun c => ?_, fun ob hob => ?_, ?_⟩
    · rw [fired_iff p lib h, Due, ← le_runLength]
      refine and_congr_right fun hsome => ⟨fun hle => hle.trans (Nat.mod_le _ _), fun hle => ?_⟩
      have hrun := hruns k o c h hsome
      rcases Nat.lt_or_ge (runLength (scoresTo p lib calls k o c)) (2 ^ 32) with hlt | hge
      · rwa [Nat.mod_eq_of_lt hlt]
      · omega
    · obtain ⟨call, -, ho, hsubject⟩ := exists_call p lib h
      rw [ho] at hob
      obtain ⟨score, hscore, -, hob'⟩ := ((check_fired p lib _ call).1 ob).1 hob
      rw [hsubject, hob', ho]
      exact ⟨hscore, rfl⟩
    · obtain ⟨call, -, ho, -⟩ := exists_call p lib h
      rw [ho]
      exact (check_fired p lib _ call).2

/-! ## A signer that does not stop -/

/-- A message whose signature was tested and does not verify. -/
def forged : CheckCall ℚ ℕ where
  me := ⟨0, 0⟩
  m :=
    { signer := 1
      kind := .beacon
      receivedAt := 0
      claimedGenerationTime := 0
      claimedXM := 0
      claimedYM := 0
      claimedSpeedMps := 0
      claimedHeadingRad := 0
      claimedPosConfidenceM := 0
      verification := .badSignature }
  distanceToRoadM := fun _ _ => 0
  perception := .none
  envelope := none

/-- A library in which nothing is far away. -/
def flatLibm : Libm ℚ := ⟨fun _ _ => 0, fun _ _ => 0, 3⟩

/-- Each forged message has the same score. -/
lemma scoresOf_forged (n : ℕ) :
    scoresOf 1 .signatureInvalid (verdicts .default flatLibm (List.replicate n forged)) =
      List.replicate n (3 / 2 : ℚ) := by
  induction n with
  | zero => rfl
  | succ n ih =>
    rw [List.replicate_succ', List.replicate_succ', verdicts_concat, scoresOf,
      List.filterMap_append, ← scoresOf, ih]
    rw [check_of_envelope _ _ _ forged .signatureInvalid (.inl ⟨rfl, rfl⟩)]
    rfl

lemma runLength_replicate (n : ℕ) : runLength (List.replicate n (3 / 2 : ℚ)) = n := by
  rw [runLength, List.reverse_replicate, List.takeWhile_replicate, if_pos (by norm_num),
    List.length_replicate]

/-- After so many forged messages that the streak has started again, the next one does not fire. -/
lemma not_gateMeets_forged (n : ℕ) (hlong : 2 ^ 32 ≤ n + 1) (hshort : (n + 1) % 2 ^ 32 < 2) :
    ¬ GateMeets .default flatLibm (List.replicate (n + 1) forged) := by
  intro hgate
  have hcheck (s : Ts103759Suite ℚ ℕ) : (s.check .default flatLibm forged).1.scores
      .signatureInvalid = some (3 / 2) := by
    rw [check_of_envelope _ _ _ forged .signatureInvalid (.inl ⟨rfl, rfl⟩)]
    rfl
  have hlen (n : ℕ) : (verdicts .default flatLibm (List.replicate n forged)).length = n := by
    rw [verdicts, Mealy.length_outputs, List.length_replicate]
  have ho : (verdicts .default flatLibm (List.replicate (n + 1) forged))[n]? =
      some ((after .default flatLibm (List.replicate n forged)).check .default flatLibm
          forged).1 := by
    rw [List.replicate_succ', verdicts_concat, List.getElem?_append_right (by rw [hlen]), hlen,
      Nat.sub_self]
    rfl
  have hscores : scoresTo .default flatLibm (List.replicate (n + 1) forged) n
      ((after .default flatLibm (List.replicate n forged)).check .default flatLibm forged).1
      .signatureInvalid = List.replicate (n + 1) (3 / 2 : ℚ) := by
    rw [scoresTo, check_subject, List.take_of_length_le (by rw [hlen])]
    exact scoresOf_forged (n + 1)
  have hmin : (Ts103759Params.default : Ts103759Params ℚ).minConsecutive.toNat = 2 := rfl
  have hdue := (le_runLength 2 (List.replicate (n + 1) (3 / 2 : ℚ))).1
    (by rw [runLength_replicate]; omega)
  have hfired := (fired_iff .default flatLibm ho .signatureInvalid).1
    (((hgate n _ ho).1 .signatureInvalid).2 ⟨by rw [hcheck]; rfl, by rw [hscores, hmin]; exact hdue⟩)
  rw [hscores, runLength_replicate, hmin] at hfired
  omega

theorem streak_starts_again :
    ¬ GateMeets (.default : Ts103759Params ℚ) flatLibm (List.replicate (4294967295 + 1) forged) :=
  not_gateMeets_forged 4294967295 (by norm_num) (by norm_num)

end Ts103759Suite

end V2xw.Threat
