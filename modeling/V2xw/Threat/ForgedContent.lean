import V2xw.Threat.StreakGate

/-!
# The content of messages that did not verify

Two histories of one receiver, the second with further messages whose signatures do not hold: what
the suite makes of the verified messages should be the same. A message of an unverified envelope
reaches the state in two places: the first message of all sets the instant from which the receiver
listens, and a failed signature makes the entry of a subject not heard before, with the claim of the
message as its last fix.

## Main definitions

* `Scores.Content` — scores without the checks of the envelope.
* `Ts103759Suite.evidence` — the suite, of which only the verdicts on verified messages are kept.
* `Ts103759Suite.Harmless` — the further messages that touch neither place.

## Main results

* `Ts103759Suite.check_last` — the last fix of a subject after a message.
* `Ts103759Suite.Agree.extra`, `Ts103759Suite.Agree.kept` — the two runs, one message on.
* `Ts103759Suite.evidence_eq` — harmless messages are not evidence.
-/

namespace V2xw.Threat

/-! ## The checks of the content -/

/-- The checks of the envelope did not run. -/
def Scores.Content {K : Type} (scores : Scores K) : Prop :=
  ∀ c : Ts103759Check, c.classOf = .envelope → scores c = none

lemma Scores.Content.insert {K : Type} {scores : Scores K} (h : scores.Content)
    {c : Ts103759Check} (hc : c.classOf ≠ .envelope) (score : K) :
    (scores.insert c score).Content := by
  intro a ha
  have hac : a ≠ c := fun hac => hc (by rw [← hac, ha])
  rw [Scores.insert, Function.update_of_ne hac]
  exact h a ha

lemma Scores.content_empty {K : Type} : (Scores.empty : Scores K).Content := fun _ _ => rfl

namespace Ts103759Suite

section Classes

variable {K D : Type} [Field K] (p : Ts103759Params K) (lib : Libm K) (c : CheckCall K D)
  (skips : Skips) {out : Scores K}

lemma content_class3 (h : out.Content) : (class3 p c skips out).2.Content := by
  rw [class3]
  split
  · exact (h.insert (by decide) _).insert (by decide) _
  · exact h.insert (by decide) _

variable [LinearOrder K]

lemma content_class1 (h : out.Content) : (class1 p lib c skips out).2.Content := by
  rw [class1]
  split
  · exact (((h.insert (by decide) _).insert (by decide) _).insert (by decide) _).insert (by decide) _
  · exact ((h.insert (by decide) _).insert (by decide) _).insert (by decide) _

lemma content_class4 (h : out.Content) : (class4 p c skips out).2.Content := by
  rw [class4]
  split
  · exact h
  · split
    · exact h
    · exact h.insert (by decide) _

lemma content_cpmConsistency (objects : List PerceivedObject) (h : out.Content) :
    (cpmConsistency p c objects skips out).2.Content := by
  rw [cpmConsistency]
  split
  · exact h
  · dsimp only
    split
    · exact h
    · exact h.insert (by decide) _

lemma content_firstSighting (t since : Core.SimTime) (h : out.Content) :
    (firstSighting p lib c t since out).Content := by
  rw [firstSighting]
  split_ifs
  · exact h.insert (by decide) _
  · exact h

variable [FloorRing K]

lemma content_class2 (prev : Fix K) (t : Core.SimTime) (h : out.Content) :
    (class2 p lib prev c.m t out).Content := by
  rw [class2]
  dsimp only
  split_ifs
  all_goals
    repeat' first
      | exact h
      | refine Scores.Content.insert ?_ (by decide) _

variable [LinearOrder D]

lemma content_class5 (t : Core.SimTime) (recent : OrdMap D (K × K × Core.SimTime))
    (h : out.Content) : (class5 p lib c t recent skips out).2.2.Content := by
  rw [class5]
  cases nearest lib c.m (t - secsToNs p.maxDeltaInterS) recent with
  | none =>
    dsimp only
    split
    · exact content_cpmConsistency p c _ _ h
    · exact h
  | some d =>
    have hnear := h.insert (show Ts103759Check.classOf .intersection ≠ .envelope by decide)
      (p.proximityDistanceM / max d (1 / 1000000000))
    dsimp only
    split
    · exact content_cpmConsistency p c _ _ hnear
    · exact hnear

/-- The classes leave the checks of the envelope out. -/
lemma content_content (known : Option (Fix K)) (since : Core.SimTime)
    (recent : OrdMap D (K × K × Core.SimTime)) :
    (content p lib known since recent skips c).2.2.Content := by
  rw [content]
  refine content_class5 p lib c _ _ _ (content_class4 p c _ (content_class3 p c _ ?_))
  cases known with
  | none => exact content_firstSighting p lib c _ _ (content_class1 p lib c _ Scores.content_empty)
  | some prev => exact content_class2 p lib c _ _ (content_class1 p lib c _ Scores.content_empty)

end Classes

/-! ## One message -/

section Last

variable {K D : Type} [LinearOrder D] (s : Ts103759Suite K D)

/-- The last fix of a subject. -/
def lastOf (s : Ts103759Suite K D) (d : D) : Option (Fix K) := s.subjects[d]?.map SubjectState.last

lemma entry_last (m : ObservedMessage K D) :
    (s.entry m).last = (s.lastOf m.signer).getD (fixOf m) := by
  rw [entry, lastOf]
  cases s.subjects[m.signer]? <;> rfl

lemma keep_last (m : ObservedMessage K D) (d : D) :
    (s.keep m).lastOf d = if m.signer = d then some (fixOf m) else s.lastOf d := by
  rw [keep, lastOf, OrdMap.get_insert]
  split_ifs <;> rfl

variable [LinearOrder K] [One K] (p : Ts103759Params K)

lemma fire_last (m : ObservedMessage K D) (scores : Scores K) (d : D) :
    (s.fire p m scores).2.lastOf d =
      if m.signer = d then some ((s.lastOf d).getD (fixOf m)) else s.lastOf d := by
  rw [fire_state, lastOf, OrdMap.get_insert]
  split_ifs with hd
  · subst hd
    rw [← entry_last]
    rfl
  · rfl

/-- What a message fires depends only on the streaks of the checks that ran. -/
lemma fire_congr {s s' : Ts103759Suite K D} {m : ObservedMessage K D} {scores : Scores K}
    (h : ∀ a, (scores a).isSome → s'.streakOf m.signer a = s.streakOf m.signer a) :
    (s'.fire p m scores).1 = (s.fire p m scores).1 := by
  rw [fire, fire, gate_eq, gate_eq]
  refine congrArg (fun l : List (TsObservation K D) =>
    TsVerdict.mk m.signer scores (l.insertionSort before)) ?_
  refine List.filterMap_congr fun a _ => ?_
  rw [firing, firing, entry_streak, entry_streak]
  refine Option.bind_congr fun score hscore => ?_
  rw [h a (by rw [hscore]; rfl)]

end Last

section Step

variable {K D : Type} [Field K] [LinearOrder K] [FloorRing K] [LinearOrder D]
  (p : Ts103759Params K) (lib : Libm K) (s : Ts103759Suite K D) (c : CheckCall K D)

/-- **The last fix of a subject after a message.** A verified message replaces it, and one whose
signature failed makes it where there is none. -/
theorem check_last (d : D) :
    (s.check p lib c).2.lastOf d =
      if c.m.signer = d then
        match c.m.verification with
        | .unverified => s.lastOf d
        | .valid => some (fixOf c.m)
        | .badSignature | .unknownCertificate => some ((s.lastOf d).getD (fixOf c.m))
      else s.lastOf d := by
  cases h : c.m.verification with
  | unverified =>
    rw [check_of_unverified p lib s c h]
    exact (ite_self _).symm
  | badSignature =>
    rw [check_of_envelope p lib s c .signatureInvalid (.inl ⟨h, rfl⟩)]
    exact fire_last _ p _ _ _
  | unknownCertificate =>
    rw [check_of_envelope p lib s c .certificateUnknown (.inr ⟨h, rfl⟩)]
    exact fire_last _ p _ _ _
  | valid =>
    rw [check_of_valid p lib s c h, keep_last, fire_last]
    split_ifs <;> rfl

lemma check_listening :
    (s.check p lib c).2.listeningSince = some (s.listeningSince.getD c.m.receivedAt) := by
  cases h : c.m.verification with
  | unverified => rw [check_of_unverified p lib s c h]; rfl
  | badSignature =>
    rw [check_of_envelope p lib s c .signatureInvalid (.inl ⟨h, rfl⟩), fire_state]
    rfl
  | unknownCertificate =>
    rw [check_of_envelope p lib s c .certificateUnknown (.inr ⟨h, rfl⟩), fire_state]; rfl
  | valid => rw [check_of_valid p lib s c h, fire_state]; rfl

/-- A message that is not verified makes no claim that others are compared with, and leaves the
streaks of the content checks alone. -/
lemma check_of_not_valid (h : c.m.verification ≠ .valid) :
    (s.check p lib c).2.recent = s.recent ∧ (s.check p lib c).2.skips = s.skips ∧
      ∀ d (a : Ts103759Check), a.classOf ≠ .envelope →
        (s.check p lib c).2.streakOf d a = s.streakOf d a := by
  have hstreak (scores : Scores K) (hscores : (s.check p lib c).1.scores = scores)
      (hnone : ∀ a : Ts103759Check, a.classOf ≠ .envelope → scores a = none) (d : D)
      (a : Ts103759Check) (ha : a.classOf ≠ .envelope) :
      (s.check p lib c).2.streakOf d a = s.streakOf d a := by
    rw [check_streak, hscores]
    split_ifs
    · rw [nextStreak, hnone a ha]
      rfl
    · rfl
  have henvelope (check a : Ts103759Check) (hcheck : check.classOf = .envelope)
      (ha : a.classOf ≠ .envelope) : envelopeScores p check a = none :=
    Function.update_of_ne (fun h => ha (by rw [h, hcheck])) _ _
  cases hc : c.m.verification with
  | unverified =>
    have hcheck := check_of_unverified p lib s c hc
    exact ⟨by rw [hcheck]; rfl, by rw [hcheck]; rfl,
      hstreak Scores.empty (by rw [hcheck]) fun _ _ => rfl⟩
  | badSignature =>
    have hcheck := check_of_envelope p lib s c .signatureInvalid (.inl ⟨hc, rfl⟩)
    exact ⟨by rw [hcheck, fire_state]; rfl, by rw [hcheck, fire_state]; rfl,
      hstreak _ (by rw [hcheck]; rfl) fun a => henvelope .signatureInvalid a rfl⟩
  | unknownCertificate =>
    have hcheck := check_of_envelope p lib s c .certificateUnknown (.inr ⟨hc, rfl⟩)
    exact ⟨by rw [hcheck, fire_state]; rfl, by rw [hcheck, fire_state]; rfl,
      hstreak _ (by rw [hcheck]; rfl) fun a => henvelope .certificateUnknown a rfl⟩
  | valid => exact absurd hc h

end Step

/-! ## Two runs -/

section Runs

variable {K D : Type} [Field K] [LinearOrder K] [FloorRing K] [LinearOrder D]
  (p : Ts103759Params K) (lib : Libm K)

/-- The suite, with the verdicts on verified messages as its outputs. -/
def evidence (s : Ts103759Suite K D) (c : CheckCall K D) : Option
    (TsVerdict K D) × Ts103759Suite K D :=
  (if c.m.verification = .valid then some (s.check p lib c).1 else none, (s.check p lib c).2)

/-- What the two runs have in common before the messages that are left. The second may listen before
the first does, but not since an earlier instant. -/
structure Agree (rest : List (Bool × CheckCall K D)) (s s' : Ts103759Suite K D) : Prop where
  recent : s'.recent = s.recent
  skips : s'.skips = s.skips
  listening : s.listeningSince.isSome ∧ s'.listeningSince = s.listeningSince ∨
    s.listeningSince = none ∧ ∀ t ∈ s'.listeningSince, ∀ c ∈ (Mealy.kept rest).head?,
      c.m.receivedAt = t
  last : ∀ c ∈ Mealy.kept rest, c.m.verification = .valid →
    s'.lastOf c.m.signer = s.lastOf c.m.signer
  streak : ∀ d (a : Ts103759Check), a.classOf ≠ .envelope → s'.streakOf d a = s.streakOf d a

variable {p lib} {s s' : Ts103759Suite K D} {c : CheckCall K D} {rest : List (Bool × CheckCall K D)}

omit [Field K] [LinearOrder K] [FloorRing K] in
/-- Both runs date the next of the first run's messages by the same start of the listening. -/
lemma Agree.since (h : Agree ((false, c) :: rest) s s') :
    s'.listeningSince.getD c.m.receivedAt = s.listeningSince.getD c.m.receivedAt := by
  rcases h.listening with ⟨-, h⟩ | ⟨hnone, h⟩
  · rw [h]
  · rw [hnone]
    cases ht : s'.listeningSince with
    | none => rfl
    | some t => exact (h t ht c rfl).symm

/-- **A further message.** It is of a subject that has its last fix, or of one that no verified
message is left of. -/
theorem Agree.extra (h : Agree ((true, c) :: rest) s s') (hc : c.m.verification ≠ .valid)
    (hhead : s'.listeningSince = none → ∀ b ∈ (Mealy.kept rest).head?,
      c.m.receivedAt = b.m.receivedAt)
    (hharm : c.m.verification ≠ .unverified → (s.lastOf c.m.signer).isSome ∨
      ∀ b ∈ Mealy.kept rest, b.m.signer = c.m.signer → b.m.verification ≠ .valid) :
    Agree rest s (s'.check p lib c).2 := by
  obtain ⟨hrecent, hskips, hstreak⟩ := check_of_not_valid p lib s' c hc
  refine ⟨hrecent.trans h.recent, hskips.trans h.skips, ?_, fun b hb hvalid => ?_,
    fun d a ha => (hstreak d a ha).trans (h.streak d a ha)⟩
  · rw [check_listening]
    rcases h.listening with ⟨hsome, heq⟩ | ⟨hnone, heq⟩
    · refine .inl ⟨hsome, ?_⟩
      obtain ⟨t, ht⟩ := Option.isSome_iff_exists.1 hsome
      rw [heq, ht]
      rfl
    · refine .inr ⟨hnone, ?_⟩
      rintro t ⟨⟩ b hb
      cases hl : s'.listeningSince with
      | none => exact (hhead hl b hb).symm
      | some t => exact heq t hl b hb
  · have hlast := h.last b hb hvalid
    rw [check_last]
    split_ifs with hd
    · -- A verified message of this signer is left, so the signer has its entry in both runs.
      rw [hlast]
      have hsome : c.m.verification ≠ .unverified → (s.lastOf b.m.signer).isSome := fun hv =>
        hd ▸ (hharm hv).resolve_right fun hno => hno b hb hd.symm hvalid
      cases hv : c.m.verification with
      | unverified => rfl
      | valid => exact absurd hv hc
      | badSignature =>
        obtain ⟨fix, hfix⟩ := Option.isSome_iff_exists.1 (hsome (by rw [hv]; exact nofun))
        simp only [hfix, Option.getD_some]
      | unknownCertificate =>
        obtain ⟨fix, hfix⟩ := Option.isSome_iff_exists.1 (hsome (by rw [hv]; exact nofun))
        simp only [hfix, Option.getD_some]
    · exact hlast

/-- A verified message has the same verdict in both runs, and leaves the same claims. -/
lemma Agree.valid (h : Agree ((false, c) :: rest) s s') (hc : c.m.verification = .valid) :
    (s'.check p lib c).1 = (s.check p lib c).1 ∧
      (s'.check p lib c).2.recent = (s.check p lib c).2.recent ∧
      (s'.check p lib c).2.skips = (s.check p lib c).2.skips := by
  have hcontent : s'.contentIn p lib c = s.contentIn p lib c := by
    rw [contentIn, contentIn, h.since, h.recent, h.skips]
    exact congrArg (fun known => content p lib known _ _ _ c) (h.last c List.mem_cons_self hc)
  rw [check_of_valid p lib s' c hc, check_of_valid p lib s c hc, hcontent]
  refine ⟨fire_congr p fun a ha => h.streak _ a fun henv => ?_, ?_, ?_⟩
  · rw [show (s.contentIn p lib c).2.2 a = none from content_content p lib c _ _ _ _ a henv] at ha
    cases ha
  · rw [fire_state, fire_state, keep, keep, scored, scored, hcontent]
  · rw [fire_state, fire_state, keep, keep, scored, scored, hcontent]

/-- **A message of both runs.** -/
theorem Agree.kept (h : Agree ((false, c) :: rest) s s') :
    (evidence p lib s' c).1 = (evidence p lib s c).1 ∧
      Agree rest (s.check p lib c).2 (s'.check p lib c).2 := by
  have hlistening : (s'.check p lib c).2.listeningSince = (s.check p lib c).2.listeningSince := by
    rw [check_listening, check_listening, h.since]
  have hlast : ∀ b ∈ Mealy.kept rest, b.m.verification = .valid →
      (s'.check p lib c).2.lastOf b.m.signer = (s.check p lib c).2.lastOf b.m.signer := by
    intro b hb hvalid
    rw [check_last, check_last, h.last b (List.mem_cons_of_mem c hb) hvalid]
  have hsome : (s.check p lib c).2.listeningSince.isSome := by
    rw [check_listening]
    rfl
  by_cases hc : c.m.verification = .valid
  · obtain ⟨hverdict, hrecent, hskips⟩ := @Agree.valid _ _ _ _ _ _ p lib _ _ _ _ h hc
    refine ⟨by rw [evidence, evidence, hverdict], hrecent, hskips, .inl ⟨hsome, hlistening⟩, hlast,
      fun d a ha => ?_⟩
    rw [check_streak, check_streak, hverdict]
    split_ifs
    · rw [nextStreak, nextStreak, h.streak d a ha]
    · exact h.streak d a ha
  · obtain ⟨hrecent, hskips, hstreak⟩ := check_of_not_valid p lib s c hc
    obtain ⟨hrecent', hskips', hstreak'⟩ := check_of_not_valid p lib s' c hc
    refine ⟨by rw [evidence, evidence, if_neg hc, if_neg hc],
      hrecent'.trans (h.recent.trans hrecent.symm), hskips'.trans (h.skips.trans hskips.symm),
      .inl ⟨hsome, hlistening⟩, hlast, fun d a ha => ?_⟩
    rw [hstreak' d a ha, hstreak d a ha]
    exact h.streak d a ha

/-- The further messages of a history touch nothing that verified messages are judged by: the
receiver starts to listen when it does without them, and a message whose signature failed is of a
subject that an earlier message of the history has made the entry of, or that sends no verified
message later. -/
def Harmless (marked : List (Bool × CheckCall K D)) : Prop :=
  (∀ m ∈ marked.head?, ∀ c ∈ (Mealy.kept marked).head?, m.2.m.receivedAt = c.m.receivedAt) ∧
  ∀ pre c post, marked = pre ++ (true, c) :: post → c.m.verification ≠ .unverified →
    (∃ a ∈ Mealy.kept pre, a.m.signer = c.m.signer ∧ a.m.verification ≠ .unverified) ∨
    ∀ b ∈ Mealy.kept post, b.m.signer = c.m.signer → b.m.verification ≠ .valid

/-- The subjects that a run has heard of, other than by messages not checked, have their last
fix. -/
lemma check_heard {seen : List (CheckCall K D)}
    (h : ∀ a ∈ seen, a.m.verification ≠ .unverified → (s.lastOf a.m.signer).isSome) :
    ∀ a ∈ seen ++ [c], a.m.verification ≠ .unverified →
      ((s.check p lib c).2.lastOf a.m.signer).isSome := by
  intro a ha hv
  rw [check_last]
  rcases List.mem_append.1 ha with ha | ha
  · split_ifs
    · cases c.m.verification with
      | unverified => exact h a ha hv
      | _ => rfl
    · exact h a ha hv
  · obtain rfl := List.mem_singleton.1 ha
    rw [if_pos rfl]
    cases hv' : a.m.verification with
    | unverified => exact absurd hv' hv
    | _ => rfl

/-- The two runs on the messages that are left of a history. -/
lemma heard_of_agree (marked : List (Bool × CheckCall K D)) (hharm : Harmless marked)
    (hextra : ∀ m ∈ marked, m.1 = true → m.2.m.verification ≠ .valid) :
    ∀ (post pre : List (Bool × CheckCall K D)) (s s' : Ts103759Suite K D), marked = pre ++ post →
      Agree post s s' → (s'.listeningSince = none → pre = []) →
      (∀ a ∈ Mealy.kept pre, a.m.verification ≠ .unverified → (s.lastOf a.m.signer).isSome) →
      Mealy.heard (evidence p lib) s' post = Mealy.outputs (evidence p lib) s (Mealy.kept post) := by
  intro post
  induction post with
  | nil => exact fun _ _ _ _ _ _ _ => rfl
  | cons m post ih =>
    intro pre s s' hmarked hagree hpre hseen
    obtain ⟨extra, c⟩ := m
    have hmarked' : marked = (pre ++ [(extra, c)]) ++ post := by
      rw [hmarked, List.append_assoc]
      rfl
    have hnow (s : Ts103759Suite K D) : (s.check p lib c).2.listeningSince = none →
        pre ++ [(extra, c)] = [] := by
      rw [check_listening]
      exact nofun
    cases extra with
    | true =>
      have hnext : Agree post s (s'.check p lib c).2 := by
        refine hagree.extra (hextra (true, c) (by rw [hmarked]; simp) rfl)
          (fun hnone b hb => ?_) fun hv => ?_
        · obtain rfl := hpre hnone
          rw [List.nil_append] at hmarked
          exact hharm.1 (true, c) (by rw [hmarked]; rfl) b (by rw [hmarked]; exact hb)
        · refine (hharm.2 pre c post hmarked hv).imp_left ?_
          rintro ⟨a, ha, hsigner, hav⟩
          exact hsigner ▸ hseen a ha hav
      refine ih _ s _ hmarked' hnext (hnow s') ?_
      rwa [Mealy.kept_append, Mealy.kept_cons_true, show Mealy.kept [] = ([] : List (CheckCall K D))
        from rfl, List.append_nil]
    | false =>
      obtain ⟨hout, hnext⟩ := @Agree.kept _ _ _ _ _ _ p lib _ _ _ _ hagree
      rw [Mealy.heard, if_neg Bool.false_ne_true, Mealy.kept_cons_false, Mealy.outputs, hout]
      refine congrArg _ (ih _ _ _ hmarked' hnext (hnow s') ?_)
      rw [Mealy.kept_append]
      exact check_heard hseen

variable (p lib)

/-- **What did not verify is not evidence.** Harmless further messages that are not verified make no
difference to the verdict on any verified message of a history. -/
theorem evidence_eq (marked : List (Bool × CheckCall K D))
    (hextra : ∀ m ∈ marked, m.1 = true → m.2.m.verification ≠ .valid) (hharm : Harmless marked) :
    Mealy.heard (evidence p lib) {} marked =
      Mealy.outputs (evidence p lib) {} (Mealy.kept marked) := by
  refine heard_of_agree marked hharm hextra marked [] {} {} rfl ?_ (fun _ => rfl) nofun
  exact ⟨rfl, rfl, .inr ⟨rfl, nofun⟩, fun _ _ _ => rfl, fun _ _ _ => rfl⟩

end Runs

/-! ## A forged first message -/

/-- The message of the signer itself, with the claim that was forged. -/
def genuine : CheckCall ℚ ℕ := { forged with m := { forged.m with verification := .valid } }

theorem evidence_eq_after :
    Mealy.heard (evidence .default flatLibm) {} [(false, genuine), (true, forged),
      (false, genuine)] =
      Mealy.outputs (evidence .default flatLibm) {} [genuine, genuine] := by
  refine evidence_eq .default flatLibm [(false, genuine), (true, forged), (false, genuine)]
    (by decide) ⟨?_, ?_⟩
  · rintro m ⟨⟩ c ⟨⟩
    rfl
  · intro pre c post h _
    rcases pre with _ | ⟨m, pre⟩
    · cases h
    · obtain ⟨rfl, -⟩ := List.cons.inj h
      refine .inl ⟨genuine, List.mem_cons_self, ?_, by decide⟩
      have hc : (true, c) ∈ [(false, genuine), (true, forged), (false, genuine)] := by
        rw [h]
        simp
      simp only [List.mem_cons, Prod.mk.injEq, Bool.true_eq_false, false_and, true_and,
        List.not_mem_nil, or_false, false_or] at hc
      rw [hc]
      rfl

/-- A forged message before the first of its signer is what that one is compared with. -/
theorem forged_is_evidence :
    (∀ m ∈ [(true, forged), (false, genuine)], m.1 = true → m.2.m.verification ≠ .valid) ∧
    Mealy.heard (evidence .default flatLibm) {} [(true, forged), (false, genuine)] ≠
      Mealy.outputs (evidence .default flatLibm) {}
          (Mealy.kept [(true, forged), (false, genuine)]) := by
  refine ⟨by decide, fun h => ?_⟩
  have hscore := congrArg (fun l : List (Option (TsVerdict ℚ ℕ)) =>
    (l.head?.join.bind fun o => o.scores .generationTimeOrder).isSome) h
  exact absurd hscore (by decide +kernel)

end Ts103759Suite

end V2xw.Threat
