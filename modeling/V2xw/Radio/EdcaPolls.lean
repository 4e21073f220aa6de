import V2xw.Lib.Mealy
import V2xw.Radio.Edca

/-!
# Polls that grant nothing

A poll that grants nothing brings the running countdowns up to date, and no more. This file says
when that cannot be noticed: when no slot that a countdown has counted is still to be taken off as
the medium becomes busy, or as a higher category is granted.

## Main definitions

* `Backoff.tick`, `EdcaState.dueNow` — what a poll does to a countdown, and
  sees of it.
* `Behind` — a state, and the same state with countdowns brought up to date.
* `UpToDate` — the condition.

## Main results

* `EdcaState.poll_eq` — what a poll does.
* `extra_polls_invisible` — extra polls change no grant.
-/

namespace V2xw.Radio

open Core (SimTime Duration)

/-! ## Countdowns -/

namespace Backoff

/-- A countdown brought up to date. -/
def tick (now : SimTime) (b : Backoff) : Backoff :=
  match b.resumeAt with
  | none => b
  | some resume =>
    if now < resume then b
    else if resume + b.remaining * slotNs ≤ now then { b with remaining := 0 }
    else { b with
      remaining := b.remaining - (now - resume) / slotNs
      resumeAt := some (resume + (now - resume) / slotNs * slotNs) }

/-- The countdown has reached zero. -/
def isOver (now : SimTime) (b : Backoff) : Bool := b.dueAt.any fun due => decide (due ≤ now)

/-- No slot counted is still to be taken off. -/
def isUpToDate (now : SimTime) (b : Backoff) : Bool :=
  b.remaining == 0 || b.resumeAt.all fun resume => decide (now < resume + slotNs)

/-- A countdown frozen with the slots that are left when the medium becomes busy. -/
def frozenAt (now : SimTime) (b : Backoff) : Backoff :=
  { b with
    remaining := b.remaining - (b.resumeAt.map fun resume => (now - resume) / slotNs).getD 0
    resumeAt := none }

/-- A countdown, and the same countdown with some of its slots taken off by `t`. -/
def Folded (t : SimTime) (b b' : Backoff) : Prop :=
  b' = b ∨ ∃ resume k, b.resumeAt = some resume ∧ k ≤ b.remaining ∧ resume + k * slotNs ≤ t ∧
    b' = { b with remaining := b.remaining - k, resumeAt := some (resume + k * slotNs) }

variable {t now : SimTime} {b b' b'' : Backoff}

lemma slotNs_pos : 0 < slotNs := by decide

lemma due_shift {resume k remaining : ℕ} (h : k ≤ remaining) :
    resume + k * slotNs + (remaining - k) * slotNs = resume + remaining * slotNs := by
  rw [Nat.add_assoc, ← Nat.add_mul, Nat.add_sub_cancel' h]

lemma isOver_of_filter (h : (b.dueAt.filter fun due => decide (due ≤ now)) = none) :
    b.isOver now = false := by
  rw [isOver]
  cases hd : b.dueAt with
  | none => rfl
  | some due =>
    rw [hd, Option.filter_eq_none_iff] at h
    rw [Option.any_some, Bool.eq_false_iff]
    exact h due rfl

namespace Folded

lemma refl (t : SimTime) (b : Backoff) : Folded t b b := .inl rfl

lemma mono (h : Folded t b b') (ht : t ≤ now) : Folded now b b' := by
  rcases h with rfl | ⟨resume, k, hr, hk, hle, rfl⟩
  · exact .inl rfl
  · exact .inr ⟨resume, k, hr, hk, hle.trans ht, rfl⟩

lemma dueAt (h : Folded t b b') : b'.dueAt = b.dueAt := by
  rcases h with rfl | ⟨resume, k, hr, hk, -, rfl⟩
  · rfl
  · rw [Backoff.dueAt, Backoff.dueAt, hr, Option.map_some, Option.map_some, due_shift hk]

lemma drawn (h : Folded t b b') : b'.drawn = b.drawn ∧ b'.aifsNs = b.aifsNs := by
  rcases h with rfl | ⟨resume, k, -, -, -, rfl⟩ <;> exact ⟨rfl, rfl⟩

lemma eq_of_frozen (h : Folded t b b') (hb : b.resumeAt = none) : b' = b := by
  rcases h with rfl | ⟨resume, k, hr, -⟩
  · rfl
  · rw [hb] at hr
    cases hr

/-- A countdown that is up to date has no slots to take off. -/
lemma eq_of_upToDate (h : Folded t b b') (ht : t ≤ now) (hb : b.isUpToDate now = true) :
    b' = b := by
  rcases h with rfl | ⟨resume, k, hr, hk, hle, rfl⟩
  · rfl
  · have hk0 : k = 0 := by
      rw [isUpToDate, Bool.or_eq_true, beq_iff_eq, hr, Option.all_some, decide_eq_true_eq] at hb
      rcases hb with h0 | hlt
      · omega
      · refine Nat.eq_zero_of_not_pos fun hpos => ?_
        have hslot : slotNs ≤ k * slotNs := Nat.le_mul_of_pos_left _ hpos
        exact absurd (hle.trans ht) (not_le.2 (lt_of_lt_of_le hlt (Nat.add_le_add_left hslot _)))
    subst hk0
    rw [Nat.sub_zero, Nat.zero_mul, Nat.add_zero, ← hr]

end Folded

lemma tick_of_running {resume : SimTime} (hr : b.resumeAt = some resume) (hle : resume ≤ now)
    (hno : b.isOver now = false) :
    b.tick now = { b with
      remaining := b.remaining - (now - resume) / slotNs
      resumeAt := some (resume + (now - resume) / slotNs * slotNs) } := by
  rw [isOver, Backoff.dueAt, hr, Option.map_some, Option.any_some, decide_eq_false_iff_not] at hno
  rw [tick, hr]
  dsimp only
  rw [if_neg (not_lt.2 hle), if_neg hno]

lemma elapsed_le {resume : SimTime} (hr : b.resumeAt = some resume)
    (hno : b.isOver now = false) : (now - resume) / slotNs ≤ b.remaining := by
  rw [isOver, Backoff.dueAt, hr, Option.map_some, Option.any_some, decide_eq_false_iff_not,
    not_le] at hno
  refine Nat.div_le_of_le_mul (Nat.sub_le_of_le_add ?_)
  rw [Nat.mul_comm, Nat.add_comm]
  exact hno.le

lemma tick_drawn : (b.tick now).drawn = b.drawn ∧ (b.tick now).aifsNs = b.aifsNs := by
  unfold tick
  split
  · exact ⟨rfl, rfl⟩
  · split_ifs <;> exact ⟨rfl, rfl⟩

/-- A countdown that is up to date loses no slot when it is frozen. -/
lemma frozenAt_of_upToDate (h : b.isUpToDate now = true) :
    ({ b with resumeAt := none } : Backoff) = b.frozenAt now := by
  rw [isUpToDate, Bool.or_eq_true, beq_iff_eq] at h
  rw [frozenAt]
  rcases h with hzero | hrun
  · rw [hzero, Nat.zero_sub]
  · cases hr : b.resumeAt with
    | none => rfl
    | some resume =>
      rw [hr, Option.all_some, decide_eq_true_eq] at hrun
      have hticks : (now - resume) / slotNs = 0 := by
        refine Nat.div_eq_of_lt ?_
        rcases le_total resume now with hle | hle
        · exact Nat.sub_lt_left_of_lt_add hle hrun
        · rw [Nat.sub_eq_zero_of_le hle]
          exact slotNs_pos
      rw [Option.map_some, Option.getD_some, hticks, Nat.sub_zero]

/-- A running countdown brought up to date is the same one with slots taken off. -/
lemma folded_tick (hno : b.isOver now = false) : Folded now b (b.tick now) := by
  cases hr : b.resumeAt with
  | none =>
    rw [tick, hr]
    exact Folded.refl _ _
  | some resume =>
    by_cases hlt : now < resume
    · rw [tick, hr]
      dsimp only
      rw [if_pos hlt]
      exact Folded.refl _ _
    · refine .inr ⟨resume, (now - resume) / slotNs, hr, elapsed_le hr hno, ?_,
        tick_of_running hr (not_lt.1 hlt) hno⟩
      calc resume + (now - resume) / slotNs * slotNs ≤ resume + (now - resume) :=
            Nat.add_le_add_left (Nat.div_mul_le_self _ _) _
        _ = now := Nat.add_sub_cancel' (not_lt.1 hlt)

/-- Slots taken off earlier and later. -/
lemma Folded.trans (h : Folded t b b') (h' : Folded now b' b'') (ht : t ≤ now) :
    Folded now b b'' := by
  rcases h' with rfl | ⟨resume', k', hr', hk', hle', rfl⟩
  · exact h.mono ht
  · rcases h with rfl | ⟨resume, k, hr, hk, hle, rfl⟩
    · exact .inr ⟨resume', k', hr', hk', hle', rfl⟩
    · simp only [Option.some.injEq] at hr' hk'
      subst hr'
      have hsum : k + k' ≤ b.remaining := by omega
      refine .inr ⟨resume, k + k', hr, hsum, ?_, ?_⟩
      · rw [Nat.add_mul, ← Nat.add_assoc]
        exact hle'
      · rw [Nat.add_mul, ← Nat.add_assoc, Nat.sub_sub]

/-- A countdown that is not over is the same one once it is brought up to date, whatever slots were
taken off before. -/
lemma Folded.tick_eq (h : Folded t b b') (ht : t ≤ now) (hno : b.isOver now = false) :
    b'.tick now = b.tick now := by
  rcases h with rfl | ⟨resume, k, hr, hk, hle, rfl⟩
  · rfl
  · have hle := hle.trans ht
    have hstart : resume ≤ now := (Nat.le_add_right _ _).trans hle
    have hno' : ({ b with
        remaining := b.remaining - k
        resumeAt := some (resume + k * slotNs) } : Backoff).isOver now = false := by
      rw [isOver, Backoff.dueAt, hr, Option.map_some] at hno
      rw [isOver, Backoff.dueAt, Option.map_some, due_shift hk]
      exact hno
    rw [tick_of_running rfl hle hno', tick_of_running hr hstart hno]
    have hticks : (now - (resume + k * slotNs)) / slotNs = (now - resume) / slotNs - k := by
      rw [← Nat.sub_sub, Nat.mul_comm, Nat.sub_mul_div]
    have hge : k ≤ (now - resume) / slotNs := by
      rw [Nat.le_div_iff_mul_le slotNs_pos]
      exact Nat.le_sub_of_add_le' hle
    rw [hticks, Nat.sub_sub, Nat.add_sub_cancel' hge, Nat.add_assoc, ← Nat.add_mul,
      Nat.add_sub_cancel' hge]

end Backoff

/-! ## Polls -/

namespace EdcaState

/-- When the countdown of a category with frames reached zero, if it has. -/
def dueNow (s : EdcaState) (now : SimTime) (ac : AccessCategory) : Option SimTime :=
  if (s.queues ac).isEmpty then none
  else (s.backoff ac).bind fun b => b.dueAt.filter fun due => decide (due ≤ now)

/-- The countdown of a category, brought up to date if the category has frames. -/
def ticked (s : EdcaState) (now : SimTime) (ac : AccessCategory) : Option Backoff :=
  if (s.queues ac).isEmpty then s.backoff ac else (s.backoff ac).map (Backoff.tick now)

/-- The highest category whose countdown has reached zero. -/
def front (s : EdcaState) (now : SimTime) : Option (AccessCategory × SimTime) :=
  highestFirst.findSome? fun ac => (s.dueNow now ac).map fun due => (ac, due)

/-- How many countdowns have reached zero. -/
def eligible (s : EdcaState) (now : SimTime) : ℕ :=
  highestFirst.countP fun ac => (s.dueNow now ac).isSome

lemma arm_of_busy {s : EdcaState} (h : s.busy = true) (now : SimTime) (ac : AccessCategory)
    (slots : ℕ) : (s.arm now ac slots).resumeAt = none := by
  rw [arm]
  simp only [h, if_true, Option.any_none, Bool.false_eq_true, if_false]

/-- One category in a poll. -/
lemma visit_eq (now : SimTime) (s : EdcaState) (winner : Option (AccessCategory × SimTime))
    (n : ℕ) (ac : AccessCategory) :
    visit now (s, winner, n) ac =
      ({ s with backoff := Function.update s.backoff ac (s.ticked now ac) },
        winner.or ((s.dueNow now ac).map fun due => (ac, due)),
        n + if (s.dueNow now ac).isSome then 1 else 0) := by
  unfold visit dueNow ticked
  dsimp only
  by_cases hq : (s.queues ac).isEmpty = true
  · simp only [if_pos hq, Function.update_eq_self, Option.map_none, Option.or_none,
      Option.isSome_none, Bool.false_eq_true, if_false, Nat.add_zero]
  · simp only [if_neg hq]
    have hself := Function.update_eq_self ac s.backoff
    cases hb : s.backoff ac with
    | none =>
      rw [hb] at hself
      simp only [Option.map_none, hself, Option.bind_none, Option.or_none, Option.isSome_none,
        Bool.false_eq_true, if_false, Nat.add_zero]
    | some b =>
      rw [hb] at hself
      obtain ⟨remaining, drawn, resumeAt, aifsNs⟩ := b
      simp only [Option.map_some, Option.bind_some, Backoff.tick, Backoff.dueAt]
      cases resumeAt with
      | none =>
        simp only [hself, Option.map_none, Option.filter_none, Option.or_none, Option.isSome_none,
          Bool.false_eq_true, if_false, Nat.add_zero]
      | some resume =>
        simp only [Option.map_some, Option.filter_some]
        by_cases hlt : now < resume
        · have hno : ¬ resume + remaining * slotNs ≤ now :=
            not_le.2 (lt_of_lt_of_le hlt (Nat.le_add_right _ _))
          simp only [if_pos hlt, decide_eq_false hno, hself, Option.map_none, Option.or_none,
            Option.isSome_none, Bool.false_eq_true, if_false, Nat.add_zero]
        · simp only [if_neg hlt]
          by_cases hdue : resume + remaining * slotNs ≤ now
          · simp only [if_pos hdue, decide_eq_true hdue, if_true, Option.map_some,
              Option.isSome_some]
          · simp only [if_neg hdue, decide_eq_false hdue, Bool.false_eq_true, if_false,
              Option.map_none, Option.or_none, Option.isSome_none, Nat.add_zero]

/-- The rest of a poll, over categories that are still to be visited. -/
lemma foldl_visit (now : SimTime) (s : EdcaState) (acs : List AccessCategory) :
    ∀ (backoff : AccessCategory → Option Backoff) (winner : Option (AccessCategory × SimTime))
      (n : ℕ), acs.Nodup → (∀ ac ∈ acs, backoff ac = s.backoff ac) →
      acs.foldl (visit now) ({ s with backoff }, winner, n) =
        ({ s with backoff := fun ac => if ac ∈ acs then s.ticked now ac else backoff ac },
          winner.or (acs.findSome? fun ac => (s.dueNow now ac).map fun due => (ac, due)),
          n + acs.countP fun ac => (s.dueNow now ac).isSome) := by
  induction acs with
  | nil =>
    intro backoff winner n _ _
    simp
  | cons ac acs ih =>
    intro backoff winner n hnodup hsame
    obtain ⟨hnot, hnodup⟩ := List.nodup_cons.1 hnodup
    have hac := hsame ac (List.mem_cons_self ..)
    have hticked : ({ s with backoff } : EdcaState).ticked now ac = s.ticked now ac := by
      simp only [ticked, hac]
    have hdue : ({ s with backoff } : EdcaState).dueNow now ac = s.dueNow now ac := by
      simp only [dueNow, hac]
    rw [List.foldl_cons, visit_eq, hticked, hdue, ih _ _ _ hnodup fun a ha => ?_]
    · have hfun : (fun a => if a ∈ acs then s.ticked now a
            else Function.update backoff ac (s.ticked now ac) a) =
          fun a => if a ∈ ac :: acs then s.ticked now a else backoff a := by
        funext a
        by_cases hin : a ∈ acs
        · rw [if_pos hin, if_pos (List.mem_cons_of_mem _ hin)]
        · rw [if_neg hin]
          by_cases heq : a = ac
          · subst heq
            rw [Function.update_self, if_pos (List.mem_cons_self ..)]
          · rw [Function.update_of_ne heq, if_neg]
            exact fun h => (List.mem_cons.1 h).elim heq hin
      rw [hfun, Option.or_assoc, List.countP_cons, Nat.add_right_comm, Nat.add_assoc]
      cases hd : s.dueNow now ac <;> simp [hd]
    · have hne : a ≠ ac := by
        rintro rfl
        exact hnot ha
      rw [Function.update_of_ne hne]
      exact hsame a (List.mem_cons_of_mem _ ha)

/-- **A poll** of a quiet medium brings all countdowns up to date, and grants the first frame of the
highest category whose countdown has reached zero. -/
theorem poll_eq {s : EdcaState} (hbusy : s.busy = false) (now : SimTime) (draw : UInt64) :
    s.poll now draw =
      match s.front now with
      | none => (none, false, { s with backoff := s.ticked now })
      | some (ac, due) =>
        match s.queues ac with
        | [] => (none, false, { s with backoff := s.ticked now })
        | sdu :: queued =>
          let air := airTime sdu.frame.bytes sdu.frame.mcs
          let slots := below draw (ac.cwMin + 1)
          (some ⟨sdu, ac, due, ((s.ticked now ac).map Backoff.drawn).getD 0,
              ((s.ticked now ac).map Backoff.aifsNs).getD 0, 1⟩, !queued.isEmpty, { s with
            internalCollisions := s.internalCollisions + (s.eligible now - 1)
            queues := Function.update s.queues ac queued
            backoff := Function.update (s.ticked now) ac
              (if queued.isEmpty then none
              else some ⟨slots, slots, some (air.after due + ac.aifs.ns), ac.aifs.ns⟩)
            granted := Function.update s.granted ac (s.granted ac + 1)
            grantedAirtimeNs := s.grantedAirtimeNs + air.ns }) := by
  have hfold := foldl_visit now s highestFirst s.backoff none 0 (by decide) fun _ _ => rfl
  have hall : (fun ac => if ac ∈ highestFirst then s.ticked now ac else s.backoff ac) =
      s.ticked now := by
    funext ac
    rw [if_pos]
    cases ac <;> decide
  rw [hall, Option.none_or, Nat.zero_add] at hfold
  unfold poll
  rw [if_neg (by rw [hbusy]; exact Bool.false_ne_true)]
  have hstart : (s, (none : Option (AccessCategory × SimTime)), 0) =
      ({ s with backoff := s.backoff }, none, 0) := rfl
  rw [hstart, hfold]
  unfold front
  cases highestFirst.findSome? fun ac => (s.dueNow now ac).map fun due => (ac, due) with
  | none => rfl
  | some won =>
    obtain ⟨ac, due⟩ := won
    dsimp only
    cases s.queues ac with
    | nil => rfl
    | cons sdu queued => rfl

end EdcaState

/-! ## A state and one that was polled more -/

/-- A state, and the same state with some slots of its countdowns taken off by `t`. -/
structure Behind (t : SimTime) (s s' : EdcaState) : Prop where
  /-- All but the countdowns is the same. -/
  same : s' = { s with backoff := s'.backoff }
  folded : ∀ ac, Option.Rel (Backoff.Folded t) (s.backoff ac) (s'.backoff ac)
  /-- On a busy medium no countdown runs. -/
  frozen : s.busy = true → ∀ ac, ∀ b ∈ s.backoff ac, b.resumeAt = none

/-- What is needed of a state: no countdown with slots counted that are still to be taken off. -/
def EdcaState.FreezesWhole (now : SimTime) (s : EdcaState) : Prop :=
  s.busy = false → ∀ ac ∈ EdcaState.highestFirst, ∀ b ∈ s.backoff ac, b.isUpToDate now = true

/-- What is needed of a state: a countdown that is over while a higher one is has no slots left to
take off. -/
def EdcaState.CollidesWhole (now : SimTime) (s : EdcaState) : Prop :=
  s.busy = false → ∀ won ∈ s.front now, ∀ ac ∈ EdcaState.highestFirst, ac ≠ won.1 →
    (s.dueNow now ac).isSome = true → ∀ b ∈ s.backoff ac, b.remaining = 0

instance (now : SimTime) (s : EdcaState) : Decidable (s.FreezesWhole now) := by
  unfold EdcaState.FreezesWhole
  infer_instance

instance (now : SimTime) (s : EdcaState) : Decidable (s.CollidesWhole now) := by
  unfold EdcaState.CollidesWhole
  infer_instance

namespace Behind

variable {t now : SimTime} {s s' : EdcaState}

lemma refl (hfrozen : s.busy = true → ∀ ac, ∀ b ∈ s.backoff ac, b.resumeAt = none)
    (t : SimTime) : Behind t s s := by
  refine ⟨rfl, fun ac => ?_, hfrozen⟩
  cases s.backoff ac with
  | none => exact .none
  | some b => exact .some (.refl _ _)

lemma fields (h : Behind t s s') :
    s'.queues = s.queues ∧ s'.busy = s.busy ∧ s'.idleSince = s.idleSince := by
  rw [h.same]
  exact ⟨rfl, rfl, rfl⟩

lemma dueNow (h : Behind t s s') (now : SimTime) (ac : AccessCategory) :
    s'.dueNow now ac = s.dueNow now ac := by
  unfold EdcaState.dueNow
  rw [h.fields.1]
  have hf := h.folded ac
  generalize s.backoff ac = x at hf ⊢
  generalize s'.backoff ac = y at hf ⊢
  cases hf with
  | none => rfl
  | some hb => simp only [Option.bind_some, hb.dueAt]

lemma front (h : Behind t s s') (now : SimTime) : s'.front now = s.front now := by
  unfold EdcaState.front
  simp only [h.dueNow]

/-- A countdown that is not over, or has no slots left, is the same once both are brought up to
date. -/
lemma ticked (h : Behind t s s') (ht : t ≤ now) {ac : AccessCategory}
    (hb : s.dueNow now ac = none ∨ ∀ b ∈ s.backoff ac, b.remaining = 0) :
    Option.Rel (Backoff.Folded now) (s.ticked now ac) (s'.ticked now ac) := by
  have hf := h.folded ac
  unfold EdcaState.dueNow at hb
  unfold EdcaState.ticked
  rw [h.fields.1]
  generalize s.backoff ac = x at hf hb ⊢
  generalize s'.backoff ac = y at hf ⊢
  cases hf with
  | none =>
    rw [Option.map_none, ite_self]
    exact .none
  | @some b b' hb' =>
    by_cases hq : (s.queues ac).isEmpty = true
    · rw [if_pos hq, if_pos hq]
      exact .some (hb'.mono ht)
    · rw [if_neg hq, if_neg hq, Option.map_some, Option.map_some]
      have heq : b'.tick now = b.tick now := by
        rcases hb with hno | hzero
        · refine hb'.tick_eq ht ?_
          rw [if_neg hq, Option.bind_some] at hno
          exact Backoff.isOver_of_filter hno
        · have hsame : b' = b := by
            refine hb'.eq_of_upToDate ht ?_
            rw [Backoff.isUpToDate, hzero b rfl]
            rfl
          rw [hsame]
      rw [heq]
      exact .some (.refl _ _)

/-- A poll that grants nothing is a poll in which nothing is over. -/
lemma front_of_silent {draw : UInt64} (hbusy : s.busy = false)
    (h : (s.poll now draw).1 = none) : s.front now = none := by
  rw [EdcaState.poll_eq hbusy] at h
  cases hfront : s.front now with
  | none => rfl
  | some won =>
    obtain ⟨ac, due⟩ := won
    rw [hfront] at h
    dsimp only at h
    cases hq : s.queues ac with
    | nil =>
      obtain ⟨a, -, ha⟩ := List.exists_of_findSome?_eq_some hfront
      obtain ⟨d, hd, hpair⟩ := Option.map_eq_some_iff.1 ha
      obtain ⟨rfl, rfl⟩ := Prod.mk.inj hpair
      rw [EdcaState.dueNow, hq, List.isEmpty_nil, if_pos rfl] at hd
      cases hd
    | cons sdu queued =>
      rw [hq] at h
      cases h

lemma dueNow_of_front (h : s.front now = none) (ac : AccessCategory) : s.dueNow now ac = none := by
  have hall := List.findSome?_eq_none_iff.1 h ac (by cases ac <;> decide)
  exact Option.map_eq_none_iff.1 hall

/-- **An extra poll** that grants nothing. -/
lemma silent {draw : UInt64} (h : Behind t s s') (ht : t ≤ now)
    (hsilent : (s'.poll now draw).1 = none) :
    Behind now s (s'.poll now draw).2.2 ∧ (s'.poll now draw).2.1 = false := by
  cases hbusy : s'.busy with
  | true =>
    have hpoll : s'.poll now draw = (none, false, s') := by
      rw [EdcaState.poll, if_pos hbusy]
    rw [hpoll]
    refine ⟨⟨h.same, fun ac => ?_, h.frozen⟩, rfl⟩
    have hf := h.folded ac
    generalize s.backoff ac = x at hf ⊢
    generalize s'.backoff ac = y at hf ⊢
    cases hf with
    | none => exact .none
    | some hb => exact .some (hb.mono ht)
  | false =>
    have hfront := front_of_silent hbusy hsilent
    have hno := dueNow_of_front hfront
    rw [EdcaState.poll_eq hbusy, hfront]
    refine ⟨?_, rfl⟩
    have hidle : s.busy = false := by rw [← h.fields.2.1, hbusy]
    refine ⟨?_, fun ac => ?_, fun hb => ?_⟩
    · rw [h.same]
    · have hf := h.folded ac
      have hno := hno ac
      unfold EdcaState.dueNow at hno
      simp only [EdcaState.ticked]
      generalize s.backoff ac = x at hf ⊢
      generalize s'.backoff ac = y at hf hno ⊢
      cases hf with
      | none =>
        rw [Option.map_none, ite_self]
        exact .none
      | @some b b' hb =>
        by_cases hq : (s'.queues ac).isEmpty = true
        · rw [if_pos hq]
          exact .some (hb.mono ht)
        · rw [if_neg hq, Option.bind_some] at hno
          rw [if_neg hq, Option.map_some]
          exact .some (hb.trans (Backoff.folded_tick (Backoff.isOver_of_filter hno)) ht)
    · rw [hidle] at hb
      cases hb

lemma mono (h : Behind t s s') (ht : t ≤ now) : Behind now s s' := by
  refine ⟨h.same, fun ac => ?_, h.frozen⟩
  have hf := h.folded ac
  generalize s.backoff ac = x at hf ⊢
  generalize s'.backoff ac = y at hf ⊢
  cases hf with
  | none => exact .none
  | some hb => exact .some (hb.mono ht)

/-- Both states queue a frame. -/
lemma enqueue (h : Behind t s s') (ht : t ≤ now) (depth : ℕ) (draw : UInt64) (sdu : MacSdu)
    (ac : AccessCategory) :
    (s'.enqueue depth now draw sdu ac).1 = (s.enqueue depth now draw sdu ac).1 ∧
      Behind now (s.enqueue depth now draw sdu ac).2 (s'.enqueue depth now draw sdu ac).2 := by
  have hnow := h.mono ht
  have harm : ∀ q x, ({ s' with queues := q } : EdcaState).arm now ac x =
      ({ s with queues := q } : EdcaState).arm now ac x := by
    intro q x
    unfold EdcaState.arm
    rw [h.fields.2.1, h.fields.2.2]
  unfold EdcaState.enqueue
  rw [h.fields.1]
  by_cases hfull : depth ≤ (s.queues ac).length
  · rw [if_pos hfull, if_pos hfull]
    refine ⟨rfl, ?_, hnow.folded, hnow.frozen⟩
    rw [h.same]
  · rw [if_neg hfull, if_neg hfull]
    dsimp only
    have hf := hnow.folded ac
    cases hb : s.backoff ac with
    | some b =>
      cases hb' : s'.backoff ac with
      | none =>
        rw [hb, hb'] at hf
        cases hf
      | some b' =>
        dsimp only
        refine ⟨rfl, ?_, hnow.folded, hnow.frozen⟩
        rw [h.same]
    | none =>
      cases hb' : s'.backoff ac with
      | some b' =>
        rw [hb, hb'] at hf
        cases hf
      | none =>
        dsimp only
        refine ⟨rfl, ?_, fun a => ?_, fun hbusy a b => ?_⟩
        · dsimp only
          rw [h.same]
        · dsimp only
          rw [harm]
          by_cases ha : a = ac
          · subst ha
            rw [Function.update_self, Function.update_self]
            exact .some (.refl _ _)
          · rw [Function.update_of_ne ha, Function.update_of_ne ha]
            exact hnow.folded a
        · dsimp only at hbusy ⊢
          by_cases ha : a = ac
          · subst ha
            rw [Function.update_self, Option.mem_def, Option.some.injEq]
            rintro rfl
            exact EdcaState.arm_of_busy hbusy now a _
          · rw [Function.update_of_ne ha]
            exact h.frozen hbusy a b

lemma backoff_eq (h : Behind t s s') (ht : t ≤ now) (ac : AccessCategory)
    (hb : ∀ b ∈ s.backoff ac, b.resumeAt = none ∨ b.isUpToDate now = true) :
    s'.backoff ac = s.backoff ac := by
  have hf := h.folded ac
  generalize s.backoff ac = x at hf hb ⊢
  generalize s'.backoff ac = y at hf ⊢
  cases hf with
  | none => rfl
  | @some b b' hb' =>
    rcases hb b rfl with hnone | hup
    · rw [hb'.eq_of_frozen hnone]
    · rw [hb'.eq_of_upToDate ht hup]

/-- The medium becomes busy or idle in both states. -/
lemma onCca (h : Behind t s s') (ht : t ≤ now) {cca : CcaState}
    (hwhole : cca = .busy → s.FreezesWhole now) :
    Behind now (s.onCca now cca) (s'.onCca now cca) := by
  have hnow := h.mono ht
  obtain ⟨-, hbusy, hidle⟩ := h.fields
  cases cca with
  | busy =>
    unfold EdcaState.onCca
    dsimp only
    rw [hbusy]
    by_cases hb : s.busy = true
    · rw [if_pos hb, if_pos hb]
      exact hnow
    · rw [if_neg hb, if_neg hb]
      have hsame : s'.backoff = s.backoff := by
        funext ac
        refine h.backoff_eq ht ac fun b hmem => .inr ?_
        exact hwhole rfl (Bool.eq_false_iff.2 hb) ac (by cases ac <;> decide) b hmem
      refine ⟨?_, fun ac => ?_, fun _ ac b hmem => ?_⟩
      · rw [h.same]
      · dsimp only
        rw [hsame]
        cases s.backoff ac with
        | none => exact .none
        | some b => exact .some (.refl _ _)
      · obtain ⟨b₀, -, rfl⟩ := Option.map_eq_some_iff.1 hmem
        rfl
  | idle =>
    unfold EdcaState.onCca
    dsimp only
    rw [hbusy, hidle]
    by_cases hb : s.busy = true
    · rw [if_pos hb, if_pos hb]
      have hsame : s'.backoff = s.backoff := by
        funext ac
        exact h.backoff_eq ht ac fun b hmem => .inl (h.frozen hb ac b hmem)
      refine ⟨?_, fun ac => ?_, fun hno => ?_⟩
      · rw [h.same]
      · dsimp only
        rw [hsame]
        cases s.backoff ac with
        | none => exact .none
        | some b => exact .some (.refl _ _)
      · cases hno
    · rw [if_neg hb, if_neg hb]
      cases s.idleSince with
      | some since => exact hnow
      | none =>
        refine ⟨?_, hnow.folded, hnow.frozen⟩
        dsimp only
        rw [h.same]

/-- As the medium becomes busy, the other state keeps the slots that are left. -/
lemma onCca_busy (h : Behind t s s') (ht : t ≤ now) (hwhole : s.FreezesWhole now)
    (ac : AccessCategory) :
    (s'.onCca now .busy).backoff ac = (s'.backoff ac).map (Backoff.frozenAt now) := by
  obtain ⟨-, hbusy, -⟩ := h.fields
  unfold EdcaState.onCca
  dsimp only
  by_cases hb : s.busy = true
  · rw [if_pos (hbusy.trans hb)]
    have hsame := h.backoff_eq ht ac fun b hmem => .inl (h.frozen hb ac b hmem)
    have hnone := h.frozen hb ac
    rw [hsame]
    cases hs : s.backoff ac with
    | none => rfl
    | some b =>
      have hb := hnone b hs
      rw [Option.map_some, Backoff.frozenAt, hb, Option.map_none, Option.getD_none, Nat.sub_zero,
        ← hb]
  · have hup := hwhole (Bool.eq_false_iff.2 hb) ac (by cases ac <;> decide)
    rw [if_neg (by rw [hbusy]; exact hb)]
    dsimp only
    rw [h.backoff_eq ht ac fun b hmem => .inr (hup b hmem)]
    cases hs : s.backoff ac with
    | none => rfl
    | some b =>
      rw [Option.map_some, Option.map_some, Backoff.frozenAt_of_upToDate (hup b hs)]

lemma onTxDone (h : Behind t s s') (ht : t ≤ now) (start stop : SimTime) :
    Behind now (s.onTxDone start stop) (s'.onTxDone start stop) := by
  refine ⟨?_, (h.mono ht).folded, h.frozen⟩
  unfold EdcaState.onTxDone
  dsimp only
  rw [h.same]

/-- Both states are polled. -/
lemma poll (h : Behind t s s') (ht : t ≤ now) (draw : UInt64) (hwhole : s.CollidesWhole now) :
    (s'.poll now draw).1 = (s.poll now draw).1 ∧ (s'.poll now draw).2.1 = (s.poll now draw).2.1 ∧
      Behind now (s.poll now draw).2.2 (s'.poll now draw).2.2 := by
  obtain ⟨hqueues, hbusy, -⟩ := h.fields
  cases hb : s.busy with
  | true =>
    rw [EdcaState.poll, EdcaState.poll, if_pos hb, if_pos (hbusy.trans hb)]
    exact ⟨rfl, rfl, h.mono ht⟩
  | false =>
    have hquiet : s.busy = true → False := fun hb' => by
      rw [hb] at hb'
      cases hb'
    rw [EdcaState.poll_eq hb, EdcaState.poll_eq (hbusy.trans hb), h.front now]
    cases hfront : s.front now with
    | none =>
      have hno := dueNow_of_front hfront
      refine ⟨rfl, rfl, ?_, fun ac => h.ticked ht (.inl (hno ac)), fun hb' => absurd hb' hquiet⟩
      dsimp only
      rw [h.same]
    | some won =>
      obtain ⟨ac, due⟩ := won
      have hrest : ∀ a, a ≠ ac →
          Option.Rel (Backoff.Folded now) (s.ticked now a) (s'.ticked now a) := by
        intro a ha
        refine h.ticked ht ?_
        cases hd : s.dueNow now a with
        | none => exact .inl rfl
        | some d =>
          refine .inr (hwhole hb _ hfront a (by cases a <;> decide) ha ?_)
          rw [hd]
          rfl
      dsimp only
      rw [hqueues]
      cases hq : s.queues ac with
      | nil =>
        -- a category that comes first has a frame
        obtain ⟨a, -, ha⟩ := List.exists_of_findSome?_eq_some hfront
        obtain ⟨d, hd, hpair⟩ := Option.map_eq_some_iff.1 ha
        obtain ⟨rfl, rfl⟩ := Prod.mk.inj hpair
        rw [EdcaState.dueNow, hq, List.isEmpty_nil, if_pos rfl] at hd
        cases hd
      | cons sdu queued =>
        have hdrawn : ((s'.ticked now ac).map Backoff.drawn).getD 0 =
              ((s.ticked now ac).map Backoff.drawn).getD 0 ∧
            ((s'.ticked now ac).map Backoff.aifsNs).getD 0 =
              ((s.ticked now ac).map Backoff.aifsNs).getD 0 := by
          have hf := h.folded ac
          simp only [EdcaState.ticked, hqueues, hq, List.isEmpty_cons, Bool.false_eq_true, if_false]
          generalize s.backoff ac = x at hf ⊢
          generalize s'.backoff ac = y at hf ⊢
          cases hf with
          | none => exact ⟨rfl, rfl⟩
          | @some b b' hb' =>
            simp only [Option.map_some, Option.getD_some, Backoff.tick_drawn, hb'.drawn, and_self]
        have helig : s'.eligible now = s.eligible now := by
          unfold EdcaState.eligible
          simp only [h.dueNow]
        dsimp only
        rw [hdrawn.1, hdrawn.2, helig]
        refine ⟨rfl, rfl, ?_, fun a => ?_, fun hb' => absurd hb' hquiet⟩
        · dsimp only
          rw [h.same]
        · dsimp only
          by_cases ha : a = ac
          · subst ha
            rw [Function.update_self, Function.update_self]
            split_ifs
            · exact .none
            · exact .some (.refl _ _)
          · rw [Function.update_of_ne ha, Function.update_of_ne ha]
            exact hrest a ha

end Behind

/-! ## All nodes -/

/-- No node was called yet. -/
def edcaInit : Contention EdcaState := ⟨fun _ => EdcaState.default, fun _ => 0⟩

/-- The condition on the calls that are not extra: as the medium becomes busy, or a frame is
granted, no other countdown has slots counted that are still to be taken off. -/
def UpToDate (s : Contention EdcaState) (c : Timed) : Prop :=
  match c.call with
  | .onCca channel .busy => (s.nodes (c.node, channel)).FreezesWhole c.now
  | .poll channel => (s.nodes (c.node, channel)).CollidesWhole c.now
  | _ => True

/-- The call is a poll that grants nothing. -/
def Silent (depth : ℕ) (draws : ℕ → ℕ → UInt64) (s : Contention EdcaState) (c : Timed) : Prop :=
  match c.call with
  | .poll _ => (edcaStep depth draws s c).1 = .polled none
  | _ => False

/-- As the medium becomes busy, each countdown is frozen with the slots that are left of it. -/
def KeepsSlots (depth : ℕ) (draws : ℕ → ℕ → UInt64) (s : Contention EdcaState) (c : Timed) : Prop :=
  ∀ channel, c.call = .onCca channel .busy → ∀ ac,
    ((edcaStep depth draws s c).2.nodes (c.node, channel)).backoff ac =
      ((s.nodes (c.node, channel)).backoff ac).map (Backoff.frozenAt c.now)

instance (s : Contention EdcaState) (c : Timed) : Decidable (UpToDate s c) := by
  unfold UpToDate
  split <;> infer_instance

instance (depth : ℕ) (draws : ℕ → ℕ → UInt64) (s : Contention EdcaState) (c : Timed) :
    Decidable (Silent depth draws s c) := by
  unfold Silent
  split <;> infer_instance

/-- Two runs on all nodes: every node is the same up to slots taken off, and as many draws were
taken. -/
structure AllBehind (t : SimTime) (s s' : Contention EdcaState) : Prop where
  nodes : ∀ key, Behind t (s.nodes key) (s'.nodes key)
  drawn : s'.drawn = s.drawn

lemma AllBehind.update {t now : SimTime} {s s' : Contention EdcaState} (h : AllBehind t s s')
    (ht : t ≤ now) (key : ℕ × ℕ) {x x' : EdcaState} (hx : Behind now x x') :
    ∀ k, Behind now (Function.update s.nodes key x k) (Function.update s'.nodes key x' k) := by
  intro k
  by_cases hk : k = key
  · subst hk
    rw [Function.update_self, Function.update_self]
    exact hx
  · rw [Function.update_of_ne hk, Function.update_of_ne hk]
    exact (h.nodes k).mono ht

/-- A call that is not extra. -/
lemma AllBehind.step {depth : ℕ} {draws : ℕ → ℕ → UInt64} {t : SimTime}
    {s s' : Contention EdcaState} {c : Timed} (ht : t ≤ c.now) (h : AllBehind t s s')
    (hup : UpToDate s c) :
    (edcaStep depth draws s' c).1 = (edcaStep depth draws s c).1 ∧
      AllBehind c.now (edcaStep depth draws s c).2 (edcaStep depth draws s' c).2 ∧
      KeepsSlots depth draws s' c := by
  obtain ⟨now, node, call⟩ := c
  unfold UpToDate at hup
  dsimp only at ht hup
  unfold edcaStep KeepsSlots
  dsimp only
  rw [h.drawn]
  cases call with
  | enqueue sdu ac =>
    dsimp only
    by_cases hbig : maxMsduBytes < sdu.frame.bytes
    · rw [if_pos hbig, if_pos hbig]
      exact ⟨rfl, ⟨fun key => (h.nodes key).mono ht, h.drawn⟩, nofun⟩
    · rw [if_neg hbig, if_neg hbig]
      obtain ⟨hout, hbehind⟩ := (h.nodes (node, sdu.frame.channel)).enqueue ht depth
        (draws node (s.drawn node)) sdu ac
      dsimp only
      rw [hout]
      exact ⟨rfl, ⟨h.update ht _ hbehind, rfl⟩, nofun⟩
  | onCca channel cca =>
    have hnode := h.nodes (node, channel)
    have hwhole : cca = .busy → (s.nodes (node, channel)).FreezesWhole now := by
      rintro rfl
      exact hup
    refine ⟨rfl, ⟨h.update ht _ (hnode.onCca ht hwhole), rfl⟩, fun ch hch ac => ?_⟩
    obtain ⟨rfl, rfl⟩ := MacCall.onCca.inj hch
    rw [edcaStep]
    dsimp only
    rw [Function.update_self]
    exact hnode.onCca_busy ht (hwhole rfl) ac
  | onTxDone channel start stop =>
    refine ⟨rfl, ⟨h.update ht _ ((h.nodes (node, channel)).onTxDone ht start stop), rfl⟩, nofun⟩
  | poll channel =>
    obtain ⟨hgrant, hmore, hbehind⟩ := (h.nodes (node, channel)).poll ht
      (draws node (s.drawn node)) hup
    dsimp only
    rw [hgrant, hmore]
    exact ⟨rfl, ⟨h.update ht _ hbehind, rfl⟩, nofun⟩

/-- An extra poll. -/
lemma AllBehind.silent {depth : ℕ} {draws : ℕ → ℕ → UInt64} {t : SimTime}
    {s s' : Contention EdcaState} {c : Timed} (ht : t ≤ c.now) (h : AllBehind t s s')
    (hsilent : Silent depth draws s' c) :
    AllBehind c.now s (edcaStep depth draws s' c).2 ∧ KeepsSlots depth draws s' c := by
  obtain ⟨now, node, call⟩ := c
  unfold Silent at hsilent
  dsimp only at ht hsilent
  split at hsilent
  swap
  · exact hsilent.elim
  have hnone := hsilent
  rename_i channel
  refine ⟨?_, nofun⟩
  unfold edcaStep at hnone ⊢
  dsimp only at hnone ⊢
  rw [MacAnswer.polled.injEq] at hnone
  obtain ⟨hbehind, hmore⟩ := (h.nodes (node, channel)).silent ht hnone
  refine ⟨fun key => ?_, ?_⟩
  · dsimp only
    by_cases hk : key = (node, channel)
    · subst hk
      rw [Function.update_self]
      exact hbehind
    · rw [Function.update_of_ne hk]
      exact (h.nodes key).mono ht
  · dsimp only
    rw [hmore, if_neg Bool.false_ne_true, h.drawn]

/-- **Extra polls are invisible.** In every sequence of calls at non-decreasing instants, with any
draws, extra polls that grant nothing change no answer to the other calls, and no countdown loses
slots as the medium becomes busy; provided no countdown of the other calls alone has slots counted
that are still to be taken off then. -/
theorem extra_polls_invisible (depth : ℕ) (draws : ℕ → ℕ → UInt64) (marked : List (Bool × Timed))
    (hsorted : marked.Pairwise fun m m' => m.2.now ≤ m'.2.now)
    (hextra : Mealy.Always (fun s m => edcaStep depth draws s m.2)
      (fun s m => m.1 = true → Silent depth draws s m.2) edcaInit marked)
    (hup : Mealy.Always (edcaStep depth draws) UpToDate edcaInit (Mealy.kept marked)) :
    Mealy.heard (edcaStep depth draws) edcaInit marked =
        Mealy.outputs (edcaStep depth draws) edcaInit (Mealy.kept marked) ∧
      Mealy.Always (edcaStep depth draws) (KeepsSlots depth draws) edcaInit
        (marked.map Prod.snd) := by
  refine Mealy.heard_eq (R := AllBehind) (fun c : Timed => c.now)
    (fun t c s s' ht h hc => h.step ht hc) (fun t c s s' ht h hc => h.silent ht hc) marked 0 edcaInit
    edcaInit ⟨fun key => Behind.refl (fun hb => ?_) 0, rfl⟩ (fun _ _ => Nat.zero_le _) hsorted hup
    hextra
  cases hb

/-- Draws that give the longest countdowns. -/
def longest : ℕ → ℕ → UInt64 := fun _ _ => 0xFFFFFFFFFFFFFFFF

/-- A voice frame with a countdown of three slots, and an extra poll two slots into it. -/
theorem extra_polls_invisible_voice :
    let frame : MacSdu := ⟨⟨300, .r6Qpsk12, 178, ⟨1, 1⟩⟩, 0⟩
    let marked : List (Bool × Timed) := [(false, ⟨0, 5, .enqueue frame .vo⟩),
      (true, ⟨84000, 5, .poll 178⟩), (false, ⟨97000, 5, .poll 178⟩),
      (false, ⟨98000, 5, .onCca 178 .busy⟩)]
    Mealy.heard (edcaStep 64 longest) edcaInit marked =
        Mealy.outputs (edcaStep 64 longest) edcaInit (Mealy.kept marked) ∧
      Mealy.Always (edcaStep 64 longest) (KeepsSlots 64 longest) edcaInit (marked.map Prod.snd) :=
  extra_polls_invisible 64 longest _ (by decide +kernel) (by decide +kernel) (by decide +kernel)

/-- The same frame, with a busy medium a slot before the countdown is over: with the extra poll it
is granted two slots earlier. -/
theorem extra_poll_visible :
    let frame : MacSdu := ⟨⟨300, .r6Qpsk12, 178, ⟨1, 1⟩⟩, 0⟩
    let marked : List (Bool × Timed) := [(false, ⟨0, 5, .enqueue frame .vo⟩),
      (true, ⟨84000, 5, .poll 178⟩), (false, ⟨90000, 5, .onCca 178 .busy⟩),
      (false, ⟨200000, 5, .onCca 178 .idle⟩), (false, ⟨300000, 5, .poll 178⟩)]
    (marked.Pairwise (fun m m' => m.2.now ≤ m'.2.now) ∧
      Mealy.Always (fun s m => edcaStep 64 longest s m.2)
        (fun s m => m.1 = true → Silent 64 longest s m.2) edcaInit marked) ∧
      Mealy.heard (edcaStep 64 longest) edcaInit marked ≠
        Mealy.outputs (edcaStep 64 longest) edcaInit (Mealy.kept marked) := by
  decide +kernel

end V2xw.Radio
