import Mathlib.Data.List.Chain
import V2xw.Lib.Mealy

/-!
# When a cooperative awareness message is sent

The triggering state machine of `crates/v2xw-msg/src/generator.rs`, on any clock and under any
congestion control. The three thresholds are a parameter, as a function of the beliefs at the last
message and now. Instants and spans are in nanoseconds.

## Main definitions

* `CamTriggerState.check` — one evaluation of the rules.
* `sent` — the messages a history of checks asked for, with their instants.
* `streak` — how many periodic messages came since the last one for another reason.

## Main results

* `CamTriggerState.check_cases` — what a check can do.
* `Follows` — what a state keeps of the messages sent.
* `cam_triggering` — the rules over whole histories.
* `cam_triggering_edges` — a clock that goes back where there is no floor, and a count of
  zero.
-/

namespace V2xw.Msg

/-! ## Data -/

/-- Which of the three dynamics thresholds were crossed. -/
structure DynamicsTriggers where
  heading : Bool
  position : Bool
  speed : Bool
  deriving DecidableEq, Repr

/-- True if any threshold was crossed. -/
def DynamicsTriggers.any (t : DynamicsTriggers) : Bool := t.heading || t.position || t.speed

/-- Why a generator asked for a message. -/
inductive GenReason
  | first
  /-- One or more of the dynamics thresholds was crossed. -/
  | dynamics (triggers : DynamicsTriggers)
  /-- The periodic deadline elapsed. -/
  | periodic
  deriving DecidableEq, Repr

/-- The parameters of the rules, without the thresholds. -/
structure CamGenParams where
  /-- The shortest permitted interval between two messages. -/
  tGenCamMin : ℕ
  tGenCamMax : ℕ
  /-- How many periodic messages in a row restore the longest interval: a `u8`. -/
  nGenCam : ℕ
  nGenCam_le : nGenCam ≤ 255
  /-- The least interval between two messages with the low-frequency container. -/
  lowFrequencyInterval : ℕ
  deriving DecidableEq, Repr

/-- What was decided. -/
structure CamDecision where
  reason : GenReason
  /-- Whether it carries the low-frequency container. -/
  includeLowFrequency : Bool
  /-- The interval after this decision. -/
  tGenCam : ℕ
  deriving DecidableEq, Repr

/-- The last message. -/
structure LastCam (Dynamics : Type) where
  t : ℕ
  dynamics : Dynamics

/-- The triggering state machine. -/
structure CamTriggerState (Dynamics : Type) where
  params : CamGenParams
  last : Option (LastCam Dynamics) := none
  tGenCam : ℕ
  consecutivePeriodic : ℕ := 0
  lastLowFrequency : Option ℕ := none

/-- One evaluation: the node's own clock, what it believes of itself, and the time that congestion
control leaves between two transmissions. -/
structure Check (Dynamics : Type) where
  now : ℕ
  dynamics : Dynamics
  tOff : ℕ

/-! ## The rules -/

namespace CamTriggerState

variable {Dynamics : Type} (triggers : Dynamics → Dynamics → DynamicsTriggers)

/-- A fresh state machine. -/
def new (params : CamGenParams) : CamTriggerState Dynamics :=
  { params := params, tGenCam := params.tGenCamMax }

/-- Records a message. The low-frequency container goes in the first one, and then where the
interval has passed since the last one that carried it. -/
def emit (s : CamTriggerState Dynamics) (now : ℕ) (dynamics : Dynamics) (reason : GenReason) :
    CamDecision × CamTriggerState Dynamics :=
  let includeLowFrequency := match s.lastLowFrequency with
    | none => true
    | some t => decide (now - t ≥ s.params.lowFrequencyInterval)
  (⟨reason, includeLowFrequency, s.tGenCam⟩,
    { s with
      lastLowFrequency := bif includeLowFrequency then some now else s.lastLowFrequency
      last := some ⟨now, dynamics⟩ })

/-- Evaluates the rules. A clock that went back has no time passed. -/
def check (s : CamTriggerState Dynamics) (c : Check Dynamics) :
    Option CamDecision × CamTriggerState Dynamics :=
  match s.last with
  | none => (s.emit c.now c.dynamics .first).map some id
  | some last =>
    let elapsed := c.now - last.t
    let floor := max s.params.tGenCamMin c.tOff
    if elapsed < floor then (none, s)
    else if (triggers last.dynamics c.dynamics).any then
      let s := { s with
        tGenCam := max s.params.tGenCamMin (min elapsed s.params.tGenCamMax)
        consecutivePeriodic := 0 }
      (s.emit c.now c.dynamics (.dynamics (triggers last.dynamics c.dynamics))).map some id
    else if elapsed ≥ s.tGenCam then
      -- The counter is a `u8` and saturates.
      let count := min (s.consecutivePeriodic + 1) 255
      let s := if count ≥ s.params.nGenCam then
          { s with tGenCam := s.params.tGenCamMax, consecutivePeriodic := 0 }
        else { s with consecutivePeriodic := count }
      (s.emit c.now c.dynamics .periodic).map some id
    else (none, s)

end CamTriggerState

/-! ## Histories -/

section Histories

variable {Dynamics : Type} (triggers : Dynamics → Dynamics → DynamicsTriggers) (P : CamGenParams)

/-- The state after a history of checks. -/
def after (checks : List (Check Dynamics)) : CamTriggerState Dynamics :=
  Mealy.run (CamTriggerState.check triggers) (.new P) checks

/-- A message that was asked for: when, under which limit of congestion control, and how. -/
structure Sent where
  instant : ℕ
  tOff : ℕ
  decision : CamDecision
  deriving DecidableEq, Repr

/-- The messages a history of checks asked for, in order. -/
def sent (checks : List (Check Dynamics)) : List Sent :=
  Mealy.log (CamTriggerState.check triggers)
    (fun l c o => l ++ (o.map fun d => ⟨c.now, c.tOff, d⟩ : Option Sent).toList) (.new P) [] checks

/-- How many periodic messages came last in a row. -/
def streak (l : List Sent) : ℕ :=
  (l.reverse.takeWhile fun x => x.decision.reason = .periodic).length

/-- The number of periodic messages in a row that restores the longest interval. -/
def restoring : ℕ := max P.nGenCam 1

/-! ## One check -/

variable {triggers} {P} {s : CamTriggerState Dynamics}

/-- The state and the message of a check that sends. -/
def CamTriggerState.sends (s : CamTriggerState Dynamics) (c : Check Dynamics) (reason : GenReason)
    (tGenCam count : ℕ) : Option CamDecision × CamTriggerState Dynamics :=
  (({ s with tGenCam := tGenCam, consecutivePeriodic := count } : CamTriggerState Dynamics).emit
    c.now c.dynamics reason).map some id

/-- **What a check can do**: it sends nothing, below the floor or before the interval has passed; or
it sends the first message, one for the dynamics, or a periodic one. -/
theorem CamTriggerState.check_cases (s : CamTriggerState Dynamics)
    (triggers : Dynamics → Dynamics → DynamicsTriggers) (c : Check Dynamics) :
    (∃ last, s.last = some last ∧ s.check triggers c = (none, s) ∧
      (c.now - last.t < max s.params.tGenCamMin c.tOff ∨ c.now - last.t < s.tGenCam)) ∨
    (s.last = none ∧ s.check triggers c = s.sends c .first s.tGenCam s.consecutivePeriodic) ∨
    ∃ last, s.last = some last ∧ max s.params.tGenCamMin c.tOff ≤ c.now - last.t ∧
      ((∃ t, s.check triggers c = s.sends c (.dynamics t)
          (max s.params.tGenCamMin (min (c.now - last.t) s.params.tGenCamMax)) 0) ∨
        s.params.nGenCam ≤ min (s.consecutivePeriodic + 1) 255 ∧
          s.check triggers c = s.sends c .periodic s.params.tGenCamMax 0 ∨
        min (s.consecutivePeriodic + 1) 255 < s.params.nGenCam ∧
          s.check triggers c = s.sends c .periodic s.tGenCam
            (min (s.consecutivePeriodic + 1) 255)) := by
  unfold check
  cases hlast : s.last with
  | none => exact .inr (.inl ⟨rfl, rfl⟩)
  | some last =>
    simp only
    split_ifs with hfloor hany htime hcount
    · exact .inl ⟨last, rfl, rfl, .inl hfloor⟩
    · exact .inr (.inr ⟨last, rfl, Nat.not_lt.1 hfloor, .inl ⟨_, rfl⟩⟩)
    · exact .inr (.inr ⟨last, rfl, Nat.not_lt.1 hfloor, .inr (.inl ⟨hcount, rfl⟩)⟩)
    · exact .inr (.inr ⟨last, rfl, Nat.not_lt.1 hfloor, .inr (.inr ⟨Nat.not_le.1 hcount, rfl⟩)⟩)
    · exact .inl ⟨last, rfl, rfl, .inr (Nat.not_le.1 htime)⟩

/-! ## What a state keeps of the messages -/

lemma streak_concat (l : List Sent) (x : Sent) :
    streak (l ++ [x]) = if x.decision.reason = .periodic then streak l + 1 else 0 := by
  unfold streak
  rw [List.reverse_append, List.reverse_singleton, List.singleton_append, List.takeWhile_cons]
  by_cases h : x.decision.reason = .periodic <;> simp [h]

/-- The messages that carry the low-frequency container. -/
def carriers (l : List Sent) : List Sent := l.filter (·.decision.includeLowFrequency)

/-- **What a state keeps of the messages sent.** -/
structure Follows (P : CamGenParams) (s : CamTriggerState Dynamics) (l : List Sent) : Prop where
  params : s.params = P
  last : s.last.map (·.t) = l.getLast?.map (·.instant)
  bounds : P.tGenCamMin ≤ s.tGenCam ∧ s.tGenCam ≤ P.tGenCamMax
  count : s.consecutivePeriodic = streak l % restoring P
  restored : restoring P ≤ streak l → s.tGenCam = P.tGenCamMax
  apart : l.IsChain fun p q =>
    p.instant + max P.tGenCamMin q.tOff ≤ q.instant ∨ max P.tGenCamMin q.tOff = 0
  fresh : l = [] → s.lastLowFrequency = none
  first : ∀ p, l.head? = some p →
    p.decision.reason = .first ∧ p.decision.includeLowFrequency = true
  carried : ∀ p ∈ carriers l, P.lowFrequencyInterval = 0 ∨
    ∃ t, s.lastLowFrequency = some t ∧ p.instant ≤ t
  rare : (carriers l).Pairwise fun p q =>
    p.instant + P.lowFrequencyInterval ≤ q.instant ∨ P.lowFrequencyInterval = 0

lemma follows_new (hle : P.tGenCamMin ≤ P.tGenCamMax) :
    Follows P (.new P : CamTriggerState Dynamics) [] where
  params := rfl
  last := rfl
  bounds := ⟨hle, Nat.le_refl _⟩
  count := (Nat.zero_mod _).symm
  restored _ := rfl
  apart := .nil
  fresh _ := rfl
  first p hp := by cases hp
  carried p hp := by cases hp
  rare := .nil

/-- **One more message**: where the interval, the count and the distance to the last one are as the
rules have them, the rest follows. -/
lemma Follows.sends {l : List Sent} (h : Follows P s l) (c : Check Dynamics) (reason : GenReason)
    {t n : ℕ} (hbounds : P.tGenCamMin ≤ t ∧ t ≤ P.tGenCamMax)
    (hcount : n = (if reason = .periodic then streak l + 1 else 0) % restoring P)
    (hrestored : restoring P ≤ (if reason = .periodic then streak l + 1 else 0) →
      t = P.tGenCamMax)
    (hfirst : l = [] → reason = .first)
    (hfloor : ∀ last, s.last = some last → max P.tGenCamMin c.tOff ≤ c.now - last.t) :
    ∃ d, (s.sends c reason t n).1 = some d ∧ d.reason = reason ∧
      Follows P (s.sends c reason t n).2 (l ++ [⟨c.now, c.tOff, d⟩]) := by
  refine ⟨(({ s with tGenCam := t, consecutivePeriodic := n } : CamTriggerState Dynamics).emit
    c.now c.dynamics reason).1, rfl, rfl, ?_⟩
  unfold CamTriggerState.sends CamTriggerState.emit
  dsimp only [Prod.map_snd, id]
  generalize hcarry : (match s.lastLowFrequency with
    | none => true
    | some last => decide (c.now - last ≥ s.params.lowFrequencyInterval)) = carry
  rw [h.params] at hcarry
  have hcarriers : carriers (l ++ [⟨c.now, c.tOff, ⟨reason, carry, t⟩⟩]) =
      carriers l ++ if carry then [⟨c.now, c.tOff, ⟨reason, carry, t⟩⟩] else [] := by
    unfold carriers
    rw [List.filter_append]
    cases carry <;> rfl
  refine ⟨h.params, by simp, hbounds, ?_, ?_, ?_, fun hnil => ?_, fun p hp => ?_, ?_, ?_⟩
  · rw [streak_concat]
    exact hcount
  · rw [streak_concat]
    exact hrestored
  · -- The last message is the one the state remembers.
    refine List.isChain_append.2 ⟨h.apart, .singleton _, fun p hp q hq => ?_⟩
    obtain rfl := Option.some.inj (List.head?_cons ▸ hq)
    have hlast := h.last
    rw [hp] at hlast
    obtain ⟨last, hsome, heq⟩ := Option.map_eq_some_iff.1 hlast
    have hsame : last.t = p.instant := heq
    have := hfloor last hsome
    dsimp only
    omega
  · exact absurd hnil (by simp)
  · cases l with
    | nil =>
      obtain rfl := Option.some.inj hp
      rw [h.fresh rfl] at hcarry
      exact ⟨hfirst rfl, hcarry.symm⟩
    | cons x l => exact h.first p hp
  · intro p hp
    rw [hcarriers, List.mem_append] at hp
    obtain hp | hp := hp
    · -- An older carrier is no later than the last one, and so than this message.
      obtain hzero | ⟨last, hsome, hle⟩ := h.carried p hp
      · exact .inl hzero
      cases carry with
      | false => exact .inr ⟨last, hsome, hle⟩
      | true =>
        rw [hsome] at hcarry
        have := of_decide_eq_true hcarry
        by_cases hzero : P.lowFrequencyInterval = 0
        · exact .inl hzero
        · exact .inr ⟨c.now, rfl, by omega⟩
    · cases carry with
      | false => cases hp
      | true =>
        obtain rfl := List.mem_singleton.1 hp
        exact .inr ⟨c.now, rfl, Nat.le_refl _⟩
  · rw [hcarriers, List.pairwise_append]
    refine ⟨h.rare, by cases carry <;> simp, fun p hp q hq => ?_⟩
    cases carry with
    | false => cases hq
    | true =>
      obtain rfl := List.mem_singleton.1 hq
      obtain hzero | ⟨last, hsome, hle⟩ := h.carried p hp
      · exact .inr hzero
      · rw [hsome] at hcarry
        have := of_decide_eq_true hcarry
        dsimp only
        omega

/-- **One check** sends a message that follows the others, or nothing. -/
theorem Follows.check {l : List Sent} (h : Follows P s l) (hle : P.tGenCamMin ≤ P.tGenCamMax)
    (c : Check Dynamics) :
    Follows P (s.check triggers c).2
      (l ++ ((s.check triggers c).1.map fun d => (⟨c.now, c.tOff, d⟩ : Sent)).toList) ∧
    ((s.check triggers c).2.tGenCam ≠ s.tGenCam →
      (∃ d t p, (s.check triggers c).1 = some d ∧ d.reason = .dynamics t ∧ l.getLast? = some p ∧
        (s.check triggers c).2.tGenCam =
          max P.tGenCamMin (min (c.now - p.instant) P.tGenCamMax)) ∨
      ∃ d, (s.check triggers c).1 = some d ∧ d.reason = .periodic ∧
        streak l + 1 = restoring P ∧ (s.check triggers c).2.tGenCam = P.tGenCamMax) ∧
    ∀ p, l.getLast? = some p → s.tGenCam ≤ c.now - p.instant → c.tOff ≤ c.now - p.instant →
      (s.check triggers c).1.isSome := by
  have hr : 0 < restoring P := Nat.lt_of_lt_of_le Nat.one_pos (Nat.le_max_right _ _)
  have hlt := Nat.mod_lt (streak l) hr
  have hlast := h.last
  have hbounds := h.bounds
  have hcount := h.count
  have hcut := P.nGenCam_le
  have hnever : ∀ reason : GenReason, reason ≠ .periodic → ∀ t,
      restoring P ≤ (if reason = .periodic then streak l + 1 else 0) → t = P.tGenCamMax := by
    intro reason hreason t hzero
    rw [if_neg hreason] at hzero
    omega
  rcases s.check_cases triggers c with
    ⟨last, hsome, hcheck, hwait⟩ | ⟨hnone, hcheck⟩ | ⟨last, hsome, hfloor, hsends⟩
  · rw [hcheck]
    refine ⟨by simpa using h, fun hne => absurd rfl hne, fun p hp htime hoff => ?_⟩
    rw [hsome, hp] at hlast
    have hsame : last.t = p.instant := Option.some.inj hlast
    rw [h.params, hsame] at hwait
    omega
  · rw [hcheck]
    rw [hnone, Option.map_none] at hlast
    have hnil : l = [] := List.getLast?_eq_none_iff.1 (Option.map_eq_none_iff.1 hlast.symm)
    obtain ⟨d, hd, -, hfollows⟩ := h.sends c .first (n := s.consecutivePeriodic) hbounds
      (by rw [hcount, hnil]; rfl) (hnever .first (by decide) s.tGenCam) (fun _ => rfl)
      (fun last hsome => by rw [hnone] at hsome; cases hsome)
    rw [hd]
    refine ⟨hfollows, fun hne => absurd rfl hne, fun p hp => ?_⟩
    rw [hnil] at hp
    cases hp
  · rw [hsome, Option.map_some] at hlast
    obtain ⟨p, hp, hsame⟩ := Option.map_eq_some_iff.1 hlast.symm
    have hne : l ≠ [] := by
      rintro rfl
      cases hp
    rw [h.params] at hfloor hsends
    have hfloor' : ∀ last', s.last = some last' →
        max P.tGenCamMin c.tOff ≤ c.now - last'.t := by
      intro last' hsome'
      obtain rfl := Option.some.inj (hsome.symm.trans hsome')
      exact hfloor
    rcases hsends with ⟨t, hcheck⟩ | ⟨hfull, hcheck⟩ | ⟨hless, hcheck⟩
    · rw [hcheck]
      obtain ⟨d, hd, hreason, hfollows⟩ := h.sends c (.dynamics t) (n := 0)
        (t := max P.tGenCamMin (min (c.now - last.t) P.tGenCamMax)) (by omega)
        (by rw [if_neg (by simp), Nat.zero_mod]) (hnever (.dynamics t) (by simp) _)
        (fun hnil => absurd hnil hne) hfloor'
      rw [hd]
      refine ⟨hfollows, fun _ => .inl ⟨d, t, p, rfl, hreason, hp, ?_⟩, fun _ _ _ _ => rfl⟩
      rw [hsame]
      rfl
    · -- The count is full: the next periodic message restores the longest interval.
      have hrow : (streak l + 1) % restoring P = 0 := by
        have hlast' : streak l % restoring P + 1 = restoring P := by
          unfold restoring at hlt hcount ⊢
          omega
        rw [← Nat.mod_add_mod, hlast', Nat.mod_self]
      rw [hcheck]
      obtain ⟨d, hd, hreason, hfollows⟩ := h.sends c .periodic
        (t := P.tGenCamMax) (n := 0) ⟨hle, Nat.le_refl _⟩ (by rw [if_pos rfl, hrow])
        (fun _ => rfl) (fun hnil => absurd hnil hne) hfloor'
      rw [hd]
      refine ⟨hfollows, fun hchange => .inr ⟨d, rfl, hreason, ?_, rfl⟩, fun _ _ _ _ => rfl⟩
      have hearly : streak l < restoring P := by
        by_contra hlate
        exact hchange (h.restored (Nat.not_lt.1 hlate)).symm
      rw [Nat.mod_eq_of_lt hearly] at hcount
      unfold restoring at hearly ⊢
      omega
    · -- It is not: the row is one longer, and nothing else changes.
      have hshort : s.consecutivePeriodic + 1 < restoring P ∧
          min (s.consecutivePeriodic + 1) 255 = s.consecutivePeriodic + 1 := by
        unfold restoring at hlt hcount ⊢
        omega
      have hrow : (streak l + 1) % restoring P = s.consecutivePeriodic + 1 := by
        rw [← Nat.mod_add_mod, ← hcount, Nat.mod_eq_of_lt hshort.1]
      have hkept : restoring P ≤ streak l + 1 → s.tGenCam = P.tGenCamMax := by
        intro hlong
        refine h.restored ?_
        by_contra hearly
        have hall : streak l + 1 = restoring P := by omega
        rw [hall, Nat.mod_self] at hrow
        cases hrow
      rw [hcheck]
      obtain ⟨d, hd, hreason, hfollows⟩ := h.sends c .periodic
        (n := min (s.consecutivePeriodic + 1) 255) hbounds
        (by rw [if_pos rfl, hrow, hshort.2]) (by rw [if_pos rfl]; exact hkept)
        (fun hnil => absurd hnil hne) hfloor'
      rw [hd]
      exact ⟨hfollows, fun hchange => absurd rfl hchange, fun _ _ _ _ => rfl⟩

/-! ## Whole histories -/

variable (triggers) (P)

lemma sent_concat (checks : List (Check Dynamics)) (c : Check Dynamics) :
    sent triggers P (checks ++ [c]) = sent triggers P checks ++
      (((after triggers P checks).check triggers c).1.map
        fun d => (⟨c.now, c.tOff, d⟩ : Sent)).toList :=
  Mealy.log_append _ _ checks [c] _ _

lemma follows_after (hle : P.tGenCamMin ≤ P.tGenCamMax) (checks : List (Check Dynamics)) :
    Follows P (after triggers P checks) (sent triggers P checks) := by
  induction checks using List.reverseRecOn with
  | nil => exact follows_new hle
  | append_singleton checks c ih =>
    rw [after, Mealy.run_concat, sent_concat]
    exact (ih.check hle c).1

/-- **The rules of triggering** over whole histories, on any clock, under any congestion control and
with any thresholds. The interval stays within its limits. Each message after the first comes at
least the floor after the one before, unless the floor is zero. The first message carries the
low-frequency container, and those that carry it are its interval apart. The interval changes only
with a message for the dynamics, to what was achieved, within the limits, or with the periodic
message in a row that restores the longest one; that is the first in a row where the count is zero.
A check that finds the interval passed, and the floor of congestion control met, sends. -/
theorem cam_triggering (hle : P.tGenCamMin ≤ P.tGenCamMax) (checks : List (Check Dynamics)) :
    (P.tGenCamMin ≤ (after triggers P checks).tGenCam ∧
      (after triggers P checks).tGenCam ≤ P.tGenCamMax) ∧
    ((sent triggers P checks).IsChain fun p q =>
      p.instant + max P.tGenCamMin q.tOff ≤ q.instant ∨ max P.tGenCamMin q.tOff = 0) ∧
    (∀ p, (sent triggers P checks).head? = some p →
      p.decision.reason = .first ∧ p.decision.includeLowFrequency = true) ∧
    ((carriers (sent triggers P checks)).Pairwise fun p q =>
      p.instant + P.lowFrequencyInterval ≤ q.instant ∨ P.lowFrequencyInterval = 0) ∧
    ∀ c : Check Dynamics,
      (((after triggers P checks).check triggers c).2.tGenCam ≠
          (after triggers P checks).tGenCam →
        (∃ d t p, ((after triggers P checks).check triggers c).1 = some d ∧
          d.reason = .dynamics t ∧ (sent triggers P checks).getLast? = some p ∧
          ((after triggers P checks).check triggers c).2.tGenCam =
            max P.tGenCamMin (min (c.now - p.instant) P.tGenCamMax)) ∨
        ∃ d, ((after triggers P checks).check triggers c).1 = some d ∧ d.reason = .periodic ∧
          streak (sent triggers P checks) + 1 = max P.nGenCam 1 ∧
          ((after triggers P checks).check triggers c).2.tGenCam = P.tGenCamMax) ∧
      ∀ p, (sent triggers P checks).getLast? = some p →
        (after triggers P checks).tGenCam ≤ c.now - p.instant → c.tOff ≤ c.now - p.instant →
        ((after triggers P checks).check triggers c).1.isSome := by
  have hfollows := follows_after triggers P hle checks
  exact ⟨hfollows.bounds, hfollows.apart, hfollows.first, hfollows.rare,
    fun c => (hfollows.check hle c).2⟩

end Histories

/-- The parameters of the standard. -/
def CamGenParams.en302637_2 : CamGenParams :=
  ⟨100000000, 1000000000, 3, by decide, 500000000⟩

/-- A heading, with a threshold. -/
def turned (before now : ℕ) : DynamicsTriggers := ⟨decide (before ≠ now), false, false⟩

/-- The rules with the parameters of the standard, over a turn and three periodic messages. -/
theorem cam_triggering_turn :
    let checks : List (Check ℕ) := [⟨0, 0, 0⟩, ⟨300000000, 1, 0⟩, ⟨600000000, 1, 0⟩,
      ⟨900000000, 1, 0⟩, ⟨1200000000, 1, 400000000⟩, ⟨1300000000, 1, 400000000⟩]
    (CamGenParams.en302637_2.tGenCamMin ≤ (after turned .en302637_2 checks).tGenCam ∧
      (after turned .en302637_2 checks).tGenCam ≤ CamGenParams.en302637_2.tGenCamMax) ∧
    (sent turned .en302637_2 checks).length = 5 :=
  ⟨(cam_triggering turned .en302637_2 (by decide) _).1, by decide +kernel⟩

/-- **The edges.** Without a floor, a turn makes a clock that went back send a message before the
last one. With a count of zero, the first periodic message after a turn restores the longest
interval. -/
theorem cam_triggering_edges :
    let P : CamGenParams := ⟨0, 1000, 0, by decide, 500⟩
    ((sent turned P [⟨10, 0, 0⟩, ⟨5, 1, 0⟩]).map (·.instant) = [10, 5] ∧
      max P.tGenCamMin 0 = 0) ∧
    (after turned P [⟨0, 0, 0⟩, ⟨300, 1, 0⟩]).tGenCam = 300 ∧
      (after turned P [⟨0, 0, 0⟩, ⟨300, 1, 0⟩, ⟨600, 1, 0⟩]).tGenCam = 1000 ∧
      streak (sent turned P [⟨0, 0, 0⟩, ⟨300, 1, 0⟩, ⟨600, 1, 0⟩]) = 1 := by
  decide +kernel

end V2xw.Msg
