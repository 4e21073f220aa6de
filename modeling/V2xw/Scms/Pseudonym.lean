import V2xw.Lib.Drain
import V2xw.Lib.Machine
import V2xw.Scms.State

/-!
# Pseudonym changes

`crates/v2xw-proto/src/pseudonym.rs`: the rule that says when a device changes its pseudonym, and
the store that picks the next one from the credentials the device can use. The reading of a strategy
from a scenario's text is left out.

## Main definitions

* `PseudonymStrategy`, `PseudonymStore` — the rule and the store.
* `PseudonymStore.rotate` — one decision.
* `storeMachine` — a store under any sequence of operations.

## Main results

* `rotation_drains_pool` — which pairs are active, and in what order.
-/

namespace V2xw.Scms

open V2xw.Core

/-! ## The rule -/

/-- When a node changes its pseudonym. -/
inductive PseudonymStrategy where
  /-- When the active pseudonym reaches an age. -/
  | time (period : Duration)
  /-- After a distance in centimetres. -/
  | distance (distanceCm : ℕ)
  | mixZone
  | silent
  deriving DecidableEq

/-- What the node knows when it asks whether a change is due. -/
structure ChangeTrigger where
  age : Duration
  travelledCm : ℕ
  leftMixZone : Bool

/-- Whether a scheduled change is due. -/
def PseudonymStrategy.isDue (strategy : PseudonymStrategy) (t : ChangeTrigger) : Bool :=
  match strategy with
  | .time period => period.ns ≤ t.age.ns
  | .distance distanceCm => distanceCm ≤ t.travelledCm
  | .mixZone => t.leftMixZone
  | .silent => false

/-- Why a change happened. -/
inductive ChangeReason where
  | startup
  | scheduled
  /-- The active pseudonym left its validity window. -/
  | expired
  /-- The active pseudonym is on the revocation list. -/
  | revoked
  deriving DecidableEq

/-! ## The store -/

/-- Which pseudonym is active, and the counters the strategy reads. -/
structure PseudonymStore where
  strategy : PseudonymStrategy
  active : Option Slot
  highWater : Option Slot
  lastChange : Option SimTime
  travelledCm : ℕ
  leftMixZone : Bool
  changes : ℕ
  wraps : ℕ
  deriving DecidableEq

/-- A list of slots in strictly ascending order. -/
abbrev Usable := {l : List Slot // l.Pairwise (· < ·)}

namespace PseudonymStore

/-- A store with nothing active yet. -/
def new (strategy : PseudonymStrategy) : PseudonymStore :=
  ⟨strategy, none, none, none, 0, false, 0, 0⟩

/-- What the strategy is asked at `now`. -/
def trigger (s : PseudonymStore) (now : SimTime) : ChangeTrigger where
  age :=
    match s.lastChange with
    | some t => if t ≤ now then ⟨now - t⟩ else ⟨0⟩
    | none => ⟨0⟩
  travelledCm := s.travelledCm
  leftMixZone := s.leftMixZone

/-- Whether a change is due, and why. -/
def changeDue (s : PseudonymStore) (now : SimTime) (usable : List Slot) (activeRevoked : Bool) :
    Option ChangeReason :=
  match s.active with
  | none => if usable.isEmpty then none else some .startup
  | some active =>
    if !usable.contains active then some (if activeRevoked then .revoked else .expired)
    else if usable.length < 2 then none
    else if s.strategy.isDue (s.trigger now) then some .scheduled
    else none

/-- Chooses the pseudonym that becomes active, or keeps the current one. -/
def rotate (s : PseudonymStore) (now : SimTime) (usable : List Slot) (activeRevoked : Bool) :
    Option (ChangeReason × Option Slot) × PseudonymStore :=
  match s.changeDue now usable activeRevoked with
  | none => (none, s)
  | some reason =>
    let above :=
      match s.highWater with
      | some hw => usable.find? fun p => hw < p
      | none => usable.head?
    let (next, wraps) :=
      match above with
      | some p => (some p, s.wraps)
      | none => (usable.head?, if usable.head?.isSome then sat32 (s.wraps + 1) else s.wraps)
    (some (reason, next),
      { s with
        active := next
        -- An empty pool leaves the cursor where it was.
        highWater := if next.isSome then next else s.highWater
        lastChange := some now
        travelledCm := 0
        leftMixZone := false
        changes := sat32 (s.changes + 1)
        wraps })

/-- Adds travel since the last change. -/
def addTravel (s : PseudonymStore) (cm : ℕ) : PseudonymStore :=
  { s with travelledCm := sat64 (s.travelledCm + cm) }

/-- Marks the active pseudonym unusable. -/
def invalidateActive (s : PseudonymStore) : PseudonymStore := { s with active := none }

end PseudonymStore

/-- What is done to a store. -/
inductive StoreOp where
  | setStrategy (strategy : PseudonymStrategy)
  | travelledCm (cm : ℕ)
  | leftMixZone
  | invalidateActive
  | rotate (now : SimTime) (usable : Usable) (activeRevoked : Bool)

/-- What an operation reports: a change and the pair it made active, if there was one. -/
abbrev Outcome := Option (ChangeReason × Option Slot)

/-- One operation. -/
def PseudonymStore.apply (s : PseudonymStore) : StoreOp → Outcome × PseudonymStore
  | .setStrategy strategy => (none, { s with strategy })
  | .travelledCm cm => (none, s.addTravel cm)
  | .leftMixZone => (none, { s with leftMixZone := true })
  | .invalidateActive => (none, s.invalidateActive)
  | .rotate now usable activeRevoked => s.rotate now usable.1 activeRevoked

/-- A store under any sequence of operations. -/
def storeMachine (strategy : PseudonymStrategy) : Machine PseudonymStore StoreOp Outcome Empty where
  init := .new strategy
  step s op := .ok (s.apply op)

/-- The pairs made active, in order. -/
def activated (os : List Outcome) : List Slot := os.filterMap fun o => o.bind Prod.snd

/-! ## What one operation does -/

/-- The state after a change: the next pair is active and the cursor stands on it. -/
structure ChangedTo (s : PseudonymStore) (usable : List Slot) (s' : PseudonymStore) : Prop where
  active : s'.active = Drain.next usable s.highWater
  highWater : s'.highWater = (Drain.next usable s.highWater).or s.highWater
  wraps : s'.wraps =
    if Drain.above usable s.highWater = none ∧ usable ≠ [] then sat32 (s.wraps + 1) else s.wraps

/-- What an operation does to the pairs. -/
inductive Effect (s : PseudonymStore) : StoreOp → Outcome → PseudonymStore → Prop
  | quiet {op : StoreOp} {s' : PseudonymStore} :
      (s'.active = s.active ∨ s'.active = none) → s'.highWater = s.highWater →
      s'.wraps = s.wraps → Effect s op none s'
  | change {now : SimTime} {usable : Usable} {activeRevoked : Bool} {reason : ChangeReason}
      {s' : PseudonymStore} :
      s.changeDue now usable.1 activeRevoked = some reason → ChangedTo s usable.1 s' →
      Effect s (.rotate now usable activeRevoked)
        (some (reason, Drain.next usable.1 s.highWater)) s'

/-- A change that is due is made, to the next pair of the pool. -/
lemma rotate_of_due {s : PseudonymStore} {now : SimTime} {usable : List Slot}
    {activeRevoked : Bool} {reason : ChangeReason}
    (h : s.changeDue now usable activeRevoked = some reason) :
    (s.rotate now usable activeRevoked).1 = some (reason, Drain.next usable s.highWater) ∧
      ChangedTo s usable (s.rotate now usable activeRevoked).2 := by
  have habove : (match s.highWater with
      | some hw => usable.find? fun p => hw < p
      | none => usable.head?) = Drain.above usable s.highWater := by
    cases s.highWater <;> rfl
  simp only [PseudonymStore.rotate, h, habove]
  cases ha : Drain.above usable s.highWater with
  | some p =>
    have hnext : Drain.next usable s.highWater = some p := by rw [Drain.next, ha, Option.some_or]
    exact ⟨by rw [hnext], hnext.symm, by rw [hnext]; rfl, by simp [ha]⟩
  | none =>
    have hnext : Drain.next usable s.highWater = usable.head? := by
      rw [Drain.next, ha, Option.none_or]
    refine ⟨by rw [hnext], hnext.symm, ?_, ?_⟩
    · rw [hnext]
      cases usable <;> rfl
    · rw [ha]
      cases usable <;> simp

/-- Every operation has one of the effects. -/
lemma apply_effect (s : PseudonymStore) (op : StoreOp) :
    Effect s op (s.apply op).1 (s.apply op).2 := by
  cases op with
  | setStrategy strategy => exact .quiet (.inl rfl) rfl rfl
  | travelledCm cm => exact .quiet (.inl rfl) rfl rfl
  | leftMixZone => exact .quiet (.inl rfl) rfl rfl
  | invalidateActive => exact .quiet (.inr rfl) rfl rfl
  | rotate now usable activeRevoked =>
    cases h : s.changeDue now usable.1 activeRevoked with
    | none =>
      have hrotate : s.apply (.rotate now usable activeRevoked) = (none, s) := by
        simp only [PseudonymStore.apply, PseudonymStore.rotate, h]
      rw [hrotate]
      exact .quiet (.inl rfl) rfl rfl
    | some reason =>
      have hrotate : s.apply (.rotate now usable activeRevoked) =
        s.rotate now usable.1 activeRevoked := rfl
      rw [hrotate, (rotate_of_due h).1]
      exact .change h (rotate_of_due h).2

/-- A scheduled change leaves a usable pair for another. -/
lemma changeDue_scheduled {s : PseudonymStore} {now : SimTime} {usable : List Slot}
    {activeRevoked : Bool} (h : s.changeDue now usable activeRevoked = some .scheduled) :
    ∃ p, s.active = some p ∧ p ∈ usable ∧ 2 ≤ usable.length := by
  unfold PseudonymStore.changeDue at h
  split at h
  · split at h <;> exact nomatch h
  · next p hp =>
    split at h
    · cases activeRevoked <;> exact nomatch h
    · next hmem =>
      split at h
      · exact nomatch h
      · next hlen => exact ⟨p, hp, by simpa using hmem, Nat.le_of_not_lt hlen⟩

lemma changeDue_of_not_mem {s : PseudonymStore} {t : SimTime} {l : List Slot}
    {a : Bool} {p : Slot} (hp : s.active = some p) (hmem : p ∉ l) :
    s.changeDue t l a = some (if a then .revoked else .expired) := by
  unfold PseudonymStore.changeDue
  rw [hp]
  simp [hmem]

/-- What every store keeps. -/
structure PseudonymStore.Inv (s : PseudonymStore) : Prop where
  /-- The cursor stands on the active pair. -/
  highWater : ∀ p, s.active = some p → s.highWater = some p
  wraps_le : s.wraps ≤ 2 ^ 32 - 1

lemma inv_new (strategy : PseudonymStrategy) : (PseudonymStore.new strategy).Inv :=
  ⟨fun _ h => (nomatch h), Nat.zero_le _⟩

/-- Every operation keeps a store consistent. -/
lemma Effect.inv {s s' : PseudonymStore} {op : StoreOp} {o : Outcome} (h : Effect s op o s')
    (hs : s.Inv) : s'.Inv := by
  cases h with
  | quiet hactive hwater hwraps =>
    refine ⟨fun p hp => ?_, by rw [hwraps]; exact hs.wraps_le⟩
    rw [hwater]
    rcases hactive with h | h
    · exact hs.highWater p (h ▸ hp)
    · rw [h] at hp
      exact nomatch hp
  | change _ h =>
    refine ⟨fun p hp => ?_, ?_⟩
    · rw [h.highWater, ← h.active, hp, Option.some_or]
    · rw [h.wraps]
      have hle := hs.wraps_le
      split
      · exact Nat.min_le_right _ _
      · exact hle

lemma Effect.wraps_le {s s' : PseudonymStore} {op : StoreOp} {o : Outcome} (h : Effect s op o s')
    (hs : s.Inv) : s.wraps ≤ s'.wraps ∧ s'.wraps ≤ s.wraps + 1 := by
  have hle := hs.wraps_le
  cases h with
  | quiet _ _ hwraps => omega
  | change _ h =>
    rw [h.wraps]
    unfold sat32
    split <;> omega

lemma effect_of_step {strategy : PseudonymStrategy} {s s' : PseudonymStore} {op : StoreOp}
    {o : Outcome} (h : (storeMachine strategy).step s op = .ok (o, s')) : Effect s op o s' := by
  have heq : s.apply op = (o, s') := Except.ok.inj h
  have heffect := apply_effect s op
  rwa [heq] at heffect

variable {strategy : PseudonymStrategy} {s t : PseudonymStore} {is : List StoreOp}
  {os : List Outcome}

lemma inv_of_steps (h : (storeMachine strategy).Steps s is os t) (hs : s.Inv) :
    t.Inv ∧ s.wraps ≤ t.wraps := by
  induction h with
  | nil s => exact ⟨hs, le_rfl⟩
  | cons hstep _ ih =>
    have heffect := effect_of_step hstep
    obtain ⟨hinv, hle⟩ := ih (heffect.inv hs)
    exact ⟨hinv, (heffect.wraps_le hs).1.trans hle⟩

/-! ## Order -/

lemma activated_cons (o : Outcome) (os : List Outcome) :
    activated (o :: os) = (o.bind Prod.snd).toList ++ activated os := by
  cases h : o.bind Prod.snd <;> simp [activated, h]

/-- The cursor stands on the last pair made active. -/
lemma highWater_of_steps (h : (storeMachine strategy).Steps s is os t) :
    t.highWater = (activated os).getLast?.or s.highWater := by
  induction h with
  | nil s => rfl
  | @cons s u t op o is os hstep _ ih =>
    rw [activated_cons, ih]
    cases effect_of_step hstep with
    | quiet _ hwater _ => rw [hwater]; rfl
    | @change _ usable _ _ _ _ h =>
      rw [h.highWater]
      cases hnext : Drain.next usable.1 s.highWater with
      | none => simp
      | some p =>
        cases hlast : (activated os).getLast? with
        | none =>
          rw [List.getLast?_eq_none_iff.1 hlast]
          simp
        | some q => simp [List.getLast?_cons, hlast]

/-- **No early reuse.** While the pool has not wrapped, the pairs made active ascend, beginning
above the cursor.

**Proof sketch.** Induction on the run. A change that does not wrap takes the first pair above the
cursor and moves the cursor there. -/
lemma ascending_of_wraps_eq (h : (storeMachine strategy).Steps s is os t) (hs : s.Inv)
    (heq : t.wraps = s.wraps) (hmax : t.wraps < 2 ^ 32 - 1) :
    (s.highWater.toList ++ activated os).Pairwise (· < ·) := by
  induction h with
  | nil s => cases h : s.highWater <;> simp [activated]
  | @cons s u t op o is os hstep hrest ih =>
    have heffect := effect_of_step hstep
    have hu := heffect.inv hs
    have hle := (inv_of_steps hrest hu).2
    have hstart := (heffect.wraps_le hs).1
    have hkept : u.wraps = s.wraps := by omega
    have hrec := ih hu (by omega) hmax
    rw [activated_cons]
    cases heffect with
    | quiet _ hwater _ => rwa [hwater] at hrec
    | @change _ usable _ _ _ _ hto =>
      have hwraps := hto.wraps
      rw [hto.highWater] at hrec
      cases habove : Drain.above usable.1 s.highWater with
      | none =>
        -- Only an empty pool leaves the count as it is.
        have hempty : usable.1 = [] := by
          by_contra hne
          rw [if_pos ⟨habove, hne⟩] at hwraps
          unfold sat32 at hwraps
          omega
        have hnext : Drain.next usable.1 s.highWater = none := by
          rw [Drain.next, habove, hempty]
          rfl
        rw [hnext] at hrec ⊢
        simpa using hrec
      | some p =>
        have hnext : Drain.next usable.1 s.highWater = some p := by
          rw [Drain.next, habove, Option.some_or]
        rw [hnext] at hrec ⊢
        have htail : (p :: activated os).Pairwise (· < ·) := by simpa using hrec
        show (s.highWater.toList ++ p :: activated os).Pairwise (· < ·)
        cases hwater : s.highWater with
        | none => exact htail
        | some c =>
          rw [hwater] at habove
          have hcp : c < p := Drain.lt_of_above habove
          refine List.Pairwise.cons ?_ htail
          intro q hq
          rcases List.mem_cons.1 hq with rfl | hq
          · exact hcp
          · exact hcp.trans ((List.pairwise_cons.1 htail).1 q hq)

/-- The pairs made active over one pool are a walk through it. -/
lemma walk_of_steps {usable : Usable} (h : (storeMachine strategy).Steps s is os t)
    (hpool : ∀ now l activeRevoked, StoreOp.rotate now l activeRevoked ∈ is → l = usable) :
    Drain.Walk usable.1 s.highWater (activated os) := by
  induction h with
  | nil s => exact .nil _
  | @cons s u t op o is os hstep _ ih =>
    have hrec := ih fun now l r hmem => hpool now l r (List.mem_cons_of_mem _ hmem)
    rw [activated_cons]
    cases effect_of_step hstep with
    | quiet _ hwater _ => rwa [hwater] at hrec
    | @change _ l _ _ _ _ hto =>
      obtain rfl := hpool _ _ _ List.mem_cons_self
      rw [hto.highWater] at hrec
      cases hnext : Drain.next l.1 s.highWater with
      | none =>
        rw [hnext] at hrec
        exact hrec
      | some p =>
        rw [hnext] at hrec
        exact .cons hnext hrec

/-- A change with a reason that finds a pool makes a pair active. -/
lemma length_activated {usable : Usable} (h : (storeMachine strategy).Steps s is os t)
    (hpool : ∀ now l activeRevoked, StoreOp.rotate now l activeRevoked ∈ is → l = usable)
    (hne : usable.1 ≠ []) : (activated os).length = (os.filterMap id).length := by
  induction h with
  | nil s => rfl
  | @cons s u t op o is os hstep _ ih =>
    have hrec := ih fun now l r hmem => hpool now l r (List.mem_cons_of_mem _ hmem)
    rw [activated_cons, List.length_append, hrec]
    cases effect_of_step hstep with
    | quiet => simp
    | @change _ l _ _ _ _ hto =>
      obtain rfl := hpool _ _ _ List.mem_cons_self
      cases hnext : Drain.next l.1 s.highWater with
      | none => exact absurd (Drain.next_eq_none hnext) hne
      | some p =>
        show 1 + (os.filterMap id).length = (os.filterMap id).length + 1
        exact Nat.add_comm _ _

/-- The first of a run's changes, if it is a scheduled one, leaves a usable pair. -/
lemma mem_of_scheduled {usable : Usable} (h : (storeMachine strategy).Steps s is os t)
    (hs : s.Inv)
    (hpool : ∀ now l activeRevoked, StoreOp.rotate now l activeRevoked ∈ is → l = usable)
    (hscheduled : ∀ reason next, some (reason, next) ∈ os → reason = .scheduled)
    (hsome : (os.filterMap id) ≠ []) : ∃ c ∈ usable.1, s.highWater = some c := by
  induction h with
  | nil s => exact absurd rfl hsome
  | @cons s u t op o is os hstep _ ih =>
    have hrec := fun hu => ih hu (fun now l r hmem => hpool now l r (List.mem_cons_of_mem _ hmem))
      fun reason next hmem => hscheduled reason next (List.mem_cons_of_mem _ hmem)
    have heffect := effect_of_step hstep
    have hu := heffect.inv hs
    cases heffect with
    | quiet _ hwater _ =>
      obtain ⟨c, hc, hwater'⟩ := hrec hu (by simpa using hsome)
      exact ⟨c, hc, hwater ▸ hwater'⟩
    | @change _ l _ reason _ hdue _ =>
      obtain rfl := hpool _ _ _ List.mem_cons_self
      obtain rfl := hscheduled reason _ List.mem_cons_self
      obtain ⟨c, hc, hmem, -⟩ := changeDue_scheduled hdue
      exact ⟨c, hmem, hs.highWater c hc⟩

/-- Some rotation of a run made the active pair active, from its pool. -/
lemma chosen_of_active (h : (storeMachine strategy).Steps s is os t) (hs : s.active = none)
    {p : Slot} (hp : t.active = some p) :
    ∃ now usable activeRevoked reason,
      (StoreOp.rotate now usable activeRevoked, some (reason, some p)) ∈ is.zip os ∧
        p ∈ usable.1 := by
  have hgen : ∀ {s t : PseudonymStore} {is : List StoreOp} {os : List Outcome},
      (storeMachine strategy).Steps s is os t → t.active = some p → s.active = some p ∨
        ∃ now usable activeRevoked reason,
          (StoreOp.rotate now usable activeRevoked, some (reason, some p)) ∈ is.zip os ∧
            p ∈ usable.1 := by
    intro s t is os h hp
    induction h with
    | nil s => exact .inl hp
    | @cons s u t op o is os hstep _ ih =>
      rcases ih hp with hu | ⟨now, usable, r, reason, hmem, hmem'⟩
      · cases effect_of_step hstep with
        | quiet hactive _ _ =>
          rcases hactive with h | h
          · exact .inl (h ▸ hu)
          · rw [h] at hu
            exact nomatch hu
        | @change now usable r reason _ _ hto =>
          have hnext := hto.active.symm.trans hu
          rw [hnext]
          exact .inr ⟨now, usable, r, reason, List.mem_cons_self, Drain.mem_of_next hnext⟩
      · exact .inr ⟨now, usable, r, reason, List.mem_cons_of_mem _ hmem, hmem'⟩
  rcases hgen h hp with h | h
  · rw [hs] at h
    exact nomatch h
  · exact h

/-- **Pseudonym changes drain the pool.** After every sequence of operations on a store:

* the cursor stands on the active pair, which was usable when it was chosen, and on the last pair
  made active;
* a scheduled change makes another pair active;
* until the next wrap is counted, the pairs made active ascend from the cursor;
* a wrap is counted, by one, only when no usable pair is above the cursor;
* over a fixed pool of `n ≥ 2` pairs, `n` scheduled changes make every pair active exactly once;
* an active pair that is no longer usable is given up at once, under every strategy.

**Proof sketch.** Each change goes to the next pair of the pool above the cursor, so changes are a
walk through the pool; the rest is about such walks. -/
theorem rotation_drains_pool (strategy : PseudonymStrategy) {is : List StoreOp} {os : List Outcome}
    {s : PseudonymStore} (hrun : (storeMachine strategy).Steps (.new strategy) is os s) :
    (∀ p, s.active = some p → s.highWater = some p ∧
      ∃ now usable activeRevoked reason,
        (StoreOp.rotate now usable activeRevoked, some (reason, some p)) ∈ is.zip os ∧
          p ∈ usable.1) ∧
    s.highWater = (activated os).getLast? ∧
    (∀ now usable activeRevoked next s',
      s.apply (.rotate now usable activeRevoked) = (some (.scheduled, next), s') →
        ∃ p q, s.active = some p ∧ next = some q ∧ s'.active = some q ∧ q ≠ p) ∧
    (∀ is' os' t op o t', (storeMachine strategy).Steps s is' os' t → t.wraps = s.wraps →
      t.apply op = (o, t') → t'.wraps ≠ t.wraps →
        (s.highWater.toList ++ activated os').Pairwise (· < ·)) ∧
    (∀ op o s', s.apply op = (o, s') → s'.wraps ≠ s.wraps →
      s'.wraps = s.wraps + 1 ∧ ∃ now usable activeRevoked c,
        op = .rotate now usable activeRevoked ∧ s.highWater = some c ∧ ∀ q ∈ usable.1, q ≤ c) ∧
    (∀ (usable : Usable) is' os' t, (storeMachine strategy).Steps s is' os' t →
      (∀ now l activeRevoked, StoreOp.rotate now l activeRevoked ∈ is' → l = usable) →
      2 ≤ usable.1.length →
      (∀ reason next, some (reason, next) ∈ os' → reason = .scheduled) →
      (os'.filterMap id).length = usable.1.length → (activated os').Perm usable.1) ∧
    (∀ now usable activeRevoked p, s.active = some p → p ∉ usable.1 → ∃ next s',
      s.apply (.rotate now usable activeRevoked) =
        (some (if activeRevoked then .revoked else .expired, next), s') ∧
      s'.active = next ∧ next ≠ some p) := by
  have hinv : s.Inv := (inv_of_steps hrun (inv_new strategy)).1
  have heffect {s s' : PseudonymStore} {op : StoreOp} {o : Outcome} (h : s.apply op = (o, s')) :
      Effect s op o s' := by
    have heffect := apply_effect s op
    rwa [h] at heffect
  refine ⟨?_, ?_, ?_, ?_, ?_, ?_, ?_⟩
  · intro p hp
    exact ⟨hinv.highWater p hp, chosen_of_active hrun rfl hp⟩
  · rw [highWater_of_steps hrun]
    exact Option.or_none
  · intro now usable activeRevoked next s' h
    cases heffect h with
    | change hdue hto =>
      obtain ⟨p, hp, hmem, hlen⟩ := changeDue_scheduled hdue
      have hne := Drain.next_ne usable.2 hlen hmem
      have hactive := hto.active
      rw [hinv.highWater p hp] at hactive ⊢
      cases hnext : Drain.next usable.1 (some p) with
      | none =>
        rw [Drain.next_eq_none hnext] at hlen
        exact absurd hlen (by decide)
      | some q =>
        rw [hnext] at hne hactive
        exact ⟨p, q, hp, rfl, hactive, fun heq => hne (congrArg some heq)⟩
  · intro is' os' t op o t' hsteps heq h hne
    have ht := (inv_of_steps hsteps hinv).1
    have hle := ((heffect h).inv ht).wraps_le
    have hstep := (heffect h).wraps_le ht
    exact ascending_of_wraps_eq hsteps hinv heq (by omega)
  · intro op o s' h hne
    have hle := (heffect h).wraps_le hinv
    refine ⟨by omega, ?_⟩
    cases heffect h with
    | quiet _ _ hwraps => exact absurd hwraps hne
    | @change now usable activeRevoked _ _ hdue hto =>
      have hwraps := hto.wraps
      split at hwraps
      · next habove =>
        cases hwater : s.highWater with
        | none =>
          rw [hwater] at habove
          exact absurd (List.head?_eq_none_iff.1 habove.1) habove.2
        | some c =>
          rw [hwater] at habove
          exact ⟨now, usable, activeRevoked, c, rfl, rfl, Drain.le_of_above_eq_none habove.1⟩
      · exact absurd hwraps hne
  · intro usable is' os' t hsteps hpool hlen hscheduled hcount
    have hne : usable.1 ≠ [] := List.ne_nil_of_length_pos (by omega)
    have hsome : os'.filterMap id ≠ [] := List.ne_nil_of_length_pos (by omega)
    obtain ⟨c, hc, hwater⟩ := mem_of_scheduled hsteps hinv hpool hscheduled hsome
    have hwalk := walk_of_steps hsteps hpool
    rw [hwater] at hwalk
    exact hwalk.perm usable.2 hc ((length_activated hsteps hpool hne).trans hcount)
  · intro now usable activeRevoked p hp hmem
    have hrotate := rotate_of_due
      (changeDue_of_not_mem (t := now) (a := activeRevoked) hp hmem)
    refine ⟨Drain.next usable.1 s.highWater, _, Prod.ext hrotate.1 rfl, hrotate.2.active, ?_⟩
    intro hnext
    exact hmem (Drain.mem_of_next hnext)

/-- A pool of two pairs. -/
def twoSlots : Usable := ⟨[slot 0 0, slot 0 1], by decide +kernel⟩

/-- Two scheduled changes after the first activation make both pairs of a pool active. -/
theorem rotation_drains_pool_two :
    let m := storeMachine (.time ⟨0⟩)
    ∃ os s os' t, m.Steps (.new (.time ⟨0⟩)) [.rotate 0 twoSlots false] os s ∧
      m.Steps s [.rotate 1 twoSlots false, .rotate 2 twoSlots false] os' t ∧
      s.active = some (slot 0 0) ∧ (activated os').Perm twoSlots.1 := by
  intro m
  have hrun (s : PseudonymStore) (now : SimTime) :
      m.Steps s [.rotate now twoSlots false] [(s.apply (.rotate now twoSlots false)).1]
        (s.apply (.rotate now twoSlots false)).2 := .cons rfl (.nil _)
  obtain ⟨-, -, -, -, -, hturn, -⟩ := rotation_drains_pool (.time ⟨0⟩) (hrun _ 0)
  refine ⟨_, _, _, _, hrun _ 0, (hrun _ 1).append (hrun _ 2), by decide +kernel, ?_⟩
  refine hturn twoSlots _ _ _ ((hrun _ 1).append (hrun _ 2)) ?_ (by decide) ?_ (by decide +kernel)
  · intro now l activeRevoked hmem
    rcases List.mem_cons.1 hmem with h | h
    · exact (StoreOp.rotate.inj h).2.1
    · exact (StoreOp.rotate.inj (List.mem_singleton.1 h)).2.1
  · intro reason next hmem
    rcases List.mem_cons.1 hmem with h | h
    · exact (Prod.mk.inj (Option.some.inj h)).1.trans (by decide +kernel)
    · exact (Prod.mk.inj (Option.some.inj (List.mem_singleton.1 h))).1.trans (by decide +kernel)

end V2xw.Scms
