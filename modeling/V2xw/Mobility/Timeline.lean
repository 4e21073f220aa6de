import Mathlib.Algebra.BigOperators.Group.List.Basic
import Mathlib.Algebra.Order.BigOperators.GroupWithZero.List
import Mathlib.Algebra.Order.Field.Basic
import Mathlib.Algebra.Order.Ring.Rat
import Mathlib.Data.List.Sort
import V2xw.Mobility.Poisson

/-!
# The demand of a timeline

A scenario may scale its demand for a while, any number of times at once, and may replace its
arrival rate for good. The candidates of the arrival process are drawn at a rate that is raised
once, to the largest multiplier the timeline ever puts in force, which `demand_peak` of
`crates/v2xw-engine/src/timeline.rs` finds by walking through the instants at which it changes.

## Main definitions

* `Scenario`, `Scenario.timelineErrors` — a timeline, and what is wrong with it.
* `Scenario.demandPeak` — the walk.
* `Scenario.inForce` — the multiplier in force at an instant.

## Main results

* `Scenario.active_foldl`, `Scenario.rateRatio_foldl` — what the walk holds after some changes.
* `Scenario.demandPeak_covers` — the peak covers it, and the thinning is never clipped.

## Implementation notes

Times and values are exact numbers, of a linearly ordered field. The parameters of an item are a map
of which `path` and `value` are read. Of the rules for a timeline those are here that the items of
the demand are under.
-/

namespace V2xw.Mobility

/-! ## Timelines -/

/-- The kinds of timeline item. -/
inductive TimelineKind
  | demandMultiplier
  | weatherFront
  | attackWave
  | outage
  | paramChange
  | closure
  deriving DecidableEq, Repr

namespace TimelineKind

/-- Whether an item of the kind may end. -/
def takesUntil : TimelineKind → Bool
  | demandMultiplier | outage | attackWave | closure => true
  | weatherFront | paramChange => false

/-- The parameters an item of the kind must have. -/
def requiredParams : TimelineKind → List String
  | demandMultiplier | weatherFront => ["value"]
  | attackWave => ["ids"]
  | outage | closure => ["target"]
  | paramChange => ["path", "value"]

end TimelineKind

/-- The value of a parameter. -/
inductive ParamValue (K : Type)
  | null
  | number (x : K)
  | string (s : String)
  | other

namespace ParamValue

variable {K : Type}

def asF64 : ParamValue K → Option K
  | number x => some x
  | _ => none

def asStr : ParamValue K → Option String
  | string s => some s
  | _ => none

end ParamValue

/-- One item of a timeline. -/
structure TimelineItem (K : Type) where
  t : K
  /-- When it stops taking effect. -/
  untilT : Option K
  kind : TimelineKind
  params : String → Option (ParamValue K)

/-- A scenario, as far as its demand goes. -/
structure Scenario (K : Type) where
  durationS : K
  rateVehPerH : Option K
  /-- The arrival rate of the demand model's own parameters. -/
  arrivalRatePerS : Option K
  events : List (TimelineItem K)

/-- The path of the arrival rate. -/
def ratePath : String := "actors.vehicles.demand.rate_veh_per_h"

namespace TimelineItem

variable {K : Type}

/-- The item changes the arrival rate. -/
def isRateChange (item : TimelineItem K) : Bool :=
  item.kind = .paramChange && (item.params "path").bind ParamValue.asStr = some ratePath

def isMultiplier (item : TimelineItem K) : Bool := item.kind = .demandMultiplier

/-- The value of an item, 1 where it has no number. -/
def value [One K] (item : TimelineItem K) : K := ((item.params "value").bind ParamValue.asF64).getD 1

end TimelineItem

namespace Scenario

section Rules

variable {K : Type} [Field K] [LinearOrder K] (s : Scenario K)

/-- The scenario's own arrival rate. -/
def baseRateVehPerH : Option K := s.rateVehPerH <|> s.arrivalRatePerS.map (· * 3600)

/-- The field of an item. -/
def field (i : ℕ) (name : String) : String := "events[" ++ toString i ++ "]." ++ name

/-- An instant is inside the run. -/
def checkT (i : ℕ) (item : TimelineItem K) : List String :=
  if 0 ≤ item.t ∧ item.t ≤ s.durationS then [] else [field i "t"]

/-- An end is one of a kind that ends, after the start and inside the run. -/
def checkUntil (i : ℕ) (item : TimelineItem K) : List String :=
  match item.untilT with
  | none => []
  | some u =>
    if ¬ item.kind.takesUntil then [field i "until"]
    else if u ≤ item.t ∨ s.durationS < u then [field i "until"] else []

def checkRequired (i : ℕ) (item : TimelineItem K) : List String :=
  (item.kind.requiredParams.filter fun key => (item.params key).isNone).map (field i)

/-- A multiplier is a number, not negative. -/
def checkMultiplier (i : ℕ) (item : TimelineItem K) : List String :=
  if item.isMultiplier then
    match item.params "value" with
    | none => []
    | some v => if ∃ x ∈ v.asF64, 0 ≤ x then [] else [field i "value"]
  else []

/-- The scenario with the rate changed is one: the rate is a number, not negative, or none. -/
def checkRate (i : ℕ) (item : TimelineItem K) : List String :=
  if item.isRateChange then
    match item.params "value" with
    | none => []
    | some .null => []
    | some (.number x) => if 0 ≤ x then [] else [field i "value"]
    | some _ => [field i "value"]
  else []

/-- There is a rate to change from. -/
def checkBase (i : ℕ) (item : TimelineItem K) : List String :=
  if item.isRateChange ∧ ¬ ∃ r ∈ s.baseRateVehPerH, 0 < r then [field i "path"] else []

/-- The fields of a timeline that break a rule. -/
def timelineErrors : List String :=
  s.events.zipIdx.flatMap fun e =>
    s.checkT e.2 e.1 ++ s.checkUntil e.2 e.1 ++ checkRequired e.2 e.1 ++ checkMultiplier e.2 e.1 ++
      checkRate e.2 e.1 ++ s.checkBase e.2 e.1

end Rules

/-! ## The walk -/

section Walk

variable {K : Type} [Field K] [LinearOrder K]

/-- An instant at which an item starts, of order 1, or ends, of order 0. -/
structure Change (K : Type) where
  time : K
  order : ℕ
  index : ℕ
  deriving DecidableEq

/-- Ends come before starts at the same instant. -/
def Change.before (a b : Change K) : Prop :=
  a.time < b.time ∨ a.time = b.time ∧ (a.order < b.order ∨ a.order = b.order ∧ a.index ≤ b.index)

instance : DecidableRel (Change.before (K := K)) := fun _ _ => instDecidableOr

/-- What the walk holds. -/
structure Sweep (K : Type) where
  /-- The values of the multipliers in force, by the places of their items. -/
  active : ℕ → Option K
  rateRatio : K
  peak : K

variable (s : Scenario K)

/-- The instants at which the demand changes. -/
def changes : List (Change K) :=
  s.events.zipIdx.flatMap fun e =>
    if e.1.isMultiplier then
      ⟨e.1.t, 1, e.2⟩ :: (e.1.untilT.map fun u => Change.mk u 0 e.2).toList
    else if e.1.isRateChange then [⟨e.1.t, 1, e.2⟩]
    else []

/-- The product of the values in force. -/
def activeProduct (active : ℕ → Option K) : K :=
  (s.events.zipIdx.map fun e => (active e.2).getD 1).prod

/-- The rate that rate changes are a ratio to. -/
def base : Option K := s.baseRateVehPerH.filter fun r => decide (0 < r)

/-- What a change puts in force. -/
def applyChange (w : Sweep K) (c : Change K) : Sweep K :=
  match s.events[c.index]? with
  | none => w
  | some item =>
    if item.isMultiplier then
      if c.order = 1 then { w with active := Function.update w.active c.index (some item.value) }
      else { w with active := Function.update w.active c.index none }
    else
      match s.base with
      | some base => { w with rateRatio := item.value / base }
      | none => w

/-- The product in force. -/
def now (w : Sweep K) : K := w.rateRatio * s.activeProduct w.active

/-- One turn of the walk. -/
def sweepStep (w : Sweep K) (c : Change K) : Sweep K :=
  let w := s.applyChange w c
  { w with peak := max w.peak (s.now w) }

/-- The walk through some changes. -/
def sweep (cs : List (Change K)) : Sweep K := cs.foldl s.sweepStep ⟨fun _ => none, 1, 1⟩

/-- The largest demand multiplier the timeline ever puts in force at once. -/
def demandPeak : K := (s.sweep (s.changes.insertionSort Change.before)).peak

end Walk

/-! ## What is in force -/

section InForce

variable {K : Type} [Field K] [LinearOrder K] (s : Scenario K)

/-- A multiplier is in force at an instant. -/
def Holds (t : K) (item : TimelineItem K) : Prop :=
  item.isMultiplier ∧ item.t ≤ t ∧ ∀ u ∈ item.untilT, t < u

instance (t : K) (item : TimelineItem K) : Decidable (Holds t item) := instDecidableAnd

/-- The product of the multipliers in force at an instant. -/
def multipliersAt (t : K) : K :=
  ((s.events.filter fun item => Holds t item).map TimelineItem.value).prod

/-- The later of two items, in time and then in the list, of which the second comes later in the
list. -/
def later (best : Option (TimelineItem K × ℕ)) (e : TimelineItem K × ℕ) :
    Option (TimelineItem K × ℕ) :=
  match best with
  | none => some e
  | some b => if b.1.t ≤ e.1.t then some e else some b

/-- The last rate change at or before an instant, with its place. -/
def lastRate (t : K) : Option (TimelineItem K × ℕ) :=
  (s.events.zipIdx.filter fun e => e.1.isRateChange ∧ e.1.t ≤ t).foldl later none

/-- The ratio of the rate in force at an instant to the scenario's own. -/
def ratioAt (t : K) : K :=
  match s.lastRate t, s.baseRateVehPerH with
  | some e, some r => e.1.value / r
  | _, _ => 1

/-- The demand multiplier in force at an instant. -/
def inForce (t : K) : K := s.ratioAt t * s.multipliersAt t

end InForce

/-! ## What the rules give -/

section Rules

variable {K : Type} [Field K] [LinearOrder K] {s : Scenario K} (h : s.timelineErrors = [])
  {item : TimelineItem K} {i : ℕ}

include h

lemma errors_nil (hi : s.events[i]? = some item) :
    s.checkUntil i item = [] ∧ checkMultiplier i item = [] ∧ checkRate i item = [] ∧
      s.checkBase i item = [] := by
  have hitem := List.flatMap_eq_nil_iff.1 h (item, i) (List.mk_mem_zipIdx_iff_getElem?.2 hi)
  simp only [List.append_eq_nil_iff] at hitem
  obtain ⟨⟨⟨⟨⟨-, huntil⟩, -⟩, hmultiplier⟩, hrate⟩, hbase⟩ := hitem
  exact ⟨huntil, hmultiplier, hrate, hbase⟩

/-- An item ends after it starts. -/
lemma lt_until (hi : s.events[i]? = some item) {u : K} (hu : item.untilT = some u) :
    item.t < u := by
  have hcheck := (errors_nil h hi).1
  simp only [checkUntil, hu] at hcheck
  split_ifs at hcheck with hkind hle
  exact lt_of_not_ge fun hge => hle (.inl hge)

/-- The values of the demand are not negative. -/
lemma value_nonneg [IsStrictOrderedRing K] (hi : s.events[i]? = some item)
    (hdemand : item.isMultiplier ∨ item.isRateChange) : 0 ≤ item.value := by
  obtain ⟨-, hmultiplier, hrate, -⟩ := errors_nil h hi
  rw [TimelineItem.value]
  cases hvalue : item.params "value" with
  | none => exact zero_le_one
  | some v =>
    cases v with
    | number x =>
      rcases hdemand with hkind | hkind
      · rw [checkMultiplier, if_pos hkind, hvalue] at hmultiplier
        simp only at hmultiplier
        split_ifs at hmultiplier with hex
        obtain ⟨_, ⟨⟩, hle⟩ := hex
        exact hle
      · rw [checkRate, if_pos hkind, hvalue] at hrate
        simp only at hrate
        split_ifs at hrate with hle
        exact hle
    | _ => exact zero_le_one

/-- A rate that changes has a positive rate to change from. -/
lemma base_pos (hi : s.events[i]? = some item) (hrate : item.isRateChange) :
    ∃ r, s.baseRateVehPerH = some r ∧ 0 < r := by
  have hbase := (errors_nil h hi).2.2.2
  rw [checkBase] at hbase
  split_ifs at hbase with hbad
  have hex := not_and_not_right.1 hbad hrate
  exact hex

end Rules

/-! ## The walk through the changes -/

section Sweep

variable {K : Type} [Field K] [LinearOrder K] {s : Scenario K}

omit [Field K] [LinearOrder K] in
/-- The changes of the items of the demand. -/
lemma mem_changes {c : Change K} : c ∈ s.changes ↔ ∃ item, s.events[c.index]? = some item ∧
    (item.isMultiplier ∧ (c.order = 1 ∧ c.time = item.t ∨
      c.order = 0 ∧ item.untilT = some c.time) ∨
    ¬ item.isMultiplier ∧ item.isRateChange ∧ c.order = 1 ∧ c.time = item.t) := by
  rw [changes, List.mem_flatMap]
  constructor
  · rintro ⟨⟨item, i⟩, hmem, hc⟩
    have hi := List.mk_mem_zipIdx_iff_getElem?.1 hmem
    dsimp only at hc
    split_ifs at hc with hmult hrate
    · rcases List.mem_cons.1 hc with rfl | hc
      · exact ⟨item, hi, .inl ⟨hmult, .inl ⟨rfl, rfl⟩⟩⟩
      · obtain ⟨u, hu, rfl⟩ := Option.map_eq_some_iff.1 (Option.mem_toList.1 hc)
        exact ⟨item, hi, .inl ⟨hmult, .inr ⟨rfl, hu⟩⟩⟩
    · obtain rfl := List.mem_singleton.1 hc
      exact ⟨item, hi, .inr ⟨hmult, hrate, rfl, rfl⟩⟩
    · cases hc
  · rintro ⟨item, hi, hc⟩
    obtain ⟨time, order, i⟩ := c
    refine ⟨(item, i), List.mk_mem_zipIdx_iff_getElem?.2 hi, ?_⟩
    dsimp only at hc ⊢
    rcases hc with ⟨hmult, ⟨rfl, rfl⟩ | ⟨rfl, hu⟩⟩ | ⟨hmult, hrate, rfl, rfl⟩
    · rw [if_pos hmult]
      exact List.mem_cons_self
    · rw [if_pos hmult, hu]
      exact List.mem_cons_of_mem _ List.mem_cons_self
    · rw [if_neg hmult, if_pos hrate]
      exact List.mem_cons_self

lemma applyChange_peak (w : Sweep K) (c : Change K) : (s.applyChange w c).peak = w.peak := by
  rw [applyChange]
  split
  · rfl
  · split_ifs
    · rfl
    · rfl
    · split <;> rfl

lemma applyChange_active {c : Change K} {item : TimelineItem K}
    (hc : s.events[c.index]? = some item) (w : Sweep K) (i : ℕ) :
    (s.applyChange w c).active i =
      if item.isMultiplier ∧ c.index = i then (if c.order = 1 then some item.value else none)
      else w.active i := by
  simp only [applyChange, hc]
  by_cases hmult : item.isMultiplier
  · rw [if_pos hmult]
    by_cases hi : c.index = i
    · subst hi
      by_cases horder : c.order = 1
      · rw [if_pos horder, if_pos ⟨hmult, rfl⟩, if_pos horder]
        exact Function.update_self ..
      · rw [if_neg horder, if_pos ⟨hmult, rfl⟩, if_neg horder]
        exact Function.update_self ..
    · rw [if_neg fun h : item.isMultiplier = true ∧ c.index = i => hi h.2]
      split_ifs <;> exact Function.update_of_ne (Ne.symm hi) ..
  · rw [if_neg hmult, if_neg fun h => hmult h.1]
    split <;> rfl

lemma applyChange_rateRatio {c : Change K} {item : TimelineItem K}
    (hc : s.events[c.index]? = some item) (w : Sweep K) :
    (s.applyChange w c).rateRatio =
      if item.isMultiplier then w.rateRatio else s.base.elim w.rateRatio (item.value / ·) := by
  simp only [applyChange, hc]
  split_ifs
  · rfl
  · rfl
  · cases s.base <;> rfl

lemma sweep_concat (cs : List (Change K)) (c : Change K) :
    s.sweep (cs ++ [c]) = s.sweepStep (s.sweep cs) c := by
  rw [sweep, List.foldl_append]
  rfl

/-- The walk is at no product above its peak, and its peak is at least 1. -/
lemma now_le_peak (cs : List (Change K)) :
    s.now (s.sweep cs) ≤ (s.sweep cs).peak ∧ 1 ≤ (s.sweep cs).peak := by
  induction cs using List.reverseRecOn with
  | nil =>
    have hone : s.now (s.sweep []) = 1 := by
      simp [now, sweep, activeProduct]
    exact ⟨hone.le, le_rfl⟩
  | append_singleton cs c ih =>
    rw [sweep_concat, sweepStep]
    exact ⟨le_max_right _ _, (ih.2.trans (applyChange_peak _ c).ge).trans (le_max_left _ _)⟩

/-- The peak only grows. -/
lemma peak_mono (cs cs' : List (Change K)) : (s.sweep cs).peak ≤ (s.sweep (cs ++ cs')).peak := by
  induction cs' using List.reverseRecOn with
  | nil => rw [List.append_nil]
  | append_singleton cs' c ih =>
    rw [← List.append_assoc, sweep_concat, sweepStep]
    exact (ih.trans (applyChange_peak _ c).ge).trans (le_max_left _ _)

/-! ### The multipliers -/

/-- **The multipliers the walk holds**: those that have started and not ended. -/
theorem active_foldl (h : s.timelineErrors = []) {item : TimelineItem K} {i : ℕ}
    (hi : s.events[i]? = some item) (cs : List (Change K)) (hcs : ∀ c ∈ cs, c ∈ s.changes)
    (hsorted : cs.Pairwise Change.before) :
    (s.sweep cs).active i =
      if item.isMultiplier ∧ ⟨item.t, 1, i⟩ ∈ cs ∧ ∀ u ∈ item.untilT, ⟨u, 0, i⟩ ∉ cs then
        some item.value
      else none := by
  induction cs using List.reverseRecOn with
  | nil => simp [sweep]
  | append_singleton cs c ih =>
    have hih := ih (fun a ha => hcs a (List.mem_append_left _ ha)) (List.pairwise_append.1 hsorted).1
    obtain ⟨citem, hci, hc⟩ := mem_changes.1 (hcs c (by simp))
    rw [sweep_concat]
    change (s.applyChange (s.sweep cs) c).active i = _
    rw [applyChange_active hci, hih]
    by_cases hidx : c.index = i
    · subst hidx
      obtain rfl : citem = item := Option.some.inj (hci.symm.trans hi)
      rcases hc with ⟨hmult, ⟨horder, htime⟩ | ⟨horder, hu⟩⟩ | ⟨hmult, -⟩
      · -- It starts, and no end of it has come before.
        have hstart : (⟨citem.t, 1, c.index⟩ : Change K) = c := by rw [← htime, ← horder]
        have hend : ∀ u ∈ citem.untilT, (⟨u, 0, c.index⟩ : Change K) ∉ cs ++ [c] := by
          intro u hu hmem
          have hlt := lt_until h hi hu
          rcases List.mem_append.1 hmem with hmem | hmem
          · rcases (List.pairwise_append.1 hsorted).2.2 _ hmem c (by simp) with hb | ⟨hb, -⟩
            · exact (hb.trans_eq htime).not_gt hlt
            · exact (hb.trans htime).not_gt hlt
          · rw [← List.mem_singleton.1 hmem] at horder
            exact absurd horder Nat.zero_ne_one
        rw [if_pos ⟨hmult, rfl⟩, if_pos horder, if_pos ⟨hmult, by rw [hstart]; simp, hend⟩]
      · -- It ends.
        have hend : (⟨c.time, 0, c.index⟩ : Change K) = c := by rw [← horder]
        rw [if_pos ⟨hmult, rfl⟩, if_neg (by omega),
          if_neg fun hx => hx.2.2 c.time hu (by rw [hend]; simp)]
      · rw [if_neg fun hx => hmult hx.1, if_neg fun hx => hmult hx.1, if_neg fun hx => hmult hx.1]
    · -- A change of another item leaves it as it is.
      have hmem (time : K) (order : ℕ) :
          (⟨time, order, i⟩ : Change K) ∈ cs ++ [c] ↔ ⟨time, order, i⟩ ∈ cs := by
        rw [List.mem_append, List.mem_singleton, or_iff_left]
        rintro rfl
        exact hidx rfl
      rw [if_neg fun hx => hidx hx.2]
      simp only [hmem]

/-! ### The rate -/

variable (s) in
/-- The change is one of the rate. -/
def ofRate (c : Change K) : Bool := (s.events[c.index]?).any TimelineItem.isRateChange

variable (s) in
/-- The ratio that the last of the rate changes among some changes gives. -/
def lastRatio (cs : List (Change K)) : K :=
  match (cs.filter s.ofRate).getLast?.bind fun c => s.events[c.index]?, s.base with
  | some item, some base => item.value / base
  | _, _ => 1

omit [Field K] [LinearOrder K] in
lemma not_multiplier_of_rate {item : TimelineItem K} (h : item.isRateChange) :
    ¬ item.isMultiplier := by
  intro hm
  rw [TimelineItem.isRateChange, Bool.and_eq_true, decide_eq_true_eq] at h
  rw [TimelineItem.isMultiplier, decide_eq_true_eq, h.1] at hm
  cases hm

/-- **The ratio the walk holds.** -/
theorem rateRatio_foldl (cs : List (Change K)) (hcs : ∀ c ∈ cs, c ∈ s.changes) :
    (s.sweep cs).rateRatio = s.lastRatio cs := by
  induction cs using List.reverseRecOn with
  | nil => rfl
  | append_singleton cs c ih =>
    have hih := ih fun a ha => hcs a (List.mem_append_left _ ha)
    obtain ⟨item, hi, hc⟩ := mem_changes.1 (hcs c (by simp))
    rw [sweep_concat]
    change (s.applyChange (s.sweep cs) c).rateRatio = _
    rw [applyChange_rateRatio hi, lastRatio, List.filter_append, hih]
    by_cases hmult : item.isMultiplier
    · have hno : [c].filter s.ofRate = [] := by
        rw [List.filter_eq_nil_iff]
        intro a ha hrate
        rw [List.mem_singleton.1 ha, ofRate, hi] at hrate
        exact not_multiplier_of_rate hrate hmult
      rw [if_pos hmult, hno, List.append_nil]
      rfl
    · have hrate : item.isRateChange := by
        rcases hc with ⟨h, -⟩ | ⟨-, h, -⟩
        · exact absurd h hmult
        · exact h
      have hyes : [c].filter s.ofRate = [c] := by
        rw [List.filter_eq_self]
        intro a ha
        rw [List.mem_singleton.1 ha, ofRate, hi]
        exact hrate
      rw [if_neg hmult, hyes, List.getLast?_concat, Option.bind_some, hi]
      cases hbase : s.base with
      | some base => rfl
      | none =>
        rw [Option.elim_none, lastRatio, hbase]
        cases (cs.filter s.ofRate).getLast?.bind fun c => s.events[c.index]? <;> rfl

end Sweep

/-! ## An instant -/

section Instant

variable {K : Type} [Field K] [LinearOrder K] {s : Scenario K}

instance : Std.Total (Change.before (K := K)) where
  total a b := by
    rw [Change.before, Change.before]
    rcases lt_trichotomy a.time b.time with h | h | h
    · exact .inl (.inl h)
    · rcases lt_trichotomy a.order b.order with h' | h' | h'
      · exact .inl (.inr ⟨h, .inl h'⟩)
      · exact (le_total a.index b.index).imp (fun hi => .inr ⟨h, .inr ⟨h', hi⟩⟩)
          fun hi => .inr ⟨h.symm, .inr ⟨h'.symm, hi⟩⟩
      · exact .inr (.inr ⟨h.symm, .inl h'⟩)
    · exact .inr (.inl h)

instance : IsTrans (Change K) Change.before where
  trans a b c := by
    rintro (hab | ⟨hab, ho⟩) (hbc | ⟨hbc, ho'⟩)
    · exact .inl (hab.trans hbc)
    · exact .inl (hbc ▸ hab)
    · exact .inl (hab ▸ hbc)
    · exact .inr ⟨hab.trans hbc, by omega⟩

omit [Field K] in
/-- The changes up to an instant come first. -/
lemma exists_split (t : K) (cs : List (Change K)) (hsorted : cs.Pairwise Change.before) :
    ∃ early late, cs = early ++ late ∧ (∀ c ∈ early, c.time ≤ t) ∧ ∀ c ∈ late, t < c.time := by
  induction cs with
  | nil => exact ⟨[], [], rfl, nofun, nofun⟩
  | cons c cs ih =>
    obtain ⟨hc, hsorted⟩ := List.pairwise_cons.1 hsorted
    rcases le_or_gt c.time t with hle | hlt
    · obtain ⟨early, late, rfl, hearly, hlate⟩ := ih hsorted
      exact ⟨c :: early, late, rfl, List.forall_mem_cons.2 ⟨hle, hearly⟩, hlate⟩
    · refine ⟨[], c :: cs, rfl, nofun, List.forall_mem_cons.2 ⟨hlt, fun a ha => ?_⟩⟩
      rcases hc a ha with h | ⟨h, -⟩
      · exact hlt.trans h
      · exact hlt.trans_eq h

omit [Field K] in
/-- The last of the pairs by time and then by place, of pairs in the order of their places. -/
lemma foldl_later (l : List (TimelineItem K × ℕ)) (hl : l.Pairwise fun a b => a.2 < b.2) :
    (l.foldl later none = none → l = []) ∧ ∀ e, l.foldl later none = some e →
      e ∈ l ∧ ∀ x ∈ l, x.1.t < e.1.t ∨ x.1.t = e.1.t ∧ x.2 ≤ e.2 := by
  induction l using List.reverseRecOn with
  | nil => exact ⟨fun _ => rfl, nofun⟩
  | append_singleton l a ih =>
    obtain ⟨hl, -, hla⟩ := List.pairwise_append.1 hl
    obtain ⟨hnone, hsome⟩ := ih hl
    rw [List.foldl_append]
    change (later (l.foldl later none) a = none → _) ∧ ∀ e, later (l.foldl later none) a = some e → _
    cases hbest : l.foldl later none with
    | none =>
      obtain rfl := hnone hbest
      refine ⟨nofun, ?_⟩
      rintro e ⟨⟩
      simp
    | some b =>
      obtain ⟨hb, hmax⟩ := hsome b hbest
      rw [later]
      split_ifs with hle
      · refine ⟨nofun, ?_⟩
        rintro e ⟨⟩
        refine ⟨by simp, fun x hx => ?_⟩
        rcases List.mem_append.1 hx with hx | hx
        · have hplace := (hla x hx a (by simp)).le
          rcases hmax x hx with h | ⟨h, -⟩
          · exact .inl (h.trans_le hle)
          · exact hle.lt_or_eq.imp (fun h' => h ▸ h') fun h' => ⟨h.trans h', hplace⟩
        · rw [List.mem_singleton.1 hx]
          exact .inr ⟨rfl, le_rfl⟩
      · refine ⟨nofun, ?_⟩
        rintro e ⟨⟩
        refine ⟨List.mem_append_left _ hb, fun x hx => ?_⟩
        rcases List.mem_append.1 hx with hx | hx
        · exact hmax x hx
        · rw [List.mem_singleton.1 hx]
          exact .inl (lt_of_not_ge hle)

omit [LinearOrder K] in
lemma prod_map_ite (l : List (TimelineItem K)) (p : TimelineItem K → Bool) :
    (l.map fun item => if p item then item.value else 1).prod =
      ((l.filter p).map TimelineItem.value).prod := by
  induction l with
  | nil => rfl
  | cons item l ih =>
    rw [List.map_cons, List.prod_cons, ih, List.filter_cons]
    split_ifs
    · rfl
    · exact one_mul _

/-- The changes up to an instant, in the order of the walk. -/
structure UpTo (s : Scenario K) (t : K) (cs : List (Change K)) : Prop where
  sorted : cs.Pairwise Change.before
  mem_iff : ∀ c, c ∈ cs ↔ c ∈ s.changes ∧ c.time ≤ t

variable {t : K} {cs : List (Change K)}

/-- The multipliers the walk holds at an instant are those in force. -/
lemma UpTo.activeProduct_eq (h : s.timelineErrors = []) (hcs : UpTo s t cs) :
    s.activeProduct (s.sweep cs).active = s.multipliersAt t := by
  have hvalue : ∀ e ∈ s.events.zipIdx, ((s.sweep cs).active e.2).getD 1 =
      if decide (Holds t e.1) then e.1.value else 1 := by
    rintro ⟨item, i⟩ he
    have hi := List.mk_mem_zipIdx_iff_getElem?.1 he
    rw [active_foldl h hi cs (fun c hc => ((hcs.mem_iff c).1 hc).1) hcs.sorted]
    by_cases hmult : item.isMultiplier
    · have hstart : (⟨item.t, 1, i⟩ : Change K) ∈ cs ↔ item.t ≤ t := by
        rw [hcs.mem_iff, mem_changes]
        exact and_iff_right ⟨item, hi, .inl ⟨hmult, .inl ⟨rfl, rfl⟩⟩⟩
      have hend : (∀ u ∈ item.untilT, (⟨u, 0, i⟩ : Change K) ∉ cs) ↔ ∀ u ∈ item.untilT, t < u := by
        refine forall₂_congr fun u hu => ?_
        rw [hcs.mem_iff, mem_changes, and_iff_right ⟨item, hi, .inl ⟨hmult, .inr ⟨rfl, hu⟩⟩⟩]
        exact not_le
      simp only [Holds, hmult, hstart, hend, decide_eq_true_eq]
      split_ifs <;> rfl
    · rw [if_neg fun hx => hmult hx.1, if_neg fun hx => hmult (of_decide_eq_true hx).1]
      rfl
  rw [activeProduct, List.map_congr_left hvalue, multipliersAt, ← prod_map_ite]
  conv_rhs => rw [← List.zipIdx_map_fst 0 s.events, List.map_map]
  rfl

omit [Field K] in
/-- **The last rate change.** -/
lemma lastRate_spec (s : Scenario K) (t : K) :
    (s.lastRate t = none → ∀ (i : ℕ) item, s.events[i]? = some item → item.isRateChange →
      ¬ item.t ≤ t) ∧
    ∀ e, s.lastRate t = some e → s.events[e.2]? = some e.1 ∧ e.1.isRateChange ∧ e.1.t ≤ t ∧
      ∀ (i : ℕ) item, s.events[i]? = some item → item.isRateChange → item.t ≤ t →
        item.t < e.1.t ∨ item.t = e.1.t ∧ i ≤ e.2 := by
  have hpairs (item : TimelineItem K) (i : ℕ) :
      (item, i) ∈ s.events.zipIdx.filter (fun e => e.1.isRateChange ∧ e.1.t ≤ t) ↔
        s.events[i]? = some item ∧ item.isRateChange ∧ item.t ≤ t := by
    rw [List.mem_filter, List.mk_mem_zipIdx_iff_getElem?, decide_eq_true_eq]
  have hplaces : (s.events.zipIdx.filter fun e => e.1.isRateChange ∧ e.1.t ≤ t).Pairwise
      fun a b => a.2 < b.2 := by
    have hall : (s.events.zipIdx.map Prod.snd).Pairwise (· < ·) := by
      rw [List.zipIdx_map_snd]
      exact List.pairwise_lt_range'
    exact (List.pairwise_map.1 hall).filter _
  obtain ⟨hnone, hsome⟩ := foldl_later _ hplaces
  refine ⟨fun hlast i item hi hrate hle => ?_, fun e hlast => ?_⟩
  · have hmem := (hpairs item i).2 ⟨hi, hrate, hle⟩
    rw [hnone hlast] at hmem
    cases hmem
  · obtain ⟨hmem, hmax⟩ := hsome e hlast
    obtain ⟨hi, hrate, hle⟩ := (hpairs e.1 e.2).1 hmem
    exact ⟨hi, hrate, hle, fun i item hi hrate hle => hmax _ ((hpairs item i).2 ⟨hi, hrate, hle⟩)⟩

omit [Field K] in
/-- The last rate change of the walk up to an instant is the last one. -/
lemma UpTo.getLast?_eq (hcs : UpTo s t cs) :
    ((cs.filter s.ofRate).getLast?.bind fun c => s.events[c.index]?) =
      (s.lastRate t).map Prod.fst := by
  have hrates : ∀ c, c ∈ cs.filter s.ofRate → ∃ item, s.events[c.index]? = some item ∧
      item.isRateChange ∧ c.order = 1 ∧ c.time = item.t ∧ item.t ≤ t := by
    intro c hc
    obtain ⟨hmem, hrate⟩ := List.mem_filter.1 hc
    obtain ⟨hchange, htime⟩ := (hcs.mem_iff c).1 hmem
    obtain ⟨item, hi, hkind⟩ := mem_changes.1 hchange
    rw [ofRate, hi, Option.any_some] at hrate
    obtain ⟨-, -, horder, ht⟩ := hkind.resolve_left fun hm => not_multiplier_of_rate hrate hm.1
    exact ⟨item, hi, hrate, horder, ht, ht ▸ htime⟩
  obtain ⟨hnone, hsome⟩ := lastRate_spec s t
  cases hlast : s.lastRate t with
  | none =>
    have hempty : cs.filter s.ofRate = [] := by
      refine List.eq_nil_iff_forall_not_mem.2 fun c hc => ?_
      obtain ⟨item, hi, hrate, -, -, hle⟩ := hrates c hc
      exact hnone hlast c.index item hi hrate hle
    rw [hempty]
    rfl
  | some e =>
    obtain ⟨item, i⟩ := e
    obtain ⟨hi, hrate, hle, hmax⟩ := hsome _ hlast
    have hin : (⟨item.t, 1, i⟩ : Change K) ∈ cs.filter s.ofRate := by
      refine List.mem_filter.2 ⟨(hcs.mem_iff _).2 ⟨mem_changes.2 ⟨item, hi, .inr
        ⟨not_multiplier_of_rate hrate, hrate, rfl, rfl⟩⟩, hle⟩, ?_⟩
      rw [ofRate, hi]
      exact hrate
    -- Both are the last of the rate changes up to the instant, so they have the same place.
    obtain ⟨init, c, hinit⟩ := (List.eq_nil_or_concat _).resolve_left (List.ne_nil_of_mem hin)
    rw [List.concat_eq_append] at hinit
    have hc : c ∈ cs.filter s.ofRate := by rw [hinit]; simp
    obtain ⟨item', hi', hrate', horder', htime', hle'⟩ := hrates c hc
    have hbefore : (⟨item.t, 1, i⟩ : Change K) = c ∨ Change.before ⟨item.t, 1, i⟩ c := by
      have hpair := hcs.sorted.filter s.ofRate
      rw [hinit] at hin hpair
      rcases List.mem_append.1 hin with hin | hin
      · exact .inr ((List.pairwise_append.1 hpair).2.2 _ hin c (by simp))
      · exact .inl (List.mem_singleton.1 hin)
    have hplace : i = c.index := by
      rcases hbefore with rfl | hb
      · rfl
      · have hmax' := hmax c.index item' hi' hrate' hle'
        rw [Change.before, htime', horder'] at hb
        rcases hb with hb | ⟨hb, hb'⟩
        · rcases hmax' with h | ⟨h, -⟩
          · exact absurd hb h.not_gt
          · exact absurd h hb.ne'
        · rcases hmax' with h | ⟨-, h⟩
          · exact absurd hb h.ne'
          · exact le_antisymm (hb'.resolve_left (lt_irrefl 1)).2 h
    rw [hinit, List.getLast?_concat, Option.bind_some, ← hplace, hi]
    rfl

/-- **The walk is at the multiplier in force.** -/
lemma UpTo.now_eq (h : s.timelineErrors = []) (hcs : UpTo s t cs) :
    s.now (s.sweep cs) = s.inForce t := by
  rw [now, inForce, hcs.activeProduct_eq h, rateRatio_foldl cs fun c hc => ((hcs.mem_iff c).1 hc).1,
    lastRatio, ratioAt, hcs.getLast?_eq]
  congr 1
  cases hlast : s.lastRate t with
  | none => rfl
  | some e =>
    obtain ⟨hi, hrate, -, -⟩ := (lastRate_spec s t).2 e hlast
    obtain ⟨r, hr, hpos⟩ := base_pos h hi hrate
    have hbase : s.base = some r := by
      rw [base, hr, Option.filter_some, if_pos (decide_eq_true hpos)]
    rw [hbase, hr]
    rfl

omit [Field K] in
/-- At each instant the walk has been at the multiplier in force. -/
lemma exists_upTo (s : Scenario K) (t : K) : ∃ early late,
    s.changes.insertionSort Change.before = early ++ late ∧ UpTo s t early := by
  have hsorted := List.pairwise_insertionSort Change.before s.changes
  obtain ⟨early, late, hsplit, hearly, hlate⟩ := exists_split t _ hsorted
  rw [hsplit] at hsorted
  refine ⟨early, late, hsplit, (List.pairwise_append.1 hsorted).1, fun c => ?_⟩
  rw [← List.mem_insertionSort Change.before (l := s.changes), hsplit, List.mem_append]
  constructor
  · exact fun hc => ⟨.inl hc, hearly c hc⟩
  · exact fun hc => hc.1.resolve_right fun hc' => (hlate c hc').not_ge hc.2

lemma inForce_le_demandPeak (h : s.timelineErrors = []) (t : K) :
    s.inForce t ≤ s.demandPeak := by
  obtain ⟨early, late, hsplit, hearly⟩ := exists_upTo s t
  rw [← hearly.now_eq h, demandPeak, hsplit]
  exact (now_le_peak early).1.trans (peak_mono early late)

lemma one_le_demandPeak (s : Scenario K) : 1 ≤ s.demandPeak := (now_le_peak _).2

lemma inForce_nonneg [IsStrictOrderedRing K] (h : s.timelineErrors = []) (t : K) :
    0 ≤ s.inForce t := by
  refine mul_nonneg ?_ (List.prod_nonneg fun x hx => ?_)
  · rw [ratioAt]
    cases hlast : s.lastRate t with
    | none => exact zero_le_one
    | some e =>
      obtain ⟨hi, hrate, -, -⟩ := (lastRate_spec s t).2 e hlast
      obtain ⟨r, hr, hpos⟩ := base_pos h hi hrate
      rw [hr]
      exact div_nonneg (value_nonneg h hi (.inr hrate)) hpos.le
  · obtain ⟨item, hitem, rfl⟩ := List.mem_map.1 hx
    obtain ⟨hmem, hholds⟩ := List.mem_filter.1 hitem
    obtain ⟨i, hlt, hi⟩ := List.mem_iff_getElem.1 hmem
    exact value_nonneg h (List.getElem?_eq_some_iff.2 ⟨hlt, hi⟩)
      (.inl (of_decide_eq_true hholds).1)

/-- **Thinning stays exact.** Under a timeline that passes its rules the peak covers the multiplier
in force at every instant, so that with the peak as the boost of the candidates, and a shape of the
demand bounded by 1, the probability of keeping a candidate is never clipped. Without an item of the
demand the peak is 1. -/
theorem demandPeak_covers [IsStrictOrderedRing K] (s : Scenario K) (h : s.timelineErrors = []) :
    (∀ t, s.inForce t ≤ s.demandPeak ∧ ∀ m, 0 ≤ m → m ≤ 1 →
      clamp01 (keepProbability m (s.inForce t) s.demandPeak) =
        keepProbability m (s.inForce t) s.demandPeak) ∧
    ((∀ item ∈ s.events, ¬ item.isMultiplier ∧ ¬ item.isRateChange) → s.demandPeak = 1) := by
  refine ⟨fun t => ⟨inForce_le_demandPeak h t, fun m hm hm1 => ?_⟩, fun hnone => ?_⟩
  · have hle := inForce_le_demandPeak h t
    have hnonneg := inForce_nonneg h t
    have hone := one_le_demandPeak s
    have hboost : atLeastOne s.demandPeak = s.demandPeak := by
      rw [atLeastOne]
      split_ifs with hlt
      · rfl
      · exact le_antisymm hone (not_lt.1 hlt)
    have hpos : 0 < s.demandPeak := zero_lt_one.trans_le hone
    rw [keepProbability, hboost, clamp01, if_neg, if_neg]
    · rw [not_lt, div_le_one hpos]
      exact (mul_le_of_le_one_left hnonneg hm1).trans hle
    · exact not_lt.2 (div_nonneg (mul_nonneg hm hnonneg) hpos.le)
  · have hempty : s.changes = [] := by
      refine List.eq_nil_iff_forall_not_mem.2 fun c hc => ?_
      obtain ⟨item, hi, hkind⟩ := mem_changes.1 hc
      obtain ⟨hmult, hrate⟩ := hnone item (List.mem_of_getElem? hi)
      exact hkind.elim (fun hx => hmult hx.1) fun hx => hrate hx.2.1
    rw [demandPeak, hempty]
    rfl

end Instant

/-- Two multipliers that overlap, and a rate that changes while both are in force. -/
def overlapping : Scenario ℚ where
  durationS := 60
  rateVehPerH := some 100
  arrivalRatePerS := none
  events :=
    [⟨0, some 30, .demandMultiplier, fun key => if key = "value" then some (.number 2) else none⟩,
      ⟨10, some 40, .demandMultiplier, fun key => if key = "value" then some (.number 3) else none⟩,
      ⟨20, none, .paramChange, fun key =>
        if key = "path" then some (.string ratePath)
        else if key = "value" then some (.number 150)
        else none⟩]

theorem demandPeak_covers_overlapping : overlapping.inForce 25 ≤ overlapping.demandPeak :=
  ((demandPeak_covers overlapping (by decide +kernel)).1 25).1

end Scenario

end V2xw.Mobility
