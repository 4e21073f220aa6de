import Mathlib.Algebra.BigOperators.Ring.List
import Mathlib.Algebra.Order.BigOperators.Group.List
import Mathlib.Algebra.Order.Group.Nat
import Mathlib.Data.Rat.Lemmas
import Mathlib.Tactic.FieldSimp
import V2xw.Node.Stores

/-!
# Drift over a divided span

A free-running clock (`crates/v2xw-node/src/clock.rs`) truncates what it accrues at every call. What
the calls leave over of a nanosecond is lost, so a span in many parts may accrue less than the span
in one.

## Main definitions

* `ClockModel.run` — a clock without a fix over the parts of a span.
* `ClockModel.Undivided` — when the parts accrue what the span does.

## Main results

* `sum_div_eq_iff` — quotients add up where the remainders make no more quotient.
* `ClockModel.offset_run` — the offset after the parts of a span.
* `ClockModel.run_eq_advance_iff` — the parts and the span give the same offset exactly
  then.
* `ClockModel.drift_divided` — a span where they do not.
-/

namespace V2xw.Node

open Core

/-! ## Quotients of parts -/

lemma sum_eq_div_add_mod (q : ℕ) (l : List ℕ) :
    l.sum = q * (l.map (· / q)).sum + (l.map (· % q)).sum := by
  induction l with
  | nil => rfl
  | cons a l ih =>
    have ha := Nat.div_add_mod a q
    rw [List.sum_cons, List.map_cons, List.map_cons, List.sum_cons, List.sum_cons, Nat.mul_add, ih]
    omega

/-- **Quotients add up** exactly where the remainders make no more quotient. -/
theorem sum_div_eq_iff {q : ℕ} (hq : 0 < q) (l : List ℕ) :
    (l.map (· / q)).sum = l.sum / q ↔ (l.map (· % q)).sum < q := by
  have hsum : l.sum / q = (l.map (· / q)).sum + (l.map (· % q)).sum / q := by
    rw [sum_eq_div_add_mod q l, Nat.mul_add_div hq]
  rw [hsum, ← Nat.div_eq_zero_iff_lt hq]
  omega

lemma sum_div_le {q : ℕ} (hq : 0 < q) (l : List ℕ) : (l.map (· / q)).sum ≤ l.sum / q := by
  rw [sum_eq_div_add_mod q l, Nat.mul_add_div hq]
  exact Nat.le_add_right _ _

lemma tdiv_num_den (a : ℤ) {b : ℕ} (hb : 0 < b) :
    ((a : ℚ) / b).num.tdiv ((a : ℚ) / b).den = a.tdiv b := by
  have hb' : (b : ℤ) ≠ 0 := by omega
  obtain ⟨k, hnum, hden⟩ := Rat.exists_eq_mul_div_num_and_eq_mul_div_den a hb'
  rw [Int.cast_natCast] at hnum hden
  have hpos : 0 < k := by
    by_contra hk
    have hle : k * ((a : ℚ) / b).den ≤ 0 :=
      Int.mul_nonpos_of_nonpos_of_nonneg (by omega) (by omega)
    omega
  conv_rhs => rw [hnum, hden]
  rw [Int.mul_tdiv_mul_of_pos _ _ hpos]

/-! ## What a call accrues -/

namespace ClockModel

variable (c : ClockModel)

/-- The parts of a nanosecond, in which a nanosecond of running accrues a whole number. -/
def unit : ℕ := c.driftPpm.den * 1000000

/-- What a nanosecond of running accrues, in these parts. -/
def rate : ℕ := c.driftPpm.num.natAbs

/-- The largest offset in the direction of the drift. -/
def limit : ℕ := if 0 ≤ c.driftPpm.num then 2 ^ 63 - 1 else 2 ^ 63

/-- The whole nanoseconds that a span accrues in one call. -/
def whole (elapsed : ℕ) : ℕ := min c.limit (elapsed * c.rate / c.unit)

/-- The part of a nanosecond that a call loses. -/
def lost (elapsed : ℕ) : ℕ := elapsed * c.rate % c.unit

/-- How far the offset is from the largest one in the direction of the drift. -/
def room : ℕ :=
  if 0 ≤ c.driftPpm.num then (i64Max - c.offsetNs).toNat else (c.offsetNs + 2 ^ 63).toNat

lemma unit_pos : 0 < c.unit := Nat.mul_pos c.driftPpm.den_pos (by decide)

lemma limit_pos : 0 < c.limit := by
  unfold limit
  split_ifs <;> decide

lemma whole_le (elapsed : ℕ) : c.whole elapsed ≤ elapsed * c.rate / c.unit :=
  Nat.min_le_right _ _

/-- The offset moved in the direction of the drift. -/
def moved (n : ℕ) : ℤ := if 0 ≤ c.driftPpm.num then c.offsetNs + n else c.offsetNs - n

/-- A call accrues whole nanoseconds in the direction of the drift. -/
lemma accrued_eq (elapsed : ℕ) :
    c.accrued elapsed =
      if 0 ≤ c.driftPpm.num then (c.whole elapsed : ℤ) else -(c.whole elapsed : ℤ) := by
  have hdrift : (elapsed : ℚ) * c.driftPpm / 1000000 =
      ((elapsed * c.driftPpm.num : ℤ) : ℚ) / (c.unit : ℕ) := by
    unfold unit
    conv_lhs => rw [← Rat.num_div_den c.driftPpm]
    push_cast
    field_simp
  unfold accrued
  dsimp only
  rw [hdrift, tdiv_num_den _ c.unit_pos]
  unfold whole clampI64 i64Max limit rate
  split_ifs with hsign
  · have hnum : (elapsed : ℤ) * c.driftPpm.num = ((elapsed * c.driftPpm.num.natAbs : ℕ) : ℤ) := by
      rw [Nat.cast_mul, Int.natAbs_of_nonneg hsign]
    rw [hnum, ← Int.ofNat_tdiv]
    generalize elapsed * c.driftPpm.num.natAbs / c.unit = n
    omega
  · have hnum : (elapsed : ℤ) * c.driftPpm.num =
        -((elapsed * c.driftPpm.num.natAbs : ℕ) : ℤ) := by
      rw [Nat.cast_mul, Int.ofNat_natAbs_of_nonpos (by omega), mul_neg, neg_neg]
    rw [hnum, Int.neg_tdiv, ← Int.ofNat_tdiv]
    generalize elapsed * c.driftPpm.num.natAbs / c.unit = n
    omega

/-- The accruals of parts in sum: they are no more than the accrual of the whole span, and as much
exactly where less than a nanosecond is lost, if that accrual is not cut. -/
lemma sum_whole (parts : List ℕ) :
    ((parts.map c.lost).sum < c.unit → parts.sum * c.rate / c.unit ≤ c.limit →
      (parts.map c.whole).sum = parts.sum * c.rate / c.unit) ∧
    (parts.map c.whole).sum ≤ parts.sum * c.rate / c.unit ∧
    (parts.sum * c.rate / c.unit ≤ c.limit →
      (parts.map c.whole).sum = parts.sum * c.rate / c.unit → (parts.map c.lost).sum < c.unit) := by
  have hlost := sum_div_eq_iff c.unit_pos (parts.map (· * c.rate))
  have hle := sum_div_le c.unit_pos (parts.map (· * c.rate))
  rw [List.sum_map_mul_right, List.map_id', List.map_map, List.map_map] at hlost
  rw [List.sum_map_mul_right, List.map_id', List.map_map] at hle
  simp only [Function.comp_def] at hlost hle
  have hcut : (parts.map c.whole).sum ≤ (parts.map fun e => e * c.rate / c.unit).sum :=
    List.sum_le_sum fun e _ => c.whole_le e
  -- No accrual of a part is cut where that of the whole span is not.
  have huncut : parts.sum * c.rate / c.unit ≤ c.limit → (parts.map c.whole).sum =
      (parts.map fun e => e * c.rate / c.unit).sum := by
    intro hlimit
    refine congrArg List.sum (List.map_congr_left fun e he => Nat.min_eq_right ?_)
    have hterm := List.single_le_sum (fun _ _ => Nat.zero_le _) _
      (List.mem_map_of_mem (f := fun e => e * c.rate / c.unit) he)
    exact hterm.trans (hle.trans hlimit)
  refine ⟨fun hless hlimit => ?_, hcut.trans hle, fun hlimit hsum => ?_⟩
  · rw [huncut hlimit]
    exact hlost.2 hless
  · rw [huncut hlimit] at hsum
    exact hlost.1 hsum

/-! ## Runs without a fix -/

/-- The offset is an `i64`. -/
def InRange : Prop := -2 ^ 63 ≤ c.offsetNs ∧ c.offsetNs ≤ i64Max

/-- A clock without a fix, advanced over the parts of a span one after another. -/
def run (c : ClockModel) (parts : List ℕ) : ClockModel :=
  parts.foldl (fun c elapsed => c.advance (c.lastUpdate + elapsed) false) c

/-- **When the parts of a span accrue what the span does.** Of a clock that runs free already, the
parts of a nanosecond that the calls lose add up to less than one, or the offset comes to the end of
its range either way, or the accrual of the whole span is cut at the end of the range and those of
the parts add up to just that. Of a clock that has had a fix until now, which takes the first call
to notice, no later call accrues a whole nanosecond, or the offset is at the end of its range. -/
def Undivided (parts : List ℕ) : Prop :=
  if c.locked then c.room = 0 ∨ ∀ e ∈ parts.tail, e * c.rate < c.unit
  else
    parts.sum * c.rate / c.unit ≤ c.limit ∧ (parts.map c.lost).sum < c.unit ∨
      c.room ≤ c.limit ∧ c.room ≤ (parts.map c.whole).sum ∨
      c.limit < parts.sum * c.rate / c.unit ∧ (parts.map c.whole).sum = c.limit

variable {c}

lemma moved_inj {m n : ℕ} : c.moved m = c.moved n ↔ m = n := by
  unfold moved
  split_ifs <;> omega

lemma offset_advance (hfree : c.locked = false) (hrange : c.InRange) (now : SimTime) :
    (c.advance now false).offsetNs = c.moved (min c.room (c.whole (now - c.lastUpdate))) := by
  obtain ⟨hlow, hhigh⟩ := hrange
  unfold ClockModel.advance
  simp only [hfree, Bool.false_and, Bool.false_eq_true, if_false, accrued_eq]
  unfold moved room clampI64
  unfold i64Max at hhigh ⊢
  split_ifs <;> omega

/-- A call leaves the room that is left. -/
lemma room_advance (hfree : c.locked = false) (hrange : c.InRange) (now : SimTime) :
    (c.advance now false).room = c.room - c.whole (now - c.lastUpdate) ∧
      (c.advance now false).InRange := by
  have hoffset := offset_advance hfree hrange now
  have hdrift : (c.advance now false).driftPpm = c.driftPpm := rfl
  obtain ⟨hlow, hhigh⟩ := hrange
  unfold InRange
  rw [hoffset]
  unfold room moved
  rw [hoffset, hdrift]
  unfold moved room
  unfold i64Max at hhigh ⊢
  constructor <;> split_ifs <;> omega

/-- **The parts of a span** move the offset of a free-running clock by what they accrue, as far as
its range goes. -/
theorem offset_run (parts : List ℕ) : ∀ {c : ClockModel}, c.locked = false → c.InRange →
    (c.run parts).offsetNs = c.moved (min c.room (parts.map c.whole).sum) := by
  induction parts with
  | nil =>
    intro c _ _
    unfold run moved
    simp
  | cons elapsed parts ih =>
    intro c hfree hrange
    have hoffset := offset_advance hfree hrange (c.lastUpdate + elapsed)
    obtain ⟨hroom, hrange'⟩ := room_advance hfree hrange (c.lastUpdate + elapsed)
    have hwhole : (c.advance (c.lastUpdate + elapsed) false).whole = c.whole := rfl
    rw [run, List.foldl_cons, ← run, ih rfl hrange', hwhole, List.map_cons, List.sum_cons, hroom]
    unfold moved
    rw [hoffset, Nat.add_sub_cancel_left]
    unfold moved
    have hdrift : (c.advance (c.lastUpdate + elapsed) false).driftPpm = c.driftPpm := rfl
    rw [hdrift]
    split_ifs <;> omega

/-- The clock once it has noticed that the fix is lost. -/
def unlock (c : ClockModel) (now : SimTime) : ClockModel :=
  { c with locked := false, lastUpdate := now }

lemma unlock_eq (c : ClockModel) (now : SimTime) : (c.unlock now).moved = c.moved ∧
    (c.unlock now).room = c.room ∧ (c.unlock now).whole = c.whole :=
  ⟨rfl, rfl, rfl⟩

lemma run_of_locked (hlocked : c.locked = true) (hrange : c.InRange) (elapsed : ℕ)
    (parts : List ℕ) :
    (c.run (elapsed :: parts)).offsetNs = c.moved (min c.room (parts.map c.whole).sum) := by
  have hfirst : c.advance (c.lastUpdate + elapsed) false = c.unlock (c.lastUpdate + elapsed) := by
    simp [ClockModel.advance, unlock, hlocked]
  obtain ⟨hmoved, hroom, hwhole⟩ := c.unlock_eq (c.lastUpdate + elapsed)
  rw [run, List.foldl_cons, ← run, hfirst,
    offset_run parts (c := c.unlock (c.lastUpdate + elapsed)) rfl hrange, hmoved, hroom, hwhole]

/-- **Drift over a divided span**: from any clock, and for any drift rate, the parts of a span give
the offset that a single call over the span gives if and only if they leave it undivided. -/
theorem run_eq_advance_iff (c : ClockModel) (hrange : c.InRange) (parts : List ℕ) :
    (c.run parts).offsetNs = (c.advance (c.lastUpdate + parts.sum) false).offsetNs ↔
      c.Undivided parts := by
  unfold Undivided
  cases hlocked : c.locked with
  | true =>
    have hsingle : (c.advance (c.lastUpdate + parts.sum) false).offsetNs = c.offsetNs := by
      simp [ClockModel.advance, hlocked]
    rw [hsingle, if_pos rfl]
    cases parts with
    | nil =>
      refine iff_of_true rfl (.inr fun e he => ?_)
      cases he
    | cons elapsed parts =>
      have hzero : c.offsetNs = c.moved 0 := by
        unfold moved
        split_ifs <;> simp
      have hstill : (c.run (elapsed :: parts)).offsetNs = c.offsetNs ↔
          min c.room (parts.map c.whole).sum = 0 := by
        rw [run_of_locked hlocked hrange]
        exact ⟨fun h => moved_inj.1 (h.trans hzero), fun h => by rw [h, ← hzero]⟩
      rw [hstill]
      -- Nothing is accrued where there is no room or no call accrues a nanosecond.
      have hnone : ((parts.map c.whole).sum = 0) ↔ ∀ e ∈ parts, e * c.rate < c.unit := by
        rw [List.sum_eq_zero_iff]
        simp only [List.forall_mem_map]
        refine forall₂_congr fun e _ => ?_
        rw [← Nat.div_eq_zero_iff_lt c.unit_pos]
        have := c.limit_pos
        unfold whole
        omega
      rw [List.tail_cons, ← hnone]
      have hmin : ∀ m n : ℕ, min m n = 0 ↔ m = 0 ∨ n = 0 := by omega
      exact hmin _ _
  | false =>
    rw [if_neg Bool.false_ne_true, offset_run parts hlocked hrange,
      offset_advance hlocked hrange, moved_inj, Nat.add_sub_cancel_left]
    obtain ⟨hlost, hcut, huncut⟩ := c.sum_whole parts
    have hwhole : c.whole parts.sum = min c.limit (parts.sum * c.rate / c.unit) := rfl
    rw [hwhole]
    generalize parts.sum * c.rate / c.unit = total at *
    generalize (parts.map c.whole).sum = accrued at *
    omega

/-- A clock that loses its fix at the start. -/
def freeRunning (driftPpm : ℚ) : ClockModel :=
    ({ driftPpm := driftPpm } : ClockModel).advance 0 false

/-- Sixty calls, of a second each, of a clock that is slow by 20 parts in a million. -/
theorem run_eq_advance_seconds : ((freeRunning (-20)).run (List.replicate 60 1000000000)).offsetNs =
    ((freeRunning (-20)).advance (0 + (List.replicate 60 1000000000).sum) false).offsetNs :=
  (run_eq_advance_iff (freeRunning (-20)) ⟨by decide, by decide⟩ _).2
    (.inl ⟨by decide +kernel, by decide +kernel⟩)

/-- **A span whose division matters**: two milliseconds accrue a nanosecond, at half a part in a
million, and each of its halves none. -/
theorem drift_divided : ((freeRunning (1 / 2)).run [1000000, 1000000]).offsetNs ≠
    ((freeRunning (1 / 2)).advance (0 + [1000000, 1000000].sum) false).offsetNs := by
  decide +kernel

end ClockModel

end V2xw.Node
