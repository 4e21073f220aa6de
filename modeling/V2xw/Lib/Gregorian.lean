import Mathlib.Order.Monotone.Basic
import Mathlib.Data.Int.ConditionallyCompleteOrder
import Mathlib.Data.Int.SuccPred
import Mathlib.Order.SuccPred.IntervalSucc
import Mathlib.Tactic.IntervalCases

/-!
# The proleptic Gregorian calendar

Dates are counted in days, on both sides of the year 0. Years are taken from March to February, so
that the day that leap years add is the last of its year: the months then start at
`(153 * m + 2) / 5` days into the year, and the years at a sum of quotients.

The months of all years form one sequence, and each starts where the one before it ends. That alone
orders the days; the day count inverts by cutting it into cycles of 400 years.

## Main definitions

* `Gregorian.IsLeap`, `Gregorian.monthLength`, `Gregorian.IsDate` — the calendar.
* `Gregorian.dayNumber` — the days from the first of March of the year 0 to a date.
* `Gregorian.ofDayNumber` — the date of a day.

## Main results

* `Gregorian.monthStart_succ` — a month starts where the one before it ends.
* `Gregorian.dayNumber_lt`, `Gregorian.dayNumber_inj` — later dates have larger numbers.
* `Gregorian.isDate_ofDayNumber`, `Gregorian.dayNumber_ofDayNumber` — every day has a date.
-/

namespace Gregorian

/-! ## The calendar -/

/-- A leap year. -/
def IsLeap (y : ℤ) : Prop := (y % 4 = 0 ∧ y % 100 ≠ 0) ∨ y % 400 = 0

instance (y : ℤ) : Decidable (IsLeap y) := inferInstanceAs (Decidable (_ ∨ _))

/-- The days of a month. -/
def monthLength (y m : ℤ) : ℤ :=
  if m = 2 then if IsLeap y then 29 else 28
  else if m = 4 ∨ m = 6 ∨ m = 9 ∨ m = 11 then 30 else 31

/-- A date that exists. -/
structure IsDate (y m d : ℤ) : Prop where
  one_le_month : 1 ≤ m
  month_le : m ≤ 12
  one_le_day : 1 ≤ d
  day_le : d ≤ monthLength y m

/-- The year from March on that a month belongs to. -/
def marchYear (y m : ℤ) : ℤ := if m ≤ 2 then y - 1 else y

/-- The months from March to a month. -/
def marchMonth (m : ℤ) : ℤ := if 2 < m then m - 3 else m + 9

/-- The day a year from March on starts with. -/
def yearStart (y : ℤ) : ℤ := 365 * y + y / 4 - y / 100 + y / 400

/-- The days from the first of March of the year 0 to a date. -/
def dayNumber (y m d : ℤ) : ℤ :=
  yearStart (marchYear y m) + (153 * marchMonth m + 2) / 5 + (d - 1)

/-! ## The months in sequence -/

/-- The first day of the month `k` months after January of the year 0. -/
def monthStart (k : ℤ) : ℤ := dayNumber (k / 12) (k % 12 + 1) 1

lemma dayNumber_eq (y m d : ℤ) (h : 1 ≤ m) (h' : m ≤ 12) :
    dayNumber y m d = monthStart (12 * y + (m - 1)) + (d - 1) := by
  have hy : (12 * y + (m - 1)) / 12 = y := by omega
  have hm : (12 * y + (m - 1)) % 12 + 1 = m := by omega
  rw [monthStart, hy, hm, dayNumber, dayNumber]
  omega

lemma yearStart_succ (y : ℤ) :
    yearStart (y + 1) = yearStart y + if IsLeap (y + 1) then 366 else 365 := by
  unfold yearStart IsLeap
  split_ifs with h <;> omega

lemma one_le_monthLength (y m : ℤ) : 1 ≤ monthLength y m := by
  unfold monthLength
  split_ifs <;> decide

/-- **A month starts where the one before it ends.** -/
lemma monthStart_succ (k : ℤ) :
    monthStart (k + 1) = monthStart k + monthLength (k / 12) (k % 12 + 1) := by
  obtain ⟨y, r, hy, hr, h0, h12⟩ : ∃ y r, k / 12 = y ∧ k % 12 = r ∧ 0 ≤ r ∧ r < 12 :=
    ⟨k / 12, k % 12, rfl, rfl, by omega, by omega⟩
  rcases eq_or_lt_of_le (Int.le_sub_one_of_lt h12) with hlast | hlast
  · -- December belongs to the March year that started in its year.
    have hy' : (k + 1) / 12 = y + 1 := by omega
    have hr' : (k + 1) % 12 = 0 := by omega
    rw [monthStart, monthStart, hy', hr', hy, hr, hlast]
    simp only [dayNumber, marchYear, marchMonth, monthLength]
    norm_num
    omega
  · have hy' : (k + 1) / 12 = y := by omega
    have hr' : (k + 1) % 12 = r + 1 := by omega
    have hleap := yearStart_succ (y - 1)
    rw [sub_add_cancel] at hleap
    rw [monthStart, monthStart, hy', hr', hy, hr]
    simp only [dayNumber, marchYear, marchMonth, monthLength]
    interval_cases r <;> norm_num at hlast ⊢
    all_goals split_ifs at hleap ⊢ <;> omega

lemma monthStart_strictMono : StrictMono monthStart := by
  refine strictMono_int_of_lt_succ fun k => ?_
  rw [monthStart_succ]
  exact lt_add_of_pos_right _ (one_le_monthLength _ _)

/-- **Later dates have larger numbers.** -/
lemma dayNumber_lt {y m d y' m' d' : ℤ} (h : IsDate y m d) (h' : IsDate y' m' d')
    (hlt : y < y' ∨ y = y' ∧ (m < m' ∨ m = m' ∧ d < d')) :
    dayNumber y m d < dayNumber y' m' d' := by
  obtain ⟨hm, hm12, hd, hdl⟩ := h
  obtain ⟨hm', hm12', hd', -⟩ := h'
  rw [dayNumber_eq y m d hm hm12, dayNumber_eq y' m' d' hm' hm12']
  by_cases hsame : y = y' ∧ m = m'
  · obtain ⟨rfl, rfl⟩ := hsame
    omega
  · -- The first day of the later month is at least the end of the earlier one.
    have hnext : monthStart (12 * y + (m - 1) + 1) ≤ monthStart (12 * y' + (m' - 1)) :=
      monthStart_strictMono.monotone (by omega)
    rw [monthStart_succ, show (12 * y + (m - 1)) / 12 = y by omega,
      show (12 * y + (m - 1)) % 12 + 1 = m by omega] at hnext
    omega

/-- A day has one date. -/
lemma dayNumber_inj {y m d y' m' d' : ℤ} (h : IsDate y m d) (h' : IsDate y' m' d')
    (heq : dayNumber y m d = dayNumber y' m' d') : y = y' ∧ m = m' ∧ d = d' := by
  by_contra hne
  rcases lt_trichotomy y y' with hy | hy | hy
  · exact absurd heq (dayNumber_lt h h' (.inl hy)).ne
  · rcases lt_trichotomy m m' with hm | hm | hm
    · exact absurd heq (dayNumber_lt h h' (.inr ⟨hy, .inl hm⟩)).ne
    · rcases lt_trichotomy d d' with hd | hd | hd
      · exact absurd heq (dayNumber_lt h h' (.inr ⟨hy, .inr ⟨hm, hd⟩⟩)).ne
      · exact hne ⟨hy, hm, hd⟩
      · exact absurd heq (dayNumber_lt h' h (.inr ⟨hy.symm, .inr ⟨hm.symm, hd⟩⟩)).ne'
    · exact absurd heq (dayNumber_lt h' h (.inr ⟨hy.symm, .inl hm⟩)).ne'
  · exact absurd heq (dayNumber_lt h' h (.inl hy)).ne'

/-! ## The date of a day -/

/-- The year of a day of a cycle of 400 years. -/
def yearOfCycle (doe : ℤ) : ℤ := (doe - doe / 1460 + doe / 36524 - doe / 146096) / 365

/-- The day of its year of a day of a cycle. -/
def dayOfYear (doe : ℤ) : ℤ :=
  doe - (365 * yearOfCycle doe + yearOfCycle doe / 4 - yearOfCycle doe / 100)

/-- The months from March to the month of a day of the year. -/
def monthOfYear (doy : ℤ) : ℤ := (5 * doy + 2) / 153

/-- The date of a day. -/
def ofDayNumber (z : ℤ) : ℤ × ℤ × ℤ :=
  let era := z / 146097
  let doe := z % 146097
  let doy := dayOfYear doe
  let mp := monthOfYear doy
  let m := if mp < 10 then mp + 3 else mp - 9
  let y := yearOfCycle doe + era * 400
  (if m ≤ 2 then y + 1 else y, m, doy - (153 * mp + 2) / 5 + 1)

/-- A day of a cycle is a day of a year of the cycle, the last one only of leap years. -/
lemma exists_year_of_cycle {doe : ℤ} (h0 : 0 ≤ doe) (h : doe < 146097) :
    ∃ yoe doy, 0 ≤ yoe ∧ yoe < 400 ∧ 0 ≤ doy ∧ (doy < 365 ∨ doy = 365 ∧ IsLeap (yoe + 1)) ∧
      doe = 365 * yoe + yoe / 4 - yoe / 100 + doy := by
  -- Centuries, quadrennia and years, the last of each one day longer.
  obtain ⟨c, r, hc0, hc3, hr0, hr, hdoe⟩ : ∃ c r, 0 ≤ c ∧ c ≤ 3 ∧ 0 ≤ r ∧
      (r < 36524 ∨ r = 36524 ∧ c = 3) ∧ doe = 36524 * c + r := by
    rcases lt_or_ge doe 146096 with hlt | hge
    · exact ⟨doe / 36524, doe % 36524, by omega, by omega, by omega, by omega, by omega⟩
    · exact ⟨3, 36524, by omega, by omega, by omega, by omega, by omega⟩
  obtain ⟨q, s, hq0, hq, hs0, hs, hr'⟩ : ∃ q s, 0 ≤ q ∧ q ≤ 24 ∧ 0 ≤ s ∧
      (s < 1460 ∨ s = 1460 ∧ (q < 24 ∨ c = 3)) ∧ r = 1461 * q + s :=
    ⟨r / 1461, r % 1461, by omega, by omega, by omega, by omega, by omega⟩
  obtain ⟨t, d, ht0, ht, hd0, hd, hs'⟩ : ∃ t d, 0 ≤ t ∧ t ≤ 3 ∧ 0 ≤ d ∧
      (d < 365 ∨ d = 365 ∧ t = 3 ∧ s = 1460) ∧ s = 365 * t + d := by
    rcases lt_or_ge s 1460 with hlt | hge
    · exact ⟨s / 365, s % 365, by omega, by omega, by omega, by omega, by omega⟩
    · exact ⟨3, 365, by omega, by omega, by omega, by omega, by omega⟩
  refine ⟨100 * c + 4 * q + t, d, by omega, by omega, hd0, ?_, by omega⟩
  unfold IsLeap
  omega

/-- The year of a day of a cycle is computed without a search. -/
lemma yearOfCycle_eq {yoe doy : ℤ} (h0 : 0 ≤ yoe) (h : yoe < 400) (hd0 : 0 ≤ doy)
    (hd : doy < 365 ∨ doy = 365 ∧ IsLeap (yoe + 1)) :
    yearOfCycle (365 * yoe + yoe / 4 - yoe / 100 + doy) = yoe := by
  obtain ⟨c, q, t, hc0, hc, hq0, hq, ht0, ht, rfl⟩ : ∃ c q t, 0 ≤ c ∧ c ≤ 3 ∧ 0 ≤ q ∧ q ≤ 24 ∧
      0 ≤ t ∧ t ≤ 3 ∧ yoe = 100 * c + 4 * q + t :=
    ⟨yoe / 100, yoe % 100 / 4, yoe % 4, by omega, by omega, by omega, by omega, by omega, by omega,
      by omega⟩
  have hdoe : 365 * (100 * c + 4 * q + t) + (100 * c + 4 * q + t) / 4 -
      (100 * c + 4 * q + t) / 100 + doy = 36524 * c + 1461 * q + 365 * t + doy := by omega
  have hlong : doy < 365 ∨ doy = 365 ∧ t = 3 ∧ (q < 24 ∨ c = 3) := by
    unfold IsLeap at hd
    omega
  rw [hdoe, yearOfCycle]
  clear hd h0 h hdoe
  generalize hx : 36524 * c + 1461 * q + 365 * t + doy = doe
  -- Only the last day of a quadrennium, of a century and of the cycle need the corrections.
  have hquad : doe / 1460 = 25 * c + q + if q + 24 * c + 365 * t + doy < 1460 then 0 else 1 := by
    split_ifs <;> omega
  have hcent : doe / 36524 = c + if doe = 146096 then 1 else 0 := by
    split_ifs <;> omega
  have hcycle : doe / 146096 = if doe = 146096 then 1 else 0 := by
    split_ifs <;> omega
  rw [hquad, hcent, hcycle, Int.ediv_eq_iff_of_pos (by decide)]
  clear hquad hcent hcycle
  split_ifs <;> omega

lemma dayOfYear_bounds {doe : ℤ} (h0 : 0 ≤ doe) (h : doe < 146097) :
    0 ≤ yearOfCycle doe ∧ yearOfCycle doe < 400 ∧ 0 ≤ dayOfYear doe ∧
      (dayOfYear doe < 365 ∨ dayOfYear doe = 365 ∧ IsLeap (yearOfCycle doe + 1)) := by
  obtain ⟨yoe, doy, hy0, hy, hd0, hd, rfl⟩ := exists_year_of_cycle h0 h
  rw [dayOfYear, yearOfCycle_eq hy0 hy hd0 hd]
  have hdoy : 365 * yoe + yoe / 4 - yoe / 100 + doy - (365 * yoe + yoe / 4 - yoe / 100) = doy := by
    omega
  rw [hdoy]
  exact ⟨hy0, hy, hd0, hd⟩

/-- **Every day has a date.** -/
lemma isDate_ofDayNumber (z : ℤ) :
    IsDate (ofDayNumber z).1 (ofDayNumber z).2.1 (ofDayNumber z).2.2 := by
  have hdoe0 : 0 ≤ z % 146097 := by omega
  have hdoe : z % 146097 < 146097 := by omega
  obtain ⟨hy0, hy, hd0, hd⟩ := dayOfYear_bounds hdoe0 hdoe
  simp only [ofDayNumber]
  generalize yearOfCycle (z % 146097) = yoe at *
  generalize dayOfYear (z % 146097) = doy at *
  obtain ⟨mp, hmp⟩ : ∃ mp, monthOfYear doy = mp := ⟨_, rfl⟩
  have hmp0 : 0 ≤ mp := by unfold monthOfYear at hmp; omega
  have hmp11 : mp ≤ 11 := by unfold monthOfYear at hmp; omega
  rw [hmp]
  unfold monthOfYear at hmp
  have hleap : IsLeap (yoe + z / 146097 * 400 + 1) ↔ IsLeap (yoe + 1) := by
    unfold IsLeap
    omega
  refine ⟨by split_ifs <;> omega, by split_ifs <;> omega, by omega, ?_⟩
  unfold monthLength
  interval_cases mp <;> norm_num
  case «11» =>
    have hshort : ¬ IsLeap (yoe + 1) → doy < 365 := fun hno =>
      hd.resolve_right fun hlast => hno hlast.2
    simp only [hleap]
    split_ifs with hyear
    · omega
    · have hlt := hshort hyear
      omega
  all_goals omega

/-- The date of a day has the day's number. -/
lemma dayNumber_ofDayNumber (z : ℤ) :
    dayNumber (ofDayNumber z).1 (ofDayNumber z).2.1 (ofDayNumber z).2.2 = z := by
  have hdoe0 : 0 ≤ z % 146097 := by omega
  have hdoe : z % 146097 < 146097 := by omega
  obtain ⟨hy0, hy, hd0, hd⟩ := dayOfYear_bounds hdoe0 hdoe
  have hdoy : z % 146097 = 365 * yearOfCycle (z % 146097) + yearOfCycle (z % 146097) / 4 -
      yearOfCycle (z % 146097) / 100 + dayOfYear (z % 146097) := by
    rw [dayOfYear]
    omega
  simp only [ofDayNumber]
  generalize yearOfCycle (z % 146097) = yoe at *
  generalize dayOfYear (z % 146097) = doy at *
  have hmp0 : 0 ≤ monthOfYear doy := by unfold monthOfYear; omega
  have hmp11 : monthOfYear doy ≤ 11 := by unfold monthOfYear; omega
  generalize monthOfYear doy = mp at *
  rw [dayNumber, yearStart]
  rcases lt_or_ge mp 10 with hm | hm
  · have hjan : ¬ mp + 3 ≤ 2 := by omega
    have hmar : 2 < mp + 3 := by omega
    simp only [marchYear, marchMonth, if_pos hm, if_neg hjan, if_pos hmar]
    omega
  · have hjan : mp - 9 ≤ 2 := by omega
    have hmar : ¬ 2 < mp - 9 := by omega
    simp only [marchYear, marchMonth, if_neg hm.not_gt, if_pos hjan, if_neg hmar]
    omega

end Gregorian
