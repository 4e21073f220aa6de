import V2xw.Lib.Gregorian
import V2xw.Lib.MachineInt

/-!
# Civil time

`CivilDateTime` of `crates/v2xw-core/src/time.rs` and its conversions to and from Unix seconds, in
the machine integers of the source. The conversions are those of the proleptic Gregorian calendar,
exact in 64 bits for every date with a 32-bit year.

## Main definitions

* `CivilDateTime`, `CivilDateTime.new` — civil datetimes.
* `CivilDateTime.toUnixSeconds`, `CivilDateTime.fromUnixSeconds` — the
  conversions.
* `YearFits` — an instant whose year is a 32-bit number.

## Main results

* `toInt_daysFromCivil`, `civilFromDays_spec` — the day arithmetic is that of
  the calendar.
* `CivilDateTime.civil_exact` — the conversions are inverse to each other, keep the order
  of time, and put the days 86400 seconds apart.
-/

namespace V2xw.Core

open MachineInt

/-! ## Days -/

/-- Days since 1970-01-01 for a proleptic Gregorian date. -/
def daysFromCivil (year : Int32) (month day : UInt8) : Int64 :=
  let y := year.toInt64 - (if month ≤ 2 then 1 else 0)
  let era := (if y ≥ 0 then y else y - 399) / 400
  let yoe := y - era * 400
  let m := ofU8 month
  let d := ofU8 day
  let doy := (153 * (m + (if m > 2 then -3 else 9)) + 2) / 5 + d - 1
  let doe := yoe * 365 + yoe / 4 - yoe / 100 + doy
  era * 146097 + doe - 719468

/-- Proleptic Gregorian date of a day count since 1970-01-01. -/
def civilFromDays (days : Int64) : Int32 × UInt8 × UInt8 :=
  let z := days + 719468
  let era := (if z ≥ 0 then z else z - 146096) / 146097
  let doe := z - era * 146097
  let yoe := (doe - doe / 1460 + doe / 36524 - doe / 146096) / 365
  let y := yoe + era * 400
  let doy := doe - (365 * yoe + yoe / 4 - yoe / 100)
  let mp := (5 * doy + 2) / 153
  let d := doy - (153 * mp + 2) / 5 + 1
  let m := mp + (if mp < 10 then 3 else -9)
  ((y + (if m ≤ 2 then 1 else 0)).toInt32, asU8 m, asU8 d)

/-- The lengths of the months of a year without a leap day. -/
def monthLengths : List UInt32 := [31, 28, 31, 30, 31, 30, 31, 31, 30, 31, 30, 31]

/-- Number of days in a month. The source indexes the table, and is only called for the months
there are. -/
def daysInMonth (year : Int32) (month : UInt8) : UInt32 :=
  let leap := (year % 4 = 0 ∧ year % 100 ≠ 0) ∨ year % 400 = 0
  if month = 2 ∧ leap then 29 else monthLengths.getD (month - 1).toNat 0

/-! ## Civil datetimes -/

/-- A civil date and time, to the second. -/
structure CivilDateTime where
  year : Int32
  month : UInt8
  day : UInt8
  hour : UInt8
  minute : UInt8
  second : UInt8
  deriving DecidableEq

/-- Why a civil datetime was refused. -/
inductive TimeError
  | badCivilField (field : String)
  deriving DecidableEq

namespace CivilDateTime

/-- Builds a civil datetime, checking every field's range. -/
def new (year : Int32) (month day hour minute second : UInt8) :
    Except TimeError CivilDateTime := do
  if ¬ (1 ≤ month ∧ month ≤ 12) then throw (.badCivilField "month")
  if day < 1 ∨ day.toUInt32 > daysInMonth year month then throw (.badCivilField "day")
  if hour > 23 then throw (.badCivilField "hour")
  if minute > 59 then throw (.badCivilField "minute")
  if second > 59 then throw (.badCivilField "second")
  return { year, month, day, hour, minute, second }

/-- A datetime that `new` builds. -/
def Accepted (c : CivilDateTime) : Prop :=
  new c.year c.month c.day c.hour c.minute c.second = .ok c

/-- Seconds since the Unix epoch. -/
def toUnixSeconds (c : CivilDateTime) : Int64 :=
  daysFromCivil c.year c.month c.day * 86400 + ofU8 c.hour * 3600 + ofU8 c.minute * 60 +
    ofU8 c.second

/-- Civil datetime of a Unix timestamp. -/
def fromUnixSeconds (unixS : Int64) : CivilDateTime :=
  let days := divEuclid unixS 86400
  let rem := remEuclid unixS 86400
  let (year, month, day) := civilFromDays days
  { year, month, day
    hour := asU8 (rem / 3600)
    minute := asU8 ((rem % 3600) / 60)
    second := asU8 (rem % 60) }

/-- The derived order: field by field. -/
instance : LT CivilDateTime where
  lt a b := a.year < b.year ∨ a.year = b.year ∧ (a.month < b.month ∨ a.month = b.month ∧
    (a.day < b.day ∨ a.day = b.day ∧ (a.hour < b.hour ∨ a.hour = b.hour ∧
      (a.minute < b.minute ∨ a.minute = b.minute ∧ a.second < b.second))))

end CivilDateTime

/-- The year of an instant is a 32-bit number. -/
def YearFits (unixS : Int64) : Prop :=
  ∃ y m d : ℤ, Gregorian.IsDate y m d ∧ Gregorian.dayNumber y m d - 719468 = unixS.toInt / 86400 ∧
    -2 ^ 31 ≤ y ∧ y < 2 ^ 31

/-! ## The day arithmetic is that of the calendar -/

/-- The quotient both functions round down, by subtracting from negative numbers what the division
would round up by. -/
lemma toInt_era {a n r : Int64} {x k : ℤ} (ha : a.toInt = x) (hn : n.toInt = k)
    (hr : r.toInt = k - 1) (hk : 0 < k) (hx : Fits (x - (k - 1))) :
    ((if a ≥ 0 then a else a - r) / n).toInt = x / k := by
  have hiff : a ≥ 0 ↔ 0 ≤ x := by
    rw [ge_iff_le, Int64.le_iff_toInt_le, ha]
    rfl
  split_ifs with h
  · exact toInt_div ha hn (hiff.1 h) hk
  · have hneg : x < 0 := not_le.1 fun h0 => h (hiff.2 h0)
    rw [toInt_div_of_neg (toInt_sub ha hr hx) hn (by omega) hk]
    -- What is left to the next multiple is not a whole divisor.
    have hdiv := Int.mul_ediv_add_emod x k
    have hmod0 := Int.emod_nonneg x hk.ne'
    have hmod := Int.emod_lt_of_pos x hk
    have hflip : -(x - (k - 1)) = (k - 1 - x % k) + k * -(x / k) := by
      rw [Int.mul_neg]
      omega
    have hrest : (k - 1 - x % k) / k = 0 := Int.ediv_eq_zero_of_lt (by omega) (by omega)
    rw [hflip, Int.add_mul_ediv_left _ _ hk.ne', hrest, zero_add, neg_neg]

/-- The year from March on, as the source computes it. -/
lemma toInt_marchYear (year : Int32) (month : UInt8) :
    (year.toInt64 - (if month ≤ 2 then 1 else 0)).toInt =
      Gregorian.marchYear year.toInt month.toNat := by
  have hlo := year.le_toInt
  have hhi := year.toInt_lt
  have hiff : month ≤ 2 ↔ (month.toNat : ℤ) ≤ 2 := by
    rw [UInt8.le_iff_toNat_le]
    exact Int.ofNat_le.symm
  unfold Gregorian.marchYear
  by_cases h : month ≤ 2
  · rw [if_pos h, if_pos (hiff.1 h)]
    exact toInt_sub (Int32.toInt_toInt64 year) rfl ⟨by omega, by omega⟩
  · rw [if_neg h, if_neg fun h' => h (hiff.2 h'),
      toInt_sub (y := 0) (Int32.toInt_toInt64 year) rfl ⟨by omega, by omega⟩]
    exact sub_zero _

/-- The months from March, as the source computes them. -/
lemma toInt_marchMonth {month : UInt8} (hm12 : month.toNat ≤ 12) :
    (ofU8 month + (if ofU8 month > 2 then -3 else 9)).toInt =
      Gregorian.marchMonth month.toNat := by
  have hm := toInt_ofU8 month
  have hiff : ofU8 month > 2 ↔ (2 : ℤ) < month.toNat := by
    rw [gt_iff_lt, Int64.lt_iff_toInt_lt, hm]
    rfl
  unfold Gregorian.marchMonth
  by_cases h : ofU8 month > 2
  · rw [if_pos h, if_pos (hiff.1 h)]
    exact toInt_add (b := -3) (y := -3) hm rfl ⟨by omega, by omega⟩
  · rw [if_neg h, if_neg fun h' => h (hiff.2 h')]
    exact toInt_add hm rfl ⟨by omega, by omega⟩

/-- The days to a date are exact. -/
lemma toInt_daysFromCivil (year : Int32) {month : UInt8} (day : UInt8) (hm : 1 ≤ month.toNat)
    (hm12 : month.toNat ≤ 12) :
    (daysFromCivil year month day).toInt =
      Gregorian.dayNumber year.toInt month.toNat day.toNat - 719468 := by
  have hylo := year.le_toInt
  have hyhi := year.toInt_lt
  have hdhi := day.toNat_lt
  have hy := toInt_marchYear year month
  have hmp := toInt_marchMonth hm12
  have hyfits : -2 ^ 31 - 1 ≤ Gregorian.marchYear year.toInt month.toNat ∧
      Gregorian.marchYear year.toInt month.toNat < 2 ^ 31 := by
    unfold Gregorian.marchYear
    split_ifs <;> omega
  have hmpfits : 0 ≤ Gregorian.marchMonth month.toNat ∧
      Gregorian.marchMonth month.toNat ≤ 11 := by
    unfold Gregorian.marchMonth
    split_ifs <;> omega
  unfold daysFromCivil
  dsimp only
  rw [Gregorian.dayNumber, Gregorian.yearStart]
  -- One exact operation after the other.
  generalize year.toInt64 - (if month ≤ 2 then 1 else 0) = y at *
  generalize ofU8 month + (if ofU8 month > 2 then -3 else 9) = mp at *
  generalize Gregorian.marchYear year.toInt month.toNat = Y at *
  generalize Gregorian.marchMonth month.toNat = M at *
  obtain ⟨hY0, hY⟩ := hyfits
  obtain ⟨hM0, hM⟩ := hmpfits
  have hera := toInt_era (n := 400) (r := 399) (k := 400) hy rfl rfl (by decide)
    ⟨by omega, by omega⟩
  have hyoe := toInt_sub hy (toInt_mul (b := 400) (y := 400) hera rfl ⟨by omega, by omega⟩)
    ⟨by omega, by omega⟩
  have hstart := toInt_div (b := 5) (y := 5)
    (toInt_add (b := 2) (y := 2)
      (toInt_mul (a := 153) (x := 153) rfl hmp ⟨by omega, by omega⟩) rfl ⟨by omega, by omega⟩)
    rfl (by omega) (by decide)
  have hdoy := toInt_sub (b := 1) (y := 1) (toInt_add hstart (toInt_ofU8 day) ⟨by omega, by omega⟩)
    rfl ⟨by omega, by omega⟩
  have hquad := toInt_div (b := 4) (y := 4) hyoe rfl (by omega) (by decide)
  have hcent := toInt_div (b := 100) (y := 100) hyoe rfl (by omega) (by decide)
  have hdoe := toInt_add (toInt_sub (toInt_add
    (toInt_mul (b := 365) (y := 365) hyoe rfl ⟨by omega, by omega⟩) hquad ⟨by omega, by omega⟩)
    hcent ⟨by omega, by omega⟩) hdoy ⟨by omega, by omega⟩
  have hdays := toInt_sub (b := 719468) (y := 719468) (toInt_add
    (toInt_mul (b := 146097) (y := 146097) hera rfl ⟨by omega, by omega⟩) hdoe
    ⟨by omega, by omega⟩) rfl ⟨by omega, by omega⟩
  refine hdays.trans ?_
  omega

/-! ## The date of a day -/

/-- The date of a day is that of the calendar, with the year cut to 32 bits. -/
lemma civilFromDays_spec {days : Int64} {z : ℤ} (hz : days.toInt + 719468 = z)
    (hlo : -2 ^ 62 ≤ z) (hhi : z < 2 ^ 62) :
    (civilFromDays days).1.toInt = (Gregorian.ofDayNumber z).1.bmod (2 ^ 32) ∧
      ((civilFromDays days).2.1.toNat : ℤ) = (Gregorian.ofDayNumber z).2.1 ∧
      ((civilFromDays days).2.2.toNat : ℤ) = (Gregorian.ofDayNumber z).2.2 := by
  unfold civilFromDays
  dsimp only
  have hZ := (toInt_add (a := days) (b := 719468) (y := 719468) rfl rfl
    ⟨by omega, by omega⟩).trans hz
  generalize days + 719468 = Z at *
  have hera := toInt_era (n := 146097) (r := 146096) (k := 146097) hZ rfl rfl (by decide)
    ⟨by omega, by omega⟩
  generalize (if Z ≥ 0 then Z else Z - 146096) / 146097 = era at *
  have hdoe := toInt_sub hZ (toInt_mul (b := 146097) (y := 146097) hera rfl ⟨by omega, by omega⟩)
    ⟨by omega, by omega⟩
  rw [show z - z / 146097 * 146097 = z % 146097 by omega] at hdoe
  generalize Z - era * 146097 = doe at *
  have hz0 : 0 ≤ z % 146097 := by omega
  have hz1 : z % 146097 < 146097 := by omega
  obtain ⟨hy0, hy, hd0, hd⟩ := Gregorian.dayOfYear_bounds hz0 hz1
  -- The year of the cycle, the day of the year and the month, each in its range.
  have hyoe := toInt_div (b := 365) (y := 365) (toInt_sub (toInt_add (toInt_sub hdoe
    (toInt_div (b := 1460) (y := 1460) hdoe rfl hz0 (by decide)) ⟨by omega, by omega⟩)
    (toInt_div (b := 36524) (y := 36524) hdoe rfl hz0 (by decide)) ⟨by omega, by omega⟩)
    (toInt_div (b := 146096) (y := 146096) hdoe rfl hz0 (by decide)) ⟨by omega, by omega⟩)
    rfl (by omega) (by decide)
  rw [← Gregorian.yearOfCycle] at hyoe
  generalize (doe - doe / 1460 + doe / 36524 - doe / 146096) / 365 = yoe at *
  have hy' := toInt_add hyoe (toInt_mul (b := 400) (y := 400) hera rfl ⟨by omega, by omega⟩)
    ⟨by omega, by omega⟩
  generalize yoe + era * 400 = y at *
  have hdoy := toInt_sub hdoe (toInt_sub (toInt_add
    (toInt_mul (a := 365) (x := 365) rfl hyoe ⟨by omega, by omega⟩)
    (toInt_div (b := 4) (y := 4) hyoe rfl hy0 (by decide)) ⟨by omega, by omega⟩)
    (toInt_div (b := 100) (y := 100) hyoe rfl hy0 (by decide)) ⟨by omega, by omega⟩)
    ⟨by omega, by omega⟩
  rw [← Gregorian.dayOfYear] at hdoy
  generalize doe - (365 * yoe + yoe / 4 - yoe / 100) = doy at *
  have hdoy366 : Gregorian.dayOfYear (z % 146097) ≤ 365 := by
    rcases hd with hd | ⟨hd, -⟩ <;> omega
  have hmp := toInt_div (b := 153) (y := 153) (toInt_add (b := 2) (y := 2)
    (toInt_mul (a := 5) (x := 5) rfl hdoy ⟨by omega, by omega⟩) rfl ⟨by omega, by omega⟩)
    rfl (by omega) (by decide)
  rw [← Gregorian.monthOfYear] at hmp
  generalize (5 * doy + 2) / 153 = mp at *
  simp only [Gregorian.ofDayNumber]
  have hmpDef : Gregorian.monthOfYear (Gregorian.dayOfYear (z % 146097)) =
      (5 * Gregorian.dayOfYear (z % 146097) + 2) / 153 := rfl
  generalize Gregorian.yearOfCycle (z % 146097) = yoe' at *
  generalize Gregorian.dayOfYear (z % 146097) = doy' at *
  generalize Gregorian.monthOfYear doy' = mp' at *
  have hday := toInt_add (b := 1) (y := 1) (toInt_sub hdoy (toInt_div (b := 5) (y := 5)
    (toInt_add (b := 2) (y := 2) (toInt_mul (a := 153) (x := 153) rfl hmp ⟨by omega, by omega⟩)
      rfl ⟨by omega, by omega⟩) rfl (by omega) (by decide)) ⟨by omega, by omega⟩)
    rfl ⟨by omega, by omega⟩
  have hmonth : (mp + (if mp < 10 then 3 else -9)).toInt =
      if mp' < 10 then mp' + 3 else mp' - 9 := by
    have hiff : mp < 10 ↔ mp' < 10 := by
      rw [Int64.lt_iff_toInt_lt, hmp]
      rfl
    by_cases h : mp < 10
    · rw [if_pos h, if_pos (hiff.1 h)]
      exact toInt_add (b := 3) (y := 3) hmp rfl ⟨by omega, by omega⟩
    · rw [if_neg h, if_neg fun h' => h (hiff.2 h')]
      exact toInt_add (b := -9) (y := -9) hmp rfl ⟨by omega, by omega⟩
  have hmonth0 : 0 ≤ (if mp' < 10 then mp' + 3 else mp' - 9) := by split_ifs <;> omega
  have hmonth12 : (if mp' < 10 then mp' + 3 else mp' - 9) < 256 := by split_ifs <;> omega
  generalize mp + (if mp < 10 then 3 else -9) = m at *
  generalize (if mp' < 10 then mp' + 3 else mp' - 9) = m' at *
  refine ⟨?_, toNat_asU8 hmonth hmonth0 hmonth12, toNat_asU8 hday (by omega) (by omega)⟩
  rw [Int64.toInt_toInt32]
  congr 1
  have hiff : m ≤ 2 ↔ m' ≤ 2 := by
    rw [Int64.le_iff_toInt_le, hmonth]
    rfl
  by_cases h : m ≤ 2
  · rw [if_pos h, if_pos (hiff.1 h)]
    exact toInt_add (b := 1) (y := 1) hy' rfl ⟨by omega, by omega⟩
  · rw [if_neg h, if_neg fun h' => h (hiff.2 h'),
      toInt_add (b := 0) (y := 0) hy' rfl ⟨by omega, by omega⟩]
    exact add_zero _

/-! ## Accepted datetimes -/

lemma isLeap_iff (year : Int32) :
    ((year % 4 = 0 ∧ year % 100 ≠ 0) ∨ year % 400 = 0) ↔ Gregorian.IsLeap year.toInt := by
  have hrem (n : Int32) (k : ℤ) (hn : n.toInt = k) : year % n = 0 ↔ year.toInt % k = 0 := by
    rw [← Int32.toInt_inj, Int32.toInt_mod, hn, ← Int.dvd_iff_emod_eq_zero,
      Int.dvd_iff_tmod_eq_zero]
    rfl
  unfold Gregorian.IsLeap
  rw [ne_eq, ne_eq, hrem 4 4 rfl, hrem 100 100 rfl, hrem 400 400 rfl]

private lemma monthLengths_getD : ∀ n < 13, 1 ≤ n → n ≠ 2 →
    (monthLengths.getD (UInt8.ofNat n - 1).toNat 0).toNat =
      if n = 4 ∨ n = 6 ∨ n = 9 ∨ n = 11 then 30 else 31 := by
  decide

/-- The lengths of the months are those of the calendar. -/
lemma daysInMonth_eq (year : Int32) {month : UInt8} (hm : 1 ≤ month.toNat)
    (hm12 : month.toNat ≤ 12) :
    ((daysInMonth year month).toNat : ℤ) = Gregorian.monthLength year.toInt month.toNat := by
  unfold daysInMonth Gregorian.monthLength
  simp only [isLeap_iff]
  by_cases hfeb : month = 2
  · subst hfeb
    rw [show ((UInt8.toNat 2 : ℕ) : ℤ) = 2 from rfl, if_pos rfl]
    by_cases hleap : Gregorian.IsLeap year.toInt
    · rw [if_pos ⟨rfl, hleap⟩, if_pos hleap]
      rfl
    · rw [if_neg fun h => hleap h.2, if_neg hleap]
      rfl
  · have hne : month.toNat ≠ 2 := fun h => hfeb (UInt8.toNat_inj.1 h)
    have htable := monthLengths_getD month.toNat (by omega) hm hne
    rw [UInt8.ofNat_toNat] at htable
    have hne' : ¬ (month.toNat : ℤ) = 2 := fun h => hne (by exact_mod_cast h)
    rw [if_neg fun h => hfeb h.1, htable, if_neg hne']
    by_cases hshort : month.toNat = 4 ∨ month.toNat = 6 ∨ month.toNat = 9 ∨ month.toNat = 11
    · rw [if_pos hshort, if_pos (by omega)]
      rfl
    · rw [if_neg hshort, if_neg (by omega)]
      rfl

namespace CivilDateTime

/-- The seconds since midnight. -/
def timeOfDay (c : CivilDateTime) : ℤ := c.hour.toNat * 3600 + c.minute.toNat * 60 + c.second.toNat

private lemma check_eq_ok {p : Prop} [Decidable p] {e : TimeError} {c : CivilDateTime}
    {k : PUnit → Except TimeError CivilDateTime} :
    (if p then (throw e >>= k) else k ⟨⟩) = .ok c ↔ ¬ p ∧ k ⟨⟩ = .ok c := by
  by_cases h : p
  · rw [if_pos h]
    constructor
    · intro hthrow
      cases hthrow
    · exact fun hok => absurd h hok.1
  · rw [if_neg h, and_iff_right h]

/-- The datetimes `new` builds are the dates of the calendar with a time of day. -/
lemma accepted_iff (c : CivilDateTime) :
    c.Accepted ↔ Gregorian.IsDate c.year.toInt c.month.toNat c.day.toNat ∧
      c.hour.toNat ≤ 23 ∧ c.minute.toNat ≤ 59 ∧ c.second.toNat ≤ 59 := by
  have hdim (h1 : 1 ≤ c.month.toNat) (h12 : c.month.toNat ≤ 12) :
      c.day.toUInt32 > daysInMonth c.year c.month ↔
        ¬ (c.day.toNat : ℤ) ≤ Gregorian.monthLength c.year.toInt c.month.toNat := by
    rw [← daysInMonth_eq c.year h1 h12, gt_iff_lt, UInt32.lt_iff_toNat_lt, UInt8.toNat_toUInt32,
      not_le]
    exact Int.ofNat_lt.symm
  have hmonth : (1 ≤ c.month ∧ c.month ≤ 12) ↔ 1 ≤ c.month.toNat ∧ c.month.toNat ≤ 12 := by
    rw [UInt8.le_iff_toNat_le, UInt8.le_iff_toNat_le]
    rfl
  have hhour : c.hour > 23 ↔ 23 < c.hour.toNat := UInt8.lt_iff_toNat_lt
  have hminute : c.minute > 59 ↔ 59 < c.minute.toNat := UInt8.lt_iff_toNat_lt
  have hsecond : c.second > 59 ↔ 59 < c.second.toNat := UInt8.lt_iff_toNat_lt
  have hday : c.day < 1 ↔ c.day.toNat < 1 := UInt8.lt_iff_toNat_lt
  unfold Accepted new
  simp only [check_eq_ok, hhour, hminute, hsecond, hday, hmonth, not_or, not_not, not_lt]
  constructor
  · rintro ⟨⟨h1, h12⟩, ⟨hd1, hd⟩, hh, hmi, hs, -⟩
    rw [hdim h1 h12, not_not] at hd
    exact ⟨⟨by omega, by omega, by omega, hd⟩, hh, hmi, hs⟩
  · rintro ⟨⟨h1, h12, hd1, hd⟩, hh, hmi, hs⟩
    have h1' : 1 ≤ c.month.toNat := by omega
    have h12' : c.month.toNat ≤ 12 := by omega
    refine ⟨⟨h1', h12'⟩, ⟨by omega, ?_⟩, hh, hmi, hs, rfl⟩
    rw [hdim h1' h12', not_not]
    exact hd

lemma Accepted.timeOfDay_bounds {c : CivilDateTime} (h : c.Accepted) :
    0 ≤ c.timeOfDay ∧ c.timeOfDay < 86400 := by
  obtain ⟨-, hh, hmi, hs⟩ := (accepted_iff c).1 h
  unfold timeOfDay
  omega

/-- A 32-bit year is less than some 785 billion days from the epoch. -/
lemma dayNumber_bounds (year : Int32) {m d : ℤ}
    (h : Gregorian.IsDate year.toInt m d) :
    -2 ^ 40 ≤ Gregorian.dayNumber year.toInt m d ∧
      Gregorian.dayNumber year.toInt m d < 2 ^ 40 := by
  obtain ⟨h1, h12, hd1, hd⟩ := h
  have hlo := year.le_toInt
  have hhi := year.toInt_lt
  have hlen : Gregorian.monthLength year.toInt m ≤ 31 := by
    unfold Gregorian.monthLength
    split_ifs <;> decide
  have hy : year.toInt - 1 ≤ Gregorian.marchYear year.toInt m ∧
      Gregorian.marchYear year.toInt m ≤ year.toInt := by
    unfold Gregorian.marchYear
    split_ifs <;> omega
  have hm : 0 ≤ Gregorian.marchMonth m ∧ Gregorian.marchMonth m ≤ 11 := by
    unfold Gregorian.marchMonth
    split_ifs <;> omega
  rw [Gregorian.dayNumber, Gregorian.yearStart]
  omega

/-- **The seconds of a datetime are exact.** -/
lemma Accepted.toInt_toUnixSeconds {c : CivilDateTime} (h : c.Accepted) :
    c.toUnixSeconds.toInt =
      (Gregorian.dayNumber c.year.toInt c.month.toNat c.day.toNat - 719468) * 86400 +
        c.timeOfDay := by
  obtain ⟨hdate, hh, hmi, hs⟩ := (accepted_iff c).1 h
  obtain ⟨hlo, hhi⟩ := dayNumber_bounds c.year hdate
  have h1 := hdate.one_le_month
  have h12 := hdate.month_le
  have hdays := toInt_daysFromCivil c.year c.day (by omega : 1 ≤ c.month.toNat) (by omega)
  have hday := toInt_mul (b := 86400) (y := 86400) hdays rfl ⟨by omega, by omega⟩
  have hhour := toInt_mul (b := 3600) (y := 3600) (toInt_ofU8 c.hour) rfl ⟨by omega, by omega⟩
  have hminute := toInt_mul (b := 60) (y := 60) (toInt_ofU8 c.minute) rfl ⟨by omega, by omega⟩
  have hsum := toInt_add (toInt_add (toInt_add hday hhour ⟨by omega, by omega⟩) hminute
    ⟨by omega, by omega⟩) (toInt_ofU8 c.second) ⟨by omega, by omega⟩
  refine hsum.trans ?_
  unfold timeOfDay
  omega

/-! ## The datetime of an instant -/

/-- The fields of the datetime of an instant whose year fits. -/
lemma fromUnixSeconds_spec {s : Int64} {y m d : ℤ} (hdate : Gregorian.IsDate y m d)
    (hday : Gregorian.dayNumber y m d - 719468 = s.toInt / 86400) (hlo : -2 ^ 31 ≤ y)
    (hhi : y < 2 ^ 31) :
    (fromUnixSeconds s).year.toInt = y ∧ ((fromUnixSeconds s).month.toNat : ℤ) = m ∧
      ((fromUnixSeconds s).day.toNat : ℤ) = d ∧
      ((fromUnixSeconds s).hour.toNat : ℤ) = s.toInt % 86400 / 3600 ∧
      ((fromUnixSeconds s).minute.toNat : ℤ) = s.toInt % 86400 % 3600 / 60 ∧
      ((fromUnixSeconds s).second.toNat : ℤ) = s.toInt % 86400 % 60 := by
  have hslo := s.le_toInt
  have hshi := s.toInt_lt
  have hdays := toInt_divEuclid (a := s) (b := 86400) (y := 86400) rfl rfl ⟨by omega, by omega⟩
  have hrem := toInt_remEuclid (a := s) (b := 86400) (y := 86400) rfl rfl ⟨by omega, by omega⟩
  obtain ⟨hyear, hmonth, hday'⟩ := @civilFromDays_spec (divEuclid s 86400) _ rfl
    (by omega) (by omega)
  -- The date of a day is unique.
  have hz : (divEuclid s 86400).toInt + 719468 = Gregorian.dayNumber y m d := by omega
  have hsame := Gregorian.dayNumber_inj (Gregorian.isDate_ofDayNumber _) hdate
    (Gregorian.dayNumber_ofDayNumber (Gregorian.dayNumber y m d))
  rw [hz, hsame.1] at hyear
  rw [hz, hsame.2.1] at hmonth
  rw [hz, hsame.2.2] at hday'
  have hhour := toInt_div (b := 3600) (y := 3600) hrem rfl (by omega) (by decide)
  have hmod (n : Int64) (k : ℤ) (hn : n.toInt = k) :
      (remEuclid s 86400 % n).toInt = s.toInt % 86400 % k := by
    rw [Int64.toInt_mod, hrem, hn, Int.tmod_eq_emod_of_nonneg (by omega)]
  have hminute := toInt_div (b := 60) (y := 60) (hmod 3600 3600 rfl) rfl (by omega) (by decide)
  refine ⟨?_, hmonth, hday', toNat_asU8 hhour (by omega) (by omega),
    toNat_asU8 hminute (by omega) (by omega),
    toNat_asU8 (hmod 60 60 rfl) (by omega) (by omega)⟩
  exact hyear.trans (Int.bmod_eq_of_le (by omega) (by omega))

lemma accepted_fromUnixSeconds {s : Int64} (h : YearFits s) :
    (fromUnixSeconds s).Accepted ∧ (fromUnixSeconds s).toUnixSeconds = s := by
  obtain ⟨y, m, d, hdate, hday, hlo, hhi⟩ := h
  obtain ⟨hy, hm, hd, hh, hmi, hs⟩ := fromUnixSeconds_spec hdate hday hlo hhi
  have hacc : (fromUnixSeconds s).Accepted := by
    rw [accepted_iff, hy, hm, hd]
    exact ⟨hdate, by omega, by omega, by omega⟩
  refine ⟨hacc, Int64.toInt_inj.1 ?_⟩
  rw [hacc.toInt_toUnixSeconds, hy, hm, hd, hday, timeOfDay, hh, hmi, hs]
  omega

lemma Accepted.toUnixSeconds_ediv {c : CivilDateTime} (h : c.Accepted) :
    Gregorian.dayNumber c.year.toInt c.month.toNat c.day.toNat - 719468 =
      c.toUnixSeconds.toInt / 86400 := by
  obtain ⟨htime0, htime⟩ := h.timeOfDay_bounds
  rw [h.toInt_toUnixSeconds]
  generalize c.timeOfDay = t at *
  omega

/-- The datetime of the seconds of a datetime is that datetime. -/
lemma Accepted.fromUnixSeconds {c : CivilDateTime} (h : c.Accepted) :
    CivilDateTime.fromUnixSeconds c.toUnixSeconds = c := by
  obtain ⟨hdate, hh, hmi, hs⟩ := (accepted_iff c).1 h
  obtain ⟨hy, hm, hd, hh', hmi', hs'⟩ := fromUnixSeconds_spec hdate h.toUnixSeconds_ediv
    c.year.le_toInt c.year.toInt_lt
  have hrem : c.toUnixSeconds.toInt % 86400 = c.timeOfDay := by
    have htime := h.timeOfDay_bounds
    rw [h.toInt_toUnixSeconds]
    omega
  rw [hrem, timeOfDay] at hh' hmi' hs'
  generalize CivilDateTime.fromUnixSeconds c.toUnixSeconds = c' at *
  cases c
  cases c'
  simp only [mk.injEq, ← Int32.toInt_inj, ← UInt8.toNat_inj] at *
  omega

/-- **Later datetimes have more seconds.** -/
lemma Accepted.lt {c c' : CivilDateTime} (h : c.Accepted) (h' : c'.Accepted) (hlt : c < c') :
    c.toUnixSeconds < c'.toUnixSeconds := by
  have htime := h.timeOfDay_bounds
  have htime' := h'.timeOfDay_bounds
  have hdate := ((accepted_iff c).1 h).1
  have hdate' := ((accepted_iff c').1 h').1
  obtain ⟨hh, hmi, hs⟩ := ((accepted_iff c).1 h).2
  obtain ⟨hh', hmi', hs'⟩ := ((accepted_iff c').1 h').2
  rw [Int64.lt_iff_toInt_lt, h.toInt_toUnixSeconds, h'.toInt_toUnixSeconds]
  rcases hlt with hy | ⟨hy, hm | ⟨hm, hd | ⟨hd, hrest⟩⟩⟩
  · have hday := Gregorian.dayNumber_lt hdate hdate' (.inl (Int32.lt_iff_toInt_lt.1 hy))
    omega
  · have hday := Gregorian.dayNumber_lt hdate hdate'
      (.inr ⟨congrArg Int32.toInt hy, .inl (Int.ofNat_lt.2 (UInt8.lt_iff_toNat_lt.1 hm))⟩)
    omega
  · have hday := Gregorian.dayNumber_lt hdate hdate' (.inr ⟨congrArg Int32.toInt hy,
      .inr ⟨congrArg (fun n : UInt8 => (n.toNat : ℤ)) hm,
        Int.ofNat_lt.2 (UInt8.lt_iff_toNat_lt.1 hd)⟩⟩)
    omega
  · rw [hy, hm, hd]
    unfold timeOfDay
    simp only [UInt8.lt_iff_toNat_lt, ← UInt8.toNat_inj] at hrest
    omega

lemma lt_or_eq_or_lt (c c' : CivilDateTime) : c < c' ∨ c = c' ∨ c' < c := by
  have hlt (a b : CivilDateTime) : a < b ↔ a.year < b.year ∨ a.year = b.year ∧
      (a.month < b.month ∨ a.month = b.month ∧ (a.day < b.day ∨ a.day = b.day ∧
        (a.hour < b.hour ∨ a.hour = b.hour ∧
          (a.minute < b.minute ∨ a.minute = b.minute ∧ a.second < b.second)))) := Iff.rfl
  cases c
  cases c'
  simp only [hlt, mk.injEq, Int32.lt_iff_toInt_lt, UInt8.lt_iff_toNat_lt, ← Int32.toInt_inj,
    ← UInt8.toNat_inj]
  omega

lemma Accepted.lt_iff {c c' : CivilDateTime} (h : c.Accepted) (h' : c'.Accepted) :
    c < c' ↔ c.toUnixSeconds < c'.toUnixSeconds := by
  refine ⟨h.lt h', fun hlt => ?_⟩
  rcases lt_or_eq_or_lt c c' with hcc | rfl | hcc
  · exact hcc
  · exact absurd hlt Int64.lt_irrefl
  · exact absurd hlt (Int64.lt_asymm (h'.lt h hcc))

/-- The time of day is the same. -/
def SameTime (c c' : CivilDateTime) : Prop :=
  c.hour = c'.hour ∧ c.minute = c'.minute ∧ c.second = c'.second

/-- Before a datetime at the same time of a later day that is not the next, there is one a day
after. -/
lemma Accepted.exists_next_day {c c' : CivilDateTime} (h : c.Accepted) (h' : c'.Accepted)
    (htime : SameTime c c') (hlt : c.toUnixSeconds < c'.toUnixSeconds)
    (hfar : c'.toUnixSeconds.toInt ≠ c.toUnixSeconds.toInt + 86400) :
    ∃ c'' : CivilDateTime, c''.Accepted ∧ SameTime c c'' ∧ c < c'' ∧ c'' < c' := by
  have hdate := ((accepted_iff c).1 h).1
  have hdate' := ((accepted_iff c').1 h').1
  have hb := h.timeOfDay_bounds
  have hlo := (dayNumber_bounds c.year hdate).1
  have hhi' := (dayNumber_bounds c'.year hdate').2
  have hsame : c'.timeOfDay = c.timeOfDay := by
    unfold timeOfDay
    rw [htime.1, htime.2.1, htime.2.2]
  have hsec := h.toInt_toUnixSeconds
  have hsec' := h'.toInt_toUnixSeconds
  rw [hsame] at hsec'
  rw [Int64.lt_iff_toInt_lt] at hlt
  -- The next day lies between, and its year does.
  generalize hz : Gregorian.dayNumber c.year.toInt c.month.toNat c.day.toNat + 1 = z
  have hbetween : z < Gregorian.dayNumber c'.year.toInt c'.month.toNat c'.day.toNat := by omega
  have hnext := Gregorian.isDate_ofDayNumber z
  have hnum := Gregorian.dayNumber_ofDayNumber z
  generalize Gregorian.ofDayNumber z = date at hnext hnum
  obtain ⟨y, m, d⟩ := date
  have hyear : c.year.toInt ≤ y := not_lt.1 fun hy => by
    have hback := Gregorian.dayNumber_lt hnext hdate (.inl hy)
    omega
  have hyear' : y ≤ c'.year.toInt := not_lt.1 fun hy => by
    have hback := Gregorian.dayNumber_lt hdate' hnext (.inl hy)
    omega
  obtain ⟨next, hsum⟩ : ∃ next : Int64, next.toInt = c.toUnixSeconds.toInt + 86400 :=
    ⟨_, toInt_add (b := 86400) (y := 86400) rfl rfl ⟨by omega, by omega⟩⟩
  have hday : Gregorian.dayNumber y m d - 719468 = next.toInt / 86400 := by
    dsimp only at hnum
    omega
  have hlo' := c.year.le_toInt
  have hhi := c'.year.toInt_lt
  obtain ⟨hacc, hback⟩ := accepted_fromUnixSeconds
    ⟨y, m, d, hnext, hday, by omega, by omega⟩
  obtain ⟨-, -, -, hh, hmi, hs⟩ := fromUnixSeconds_spec hnext hday (by omega) (by omega)
  refine ⟨_, hacc, ?_, (h.lt_iff hacc).2 ?_, (hacc.lt_iff h').2 ?_⟩
  · obtain ⟨-, hh23, hmi59, hs59⟩ := (accepted_iff c).1 h
    have hrem : next.toInt % 86400 = c.timeOfDay := by omega
    rw [hrem, timeOfDay] at hh hmi hs
    unfold SameTime
    rw [← UInt8.toNat_inj, ← UInt8.toNat_inj, ← UInt8.toNat_inj]
    omega
  · rw [hback, Int64.lt_iff_toInt_lt]
    omega
  · rw [hback, Int64.lt_iff_toInt_lt]
    omega

lemma accepted_of_new {year : Int32} {month day hour minute second : UInt8} {c : CivilDateTime}
    (h : new year month day hour minute second = .ok c) : c.Accepted := by
  have hfields := h
  unfold new at hfields
  simp only [check_eq_ok] at hfields
  cases hfields.2.2.2.2.2
  exact h

/-- **Civil time is exact.** What `new` accepts is the datetime of its seconds; an instant whose
year fits 32 bits is the seconds of its datetime, which `new` accepts; datetimes are ordered as
their seconds; and two of them at the same time of day, with none at that time between them, are
86400 seconds apart. -/
theorem civil_exact :
    (∀ year month day hour minute second c, new year month day hour minute second = .ok c →
      fromUnixSeconds c.toUnixSeconds = c) ∧
    (∀ s, YearFits s → (fromUnixSeconds s).toUnixSeconds = s ∧ (fromUnixSeconds s).Accepted) ∧
    (∀ c c' : CivilDateTime, c.Accepted → c'.Accepted →
      (c < c' ↔ c.toUnixSeconds < c'.toUnixSeconds)) ∧
    ∀ c c' : CivilDateTime, c.Accepted → c'.Accepted → SameTime c c' → c < c' →
      (∀ c'' : CivilDateTime, c''.Accepted → SameTime c c'' → ¬ (c < c'' ∧ c'' < c')) →
      c'.toUnixSeconds.toInt = c.toUnixSeconds.toInt + 86400 := by
  refine ⟨fun _ _ _ _ _ _ c hc => (accepted_of_new hc).fromUnixSeconds,
    fun s hs => (accepted_fromUnixSeconds hs).symm, fun c c' h h' => h.lt_iff h',
    fun c c' h h' htime hlt hnone => ?_⟩
  by_contra hfar
  obtain ⟨c'', hacc, hsame, hbetween⟩ := h.exists_next_day h' htime (h.lt h' hlt) hfar
  exact hnone c'' hacc hsame hbetween

/-- The second before the leap day of the year 0 and the one a day later. -/
theorem civil_exact_leap_day :
    fromUnixSeconds (⟨0, 2, 28, 23, 59, 59⟩ : CivilDateTime).toUnixSeconds =
        ⟨0, 2, 28, 23, 59, 59⟩ ∧
      (fromUnixSeconds (-1)).toUnixSeconds = -1 ∧
      ((⟨0, 2, 28, 23, 59, 59⟩ : CivilDateTime) < ⟨0, 2, 29, 23, 59, 59⟩ ↔
        (⟨0, 2, 28, 23, 59, 59⟩ : CivilDateTime).toUnixSeconds <
          (⟨0, 2, 29, 23, 59, 59⟩ : CivilDateTime).toUnixSeconds) := by
  obtain ⟨hnew, hback, hlt, -⟩ := civil_exact
  refine ⟨hnew 0 2 28 23 59 59 _ (by decide +kernel), (hback (-1) ?_).1,
    hlt _ _ (by unfold Accepted; decide +kernel) (by unfold Accepted; decide +kernel)⟩
  exact ⟨1969, 12, 31, ⟨by decide, by decide, by decide, by decide⟩, by decide +kernel, by decide,
    by decide⟩

end CivilDateTime

end V2xw.Core
