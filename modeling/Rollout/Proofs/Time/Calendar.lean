import Mathlib.Tactic.IntervalCases
import Rollout.Time.Timestamp

/-!
# Days and dates

The date of a day leads back to the day, and it is one that there is in the calendar.

An era has 400 years and 146097 days. A day of it is given by centuries, groups of four years, years
and days, of which all but the last of each kind are of one length: `EraDay`.

* `EraDay.year_eq`, `EraDay.dayOfYear_eq`: the year and the day of the year.
* `dateOfDays_eq`: the date of a day.
* `IsDate`, `isDate_dateOfDays`: the date of a day is in the calendar.
* `daysOfDate_dateOfDays`: and it is the date of that day.
-/

namespace Rollout.Timestamp

/-! ## A day of an era -/

/-- Day `n` of an era comes after `c` centuries, `q` groups of four years, `y` years and `r` days.
Only a year that ends a group has a day 365, and if it also ends a century, only the year that ends
the era. -/
structure EraDay (n c q y r : Nat) : Prop where
  centuries : c ≤ 3
  groups : q ≤ 24
  years : y ≤ 3
  days : r ≤ 365
  last : r = 365 → y = 3 ∧ (q = 24 → c = 3)
  eq : n = 36524 * c + 1461 * q + 365 * y + r

theorem exists_eraDay {n : Nat} (h : n < 146097) : ∃ c q y r, EraDay n c q y r := by
  obtain ⟨c, m, hc, hm, hcentury, rfl⟩ :
      ∃ c m, c ≤ 3 ∧ m ≤ 36524 ∧ (m = 36524 → c = 3) ∧ 36524 * c + m = n :=
    ⟨min 3 (n / 36524), n - 36524 * min 3 (n / 36524), by omega, by omega, by omega, by omega⟩
  obtain ⟨q, k, hq, hk, hgroup, rfl⟩ :
      ∃ q k, q ≤ 24 ∧ k ≤ 1460 ∧ (k = 1460 → q = 24 → m = 36524) ∧ 1461 * q + k = m :=
    ⟨m / 1461, m % 1461, by omega, by omega, by omega, by omega⟩
  obtain ⟨y, r, hy, hr, hyear, rfl⟩ :
      ∃ y r, y ≤ 3 ∧ r ≤ 365 ∧ (r = 365 → y = 3) ∧ 365 * y + r = k :=
    ⟨min 3 (k / 365), k - 365 * min 3 (k / 365), by omega, by omega, by omega, by omega⟩
  refine ⟨c, q, y, r, hc, hq, hy, hr, fun hlast => ⟨hyear hlast, fun hends => hcentury ?_⟩, ?_⟩
  · exact hgroup (by rw [hyear hlast, hlast]) hends
  · rw [Nat.add_assoc, Nat.add_assoc]

namespace EraDay

variable {n c q y r : Nat}

/-- All but the last day of the era come before the next century begins. -/
theorem lt_century (h : EraDay n c q y r) (hn : n < 146096) : 1461 * q + 365 * y + r < 36524 := by
  obtain ⟨hc, hq, hy, hr, hlast, rfl⟩ := h
  rcases Nat.lt_or_ge r 365 with hr' | hr'
  · clear hlast
    omega
  · obtain ⟨rfl, hcentury⟩ := hlast (Nat.le_antisymm hr hr')
    rcases Nat.lt_or_ge q 24 with hq' | hq'
    · omega
    · obtain rfl := hcentury (Nat.le_antisymm hq hq')
      omega

theorem year_eq (h : EraDay n c q y r) :
    (n - n / 1460 + n / 36524 - n / 146096) / 365 = 100 * c + 4 * q + y := by
  rcases Nat.lt_or_ge n 146096 with hlt | hge
  · have hcentury := h.lt_century hlt
    obtain ⟨hc, hq, hy, hr, hlast, hn⟩ := h
    have hyear : r = 365 → y = 3 := fun hr => (hlast hr).1
    clear hlast
    have hhundreds : n / 36524 = c := by omega
    have hlater : n / 146096 = 0 := by omega
    have hleap : n / 1460 = 25 * c + q + (24 * c + q + 365 * y + r) / 1460 := by omega
    rw [hhundreds, hlater, hleap]
    -- The days before count one leap day too many at most, and only in the last year of a group.
    rcases Nat.lt_or_ge (24 * c + q + 365 * y + r) 1460 with hfew | hmany
    · rw [Nat.div_eq_of_lt hfew]
      omega
    · have hone : (24 * c + q + 365 * y + r) / 1460 = 1 := by omega
      rw [hone]
      omega
  · obtain ⟨hc, hq, hy, hr, -, rfl⟩ := h
    obtain ⟨rfl, rfl, rfl, rfl⟩ : c = 3 ∧ q = 24 ∧ y = 3 ∧ r = 365 := by omega
    decide

theorem dayOfYear_eq (h : EraDay n c q y r) :
    n - (365 * (100 * c + 4 * q + y) + (100 * c + 4 * q + y) / 4 - (100 * c + 4 * q + y) / 100) =
      r := by
  obtain ⟨hc, hq, hy, hr, hlast, hn⟩ := h
  have hfours : (100 * c + 4 * q + y) / 4 = 25 * c + q := by omega
  have hhundreds : (100 * c + 4 * q + y) / 100 = c := by omega
  omega

/-- A year with a day 365 ends in a leap year's February. -/
theorem isLeapYear_of_last (h : EraDay n c q y 365) (era : Int) :
    Timestamp.isLeapYear (era * 400 + (100 * c + 4 * q + y : Nat) + 1) = true := by
  obtain ⟨hc, hq, hy, hr, hlast, hn⟩ := h
  obtain ⟨rfl, hcentury⟩ := hlast rfl
  unfold Timestamp.isLeapYear
  rw [Bool.and_eq_true, Bool.or_eq_true, decide_eq_true_eq, decide_eq_true_eq, decide_eq_true_eq]
  refine ⟨by omega, ?_⟩
  rcases Nat.lt_or_ge q 24 with hq' | hq'
  · left
    omega
  · right
    have hc' := hcentury (by omega)
    omega

end EraDay

/-! ## The date of a day -/

/-- The month of a year that begins in March. -/
def monthOf (marchMonth : Nat) : Nat :=
  if marchMonth < 10 then marchMonth + 3 else marchMonth - 9

theorem dateOfDays_eq {days : Int} {c q y r : Nat}
    (h : EraDay ((days + 719468) % 146097).toNat c q y r) :
    dateOfDays days =
      let marchMonth := (5 * r + 2) / 153
      let year := (days + 719468) / 146097 * 400 + (100 * c + 4 * q + y : Nat)
      (if monthOf marchMonth ≤ 2 then year + 1 else year, monthOf marchMonth,
        r - (153 * marchMonth + 2) / 5 + 1) := by
  unfold dateOfDays monthOf
  simp only [h.year_eq, h.dayOfYear_eq]

/-- The year, the month and the day are a date of the calendar. -/
structure IsDate (year : Int) (month day : Nat) : Prop where
  one_le_month : 1 ≤ month
  month_le : month ≤ 12
  one_le_day : 1 ≤ day
  day_le : day ≤ daysInMonth year month

/-- But for February, months have the length that the count of days by months gives them. -/
theorem daysInMonth_monthOf {m : Nat} (hm : m < 11) (year : Int) :
    daysInMonth year (monthOf m) = (153 * (m + 1) + 2) / 5 - (153 * m + 2) / 5 := by
  unfold monthOf daysInMonth
  interval_cases m <;> rfl

theorem daysInMonth_february (year : Int) :
    daysInMonth year (monthOf 11) = if isLeapYear year then 29 else 28 := rfl

theorem daysInMonth_le (year : Int) (month : Nat) : daysInMonth year month ≤ 31 := by
  unfold daysInMonth
  split
  · split <;> decide
  · split <;> decide

theorem isDate_dateOfDays (days : Int) :
    IsDate (dateOfDays days).1 (dateOfDays days).2.1 (dateOfDays days).2.2 := by
  obtain ⟨c, q, y, r, h⟩ := exists_eraDay (n := ((days + 719468) % 146097).toNat) (by omega)
  rw [dateOfDays_eq h]
  have hr := h.days
  obtain ⟨m, hm⟩ : ∃ m, (5 * r + 2) / 153 = m := ⟨_, rfl⟩
  have hmonth : m ≤ 11 := by omega
  simp only [hm]
  refine ⟨?_, ?_, by omega, ?_⟩
  · unfold monthOf
    split <;> omega
  · unfold monthOf
    split <;> omega
  · rcases Nat.lt_or_eq_of_le hmonth with hlt | rfl
    · rw [daysInMonth_monthOf hlt]
      omega
    · rw [if_pos (by decide), daysInMonth_february]
      split
      · omega
      · next hcommon =>
        have hlast : r ≠ 365 := by
          rintro rfl
          exact hcommon (h.isLeapYear_of_last _)
        omega

theorem daysOfDate_dateOfDays (days : Int) :
    daysOfDate (dateOfDays days).1 (dateOfDays days).2.1 (dateOfDays days).2.2 = days := by
  obtain ⟨c, q, y, r, h⟩ := exists_eraDay (n := ((days + 719468) % 146097).toNat) (by omega)
  rw [dateOfDays_eq h]
  have hr := h.days
  obtain ⟨m, hm⟩ : ∃ m, (5 * r + 2) / 153 = m := ⟨_, rfl⟩
  have hmonth : (monthOf m + 9) % 12 = m := by
    unfold monthOf
    split <;> omega
  have hday : (153 * m + 2) / 5 + (r - (153 * m + 2) / 5 + 1) - 1 = r := by omega
  obtain ⟨hc, hq, hy, -, -, hn⟩ := h
  simp only [hm, daysOfDate, hmonth, hday]
  have hyear : ∀ year : Int,
      (if monthOf m ≤ 2 then (if monthOf m ≤ 2 then year + 1 else year) - 1
        else (if monthOf m ≤ 2 then year + 1 else year)) = year := by
    intro year
    split <;> omega
  rw [hyear]
  obtain ⟨era, hera⟩ : ∃ era, (days + 719468) / 146097 = era := ⟨_, rfl⟩
  rw [hera]
  have hfours : (era * 400 + (100 * c + 4 * q + y : Nat)) / 4 = era * 100 + 25 * c + q := by omega
  have hhundreds : (era * 400 + (100 * c + 4 * q + y : Nat)) / 100 = era * 4 + c := by omega
  have heras : (era * 400 + (100 * c + 4 * q + y : Nat)) / 400 = era := by omega
  rw [hfours, hhundreds, heras]
  omega

end Rollout.Timestamp
