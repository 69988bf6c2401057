/-
Days and their numbers.

The calendar repeats itself every 400 years.  Within such a span the year of a day is found by a
division from which the leap days have been taken out.  That the division is right is checked at the
first and the last day of each of the 400 years; it holds for the days in between because it never
goes down (`yearOfDay_spec`).

A year begins in March here, so that the leap day is its last day.  The months before February have
lengths that a linear formula gives, and February is as long as the year allows.
-/
import Dispatch.Time.Calendar

namespace Dispatch.Time.Date

/-! ### The year of a day -/

/-- The days before a year, counted from the beginning of a span of 400 years. -/
def daysBeforeYear (y : Nat) : Nat := 365 * y + y / 4 - y / 100 + y / 400

/-- The year of a day in a span of 400 years. -/
def yearOfDay (d : Nat) : Nat := (d - d / 1460 + d / 36524 - d / 146096) / 365

theorem yearOfDay_mono {a b : Nat} (h : a ≤ b) : yearOfDay a ≤ yearOfDay b := by
  refine Nat.div_le_div_right ?_
  omega

/-- The first and the last day of a year. -/
theorem yearOfDay_ends : ∀ y < 400, yearOfDay (daysBeforeYear y) = y ∧
    yearOfDay (daysBeforeYear (y + 1) - 1) = y := by
  decide +kernel

theorem yearOfDay_spec {d : Nat} (hd : d < 146097) : yearOfDay d < 400 ∧
    daysBeforeYear (yearOfDay d) ≤ d ∧ d < daysBeforeYear (yearOfDay d + 1) := by
  have search : ∀ k ≤ 400, d < daysBeforeYear k →
      ∃ y < k, daysBeforeYear y ≤ d ∧ d < daysBeforeYear (y + 1) := by
    intro k
    induction k with
    | zero => exact fun _ h => absurd h (Nat.not_lt_zero d)
    | succ k ih =>
        intro hk h
        by_cases hbefore : d < daysBeforeYear k
        · obtain ⟨y, hy, hyear⟩ := ih (by omega) hbefore
          exact ⟨y, by omega, hyear⟩
        · exact ⟨k, by omega, by omega, h⟩
  obtain ⟨y, hy, hfirst, hlast⟩ := search 400 (Nat.le_refl _) hd
  obtain ⟨hbegin, hend⟩ := yearOfDay_ends y hy
  have hyear : yearOfDay d = y := by
    have h1 := yearOfDay_mono hfirst
    have h2 := yearOfDay_mono (show d ≤ daysBeforeYear (y + 1) - 1 by omega)
    omega
  rw [hyear]
  exact ⟨hy, hfirst, hlast⟩

/-! ### The parts of a day -/

/-- What a day of the calendar is made of: a span of 400 years, a year in it that begins in March,
and a day of this year. -/
structure Places (n : Int) (era : Int) (year day : Nat) : Prop where
  count : n + 719468 = 146097 * era + daysBeforeYear year + day
  inSpan : year < 400
  inYear : daysBeforeYear year + day < daysBeforeYear (year + 1)

/-- The month of a day of a year that begins in March, counted from March. -/
def monthOfDay (day : Nat) : Nat := (5 * day + 2) / 153

/-- The number of a month that is counted from March. -/
def monthOf (marchMonth : Nat) : Nat := if marchMonth < 10 then marchMonth + 3 else marchMonth - 9

theorem exists_places (n : Int) : ∃ era year day, Places n era year day ∧ ofDayNumber n =
    { year := 400 * era + year + if monthOf (monthOfDay day) ≤ 2 then 1 else 0
      month := monthOf (monthOfDay day)
      day := day - daysBeforeMonth (monthOfDay day) + 1 } := by
  obtain ⟨hyear, hfirst, hlast⟩ := yearOfDay_spec (d := ((n + 719468) % 146097).toNat) (by omega)
  generalize hd : ((n + 719468) % 146097).toNat = d at hyear hfirst hlast
  generalize hy : yearOfDay d = y at hyear hfirst hlast
  have hday : d - (365 * y + y / 4 - y / 100) = d - daysBeforeYear y := by
    unfold daysBeforeYear
    omega
  refine ⟨(n + 719468) / 146097, y, d - daysBeforeYear y, ⟨by omega, hyear, by omega⟩, ?_⟩
  rw [← hday, ← hy, ← hd]
  rfl

theorem Places.lt_day {n era : Int} {year day : Nat} (h : Places n era year day) : day < 366 := by
  have hday := h.inYear
  unfold daysBeforeYear at hday
  omega

theorem monthOfDay_lt {day : Nat} (h : day < 366) : monthOfDay day < 12 := by
  unfold monthOfDay
  omega

theorem daysBeforeMonth_le (day : Nat) : daysBeforeMonth (monthOfDay day) ≤ day := by
  unfold daysBeforeMonth monthOfDay
  omega

/-- **The day with a number has this number.** -/
theorem dayNumber_ofDayNumber (n : Int) : (ofDayNumber n).dayNumber = n := by
  obtain ⟨era, year, day, hplaces, heq⟩ := exists_places n
  have hcount := hplaces.count
  have hyear := hplaces.inSpan
  have hmonth := monthOfDay_lt hplaces.lt_day
  have hbefore := daysBeforeMonth_le day
  rw [heq]
  generalize monthOfDay day = month at hmonth hbefore
  have hmarch : (monthOf month + 9) % 12 = month := by
    unfold monthOf
    split <;> omega
  have hmarchYear : (if monthOf month ≤ 2 then
      (400 * era + year + if monthOf month ≤ 2 then 1 else 0) - 1
      else 400 * era + year + if monthOf month ≤ 2 then 1 else 0) = 400 * era + year := by
    split <;> omega
  unfold daysBeforeYear at hcount
  simp only [dayNumber, hmarch, hmarchYear]
  omega

example : ofDayNumber (-1) = ⟨1969, 12, 31⟩ ∧ dayNumber ⟨1969, 12, 31⟩ = -1 := by decide

/-- But for the last one, a month that is counted from March ends where the next one begins. -/
theorem daysInMonth_of_lt (year : Int) {month : Nat} (h : month < 11) :
    daysInMonth year (monthOf month) = daysBeforeMonth (month + 1) - daysBeforeMonth month := by
  match month with
  | 0 | 1 | 2 | 3 | 4 | 5 | 6 | 7 | 8 | 9 | 10 => rfl
  | k + 11 => omega

/-- The last day of a year that begins in March is a leap day. -/
theorem Places.isLeapYear {n era : Int} {year : Nat} (h : Places n era year 365) :
    isLeapYear (400 * era + year + 1) = true := by
  have hday := h.inYear
  have hyear := h.inSpan
  unfold daysBeforeYear at hday
  rw [Date.isLeapYear, decide_eq_true_eq]
  omega

/-- **The day with a number is in the calendar.** -/
theorem isValid_ofDayNumber (n : Int) : (ofDayNumber n).IsValid := by
  obtain ⟨era, year, day, hplaces, heq⟩ := exists_places n
  rw [heq]
  refine ⟨Nat.succ_pos _, ?_⟩
  dsimp only
  by_cases hlast : monthOfDay day = 11
  · have hlong : day < 366 := hplaces.lt_day
    have hleap : day = 365 → isLeapYear (400 * era + year + 1) = true := by
      rintro rfl
      exact hplaces.isLeapYear
    show day - daysBeforeMonth (monthOfDay day) + 1 ≤
      daysInMonth (400 * era + year + if monthOf (monthOfDay day) ≤ 2 then 1 else 0)
        (monthOf (monthOfDay day))
    rw [hlast]
    show day - 337 + 1 ≤ if isLeapYear (400 * era + year + 1) then 29 else 28
    split
    case isTrue => omega
    case isFalse hnot =>
      have hne : day ≠ 365 := fun h => hnot (hleap h)
      omega
  · have hmonth := monthOfDay_lt hplaces.lt_day
    rw [daysInMonth_of_lt _ (show monthOfDay day < 11 by omega)]
    unfold daysBeforeMonth monthOfDay
    omega

/-! ### Days of the calendar -/

variable {d : Date}

theorem IsValid.month (h : d.IsValid) : 1 ≤ d.month ∧ d.month ≤ 12 := by
  obtain ⟨hfirst, hlast⟩ := h
  by_cases hmonth : d.month < 13
  · refine ⟨Nat.pos_of_ne_zero fun hzero => ?_, by omega⟩
    rw [hzero] at hlast
    exact absurd (Nat.le_trans hfirst hlast) (Nat.not_succ_le_zero 0)
  · obtain ⟨k, hk⟩ : ∃ k, d.month = k + 13 := ⟨d.month - 13, by omega⟩
    rw [hk] at hlast
    exact absurd (Nat.le_trans hfirst hlast) (Nat.not_succ_le_zero 0)

theorem daysInMonth_le (year : Int) (month : Nat) : daysInMonth year month ≤ 31 := by
  unfold daysInMonth
  split
  · split <;> decide
  all_goals decide

theorem IsValid.day_le (h : d.IsValid) : d.day ≤ 31 := Nat.le_trans h.2 (daysInMonth_le _ _)

end Dispatch.Time.Date
