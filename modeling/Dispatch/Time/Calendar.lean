/-
The proleptic Gregorian calendar.

Days are counted from 1970-01-01, in both directions and without a year missing:
year 0 comes before year 1.  The count is easiest when the year begins in March,
because the leap day is then the last of its year and the months before it have
lengths that a linear formula gives.
-/
namespace Dispatch.Time

/-- A day of the calendar. -/
structure Date where
  year : Int
  /-- 1 to 12 -/
  month : Nat
  /-- 1 to 31 -/
  day : Nat
  deriving DecidableEq, Repr

namespace Date

/-- Every fourth year has a leap day, but of the hundreds only every fourth. -/
def isLeapYear (year : Int) : Bool :=
  decide (year % 4 = 0 ∧ (year % 100 ≠ 0 ∨ year % 400 = 0))

/-- How many days a month has; none if there is no such month. -/
def daysInMonth (year : Int) (month : Nat) : Nat :=
  match month with
  | 2 => if isLeapYear year then 29 else 28
  | 4 | 6 | 9 | 11 => 30
  | 1 | 3 | 5 | 7 | 8 | 10 | 12 => 31
  | _ => 0

/-- Whether the day is in the calendar. -/
def IsValid (d : Date) : Prop := 1 ≤ d.day ∧ d.day ≤ daysInMonth d.year d.month

instance (d : Date) : Decidable d.IsValid := inferInstanceAs (Decidable (_ ∧ _))

/-- The days before the given month in a year that begins in March. -/
def daysBeforeMonth (marchMonth : Nat) : Nat := (153 * marchMonth + 2) / 5

/-- The count of days from 1970-01-01 to this one. -/
def dayNumber (d : Date) : Int :=
  let year := if d.month ≤ 2 then d.year - 1 else d.year
  let marchMonth := (d.month + 9) % 12
  365 * year + year / 4 - year / 100 + year / 400 + daysBeforeMonth marchMonth + d.day - 719469

/-- The day with the given number. -/
def ofDayNumber (n : Int) : Date :=
  let z := n + 719468
  let era := z / 146097
  let dayOfEra := (z % 146097).toNat
  let yearOfEra :=
    (dayOfEra - dayOfEra / 1460 + dayOfEra / 36524 - dayOfEra / 146096) / 365
  let dayOfYear := dayOfEra - (365 * yearOfEra + yearOfEra / 4 - yearOfEra / 100)
  let marchMonth := (5 * dayOfYear + 2) / 153
  let month := if marchMonth < 10 then marchMonth + 3 else marchMonth - 9
  { year := 400 * era + yearOfEra + (if month ≤ 2 then 1 else 0)
    month
    day := dayOfYear - daysBeforeMonth marchMonth + 1 }

end Date
end Dispatch.Time
