/-!
# `Onadata.Lib.CivilDate`: calendar dates

The date in the Gregorian calendar of a day that is counted from 1970-01-01, and the decimal
numbers with leading zeros that `strftime` writes.
-/

set_option autoImplicit false

namespace Onadata.Lib

/-- `calendar.isleap(year)`. -/
def isLeapYear (year : Nat) : Bool :=
  year % 4 = 0 && (year % 100 ≠ 0 || year % 400 = 0)

/-- The number of days of a year. -/
def daysInYear (year : Nat) : Nat :=
  if isLeapYear year then 366 else 365

/-- The number of days of a month. January is 1. -/
def daysInMonth (year month : Nat) : Nat :=
  if month = 2 then if isLeapYear year then 29 else 28
  else if month = 4 ∨ month = 6 ∨ month = 9 ∨ month = 11 then 30
  else 31

/-- The period in which a day falls, and the days of that period before it. The periods start
with `period`, and `fuel` bounds how many of them are passed. -/
def findPeriod (length : Nat → Nat) : (fuel period day : Nat) → Nat × Nat
  | 0, period, day => (period, day)
  | fuel + 1, period, day =>
      if day < length period then (period, day)
      else findPeriod length fuel (period + 1) (day - length period)

/-- A date. Months and days count from 1. -/
structure CivilDate where
  year : Nat
  month : Nat
  day : Nat
  deriving DecidableEq, Repr

/-- The date of the day that comes `days` days after 1970-01-01. -/
def civilDate (days : Nat) : CivilDate :=
  let year := findPeriod daysInYear days 1970 days
  let month := findPeriod (daysInMonth year.1) 12 1 year.2
  { year := year.1, month := month.1, day := month.2 + 1 }

example : civilDate 20181 = { year := 2025, month := 4, day := 3 } := by decide

/-- The last `width` decimal digits of a number. -/
def decimalDigits : (width n : Nat) → List Char
  | 0, _ => []
  | width + 1, n => decimalDigits width (n / 10) ++ [Nat.digitChar (n % 10)]

end Onadata.Lib
