/-!
# The Gregorian calendar

A `CivilDate` names a day by year, month and day in the Gregorian calendar, extended to all years;
the year before year 1 is year 0. A day also has a number, counted from 1 January 1970.
-/

namespace LogicalQuery

/-- A day of the calendar. The month and the day count from one. -/
structure CivilDate where
  /-- The year. -/
  year : Int
  /-- The month, from 1 to 12. -/
  month : Nat
  /-- The day of the month. -/
  day : Nat
deriving DecidableEq, Repr

namespace CivilDate

/-- Whether a year has 366 days. -/
def isLeapYear (year : Int) : Bool :=
  year % 4 == 0 && (year % 100 != 0 || year % 400 == 0)

/-- The lengths of the months of a year. -/
def monthLengths (year : Int) : List Nat :=
  [31, if isLeapYear year then 29 else 28, 31, 30, 31, 30, 31, 31, 30, 31, 30, 31]

/-- The number of days from the start of year 1 to the start of the given year. -/
def daysBeforeYear (year : Int) : Int :=
  365 * (year - 1) + (year - 1) / 4 - (year - 1) / 100 + (year - 1) / 400

/-- The number of days from the start of year 1 to 1 January 1970. -/
def epochDays : Int := 719162

/-- Whether the date exists. -/
def isValid (d : CivilDate) : Bool :=
  1 ≤ d.month && 1 ≤ d.day &&
    match (monthLengths d.year)[d.month - 1]? with
    | some length => d.day ≤ length
    | none => false

/-- The number of the day, where 1 January 1970 has number zero. -/
def dayNumber (d : CivilDate) : Int :=
  let before : Nat := ((monthLengths d.year).take (d.month - 1)).foldl (· + ·) 0
  daysBeforeYear d.year + before + d.day - 1 - epochDays

/-- The year that holds the day `n` days after the start of year 1. The mean length of a year
gives it to within one year. -/
def yearOfDay (n : Int) : Int :=
  let guess := n * 400 / 146097 + 1
  if n < daysBeforeYear guess then guess - 1
  else if daysBeforeYear (guess + 1) ≤ n then guess + 1
  else guess

/-- The month that holds a day, from zero, and the day within the month, from zero, by the lengths
of the months. -/
def splitMonths : List Nat → Nat → Nat × Nat
  | [], day => (0, day)
  | length :: lengths, day =>
    if day < length then (0, day)
    else
      let (month, rest) := splitMonths lengths (day - length)
      (month + 1, rest)

/-- The date of the day with the given number. -/
def ofDayNumber (n : Int) : CivilDate :=
  let days := n + epochDays
  let year := yearOfDay days
  let (month, day) := splitMonths (monthLengths year) (days - daysBeforeYear year).toNat
  { year, month := month + 1, day := day + 1 }

end CivilDate

end LogicalQuery
