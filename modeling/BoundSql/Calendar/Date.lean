import BoundSql.Calendar.Scan

/-!
# Dates

Dates of the proleptic Gregorian calendar, with a year zero and negative years before it. A date is
counted in days from 2000-01-01. The day count works with years that begin in March, so that the
leap day ends the year.
-/

namespace BoundSql.Calendar

/-- A date by year, month and day. -/
structure Date where
  /-- The year. -/
  year : Int
  /-- The month, from 1. -/
  month : Nat
  /-- The day of the month, from 1. -/
  day : Nat
  deriving DecidableEq, Repr

namespace Date

/-- Whether February has 29 days. -/
def isLeapYear (year : Int) : Bool := year % 4 = 0 && (year % 100 ≠ 0 || year % 400 = 0)

/-- The number of days of a month. -/
def daysInMonth (year : Int) (month : Nat) : Nat :=
  match month with
  | 2 => if isLeapYear year then 29 else 28
  | 4 | 6 | 9 | 11 => 30
  | _ => 31

/-- The first year of the calendar. -/
def firstYear : Int := -262143

/-- The last year of the calendar. -/
def lastYear : Int := 262142

/-- The date with the given parts, if there is one. -/
def ofParts? (year : Int) (month day : Nat) : Option Date :=
  if firstYear ≤ year ∧ year ≤ lastYear ∧ 1 ≤ month ∧ month ≤ 12 ∧ 1 ≤ day ∧
      day ≤ daysInMonth year month then
    some ⟨year, month, day⟩
  else none

/-- Days from 0000-03-01 to 2000-01-01. -/
def epoch : Int := 730425

/-- The number of days from 2000-01-01 to the date. -/
def toDays (d : Date) : Int :=
  let y := if d.month ≤ 2 then d.year - 1 else d.year
  let era := y / 400
  let yearOfEra := y - era * 400
  let monthFromMarch : Int := (d.month + 9) % 12
  let dayOfYear := (153 * monthFromMarch + 2) / 5 + d.day - 1
  era * 146097 + yearOfEra * 365 + yearOfEra / 4 - yearOfEra / 100 + dayOfYear - epoch

/-- The year, month and day a number of days after 2000-01-01. -/
def civil (days : Int) : Int × Nat × Nat :=
  let z := days + epoch
  let era := z / 146097
  let dayOfEra := z - era * 146097
  let yearOfEra := (dayOfEra - dayOfEra / 1460 + dayOfEra / 36524 - dayOfEra / 146096) / 365
  let dayOfYear := dayOfEra - (365 * yearOfEra + yearOfEra / 4 - yearOfEra / 100)
  let monthFromMarch := (5 * dayOfYear + 2) / 153
  let day := dayOfYear - (153 * monthFromMarch + 2) / 5 + 1
  let month := if monthFromMarch < 10 then monthFromMarch + 3 else monthFromMarch - 9
  let year := yearOfEra + era * 400
  (if month ≤ 2 then year + 1 else year, month.toNat, day.toNat)

/-- The date a number of days after 2000-01-01, if the calendar reaches it. -/
def ofDays? (days : Int) : Option Date :=
  let (year, month, day) := civil days
  ofParts? year month day

/-- The text of a year: four digits, or a sign and at least four digits outside 0 to 9999. -/
def yearText (year : Int) : List Char :=
  if 0 ≤ year ∧ year ≤ 9999 then paddedText 4 year.toNat
  else (if year < 0 then '-' else '+') :: paddedText 4 year.natAbs

/-- The text of a date: year, month and day joined by hyphens. -/
def toText (d : Date) : List Char :=
  yearText d.year ++ '-' :: twoDigitText d.month ++ '-' :: twoDigitText d.day

/-- Read year, month and day joined by hyphens, with blanks allowed before each number only. -/
def read? (s : List Char) : Option (Date × List Char) := do
  let (year, s) ← Calendar.year s
  let (month, s) ← twoDigits (← mark '-' s)
  let (day, s) ← twoDigits (← mark '-' s)
  let date ← ofParts? year month day
  return (date, s)

/-- Read a date that ends the text. -/
def ofText? (s : List Char) : Option Date :=
  match read? s with
  | some (date, []) => some date
  | _ => none

end Date

end BoundSql.Calendar
