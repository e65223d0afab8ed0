import BoundSql.Calendar.Scan

/-!
# Times of day

A time of day counts seconds from midnight and nanoseconds of the second. A leap second is the last
second of its minute with a thousand million nanoseconds or more.
-/

namespace BoundSql.Calendar

/-- A time of day. -/
structure TimeOfDay where
  /-- Whole seconds from midnight. -/
  second : Nat
  /-- Nanoseconds from the start of the second; a leap second goes on to twice a second's worth. -/
  nano : Nat
  deriving DecidableEq, Repr

namespace TimeOfDay

/-- Microseconds in a day. -/
def microsPerDay : Int := 86400000000

/-- The time with the given parts, if there is one. The second 60 is a leap second. -/
def ofParts? (hour minute second nano : Nat) : Option TimeOfDay :=
  if hour < 24 ∧ minute < 60 ∧ second ≤ 60 then
    let base := (hour * 60 + minute) * 60
    if second = 60 then some ⟨base + 59, 1000000000 + nano⟩ else some ⟨base + second, nano⟩
  else none

/-- The nanoseconds from midnight. -/
def nanos (t : TimeOfDay) : Nat := t.second * 1000000000 + t.nano

/-- The time a number of microseconds after midnight; days pass unnoticed. -/
def ofMicros (micros : Int) : TimeOfDay :=
  let inDay := (micros % microsPerDay).toNat
  ⟨inDay / 1000000, inDay % 1000000 * 1000⟩

/-- The digits of a fraction of a second: none, three, six or nine. -/
def fractionText (nano : Nat) : List Char :=
  if nano = 0 then []
  else if nano % 1000000 = 0 then '.' :: paddedText 3 (nano / 1000000)
  else if nano % 1000 = 0 then '.' :: paddedText 6 (nano / 1000)
  else '.' :: paddedText 9 nano

/-- The text of a time. -/
def toText (t : TimeOfDay) : List Char :=
  let carry := t.nano / 1000000000
  twoDigitText (t.second / 3600) ++ ':' :: twoDigitText (t.second / 60 % 60) ++
    ':' :: twoDigitText (t.second % 60 + carry) ++ fractionText (t.nano % 1000000000)

/-- Read the second and its fraction after a colon. -/
def readSecond? (s : List Char) : Option ((Nat × Nat) × List Char) := do
  let (second, s) ← twoDigits (← spacedMark ':' s)
  let (nano, s) ← fraction s
  return ((second, nano), s)

/-- Read hour, minute and second joined by colons. -/
def read? (s : List Char) : Option (TimeOfDay × List Char) := do
  let (hour, s) ← twoDigits s
  let (minute, s) ← twoDigits (← spacedMark ':' s)
  let ((second, nano), s) ← readSecond? s
  let time ← ofParts? hour minute second nano
  return (time, s)

/-- Read a time that ends the text but for blanks; the second may be missing. -/
def ofText? (s : List Char) : Option TimeOfDay := do
  let (hour, s) ← twoDigits s
  let (minute, s) ← twoDigits (← spacedMark ':' s)
  let ((second, nano), s) := (readSecond? s).getD ((0, 0), s)
  if Text.trimStart s = [] then ofParts? hour minute second nano else none

end TimeOfDay

end BoundSql.Calendar
