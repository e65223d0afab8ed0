import BoundSql.Calendar.Date
import BoundSql.Calendar.TimeOfDay

/-!
# Timestamps

A timestamp is a date with a time of day, counted in microseconds from the start of 2000-01-01. An
instant is a timestamp in universal time; its text names the offset `+00:00`.
-/

namespace BoundSql.Calendar

/-- A date with a time of day. -/
structure Timestamp where
  /-- The date. -/
  date : Date
  /-- The time of day. -/
  time : TimeOfDay
  deriving DecidableEq, Repr

namespace Timestamp

/-- Microseconds from the start of 2000-01-01, with the part below a microsecond cut off. -/
def toMicros (t : Timestamp) : Int :=
  Int.tdiv (t.date.toDays * 86400000000000 + t.time.nanos) 1000

/-- The timestamp a number of microseconds after the start of 2000-01-01, if the calendar
reaches it. -/
def ofMicros? (micros : Int) : Option Timestamp :=
  (Date.ofDays? (micros / TimeOfDay.microsPerDay)).map fun date =>
    ⟨date, .ofMicros micros⟩

/-- The text with the given character between date and time. -/
def toTextWith (separator : Char) (t : Timestamp) : List Char :=
  t.date.toText ++ separator :: t.time.toText

/-- The text of a timestamp: a space stands between date and time. -/
def toText (t : Timestamp) : List Char := t.toTextWith ' '

/-- The text of an instant. -/
def toInstantText (t : Timestamp) : List Char := t.toTextWith 'T' ++ "+00:00".toList

/-- Read a date, the letter `T` and a time that ends the text; blanks are allowed before numbers,
before marks and at the end. -/
def ofText? (s : List Char) : Option Timestamp := do
  let (year, s) ← Calendar.year s
  let (month, s) ← twoDigits (← spacedMark '-' s)
  let (day, s) ← twoDigits (← spacedMark '-' s)
  let date ← Date.ofParts? year month day
  let (time, s) ← TimeOfDay.read? (← spacedMark 'T' s)
  if Text.trimStart s = [] then return ⟨date, time⟩ else none

/-- Read an offset from universal time, in minutes: the letter `Z`, or a sign, hours and minutes. -/
def readOffset? : List Char → Option (Int × List Char)
  | [] => none
  | c :: s =>
    if c = 'Z' || c = 'z' then some (0, s)
    else if c = '+' || c = '-' || c = '−' then do
      let (hours, s) ← number 2 2 s
      let (minutes, s) ← number 2 2 (← mark ':' s)
      if 60 ≤ minutes ∨ 24 ≤ hours then none
      else
        let offset : Int := hours * 60 + minutes
        return (if c = '+' then offset else -offset, s)
    else none

/-- Move a timestamp by a number of minutes; the second and its fraction stay as they are. -/
def addMinutes? (t : Timestamp) (minutes : Int) : Option Timestamp :=
  let total := (t.time.second / 60 : Nat) + minutes
  (Date.ofDays? (t.date.toDays + total / 1440)).map fun date =>
    ⟨date, (total % 1440).toNat * 60 + t.time.second % 60, t.time.nano⟩

/-- Read an instant: a four-digit year, two digits for every other number, a letter `T` or a space
between date and time, and an offset. The timestamp is in universal time. -/
def ofInstantText? (s : List Char) : Option Timestamp := do
  let (year, s) ← number 4 4 s
  let (month, s) ← number 2 2 (← mark '-' s)
  let (day, s) ← number 2 2 (← mark '-' s)
  let s ← mark 'T' s <|> mark 't' s <|> mark ' ' s
  let (hour, s) ← number 2 2 s
  let (minute, s) ← number 2 2 (← mark ':' s)
  let (second, s) ← number 2 2 (← mark ':' s)
  let (nano, s) ← fraction s
  let (offset, s) ← readOffset? s
  let date ← Date.ofParts? year month day
  let time ← TimeOfDay.ofParts? hour minute second nano
  if s = [] then addMinutes? ⟨date, time⟩ (-offset) else none

end Timestamp

end BoundSql.Calendar
