import BoundSql.Calendar.Timestamp
import Mathlib.Tactic.SplitIfs

/-!
# Days and microseconds counted and counted back

The date a number of days after 2000-01-01 is that number of days after it, and the timestamp a
number of microseconds after the start of that day is that number of microseconds after it, before
2000 as behind it. In a day count the years begin in March and come in eras of four hundred, so that
the leap days of an era stand at the ends of its years.

* `Date.toDays_of_ofDays?`: dates;
* `TimeOfDay.nanos_ofMicros`: times of day, of which whole days are dropped;
* `Timestamp.toMicros_of_ofMicros?`: timestamps.
-/

namespace BoundSql.Calendar

namespace Date

variable {year : Int} {month day : Nat} {d : Date} {days : Int}

/-- The date with the given parts, if they are those of one. -/
theorem ofParts?_eq_some_iff :
    ofParts? year month day = some d ↔
      (firstYear ≤ year ∧ year ≤ lastYear ∧ 1 ≤ month ∧ month ≤ 12 ∧ 1 ≤ day ∧
        day ≤ daysInMonth year month) ∧ ⟨year, month, day⟩ = d := by
  rw [ofParts?]
  split
  · next h => simp [h]
  · next h => simp [h]

/-- A date is made of its own parts. -/
theorem ofParts?_self (h : ofParts? year month day = some d) :
    ofParts? d.year d.month d.day = some d := by
  obtain ⟨-, rfl⟩ := ofParts?_eq_some_iff.1 h
  exact h

/-- No month has more than 31 days. -/
theorem daysInMonth_le (year : Int) (month : Nat) : daysInMonth year month ≤ 31 := by
  unfold daysInMonth
  split
  · split <;> decide
  all_goals decide

/-- The year of a day of an era, and the day of that year. -/
theorem dayOfYear_bounds {dayOfEra yearOfEra : Int} (hnonneg : 0 ≤ dayOfEra)
    (hlt : dayOfEra < 146097)
    (hyear : yearOfEra =
      (dayOfEra - dayOfEra / 1460 + dayOfEra / 36524 - dayOfEra / 146096) / 365) :
    0 ≤ yearOfEra ∧ yearOfEra < 400 ∧
      0 ≤ dayOfEra - (365 * yearOfEra + yearOfEra / 4 - yearOfEra / 100) ∧
      dayOfEra - (365 * yearOfEra + yearOfEra / 4 - yearOfEra / 100) ≤ 365 := by
  -- A century is a day longer than 36524 days only at the end of the era.
  have hcentury : dayOfEra / 36524 = 0 ∨ dayOfEra / 36524 = 1 ∨ dayOfEra / 36524 = 2 ∨
      dayOfEra / 36524 = 3 ∨ dayOfEra = 146096 := by omega
  rcases hcentury with h | h | h | h | h
  · have : yearOfEra / 100 = 0 := by omega
    omega
  · have : yearOfEra / 100 = 1 := by omega
    omega
  · have : yearOfEra / 100 = 2 := by omega
    omega
  · have : yearOfEra / 100 = 3 := by omega
    omega
  · omega

/-- The date a number of days after 2000-01-01 is that number of days after it. -/
theorem toDays_of_civil (h : civil days = (year, month, day)) : toDays ⟨year, month, day⟩ = days := by
  unfold civil at h
  extract_lets z era dayOfEra yearOfEra dayOfYear monthFromMarch dayOfMonth monthOfYear yearFromMarch
    at h
  have hdays : 0 ≤ dayOfEra ∧ dayOfEra < 146097 := by omega
  have hyear : 0 ≤ yearOfEra ∧ yearOfEra < 400 ∧ 0 ≤ dayOfYear ∧ dayOfYear ≤ 365 :=
    dayOfYear_bounds hdays.1 hdays.2 rfl
  have hcount : days =
      era * 146097 + (365 * yearOfEra + yearOfEra / 4 - yearOfEra / 100) + dayOfYear - epoch := by
    omega
  -- From here on only the bounds of the year and of its day matter.
  clear_value dayOfYear yearOfEra
  have hmonths : 0 ≤ monthFromMarch ∧ monthFromMarch ≤ 11 := by omega
  have hday : dayOfMonth = dayOfYear - (153 * monthFromMarch + 2) / 5 + 1 := rfl
  have hpositive : 1 ≤ dayOfMonth := by omega
  have hmonth : monthOfYear =
      if monthFromMarch < 10 then monthFromMarch + 3 else monthFromMarch - 9 := rfl
  clear_value monthFromMarch dayOfMonth monthOfYear era
  obtain ⟨rfl, rfl, rfl⟩ : _ ∧ _ ∧ _ := by simpa only [Prod.mk.injEq] using h
  have hmarch : ((monthOfYear.toNat : Int) + 9) % 12 = monthFromMarch := by
    split at hmonth <;> omega
  have hyears : (if monthOfYear.toNat ≤ 2 then
      (if monthOfYear ≤ 2 then yearFromMarch + 1 else yearFromMarch) - 1
      else if monthOfYear ≤ 2 then yearFromMarch + 1 else yearFromMarch) = yearFromMarch := by
    split_ifs <;> omega
  have hera : yearFromMarch / 400 = era := by omega
  have hyearOfEra : yearFromMarch - era * 400 = yearOfEra := by omega
  have hcast : (dayOfMonth.toNat : Int) = dayOfMonth := Int.toNat_of_nonneg (by omega)
  rw [toDays]
  dsimp only
  rw [hyears, hera, hyearOfEra, hmarch, hcast, hcount, hday]
  omega

/-- A date that is found for a number of days is that number of days after 2000-01-01. -/
theorem toDays_of_ofDays? (h : ofDays? days = some d) : d.toDays = days := by
  obtain ⟨-, rfl⟩ := ofParts?_eq_some_iff.1 h
  exact toDays_of_civil rfl

end Date

namespace TimeOfDay

/-- A time of day without leap seconds. -/
structure IsPlain (t : TimeOfDay) : Prop where
  /-- It lies in one day. -/
  second_lt : t.second < 86400
  /-- The nanoseconds make up less than a second. -/
  nano_lt : t.nano < 1000000000

variable {micros : Int}

/-- Whole days are dropped from a number of microseconds. -/
theorem nanos_ofMicros (micros : Int) :
    ((ofMicros micros).nanos : Int) = micros % microsPerDay * 1000 := by
  have hpos : 0 ≤ micros % microsPerDay := Int.emod_nonneg _ (by decide)
  rw [nanos, ofMicros]
  dsimp only
  omega

/-- No number of microseconds makes a leap second. -/
theorem isPlain_ofMicros (micros : Int) : (ofMicros micros).IsPlain := by
  have hlt : micros % microsPerDay < 86400000000 := Int.emod_lt_of_pos _ (by decide)
  constructor <;> (rw [ofMicros]; dsimp only; omega)

end TimeOfDay

namespace Timestamp

variable {micros : Int} {t : Timestamp}

/-- A timestamp that is found for a number of microseconds has its date and its time of day. -/
theorem ofMicros?_eq_some_iff : ofMicros? micros = some t ↔
    Date.ofDays? (micros / TimeOfDay.microsPerDay) = some t.date ∧
      TimeOfDay.ofMicros micros = t.time := by
  obtain ⟨date, time⟩ := t
  simp only [ofMicros?, Option.map_eq_some_iff, Timestamp.mk.injEq]
  exact ⟨fun ⟨_, hdate, rfl, htime⟩ => ⟨hdate, htime⟩, fun ⟨hdate, htime⟩ => ⟨_, hdate, rfl, htime⟩⟩

/-- A timestamp that is found for a number of microseconds is that number of microseconds after the
start of 2000-01-01. -/
theorem toMicros_of_ofMicros? (h : ofMicros? micros = some t) : t.toMicros = micros := by
  obtain ⟨hdate, htime⟩ := ofMicros?_eq_some_iff.1 h
  have hdays := Date.toDays_of_ofDays? hdate
  have hnanos := TimeOfDay.nanos_ofMicros micros
  have hsplit := Int.mul_ediv_add_emod micros TimeOfDay.microsPerDay
  rw [htime] at hnanos
  rw [← hdays, TimeOfDay.microsPerDay] at hsplit
  rw [TimeOfDay.microsPerDay] at hnanos
  have htotal : t.date.toDays * 86400000000000 + t.time.nanos = micros * 1000 := by omega
  rw [toMicros, htotal, Int.mul_tdiv_cancel _ (by decide)]

end Timestamp

end BoundSql.Calendar
