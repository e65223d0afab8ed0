import BoundSql.Proofs.Calendar.Reading
import BoundSql.Proofs.Wire.Integers

/-!
# Dates and times written back

A date or a time that was read from a column is a text, and this text is sent to a parameter of the
type of the column as the bytes that were read. This holds of all dates and timestamps. Of the times
of day it holds if they lie within one day, so that it fails at the end of the day, which is read as
its start; of the instants it holds if their year has four digits, because other years are written
with a sign that is not read.

* `Wire.encode_bind_moment_iff`: when the bytes that were read are sent again;
* `Wire.endOfDay_and_year_10000_not_sent_back`: two values of which they are not.
-/

namespace BoundSql

open Calendar (Date TimeOfDay Timestamp)

/-- The types of dates and times. -/
def ColumnType.isMoment : ColumnType → Bool
  | date | time | timestamp | timestamptz => true
  | _ => false

namespace Wire

/-- The counts of days or microseconds of which the text shows all that is read from it: for times
those of one day, and for instants those of the years with four digits. -/
def IsShownInFull : ColumnType → ℤ → Prop
  | .time, micros => 0 ≤ micros ∧ micros < TimeOfDay.microsPerDay
  | .timestamptz, micros =>
    ∀ t ∈ Timestamp.ofMicros? micros, 0 ≤ t.date.year ∧ t.date.year ≤ 9999
  | _, _ => True

variable {type : ColumnType} {bytes : List UInt8} {v : Value} {d : Date} {t : TimeOfDay}
  {stamp : Timestamp} {micros : ℤ}

/-! ### Sending the texts of dates and times -/

/-- A text that is read from a column is sent like any other text. -/
theorem encode_bind_textValue (type : ColumnType) (chars : List Char) :
    (textValue chars).bind.encode type = (encodeText type (String.ofList chars)).map some :=
  rfl

theorem encodeText_date (h : Date.ofDays? d.toDays = some d) :
    encodeText .date (String.ofList d.toText) = .ok (intBytes 4 d.toDays) := by
  have hparts := Date.ofParts?_self h
  have htrim := Text.trim_of_not_blank fun _ => Date.isBlank_of_mem_toText hparts
  simp only [encodeText, String.toList_ofList, htrim, Date.ofText?_toText hparts, orFail, Except.map]

theorem encodeText_time (h : t.IsPlain) :
    encodeText .time (String.ofList t.toText) = .ok (intBytes 8 (t.nanos / 1000)) := by
  have htrim := Text.trim_of_not_blank fun _ => TimeOfDay.isBlank_of_mem_toText h
  simp only [encodeText, String.toList_ofList, htrim, TimeOfDay.ofText?_toText h, orFail, Except.map]

theorem encodeText_timestamp (hdate : Date.ofDays? stamp.date.toDays = some stamp.date)
    (htime : stamp.time.IsPlain) :
    encodeText .timestamp (String.ofList stamp.toText) = .ok (intBytes 8 stamp.toMicros) := by
  have hparts := Date.ofParts?_self hdate
  have hblank : ∀ c ∈ stamp.date.toText, Unicode.isBlank c = false := fun _ =>
    Date.isBlank_of_mem_toText hparts
  have htrim : Text.trim stamp.toText = stamp.toText := by
    have hbetween := Text.trim_between [' '] hblank
      (fun _ => TimeOfDay.isBlank_of_mem_toText htime) stamp.date.toText_ne_nil
      stamp.time.toText_ne_nil
    rwa [List.append_assoc] at hbetween
  -- The space before the time is the first one.
  have hspace : ' ' ∉ stamp.date.toText := fun hmem => absurd (hblank ' ' hmem) (by decide)
  have hletter : Text.replaceFirst ' ' 'T' stamp.toText = stamp.toTextWith 'T' :=
    Text.replaceFirst_append hspace _
  simp only [encodeText, String.toList_ofList, htrim, hletter,
    Timestamp.ofText?_toTextWith hparts htime, orFail, Except.map]

/-- The text of an instant is written without blanks. -/
theorem trim_toInstantText (hdate : Date.ofDays? stamp.date.toDays = some stamp.date) :
    Text.trim stamp.toInstantText = stamp.toInstantText := by
  have hoffset : "+00:00".toList.any Unicode.isBlank = false := by decide
  exact Text.trim_between ('T' :: stamp.time.toText)
    (fun _ => Date.isBlank_of_mem_toText (Date.ofParts?_self hdate))
    (fun c hc => Bool.eq_false_iff.2 (List.any_eq_false.1 hoffset c hc))
    stamp.date.toText_ne_nil (by decide)

theorem encodeText_timestamptz (hdate : Date.ofDays? stamp.date.toDays = some stamp.date)
    (htime : stamp.time.IsPlain) (hyear : 0 ≤ stamp.date.year ∧ stamp.date.year ≤ 9999) :
    encodeText .timestamptz (String.ofList stamp.toInstantText) =
      .ok (intBytes 8 stamp.toMicros) := by
  simp only [encodeText, String.toList_ofList, trim_toInstantText hdate,
    Timestamp.ofInstantText?_toInstantText hdate htime hyear, orFail, Except.map]

/-- An instant of a year that does not have four digits is refused. -/
theorem encodeText_timestamptz_of_outside (hdate : Date.ofDays? stamp.date.toDays = some stamp.date)
    (hyear : ¬(0 ≤ stamp.date.year ∧ stamp.date.year ≤ 9999)) :
    encodeText .timestamptz (String.ofList stamp.toInstantText) = .error .malformedTime := by
  simp only [encodeText, String.toList_ofList, trim_toInstantText hdate,
    Timestamp.ofInstantText?_eq_none hyear, orFail, Except.map]

/-! ### Sending what was read -/

/-- The date of a timestamp that is found for a number of microseconds is found for its day. -/
theorem ofDays?_of_ofMicros? (h : Timestamp.ofMicros? micros = some stamp) :
    Date.ofDays? stamp.date.toDays = some stamp.date := by
  obtain ⟨hdate, -⟩ := Timestamp.ofMicros?_eq_some_iff.1 h
  rwa [Date.toDays_of_ofDays? hdate]

theorem isPlain_of_ofMicros? (h : Timestamp.ofMicros? micros = some stamp) :
    stamp.time.IsPlain := by
  obtain ⟨-, htime⟩ := Timestamp.ofMicros?_eq_some_iff.1 h
  exact htime ▸ TimeOfDay.isPlain_ofMicros micros

/-- A time of day that was read is sent as the part of it that a day leaves over. -/
theorem encodeText_ofMicros (micros : ℤ) :
    encodeText .time (String.ofList (TimeOfDay.ofMicros micros).toText) =
      .ok (intBytes 8 (micros % TimeOfDay.microsPerDay)) := by
  rw [encodeText_time (TimeOfDay.isPlain_ofMicros micros), TimeOfDay.nanos_ofMicros,
    Int.mul_ediv_cancel _ (by decide)]

/-- The bytes of an integer of a signed type are those that stand for it. -/
theorem intBytes_eq_iff {i : ℤ} (hne : bytes ≠ [])
    (h : (Numeral.IntRange.signed (8 * bytes.length)).contains i) :
    intBytes bytes.length i = bytes ↔ i = intOf bytes := by
  constructor
  · intro heq
    rw [← intOf_intBytes (List.length_pos_iff.2 hne) h, heq]
  · rintro rfl
    exact intBytes_intOf bytes

/-- A date is sent as the bytes from which it was read. -/
theorem encode_bind_date (h : decode? .date bytes = some v) :
    v.bind.encode .date = .ok (some bytes) := by
  obtain ⟨days, hdays, hdate⟩ := Option.bind_eq_some_iff.1 h
  obtain ⟨d, hd, hv⟩ := Option.bind_eq_some_iff.1 hdate
  obtain rfl := Option.some.inj hv
  obtain ⟨hlength, rfl⟩ := readInt?_eq_some_iff.1 hdays
  have hcount := Date.toDays_of_ofDays? hd
  rw [encode_bind_textValue, encodeText_date (hcount ▸ hd), hcount, ← hlength, intBytes_intOf]
  rfl

/-- A time of day is sent as the bytes from which it was read if these count the microseconds of one
day. -/
theorem encode_bind_time_iff (h : decode? .time bytes = some v) :
    v.bind.encode .time = .ok (some bytes) ↔
      0 ≤ intOf bytes ∧ intOf bytes < TimeOfDay.microsPerDay := by
  obtain ⟨micros, hmicros, rfl⟩ := Option.map_eq_some_iff.1 h
  obtain ⟨hlength, rfl⟩ := readInt?_eq_some_iff.1 hmicros
  have hne : bytes ≠ [] := List.ne_nil_of_length_pos (hlength ▸ by decide)
  have hpos : 0 ≤ intOf bytes % TimeOfDay.microsPerDay := Int.emod_nonneg _ (by decide)
  have hlt : intOf bytes % TimeOfDay.microsPerDay < TimeOfDay.microsPerDay :=
    Int.emod_lt_of_pos _ (by decide)
  -- What a day leaves over fits the bytes, so that they can be compared as integers.
  have hfits : (Numeral.IntRange.signed (8 * bytes.length)).contains
      (intOf bytes % TimeOfDay.microsPerDay) := by
    rw [hlength, signed_contains_iff]
    unfold TimeOfDay.microsPerDay at *
    norm_num
    omega
  rw [encode_bind_textValue, encodeText_ofMicros, ← hlength]
  simp only [Except.map, Except.ok.injEq, Option.some.injEq, intBytes_eq_iff hne hfits]
  exact ⟨fun heq => heq ▸ ⟨hpos, hlt⟩, fun hday => Int.emod_eq_of_lt hday.1 hday.2⟩

/-- A timestamp is sent as the bytes from which it was read. -/
theorem encode_bind_timestamp (h : decode? .timestamp bytes = some v) :
    v.bind.encode .timestamp = .ok (some bytes) := by
  obtain ⟨micros, hmicros, hstamp⟩ := Option.bind_eq_some_iff.1 h
  obtain ⟨stamp, ht, hv⟩ := Option.bind_eq_some_iff.1 hstamp
  obtain rfl := Option.some.inj hv
  obtain ⟨hlength, rfl⟩ := readInt?_eq_some_iff.1 hmicros
  rw [encode_bind_textValue,
    encodeText_timestamp (ofDays?_of_ofMicros? ht) (isPlain_of_ofMicros? ht),
    Timestamp.toMicros_of_ofMicros? ht, ← hlength, intBytes_intOf]
  rfl

/-- An instant is sent as the bytes from which it was read if its year has four digits. -/
theorem encode_bind_timestamptz_iff (h : decode? .timestamptz bytes = some v) :
    v.bind.encode .timestamptz = .ok (some bytes) ↔
      ∀ t ∈ Timestamp.ofMicros? (intOf bytes), 0 ≤ t.date.year ∧ t.date.year ≤ 9999 := by
  obtain ⟨micros, hmicros, hstamp⟩ := Option.bind_eq_some_iff.1 h
  obtain ⟨stamp, ht, hv⟩ := Option.bind_eq_some_iff.1 hstamp
  obtain rfl := Option.some.inj hv
  obtain ⟨hlength, rfl⟩ := readInt?_eq_some_iff.1 hmicros
  simp only [encode_bind_textValue, ht, Option.mem_some, forall_eq']
  by_cases hyear : 0 ≤ stamp.date.year ∧ stamp.date.year ≤ 9999
  · rw [encodeText_timestamptz (ofDays?_of_ofMicros? ht) (isPlain_of_ofMicros? ht) hyear,
      Timestamp.toMicros_of_ofMicros? ht, ← hlength, intBytes_intOf]
    exact iff_of_true rfl hyear
  · rw [encodeText_timestamptz_of_outside (ofDays?_of_ofMicros? ht) hyear]
    exact iff_of_false nofun hyear

/-- A date or a time that was read from a column is sent to a parameter of the type of the column as
the bytes that were read exactly if its text shows all of it. -/
theorem encode_bind_moment_iff (htype : type.isMoment) (h : decode? type bytes = some v) :
    v.bind.encode type = .ok (some bytes) ↔ IsShownInFull type (intOf bytes) := by
  cases type with
  | date => exact iff_of_true (encode_bind_date h) trivial
  | time => exact encode_bind_time_iff h
  | timestamp => exact iff_of_true (encode_bind_timestamp h) trivial
  | timestamptz => exact encode_bind_timestamptz_iff h
  | _ => cases htype

/-- The last microsecond before 2000. -/
theorem encode_bind_moment_iff_before_2000 :
    let bytes := List.replicate 8 255
    let text := "1999-12-31T23:59:59.999999+00:00"
    decode? .timestamptz bytes = some (.str text) ∧
      (Value.str text).bind.encode .timestamptz = .ok (some bytes) := by
  intro bytes text
  have h : decode? .timestamptz bytes = some (.str text) := by decide +kernel
  have hstamp : Timestamp.ofMicros? (intOf bytes) = some ⟨⟨1999, 12, 31⟩, ⟨86399, 999999000⟩⟩ := by
    decide +kernel
  refine ⟨h, (encode_bind_moment_iff rfl h).2 fun t ht => ?_⟩
  obtain rfl := Option.some.inj (hstamp.symm.trans ht)
  decide

/-- The end of a day is read as its start and sent as such, and the text of an instant of the year
10000 is refused by a parameter of the type from which it was read. -/
theorem endOfDay_and_year_10000_not_sent_back :
    let endOfDay := [0, 0, 0, 20, 29, 215, 96, 0]
    let year10000 := [3, 128, 231, 11, 145, 59, 128, 0]
    (intOf endOfDay = TimeOfDay.microsPerDay ∧
      decode? .time endOfDay = some (.str "00:00:00") ∧
      (Value.str "00:00:00").bind.encode .time = .ok (some [0, 0, 0, 0, 0, 0, 0, 0])) ∧
    decode? .timestamptz year10000 = some (.str "+10000-01-01T00:00:00+00:00") ∧
      (Value.str "+10000-01-01T00:00:00+00:00").bind.encode .timestamptz =
        .error .malformedTime := by
  decide +kernel

end Wire

end BoundSql
