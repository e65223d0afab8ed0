import BoundSql.Calendar.Timestamp
import BoundSql.Proofs.Calendar.Days
import BoundSql.Proofs.Calendar.Numbers

/-!
# Dates and times written and read

The texts of dates, of times of day without leap seconds and of timestamps are read back as what
they show. The text of an instant is read back only if its year has four digits
(`Timestamp.ofInstantText?_toInstantText` and `Timestamp.ofInstantText?_eq_none`).
-/

namespace BoundSql

/-- The first occurrence of a character stands behind a text without it. -/
theorem Text.replaceFirst_append {old new : Char} {before : List Char} (h : old ∉ before)
    (after : List Char) :
    replaceFirst old new (before ++ old :: after) = before ++ new :: after := by
  induction before with
  | nil => simp [replaceFirst]
  | cons c before ih =>
    rw [List.mem_cons, not_or] at h
    rw [List.cons_append, replaceFirst, if_neg (Ne.symm h.1), ih h.2, List.cons_append]

namespace Calendar

variable {rest : List Char} {c : Char}

namespace Date

variable {d : Date}

/-- The parts of a date have at most two digits, the year apart. -/
theorem parts_lt (h : ofParts? d.year d.month d.day = some d) : d.month < 100 ∧ d.day < 100 := by
  obtain ⟨⟨-, -, -, hmonth, -, hday⟩, -⟩ := ofParts?_eq_some_iff.1 h
  have hdays := daysInMonth_le d.year d.month
  omega

/-- A date is written in digits and signs. -/
theorem isDigit_or_sign_of_mem_toText (hdate : ofParts? d.year d.month d.day = some d)
    (h : c ∈ d.toText) : c.isDigit ∨ c = '-' ∨ c = '+' := by
  obtain ⟨hmonth, hday⟩ := parts_lt hdate
  have hyear : c ∈ yearText d.year → c.isDigit ∨ c = '-' ∨ c = '+' := by
    rw [yearText]
    split_ifs
    · exact fun h => .inl ((spells_paddedText 4 _).isDigit c h)
    · exact fun h => (List.mem_cons.1 h).elim (fun h => .inr (.inl h))
        fun h => .inl ((spells_paddedText 4 _).isDigit c h)
    · exact fun h => (List.mem_cons.1 h).elim (fun h => .inr (.inr h))
        fun h => .inl ((spells_paddedText 4 _).isDigit c h)
  simp only [toText, List.mem_append, List.mem_cons] at h
  rcases h with (h | h | h) | h | h
  · exact hyear h
  · exact .inr (.inl h)
  · exact .inl ((spells_twoDigitText hmonth).isDigit c h)
  · exact .inr (.inl h)
  · exact .inl ((spells_twoDigitText hday).isDigit c h)

/-- A date is written without blanks. -/
theorem isBlank_of_mem_toText (hdate : ofParts? d.year d.month d.day = some d) (h : c ∈ d.toText) :
    Unicode.isBlank c = false := by
  rcases isDigit_or_sign_of_mem_toText hdate h with h | rfl | rfl
  · exact Unicode.isBlank_of_isDigit h
  · decide
  · decide

theorem toText_ne_nil (d : Date) : d.toText ≠ [] := by simp [toText]

/-- A date is read back in front of what follows it. -/
theorem read?_toText (h : ofParts? d.year d.month d.day = some d) (rest : List Char) :
    read? (d.toText ++ rest) = some (d, rest) := by
  obtain ⟨hmonth, hday⟩ := parts_lt h
  have hdash : ∀ tail : List Char, ∀ c ∈ ('-' :: tail).head?, c.isDigit = false := by simp
  simp only [read?, toText, List.append_assoc, List.cons_append, year_yearText d.year (hdash _),
    mark_cons, twoDigits_twoDigitText hmonth, twoDigits_twoDigitText hday, h, Option.bind_eq_bind,
    Option.bind_some, Option.pure_def]

/-- A date is read back. -/
theorem ofText?_toText (h : ofParts? d.year d.month d.day = some d) :
    ofText? d.toText = some d := by
  have hread := read?_toText h []
  rw [List.append_nil] at hread
  rw [ofText?, hread]

end Date

namespace TimeOfDay

variable {t : TimeOfDay}

/-- A time without leap seconds shows its second and its nanosecond as they are. -/
theorem toText_of_isPlain (h : t.IsPlain) : t.toText =
    twoDigitText (t.second / 3600) ++ ':' :: (twoDigitText (t.second / 60 % 60) ++
      ':' :: (twoDigitText (t.second % 60) ++ fractionText t.nano)) := by
  simp only [toText, Nat.div_eq_of_lt h.nano_lt, Nat.mod_eq_of_lt h.nano_lt, Nat.add_zero,
    List.append_assoc, List.cons_append]

/-- A time without leap seconds is made of its own parts. -/
theorem ofParts?_of_isPlain (h : t.IsPlain) :
    ofParts? (t.second / 3600) (t.second / 60 % 60) (t.second % 60) t.nano = some t := by
  have hsecond := h.second_lt
  rw [ofParts?, if_pos (by omega), if_neg (by omega)]
  have htotal : (t.second / 3600 * 60 + t.second / 60 % 60) * 60 + t.second % 60 = t.second := by
    omega
  rw [htotal]

/-- A time without leap seconds is written in digits, colons and a point. -/
theorem isDigit_or_mark_of_mem_toText (h : t.IsPlain) (hmem : c ∈ t.toText) :
    c.isDigit ∨ c = ':' ∨ c = '.' := by
  have hsecond := h.second_lt
  have hfraction : c ∈ fractionText t.nano → c.isDigit ∨ c = '.' := by
    rw [fractionText]
    split_ifs
    · simp
    all_goals
      exact fun h => (List.mem_cons.1 h).elim .inr
        fun h => .inl ((spells_paddedText _ _).isDigit c h)
  have hpart : ∀ {n}, n < 100 → c ∈ twoDigitText n → c.isDigit := fun hn =>
    (spells_twoDigitText hn).isDigit c
  simp only [toText_of_isPlain h, List.mem_append, List.mem_cons] at hmem
  rcases hmem with h | h | h | h | h | h
  · exact .inl (hpart (by omega) h)
  · exact .inr (.inl h)
  · exact .inl (hpart (by omega) h)
  · exact .inr (.inl h)
  · exact .inl (hpart (by omega) h)
  · exact (hfraction h).imp_right .inr

/-- A time without leap seconds is written without blanks. -/
theorem isBlank_of_mem_toText (h : t.IsPlain) (hmem : c ∈ t.toText) :
    Unicode.isBlank c = false := by
  rcases isDigit_or_mark_of_mem_toText h hmem with h | rfl | rfl
  · exact Unicode.isBlank_of_isDigit h
  · decide
  · decide

theorem toText_ne_nil (t : TimeOfDay) : t.toText ≠ [] := by simp [toText]

/-- The second of a time is read back with its fraction. -/
theorem readSecond?_append {second nano : ℕ} (hsecond : second < 60) (hnano : nano < 1000000000)
    (hrest : ∀ c ∈ rest.head?, c.isDigit = false ∧ c ≠ '.') :
    readSecond? (':' :: (twoDigitText second ++ (fractionText nano ++ rest))) =
      some ((second, nano), rest) := by
  simp only [readSecond?, spacedMark_cons (by decide : Unicode.isBlank ':' = false),
    twoDigits_twoDigitText (by omega : second < 100), fraction_fractionText hnano hrest,
    Option.bind_eq_bind, Option.bind_some, Option.pure_def]

/-- A time is read back in front of what does not go on with it. -/
theorem read?_toText (h : t.IsPlain) (hrest : ∀ c ∈ rest.head?, c.isDigit = false ∧ c ≠ '.') :
    read? (t.toText ++ rest) = some (t, rest) := by
  have hsecond := h.second_lt
  have hread := readSecond?_append (Nat.mod_lt t.second (by decide : 0 < 60)) h.nano_lt hrest
  simp only [read?, toText_of_isPlain h, List.append_assoc, List.cons_append,
    twoDigits_twoDigitText (by omega : t.second / 3600 < 100),
    spacedMark_cons (by decide : Unicode.isBlank ':' = false),
    twoDigits_twoDigitText (by omega : t.second / 60 % 60 < 100), hread, ofParts?_of_isPlain h,
    Option.bind_eq_bind, Option.bind_some, Option.pure_def]

/-- A time is read back. -/
theorem ofText?_toText (h : t.IsPlain) : ofText? t.toText = some t := by
  have hsecond := h.second_lt
  have hread : readSecond? (':' :: (twoDigitText (t.second % 60) ++ (fractionText t.nano ++ []))) =
      some ((t.second % 60, t.nano), []) :=
    readSecond?_append (Nat.mod_lt _ (by decide)) h.nano_lt (by simp)
  rw [List.append_nil] at hread
  have hnil : Text.trimStart [] = [] := rfl
  simp only [ofText?, toText_of_isPlain h,
    twoDigits_twoDigitText (by omega : t.second / 3600 < 100),
    spacedMark_cons (by decide : Unicode.isBlank ':' = false),
    twoDigits_twoDigitText (by omega : t.second / 60 % 60 < 100), hread, ofParts?_of_isPlain h,
    Option.bind_eq_bind, Option.bind_some, Option.getD_some, hnil, if_true]

end TimeOfDay

namespace Timestamp

variable {t : Timestamp}

/-- A timestamp is read back behind the letter `T` in the place of the space. -/
theorem ofText?_toTextWith (hdate : Date.ofParts? t.date.year t.date.month t.date.day = some t.date)
    (htime : t.time.IsPlain) : ofText? (t.toTextWith 'T') = some t := by
  obtain ⟨hmonth, hday⟩ := Date.parts_lt hdate
  have hdash : ∀ tail : List Char, ∀ c ∈ ('-' :: tail).head?, c.isDigit = false := by simp
  have hminus : Unicode.isBlank '-' = false := by decide
  have hletter : Unicode.isBlank 'T' = false := by decide
  have hread : TimeOfDay.read? (t.time.toText ++ []) = some (t.time, []) :=
    TimeOfDay.read?_toText htime (by simp)
  rw [List.append_nil] at hread
  have hnil : Text.trimStart [] = [] := rfl
  simp only [ofText?, toTextWith, Date.toText, List.append_assoc, List.cons_append,
    year_yearText t.date.year (hdash _), spacedMark_cons hminus,
    spacedMark_cons hletter, twoDigits_twoDigitText hmonth,
    twoDigits_twoDigitText hday, hdate, hread, hnil, Option.bind_eq_bind, Option.bind_some,
    Option.pure_def, if_true]

/-- Universal time has no offset. -/
theorem readOffset?_universal : readOffset? "+00:00".toList = some (0, []) := by decide +kernel

/-- A timestamp without leap seconds does not move by no minutes. -/
theorem addMinutes?_zero (hdate : Date.ofDays? t.date.toDays = some t.date)
    (htime : t.time.IsPlain) : t.addMinutes? 0 = some t := by
  have hsecond := htime.second_lt
  have hdays : ((t.time.second / 60 : ℕ) + 0 : ℤ) / 1440 = 0 := by omega
  have hseconds : (((t.time.second / 60 : ℕ) + 0 : ℤ) % 1440).toNat * 60 + t.time.second % 60 =
      t.time.second := by omega
  simp only [addMinutes?, hdays, Int.add_zero t.date.toDays, hdate, Option.map_some, hseconds]

/-- The text of an instant begins with its year. -/
theorem toInstantText_eq (t : Timestamp) : t.toInstantText = Date.yearText t.date.year ++
    '-' :: (twoDigitText t.date.month ++ '-' :: (twoDigitText t.date.day ++
      'T' :: (t.time.toText ++ "+00:00".toList))) := by
  rw [toInstantText, toTextWith, Date.toText]
  simp only [List.append_assoc, List.cons_append]

/-- An instant is read back if its year has four digits. -/
theorem ofInstantText?_toInstantText (hdate : Date.ofDays? t.date.toDays = some t.date)
    (htime : t.time.IsPlain) (hyear : 0 ≤ t.date.year ∧ t.date.year ≤ 9999) :
    ofInstantText? t.toInstantText = some t := by
  have hparts := Date.ofParts?_self hdate
  obtain ⟨hmonth, hday⟩ := Date.parts_lt hparts
  have hplain := htime.second_lt
  have hhour : t.time.second / 3600 < 100 := by omega
  have hminute : t.time.second / 60 % 60 < 100 := by omega
  have hsecond : t.time.second % 60 < 100 := by omega
  have hfour : ∀ rest : List Char,
      number 4 4 (Date.yearText t.date.year ++ rest) = some (t.date.year.toNat, rest) := fun rest =>
    (spells_yearText hyear).number le_rfl le_rfl (.inl rfl)
  have htwo : ∀ {n} (_ : n < 100) (rest : List Char),
      number 2 2 (twoDigitText n ++ rest) = some (n, rest) := fun hn rest =>
    (spells_twoDigitText hn).number le_rfl le_rfl (.inl rfl)
  have hfraction : fraction (TimeOfDay.fractionText t.time.nano ++ "+00:00".toList) =
      some (t.time.nano, "+00:00".toList) := by
    refine fraction_fractionText htime.nano_lt fun c hc => ?_
    have hhead : "+00:00".toList.head? = some '+' := rfl
    obtain rfl := Option.some.inj (hhead.symm.trans hc)
    decide
  rw [toInstantText_eq, TimeOfDay.toText_of_isPlain htime]
  simp only [List.append_assoc, List.cons_append]
  -- One step for each part of the text.
  refine Option.bind_eq_some_iff.2 ⟨_, hfour _, ?_⟩
  refine Option.bind_eq_some_iff.2 ⟨_, mark_cons '-' _, ?_⟩
  refine Option.bind_eq_some_iff.2 ⟨_, htwo hmonth _, ?_⟩
  refine Option.bind_eq_some_iff.2 ⟨_, mark_cons '-' _, ?_⟩
  refine Option.bind_eq_some_iff.2 ⟨_, htwo hday _, ?_⟩
  refine Option.bind_eq_some_iff.2 ⟨_, congrArg (· <|> _) (mark_cons 'T' _), ?_⟩
  refine Option.bind_eq_some_iff.2 ⟨_, htwo hhour _, ?_⟩
  refine Option.bind_eq_some_iff.2 ⟨_, mark_cons ':' _, ?_⟩
  refine Option.bind_eq_some_iff.2 ⟨_, htwo hminute _, ?_⟩
  refine Option.bind_eq_some_iff.2 ⟨_, mark_cons ':' _, ?_⟩
  refine Option.bind_eq_some_iff.2 ⟨_, htwo hsecond _, ?_⟩
  refine Option.bind_eq_some_iff.2 ⟨_, hfraction, ?_⟩
  refine Option.bind_eq_some_iff.2 ⟨_, readOffset?_universal, ?_⟩
  dsimp only
  rw [Int.toNat_of_nonneg hyear.1]
  refine Option.bind_eq_some_iff.2 ⟨_, hparts, ?_⟩
  refine Option.bind_eq_some_iff.2 ⟨_, TimeOfDay.ofParts?_of_isPlain htime, ?_⟩
  rw [if_pos rfl]
  exact addMinutes?_zero hdate htime

/-- The sign of a year with more than four digits, or of a negative one, is not read. -/
theorem ofInstantText?_eq_none (hyear : ¬(0 ≤ t.date.year ∧ t.date.year ≤ 9999)) :
    ofInstantText? t.toInstantText = none := by
  have hsign : ∀ rest : List Char, number 4 4 (Date.yearText t.date.year ++ rest) = none := by
    intro rest
    rw [yearText_of_outside hyear, List.cons_append]
    split_ifs <;> rfl
  rw [toInstantText_eq, ofInstantText?, hsign]
  rfl

end Timestamp

end Calendar

end BoundSql
