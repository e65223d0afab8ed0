import BoundSql.Filter.Compile
import BoundSql.Proofs.Numeral.Digits
import BoundSql.Proofs.Sql.DecimalText
import BoundSql.Proofs.Text.Blanks

/-!
# The numbers of limits

A limit is the only part of a statement into which the text of a value goes without quotes. Such a
text is that of a decimal number (`Limit.decimalText_of_number?`): the texts of integers, decimals
and finite floating-point numbers are, and a text that is numeric is one for the reader of
floating-point numbers, which reads nothing else as a finite number.
-/

namespace BoundSql.Numeral

open Language

/-- A decimal that is written out is digits, with a point among them if it has places. -/
theorem positional_mem_mantissa (digits : Nat) (place : Int) :
    positional digits place ∈ mantissa := by
  have htext : ∀ d ∈ Nat.toDigits 10 digits, d.isDigit := fun d hd =>
    Nat.isDigit_of_mem_toDigits (by decide) (by decide) hd
  have hzero : ∀ n, ∀ d ∈ List.replicate n '0', d.isDigit := by
    intro n d hd
    obtain rfl := List.eq_of_mem_replicate hd
    decide
  rw [positional]
  split
  · refine mem_mantissa_of_digits ⟨by simp [Nat.toDigits_ne_nil], fun c hc => ?_⟩
    rcases List.mem_append.1 hc with hc | hc
    · exact htext c hc
    · exact hzero _ c hc
  · -- The digits on both sides of the point are those of the padded text, which is long enough.
    have hpadded : ∀ d ∈
        List.replicate ((-place).toNat + 1 - (Nat.toDigits 10 digits).length) '0' ++
          Nat.toDigits 10 digits, d.isDigit := by
      intro d hd
      rcases List.mem_append.1 hd with hd | hd
      · exact hzero _ d hd
      · exact htext d hd
    refine mem_mantissa_of_point (fun c hc => hpadded c (List.mem_of_mem_take hc))
      (fun c hc => hpadded c (List.mem_of_mem_drop hc)) (Or.inr fun hnil => ?_)
    have hlength := congrArg List.length hnil
    simp only [List.length_drop, List.length_append, List.length_replicate, List.length_nil]
      at hlength
    omega

/-- A minus sign, or none, before digits with or without a point. -/
theorem mem_decimalText_of_mantissa (negative : Bool) {s : List Char} (h : s ∈ mantissa) :
    (if negative then ['-'] else []) ++ s ∈ decimalText := by
  have hsign : (if negative then ['-'] else []) ∈ sign := by
    cases negative
    · exact Or.inl rfl
    · exact Or.inr (Or.inr rfl)
  have hpower : [] ∈ 1 + exponent := Or.inl nil_mem_one
  have hall := append_mem_mul (append_mem_mul hsign h) hpower
  rwa [List.append_nil] at hall

theorem Binary64.toText_mem_decimalText {x : Binary64} (h : x.isFinite) :
    x.toText.toList ∈ decimalText := by
  rw [isFinite] at h
  split at h
  · next negative significand exponent hx =>
    rw [toText, hx]
    simp only [String.toList_ofList]
    exact mem_decimalText_of_mantissa _ (positional_mem_mantissa _ _)
  · exact absurd h (by decide)

theorem Decimal.toText_mem_decimalText (d : Decimal) : d.toText.toList ∈ decimalText := by
  rw [toText, String.toList_ofList]
  exact mem_decimalText_of_mantissa _ (positional_mem_mantissa _ _)

theorem toString_mem_decimalText (i : Int) : (toString i).toList ∈ decimalText := by
  have hdigits : Nat.toDigits 10 i.natAbs ∈ mantissa :=
    mem_mantissa_of_digits ⟨Nat.toDigits_ne_nil, fun c hc =>
      Nat.isDigit_of_mem_toDigits (by decide) (by decide) hc⟩
  rw [toList_toString]
  simpa using mem_decimalText_of_mantissa (decide (i < 0)) hdigits

theorem mem_digits_of_readNat? {s : List Char} {n : Nat} (h : readNat? s = some n) :
    s ∈ digits := by
  rw [readNat?] at h
  split at h
  · next hs => exact ⟨hs.1, by simpa using hs.2⟩
  · simp at h

/-- A text that is read as an integer is digits behind at most one sign. -/
theorem mem_sign_mul_digits_of_readInt? {s : List Char} {i : Int} (h : readInt? s = some i) :
    s ∈ sign * digits := by
  fun_cases readInt? s with
  | case1 rest =>
    obtain ⟨n, hn, -⟩ := Option.map_eq_some_iff.1 h
    obtain ⟨m, hm, -⟩ := Option.bind_eq_some_iff.1 hn
    exact append_mem_mul (a := ['-']) (Or.inr (Or.inr rfl)) (mem_digits_of_readNat? hm)
  | case2 _ hminus =>
    rw [readInt?.eq_2 _ hminus] at h
    obtain ⟨n, hn, -⟩ := Option.map_eq_some_iff.1 h
    fun_cases readUnsigned? s with
    | case1 rest =>
      exact append_mem_mul (a := ['+']) (Or.inr (Or.inl rfl)) (mem_digits_of_readNat? hn)
    | case2 _ hplus =>
      rw [readUnsigned?.eq_2 _ hplus] at hn
      exact append_mem_mul (a := []) (Or.inl rfl) (mem_digits_of_readNat? hn)

theorem mem_exponent_of_readExponent? {s : List Char} {e : Int}
    (h : FloatReading.readExponent? s = some e) : s ∈ 1 + exponent := by
  cases s with
  | nil => exact Or.inl rfl
  | cons c rest =>
    rw [FloatReading.readExponent?] at h
    split at h
    · next hc =>
      have hletter : [c] ∈ ({['e'], ['E']} : Language Char) := by
        rcases (by simpa using hc : c = 'e' ∨ c = 'E') with rfl | rfl
        · exact Or.inl rfl
        · exact Or.inr rfl
      rw [exponent, mul_assoc]
      exact Or.inr (append_mem_mul hletter (mem_sign_mul_digits_of_readInt? h))
    · simp at h

/-- A decimal without sign is digits with or without a point before the text of an exponent. -/
theorem mem_mantissa_of_readDecimal? {s : List Char} {size : FloatSize}
    (h : FloatReading.readDecimal? s = some size) : s ∈ mantissa * (1 + exponent) := by
  have hdigits : ∀ t : List Char, ∀ c ∈ t.takeWhile Char.isDigit, c.isDigit := fun _ c hc =>
    List.all_eq_true.1 List.all_takeWhile c hc
  have hs := List.takeWhile_append_dropWhile (p := Char.isDigit) (l := s)
  rw [FloatReading.readDecimal?] at h
  dsimp only at h
  -- With a point there are digits on one of its sides, without one there are digits.
  split at h
  · next rest hrest =>
    split at h
    · exact absurd h (by simp)
    · next hne =>
      obtain ⟨e, he, -⟩ := Option.map_eq_some_iff.1 h
      have hr := List.takeWhile_append_dropWhile (p := Char.isDigit) (l := rest)
      have hmantissa := mem_mantissa_of_point (hdigits s) (hdigits rest) (not_and_or.1 hne)
      have hall := append_mem_mul hmantissa (mem_exponent_of_readExponent? he)
      rwa [List.append_assoc, List.cons_append, hr, ← hrest, hs] at hall
  · split at h
    · exact absurd h (by simp)
    · next hne =>
      obtain ⟨e, he, -⟩ := Option.map_eq_some_iff.1 h
      have hmantissa : s.takeWhile Char.isDigit ∈ mantissa :=
        mem_mantissa_of_digits ⟨fun hnil => hne ⟨hnil, rfl⟩, hdigits s⟩
      have hall := append_mem_mul hmantissa (mem_exponent_of_readExponent? he)
      rwa [hs] at hall

/-- What is read as a finite number without sign is a decimal. -/
theorem FloatReading.readDecimal?_of_readSize? {s : List Char} {negative : Bool} {size : FloatSize}
    (h : readSize? s = some size) (hx : (Binary64.ofReading ⟨negative, size⟩).isFinite) :
    readDecimal? s = some size := by
  rw [readSize?] at h
  cases hd : readDecimal? s with
  | some _ => simpa [hd] using h
  | none =>
    -- The words are the infinities and the not-a-number.
    have hword : size = .infinite ∨ size = .nan := by
      rw [hd] at h
      change readWord? s = some size at h
      grind [readWord?]
    rcases hword with rfl | rfl <;> cases negative <;> exact absurd hx (by decide)

/-- What is read as a finite number is the text of a decimal number. -/
theorem mem_decimalText_of_ofText? {s : List Char} {x : Binary64} (h : Binary64.ofText? s = some x)
    (hx : x.isFinite) : s ∈ decimalText := by
  obtain ⟨r, hr, rfl⟩ := Option.map_eq_some_iff.1 h
  rw [decimalText, mul_assoc]
  have hsigned : ∀ (sgn : List Char) {rest : List Char} {negative : Bool}, sgn ∈ sign →
      (FloatReading.readSize? rest).map (FloatReading.mk negative) = some r →
      sgn ++ rest ∈ sign * (mantissa * (1 + exponent)) := by
    intro sgn rest negative hsgn hread
    obtain ⟨size, hsize, rfl⟩ := Option.map_eq_some_iff.1 hread
    have hdecimal := FloatReading.readDecimal?_of_readSize? hsize hx
    exact append_mem_mul hsgn (mem_mantissa_of_readDecimal? hdecimal)
  -- The cases are those of the sign: a minus sign, a plus sign or none.
  fun_cases FloatReading.ofText? s with
  | case1 rest => exact hsigned ['-'] (Or.inr (Or.inr rfl)) hr
  | case2 rest => exact hsigned ['+'] (Or.inr (Or.inl rfl)) hr
  | case3 _ hminus hplus =>
    rw [FloatReading.ofText?.eq_3 _ hminus hplus] at hr
    exact hsigned [] (Or.inl rfl) hr

end BoundSql.Numeral

namespace BoundSql

open Sql

/-- The characters of numbers are no blanks. -/
theorem isBlank_of_isNumberChar {c : Char} (h : isNumberChar c) : Unicode.isBlank c = false := by
  rw [isNumberChar, Bool.or_eq_true, decide_eq_true_eq] at h
  rcases h with h | h
  · exact Unicode.isBlank_of_isDigit h
  · have hmarks : ∀ c ∈ ['+', '-', '.', 'e', 'E'], ¬Unicode.isBlank c :=
      List.any_eq_false.1 (by decide)
    simpa using hmarks c h

/-- The numbers of a limit are written as decimal numbers. -/
theorem Limit.decimalText_of_number? {v : Value} {t : Token} (h : Limit.number? v = some t) :
    ∃ text, t = .number text ∧ text.toList ∈ Numeral.decimalText := by
  rw [Limit.number?] at h
  split at h
  · next hnumeric =>
    obtain ⟨text, htext, rfl⟩ := Option.map_eq_some_iff.1 h
    refine ⟨_, rfl, ?_⟩
    rw [Text.trimmed, String.toList_ofList]
    -- Trimming matters for texts only; the library's own texts have no blanks.
    have hown : text.toList ∈ Numeral.decimalText →
        Text.trim text.toList ∈ Numeral.decimalText := by
      intro hdecimal
      have hchars := (Numeral.isPlainNumber_of_mem_decimalText hdecimal).chars
      rwa [Text.trim_of_not_blank fun c hc => isBlank_of_isNumberChar (hchars c hc)]
    cases v with
    | null => simp [Value.asText?] at htext
    | int i =>
      obtain rfl := Option.some.inj htext
      exact hown (Numeral.toString_mem_decimalText _)
    | float x =>
      obtain rfl := Option.some.inj htext
      exact hown (Numeral.Binary64.toText_mem_decimalText hnumeric)
    | decimal d =>
      obtain rfl := Option.some.inj htext
      exact hown d.toText_mem_decimalText
    | bool b => simp [Value.isNumeric] at hnumeric
    | str s =>
      obtain rfl := Option.some.inj htext
      rw [Value.isNumeric] at hnumeric
      split at hnumeric
      · next x hx => exact Numeral.mem_decimalText_of_ofText? hx hnumeric
      · simp at hnumeric
    | blob bytes => simp [Value.asText?] at htext
  · simp at h

theorem Limit.clean_of_number? {v : Value} {t : Token} (h : Limit.number? v = some t) :
    t.Clean := by
  obtain ⟨text, rfl, htext⟩ := Limit.decimalText_of_number? h
  exact Numeral.isPlainNumber_of_mem_decimalText htext

/-- A limit that is written is a number behind its keyword, and perhaps another one behind a second
keyword. -/
theorem Limit.exists_of_tokens? {limit : Limit} {ts : Tokens} (h : limit.tokens? = some ts) :
    ∃ most t, number? most = some t ∧
      (ts = [.word .limit, t] ∨
        ∃ skipped u, number? skipped = some u ∧ ts = [.word .limit, t, .word .offset, u]) := by
  cases limit with
  | count most =>
    obtain ⟨t, ht, hts⟩ := Option.bind_eq_some_iff.1 h
    obtain rfl := Option.some.inj hts
    exact ⟨most, t, ht, .inl rfl⟩
  | range skipped most =>
    obtain ⟨t, ht, hrest⟩ := Option.bind_eq_some_iff.1 h
    obtain ⟨u, hu, hts⟩ := Option.bind_eq_some_iff.1 hrest
    obtain rfl := Option.some.inj hts
    exact ⟨most, t, ht, .inr ⟨skipped, u, hu, rfl⟩⟩

end BoundSql
