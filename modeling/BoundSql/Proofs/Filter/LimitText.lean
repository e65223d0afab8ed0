import BoundSql.Proofs.Filter.LimitNumber
import BoundSql.Proofs.Numeral.RoundTrip

/-!
# The text of a limit

A limit is written only if all its values are numeric, and then it is the texts of these values
without the blanks around them. Each of them is made like a decimal number and is read as a finite
one (`IsFiniteNumber`), so that nothing else can get into a statement through a limit
(`Limit.tokens?_text`).
-/

namespace BoundSql

open Numeral

/-- Whether a text is that of a finite number: it is made like a decimal number, and the
double-precision number that it is read as is finite. -/
def IsFiniteNumber (text : String) : Prop :=
  text.toList ∈ decimalText ∧ ∃ x, Binary64.ofText? text.toList = some x ∧ x.isFinite

/-- The text of a decimal number has no blanks around it. -/
theorem Text.trimmed_of_mem_decimalText {text : String} (h : text.toList ∈ decimalText) :
    Text.trimmed text = text := by
  have hchars := (isPlainNumber_of_mem_decimalText h).chars
  rw [Text.trimmed, Text.trim_of_not_blank fun c hc => isBlank_of_isNumberChar (hchars c hc),
    String.ofList_toList]

/-- A numeric value has a text, which is that of a finite number without the blanks around it. -/
theorem Value.exists_asText?_of_isNumeric {v : Value} (h : v.isNumeric) :
    ∃ text, v.asText? = some text ∧ IsFiniteNumber (Text.trimmed text) := by
  -- The library's own texts have no blanks.
  have hown : ∀ {text : String}, text.toList ∈ decimalText →
      (∃ x, Binary64.ofText? text.toList = some x ∧ x.isFinite) →
      IsFiniteNumber (Text.trimmed text) := by
    intro text hdecimal hread
    rw [Text.trimmed_of_mem_decimalText hdecimal]
    exact ⟨hdecimal, hread⟩
  cases v with
  | null => cases h
  | int i =>
    have hbound : i.toInt.natAbs < 2 ^ 64 := by
      have := i.toInt_lt
      have := i.le_toInt
      omega
    exact ⟨_, rfl, hown (toString_mem_decimalText _) (exists_ofText?_toString hbound)⟩
  | float x =>
    exact ⟨_, rfl, hown (Binary64.toText_mem_decimalText h) ⟨x, Binary64.ofText?_toText h, h⟩⟩
  | decimal d => exact ⟨_, rfl, hown d.toText_mem_decimalText d.exists_ofText?_toText⟩
  | bool b => cases h
  | str s =>
    rw [isNumeric] at h
    split at h
    · next x hx =>
      refine ⟨s, rfl, ?_⟩
      rw [Text.trimmed, IsFiniteNumber, String.toList_ofList]
      exact ⟨mem_decimalText_of_ofText? hx h, x, hx, h⟩
    · cases h
  | blob bytes => cases h

namespace Limit

/-- The values of a limit in the order in which they are written. -/
def values : Limit → List Value
  | count most => [most]
  | range skipped most => [most, skipped]

/-- A numeric value is written as its text without the blanks around it. -/
theorem number?_of_isNumeric {v : Value} (h : v.isNumeric) {text : String}
    (htext : v.asText? = some text) : number? v = some (.number (Text.trimmed text)) := by
  rw [number?, if_pos h, htext, Option.map_some]

/-- A value that is not numeric is not written. -/
theorem number?_of_not_isNumeric {v : Value} (h : v.isNumeric = false) : number? v = none := by
  rw [number?, h, if_neg Bool.false_ne_true]

/-- A limit is left out exactly if one of its values is not numeric. Otherwise it is the keyword
with the text of the count, and with an offset a second keyword with the text of that, each without
the blanks around it and each the text of a finite number. -/
theorem tokens?_text (limit : Limit) :
    (limit.tokens? = none ↔ ∃ v ∈ limit.values, v.isNumeric = false) ∧
    ∀ ts ∈ limit.tokens?,
      match limit with
      | .count most =>
        ∃ n, most.asText? = some n ∧ IsFiniteNumber (Text.trimmed n) ∧
          Sql.render ts = " LIMIT " ++ Text.trimmed n
      | .range skipped most =>
        ∃ n m, most.asText? = some n ∧ IsFiniteNumber (Text.trimmed n) ∧
          skipped.asText? = some m ∧ IsFiniteNumber (Text.trimmed m) ∧
          Sql.render ts = " LIMIT " ++ Text.trimmed n ++ " OFFSET " ++ Text.trimmed m := by
  cases limit with
  | count most =>
    cases hmost : most.isNumeric with
    | false => simp [tokens?, values, number?_of_not_isNumeric hmost, hmost]
    | true =>
      obtain ⟨n, hn, hfinite⟩ := Value.exists_asText?_of_isNumeric hmost
      have htokens : (count most).tokens? = some [.word .limit, .number (Text.trimmed n)] := by
        rw [tokens?, number?_of_isNumeric hmost hn]
        rfl
      refine ⟨by simp [htokens, values, hmost], fun ts hts => ⟨n, hn, hfinite, ?_⟩⟩
      obtain rfl := Option.some.inj (htokens.symm.trans hts)
      rfl
  | range skipped most =>
    cases hmost : most.isNumeric with
    | false => simp [tokens?, values, number?_of_not_isNumeric hmost, hmost]
    | true =>
      obtain ⟨n, hn, hfinite⟩ := Value.exists_asText?_of_isNumeric hmost
      cases hskipped : skipped.isNumeric with
      | false =>
        simp [tokens?, values, number?_of_isNumeric hmost hn, number?_of_not_isNumeric hskipped,
          hskipped]
      | true =>
        obtain ⟨m, hm, hfinite'⟩ := Value.exists_asText?_of_isNumeric hskipped
        have htokens : (range skipped most).tokens? = some [.word .limit, .number (Text.trimmed n),
            .word .offset, .number (Text.trimmed m)] := by
          rw [tokens?, number?_of_isNumeric hmost hn, Option.bind_eq_bind, Option.bind_some,
            number?_of_isNumeric hskipped hm]
          rfl
        refine ⟨by simp [htokens, values, hmost, hskipped],
          fun ts hts => ⟨n, m, hn, hfinite, hm, hfinite', ?_⟩⟩
        obtain rfl := Option.some.inj (htokens.symm.trans hts)
        simp [Sql.render, Sql.Token.text, Sql.Word.text, String.join, String.append_assoc]

end Limit

end BoundSql
