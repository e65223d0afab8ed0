import BoundSql.Proofs.Numeral.Exactness
import BoundSql.Proofs.Wire.Numeric
import BoundSql.Wire.Encode

/-!
# Decimal texts sent exactly

What is sent for a decimal denotes the number that the decimal denotes (`numericValue?_numericBytes`),
so that a text reaches a column of decimals as the number that is written in it exactly if it is read
so. Texts with more digits than a decimal has room for are rounded, without an error.

* `numericValue?`: the number that the binary form of a decimal denotes;
* `encode_text_exact_iff`: the texts that are sent and read as the number they denote.
-/

namespace BoundSql

open Numeral (Decimal writtenMantissa writtenNumber)

namespace Wire

variable {groups kept : List ℕ} {d : Decimal}

/-- The number that the parts of a binary form denote. -/
def NumericParts.value (parts : NumericParts) : ℚ :=
  (if parts.negative then -1 else 1) *
    (groupsValue 0 parts.groups * 10000 ^ (parts.weight + 1 - parts.groups.length))

/-- The number that a binary form denotes. -/
def numericValue? (bytes : List UInt8) : Option ℚ := (numericParts? bytes).map NumericParts.value

/-- Groups that are left out at the end are made up for by the weight of the others. -/
theorem groupsValue_kept {places zeros : ℕ} (hkept : groups = kept ++ List.replicate zeros 0) :
    (groupsValue 0 kept * 10000 ^ ((groups.length : ℤ) - places - kept.length) : ℚ) =
      groupsValue 0 groups / 10000 ^ places := by
  have hexponent : ((groups.length : ℤ) - places - kept.length) = zeros - places := by
    rw [hkept, List.length_append, List.length_replicate]
    push_cast
    ring
  rw [hexponent, groupsValue_of_kept hkept, zpow_sub₀ (by norm_num), zpow_natCast, zpow_natCast]
  push_cast
  ring

/-- What is sent for a decimal denotes the number that the decimal denotes. -/
theorem numericValue?_numericBytes (d : Decimal) :
    numericValue? (numericBytes d) = some d.toRat := by
  by_cases hzero : d.coefficient = 0
  · have hbytes : natBytes 8 0 = numericLayout false 0 0 [] := by decide
    rw [numericBytes, if_pos hzero, numericValue?, hbytes,
      numericParts?_numericLayout (by simp) (by decide) (by decide) (by decide)]
    simp [NumericParts.value, Decimal.toRat, hzero]
  · obtain ⟨groups, kept, places, zeros, h⟩ := exists_sentAs hzero
    have hplaces := h.places_eq
    have hexponent : (groups.length : ℤ) - places - 1 + 1 - kept.length =
        groups.length - places - kept.length := by ring
    have hpower : (10000 : ℚ) ^ places = 10 ^ (4 * places - d.scale) * 10 ^ d.scale := by
      rw [← pow_add, Nat.sub_add_cancel (by omega), pow_mul]
      norm_num
    rw [numericValue?, h.numericParts?_eq, Option.map_some, NumericParts.value]
    dsimp only
    rw [hexponent, groupsValue_kept h.groups_eq, h.value_eq, hpower, Decimal.toRat]
    push_cast
    field_simp

/-! ### Texts -/

/-- Whether there is room for the number that a text denotes, and for the one in front of its
exponent, from which it is shifted. -/
def HasRoomFor (text : List Char) : Prop :=
  Decimal.CanHold (writtenMantissa text) ∧ Decimal.CanHold (writtenNumber text)

/-- A text, or a floating-point number by the text that it is bound as, is sent to a column of
decimals as the number that is written in it or refused, exactly if it is refused or there is room
for the number; and likewise a text is read as a decimal. In all other cases digits are rounded away,
and nothing tells. -/
theorem encode_text_exact_iff {v : Value} {text : String} (hv : v.bind = ⟨.str, .str text⟩) :
    let trimmed := Text.trim text.toList
    ((∀ sent, v.bind.encode .numeric = .ok sent →
        sent.bind numericValue? = some (writtenNumber trimmed)) ↔
      v.bind.encode .numeric = .error .malformedDecimal ∨ HasRoomFor trimmed) ∧
    ((∀ d, (Value.str text).toDecimal? = some d → d.toRat = writtenNumber trimmed) ↔
      (Value.str text).toDecimal? = none ∨ HasRoomFor trimmed) := by
  intro trimmed
  have hencode : v.bind.encode .numeric =
      (orFail .malformedDecimal (Decimal.ofText? trimmed)).map (some ∘ numericBytes) := by
    rw [hv]
    cases hread : Decimal.ofText? trimmed <;>
      simp [Bound.encode, encodeText, Value.asText?, trimmed, hread, orFail, Except.map]
  have hdecimal : (Value.str text).toDecimal? = Decimal.ofText? trimmed := rfl
  rw [hencode, hdecimal]
  cases hread : Decimal.ofText? trimmed with
  | none => simp [orFail, Except.map]
  | some d =>
    have hiff : d.toRat = writtenNumber trimmed ↔ HasRoomFor trimmed :=
      Decimal.toRat_eq_writtenNumber_iff hread
    simp [orFail, Except.map, numericValue?_numericBytes, hiff]

/-- The least positive number that a decimal denotes is sent and read as it is. -/
theorem encode_text_exact_iff_least :
    let text := "0.0000000000000000000000000001"
    let x : Numeral.Binary64 := ⟨4188260752279232537⟩
    x.toText = text ∧
      (∀ sent, (Value.float x).bind.encode .numeric = .ok sent →
        sent.bind numericValue? = some (1 / 10 ^ 28)) ∧
      ∀ d, (Value.str text).toDecimal? = some d → d.toRat = 1 / 10 ^ 28 := by
  intro text x
  have htext : x.toText = text := by decide +kernel
  have hbind : (Value.float x).bind = ⟨.str, .str text⟩ := by rw [← htext]; rfl
  have hmantissa : writtenMantissa (Text.trim text.toList) = 1 / 10 ^ 28 := by decide +kernel
  have hnumber : writtenNumber (Text.trim text.toList) = 1 / 10 ^ 28 := by decide +kernel
  have hleast : Decimal.CanHold (1 / 10 ^ 28) :=
    ⟨⟨false, 1, 28, by decide, by decide⟩, by decide +kernel⟩
  have hroom : HasRoomFor (Text.trim text.toList) := ⟨hmantissa ▸ hleast, hnumber ▸ hleast⟩
  obtain ⟨hsent, hread⟩ := encode_text_exact_iff hbind
  rw [hnumber] at hsent hread
  exact ⟨htext, hsent.2 (.inr hroom), hread.2 (.inr hroom)⟩

/-- A tenth of it, which is a floating-point number as well, is sent and read as zero. -/
theorem tiny_text_rounded_to_zero :
    let text := "0.00000000000000000000000000001"
    let x : Numeral.Binary64 := ⟨4172965893781238599⟩
    x.toText = text ∧ writtenNumber (Text.trim text.toList) = 1 / 10 ^ 29 ∧
      (Value.float x).bind.encode .numeric = .ok (some (List.replicate 8 0)) ∧
      numericValue? (List.replicate 8 0) = some 0 ∧
      (Value.str text).toDecimal?.map Decimal.toRat = some 0 := by
  intro text x
  exact ⟨by decide +kernel, by decide +kernel, by decide +kernel, by decide +kernel,
    by decide +kernel⟩

end Wire

end BoundSql
