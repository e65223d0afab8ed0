import BoundSql.Proofs.Numeral.Digits
import BoundSql.Proofs.Wire.Identifiers
import BoundSql.Proofs.Wire.Numeric

/-!
# Scalars sent and received

A scalar that is sent to a parameter is received from a column of the same type as it was: truth
values, integers, decimals, bytes, identifiers in their canonical form and texts. An integer that the
type has no room for is refused, and an integer is sent as its decimal text is.

* `ColumnType.Holds`: the values that the types of scalars are made for;
* `Value.Same`: the same value, which for decimals means the same number;
* `Wire.scalar_roundTrip`: what is sent is received.
-/

namespace BoundSql

open Numeral (Decimal IntRange)

/-- The same value; decimals are the same if they denote the same number. -/
def Value.Same : Value → Value → Prop
  | .decimal d, .decimal e => d.toRat = e.toRat
  | v, w => v = w

namespace ColumnType

/-- The range of a type of integers. -/
def intRange? : ColumnType → Option IntRange
  | int2 => some (.signed 16)
  | int4 => some (.signed 32)
  | int8 => some (.signed 64)
  | oid => some (.unsigned 32)
  | _ => none

/-- The values that a type of scalars is made for. -/
inductive Holds : ColumnType → Value → Prop where
  /-- Truth values. -/
  | bool (b : Bool) : Holds .bool (.bool b)
  /-- The integers of the range of the type. -/
  | int {type : ColumnType} {range : IntRange} {i : Int64} (h : type.intRange? = some range)
      (hi : range.contains i.toInt) : type.Holds (.int i)
  /-- Decimals. -/
  | decimal (d : Decimal) : Holds .numeric (.decimal d)
  /-- Bytes. -/
  | blob (bytes : List UInt8) : Holds .bytea (.blob bytes)
  /-- The canonical form of an identifier. -/
  | uuid {s : String} (h : Uuid.IsCanonical s.toList) : Holds .uuid (.str s)
  /-- Texts. -/
  | str {type : ColumnType} (h : type.isText) (s : String) : type.Holds (.str s)

end ColumnType

/-- The bytes of a text are those of this text. -/
theorem Text.ofUtf8?_utf8 (s : String) : ofUtf8? (utf8 s) = some s := by
  have hread : String.fromUTF8? s.toByteArray = some s := dif_pos s.isValidUTF8
  rw [ofUtf8?, utf8, Array.toArray_toList]
  exact hread

/-- Integers are written without blanks. -/
theorem Text.trim_toString (i : ℤ) : trim (toString i).toList = (toString i).toList := by
  refine trim_of_not_blank fun c hc => ?_
  rw [Numeral.toList_toString] at hc
  rcases List.mem_append.1 hc with hc | hc
  · split at hc
    · obtain rfl := List.mem_singleton.1 hc
      decide
    · cases hc
  · exact Unicode.isBlank_of_isDigit (Nat.isDigit_of_mem_toDigits (by decide) (by decide) hc)

namespace Wire

variable {type : ColumnType} {range : IntRange} {width : ℕ} {i : ℤ} {n : Int64} {s : String}

/-! ### Integers -/

/-- An integer that fits is written and read again. -/
theorem exists_fixedInt? (hwidth : 0 < width) (h : (IntRange.signed (8 * width)).contains i) :
    ∃ bytes, fixedInt? width i = some bytes ∧ readInt? width bytes = some i := by
  refine ⟨intBytes width i, ?_, ?_⟩
  · rw [fixedInt?, IntRange.restrict?, if_pos h, Option.map_some]
  · exact readInt?_eq_some_iff.2 ⟨length_intBytes width i, intOf_intBytes hwidth h⟩

/-- An integer that does not fit is refused. -/
theorem encodeInt_of_not_contains (hrange : type.intRange? = some range)
    (hi : range.contains i = false) : encodeInt type i = .error .integerRange := by
  cases type <;> cases hrange <;>
    simp [encodeInt, fixedInt?, IntRange.restrict?, hi, orFail]

/-- An integer of the range of a type is received as it was sent. -/
theorem exists_encodeInt (hrange : type.intRange? = some range) (hi : range.contains n.toInt) :
    ∃ bytes, encodeInt type n.toInt = .ok bytes ∧ decode? type bytes = some (.int n) := by
  -- The three types with a sign differ in their width only.
  have hsigned : ∀ width, 0 < width → (IntRange.signed (8 * width)).contains n.toInt →
      ∃ bytes, orFail .integerRange (fixedInt? width n.toInt) = .ok bytes ∧
        (readInt? width bytes).map (fun i => Value.int (.ofInt i)) = some (.int n) := by
    intro width hwidth hfits
    obtain ⟨bytes, hsend, hreceive⟩ := exists_fixedInt? hwidth hfits
    exact ⟨bytes, by rw [hsend, orFail], by rw [hreceive, Option.map_some, Int64.ofInt_toInt]⟩
  cases type <;> cases hrange
  case int2 => exact hsigned 2 (by decide) hi
  case int4 => exact hsigned 4 (by decide) hi
  case int8 => exact hsigned 8 (by decide) hi
  case oid =>
    have hread : (natOf (intBytes 4 n.toInt) : ℤ) = n.toInt := natOf_intBytes_of_unsigned hi
    refine ⟨intBytes 4 n.toInt, ?_, ?_⟩
    · simp only [encodeInt, IntRange.restrict?, hi, if_true, Option.map_some, orFail]
    · rw [decode?, readNat?, exactly?, if_pos (length_intBytes 4 _), Option.map_some,
        Option.map_some, ← Int64.ofInt_eq_ofNat, hread, Int64.ofInt_toInt]

/-! ### The other scalars -/

/-- Decimals that denote the same number are received. -/
theorem exists_readNumeric? (d : Decimal) :
    ∃ e, readNumeric? (numericBytes d) = some e ∧ d.toRat = e.toRat := by
  by_cases h : d.coefficient = 0
  · refine ⟨_, readNumeric?_numericBytes_zero h, ?_⟩
    simp [Decimal.toRat, h]
  · exact ⟨d, readNumeric?_numericBytes h, rfl⟩

/-- A text is sent to a type of texts as it is. -/
theorem encodeText_of_isText (h : type.isText) : encodeText type s = .ok (Text.utf8 s) := by
  cases type <;> simp_all [encodeText, stringBytes?, orFail, ColumnType.isText]

theorem decode?_utf8 (h : type.isText) : decode? type (Text.utf8 s) = some (.str s) := by
  cases type <;> simp_all [decode?, readString?, ColumnType.isText, Text.ofUtf8?_utf8]

/-- A scalar is received from the type for which it is made as it was sent. -/
theorem ColumnType.Holds.roundTrip {v : Value} (h : type.Holds v) :
    ∃ bytes w, v.bind.encode type = .ok (some bytes) ∧ decode? type bytes = some w ∧ v.Same w := by
  cases h with
  | bool b => cases b <;> exact ⟨_, _, rfl, by decide, rfl⟩
  | @int _ range n hrange hi =>
    obtain ⟨bytes, hsend, hreceive⟩ := exists_encodeInt hrange hi
    exact ⟨bytes, _, congrArg (Except.map some) hsend, hreceive, rfl⟩
  | decimal d =>
    obtain ⟨e, hread, hsame⟩ := exists_readNumeric? d
    exact ⟨_, _, rfl, congrArg (Option.map Value.decimal) hread, hsame⟩
  | blob bytes => exact ⟨bytes, _, rfl, rfl, rfl⟩
  | @uuid s hs =>
    obtain ⟨bytes, hread, hlength, hwrite⟩ := Uuid.exists_ofText? hs
    have hsend : encodeText .uuid s = .ok bytes := by
      simp only [encodeText, Text.trim_of_not_blank hs.isBlank, hread, orFail]
    have hreceive : decode? .uuid bytes = some (.str s) := by
      simp only [decode?, exactly?, if_pos hlength, Option.map_some, textValue, hwrite,
        String.ofList_toList]
    exact ⟨bytes, _, congrArg (Except.map some) hsend, hreceive, rfl⟩
  | str htext s =>
    exact ⟨_, _, congrArg (Except.map some) (encodeText_of_isText htext), decode?_utf8 htext, rfl⟩

/-! ### Integers and their texts -/

/-- A result with a failure for it is the result, but for the failure. -/
theorem toOption_orFail {α : Type} (e : EncodeError) (r : Option α) : (orFail e r).toOption = r := by
  cases r <;> rfl

/-- An integer is sent to a type of numbers or of texts as its decimal text is. -/
theorem toOption_encodeInt (i : ℤ)
    (h : type ∈ [.int2, .int4, .int8, .numeric] ∨ type.isText) :
    (encodeInt type i).toOption = (encodeText type (toString i)).toOption := by
  have hread := Text.trim_toString i ▸ Numeral.readInt?_toString i
  cases type <;> simp [ColumnType.isText] at h
  case int2 | int4 | int8 =>
    simp only [encodeInt, encodeText, toOption_orFail, hread, Option.bind_some]
  -- To the other types an integer is sent as its text.
  all_goals rfl

/-- Scalars are received from the types for which they are made as they were sent; integers beyond
the range of a type are refused; and integers are sent to types of numbers and of texts as their
decimal texts are, or both fail. -/
theorem scalar_roundTrip :
    (∀ {type : ColumnType} {v : Value}, type.Holds v →
      ∃ bytes w, v.bind.encode type = .ok (some bytes) ∧ decode? type bytes = some w ∧ v.Same w) ∧
    (∀ {type : ColumnType} {range : IntRange} {n : Int64}, type.intRange? = some range →
      range.contains n.toInt = false → (Value.int n).bind.encode type = .error .integerRange) ∧
    ∀ {type : ColumnType} (n : Int64), type ∈ [.int2, .int4, .int8, .numeric] ∨ type.isText →
      ((Value.int n).bind.encode type).toOption =
        ((Value.str (toString n.toInt)).bind.encode type).toOption := by
  refine ⟨ColumnType.Holds.roundTrip, fun hrange hi => ?_, fun {type} n htype => ?_⟩
  · exact congrArg (Except.map some) (encodeInt_of_not_contains hrange hi)
  · have hmap : ∀ x : Except EncodeError (List UInt8),
        (x.map some).toOption = x.toOption.map some := by
      intro x
      cases x <;> rfl
    exact (hmap _).trans ((congrArg _ (toOption_encodeInt _ htype)).trans (hmap _).symm)

/-- The decimal with the most digits, whose last group of digits is filled up with zeros for which a
decimal has no room; the first integer beyond the range of its type; and an integer that neither as
such nor as a text is sent to a type that is too small for it. -/
theorem scalar_roundTrip_at_limits :
    let least : Decimal := ⟨true, 79228162514264337593543950335, 27, by decide, by decide⟩
    (∃ bytes w, (Value.decimal least).bind.encode .numeric = .ok (some bytes) ∧
      decode? .numeric bytes = some w ∧ (Value.decimal least).Same w) ∧
    (Value.int 4294967296).bind.encode .oid = .error .integerRange ∧
    ((Value.int (-32769)).bind.encode .int2).toOption = none ∧
      ((Value.str "-32769").bind.encode .int2).toOption = none := by
  intro least
  have hsame := scalar_roundTrip.2.2 (-32769) (.inl (by decide : ColumnType.int2 ∈ _))
  have hint : ((Value.int (-32769)).bind.encode .int2).toOption = none := by decide +kernel
  exact ⟨scalar_roundTrip.1 (.decimal least), scalar_roundTrip.2.1 rfl (by decide), hint,
    hsame.symm.trans hint⟩

end Wire

end BoundSql
