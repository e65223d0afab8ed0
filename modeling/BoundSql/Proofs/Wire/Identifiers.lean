import BoundSql.Proofs.Text.Blanks
import BoundSql.Uuid
import Mathlib.Data.List.Basic

/-!
# Identifiers read back

The canonical form of a universally unique identifier consists of groups of lowercase hexadecimal
digits between hyphens (`Uuid.IsCanonical`). It is read as sixteen bytes, and these bytes are written
in it again (`Uuid.exists_ofText?`).
-/

namespace BoundSql

namespace Text

variable {c mark : Char} {s piece rest : List Char}

/-- The digits of hexadecimal numbers, in lowercase. -/
def hexDigits : List Char :=
  ['0', '1', '2', '3', '4', '5', '6', '7', '8', '9', 'a', 'b', 'c', 'd', 'e', 'f']

/-- A hexadecimal digit in lowercase is read and written again. -/
theorem exists_hexDigit? (h : c ∈ hexDigits) :
    ∃ value < 16, hexDigit? c = some value ∧ Nat.digitChar value = c := by
  have hall : hexDigits.all fun c => (hexDigit? c).any fun value =>
      value < 16 && Nat.digitChar value = c := by decide
  obtain ⟨value, hread, hvalue⟩ := (Option.any_eq_true _ _).1 (List.all_eq_true.1 hall c h)
  exact ⟨value, by simpa [hread] using hvalue⟩

/-- Pairs of hexadecimal digits in lowercase are read and written again. -/
theorem exists_ofHex? {count : ℕ} (hlength : s.length = 2 * count)
    (hdigits : ∀ c ∈ s, c ∈ hexDigits) :
    ∃ bytes, ofHex? s = some bytes ∧ bytes.length = count ∧ hex bytes = s := by
  induction count generalizing s with
  | zero =>
    obtain rfl := List.length_eq_zero_iff.1 hlength
    exact ⟨[], rfl, rfl, rfl⟩
  | succ count ih =>
    obtain ⟨high, low, s, rfl⟩ : ∃ high low rest, s = high :: low :: rest := by
      match s, hlength with
      | high :: low :: rest, _ => exact ⟨high, low, rest, rfl⟩
    -- The first two digits are those of the first byte.
    obtain ⟨h, hlt, hhigh, hh⟩ := exists_hexDigit? (hdigits high (by simp))
    obtain ⟨l, llt, hlow, hl⟩ := exists_hexDigit? (hdigits low (by simp))
    obtain ⟨bytes, hread, hcount, hwrite⟩ := ih (s := s)
      (by simp only [List.length_cons] at hlength; omega) fun c hc => hdigits c (by simp [hc])
    refine ⟨.ofNat (h * 16 + l) :: bytes, ?_, by rw [List.length_cons, hcount], ?_⟩
    · simp only [ofHex?, hhigh, hlow, hread]
    · have hbyte : (UInt8.ofNat (h * 16 + l)).toNat = h * 16 + l := by
        rw [UInt8.toNat_ofNat', Nat.mod_eq_of_lt (by omega)]
      have hdiv : (h * 16 + l) / 16 = h := by omega
      have hmod : (h * 16 + l) % 16 = l := by omega
      rw [hex, List.flatMap_cons, hbyte, hdiv, hmod, hh, hl, ← hex, hwrite]
      rfl

/-- Each byte has two digits. -/
theorem hex_take_drop (bytes : List UInt8) (start count : ℕ) :
    hex ((bytes.drop start).take count) = ((hex bytes).drop (2 * start)).take (2 * count) := by
  induction bytes generalizing start count with
  | nil => simp [hex]
  | cons b bytes ih =>
    cases start with
    | zero =>
      cases count with
      | zero => simp [hex]
      | succ count =>
        have hrest := ih 0 count
        rw [List.drop_zero, Nat.mul_zero, List.drop_zero] at hrest
        rw [List.drop_zero, List.take_succ_cons, Nat.mul_zero, List.drop_zero, hex,
          List.flatMap_cons, ← hex, hrest]
        rfl
    | succ start => exact ih start count

/-- The first piece of a text goes up to the mark. -/
theorem splitAtEach_append (h : mark ∉ piece) :
    splitAtEach mark (piece ++ mark :: rest) = piece :: splitAtEach mark rest := by
  induction piece with
  | nil => simp [splitAtEach]
  | cons c piece ih =>
    rw [List.mem_cons, not_or] at h
    rw [List.cons_append, splitAtEach, if_neg (Ne.symm h.1), ih h.2]

/-- A text without the mark is one piece. -/
theorem splitAtEach_of_not_mem (h : mark ∉ s) : splitAtEach mark s = [s] := by
  induction s with
  | nil => rfl
  | cons c s ih =>
    rw [List.mem_cons, not_or] at h
    rw [splitAtEach, if_neg (Ne.symm h.1), ih h.2]

end Text

namespace Uuid

variable {s : List Char}

/-- The canonical form of an identifier: five groups of lowercase hexadecimal digits, with hyphens
between them. -/
inductive IsCanonical : List Char → Prop where
  | groups {a b c d e : List Char} (ha : a.length = 8) (hb : b.length = 4) (hc : c.length = 4)
      (hd : d.length = 4) (he : e.length = 12)
      (hdigits : ∀ x ∈ a ++ b ++ c ++ d ++ e, x ∈ Text.hexDigits) :
      IsCanonical (a ++ '-' :: (b ++ '-' :: (c ++ '-' :: (d ++ '-' :: e))))

/-- The canonical form has no blanks. -/
theorem IsCanonical.isBlank (h : IsCanonical s) : ∀ x ∈ s, Unicode.isBlank x = false := by
  obtain ⟨-, -, -, -, -, hdigits⟩ := h
  have hblank : ('-' :: Text.hexDigits).any Unicode.isBlank = false := by decide
  intro x hx
  refine Bool.eq_false_iff.2 (List.any_eq_false.1 hblank x ?_)
  simp only [List.mem_append, List.mem_cons] at hx hdigits ⊢
  grind

/-- The canonical form of an identifier is read, and what it was read as is written in it. -/
theorem exists_ofText? (h : IsCanonical s) :
    ∃ bytes, ofText? s = some bytes ∧ bytes.length = 16 ∧ toText bytes = s := by
  obtain @⟨a, b, c, d, e, ha, hb, hc, hd, he, hdigits⟩ := h
  have hhyphen : '-' ∉ a ++ b ++ c ++ d ++ e := fun hmem => absurd (hdigits '-' hmem) (by decide)
  simp only [List.mem_append, not_or] at hhyphen
  obtain ⟨⟨⟨⟨ha', hb'⟩, hc'⟩, hd'⟩, he'⟩ := hhyphen
  have hlength : (a ++ b ++ c ++ d ++ e).length = 2 * 16 := by simp [ha, hb, hc, hd, he]
  obtain ⟨bytes, hread, hcount, hwrite⟩ := Text.exists_ofHex? hlength hdigits
  have hsplit : Text.splitAtEach '-' (a ++ '-' :: (b ++ '-' :: (c ++ '-' :: (d ++ '-' :: e)))) =
      [a, b, c, d, e] := by
    rw [Text.splitAtEach_append ha', Text.splitAtEach_append hb', Text.splitAtEach_append hc',
      Text.splitAtEach_append hd', Text.splitAtEach_of_not_mem he']
  refine ⟨bytes, ?_, hcount, ?_⟩
  · -- With its hyphens the text is too long for the form without them.
    have hlong : ofDigits? (a ++ '-' :: (b ++ '-' :: (c ++ '-' :: (d ++ '-' :: e)))) = none := by
      rw [ofDigits?, if_neg (by simp [ha, hb, hc, hd, he])]
    have hhyphenated : ofHyphenated? (a ++ '-' :: (b ++ '-' :: (c ++ '-' :: (d ++ '-' :: e)))) =
        some bytes := by
      rw [ofHyphenated?, hsplit]
      simp only [ha, hb, hc, hd, and_self, if_true, ofDigits?, hlength, hread]
    rw [ofText?, hlong, hhyphenated]
    rfl
  · simp only [toText, Text.hex_take_drop, hwrite]
    simp [ha, hb, hc, hd, he, List.drop_append, List.drop_eq_nil_of_le, List.take_of_length_le]

end Uuid

end BoundSql
