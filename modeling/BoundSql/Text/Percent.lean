import BoundSql.Text.Hex
import BoundSql.Text.Utf8

/-!
# Percent escapes

A percent sign with two hexadecimal digits stands for a byte; everything else stands for itself.
-/

namespace BoundSql.Text

/-- The byte that a percent sign stands for at the start of a text, and what follows its digits. -/
def percentByte? : List Char → Option (UInt8 × List Char)
  | high :: low :: rest =>
    match hexDigit? high, hexDigit? low with
    | some high, some low => some (.ofNat (high * 16 + low), rest)
    | _, _ => none
  | _ => none

/-- An escape uses up text. -/
theorem length_of_percentByte? {s rest : List Char} {b : UInt8}
    (h : percentByte? s = some (b, rest)) : rest.length < s.length := by
  unfold percentByte? at h
  split at h
  · split at h
    · simp only [Option.some.injEq, Prod.mk.injEq] at h
      obtain ⟨_, rfl⟩ := h
      simp only [List.length_cons]
      omega
    · simp at h
  · simp at h

/-- The bytes that a text with percent escapes stands for. -/
def percentDecoded (s : List Char) : List UInt8 :=
  match s with
  | [] => []
  | c :: rest =>
    if c = '%' then
      match h : percentByte? rest with
      | some (b, after) =>
        have := length_of_percentByte? h
        b :: percentDecoded after
      -- A percent sign without two digits stands for itself.
      | none => utf8 "%" ++ percentDecoded rest
    else utf8 (String.singleton c) ++ percentDecoded rest
termination_by s.length
decreasing_by all_goals simp_all <;> omega

/-- The text that a text with percent escapes stands for. -/
def percentText? (s : List Char) : Option String := ofUtf8? (percentDecoded s)

end BoundSql.Text
