import BoundSql.Text.Scan

/-!
# Hexadecimal text

Bytes as pairs of lowercase hexadecimal digits.
-/

namespace BoundSql.Text

/-- The two hexadecimal digits of each byte. -/
def hex (bytes : List UInt8) : List Char :=
  bytes.flatMap fun b => [Nat.digitChar (b.toNat / 16), Nat.digitChar (b.toNat % 16)]

/-- The value of a hexadecimal digit of either case. -/
def hexDigit? (c : Char) : Option Nat :=
  if c.isDigit then some (c.toNat - '0'.toNat)
  else if 'a' ≤ c && c ≤ 'f' then some (c.toNat - 'a'.toNat + 10)
  else if 'A' ≤ c && c ≤ 'F' then some (c.toNat - 'A'.toNat + 10)
  else none

/-- Read pairs of hexadecimal digits. -/
def ofHex? : List Char → Option (List UInt8)
  | [] => some []
  | high :: low :: rest =>
    match hexDigit? high, hexDigit? low, ofHex? rest with
    | some high, some low, some bytes => some (.ofNat (high * 16 + low) :: bytes)
    | _, _, _ => none
  | [_] => none

end BoundSql.Text
