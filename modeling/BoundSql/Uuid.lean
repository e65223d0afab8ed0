import BoundSql.Text.Hex

/-!
# Universally unique identifiers

Sixteen bytes, written in lowercase hexadecimal with hyphens after the fourth, sixth, eighth and
tenth byte. On reading, the digits may be of either case and the hyphens may be missing; a
hyphenated form may stand in braces, or after `urn:uuid:` in any case.
-/

namespace BoundSql.Uuid

/-- The text of sixteen bytes. -/
def toText (bytes : List UInt8) : List Char :=
  let part (start count : Nat) : List Char := Text.hex ((bytes.drop start).take count)
  part 0 4 ++ '-' :: part 4 2 ++ '-' :: part 6 2 ++ '-' :: part 8 2 ++ '-' :: part 10 6

/-- Read thirty-two hexadecimal digits. -/
def ofDigits? (s : List Char) : Option (List UInt8) :=
  if s.length = 32 then Text.ofHex? s else none

/-- Read the hyphenated form. -/
def ofHyphenated? (s : List Char) : Option (List UInt8) :=
  match Text.splitAtEach '-' s with
  | [a, b, c, d, e] =>
    if a.length = 8 ∧ b.length = 4 ∧ c.length = 4 ∧ d.length = 4 then
      ofDigits? (a ++ b ++ c ++ d ++ e)
    else none
  | _ => none

/-- The hyphenated form inside braces. -/
def unbraced? (s : List Char) : Option (List Char) :=
  (Text.dropPrefix? ['\x7b'] s).bind (Text.dropSuffix? ['\x7d'])

/-- The word that introduces the name form. -/
def nameMark : List Char := "urn:uuid:".toList

/-- What follows the word of the name form, whose letters may be of either case. -/
def unnamed? (s : List Char) : Option (List Char) :=
  if (s.take nameMark.length).map Char.toLower = nameMark then some (s.drop nameMark.length)
  else none

/-- Read an identifier in any of its forms. -/
def ofText? (s : List Char) : Option (List UInt8) :=
  ofDigits? s <|> ofHyphenated? s <|> (unbraced? s).bind ofHyphenated? <|>
    (unnamed? s).bind ofHyphenated?

end BoundSql.Uuid
