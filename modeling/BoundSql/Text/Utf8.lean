/-!
# Bytes in UTF-8

Texts as bytes, and bytes as texts. Bytes that are no UTF-8 can still be shown: each piece that
begins like a character and breaks off, and each byte that begins none, shows as the replacement
character.
-/

namespace BoundSql.Text

/-- The bytes of a text in UTF-8. -/
def utf8 (s : String) : List UInt8 := s.toUTF8.data.toList

/-- The text that bytes in UTF-8 stand for. -/
def ofUtf8? (bytes : List UInt8) : Option String := String.fromUTF8? ⟨bytes.toArray⟩

/-- The character shown for bytes that stand for none. -/
def replacement : Char := '\uFFFD'

/-- A character whose first bytes have been read. -/
structure OpenChar where
  /-- The bits read so far. -/
  code : Nat
  /-- How many bytes are owed after the next one. -/
  owed : Nat
  /-- The least value of the next byte. -/
  least : UInt8 := 0x80
  /-- The greatest value of the next byte. -/
  greatest : UInt8 := 0xBF

/-- What reading stands at between two bytes: inside a character, or between characters. -/
abbrev Utf8State := Option OpenChar

/-- What the first byte of a character shows, and the state after it. The bounds of the second byte
leave out longer forms of short codes, surrogates, and codes that are too great. -/
def showFirst (b : UInt8) : List Char × Utf8State :=
  let n := b.toNat
  if n < 0x80 then ([Char.ofNat n], none)
  else if 0xC2 ≤ n && n < 0xE0 then ([], some { code := n - 0xC0, owed := 0 })
  else if n = 0xE0 then ([], some { code := 0, owed := 1, least := 0xA0 })
  else if n = 0xED then ([], some { code := 0xD, owed := 1, greatest := 0x9F })
  else if 0xE0 < n && n < 0xF0 then ([], some { code := n - 0xE0, owed := 1 })
  else if n = 0xF0 then ([], some { code := 0, owed := 2, least := 0x90 })
  else if 0xF0 < n && n < 0xF4 then ([], some { code := n - 0xF0, owed := 2 })
  else if n = 0xF4 then ([], some { code := 4, owed := 2, greatest := 0x8F })
  else ([replacement], none)

/-- What one more byte shows, and the state after it. -/
def showByte (state : Utf8State) (b : UInt8) : List Char × Utf8State :=
  match state with
  | none => showFirst b
  | some c =>
    if c.least ≤ b && b ≤ c.greatest then
      let code := c.code * 64 + (b.toNat - 0x80)
      match c.owed with
      | 0 => ([Char.ofNat code], none)
      | owed + 1 => ([], some { code, owed })
    else
      let (shown, next) := showFirst b
      (replacement :: shown, next)

/-- What the bytes show from a state on. -/
def showFrom (state : Utf8State) : List UInt8 → List Char
  | [] => if state.isSome then [replacement] else []
  | b :: rest =>
    let (shown, next) := showByte state b
    shown ++ showFrom next rest

/-- The text that any bytes show. -/
def shownUtf8 (bytes : List UInt8) : String := String.ofList (showFrom none bytes)

end BoundSql.Text
