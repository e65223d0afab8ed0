import BoundSql.Unicode.AlphabeticRanges
import BoundSql.Unicode.NumberRanges
import BoundSql.Unicode.VisibleRanges

/-!
# Character properties

The character classes that the library's grammars refer to. Below U+0080 each class is given by
its ASCII members, above it by a table of ranges.
-/

namespace BoundSql.Unicode

/-- The property Alphabetic. -/
def isAlphabetic (c : Char) : Bool :=
  if c.val < 0x80 then c.isAlpha else inRanges alphabeticRanges c.toNat

/-- The general categories Nd, Nl and No. -/
def isNumeric (c : Char) : Bool :=
  if c.val < 0x80 then c.isDigit else inRanges numberRanges c.toNat

/-- Code points of the property White_Space. -/
def blankRanges : List (Nat × Nat) := [
  (0x9, 0xd), (0x20, 0x20), (0x85, 0x85), (0xa0, 0xa0), (0x1680, 0x1680), (0x2000, 0x200a),
  (0x2028, 0x2029), (0x202f, 0x202f), (0x205f, 0x205f), (0x3000, 0x3000)]

/-- The property White_Space. -/
def isBlank (c : Char) : Bool := inRanges blankRanges c.toNat

/-- Whether a quoted listing of a text shows the character as it is: it neither extends the
preceding grapheme nor is a control, format, unassigned or separator character other than the
plain space. -/
def isVisible (c : Char) : Bool :=
  if c.val < 0x80 then 0x20 ≤ c.val && c.val < 0x7f
  else !inRanges graphemeExtendRanges c.toNat && !inRanges invisibleRanges c.toNat

end BoundSql.Unicode
