import BoundSql.Numeral.Integer
import BoundSql.Text.Hex
import BoundSql.Text.Scan

/-!
# Numeric network addresses

Four decimal numbers joined by points, or eight groups of up to four hexadecimal digits joined by
colons. A double colon stands for the groups that are missing, at least one, and the last two groups
can be written as four decimal numbers.
-/

namespace BoundSql.Postgres.Address

/-- Whether a text is a number below 256 without needless zeros. -/
def isOctet (s : List Char) : Bool :=
  s.length ≤ 3 && (s.head? ≠ some '0' || s.length = 1) &&
    match Numeral.readNat? s with
    | some n => n < 256
    | none => false

/-- Whether a text is four decimal numbers joined by points. -/
def isQuad (s : List Char) : Bool :=
  let octets := Text.splitAtEach '.' s
  octets.length = 4 && octets.all isOctet

/-- Whether a text is a group of hexadecimal digits. -/
def isGroup (s : List Char) : Bool :=
  1 ≤ s.length && s.length ≤ 4 && s.all fun c => (Text.hexDigit? c).isSome

/-- How many groups the pieces between colons make, if they are any; four decimal numbers count for
two where they are allowed. -/
def groupCount? (allowQuad : Bool) : List (List Char) → Option Nat
  | [] => some 0
  | [last] => if isGroup last then some 1 else if allowQuad && isQuad last then some 2 else none
  | group :: rest => if isGroup group then (groupCount? allowQuad rest).map (· + 1) else none

/-- The pieces of a text between colons; an empty text has none. -/
def pieces (s : List Char) : List (List Char) := if s = [] then [] else Text.splitAtEach ':' s

/-- The text before the first double colon and the text after it. -/
def splitAtGap? : List Char → Option (List Char × List Char)
  | [] => none
  | c :: rest =>
    match Text.dropPrefix? [':', ':'] (c :: rest) with
    | some after => some ([], after)
    | none => (splitAtGap? rest).map fun (before, after) => (c :: before, after)

/-- Whether a text is groups joined by colons. -/
def isGrouped (s : List Char) : Bool :=
  match splitAtGap? s with
  | none => groupCount? true (pieces s) = some 8
  | some (before, after) =>
    match groupCount? false (pieces before), groupCount? true (pieces after) with
    | some before, some after => before + after ≤ 7
    | _, _ => false

/-- Whether a text is a numeric address. -/
def isAddress (s : List Char) : Bool := isQuad s || isGrouped s

end BoundSql.Postgres.Address
