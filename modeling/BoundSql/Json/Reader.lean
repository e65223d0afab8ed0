import BoundSql.Json.Basic
import BoundSql.Numeral.Power
import BoundSql.Text.Hex

/-!
# Reading JSON texts

The reader accepts one value with blanks around it. It refuses control characters in strings,
escapes of unpaired surrogates, numbers too great for a double, and arrays and objects nested more
than 127 deep.
-/

namespace BoundSql.Json

/-- The greatest nesting of arrays and objects. -/
def maxDepth : Nat := 127

/-- Drop the four blank characters of the grammar. -/
def skipBlanks (s : List Char) : List Char :=
  s.dropWhile fun c => c = ' ' || c = '\n' || c = '\t' || c = '\r'

/-- The value of four hexadecimal digits. -/
def hexUnit? (a b c d : Char) : Option Nat :=
  match Text.hexDigit? a, Text.hexDigit? b, Text.hexDigit? c, Text.hexDigit? d with
  | some a, some b, some c, some d => some (((a * 16 + b) * 16 + c) * 16 + d)
  | _, _, _, _ => none

/-- The character of a one-letter escape. -/
def simpleEscape? : Char → Option Char
  | '"' => some '"'
  | '\\' => some '\\'
  | '/' => some '/'
  | 'b' => some '\x08'
  | 'f' => some '\x0c'
  | 'n' => some '\n'
  | 'r' => some '\r'
  | 't' => some '\t'
  | _ => none

/-- Read the rest of a string after its opening quotation mark: its characters and what follows the
closing mark. -/
def readString? : List Char → Option (List Char × List Char)
  | '"' :: rest => some ([], rest)
  | '\\' :: 'u' :: a :: b :: c :: d :: rest =>
    match hexUnit? a b c d with
    | none => none
    | some unit =>
      -- Characters outside the basic plane are written as two units, the higher one first.
      if 0xDC00 ≤ unit && unit ≤ 0xDFFF then none
      else if 0xD800 ≤ unit && unit ≤ 0xDBFF then
        match rest with
        | '\\' :: 'u' :: e :: f :: g :: h :: rest =>
          match hexUnit? e f g h with
          | none => none
          | some low =>
            if 0xDC00 ≤ low && low ≤ 0xDFFF then
              let code := 0x10000 + (unit - 0xD800) * 0x400 + (low - 0xDC00)
              (readString? rest).map fun (cs, rest) => (Char.ofNat code :: cs, rest)
            else none
        | _ => none
      else (readString? rest).map fun (cs, rest) => (Char.ofNat unit :: cs, rest)
  | '\\' :: c :: rest =>
    match simpleEscape? c with
    | none => none
    | some c => (readString? rest).map fun (cs, rest) => (c :: cs, rest)
  | c :: rest =>
    if c.toNat < 0x20 then none
    else (readString? rest).map fun (cs, rest) => (c :: cs, rest)
  | [] => none

/-- Split off the digits at the start. -/
def digitRun (s : List Char) : List Char × List Char :=
  (s.takeWhile Char.isDigit, s.dropWhile Char.isDigit)

/-- Read the optional fraction of a number. -/
def readFraction? : List Char → Option (Option (List Char) × List Char)
  | '.' :: rest =>
    let (digits, rest) := digitRun rest
    if digits = [] then none else some (some digits, rest)
  | s => some (none, s)

/-- Read the optional exponent of a number. -/
def readExponent? : List Char → Option (Option Int × List Char)
  | [] => some (none, [])
  | c :: rest =>
    if c = 'e' || c = 'E' then
      let (negative, rest) := match rest with
        | '-' :: rest => (true, rest)
        | '+' :: rest => (false, rest)
        | rest => (false, rest)
      let (digits, rest) := digitRun rest
      if digits = [] then none
      else
        let power : Int := Numeral.digitsValue digits
        some (some (if negative then -power else power), rest)
    else some (none, c :: rest)

/-- A double of the given sign and decimal digits, unless it is too great. -/
def floatNumber? (negative : Bool) (digits : Nat) (exponent : Int) : Option JsonNumber :=
  let x := Numeral.Binary64.ofReading ⟨negative, .decimal digits exponent⟩
  if x.isFinite then some (.float x) else none

/-- The number for an integer text: an integer if 64 bits hold it, a double otherwise. A negative
zero is a double. -/
def integerNumber? (negative : Bool) (n : Nat) : Option JsonNumber :=
  if negative then
    if 0 < n ∧ n ≤ Numeral.pow2 63 then some (.negative (.ofInt (-(n : Int))))
    else floatNumber? true n 0
  else if n < Numeral.pow2 64 then some (.natural (.ofNat n))
  else floatNumber? false n 0

/-- Read a number without its minus sign. -/
def readNumber? (negative : Bool) (s : List Char) : Option (JsonNumber × List Char) := do
  let (whole, rest) := digitRun s
  if whole = [] ∨ (whole.length ≠ 1 ∧ whole.head? = some '0') then none
  let (fraction, rest) ← readFraction? rest
  let (exponent, rest) ← readExponent? rest
  let number ← match fraction, exponent with
    | none, none => integerNumber? negative (Numeral.digitsValue whole)
    | _, _ =>
      let fraction := fraction.getD []
      floatNumber? negative (Numeral.digitsValue (whole ++ fraction))
        (exponent.getD 0 - fraction.length)
  return (number, rest)

/-- Read the given word. -/
def readWord? (word : String) (value : Json) (s : List Char) : Option (Json × List Char) :=
  (Text.dropPrefix? word.toList s).map fun rest => (value, rest)

mutual

/-- Read a value that starts at the first character. -/
def readValue? : Nat → Nat → List Char → Option (Json × List Char)
  | 0, _, _ => none
  | fuel + 1, depth, s =>
    match s with
    | 'n' :: _ => readWord? "null" .null s
    | 't' :: _ => readWord? "true" (.bool true) s
    | 'f' :: _ => readWord? "false" (.bool false) s
    | '"' :: rest => (readString? rest).map fun (cs, rest) => (.string (String.ofList cs), rest)
    | '-' :: rest => (readNumber? true rest).map fun (n, rest) => (.number n, rest)
    | '[' :: rest =>
      match depth with
      | 0 => none
      | depth + 1 =>
        match skipBlanks rest with
        | ']' :: rest => some (.array [], rest)
        | rest => (readItems? fuel depth rest).map fun (items, rest) => (.array items, rest)
    | '\x7b' :: rest =>
      match depth with
      | 0 => none
      | depth + 1 =>
        match skipBlanks rest with
        | '\x7d' :: rest => some (.object [], rest)
        | rest =>
          (readMembers? fuel depth [] rest).map fun (members, rest) => (.object members, rest)
    | s => (readNumber? false s).map fun (n, rest) => (.number n, rest)

/-- Read the values of an array up to and with its closing bracket. -/
def readItems? : Nat → Nat → List Char → Option (List Json × List Char)
  | 0, _, _ => none
  | fuel + 1, depth, s => do
    let (item, rest) ← readValue? fuel depth s
    match skipBlanks rest with
    | ']' :: rest => return ([item], rest)
    | ',' :: rest =>
      let (items, rest) ← readItems? fuel depth (skipBlanks rest)
      return (item :: items, rest)
    | _ => none

/-- Read the members of an object up to and with its closing brace, given those before. -/
def readMembers? :
    Nat → Nat → List (String × Json) → List Char → Option (List (String × Json) × List Char)
  | 0, _, _, _ => none
  | fuel + 1, depth, members, s =>
    match s with
    | '"' :: rest => do
      let (name, rest) ← readString? rest
      match skipBlanks rest with
      | ':' :: rest =>
        let (value, rest) ← readValue? fuel depth (skipBlanks rest)
        let members := Keyed.put (String.ofList name) value members
        match skipBlanks rest with
        | '\x7d' :: rest => return (members, rest)
        | ',' :: rest => readMembers? fuel depth members (skipBlanks rest)
        | _ => none
      | _ => none
    | _ => none

end

/-- Read a text. Each call of the reader's parts is paid for by a character, twice at most. -/
def ofText? (text : String) : Option Json :=
  let s := text.toList
  match readValue? (2 * s.length + 2) maxDepth (skipBlanks s) with
  | some (value, rest) => if skipBlanks rest = [] then some value else none
  | none => none

end BoundSql.Json
