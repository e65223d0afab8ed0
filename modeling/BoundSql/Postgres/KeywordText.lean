import BoundSql.Postgres.Settings

/-!
# Settings as keywords and values

A list of `keyword=value` with blanks between the entries and around the sign. A value can stand in
apostrophes, and a backslash takes the meaning from the character behind it. Text that begins with
the sign instead of a keyword ends the list.
-/

namespace BoundSql.Postgres.KeywordText

/-- Read the value in apostrophes behind the first of them; what follows the last of them is
left. -/
def readQuoted? : List Char → Option (List Char × List Char)
  | [] => none
  | '\'' :: rest => some ([], rest)
  | ['\\'] => none
  | '\\' :: c :: rest => (readQuoted? rest).map fun (value, rest) => (c :: value, rest)
  | c :: rest => (readQuoted? rest).map fun (value, rest) => (c :: value, rest)

/-- Read a value up to the next blank. -/
def readPlain : List Char → List Char × List Char
  | [] => ([], [])
  | ['\\'] => ([], [])
  | '\\' :: c :: rest => let (value, rest) := readPlain rest; (c :: value, rest)
  | c :: rest =>
    if Unicode.isBlank c then ([], c :: rest)
    else let (value, rest) := readPlain rest; (c :: value, rest)

/-- Read a value, which is not empty unless it stands in apostrophes. -/
def readValue? : List Char → Option (List Char × List Char)
  | '\'' :: rest => readQuoted? rest
  | s =>
    match readPlain s with
    | ([], _) => none
    | value => some value

/-- Whether a character can stand in a keyword. -/
def isKeywordChar (c : Char) : Bool := !Unicode.isBlank c && c != '='

/-- Read an entry: keyword, value and what follows. -/
def readEntry? (s : List Char) : Option (List Char × List Char × List Char) :=
  match Text.trimStart (s.dropWhile isKeywordChar) with
  | '=' :: rest =>
    (readValue? (Text.trimStart rest)).map fun (value, rest) =>
      (s.takeWhile isKeywordChar, value, rest)
  | _ => none

/-- Apply at most `fuel` entries. -/
def applyEntries? : Nat → List Char → Settings → Option Settings
  | 0, _, settings => some settings
  | fuel + 1, s, settings =>
    let s := Text.trimStart s
    if s.takeWhile isKeywordChar = [] then some settings
    else do
      let (keyword, value, rest) ← readEntry? s
      let settings ← settings.set? (String.ofList keyword) (String.ofList value)
      applyEntries? fuel rest settings

/-- Read a list of keywords and values. An entry has a character at least, so the length of the text
bounds their number. -/
def ofText? (s : List Char) : Option Settings := applyEntries? s.length s {}

end BoundSql.Postgres.KeywordText
