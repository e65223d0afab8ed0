import BoundSql.Text.Scan

/-!
# Identifiers

A name begins with a letter or an underscore and goes on with letters, numeric characters and the
marks `_ @ $ # -`. Letters and numeric characters are those of all scripts.
-/

namespace BoundSql.Sql

/-- Whether a name can begin with `c`. -/
def isNameStart (c : Char) : Bool := c = '_' || Unicode.isAlphabetic c

/-- Whether a name can go on with `c`. -/
def isNameChar (c : Char) : Bool :=
  isNameStart c || Unicode.isNumeric c || c = '@' || c = '$' || c = '#' || c = '-'

/-- Whether the whole text is one name. -/
def isName : List Char → Bool
  | [] => false
  | c :: rest => isNameStart c && rest.all isNameChar

/-- Split off the longest name at the start of a text. -/
def scanName? : List Char → Option (List Char × List Char)
  | [] => none
  | c :: rest =>
    if isNameStart c then some (c :: rest.takeWhile isNameChar, rest.dropWhile isNameChar) else none

/-- Split `table(alias)` into its parts; the alias may be missing and may have blanks before it. -/
def splitAlias? (s : List Char) : Option (List Char × Option (List Char)) := do
  let (name, rest) ← scanName? s
  match Text.trimStart rest with
  | [] => return (name, none)
  | '(' :: rest =>
    let inner ← Text.dropSuffix? [')'] rest
    if isName inner then return (name, some inner) else none
  | _ => none

/-- A text between single quotes, with the quotes inside it doubled. -/
def quoteLiteral (s : String) : String :=
  String.ofList ('\'' :: s.toList.flatMap (fun c => if c = '\'' then ['\'', '\''] else [c]) ++
    ['\''])

/-- The length of what follows a name is less than that of the text. -/
theorem length_lt_of_scanName? {s name rest : List Char} (h : scanName? s = some (name, rest)) :
    rest.length < s.length := by
  cases s with
  | nil => simp [scanName?] at h
  | cons c s =>
    rw [scanName?] at h
    split at h
    · have hr : s.dropWhile isNameChar = rest := by simp_all
      have := (List.dropWhile_suffix (l := s) isNameChar).length_le
      simp only [hr] at this
      simp only [List.length_cons]
      omega
    · simp at h

end BoundSql.Sql
