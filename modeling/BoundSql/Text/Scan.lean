import BoundSql.Unicode.Property

/-!
# Scanning character lists

The small vocabulary in which the library's grammars are written: trimming, splitting at a
character, recognising a fixed word and replacing the first of its occurrences. Texts are lists
of characters, so that every scanner is a recursion on its input.
-/

namespace BoundSql.Text

/-- Drop the blank characters at the start. -/
def trimStart (s : List Char) : List Char := s.dropWhile Unicode.isBlank

/-- Drop the blank characters at the end. -/
def trimEnd (s : List Char) : List Char := (trimStart s.reverse).reverse

/-- Drop the blank characters at both ends. -/
def trim (s : List Char) : List Char := trimEnd (trimStart s)

/-- What follows `word` at the start of `s`, if `s` starts with it. -/
def dropPrefix? (word s : List Char) : Option (List Char) :=
  match word, s with
  | [], rest => some rest
  | _ :: _, [] => none
  | w :: word, c :: rest => if w = c then dropPrefix? word rest else none

/-- What precedes `word` at the end of `s`, if `s` ends with it. -/
def dropSuffix? (word s : List Char) : Option (List Char) :=
  (dropPrefix? word.reverse s.reverse).map List.reverse

/-- The text before the first occurrence of `mark` and the text after it. -/
def splitAtFirst? (mark : Char) : List Char → Option (List Char × List Char)
  | [] => none
  | c :: rest =>
    if c = mark then some ([], rest)
    else (splitAtFirst? mark rest).map fun (before, after) => (c :: before, after)

/-- The pieces between the occurrences of `mark`; one more than there are occurrences. -/
def splitAtEach (mark : Char) : List Char → List (List Char)
  | [] => [[]]
  | c :: rest =>
    if c = mark then [] :: splitAtEach mark rest
    else
      match splitAtEach mark rest with
      | [] => [[c]]
      | piece :: pieces => (c :: piece) :: pieces

/-- Split `s` behind the first occurrence of `word`, or at its end if there is none. -/
def throughFirst (word : List Char) : List Char → List Char × List Char
  | [] => ([], [])
  | c :: rest =>
    match dropPrefix? word (c :: rest) with
    | some after => (word, after)
    | none => let (before, after) := throughFirst word rest; (c :: before, after)

/-- Put `new` in the place of the first occurrence of `old`. -/
def replaceFirst (old new : Char) : List Char → List Char
  | [] => []
  | c :: rest => if c = old then new :: rest else c :: replaceFirst old new rest

/-- An ASCII letter, digit or underscore. -/
def isAsciiWord (c : Char) : Bool := c.isAlphanum || c = '_'

/-- The trimmed text, as a string. -/
def trimmed (s : String) : String := String.ofList (trim s.toList)

/-- A word is dropped from the text that it begins. -/
theorem dropPrefix?_append (word rest : List Char) :
    dropPrefix? word (word ++ rest) = some rest := by
  induction word with
  | nil => rfl
  | cons w word ih => simp [dropPrefix?, ih]

/-- A text from which a word was dropped begins with it. -/
theorem eq_append_of_dropPrefix? {word s rest : List Char}
    (h : dropPrefix? word s = some rest) : s = word ++ rest := by
  induction word generalizing s with
  | nil => simp_all [dropPrefix?]
  | cons w word ih =>
    cases s with
    | nil => simp [dropPrefix?] at h
    | cons c s =>
      rw [dropPrefix?] at h
      split at h
      · next hw => simp [hw, ih h]
      · simp at h

/-- Both parts of a split text make up the text. -/
theorem throughFirst_append (word s : List Char) :
    (throughFirst word s).1 ++ (throughFirst word s).2 = s := by
  fun_induction throughFirst word s with
  | case1 => rfl
  | case2 c rest after h => exact (eq_append_of_dropPrefix? h).symm
  | case3 c rest h before after he ih => simpa [he] using ih

end BoundSql.Text
