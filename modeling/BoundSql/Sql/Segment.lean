import BoundSql.Text.Scan

/-!
# Segments of SQL text

A statement is split into named placeholders, quoted names and the text between them. String
literals, escape strings, dollar-quoted bodies, comments and casts are text, whatever they hold.
The segments of a text, written one after the other, are the text.
-/

namespace BoundSql.Sql

/-- A segment of a statement. -/
inductive Segment where
  /-- Text, string literals and comments included. -/
  | text (chars : List Char)
  /-- A named placeholder with its colon. -/
  | placeholder (chars : List Char)
  /-- A quoted name, by what stands between its quotation marks. -/
  | quotedName (content : List Char)
  deriving DecidableEq, Repr

namespace Segment

/-- The characters of a segment in the statement. -/
def source : Segment → List Char
  | text chars => chars
  | placeholder chars => chars
  | quotedName content => '"' :: content ++ ['"']

/-- Put a segment before others; two texts become one. -/
def prepend : Segment → List Segment → List Segment
  | text a, text b :: rest => text (a ++ b) :: rest
  | segment, rest => segment :: rest

/-- The rest of a quoted run, up to and with its closing quote, and what follows it. A doubled quote
belongs to the run; a run that is not closed goes to the end. -/
def quotedRun (quote : Char) : List Char → List Char × List Char
  | [] => ([], [])
  | [c] => ([c], [])
  | c :: d :: rest =>
    if c = quote then
      if d = quote then
        let (run, after) := quotedRun quote rest
        (c :: d :: run, after)
      else ([c], d :: rest)
    else
      let (run, after) := quotedRun quote (d :: rest)
      (c :: run, after)

/-- The rest of an escape string, up to and with its closing quote, and what follows it. A character
behind a backslash and a doubled quote belong to the string. -/
def escapedRun : List Char → List Char × List Char
  | [] => ([], [])
  | [c] => ([c], [])
  | c :: d :: rest =>
    if c = '\\' || (c = '\'' && d = '\'') then
      let (run, after) := escapedRun rest
      (c :: d :: run, after)
    else if c = '\'' then ([c], d :: rest)
    else
      let (run, after) := escapedRun (d :: rest)
      (c :: run, after)

/-- The rest of a dollar-quoted string after its first dollar, up to and with its closing tag, and
what follows it; nothing if the dollar opens no tag. -/
def dollarRun? (s : List Char) : Option (List Char × List Char) :=
  if s.head?.any Char.isDigit then none
  else
    let tag := s.takeWhile Text.isAsciiWord
    match s.dropWhile Text.isAsciiWord with
    | '$' :: body =>
      let (run, after) := Text.throughFirst ('$' :: tag ++ ['$']) body
      some (tag ++ '$' :: run, after)
    | _ => none

/-- Whether `c` can belong to a word, so that a letter or a dollar behind it does not open a
string. -/
def isWordChar (c : Char) : Bool := Text.isAsciiWord c || c = '$' || 0x80 ≤ c.toNat

/-- Whether a placeholder's word can begin with `c`. -/
def isPlaceholderStart (c : Char) : Bool := c.isAlpha || c = '_'

/-- The first piece of the text `c :: rest` that stands behind the character `before`, and what
follows it. -/
def next (before : Option Char) (c : Char) (rest : List Char) : Segment × List Char :=
  let opens := !before.any isWordChar
  if c = '\'' then
    let run := quotedRun '\'' rest
    (text (c :: run.1), run.2)
  else if (c = 'E' || c = 'e') && opens && rest.head? = some '\'' then
    let run := escapedRun rest.tail
    (text (c :: rest.take 1 ++ run.1), run.2)
  else if c = '$' && opens then
    -- A dollar before a digit is a numbered parameter.
    match dollarRun? rest with
    | some (run, after) => (text (c :: run), after)
    | none => (text [c], rest)
  else if c = '"' then
    let run := quotedRun '"' rest
    -- A name whose quotation mark is never closed is text.
    if run.1.getLast? = some '"' then (quotedName run.1.dropLast, run.2)
    else (text (c :: run.1), run.2)
  else if c = '-' && rest.head? = some '-' then
    let run := Text.throughFirst ['\n'] rest
    (text (c :: run.1), run.2)
  else if c = '/' && rest.head? = some '*' then
    let run := Text.throughFirst ['*', '/'] rest.tail
    (text (c :: rest.take 1 ++ run.1), run.2)
  -- A cast takes both colons, so that its second one opens no placeholder.
  else if c = ':' && rest.head? = some ':' then (text (c :: rest.take 1), rest.tail)
  else if c = ':' && rest.head?.any isPlaceholderStart then
    (placeholder (c :: rest.takeWhile Text.isAsciiWord), rest.dropWhile Text.isAsciiWord)
  else (text [c], rest)

/-- A quoted run and what follows it make up the text. -/
theorem quotedRun_append (quote : Char) (s : List Char) :
    (quotedRun quote s).1 ++ (quotedRun quote s).2 = s := by
  fun_induction quotedRun quote s <;> simp_all

/-- An escape string and what follows it make up the text. -/
theorem escapedRun_append (s : List Char) : (escapedRun s).1 ++ (escapedRun s).2 = s := by
  fun_induction escapedRun s <;> simp_all

/-- A dollar-quoted string and what follows it make up the text. -/
theorem dollarRun?_append {s run after : List Char} (h : dollarRun? s = some (run, after)) :
    run ++ after = s := by
  rw [dollarRun?] at h
  split at h
  · simp at h
  · split at h
    · next body hb =>
      have hs := List.takeWhile_append_dropWhile (p := Text.isAsciiWord) (l := s)
      have ht := Text.throughFirst_append ('$' :: s.takeWhile Text.isAsciiWord ++ ['$']) body
      simp only [Option.some.injEq, Prod.mk.injEq] at h
      rw [← h.1, ← h.2, List.append_assoc, List.cons_append, ht, ← hb, hs]
    · simp at h

/-- The first piece and what follows it make up the text. -/
theorem source_next_append (before : Option Char) (c : Char) (rest : List Char) :
    (next before c rest).1.source ++ (next before c rest).2 = c :: rest := by
  have htake : rest.take 1 ++ rest.tail = rest := by cases rest <;> simp
  rw [next]
  split
  · simp [source, quotedRun_append]
  split
  · simp [source, List.append_assoc, escapedRun_append, htake]
  split
  · split
    · next h => simp [source, dollarRun?_append h]
    · simp [source]
  split
  · next hc =>
    dsimp only
    split
    · next hl =>
      obtain ⟨run, hrun⟩ := List.getLast?_eq_some_iff.1 hl
      have hrest := quotedRun_append '"' rest
      rw [hrun] at hrest
      simpa [source, hrun, hc] using hrest
    · simp [source, quotedRun_append]
  split
  · simp [source, Text.throughFirst_append]
  split
  · simp [source, List.append_assoc, Text.throughFirst_append, htake]
  split
  · simp [source, htake]
  split
  · simp [source, List.takeWhile_append_dropWhile]
  · simp [source]

/-- The first piece is not empty. -/
theorem source_ne_nil_next (before : Option Char) (c : Char) (rest : List Char) :
    (next before c rest).1.source ≠ [] := by
  rw [next]
  dsimp only
  repeat' split
  all_goals simp [source]

/-- What follows the first piece is shorter than the text. -/
theorem length_next_lt (before : Option Char) (c : Char) (rest : List Char) :
    (next before c rest).2.length < (c :: rest).length := by
  have h := congrArg List.length (source_next_append before c rest)
  have hp := List.length_pos_iff.2 (source_ne_nil_next before c rest)
  simp only [List.length_append] at h
  omega

/-- The segments of a text that stands behind the character `before`. -/
def scan (before : Option Char) : List Char → List Segment
  | [] => []
  | c :: rest =>
    let piece := next before c rest
    piece.1.prepend (scan piece.1.source.getLast? piece.2)
  termination_by s => s.length
  decreasing_by exact length_next_lt before c rest

end Segment

/-- The segments of a statement. -/
def segments (sql : String) : List Segment := Segment.scan none sql.toList

end BoundSql.Sql
