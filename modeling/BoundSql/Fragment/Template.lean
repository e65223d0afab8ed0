import BoundSql.Sql.Identifier

/-!
# Templates

A template is SQL text with markers `<name>` and `<table.column>`. A marker behind one of a few
keywords stands for a table, any other for a column. A marker between two equal quotes, with no
comma before the closing one, stands for itself, together with its quotes.

The pieces of a template are found from left to right. What precedes a marker decides how it is
read, so the text since the last piece is kept, latest character first.
-/

namespace BoundSql.Fragment

/-- The keywords that make a marker a table. -/
inductive TableKeyword where
  /-- Dropping or altering a table that may be missing. -/
  | tableIfExists
  /-- Listing tables by pattern. -/
  | tablesLike
  /-- Updating a table. -/
  | update
  /-- Any other statement on a table. -/
  | table
  /-- Reading from a table. -/
  | source
  /-- Writing into a table. -/
  | into
  /-- Joining a table. -/
  | join
  deriving DecidableEq, Repr

namespace TableKeyword

/-- The keyword in SQL. -/
def text : TableKeyword → String
  | tableIfExists => "TABLE IF EXISTS"
  | tablesLike => "TABLES LIKE"
  | update => "UPDATE"
  | table => "TABLE"
  | source => "FROM"
  | into => "INTO"
  | join => "JOIN"

/-- All keywords, in the order in which they are tried. -/
def all : List TableKeyword := [tableIfExists, tablesLike, update, table, source, into, join]

/-- Split a keyword off the end of a reversed text. -/
def splitOff? (reversed : List Char) : Option (TableKeyword × List Char) :=
  all.findSome? fun keyword =>
    (Text.dropPrefix? keyword.text.toList.reverse reversed).map fun rest => (keyword, rest)

end TableKeyword

/-- A piece of a template. -/
inductive Piece where
  /-- Text that stands for itself. -/
  | text (chars : List Char)
  /-- A marker to be replaced by a quoted name, with the quote and angle brackets before it. -/
  | marker (lead : List Char) (keyword : Option TableKeyword) (name : List Char)
  /-- A quoted marker that stands for itself. -/
  | quoted (chars : List Char)
  deriving DecidableEq, Repr

/-- Read a name that may be qualified by another one. -/
def readQualified? (s : List Char) : Option (List Char × List Char) :=
  match Sql.scanName? s with
  | some (name, '.' :: rest) =>
    (Sql.scanName? rest).map fun (column, rest) => (name ++ '.' :: column, rest)
  | other => other

/-- Read the rest of a marker behind its opening bracket: the name, and what follows the closing
bracket. -/
def readMarker? (s : List Char) : Option (List Char × List Char) :=
  match readQualified? s with
  | some (name, '>' :: rest) => some (name, rest)
  | _ => none

/-- What precedes a marker. -/
structure Opening where
  /-- Text that does not belong to the marker. -/
  text : List Char
  /-- The quote before the marker and the angle brackets behind it. -/
  lead : List Char
  /-- The quote. -/
  quote : Option Char
  /-- The keyword. -/
  keyword : Option TableKeyword
  /-- The keyword and the blanks behind it, as they were written. -/
  gap : List Char

/-- Whether `c` can quote a marker. -/
def isMarkerQuote (c : Char) : Bool := c = '\'' || c = '\x60'

/-- Read what precedes a marker from the reversed text before it. -/
def Opening.ofReversed (pending : List Char) : Opening :=
  -- A keyword counts with blanks behind it or without.
  let found := TableKeyword.splitOff? (pending.dropWhile Unicode.isBlank)
  let before := match found with
    | some (_, rest) => rest
    | none => pending
  let keyword := found.map Prod.fst
  let gap := (pending.take (pending.length - before.length)).reverse
  -- The quote may stand before more angle brackets than the one of the marker.
  let brackets := before.takeWhile (· = '<')
  match before.dropWhile (· = '<') with
  | c :: rest =>
    if isMarkerQuote c then ⟨rest.reverse, c :: brackets, some c, keyword, gap⟩
    else ⟨before.reverse, [], none, keyword, gap⟩
  | [] => ⟨before.reverse, [], none, keyword, gap⟩

/-- Split behind the closing quote, if it comes before any comma. -/
def readClosing? (quote : Option Char) (s : List Char) : Option (List Char × List Char) := do
  let quote ← quote
  let isStop (c : Char) : Bool := c = quote || c = ','
  match s.dropWhile (fun c => !isStop c) with
  | c :: rest =>
    if c = quote then some (s.takeWhile (fun c => !isStop c) ++ [quote], rest) else none
  | [] => none

/-- A text piece, unless it is empty. -/
def textPiece (chars : List Char) : List Piece := if chars = [] then [] else [.text chars]

/-- Reading a name uses up text. -/
theorem length_readQualified?_lt {s name rest : List Char}
    (h : readQualified? s = some (name, rest)) : rest.length < s.length := by
  rw [readQualified?] at h
  split at h
  · next n r hn =>
    have h1 := Sql.length_lt_of_scanName? hn
    simp only [Option.map_eq_some_iff, Prod.exists, Prod.mk.injEq] at h
    obtain ⟨a, b, hab, -, rfl⟩ := h
    have h2 := Sql.length_lt_of_scanName? hab
    simp only [List.length_cons] at h1
    omega
  · exact Sql.length_lt_of_scanName? h

/-- Reading a marker uses up text. -/
theorem length_readMarker?_lt {s name rest : List Char} (h : readMarker? s = some (name, rest)) :
    rest.length < s.length := by
  rw [readMarker?] at h
  split at h
  · next n r hn =>
    have h1 := length_readQualified?_lt hn
    have hr : r = rest := by simp_all
    subst hr
    simp only [List.length_cons] at h1
    omega
  · simp at h

/-- Reading up to a closing quote uses up text. -/
theorem length_readClosing?_lt {quote : Option Char} {s inside rest : List Char}
    (h : readClosing? quote s = some (inside, rest)) : rest.length < s.length := by
  cases quote with
  | none => simp [readClosing?] at h
  | some q =>
    simp only [readClosing?, Option.bind_eq_bind, Option.bind_some] at h
    split at h
    · next c r hd =>
      have hle := (List.dropWhile_suffix
        (l := s) fun c => !(decide (c = q) || decide (c = ','))).length_le
      rw [hd] at hle
      split at h
      · have hr : r = rest := by simp_all
        subst hr
        simp only [List.length_cons] at hle
        omega
      · simp at h
    · simp at h

/-- The pieces of a template, given the reversed text since the last piece. -/
def pieces (pending : List Char) : List Char → List Piece
  | [] => textPiece pending.reverse
  | c :: rest =>
    if c = '<' then
      -- A bracket that opens no marker is text, and the next one gets its chance.
      match _hm : readMarker? rest with
      | none => pieces (c :: pending) rest
      | some (name, after) =>
        let opening := Opening.ofReversed pending
        match _hc : readClosing? opening.quote after with
        | some (inside, beyond) =>
          textPiece opening.text ++
            .quoted (opening.lead ++ opening.gap ++ '<' :: name ++ '>' :: inside) ::
              pieces [] beyond
        | none =>
          textPiece opening.text ++ .marker opening.lead opening.keyword name :: pieces [] after
    else pieces (c :: pending) rest
  termination_by s => s.length
  decreasing_by
    all_goals simp only [List.length_cons]
    · omega
    · have := length_readMarker?_lt _hm
      have := length_readClosing?_lt _hc
      omega
    · have := length_readMarker?_lt _hm
      omega
    · omega

/-- The pieces of a template. -/
def scan (text : String) : List Piece := pieces [] text.toList

end BoundSql.Fragment
