import BoundSql.Sql.Segment
import BoundSql.Text.Position

/-!
# Segments by positions

The segments of a statement, found by a cursor that goes through its bytes. A byte of a character
that is not one of ASCII is passed over like any other, so that the cursor can stand inside of
characters, and it must not cut the text there. Every access is checked, and so is that each step
leads on; the loops inside of a step come closer to the end of the text each time.
-/

namespace BoundSql.Sql

open Text

/-- A cursor in a statement. -/
structure Cursor where
  /-- The position of the next byte. -/
  position : Nat := 0
  /-- Where the text began that no segment has been made of. -/
  textStart : Nat := 0
  /-- The segments found. -/
  found : List Segment := []

namespace Cursor

/-- The position behind the closing quote of a quoted run, of which the bytes before `position` have
been read. -/
def quotedEnd (b : List Char) (quote : Char) (position : Nat) : Checked Nat := do
  if _h : position < b.length then
    if (← byteAt b position) = quote then
      if b[position + 1]? = some quote then quotedEnd b quote (position + 2)
      else return position + 1
    else quotedEnd b quote (position + 1)
  else return b.length
  termination_by b.length - position

/-- The position behind the closing quote of an escape string. A backslash takes the next byte with
it, be it a whole character or not. -/
def escapedEnd (b : List Char) (position : Nat) : Checked Nat := do
  if _h : position < b.length then
    let x ← byteAt b position
    if x = '\\' then escapedEnd b (position + 2)
    else if x = '\'' then
      if b[position + 1]? = some '\'' then escapedEnd b (position + 2)
      else return position + 1
    else escapedEnd b (position + 1)
  else return b.length
  termination_by b.length - position

/-- The position behind the word that goes on at `position`. -/
def wordEnd (b : List Char) (position : Nat) : Checked Nat := do
  if h : b[position]?.any isAsciiWord then wordEnd b (position + 1) else return position
  termination_by b.length - position
  decreasing_by
    have hlt : position < b.length := Nat.lt_of_not_le fun hle => by
      simp [List.getElem?_eq_none hle] at h
    omega

/-- The position behind the first `mark` in the text from `start` on, or the end of the text. -/
def through (s mark : List Char) (start : Nat) : Checked Nat := do
  match find? mark (← cutFrom s start) with
  | some n => return start + n + size mark
  | none => return size s

/-- The position behind the dollar-quoted string whose first dollar stands at `start`; nothing if
the dollar opens no tag. -/
def dollarEnd? (s : List Char) (start : Nat) : Checked (Option Nat) := do
  let b := bytes s
  if b[start + 1]?.any Char.isDigit then return none
  else
    let tagEnd ← wordEnd b (start + 1)
    if b[tagEnd]? = some '$' then
      let tag ← cut s start (tagEnd + 1)
      return some (← through s tag (tagEnd + 1))
    else return none

/-- The position behind the placeholder whose colon stands at `start`. -/
def labelEnd (b : List Char) (start : Nat) : Checked Nat := do
  match (← bytesFrom b (start + 1)).findIdx? fun x => !isAsciiWord x with
  | some n => return start + 1 + n
  | none => return b.length

/-- Whether the byte before a position belongs to a word. -/
def behindWord (b : List Char) (position : Nat) : Checked Bool := do
  if 0 < position then return Segment.isWordChar (← byteAt b (← goBack position 1))
  else return false

/-- The segments found and the text up to a position, if there is any. -/
def flush (s : List Char) (c : Cursor) (position : Nat) : Checked (List Segment) := do
  if c.textStart < position then return c.found ++ [.text (← cut s c.textStart position)]
  else return c.found

/-- The cursor behind the quoted run whose opening mark stands at its position. -/
def takeName (s : List Char) (c : Cursor) : Checked Cursor := do
  let b := bytes s
  let i := c.position
  let stop ← quotedEnd b '"' (i + 1)
  -- Whether the run was closed is seen from the last byte, unless that is the opening mark.
  if b[← goBack stop 1]? = some '"' && 2 ≤ (← goBack stop i) then
    let found ← flush s c i
    let content ← cut s (i + 1) (← goBack stop 1)
    return { position := stop, textStart := stop, found := found ++ [.quotedName content] }
  else return { c with position := stop }

/-- The cursor behind the placeholder whose colon stands at its position. -/
def takeLabel (s : List Char) (c : Cursor) : Checked Cursor := do
  let stop ← labelEnd (bytes s) c.position
  let found ← flush s c c.position
  let label ← cut s c.position stop
  return { position := stop, textStart := stop, found := found ++ [.placeholder label] }

/-- The cursor behind what begins at its position. -/
def next (s : List Char) (c : Cursor) : Checked Cursor := do
  let b := bytes s
  let i := c.position
  let behind ← behindWord b i
  let x ← byteAt b i
  if x = '\'' then return { c with position := ← quotedEnd b '\'' (i + 1) }
  else if (x = 'E' || x = 'e') && !behind && b[i + 1]? = some '\'' then
    return { c with position := ← escapedEnd b (i + 1 + 1) }
  else if x = '$' && !behind then
    return { c with position := (← dollarEnd? s i).getD (i + 1) }
  else if x = '"' then takeName s c
  else if x = '-' && b[i + 1]? = some '-' then
    return { c with position := ← through s ['\n'] i }
  else if x = '/' && b[i + 1]? = some '*' then
    return { c with position := ← through s ['*', '/'] (i + 2) }
  else if x = ':' && b[i + 1]? = some ':' then return { c with position := i + 2 }
  else if x = ':' && b[i + 1]?.any Segment.isPlaceholderStart then takeLabel s c
  else return { c with position := i + 1 }

/-- Go on to the end of the statement. -/
def run (s : List Char) (c : Cursor) : Checked (List Segment) := do
  if _h : c.position < (bytes s).length then
    let next ← c.next s
    if _h : c.position < next.position then run s next
    else throw (.stuck c.position next.position)
  else c.flush s (bytes s).length
  termination_by size s - c.position
  decreasing_by
    have hsize := length_bytes s
    omega

end Cursor

/-- The segments of a statement, found in its bytes. -/
def segmentsByPosition (sql : String) : Checked (List Segment) := Cursor.run sql.toList {}

end BoundSql.Sql
