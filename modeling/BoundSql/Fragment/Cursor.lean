import BoundSql.Fragment.Template
import BoundSql.Text.Position

/-!
# Pieces of templates by positions

The pieces of a template, found by a cursor that looks for opening brackets in its bytes. Where a
marker ends is found in the characters behind its bracket, and what precedes it in the bytes before:
the cursor goes back over a keyword, over angle brackets and over a quote, but not behind the last
piece. Every access is checked, and so is that each step leads on.
-/

namespace BoundSql.Fragment

open Text

/-- A cursor in a template. -/
structure Cursor where
  /-- Where the last piece ended. -/
  consumed : Nat := 0
  /-- Where the next opening bracket is looked for. -/
  search : Nat := 0
  /-- The pieces found. -/
  found : List Piece := []

namespace Cursor

/-- Where a name ends that goes on at a position with the characters of a text. -/
def nameEnd (position : Nat) : List Char → Nat
  | [] => position
  | c :: rest =>
    if Sql.isNameChar c then nameEnd (position + c.utf8Size) rest else position

/-- How many bytes the name has with which a text begins. -/
def nameSize? : List Char → Option Nat
  | [] => none
  | c :: rest => if Sql.isNameStart c then some (nameEnd c.utf8Size rest) else none

/-- The position behind the closing bracket at `position`, if there is one. -/
def bracketEnd? (s : List Char) (position : Nat) : Checked (Option Nat) := do
  return if (← cutFrom s position).head? = some '>' then some (position + 1) else none

/-- The position behind the marker whose opening bracket stands at `start`; nothing if the bracket
opens no marker. -/
def markerEnd? (s : List Char) (start : Nat) : Checked (Option Nat) := do
  match nameSize? (← cutFrom s (start + 1)) with
  | none => return none
  | some n =>
    let stop := start + 1 + n
    if (← cutFrom s stop).head? = some '.' then
      match nameSize? (← cutFrom s (stop + 1)) with
      | none => return none
      | some n => bracketEnd? s (stop + 1 + n)
    else bracketEnd? s stop

/-- Where the angle brackets begin that end before a position. -/
def bracketsStart (b : List Char) (consumed : Nat) : Nat → Checked Nat
  | 0 => return 0
  | before + 1 => do
    if consumed < before + 1 then
      if (← byteAt b before) = '<' then bracketsStart b consumed before else return before + 1
    else return before + 1

/-- The quote that ends before a position. -/
def quoteBefore? (b : List Char) (consumed position : Nat) : Checked (Option Char) := do
  if consumed < position then
    let x ← byteAt b (← goBack position 1)
    return if isMarkerQuote x then some x else none
  else return none

/-- The quote before a marker or its keyword, with any number of angle brackets behind it, and where
it stands; without a quote, where the marker or its keyword begins. -/
def leadStart (b : List Char) (consumed start : Nat) : Checked (Option Char × Nat) := do
  let brackets ← bracketsStart b consumed start
  match ← quoteBefore? b consumed brackets with
  | some quote => return (some quote, ← goBack brackets 1)
  | none => return (none, start)

/-- The keyword before a marker, and where it begins; without a keyword, where the marker does. -/
def keywordStart (s : List Char) (consumed start : Nat) : Checked (Option TableKeyword × Nat) := do
  let before := trimEnd (← cut s consumed start)
  match TableKeyword.all.find? fun keyword => keyword.text.toList.isSuffixOf before with
  | some keyword =>
    return (some keyword, ← goBack (consumed + size before) (size keyword.text.toList))
  | none => return (none, start)

/-- The position behind the quote that closes a marker, if it comes before any comma. -/
def closingEnd? (b : List Char) (quote : Option Char) (stop : Nat) : Checked (Option Nat) := do
  match quote with
  | none => return none
  | some quote =>
    let rest ← bytesFrom b stop
    match rest.findIdx? fun x => x = quote || x = ',' with
    | none => return none
    | some n => return if (← byteAt rest n) = quote then some (stop + n + 1) else none

/-- The pieces found and the text up to a position, if there is any. -/
def flush (s : List Char) (c : Cursor) (position : Nat) : Checked (List Piece) := do
  if c.consumed < position then return c.found ++ [.text (← cut s c.consumed position)]
  else return c.found

/-- The cursor behind the marker that goes from `start` to `stop`. -/
def take (s : List Char) (c : Cursor) (start stop : Nat) : Checked Cursor := do
  let b := bytes s
  let name ← cut s (start + 1) (← goBack stop 1)
  let (keyword, gapStart) ← keywordStart s c.consumed start
  let (quote, leadStart) ← leadStart b c.consumed gapStart
  let found ← flush s c leadStart
  match ← closingEnd? b quote stop with
  | some quotedEnd =>
    let quoted ← cut s leadStart quotedEnd
    return { consumed := quotedEnd, search := quotedEnd, found := found ++ [.quoted quoted] }
  | none =>
    let lead ← cut s leadStart gapStart
    return { consumed := stop, search := stop, found := found ++ [.marker lead keyword name] }

/-- The cursor behind the bracket at `start`, or behind the marker that it opens. -/
def passBracket (s : List Char) (c : Cursor) (start : Nat) : Checked Cursor := do
  match ← markerEnd? s start with
  | some stop => c.take s start stop
  -- A bracket that opens no marker is passed over, and the next one gets its chance.
  | none => return { c with search := start + 1 }

/-- Go on to the end of the template. -/
def run (s : List Char) (c : Cursor) : Checked (List Piece) := do
  match find? ['<'] (← cutFrom s c.search) with
  | some n =>
    let start := c.search + n
    let next ← c.passBracket s start
    if _h : start < next.search ∧ next.search ≤ size s then run s next
    else throw (.stuck start next.search)
  | none => c.flush s (size s)
  termination_by size s - c.search

end Cursor

/-- The pieces of a template, found in its bytes. -/
def scanByPosition (template : String) : Checked (List Piece) := Cursor.run template.toList {}

end BoundSql.Fragment
