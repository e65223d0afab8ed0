import BoundSql.BindMap
import BoundSql.Sql.Identifier
import BoundSql.Sql.Segment

/-!
# Statements with their values written out

For people to read, a statement can be shown with every placeholder replaced by the value bound to
it and with names in the quotes of another dialect. Such a text is never sent to a database.
-/

namespace BoundSql.Sql

/-- How names are quoted in a statement that is shown. -/
inductive NameStyle where
  /-- Quotation marks. -/
  | ansi
  /-- Grave accents. -/
  | backtick
  /-- Square brackets. -/
  | bracket
  deriving DecidableEq, Repr, Inhabited

/-- A name in the quotes of a style. -/
def NameStyle.wrap (style : NameStyle) (name : List Char) : List Char :=
  match style with
  | .ansi => '"' :: name ++ ['"']
  | .backtick => '\x60' :: name ++ ['\x60']
  | .bracket => '[' :: name ++ [']']

/-- A bound value written out. -/
def literalValue (bound : Bound) : String :=
  let text := bound.value.asText?.getD ""
  match bound.kind with
  | .null => "NULL"
  | .lob => "[LOB]"
  | .str => quoteLiteral text
  | .int | .bool => text

/-- A segment with its value written out; a placeholder without a value stays. -/
def Segment.literal (binds : BindMap) (style : NameStyle) : Segment → List Char
  | .text chars => chars
  | .placeholder chars =>
    match Keyed.get? (String.ofList chars) binds with
    | some bound => (literalValue bound).toList
    | none => chars
  | .quotedName content => (if isName content then style else .ansi).wrap content

/-- A statement with its values written out. -/
def literalSql (sql : String) (binds : BindMap) (style : NameStyle) : String :=
  String.ofList ((segments sql).flatMap (Segment.literal binds style))

end BoundSql.Sql
