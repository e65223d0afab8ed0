import BoundSql.Sql.Operator

/-!
# Statement tokens

A statement under construction is a list of tokens. The fixed words form a closed type, so what a
specification contributes to a statement stands in names, parameters, numbers and verbatim texts
only.
-/

namespace BoundSql.Sql

/-- The fixed words of statements, with the blanks that belong to them. -/
inductive Word where
  /-- Head of a query. -/
  | select
  /-- Before the first table of a query. -/
  | source
  /-- Between a name and its alias. -/
  | asAlias
  /-- Head of an insertion. -/
  | insertInto
  /-- Before the rows of an insertion. -/
  | values
  /-- Head of an update. -/
  | update
  /-- Before the assignments of an update. -/
  | assignments
  /-- Head of a deletion. -/
  | deleteFrom
  /-- Before the conditions of a filter. -/
  | conditions
  /-- Before grouping columns. -/
  | groupBy
  /-- Before the conditions on groups. -/
  | having
  /-- Before ordering columns. -/
  | orderBy
  /-- Before a count of rows. -/
  | limit
  /-- Before a number of rows to skip. -/
  | offset
  /-- The test for no value. -/
  | isNull
  /-- No value. -/
  | null
  /-- A condition that no row meets. -/
  | never
  /-- Before a list of alternatives. -/
  | among
  /-- All columns. -/
  | wildcard
  /-- Opening parenthesis. -/
  | openParen
  /-- Closing parenthesis. -/
  | closeParen
  /-- Between the parts of a qualified name. -/
  | dot
  /-- Between the items of a tight list. -/
  | comma
  /-- Between the items of a wide list. -/
  | commaSpace
  /-- A blank. -/
  | space
  /-- A comparison between two operands. -/
  | compare (c : Comparison)
  /-- A connective between two conditions. -/
  | connect (c : Connective)
  /-- A direction behind a column. -/
  | direction (d : Direction)
  /-- Head of a join. -/
  | join (k : JoinKind)
  /-- Before the shared columns of a join. -/
  | shared
  /-- Before the conditions of a join. -/
  | on
  deriving DecidableEq, Repr

/-- The text of a fixed word. -/
def Word.text : Word → String
  | .select => "SELECT "
  | .source => " FROM "
  | .asAlias => " AS "
  | .insertInto => "INSERT INTO "
  | .values => " VALUES "
  | .update => "UPDATE "
  | .assignments => " SET "
  | .deleteFrom => "DELETE FROM "
  | .conditions => " WHERE "
  | .groupBy => " GROUP BY "
  | .having => " HAVING "
  | .orderBy => " ORDER BY "
  | .limit => " LIMIT "
  | .offset => " OFFSET "
  | .isNull => " IS NULL"
  | .null => "NULL"
  | .never => "1=0"
  | .among => " IN ("
  | .wildcard => "*"
  | .openParen => "("
  | .closeParen => ")"
  | .dot => "."
  | .comma => ","
  | .commaSpace => ", "
  | .space => " "
  | .compare c => " " ++ c.text ++ " "
  | .connect c => " " ++ c.text ++ " "
  | .direction d => " " ++ d.text
  | .join k => k.text ++ " "
  | .shared => " USING ("
  | .on => " ON "

/-- A token of a statement. -/
inductive Token where
  /-- A fixed word. -/
  | word (w : Word)
  /-- A quoted name, by its content. -/
  | name (content : String)
  /-- A named parameter, with its colon. -/
  | parameter (label : String)
  /-- A number. -/
  | number (digits : String)
  /-- A text taken over as it is. -/
  | verbatim (chars : String)
  deriving DecidableEq, Repr

/-- The text of a token. -/
def Token.text : Token → String
  | .word w => w.text
  | .name content => "\"" ++ content ++ "\""
  | .parameter label => label
  | .number digits => digits
  | .verbatim chars => chars

/-- Part of a statement. -/
abbrev Tokens : Type := List Token

/-- The text of a part of a statement. -/
def render (tokens : Tokens) : String := String.join (tokens.map Token.text)

/-- The parts with a fixed word between each two of them. -/
def joinWith (separator : Word) : List Tokens → Tokens
  | [] => []
  | [part] => part
  | part :: rest => part ++ Token.word separator :: joinWith separator rest

/-- No tokens have no text. -/
@[simp]
theorem render_nil : render [] = "" := rfl

end BoundSql.Sql
