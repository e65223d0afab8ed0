/-!
# Operators and fixed words

The closed vocabularies from which a specification chooses: comparisons, connectives, directions
of order and kinds of join.
-/

namespace BoundSql.Sql

/-- A comparison of a column. -/
inductive Comparison where
  /-- Greater. -/
  | greater
  /-- Greater or equal. -/
  | atLeast
  /-- Less. -/
  | less
  /-- Less or equal. -/
  | atMost
  /-- Equal. -/
  | equal
  /-- Not equal. -/
  | unequal
  deriving DecidableEq, Repr

namespace Comparison

/-- The operator in SQL. -/
def text : Comparison → String
  | greater => ">"
  | atLeast => ">="
  | less => "<"
  | atMost => "<="
  | equal => "="
  | unequal => "!="

/-- Read an operator. -/
def ofText? : String → Option Comparison
  | ">" => some greater
  | ">=" => some atLeast
  | "<" => some less
  | "<=" => some atMost
  | "=" => some equal
  | "!=" => some unequal
  | _ => none

/-- Every comparison is read back from its text. -/
theorem ofText?_text (c : Comparison) : ofText? c.text = some c := by cases c <;> rfl

end Comparison

/-- How sibling conditions are joined. -/
inductive Connective where
  /-- All hold. -/
  | and
  /-- At least one holds. -/
  | or
  deriving DecidableEq, Repr

/-- The connective in SQL. -/
def Connective.text : Connective → String
  | .and => "AND"
  | .or => "OR"

/-- A direction of order. -/
inductive Direction where
  /-- Ascending. -/
  | ascending
  /-- Descending. -/
  | descending
  deriving DecidableEq, Repr

namespace Direction

/-- The direction in SQL. -/
def text : Direction → String
  | ascending => "ASC"
  | descending => "DESC"

/-- Read a direction. -/
def ofText? : String → Option Direction
  | "ASC" => some ascending
  | "DESC" => some descending
  | _ => none

end Direction

/-- A kind of join. -/
inductive JoinKind where
  /-- Keeps the rows of the tables before. -/
  | left
  /-- Keeps the rows of the joined table. -/
  | right
  /-- Keeps the rows of both sides. -/
  | full
  /-- Keeps matching rows only. -/
  | inner
  deriving DecidableEq, Repr

namespace JoinKind

/-- The join in SQL. -/
def text : JoinKind → String
  | left => "LEFT JOIN"
  | right => "RIGHT JOIN"
  | full => "FULL JOIN"
  | inner => "INNER JOIN"

/-- The join that a symbol stands for. -/
def ofSymbol? : String → Option JoinKind
  | ">" => some left
  | "<" => some right
  | "<>" => some full
  | "><" => some inner
  | _ => none

end JoinKind

end BoundSql.Sql
