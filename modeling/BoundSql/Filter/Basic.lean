import BoundSql.Sql.Operator
import BoundSql.Value.Basic

/-!
# Filters

A filter chooses rows: conditions, of which all must hold, then grouping columns, conditions on
groups, an order and a limit.
-/

namespace BoundSql

/-- A condition on a row. -/
inductive Condition where
  /-- A column has a value; the null value asks for a column without value. -/
  | equals (column : String) (value : Value)
  /-- A column has one of the values. -/
  | among (column : String) (values : List Value)
  /-- A column compares to a value. -/
  | compares (column : String) (op : Sql.Comparison) (value : Value)
  /-- A column compares to another one. -/
  | columns (left : String) (op : Sql.Comparison) (right : String)
  /-- Conditions in parentheses under a connective of their own; the label only tells groups
  apart. -/
  | group (connective : Sql.Connective) (label : Option String) (conditions : List Condition)

/-- A column to order by. -/
structure OrderItem where
  /-- The column. -/
  column : String
  /-- The direction, if one is named. -/
  direction : Option Sql.Direction
  deriving DecidableEq, Repr

/-- How many rows are wanted. -/
inductive Limit where
  /-- At most so many rows. -/
  | count (count : Value)
  /-- At most so many rows after skipping some. -/
  | range (offset : Value) (count : Value)
  deriving DecidableEq

/-- A choice of rows. -/
structure Filter where
  /-- Conditions that must all hold. -/
  conditions : List Condition := []
  /-- Columns to group by. -/
  grouping : List String := []
  /-- Conditions on groups that must all hold. -/
  having : List Condition := []
  /-- Columns to order by. -/
  order : List OrderItem := []
  /-- How many rows are wanted. -/
  limit : Option Limit := none

/-- Whether a filter asks for nothing. -/
def Filter.isEmpty (f : Filter) : Bool :=
  f.conditions.isEmpty && f.grouping.isEmpty && f.having.isEmpty && f.order.isEmpty &&
    f.limit.isNone

/-- Read the tag of a group of conditions: a connective, which may be followed by blanks and a label
that begins with `#`. -/
def Sql.Connective.ofTag? (tag : String) : Option (Sql.Connective × Option String) := do
  let s := tag.toList
  let head := s.takeWhile fun c => !Unicode.isBlank c
  let connective ←
    if head = "AND".toList then some .and else if head = "OR".toList then some .or else none
  match s.dropWhile fun c => !Unicode.isBlank c with
  | [] => return (connective, none)
  | rest =>
    match Text.trimStart rest with
    | '#' :: label => return (connective, some (String.ofList ('#' :: label)))
    | _ => none

end BoundSql
