import BoundSql.Filter.Basic
import BoundSql.Join.Basic
import BoundSql.Projection.Basic

/-!
# Statements

The statements that can be compiled: queries, insertions, updates and deletions described by data,
and fragments.
-/

namespace BoundSql

/-- A query. -/
structure Query where
  /-- The table, with its alias in parentheses if it has one. -/
  table : String
  /-- The joined tables. -/
  joins : Option Joins := none
  /-- The columns. -/
  projection : Projection := .all
  /-- The choice of rows. -/
  filter : Option Filter := none

/-- What a column is set to. -/
inductive Assignment where
  /-- A value. -/
  | value (value : Value)
  /-- What a fragment computes. -/
  | fragment (fragment : Fragment)
  deriving DecidableEq

/-- What the columns of a row are set to, in order. -/
abbrev Assignments : Type := Keyed String Assignment

/-- A statement described by data. -/
inductive Statement where
  /-- Read rows. -/
  | select (query : Query)
  /-- Add rows. -/
  | insert (table : String) (rows : List Assignments)
  /-- Change rows. -/
  | update (table : String) (assignments : Assignments) (filter : Option Filter)
  /-- Remove rows. -/
  | delete (table : String) (filter : Option Filter)
  /-- Whatever a fragment says. -/
  | raw (fragment : Fragment)

end BoundSql
