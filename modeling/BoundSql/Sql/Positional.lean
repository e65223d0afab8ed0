import BoundSql.Sql.Segment

/-!
# Positional parameters

A database that knows numbered parameters only gets each named placeholder replaced by the number
of its name. Names are numbered from one in the order of their first appearance, and a repeated
name has one number.
-/

namespace BoundSql.Sql

/-- A statement with numbered parameters. -/
structure Positional where
  /-- The statement. -/
  sql : String
  /-- The name of each number, with its colon. -/
  names : List String
  deriving DecidableEq, Repr

/-- Number a name: the names with this one among them, and its number. -/
def numberName (names : List (List Char)) (name : List Char) : List (List Char) × Nat :=
  match names.idxOf? name with
  | some index => (names, index + 1)
  | none => (names ++ [name], names.length + 1)

/-- The text of segments with numbered parameters, given the names before, and all names. -/
def positionalFrom (names : List (List Char)) : List Segment → List Char × List (List Char)
  | [] => ([], names)
  | .placeholder name :: rest =>
    let numbered := numberName names name
    let tail := positionalFrom numbered.1 rest
    ('$' :: Nat.toDigits 10 numbered.2 ++ tail.1, tail.2)
  | segment :: rest =>
    let tail := positionalFrom names rest
    (segment.source ++ tail.1, tail.2)

/-- Replace the named placeholders of a statement by numbers. -/
def positional (sql : String) : Positional :=
  let numbered := positionalFrom [] (segments sql)
  ⟨String.ofList numbered.1, numbered.2.map String.ofList⟩

end BoundSql.Sql
