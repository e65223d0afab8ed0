/-!
# Placeholder names

Parameters are named by a colon and a word. The names that the library makes are numbered.
-/

namespace BoundSql.Sql

/-- The `n`-th name that the library makes. -/
def placeholderName (n : Nat) : String := ":ph" ++ toString n ++ "_b"

/-- A caller's parameter name with its colon. -/
def normalizeName (name : String) : String :=
  match name.toList with
  | ':' :: _ => name
  | _ => ":" ++ name

end BoundSql.Sql
