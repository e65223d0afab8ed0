import BoundSql.Json.Basic

/-!
# Records in JSON

A record with named fields is written as an object, or as a list of its fields in order. A missing
field has its default; a member that is no field is passed over, but a list has no more items
than there are fields.
-/

namespace BoundSql.Json

/-- What is given for each of the named fields. -/
def fields? (names : List String) : Json → Option (List (Option Json))
  | .object members => some (names.map fun name => Keyed.get? name members)
  | .array items =>
    if items.length ≤ names.length then
      some ((List.range names.length).map fun index => items[index]?)
    else none
  | _ => none

/-- Read a field, which has a default. -/
def fieldOr? {α : Type} (absent : α) (read? : Json → Option α) : Option Json → Option α
  | none => some absent
  | some json => read? json

/-- Read null as no value. -/
def optional? {α : Type} (read? : Json → Option α) : Json → Option (Option α)
  | .null => some none
  | json => (read? json).map some

/-- A truth value. -/
def bool? : Json → Option Bool
  | .bool b => some b
  | _ => none

/-- A natural number below `bound`. -/
def natBelow? (bound : Nat) : Json → Option Nat
  | .number (.natural n) => if n.toNat < bound then some n.toNat else none
  | _ => none

/-- A list of strings. -/
def strings? : Json → Option (List String)
  | .array items => items.mapM string?
  | _ => none

/-- A word that stands alone, or as the only member of an object whose value is null. -/
def word? : Json → Option String
  | .string s => some s
  | .object [(name, .null)] => some name
  | _ => none

end BoundSql.Json
