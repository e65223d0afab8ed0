import BoundSql.Fragment.Basic
import BoundSql.Json.Member

/-!
# Fragments from JSON

A fragment is a mapping with the template under `raw` and, optionally, its parameters under
`params`.
-/

namespace BoundSql.Fragment

/-- Give the parameters of a mapping their values. -/
def bindMembers (members : List (String × Json)) (f : Fragment) : Fragment :=
  members.foldl (fun f member => f.bind member.1 (.ofJson member.2)) f

/-- Read a fragment. A mapping with other members, or without a string under `raw`, is none. -/
def ofJson? (json : Json) : Option (Except Error Fragment) := do
  let .object members := json | none
  let template ← (← json.member? "raw").string?
  guard (members.all fun member => member.1 = "raw" || member.1 = "params")
  match json.member? "params" with
  | none => return .ok { template }
  | some params =>
    return (params.asMapping "raw params").map fun params => bindMembers params { template }

end BoundSql.Fragment
