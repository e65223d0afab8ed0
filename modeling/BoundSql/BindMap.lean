import BoundSql.Keyed
import BoundSql.Value.Basic

/-!
# Bindings

The values bound to the parameters of a statement, by parameter name and in the order in which the
names first came up.
-/

namespace BoundSql

/-- Bound values by parameter name. -/
abbrev BindMap : Type := Keyed String Bound

namespace BindMap

/-- Bind a value to a name, in the place of an earlier value of the name. -/
def bind (name : String) (value : Value) (binds : BindMap) : BindMap :=
  Keyed.put name value.bind binds

/-- Bind values to names, one after the other. -/
def bindAll (pairs : List (String × Value)) (binds : BindMap) : BindMap :=
  pairs.foldl (fun binds pair => bind pair.1 pair.2 binds) binds

end BindMap

end BoundSql
