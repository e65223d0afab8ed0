import BoundSql.BindMap
import BoundSql.Fragment.Template
import BoundSql.Sql.Placeholder
import BoundSql.Sql.Quoter

/-!
# Fragments

A fragment is a template with parameters of its own. Expanding it quotes the names at its markers
and leaves all other text alone; its parameters keep their names.
-/

namespace BoundSql

/-- A template with its parameters. -/
structure Fragment where
  /-- The template. -/
  template : String
  /-- The values of its parameters, by name with colon. -/
  params : Keyed String Value := []
  deriving DecidableEq

namespace Fragment

/-- Give a parameter a value. -/
def bind (name : String) (value : Value) (f : Fragment) : Fragment :=
  { f with params := Keyed.put (Sql.normalizeName name) value f.params }

/-- A piece of a template with its name quoted. -/
def Piece.expand (q : Sql.Quoter) : Piece → Except Error Sql.Tokens
  | text chars => .ok [.verbatim (String.ofList chars)]
  | quoted chars => .ok [.verbatim (String.ofList chars)]
  | marker lead (some keyword) name =>
    (q.table (String.ofList name)).map fun tokens =>
      .verbatim (String.ofList lead ++ keyword.text ++ " ") :: tokens
  | marker lead none name =>
    (q.column (String.ofList name)).map fun tokens => .verbatim (String.ofList lead) :: tokens

/-- Pieces of a template with their names quoted. -/
def expandPieces (q : Sql.Quoter) : List Piece → Except Error Sql.Tokens
  | [] => .ok []
  | piece :: rest =>
    match piece.expand q with
    | .error e => .error e
    | .ok tokens => (expandPieces q rest).map fun others => tokens ++ others

/-- The template with its names quoted. -/
def expand (q : Sql.Quoter) (f : Fragment) : Except Error Sql.Tokens :=
  expandPieces q (scan f.template)

end Fragment

end BoundSql
