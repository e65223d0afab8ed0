/-!
# Column types

The types that the database gives to columns and parameters. The types with a binary form that the
library knows are named; any other type is known by its schema and its name.
-/

namespace BoundSql

/-- A type of a column or a parameter. -/
inductive ColumnType where
  /-- Truth values. -/
  | bool
  /-- Integers of 16 bits. -/
  | int2
  /-- Integers of 32 bits. -/
  | int4
  /-- Integers of 64 bits. -/
  | int8
  /-- Natural numbers of 32 bits that identify objects of the database. -/
  | oid
  /-- Single-precision numbers. -/
  | float4
  /-- Double-precision numbers. -/
  | float8
  /-- Decimal numbers. -/
  | numeric
  /-- JSON values, kept as text. -/
  | json
  /-- JSON values. -/
  | jsonb
  /-- Universally unique identifiers. -/
  | uuid
  /-- Dates. -/
  | date
  /-- Times of day. -/
  | time
  /-- Dates with a time of day. -/
  | timestamp
  /-- Instants. -/
  | timestamptz
  /-- Bytes. -/
  | bytea
  /-- Texts of limited length. -/
  | varchar
  /-- Texts. -/
  | text
  /-- Texts filled up with blanks. -/
  | bpchar
  /-- Names of objects of the database. -/
  | name
  /-- Texts whose type is not known. -/
  | unknown
  /-- Any other type; an enumeration has texts for its values. -/
  | other (schema : String) (typeName : String) (enumeration : Bool)
  deriving DecidableEq, Repr

namespace ColumnType

/-- The name of a type. -/
def typeName : ColumnType → String
  | bool => "bool"
  | int2 => "int2"
  | int4 => "int4"
  | int8 => "int8"
  | oid => "oid"
  | float4 => "float4"
  | float8 => "float8"
  | numeric => "numeric"
  | json => "json"
  | jsonb => "jsonb"
  | uuid => "uuid"
  | date => "date"
  | time => "time"
  | timestamp => "timestamp"
  | timestamptz => "timestamptz"
  | bytea => "bytea"
  | varchar => "varchar"
  | text => "text"
  | bpchar => "bpchar"
  | name => "name"
  | unknown => "unknown"
  | other _ typeName _ => typeName

/-- The schema of the types that come with the database. -/
def systemSchema : String := "pg_catalog"

/-- How a type is shown: its schema stands before its name, unless it is one of the two that need no
mention. -/
def qualifiedName : ColumnType → String
  | other schema typeName _ =>
    if schema = "public" ∨ schema = systemSchema then typeName else schema ++ "." ++ typeName
  | type => type.typeName

/-- The types that are named. -/
def named : List ColumnType :=
  [bool, int2, int4, int8, oid, float4, float8, numeric, json, jsonb, uuid, date, time, timestamp,
    timestamptz, bytea, varchar, text, bpchar, name, unknown]

/-- The type that comes with the database under a name. -/
def ofSystemName (typeName : String) : ColumnType :=
  (named.find? fun type => type.typeName = typeName).getD (other systemSchema typeName false)

/-- The extension types that hold tree labels; their binary form begins with a version. -/
def treeNames : List String := ["ltree", "lquery", "ltxtquery"]

/-- Whether the binary form of a type is its text behind a version. -/
def isTree : ColumnType → Bool
  | other _ typeName _ => treeNames.contains typeName
  | _ => false

/-- Whether the binary form of a type is its text. -/
def isText : ColumnType → Bool
  | varchar | text | bpchar | name | unknown => true
  | other _ typeName _ => typeName = "citext"
  | _ => false

/-- Whether a type is an enumeration. -/
def isEnumeration : ColumnType → Bool
  | other _ _ flag => flag
  | _ => false

end ColumnType

end BoundSql
