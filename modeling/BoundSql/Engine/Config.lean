import BoundSql.Json.Record
import BoundSql.Sql.Literal

/-!
# Engine configuration

What an engine is told once: what stands before table names, whether statements run at all, how
much of the log is kept, and in which quotes names are shown.
-/

namespace BoundSql

/-- Read the name of a name style. -/
def Sql.NameStyle.ofText? : String → Option Sql.NameStyle
  | "ansi" => some .ansi
  | "backtick" => some .backtick
  | "bracket" => some .bracket
  | _ => none

/-- How an engine behaves. -/
structure EngineConfig where
  /-- What is put before every table name. -/
  tablePrefix : String := ""
  /-- Statements are compiled and shown, and never run. -/
  testMode : Bool := false
  /-- All statements are kept in the log, and not the latest only. -/
  logging : Bool := false
  /-- How names are quoted in statements that are shown. -/
  literalStyle : Sql.NameStyle := .ansi
  deriving DecidableEq, Repr

/-- Read a configuration. -/
def EngineConfig.ofJson? (json : Json) : Option EngineConfig := do
  let [tablePrefix, testMode, logging, literalStyle] ←
    json.fields? ["prefix", "test_mode", "logging", "literal_style"] | none
  return {
    tablePrefix := ← Json.fieldOr? "" Json.string? tablePrefix
    testMode := ← Json.fieldOr? false Json.bool? testMode
    logging := ← Json.fieldOr? false Json.bool? logging
    literalStyle :=
      ← Json.fieldOr? .ansi (fun json => json.word?.bind Sql.NameStyle.ofText?) literalStyle }

end BoundSql
