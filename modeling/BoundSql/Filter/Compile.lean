import BoundSql.Build
import BoundSql.Filter.Basic

/-!
# Compiling filters

Conditions become tokens in the order in which they are given, and every value gets a placeholder
of its own. A limit that is not a number is dropped.
-/

namespace BoundSql

open Sql (Token Tokens)

mutual

/-- The tokens of a condition. -/
def Condition.compile : Condition → Build Tokens
  | .group connective _ conditions => do
    let inner ← Condition.compileAll connective conditions
    return Token.word .openParen :: inner ++ [Token.word .closeParen]
  | .columns left op right => do
    let left ← Build.column left
    let right ← Build.column right
    return left ++ Token.word (.compare op) :: right
  | .equals column value => do
    let column ← Build.column column
    if value.isNull then return column ++ [Token.word .isNull]
    let parameter ← Build.pushValue value
    return column ++ [Token.word (.compare .equal), parameter]
  | .compares column op value => do
    let column ← Build.column column
    let parameter ← Build.pushValue value
    return column ++ [Token.word (.compare op), parameter]
  | .among column values => do
    let column ← Build.column column
    match values with
    -- The column is checked even where nothing of it is written.
    | [] => return [Token.word .never]
    | values =>
      let parameters ← values.mapM Build.pushValue
      return column ++ Token.word .among ::
        Sql.joinWith .commaSpace (parameters.map fun p => [p]) ++ [Token.word .closeParen]

/-- The tokens of sibling conditions under a connective. -/
def Condition.compileAll (connective : Sql.Connective) : List Condition → Build Tokens
  | [] => return []
  | [condition] => condition.compile
  | condition :: rest => do
    let first ← condition.compile
    let others ← Condition.compileAll connective rest
    return first ++ Token.word (.connect connective) :: others

end

/-- A number for a limit: the text of a numeric value without blanks around it. -/
def Limit.number? (value : Value) : Option Token :=
  if value.isNumeric then value.asText?.map fun text => .number (Text.trimmed text) else none

/-- The tokens of a limit, if it is made of numbers. -/
def Limit.tokens? : Limit → Option Tokens
  | .count most => do
    let most ← Limit.number? most
    return [.word .limit, most]
  | .range skipped most => do
    let most ← Limit.number? most
    let skipped ← Limit.number? skipped
    return [.word .limit, most, .word .offset, skipped]

/-- The tokens of a column to order by. -/
def OrderItem.compile (item : OrderItem) : Build Tokens := do
  let column ← Build.column item.column
  match item.direction with
  | some direction => return column ++ [.word (.direction direction)]
  | none => return column

/-- A clause with its head, unless there is nothing in it. -/
def clause {α : Type} (head : Sql.Word) (items : List α) (body : List α → Build Tokens) :
    Build Tokens :=
  if items.isEmpty then return []
  else do
    let tokens ← body items
    return Token.word head :: tokens

/-- The tokens of a filter: its clauses in their order. -/
def Filter.compile (f : Filter) : Build Tokens := do
  let conditions ← clause .conditions f.conditions (Condition.compileAll .and)
  let grouping ← clause .groupBy f.grouping fun columns => do
    return Sql.joinWith .comma (← columns.mapM Build.column)
  let having ← clause .having f.having (Condition.compileAll .and)
  let order ← clause .orderBy f.order fun items => do
    return Sql.joinWith .comma (← items.mapM OrderItem.compile)
  let limit := (f.limit.bind Limit.tokens?).getD []
  return conditions ++ grouping ++ having ++ order ++ limit

end BoundSql
