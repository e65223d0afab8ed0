import BoundSql.Proofs.Sql.Quoted

/-!
# Formulas of conditions

What a condition says, apart from how it is written: comparisons and tests of columns, put together
by connectives. A comparison with no value is neither true nor false, so that formulas have one of
three truth values.

* `Formula.eval`: the truth value of a formula;
* `Formula.collapse`: the formula without groups of one part, which say what their part says
  (`Formula.eval_collapse`);
* `Formula.tokens`: how a formula is written, with each group in parentheses.
-/

namespace BoundSql.Sql

/-- The right side of a comparison. -/
inductive Operand where
  /-- A parameter. -/
  | parameter (label : String)
  /-- A column. -/
  | column (r : Reference)
  deriving DecidableEq, Repr

/-- A condition without connectives. -/
inductive Atom where
  /-- A column compares to something. -/
  | compare (left : Reference) (op : Comparison) (right : Operand)
  /-- A column has no value. -/
  | isNull (column : Reference)
  /-- A column has one of the values of parameters, of which there is at least one. -/
  | among (column : Reference) (first : String) (others : List String)
  /-- A condition that no row meets. -/
  | never
  deriving DecidableEq, Repr

/-- Conditions under connectives. -/
inductive Formula where
  /-- A single condition. -/
  | atom (a : Atom)
  /-- Conditions under a connective. -/
  | group (connective : Connective) (parts : List Formula)

/-- A truth value for each condition without connectives; there may be none. -/
abbrev Valuation : Type := Atom → Option Bool

namespace Connective

/-- Two truth values under a connective. One of them can decide alone. -/
def combine : Connective → Option Bool → Option Bool → Option Bool
  | .and, some true, b => b
  | .and, some false, _ => some false
  | .and, none, some false => some false
  | .and, none, _ => none
  | .or, some false, b => b
  | .or, some true, _ => some true
  | .or, none, some true => some true
  | .or, none, _ => none

/-- The truth value that decides nothing under a connective. -/
def neutral : Connective → Option Bool
  | .and => some true
  | .or => some false

/-- The neutral truth value leaves the other one as it is. -/
theorem combine_neutral (c : Connective) (a : Option Bool) : c.combine a c.neutral = a := by
  rcases a with _ | _ | _ <;> cases c <;> rfl

end Connective

namespace Formula

mutual

/-- The truth value of a formula. -/
def eval (v : Valuation) : Formula → Option Bool
  | .atom a => v a
  | .group connective parts => evalAll v connective parts

/-- The truth value of formulas under a connective. -/
def evalAll (v : Valuation) (connective : Connective) : List Formula → Option Bool
  | [] => connective.neutral
  | part :: rest => connective.combine (part.eval v) (evalAll v connective rest)

end

/-- Formulas under a connective; a single one needs none. -/
def joined (connective : Connective) : List Formula → Formula
  | [part] => part
  | parts => .group connective parts

mutual

/-- The formula without groups of one part. -/
def collapse : Formula → Formula
  | .atom a => .atom a
  | .group connective parts => joined connective (collapseAll parts)

/-- The formulas without groups of one part in them. -/
def collapseAll : List Formula → List Formula
  | [] => []
  | part :: rest => part.collapse :: collapseAll rest

end

mutual

/-- No group in a formula is empty. -/
def Filled : Formula → Prop
  | .atom _ => True
  | .group _ parts => parts ≠ [] ∧ AllFilled parts

/-- No group in any of the formulas is empty. -/
def AllFilled : List Formula → Prop
  | [] => True
  | part :: rest => part.Filled ∧ AllFilled rest

end

/-- Where there are formulas, there are formulas without groups of one part. -/
theorem collapseAll_ne_nil {parts : List Formula} (h : parts ≠ []) : collapseAll parts ≠ [] := by
  cases parts with
  | nil => exact absurd rfl h
  | cons part rest => exact List.cons_ne_nil _ _

/-- A formula without its connective, if it has but one part, has the same truth value. -/
theorem eval_joined (v : Valuation) (c : Connective) (parts : List Formula) :
    (joined c parts).eval v = evalAll v c parts := by
  rcases parts with _ | ⟨part, _ | ⟨next, rest⟩⟩
  · rfl
  · exact (c.combine_neutral (part.eval v)).symm
  · rfl

mutual

/-- Without groups of one part a formula has the same truth value. -/
theorem eval_collapse (v : Valuation) : ∀ f : Formula, f.collapse.eval v = f.eval v
  | .atom _ => rfl
  | .group c parts => by
    rw [collapse, eval_joined, eval]
    exact evalAll_collapseAll v c parts

/-- Without groups of one part in them formulas under a connective have the same truth value. -/
theorem evalAll_collapseAll (v : Valuation) (c : Connective) :
    ∀ parts : List Formula, evalAll v c (collapseAll parts) = evalAll v c parts
  | [] => rfl
  | part :: rest => by
    rw [collapseAll, evalAll, evalAll, eval_collapse v part, evalAll_collapseAll v c rest]

end

end Formula

/-- The tokens of the right side of a comparison. -/
def Operand.tokens : Operand → Tokens
  | parameter label => [.parameter label]
  | column r => r.tokens

/-- The tokens of a condition without connectives. -/
def Atom.tokens : Atom → Tokens
  | compare left op right => left.tokens ++ Token.word (.compare op) :: right.tokens
  | isNull column => column.tokens ++ [.word .isNull]
  | among column first others =>
    column.tokens ++ Token.word .among ::
      joinWith .commaSpace ((first :: others).map fun label => [.parameter label]) ++
        [.word .closeParen]
  | never => [.word .never]

namespace Formula

mutual

/-- The tokens of a formula: a group stands in parentheses. -/
def tokens : Formula → Tokens
  | .atom a => a.tokens
  | .group connective parts =>
    Token.word .openParen :: siblings connective parts ++ [.word .closeParen]

/-- The tokens of formulas with a connective between each two of them. -/
def siblings (connective : Connective) : List Formula → Tokens
  | [] => []
  | [part] => part.tokens
  | part :: rest => part.tokens ++ Token.word (.connect connective) :: siblings connective rest

end

end Formula

end BoundSql.Sql
