import BoundSql.Proofs.Filter.Structure
import BoundSql.Proofs.Join.Emission

/-!
# What a join says

The formula of a condition between two tables is what the condition says, with its columns under the
names by which the statement introduces the tables. A join writes its conditions as such formulas
(`JoinCondition.tokens_of_compileAll`).
-/

namespace BoundSql

open Sql (Connective Formula Quoter Reference Token Tokens)

/-- The reference for a column under a table: its own qualification if it names a table. -/
def JoinCondition.reference (q : Quoter) (named : Bool) (table column : String) : Reference :=
  if named then q.columnReference column else { qualifier := some table, name := column }

mutual

/-- What a condition between the tables with the names `base` and `joined` says. -/
def JoinCondition.formula (q : Quoter) (base joined : String) : JoinCondition → Formula
  | .pair localColumn foreignColumn =>
    .atom (.compare
      (JoinCondition.reference q (JoinCondition.namesTable localColumn) base localColumn) .equal
      (.column (JoinCondition.reference q ('.' ∈ foreignColumn.toList) joined foreignColumn)))
  | .columns left op right =>
    .atom (.compare (q.columnReference left) op (.column (q.columnReference right)))
  | .group connective conditions =>
    .group connective (JoinCondition.formulas q base joined conditions)

/-- What conditions between two tables say, one after the other. -/
def JoinCondition.formulas (q : Quoter) (base joined : String) : List JoinCondition → List Formula
  | [] => []
  | condition :: rest =>
    condition.formula q base joined :: JoinCondition.formulas q base joined rest

end

mutual

/-- No group in a condition between two tables is empty. -/
def JoinCondition.Filled : JoinCondition → Prop
  | .group _ conditions => conditions ≠ [] ∧ JoinCondition.AllFilled conditions
  | _ => True

/-- No group in any of the conditions between two tables is empty. -/
def JoinCondition.AllFilled : List JoinCondition → Prop
  | [] => True
  | condition :: rest => condition.Filled ∧ JoinCondition.AllFilled rest

end

/-- As many things are said as there are conditions between two tables. -/
theorem JoinCondition.formulas_eq_nil_iff {q : Quoter} {base joined : String}
    {cs : List JoinCondition} : JoinCondition.formulas q base joined cs = [] ↔ cs = [] := by
  cases cs <;> simp [JoinCondition.formulas]

mutual

/-- A condition between two tables says something without empty groups exactly if it has none. -/
theorem JoinCondition.filled_formula_iff (q : Quoter) (base joined : String) :
    ∀ {c : JoinCondition}, (c.formula q base joined).Filled ↔ c.Filled
  | .pair _ _ => Iff.rfl
  | .columns _ _ _ => Iff.rfl
  | .group _ _ =>
    and_congr (not_congr JoinCondition.formulas_eq_nil_iff)
      (JoinCondition.allFilled_formulas_iff q base joined)

/-- Conditions between two tables say something without empty groups exactly if they have none. -/
theorem JoinCondition.allFilled_formulas_iff (q : Quoter) (base joined : String) :
    ∀ {cs : List JoinCondition},
      Formula.AllFilled (JoinCondition.formulas q base joined cs) ↔ JoinCondition.AllFilled cs
  | [] => Iff.rfl
  | _ :: _ => and_congr (JoinCondition.filled_formula_iff q base joined)
      (JoinCondition.allFilled_formulas_iff q base joined)

end

variable {q : Quoter} {base joined : String}

/-- A column under a table is written as the reference for it. -/
theorem JoinCondition.tokens_of_qualified {named : Bool} {table column : String} {d d' : Draft}
    {ts : Tokens} (h : (qualified named [.name table] column).exec q d = (.ok ts, d')) :
    ts = (JoinCondition.reference q named table column).tokens := by
  rw [qualified] at h
  rw [JoinCondition.reference]
  -- A column that names its table keeps it.
  split at h
  · next hnamed =>
    rw [if_pos hnamed]
    exact (Build.tokens_of_column h).1
  · next hnamed =>
    simp only [Build.exec_bind_ok, Build.exec_plainColumn_ok, Build.exec_pure_ok] at h
    obtain ⟨name, _, ⟨hname, rfl⟩, rfl, rfl⟩ := h
    rw [if_neg hnamed, (Quoter.plainColumn_ok hname).1]
    rfl

mutual

/-- A condition between two tables is written as what it says. -/
theorem JoinCondition.tokens_of_compile : ∀ (c : JoinCondition) {d d' : Draft} {ts : Tokens},
    (c.compile [.name base] [.name joined]).exec q d = (.ok ts, d') →
      ts = (c.formula q base joined).tokens
  | .pair localColumn foreignColumn, d, d', ts, h => by
    simp only [JoinCondition.compile, Build.exec_bind_ok, Build.exec_pure_ok] at h
    obtain ⟨left, d₁, hleft, right, d₂, hright, rfl, rfl⟩ := h
    rw [JoinCondition.tokens_of_qualified hleft, JoinCondition.tokens_of_qualified hright]
    rfl
  | .columns left op right, d, d', ts, h => by
    simp only [JoinCondition.compile, Build.exec_bind_ok, Build.exec_pure_ok] at h
    obtain ⟨left, d₁, hleft, right, d₂, hright, rfl, rfl⟩ := h
    rw [(Build.tokens_of_column hleft).1, (Build.tokens_of_column hright).1]
    rfl
  | .group connective conditions, d, d', ts, h => by
    simp only [JoinCondition.compile, Build.exec_bind_ok, Build.exec_pure_ok] at h
    obtain ⟨inner, d₁, hinner, rfl, rfl⟩ := h
    rw [JoinCondition.tokens_of_compileAll connective conditions hinner]
    rfl

/-- Sibling conditions between two tables are written as what they say, with the connective between
each two. -/
theorem JoinCondition.tokens_of_compileAll (connective : Connective) :
    ∀ (cs : List JoinCondition) {d d' : Draft} {ts : Tokens},
    (JoinCondition.compileAll [.name base] [.name joined] connective cs).exec q d = (.ok ts, d') →
      ts = Formula.siblings connective (JoinCondition.formulas q base joined cs)
  | [], d, d', ts, h => by
    rw [JoinCondition.compileAll, Build.exec_pure_ok] at h
    exact h.1.symm
  | [c], d, d', ts, h => by
    rw [JoinCondition.compileAll] at h
    exact c.tokens_of_compile h
  | c :: next :: rest, d, d', ts, h => by
    simp only [JoinCondition.compileAll, Build.exec_bind_ok, Build.exec_pure_ok] at h
    obtain ⟨first, d₁, hfirst, others, d₂, hothers, rfl, rfl⟩ := h
    rw [c.tokens_of_compile hfirst,
      JoinCondition.tokens_of_compileAll connective (next :: rest) hothers]
    rfl

end

/-- Conditions between two tables are written as what they say about the quoted names. -/
theorem JoinCondition.tokens_of_compileAll_quoted {baseName joinedName : String}
    {baseTokens joinedTokens ts : Tokens} {d d' : Draft} {c : Connective} {cs : List JoinCondition}
    (hbase : q.table baseName = .ok baseTokens) (hjoined : q.table joinedName = .ok joinedTokens)
    (h : (compileAll baseTokens joinedTokens c cs).exec q d = (.ok ts, d')) :
    ts = Formula.siblings c
      (formulas q (q.tablePrefix ++ baseName) (q.tablePrefix ++ joinedName) cs) := by
  obtain ⟨rfl, -⟩ := Quoter.table_ok hbase
  obtain ⟨rfl, -⟩ := Quoter.table_ok hjoined
  exact tokens_of_compileAll c cs h

end BoundSql
