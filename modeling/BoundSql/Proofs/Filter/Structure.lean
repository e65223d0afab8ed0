import BoundSql.Proofs.Filter.Emission
import BoundSql.Proofs.Sql.ReadBack

/-!
# What a filter says

The formula of a condition is what the condition says, with the names made for its values. A filter
writes its conditions as such formulas (`Condition.tokens_of_compileAll`), so that a database reads
back what the filter says.
-/

namespace BoundSql

open Sql (Atom Connective Formula Lexeme Operand Quoter Sound Token Tokens Word)

mutual

/-- What a condition says; `n` is the number of the next name that is made for a value. -/
def Condition.formula (q : Quoter) (n : Nat) : Condition → Formula
  | .equals column value =>
    if value.isNull then .atom (.isNull (q.columnReference column))
    else .atom (.compare (q.columnReference column) .equal (.parameter (Sql.placeholderName n)))
  | .compares column op _ =>
    .atom (.compare (q.columnReference column) op (.parameter (Sql.placeholderName n)))
  | .columns left op right =>
    .atom (.compare (q.columnReference left) op (.column (q.columnReference right)))
  | .among _ [] => .atom .never
  | .among column (_ :: values) =>
    .atom (.among (q.columnReference column) (Sql.placeholderName n)
      (Sql.labels (n + 1) values.length))
  | .group connective _ conditions => .group connective (Condition.formulas q n conditions)

/-- What conditions say, one after the other. -/
def Condition.formulas (q : Quoter) (n : Nat) : List Condition → List Formula
  | [] => []
  | condition :: rest =>
    condition.formula q n :: Condition.formulas q (n + condition.values.length) rest

end

mutual

/-- No group in a condition is empty. -/
def Condition.Filled : Condition → Prop
  | .group _ _ conditions => conditions ≠ [] ∧ Condition.AllFilled conditions
  | _ => True

/-- No group in any of the conditions is empty. -/
def Condition.AllFilled : List Condition → Prop
  | [] => True
  | condition :: rest => condition.Filled ∧ Condition.AllFilled rest

end

/-- As many things are said as there are conditions. -/
theorem Condition.formulas_eq_nil_iff {q : Quoter} {n : Nat} {cs : List Condition} :
    Condition.formulas q n cs = [] ↔ cs = [] := by
  cases cs <;> simp [Condition.formulas]

mutual

/-- A condition says something without empty groups exactly if it has none. -/
theorem Condition.filled_formula_iff (q : Quoter) (n : Nat) :
    ∀ {c : Condition}, (c.formula q n).Filled ↔ c.Filled
  | .equals column value => by
    rw [Condition.formula]
    split <;> exact Iff.rfl
  | .compares _ _ _ => Iff.rfl
  | .columns _ _ _ => Iff.rfl
  | .among _ [] => Iff.rfl
  | .among _ (_ :: _) => Iff.rfl
  | .group _ _ _ =>
    and_congr (not_congr Condition.formulas_eq_nil_iff) (Condition.allFilled_formulas_iff q n)

/-- Conditions say something without empty groups exactly if they have none. -/
theorem Condition.allFilled_formulas_iff (q : Quoter) (n : Nat) : ∀ {cs : List Condition},
    Formula.AllFilled (Condition.formulas q n cs) ↔ Condition.AllFilled cs
  | [] => Iff.rfl
  | _ :: _ =>
    and_congr (Condition.filled_formula_iff q n) (Condition.allFilled_formulas_iff q _)

end

variable {q : Quoter} {d d' : Draft} {ts : Tokens}

/-- A column is written as the reference for it. -/
theorem Build.tokens_of_column {name : String} (h : (Build.column name).exec q d = (.ok ts, d')) :
    ts = (q.columnReference name).tokens ∧ d = d' := by
  obtain ⟨hname, rfl⟩ := Build.exec_column_ok.1 h
  exact ⟨(Quoter.column_ok hname).1, rfl⟩

/-- The parameters made for a list of values. -/
theorem Build.tokens_of_pushValues {values : List Value} {parameters : List Token}
    (h : (values.mapM Build.pushValue).exec q d = (.ok parameters, d')) :
    parameters = (Sql.labels d.next values.length).map .parameter := by
  induction values generalizing d parameters with
  | nil =>
    obtain ⟨rfl, rfl⟩ := Build.exec_mapM_nil_ok.1 h
    rfl
  | cons v values ih =>
    obtain ⟨parameter, d₁, hparameter, rest, hrest, rfl⟩ := Build.exec_mapM_cons_ok.1 h
    obtain ⟨rfl, rfl⟩ := Build.exec_pushValue_ok.1 hparameter
    rw [ih hrest]
    rfl

mutual

/-- A condition is written as what it says. -/
theorem Condition.tokens_of_compile : ∀ (c : Condition) {d d' : Draft} {ts : Tokens},
    c.compile.exec q d = (.ok ts, d') → ts = (c.formula q d.next).tokens
  | .equals column value, d, d', ts, h => by
    rw [Condition.compile, Build.exec_bind_ok] at h
    obtain ⟨name, d₁, hname, h⟩ := h
    obtain ⟨rfl, rfl⟩ := Build.tokens_of_column hname
    rw [Condition.formula]
    split at h
    · next hnull =>
      obtain ⟨rfl, rfl⟩ := Build.exec_pure_ok.1 h
      rw [if_pos hnull]
      rfl
    · next hnull =>
      simp only [Build.exec_bind_ok, Build.exec_pushValue_ok, Build.exec_pure_ok] at h
      obtain ⟨_, _, ⟨rfl, rfl⟩, rfl, rfl⟩ := h
      rw [if_neg hnull]
      rfl
  | .compares column op value, d, d', ts, h => by
    simp only [Condition.compile, Build.exec_bind_ok, Build.exec_pushValue_ok,
      Build.exec_pure_ok] at h
    obtain ⟨name, d₁, hname, _, _, ⟨rfl, rfl⟩, rfl, rfl⟩ := h
    obtain ⟨rfl, rfl⟩ := Build.tokens_of_column hname
    rfl
  | .columns left op right, d, d', ts, h => by
    simp only [Condition.compile, Build.exec_bind_ok, Build.exec_pure_ok] at h
    obtain ⟨left, d₁, hleft, right, d₂, hright, rfl, rfl⟩ := h
    obtain ⟨rfl, rfl⟩ := Build.tokens_of_column hleft
    obtain ⟨rfl, rfl⟩ := Build.tokens_of_column hright
    rfl
  | .among column [], d, d', ts, h => by
    simp only [Condition.compile, Build.exec_bind_ok, Build.exec_pure_ok] at h
    obtain ⟨name, d₁, hname, rfl, rfl⟩ := h
    rfl
  | .among column (v :: values), d, d', ts, h => by
    simp only [Condition.compile, Build.exec_bind_ok, Build.exec_pure_ok] at h
    obtain ⟨name, d₁, hname, parameters, d₂, hparameters, rfl, rfl⟩ := h
    obtain ⟨rfl, rfl⟩ := Build.tokens_of_column hname
    obtain rfl := Build.tokens_of_pushValues hparameters
    rw [List.map_map]
    rfl
  | .group connective label conditions, d, d', ts, h => by
    simp only [Condition.compile, Build.exec_bind_ok, Build.exec_pure_ok] at h
    obtain ⟨inner, d₁, hinner, rfl, rfl⟩ := h
    rw [Condition.tokens_of_compileAll connective conditions hinner]
    rfl

/-- Sibling conditions are written as what they say, with the connective between each two. -/
theorem Condition.tokens_of_compileAll (connective : Connective) : ∀ (cs : List Condition)
    {d d' : Draft} {ts : Tokens},
    (Condition.compileAll connective cs).exec q d = (.ok ts, d') →
      ts = Formula.siblings connective (Condition.formulas q d.next cs)
  | [], d, d', ts, h => by
    rw [Condition.compileAll, Build.exec_pure_ok] at h
    exact h.1.symm
  | [c], d, d', ts, h => by
    rw [Condition.compileAll] at h
    exact c.tokens_of_compile h
  | c :: next :: rest, d, d', ts, h => by
    simp only [Condition.compileAll, Build.exec_bind_ok, Build.exec_pure_ok] at h
    obtain ⟨first, d₁, hfirst, others, d₂, hothers, rfl, rfl⟩ := h
    -- The others count on from the names of the first condition.
    have hnext : d₁.next = d.next + c.values.length := by
      rw [(c.emits hfirst).draft, Draft.takeAll_next, madeFor_map_value]
    rw [c.tokens_of_compile hfirst,
      Condition.tokens_of_compileAll connective (next :: rest) hothers, hnext]
    rfl

end

end BoundSql
