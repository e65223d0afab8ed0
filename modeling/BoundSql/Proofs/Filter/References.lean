import BoundSql.Proofs.Filter.Structure
import BoundSql.Proofs.Sql.References

/-!
# The names that a filter refers to

A filter refers to the columns of its conditions, groups included, to those by which it groups, to
those of its conditions on groups and to those by which it orders, in this order. Its limit refers
to none.

* `Filter.references`: these columns, each with its qualification;
* `Filter.refers`: that what a filter is written as refers to them.
-/

namespace BoundSql

open Sql (Connective Quoter Reference Refers Token Tokens Word)

mutual

/-- The columns of a condition, each with its qualification. The column of an empty list of
alternatives is not written. -/
def Condition.references (q : Quoter) : Condition → List Reference
  | .equals column _ => [q.columnReference column]
  | .among _ [] => []
  | .among column (_ :: _) => [q.columnReference column]
  | .compares column _ _ => [q.columnReference column]
  | .columns left _ right => [q.columnReference left, q.columnReference right]
  | .group _ _ conditions => Condition.allReferences q conditions

/-- The columns of conditions, one condition after the other. -/
def Condition.allReferences (q : Quoter) : List Condition → List Reference
  | [] => []
  | condition :: rest => condition.references q ++ Condition.allReferences q rest

end

/-- The columns of a filter, each with its qualification. -/
def Filter.references (q : Quoter) (f : Filter) : List Reference :=
  Condition.allReferences q f.conditions ++ f.grouping.map q.columnReference ++
    Condition.allReferences q f.having ++ f.order.map fun item => q.columnReference item.column

variable {q : Quoter} {d d' : Draft} {ts : Tokens}

mutual

/-- A condition refers to its columns. -/
theorem Condition.refers : ∀ (c : Condition) {d d' : Draft} {ts : Tokens},
    c.compile.exec q d = (.ok ts, d') → Refers ts (c.references q)
  | .equals column value, d, d', ts, h => by
    rw [Condition.compile, Build.exec_bind_ok] at h
    obtain ⟨name, d₁, hname, h⟩ := h
    split at h
    · obtain ⟨rfl, -⟩ := Build.exec_pure_ok.1 h
      exact (Refers.column hname).concat (by decide)
    · simp only [Build.exec_bind_ok, Build.exec_pushValue_ok, Build.exec_pure_ok] at h
      obtain ⟨_, _, ⟨rfl, -⟩, rfl, -⟩ := h
      exact (Refers.column hname).infixed (by decide) (.parameter _)
  | .compares column op value, d, d', ts, h => by
    simp only [Condition.compile, Build.exec_bind_ok, Build.exec_pushValue_ok,
      Build.exec_pure_ok] at h
    obtain ⟨name, d₁, hname, _, _, ⟨rfl, -⟩, rfl, -⟩ := h
    exact (Refers.column hname).infixed (by simp) (.parameter _)
  | .columns left op right, d, d', ts, h => by
    simp only [Condition.compile, Build.exec_bind_ok, Build.exec_pure_ok] at h
    obtain ⟨left, d₁, hleft, right, d₂, hright, rfl, -⟩ := h
    exact (Refers.column hleft).infixed (by simp) (.column hright)
  | .among column [], d, d', ts, h => by
    simp only [Condition.compile, Build.exec_bind_ok, Build.exec_pure_ok] at h
    obtain ⟨name, d₁, -, rfl, -⟩ := h
    exact .word (by decide)
  | .among column (v :: values), d, d', ts, h => by
    simp only [Condition.compile, Build.exec_bind_ok, Build.exec_pure_ok] at h
    obtain ⟨name, d₁, hname, parameters, d₂, hparameters, rfl, -⟩ := h
    obtain rfl := Build.tokens_of_pushValues hparameters
    have hlist := Refers.parameters (w := .commaSpace) (by decide)
      (Sql.labels d₁.next (v :: values).length)
    exact ((Refers.column hname).infixed (by decide) hlist).concat (by decide)
  | .group connective label conditions, d, d', ts, h => by
    simp only [Condition.compile, Build.exec_bind_ok, Build.exec_pure_ok] at h
    obtain ⟨inner, d₁, hinner, rfl, -⟩ := h
    have hinner := Condition.refersAll connective conditions hinner
    exact (hinner.cons (by decide)).concat (by decide)

/-- Sibling conditions refer to their columns, one condition after the other. -/
theorem Condition.refersAll (connective : Connective) : ∀ (cs : List Condition) {d d' : Draft}
    {ts : Tokens}, (Condition.compileAll connective cs).exec q d = (.ok ts, d') →
      Refers ts (Condition.allReferences q cs)
  | [], d, d', ts, h => by
    rw [Condition.compileAll, Build.exec_pure_ok] at h
    obtain ⟨rfl, -⟩ := h
    exact .nil
  | [c], d, d', ts, h => by
    rw [Condition.compileAll] at h
    rw [Condition.allReferences, Condition.allReferences, List.append_nil]
    exact c.refers h
  | c :: next :: rest, d, d', ts, h => by
    simp only [Condition.compileAll, Build.exec_bind_ok, Build.exec_pure_ok] at h
    obtain ⟨first, d₁, hfirst, others, d₂, hothers, rfl, -⟩ := h
    exact (c.refers hfirst).infixed (by simp)
      (Condition.refersAll connective (next :: rest) hothers)

end

/-- A column to order by. -/
theorem OrderItem.refers {item : OrderItem} (h : item.compile.exec q d = (.ok ts, d')) :
    Refers ts [q.columnReference item.column] := by
  obtain ⟨column, direction⟩ := item
  rw [OrderItem.compile, Build.exec_bind_ok] at h
  obtain ⟨name, d₁, hname, h⟩ := h
  cases direction with
  | none =>
    obtain ⟨rfl, -⟩ := Build.exec_pure_ok.1 h
    exact .column hname
  | some direction =>
    obtain ⟨rfl, -⟩ := Build.exec_pure_ok.1 h
    exact (Refers.column hname).concat (by simp)

/-- A limit refers to no name. -/
theorem Limit.refers {limit : Limit} (h : limit.tokens? = some ts) : Refers ts [] := by
  -- A number can begin with a point, but a keyword stands before it.
  have hnumber : ∀ {v t}, Limit.number? v = some t → ∀ x ∈ t.lexemes, x.name? = none := by
    intro v t ht x hx
    have hclean := Limit.clean_of_number? ht
    obtain ⟨text, rfl, -⟩ := Limit.decimalText_of_number? ht
    obtain ⟨_, _, rfl, -⟩ | ⟨_, rfl, -⟩ := Sql.mem_lex_of_isNumberChar hclean.chars hx <;> rfl
  obtain ⟨_, t, ht, rfl | ⟨_, u, hu, rfl⟩⟩ := Limit.exists_of_tokens? h
  · refine .of_nameless (by simp [Sql.Undotted]) ?_
    simpa [Sql.Lexeme.name?] using hnumber ht
  · refine .of_nameless (by simp [Sql.Undotted]) ?_
    simpa [Sql.Lexeme.name?, or_imp, forall_and] using And.intro (hnumber ht) (hnumber hu)

/-- A clause refers to what its body refers to. -/
theorem refers_clause {α : Type} {head : Word} {items : List α} {body : List α → Build Tokens}
    {rs : List Reference} (hhead : head ≠ .dot) (hempty : items = [] → rs = [])
    (hbody : ∀ {ts}, (body items).exec q d = (.ok ts, d') → Refers ts rs)
    (h : (clause head items body).exec q d = (.ok ts, d')) : Refers ts rs := by
  rcases exec_clause_ok.1 h with ⟨hitems, rfl, -⟩ | ⟨-, inner, hinner, rfl⟩
  · rw [hempty hitems]
    exact .nil
  · exact (hbody hinner).cons hhead

/-- A clause of conditions refers to the columns of the conditions. -/
theorem refers_conditionClause {head : Word} {cs : List Condition} (hhead : head ≠ .dot)
    (h : (clause head cs (Condition.compileAll .and)).exec q d = (.ok ts, d')) :
    Refers ts (Condition.allReferences q cs) := by
  refine refers_clause hhead ?_ (fun hinner => Condition.refersAll .and cs hinner) h
  rintro rfl
  rfl

/-- A clause with a list of columns refers to each of them. -/
theorem refers_columnClause {α : Type} {head : Word} {items : List α} {f : α → Build Tokens}
    {r : α → Reference} (hhead : head ≠ .dot)
    (hf : ∀ {a d ts d'}, (f a).exec q d = (.ok ts, d') → Refers ts [r a])
    (h : (clause head items fun items => do return Sql.joinWith .comma (← items.mapM f)).exec q d =
      (.ok ts, d')) : Refers ts (items.map r) := by
  refine refers_clause hhead ?empty (fun {ts} hinner => ?body) h
  case empty =>
    rintro rfl
    rfl
  case body =>
    simp only [Build.exec_bind_ok, Build.exec_pure_ok] at hinner
    obtain ⟨parts, d₁, hparts, rfl, -⟩ := hinner
    have heach := Build.forall₂_of_exec_mapM (fun a _ {_ _ _} hitem => hf (a := a) hitem) hparts
    have hall := Refers.joinWith (w := .comma) (by decide) heach
    rwa [← List.map_eq_flatMap] at hall

/-- A filter refers to its columns. -/
theorem Filter.refers {f : Filter} (h : f.compile.exec q d = (.ok ts, d')) :
    Refers ts (f.references q) := by
  simp only [Filter.compile, Build.exec_bind_ok, Build.exec_pure_ok] at h
  obtain ⟨conditions, d₁, hconditions, grouping, d₂, hgrouping, having, d₃, hhaving, order, d₄,
    horder, rfl, -⟩ := h
  have hlimit : Refers ((f.limit.bind Limit.tokens?).getD []) [] := by
    cases htokens : f.limit.bind Limit.tokens? with
    | none => exact .nil
    | some tokens =>
      obtain ⟨limit, -, hlimit⟩ := Option.bind_eq_some_iff.1 htokens
      exact Limit.refers hlimit
  have hconditions := refers_conditionClause (by decide) hconditions
  have hgrouping := refers_columnClause (by decide) (Refers.column ·) hgrouping
  have hhaving := refers_conditionClause (by decide) hhaving
  have horder := refers_columnClause (by decide) (OrderItem.refers ·) horder
  have hall := (((hconditions.append hgrouping).append hhaving).append horder).append hlimit
  rwa [List.append_nil] at hall

end BoundSql
