import BoundSql.Proofs.Filter.Structure
import BoundSql.Proofs.Sql.Phrases

/-!
# The clauses of a filter

A filter is written as clauses of the grammar of queries if no group of its conditions is empty
(`Filter.mem_choice`). An empty group shows in the lexemes, since nothing stands in its parentheses
(`Filter.filled_of_chain`).
-/

namespace BoundSql

open Language (append_mem_mul nil_mem_one)
open Sql (Atom Follows Formula Headed Lexeme Quoter Token Tokens Word)
open Sql.Grammar

mutual

/-- A condition without empty groups is a condition of the grammar. -/
theorem Condition.mem_conditions (q : Quoter) (n : Nat) : ∀ {c : Condition}, c.Filled →
    (c.formula q n).tokens.flatMap Token.lexemes ∈ conditions rowTest
  | .equals column value, _ => by
    rw [Condition.formula]
    split
    · exact .test (Atom.mem_rowTest (.isNull _) trivial)
    · exact .test (Atom.mem_rowTest (.compare _ _ (.parameter _)) (Sql.isLabel_placeholderName n))
  | .compares _ _ _, _ => by
    rw [Condition.formula]
    exact .test (Atom.mem_rowTest (.compare _ _ (.parameter _)) (Sql.isLabel_placeholderName n))
  | .columns _ _ _, _ => by
    rw [Condition.formula]
    exact .test (Atom.mem_rowTest (.compare _ _ (.column _)) trivial)
  | .among _ [], _ => by
    rw [Condition.formula]
    exact .test (Atom.mem_rowTest .never trivial)
  | .among column (_ :: values), _ => by
    rw [Condition.formula]
    refine .test (Atom.mem_rowTest (.among _ _ _) fun label hlabel => ?_)
    rcases List.mem_cons.1 hlabel with rfl | hlabel
    · exact Sql.isLabel_placeholderName n
    · obtain ⟨k, -, rfl⟩ := List.mem_map.1 hlabel
      exact Sql.isLabel_placeholderName k
  | .group c _ conditions, h => by
    rw [Condition.formula]
    exact Formula.group_mem_conditions c (mt Condition.formulas_eq_nil_iff.1 h.1)
      (Condition.all_mem_conditions q n h.2)

/-- Conditions without empty groups are conditions of the grammar. -/
theorem Condition.all_mem_conditions (q : Quoter) (n : Nat) : ∀ {cs : List Condition},
    Condition.AllFilled cs → ∀ part ∈ Condition.formulas q n cs,
      part.tokens.flatMap Token.lexemes ∈ conditions rowTest
  | [], _, part, hpart => by cases hpart
  | c :: cs, h, part, hpart => by
    rcases List.mem_cons.1 hpart with rfl | hpart
    · exact Condition.mem_conditions q n h.1
    · exact Condition.all_mem_conditions q _ h.2 part hpart

end

/-- No group of conditions is empty in a filter. -/
def Filter.Filled (f : Filter) : Prop :=
  Condition.AllFilled f.conditions ∧ Condition.AllFilled f.having

variable {q : Quoter} {d d' : Draft} {ts : Tokens} {head : Word}

section Clauses

variable {α : Type} {items : List α} {body : List α → Build Tokens}

/-- A clause is its body behind its keywords, unless it is missing. -/
theorem clause_mem_optional {l : Language Lexeme}
    (hbody : ∀ inner, items ≠ [] → (body items).exec q d = (.ok inner, d') →
      inner.flatMap Token.lexemes ∈ l)
    (h : (clause head items body).exec q d = (.ok ts, d')) :
    ts.flatMap Token.lexemes ∈ optional ({head.lexemes} * l) := by
  rcases exec_clause_ok.1 h with ⟨-, rfl, -⟩ | ⟨hne, inner, hinner, rfl⟩
  · exact Or.inl nil_mem_one
  · exact Or.inr (append_mem_mul rfl (hbody inner hne hinner))

theorem headed_clause {text : String} {rest : List Lexeme}
    (hhead : head.lexemes = .word text :: rest)
    (h : (clause head items body).exec q d = (.ok ts, d')) : Headed (ts.flatMap Token.lexemes) := by
  rcases exec_clause_ok.1 h with ⟨-, rfl, -⟩ | ⟨-, inner, -, rfl⟩
  · rintro _ ⟨⟩
  · rw [List.flatMap_cons, Token.lexemes, hhead]
    rintro _ ⟨⟩
    exact ⟨text, rfl⟩

/-- A clause of items with commas between them is a list of them. -/
theorem columnClause_mem_optional {f : α → Build Tokens} {item : Language Lexeme}
    (hf : ∀ {a d ts d'}, (f a).exec q d = (.ok ts, d') → ts.flatMap Token.lexemes ∈ item)
    (h : (clause head items fun items => do return Sql.joinWith .comma (← items.mapM f)).exec q d =
      (.ok ts, d')) : ts.flatMap Token.lexemes ∈ optional ({head.lexemes} * separated item) := by
  refine clause_mem_optional (fun inner hne hinner => ?_) h
  simp only [Build.exec_bind_ok, Build.exec_pure_ok] at hinner
  obtain ⟨parts, d₁, hparts, rfl, rfl⟩ := hinner
  refine Sql.joinWith_mem_separated rfl ?_ fun part hpart => ?_
  · rintro rfl
    exact hne (Build.eq_nil_of_mapM hparts)
  · obtain ⟨a, -, _, _, hitem⟩ := Build.exists_of_mem_mapM hparts hpart
    exact hf hitem

/-- A clause of conditions without empty groups. -/
theorem conditionClause_mem_optional {cs : List Condition} (hfilled : Condition.AllFilled cs)
    (h : (clause head cs (Condition.compileAll .and)).exec q d = (.ok ts, d')) :
    ts.flatMap Token.lexemes ∈ optional ({head.lexemes} * conditions rowTest) := by
  refine clause_mem_optional (fun inner hne hinner => ?_) h
  obtain rfl := Condition.tokens_of_compileAll .and cs hinner
  exact Formula.siblings_mem_conditions .and (mt Condition.formulas_eq_nil_iff.1 hne)
    (Condition.all_mem_conditions q d.next hfilled)

/-- No group in a clause is empty if everything follows in it that is expected. -/
theorem allFilled_of_clause {cs : List Condition}
    (h : (clause head cs (Condition.compileAll .and)).exec q d = (.ok ts, d'))
    (hchain : (ts.flatMap Token.lexemes).IsChain Follows) : Condition.AllFilled cs := by
  rcases exec_clause_ok.1 h with ⟨rfl, -⟩ | ⟨-, inner, hinner, rfl⟩
  · trivial
  · obtain rfl := Condition.tokens_of_compileAll .and cs hinner
    have hparts := Formula.allFilled_of_chain .and hchain.right_of_append
    exact (Condition.allFilled_formulas_iff q d.next).1 hparts

end Clauses

theorem Build.mem_column {name : String} (h : (Build.column name).exec q d = (.ok ts, d')) :
    ts.flatMap Token.lexemes ∈ Sql.Grammar.column := by
  obtain ⟨rfl, -⟩ := Build.tokens_of_column h
  exact (q.columnReference name).mem_column

theorem OrderItem.mem_orderItem {item : OrderItem} (h : item.compile.exec q d = (.ok ts, d')) :
    ts.flatMap Token.lexemes ∈ orderItem := by
  obtain ⟨column, direction⟩ := item
  rw [OrderItem.compile, Build.exec_bind_ok] at h
  obtain ⟨name, d₁, hname, h⟩ := h
  have hcolumn := Build.mem_column hname
  cases direction with
  | none =>
    obtain ⟨rfl, rfl⟩ := Build.exec_pure_ok.1 h
    have hall := append_mem_mul hcolumn (nil_mem_optional (keywords ["ASC"] + keywords ["DESC"]))
    rwa [List.append_nil] at hall
  | some direction =>
    obtain ⟨rfl, rfl⟩ := Build.exec_pure_ok.1 h
    rw [List.flatMap_append]
    refine append_mem_mul hcolumn (Or.inr ?_)
    cases direction
    · exact Or.inl rfl
    · exact Or.inr rfl

theorem Limit.mem_optional (limit : Option Limit) :
    (((limit.bind Limit.tokens?).getD []).flatMap Token.lexemes) ∈
      optional (keywords ["LIMIT"] * (number * optional (keywords ["OFFSET"] * number))) := by
  cases h : limit.bind Limit.tokens? with
  | none => exact nil_mem_optional _
  | some tokens =>
    obtain ⟨limit, -, hlimit⟩ := Option.bind_eq_some_iff.1 h
    have hnumber : ∀ {v t}, Limit.number? v = some t → t.lexemes ∈ number := by
      intro v t ht
      obtain ⟨text, rfl, htext⟩ := Limit.decimalText_of_number? ht
      exact ⟨text.toList, htext, rfl⟩
    obtain ⟨_, t, ht, rfl | ⟨_, u, hu, rfl⟩⟩ := Limit.exists_of_tokens? hlimit
    · exact Or.inr (append_mem_mul rfl (append_mem_mul (hnumber ht) (nil_mem_optional _)))
    · have hoffset := append_mem_mul (Sql.keywords_mem ["OFFSET"]) (hnumber hu)
      rw [← List.append_nil u.lexemes] at hoffset
      exact Or.inr (append_mem_mul rfl (append_mem_mul (hnumber ht) (Or.inr hoffset)))

/-- A limit begins with a keyword, if it is made of numbers. -/
theorem Limit.headed (limit : Option Limit) :
    Headed (((limit.bind Limit.tokens?).getD []).flatMap Token.lexemes) := by
  rcases Limit.mem_optional limit with h | h
  · rw [h]
    rintro _ ⟨⟩
  · obtain ⟨_, rfl, rest, -, h⟩ := Language.mem_mul.1 h
    rw [← h]
    rintro _ ⟨⟩
    exact ⟨"LIMIT", rfl⟩

namespace Filter

variable {f : Filter}

/-- A filter without empty groups is written as clauses that choose rows. -/
theorem mem_choice (hfilled : f.Filled) (h : f.compile.exec q d = (.ok ts, d')) :
    ts.flatMap Token.lexemes ∈ choice := by
  simp only [compile, Build.exec_bind_ok, Build.exec_pure_ok] at h
  obtain ⟨conditions, d₁, hconditions, grouping, d₂, hgrouping, having, d₃, hhaving, order, d₄,
    horder, rfl, rfl⟩ := h
  have hconditions := conditionClause_mem_optional hfilled.1 hconditions
  have hgrouping := columnClause_mem_optional (Build.mem_column ·) hgrouping
  have hhaving := conditionClause_mem_optional hfilled.2 hhaving
  have horder := columnClause_mem_optional (OrderItem.mem_orderItem ·) horder
  simp only [List.flatMap_append]
  exact append_mem_mul (append_mem_mul (append_mem_mul (append_mem_mul hconditions hgrouping)
    hhaving) horder) (Limit.mem_optional f.limit)

/-- No group of a filter is empty if everything follows in its clauses that is expected. -/
theorem filled_of_chain (h : f.compile.exec q d = (.ok ts, d'))
    (hchain : (ts.flatMap Token.lexemes).IsChain Follows) : f.Filled := by
  simp only [compile, Build.exec_bind_ok, Build.exec_pure_ok] at h
  obtain ⟨conditions, d₁, hconditions, grouping, d₂, -, having, d₃, hhaving, order, d₄, -, rfl,
    rfl⟩ := h
  simp only [List.flatMap_append] at hchain
  -- The conditions on rows and on groups are the first and the third of the clauses.
  have hfirst := hchain.left_of_append.left_of_append
  exact ⟨allFilled_of_clause hconditions hfirst.left_of_append.left_of_append,
    allFilled_of_clause hhaving hfirst.right_of_append⟩

/-- A filter begins with a keyword, if anything is written of it. -/
theorem headed (h : f.compile.exec q d = (.ok ts, d')) : Headed (ts.flatMap Token.lexemes) := by
  simp only [compile, Build.exec_bind_ok, Build.exec_pure_ok] at h
  obtain ⟨conditions, d₁, hconditions, grouping, d₂, hgrouping, having, d₃, hhaving, order, d₄,
    horder, rfl, rfl⟩ := h
  simp only [List.flatMap_append]
  exact ((((headed_clause rfl hconditions).append (headed_clause rfl hgrouping)).append
    (headed_clause rfl hhaving)).append (headed_clause rfl horder)).append
    (Limit.headed f.limit)

end Filter

end BoundSql
