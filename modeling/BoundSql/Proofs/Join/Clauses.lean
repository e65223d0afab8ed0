import BoundSql.Proofs.Join.Structure
import BoundSql.Proofs.Sql.Phrases

/-!
# The clauses of joins

Joined tables are written as joins of the grammar of queries if something relates each of them to
the tables before it and no group of its conditions is empty (`Joins.mem_joins`). If nothing relates
it, nothing stands in the parentheses behind `USING` or behind `ON`, which shows in the lexemes
(`Joins.filled_of_whole`).
-/

namespace BoundSql

open Computability
open Language (append_mem_mul join_mem_kstar)
open Sql (Atom Follows Formula Headed Lexeme Quoter Token Tokens)
open Sql.Grammar

mutual

/-- A condition between two tables without empty groups is a condition of the grammar. -/
theorem JoinCondition.mem_conditions (q : Quoter) (base joined : String) :
    ∀ {c : JoinCondition}, c.Filled →
      (c.formula q base joined).tokens.flatMap Token.lexemes ∈ conditions columnTest
  | .pair _ _, _ => by
    rw [JoinCondition.formula]
    exact .test (Atom.mem_columnTest _ _ _)
  | .columns _ _ _, _ => by
    rw [JoinCondition.formula]
    exact .test (Atom.mem_columnTest _ _ _)
  | .group c conditions, h => by
    rw [JoinCondition.formula]
    exact Formula.group_mem_conditions c (mt JoinCondition.formulas_eq_nil_iff.1 h.1)
      (JoinCondition.all_mem_conditions q base joined h.2)

/-- Conditions between two tables without empty groups are conditions of the grammar. -/
theorem JoinCondition.all_mem_conditions (q : Quoter) (base joined : String) :
    ∀ {cs : List JoinCondition}, JoinCondition.AllFilled cs →
      ∀ part ∈ JoinCondition.formulas q base joined cs,
        part.tokens.flatMap Token.lexemes ∈ conditions columnTest
  | [], _, part, hpart => by cases hpart
  | c :: cs, h, part, hpart => by
    rcases List.mem_cons.1 hpart with rfl | hpart
    · exact JoinCondition.mem_conditions q base joined h.1
    · exact JoinCondition.all_mem_conditions q base joined h.2 part hpart

end

/-- Something relates two tables, and no group of conditions is empty in it. -/
def Relation.Filled : Relation → Prop
  | .shared columns => columns ≠ []
  | .on conditions => conditions ≠ [] ∧ JoinCondition.AllFilled conditions

/-- Something relates each joined table to the tables before it. Keys that name no join are passed
over. -/
def Joins.Filled (joins : Joins) : Prop :=
  ∀ join ∈ joins, (JoinTarget.ofKey? join.1).isSome → join.2.Filled

variable {q : Quoter} {d d' : Draft} {base joined ts : Tokens} {baseName joinedName : String}
  {rest : List Lexeme}

theorem Relation.mem_relation {r : Relation} (hfilled : r.Filled)
    (hbase : q.table baseName = .ok base) (hjoined : q.table joinedName = .ok joined)
    (h : (r.compile base joined).exec q d = (.ok ts, d')) :
    ts.flatMap Token.lexemes ∈ relation := by
  cases r with
  | shared columns =>
    simp only [Relation.compile, Build.exec_bind_ok, Build.exec_pure_ok] at h
    obtain ⟨parts, d₁, hparts, rfl, rfl⟩ := h
    have hne : parts ≠ [] := by
      rintro rfl
      exact hfilled (Build.eq_nil_of_mapM hparts)
    have hnames : ∀ part ∈ parts, part.flatMap Token.lexemes ∈ name := by
      intro part hpart
      obtain ⟨column, -, _, _, hcolumn⟩ := Build.exists_of_mem_mapM hparts hpart
      obtain ⟨rfl, -⟩ := Quoter.plainColumn_ok (Build.exec_plainColumn_ok.1 hcolumn).1
      exact Sql.name_mem column
    have hlist := Sql.joinWith_mem_separated (w := .commaSpace) rfl hne hnames
    have hclosed := append_mem_mul (append_mem_mul (Sql.mark_mem '(') hlist) (Sql.mark_mem ')')
    have hall := append_mem_mul (Sql.keywords_mem ["USING"]) hclosed
    rw [List.flatMap_append]
    exact Or.inl hall
  | on cs =>
    simp only [Relation.compile, Build.exec_bind_ok, Build.exec_pure_ok] at h
    obtain ⟨inner, d₁, hinner, rfl, rfl⟩ := h
    obtain rfl := JoinCondition.tokens_of_compileAll_quoted hbase hjoined hinner
    have hconditions := Formula.siblings_mem_conditions .and
      (mt JoinCondition.formulas_eq_nil_iff.1 hfilled.1)
      (JoinCondition.all_mem_conditions q (q.tablePrefix ++ baseName)
        (q.tablePrefix ++ joinedName) hfilled.2)
    exact Or.inr (append_mem_mul (Sql.keywords_mem ["ON"]) hconditions)

theorem JoinTarget.mem_join {target : JoinTarget} {r : Relation} (hfilled : r.Filled)
    (hbase : q.table baseName = .ok base)
    (h : (target.compile base r).exec q d = (.ok ts, d')) :
    ts.flatMap Token.lexemes ∈ Sql.Grammar.join := by
  obtain ⟨joined, related, table, hjoined, hrelated, htable, rfl⟩ := JoinTarget.compile_ok h
  have hrelation := Relation.mem_relation hfilled hbase hjoined hrelated
  have hnamed := Quoter.naming_mem_table target.aliasName htable hjoined
  have hkind : (Token.word (.join target.kind)).lexemes ∈
      keywords ["LEFT", "JOIN"] + keywords ["RIGHT", "JOIN"] + keywords ["FULL", "JOIN"] +
        keywords ["INNER", "JOIN"] := by
    cases target.kind
    · exact Or.inl (Or.inl (Or.inl rfl))
    · exact Or.inl (Or.inl (Or.inr rfl))
    · exact Or.inl (Or.inr rfl)
    · exact Or.inr rfl
  rw [List.cons_append, List.cons_append, List.flatMap_cons, List.flatMap_append,
    ← List.append_assoc]
  exact append_mem_mul (append_mem_mul hkind hnamed) hrelation

/-- Each joined table is a join of the grammar. -/
theorem Joins.each_mem_join {joins : Joins} {parts : List Tokens} (hfilled : joins.Filled)
    (hbase : q.table baseName = .ok base)
    (h : (joins.compileEach base).exec q d = (.ok parts, d')) :
    ∀ part ∈ parts, part.flatMap Token.lexemes ∈ Sql.Grammar.join := by
  induction joins generalizing d parts with
  | nil =>
    obtain ⟨rfl, rfl⟩ := Build.exec_pure_ok.1 h
    exact fun _ hpart => nomatch hpart
  | cons join joins ih =>
    obtain ⟨key, r⟩ := join
    have hothers : Joins.Filled joins := fun join hjoin => hfilled join (by simp [hjoin])
    rw [Joins.compileEach] at h
    -- A key that names no join is passed over, and so is what it relates.
    split at h
    · exact ih hothers h
    · next target htarget =>
      simp only [Build.exec_bind_ok, Build.exec_pure_ok] at h
      obtain ⟨first, d₁, hfirst, others, d₂, hrest, rfl, rfl⟩ := h
      have hr : r.Filled := hfilled (key, r) (by simp) (by simp [htarget])
      exact List.forall_mem_cons.2 ⟨JoinTarget.mem_join hr hbase hfirst, ih hothers hrest⟩

theorem Joins.mem_joins {joins : Joins} (hfilled : joins.Filled)
    (hbase : q.table baseName = .ok base) (h : (joins.compile base).exec q d = (.ok ts, d')) :
    ts.flatMap Token.lexemes ∈ Sql.Grammar.join∗ := by
  simp only [Joins.compile, Build.exec_bind_ok, Build.exec_pure_ok] at h
  obtain ⟨parts, d₁, hparts, rfl, rfl⟩ := h
  have heach := Joins.each_mem_join hfilled hbase hparts
  rw [Sql.flatMap_lexemes_joinWith_space, List.flatMap_def]
  exact join_mem_kstar (by simpa using heach)

/-! ### Joins in which something is missing -/

/-- Something relates a joined table if everything follows in its lexemes that is expected. What
stands behind it does not continue it. -/
theorem JoinTarget.filled_of_whole {target : JoinTarget} {r : Relation}
    (hbase : q.table baseName = .ok base) (h : (target.compile base r).exec q d = (.ok ts, d'))
    (hrest : Headed rest) (hwhole : ts.flatMap Token.lexemes ++ rest ∈ whole) : r.Filled := by
  obtain ⟨joined, related, table, hjoined, hrelated, -, rfl⟩ := JoinTarget.compile_ok h
  rw [List.flatMap_append, List.append_assoc] at hwhole
  have hwhole := right_mem_whole hwhole
  cases r with
  | shared columns =>
    simp only [Relation.compile, Build.exec_bind_ok, Build.exec_pure_ok] at hrelated
    obtain ⟨parts, d₁, hparts, rfl, rfl⟩ := hrelated
    rintro rfl
    obtain ⟨rfl, -⟩ := Build.exec_mapM_nil_ok.1 hparts
    -- The parentheses behind the keyword touch.
    have hchain := hwhole.1.tail
    exact (List.isChain_cons_cons.1 hchain).1.1 rfl rfl
  | on cs =>
    simp only [Relation.compile, Build.exec_bind_ok, Build.exec_pure_ok] at hrelated
    obtain ⟨inner, d₁, hinner, rfl, rfl⟩ := hrelated
    obtain rfl := JoinCondition.tokens_of_compileAll_quoted hbase hjoined hinner
    constructor
    · rintro rfl
      -- The keyword stands at the end or before another keyword.
      cases rest with
      | nil => exact hwhole.2 _ rfl (Or.inr rfl)
      | cons x rest =>
        obtain ⟨text, rfl⟩ := hrest _ rfl
        obtain h | ⟨_, h⟩ := (List.isChain_cons_cons.1 hwhole.1).1.2 rfl
        · cases h
        · cases h
    · have hparts := Formula.allFilled_of_chain .and hwhole.1.tail.left_of_append
      exact (JoinCondition.allFilled_formulas_iff _ _ _).1 hparts

/-- A joined table begins with a keyword. -/
theorem JoinTarget.headed {target : JoinTarget} {r : Relation}
    (h : (target.compile base r).exec q d = (.ok ts, d')) : Headed (ts.flatMap Token.lexemes) := by
  obtain ⟨joined, related, table, -, -, -, rfl⟩ := JoinTarget.compile_ok h
  cases target.kind
  all_goals
    rintro _ ⟨⟩
    exact ⟨_, rfl⟩

/-- Joined tables begin with a keyword, if there are any. -/
theorem Joins.headed {joins : Joins} {parts : List Tokens}
    (h : (joins.compileEach base).exec q d = (.ok parts, d')) :
    Headed (parts.flatMap fun part => part.flatMap Token.lexemes) := by
  induction joins generalizing d parts with
  | nil =>
    obtain ⟨rfl, rfl⟩ := Build.exec_pure_ok.1 h
    rintro _ ⟨⟩
  | cons join joins ih =>
    rw [Joins.compileEach] at h
    split at h
    · exact ih h
    · simp only [Build.exec_bind_ok, Build.exec_pure_ok] at h
      obtain ⟨first, d₁, hfirst, others, d₂, hothers, rfl, rfl⟩ := h
      exact (JoinTarget.headed hfirst).append (ih hothers)

/-- Something relates each joined table if everything follows in the lexemes that is expected. -/
theorem Joins.filled_of_whole {joins : Joins} {parts : List Tokens}
    (hbase : q.table baseName = .ok base)
    (h : (joins.compileEach base).exec q d = (.ok parts, d')) (hrest : Headed rest)
    (hwhole : (parts.flatMap fun part => part.flatMap Token.lexemes) ++ rest ∈ whole) :
    joins.Filled := by
  induction joins generalizing d parts with
  | nil => exact fun _ hjoin => nomatch hjoin
  | cons join joins ih =>
    obtain ⟨key, r⟩ := join
    rw [Joins.compileEach] at h
    split at h
    · next htarget =>
      refine List.forall_mem_cons.2 ⟨fun hsome => ?_, ih h hwhole⟩
      rw [htarget] at hsome
      cases hsome
    · simp only [Build.exec_bind_ok, Build.exec_pure_ok] at h
      obtain ⟨first, d₁, hfirst, others, d₂, hothers, rfl, rfl⟩ := h
      rw [List.flatMap_cons, List.append_assoc] at hwhole
      have hbehind := (Joins.headed hothers).append hrest
      exact List.forall_mem_cons.2
        ⟨fun _ => JoinTarget.filled_of_whole hbase hfirst hbehind hwhole,
          ih hothers (right_mem_whole hwhole)⟩

end BoundSql
