import BoundSql.Proofs.Join.Structure
import BoundSql.Proofs.Sql.Clause

/-!
# Reading conditions back from statements

What a database reads in the conditions of a statement is what the specification says: the same
comparisons in the same order under the same connectives, up to groups of one part. Groups stand in
parentheses and lists of alternatives bring parentheses of their own, so that it matters how tightly
connectives bind.

* `Condition.reads_compileAll` and `JoinCondition.reads_compileAll`: conditions alone;
* `Filter.reads_conditions` and `Filter.reads_having`: the clauses of a filter;
* `JoinTarget.reads_on`: the conditions of a join.
-/

namespace BoundSql

open Sql (Connective Formula Inert Lacks Lexeme Quoter Sound Token Tokens Word lex readClause?
  readFormula? render)

namespace Sql.Formula

/-- What was read is what was written, up to groups of one part. -/
structure Reads (read written : Formula) : Prop where
  /-- The trees are the same, without groups of one part. -/
  tree : read = written.collapse
  /-- The truth values are the same, whatever those of the comparisons are. -/
  value : ∀ v, read.eval v = written.eval v

/-- A formula without its groups of one part can be read for the formula. -/
theorem reads_collapse (f : Formula) : f.collapse.Reads f := ⟨rfl, fun v => eval_collapse v f⟩

end Sql.Formula

variable {q : Quoter} {d d' : Draft} {ts : Tokens}

/-- Formulas under a connective are read back from a text in which they stand alone. -/
theorem Sql.Sound.reads_siblings {c : Connective} {parts : List Formula}
    (h : Sound (Formula.siblings c parts)) (hne : parts ≠ []) (hfilled : Formula.AllFilled parts) :
    ∃ f, readFormula? (lex (render (Formula.siblings c parts)).toList) = some (f, []) ∧
      f.Reads (.group c parts) := by
  have hread := Sql.readFormula?_siblings c hne hfilled Sql.endsFormula_nil
  rw [List.append_nil, ← Sql.lex_render h] at hread
  exact ⟨_, hread, Formula.reads_collapse _⟩

/-- Conditions are read back under the connective between them. -/
theorem Condition.reads_compileAll (hq : '"' ∉ q.tablePrefix.toList) {c : Connective}
    {cs : List Condition} (hne : cs ≠ []) (hfilled : AllFilled cs)
    (h : (compileAll c cs).exec q d = (.ok ts, d')) :
    ∃ f, readFormula? (lex (render ts).toList) = some (f, []) ∧
      f.Reads (.group c (formulas q d.next cs)) := by
  have hsound := (emitsAll c cs h).sound_of_values hq
  obtain rfl := tokens_of_compileAll c cs h
  exact hsound.reads_siblings (mt formulas_eq_nil_iff.1 hne)
    ((allFilled_formulas_iff q d.next).2 hfilled)

namespace Filter

/-- The tokens of a clause are none, or they begin with its head. -/
theorem ends_clause {α : Type} {head : Word} {items : List α} {body : List α → Build Tokens}
    (hhead : head.endsFormula) (h : (clause head items body).exec q d = (.ok ts, d')) :
    Sql.EndsFormula (ts.flatMap Token.lexemes) := by
  rcases exec_clause_ok.1 h with ⟨-, rfl, -⟩ | ⟨-, inner, -, rfl⟩
  · exact Sql.endsFormula_nil
  · exact Word.ends hhead inner

/-- A limit does not go on with a formula before it. -/
theorem ends_limit (limit : Option Limit) :
    Sql.EndsFormula (((limit.bind Limit.tokens?).getD []).flatMap Token.lexemes) := by
  cases h : limit.bind Limit.tokens? with
  | none => exact Sql.endsFormula_nil
  | some tokens =>
    obtain ⟨limit, -, hlimit⟩ := Option.bind_eq_some_iff.1 h
    have hends : Word.limit.endsFormula := by decide
    obtain ⟨_, t, -, rfl | ⟨_, u, -, rfl⟩⟩ := Limit.exists_of_tokens? hlimit
    · exact Word.ends hends _
    · exact Word.ends hends _

/-- There are few keywords in a clause of conditions. -/
theorem lacks_conditions {k : String} {c : Connective} {head : Word} {cs : List Condition}
    (hk : k ∉ Formula.keywords) (hhead : Lexeme.word k ∉ head.lexemes)
    (h : (clause head cs (Condition.compileAll c)).exec q d = (.ok ts, d')) : Lacks k ts := by
  rcases exec_clause_ok.1 h with ⟨-, rfl, -⟩ | ⟨-, inner, hinner, rfl⟩
  · exact .nil
  · obtain rfl := Condition.tokens_of_compileAll c cs hinner
    exact (Formula.lacks_siblings hk c _).cons hhead

/-- There are no keywords in columns with commas between them but that before them. -/
theorem lacks_grouping {k : String} {columns : List String}
    (hhead : Lexeme.word k ∉ Word.groupBy.lexemes)
    (h : (clause .groupBy columns fun columns => do
      return Sql.joinWith .comma (← columns.mapM Build.column)).exec q d = (.ok ts, d')) :
    Lacks k ts := by
  rcases exec_clause_ok.1 h with ⟨-, rfl, -⟩ | ⟨-, inner, hinner, rfl⟩
  · exact .nil
  · simp only [Build.exec_bind_ok, Build.exec_pure_ok] at hinner
    obtain ⟨parts, d₁, hparts, rfl, rfl⟩ := hinner
    refine (Lacks.joinWith ?_ fun part hpart => ?_).cons hhead
    · simp
    -- Every part of the list is a column.
    · obtain ⟨column, -, _, _, hcolumn⟩ := Build.exists_of_mem_mapM hparts hpart
      obtain ⟨rfl, -⟩ := Build.tokens_of_column hcolumn
      exact (q.columnReference column).lacks k

/-- The conditions of a filter are read back from behind their keyword. -/
theorem reads_conditions (hq : '"' ∉ q.tablePrefix.toList) {f : Filter} (hne : f.conditions ≠ [])
    (hfilled : Condition.AllFilled f.conditions) (h : f.compile.exec q d = (.ok ts, d')) :
    ∃ g rest, readClause? "WHERE" (lex (render ts).toList) = some (g, rest) ∧
      g.Reads (.group .and (Condition.formulas q d.next f.conditions)) := by
  have hsound := (emits h).1.sound_of_values hq
  simp only [compile, Build.exec_bind_ok, Build.exec_pure_ok] at h
  obtain ⟨conditions, d₁, hconditions, grouping, d₂, hgrouping, having, d₃, hhaving, order, d₄,
    horder, rfl, rfl⟩ := h
  rcases exec_clause_ok.1 hconditions with ⟨hnil, -⟩ | ⟨-, inner, hinner, rfl⟩
  · exact absurd hnil hne
  obtain rfl := Condition.tokens_of_compileAll .and f.conditions hinner
  have hgrouping := ends_clause (by decide) hgrouping
  have hhaving := ends_clause (by decide) hhaving
  have horder := ends_clause (by decide) horder
  -- All clauses that can follow begin with keywords of their own.
  have hafter := ((hgrouping.append hhaving).append horder).append (ends_limit f.limit)
  simp only [← List.flatMap_append, List.append_assoc] at hafter
  simp only [List.append_assoc] at hsound ⊢
  have hread := Sql.readClause?_tokens .and (a := []) rfl .nil
    (mt Condition.formulas_eq_nil_iff.1 hne) ((Condition.allFilled_formulas_iff q d.next).2 hfilled)
    hafter hsound
  exact ⟨_, _, hread, Formula.reads_collapse _⟩

/-- The conditions on groups of a filter are read back from behind their keyword, with names that go
on after those of the conditions on rows. -/
theorem reads_having (hq : '"' ∉ q.tablePrefix.toList) {f : Filter} (hne : f.having ≠ [])
    (hfilled : Condition.AllFilled f.having) (h : f.compile.exec q d = (.ok ts, d')) :
    ∃ g rest, readClause? "HAVING" (lex (render ts).toList) = some (g, rest) ∧
      g.Reads (.group .and (Condition.formulas q
        (d.next + (Condition.allValues f.conditions).length) f.having)) := by
  have hsound := (emits h).1.sound_of_values hq
  simp only [compile, Build.exec_bind_ok, Build.exec_pure_ok] at h
  obtain ⟨conditions, d₁, hconditions, grouping, d₂, hgrouping, having, d₃, hhaving, order, d₄,
    horder, rfl, rfl⟩ := h
  rcases exec_clause_ok.1 hhaving with ⟨hnil, -⟩ | ⟨-, inner, hinner, rfl⟩
  · exact absurd hnil hne
  obtain rfl := Condition.tokens_of_compileAll .and f.having hinner
  -- Names go on after those of the first clause; the grouping makes none.
  have hnext : d₂.next = d.next + (Condition.allValues f.conditions).length := by
    have hrows := (emits_conditionClause (by decide) (by decide) hconditions).1.draft
    have hcolumns := (emits_columnClause (by decide) (by decide) (.column ·) hgrouping).1.draft_eq
    rw [hcolumns, hrows, Draft.takeAll_next, madeFor_map_value]
  -- The keyword occurs neither in the conditions on rows nor among the grouping columns.
  have hbefore : Lacks "HAVING" (conditions ++ grouping) :=
    (lacks_conditions (by decide) (by simp) hconditions).append
      (lacks_grouping (by simp) hgrouping)
  have hafter := (ends_clause (by decide) horder).append (ends_limit f.limit)
  rw [← List.flatMap_append] at hafter
  rw [List.append_assoc _ order] at hsound ⊢
  have hread := Sql.readClause?_tokens .and rfl hbefore
    (mt Condition.formulas_eq_nil_iff.1 hne)
    ((Condition.allFilled_formulas_iff q d₂.next).2 hfilled) hafter hsound
  rw [← hnext]
  exact ⟨_, _, hread, Formula.reads_collapse _⟩

end Filter

section Joins

variable {base joined : Tokens} {baseName joinedName : String}

/-- Conditions between two tables are read back under the connective between them. -/
theorem JoinCondition.reads_compileAll (hq : '"' ∉ q.tablePrefix.toList) {c : Connective}
    {cs : List JoinCondition} (hne : cs ≠ []) (hfilled : AllFilled cs)
    (hbase : q.table baseName = .ok base) (hjoined : q.table joinedName = .ok joined)
    (h : (compileAll base joined c cs).exec q d = (.ok ts, d')) :
    ∃ f, readFormula? (lex (render ts).toList) = some (f, []) ∧
      f.Reads (.group c
        (formulas q (q.tablePrefix ++ baseName) (q.tablePrefix ++ joinedName) cs)) := by
  have hsound := (emitsAll (.table hbase) (.table hjoined) c cs h).inert.sound hq
  obtain rfl := tokens_of_compileAll_quoted hbase hjoined h
  exact hsound.reads_siblings (mt formulas_eq_nil_iff.1 hne)
    ((allFilled_formulas_iff q _ _).2 hfilled)

/-- The conditions of a join are read back from behind their keyword. -/
theorem JoinTarget.reads_on (hq : '"' ∉ q.tablePrefix.toList) {target : JoinTarget}
    {cs : List JoinCondition} (hne : cs ≠ []) (hfilled : JoinCondition.AllFilled cs)
    (hbase : q.table baseName = .ok base)
    (h : (target.compile base (.on cs)).exec q d = (.ok ts, d')) :
    ∃ f, readClause? "ON" (lex (render ts).toList) = some (f, []) ∧
      f.Reads (.group .and (JoinCondition.formulas q (q.tablePrefix ++ baseName)
        (q.tablePrefix ++ target.aliasName.getD target.table) cs)) := by
  have hsound := (emits (.table hbase) h).inert.sound hq
  obtain ⟨joined, related, table, hjoined, hrelated, htable, rfl⟩ := compile_ok h
  simp only [Relation.compile, Build.exec_bind_ok, Build.exec_pure_ok] at hrelated
  obtain ⟨inner, d₁, hinner, rfl, rfl⟩ := hrelated
  obtain rfl := JoinCondition.tokens_of_compileAll_quoted hbase hjoined hinner
  -- Only names and the words of joins and aliases stand before the conditions.
  have hkind : Lexeme.word "ON" ∉ (Token.word (.join target.kind)).lexemes := by
    cases target.kind <;> simp
  have hnames : ∀ {name : String} {quoted : Tokens}, q.table name = .ok quoted →
      Lacks "ON" quoted := by
    intro name quoted hquoted
    obtain ⟨rfl, -⟩ := Quoter.table_ok hquoted
    exact (q.tableReference name).lacks "ON"
  have hlacks : Lacks "ON" (Sql.naming target.aliasName joined) := by
    cases target.aliasName with
    | none => exact .nil
    | some _ => exact (hnames hjoined).cons (by simp)
  have hbefore := ((hnames htable).cons hkind).append hlacks
  rw [← List.append_nil (Token.word .on :: _), ← List.append_assoc] at hsound ⊢
  have hread := Sql.readClause?_tokens .and (b := []) rfl hbefore
    (mt JoinCondition.formulas_eq_nil_iff.1 hne)
    ((JoinCondition.allFilled_formulas_iff q _ _).2 hfilled)
    Sql.endsFormula_nil hsound
  exact ⟨_, hread, Formula.reads_collapse _⟩

end Joins

/-- Conditions keep their logical structure: whatever conditions without empty groups are compiled,
alone, in the clauses of a filter or in a join, the reader of formulas succeeds on their text and
finds what they say. -/
theorem reads_of_compile (hq : '"' ∉ q.tablePrefix.toList) :
    (∀ {c : Connective} {cs : List Condition} {d d' : Draft} {ts : Tokens}, cs ≠ [] →
      Condition.AllFilled cs → (Condition.compileAll c cs).exec q d = (.ok ts, d') →
      ∃ f, readFormula? (lex (render ts).toList) = some (f, []) ∧
        f.Reads (.group c (Condition.formulas q d.next cs))) ∧
    (∀ {filter : Filter} {d d' : Draft} {ts : Tokens}, filter.compile.exec q d = (.ok ts, d') →
      (filter.conditions ≠ [] → Condition.AllFilled filter.conditions →
        ∃ f rest, readClause? "WHERE" (lex (render ts).toList) = some (f, rest) ∧
          f.Reads (.group .and (Condition.formulas q d.next filter.conditions))) ∧
      (filter.having ≠ [] → Condition.AllFilled filter.having →
        ∃ f rest, readClause? "HAVING" (lex (render ts).toList) = some (f, rest) ∧
          f.Reads (.group .and (Condition.formulas q
            (d.next + (Condition.allValues filter.conditions).length) filter.having)))) ∧
    (∀ {baseName joinedName : String} {base joined : Tokens} {c : Connective}
      {cs : List JoinCondition} {d d' : Draft} {ts : Tokens}, cs ≠ [] →
      JoinCondition.AllFilled cs → q.table baseName = .ok base → q.table joinedName = .ok joined →
      (JoinCondition.compileAll base joined c cs).exec q d = (.ok ts, d') →
      ∃ f, readFormula? (lex (render ts).toList) = some (f, []) ∧
        f.Reads (.group c (JoinCondition.formulas q (q.tablePrefix ++ baseName)
          (q.tablePrefix ++ joinedName) cs))) ∧
    (∀ {baseName : String} {base : Tokens} {target : JoinTarget} {cs : List JoinCondition}
      {d d' : Draft} {ts : Tokens}, cs ≠ [] → JoinCondition.AllFilled cs →
      q.table baseName = .ok base → (target.compile base (.on cs)).exec q d = (.ok ts, d') →
      ∃ f, readClause? "ON" (lex (render ts).toList) = some (f, []) ∧
        f.Reads (.group .and (JoinCondition.formulas q (q.tablePrefix ++ baseName)
          (q.tablePrefix ++ target.aliasName.getD target.table) cs))) := by
  refine ⟨?conditions, ?filter, ?joinConditions, ?join⟩
  case conditions =>
    intro c cs d d' ts hne hfilled h
    exact Condition.reads_compileAll hq hne hfilled h
  case filter =>
    intro filter d d' ts h
    exact ⟨fun hne hfilled => Filter.reads_conditions hq hne hfilled h,
      fun hne hfilled => Filter.reads_having hq hne hfilled h⟩
  case joinConditions =>
    intro baseName joinedName base joined c cs d d' ts hne hfilled hbase hjoined h
    exact JoinCondition.reads_compileAll hq hne hfilled hbase hjoined h
  case join =>
    intro baseName base target cs d d' ts hne hfilled hbase h
    exact JoinTarget.reads_on hq hne hfilled hbase h

/-- A filter with an OR of two groups, one of which is an AND, and with a condition on groups. -/
theorem reads_of_compile_nested :
    let q : Quoter := ⟨"p_"⟩
    let filter : Filter :=
      { conditions :=
          [.equals "state" (.str "new"),
            .group .or none [.equals "gone" .null,
              .group .and none [.among "id" [.int 4, .int 5], .columns "t.k" .less "n"]]],
        grouping := ["k"],
        having := [.group .or none [.compares "n" .greater (.int 1), .among "k" []]] }
    let sql := " WHERE \"state\" = :ph3_b AND (\"gone\" IS NULL OR (\"id\" IN (:ph4_b, :ph5_b)" ++
      " AND \"p_t\".\"k\" < \"n\")) GROUP BY \"k\" HAVING (\"n\" > :ph6_b OR 1=0)"
    ∃ d' ts, filter.compile.exec q { next := 3 } = (.ok ts, d') ∧ render ts = sql ∧
      (∃ f rest, readClause? "WHERE" (lex sql.toList) = some (f, rest) ∧
        f.Reads (.group .and (Condition.formulas q 3 filter.conditions))) ∧
      (∃ f rest, readClause? "HAVING" (lex sql.toList) = some (f, rest) ∧
        f.Reads (.group .and (Condition.formulas q 6 filter.having))) := by
  intro q filter sql
  have hrun : (filter.compile.exec q { next := 3 }).1.map render = .ok sql := by decide +kernel
  rcases h : filter.compile.exec q { next := 3 } with ⟨_ | ts, d'⟩
  · rw [h] at hrun
    cases hrun
  rw [h] at hrun
  have hsql : render ts = sql := Except.ok.inj hrun
  have hall := (reads_of_compile (q := q) (by decide)).2.1 h
  rw [hsql] at hall
  refine ⟨d', ts, rfl, hsql, ?_, ?_⟩
  · exact hall.1 (by simp [filter]) (by simp [filter, Condition.AllFilled, Condition.Filled])
  · exact hall.2 (by simp [filter]) (by simp [filter, Condition.AllFilled, Condition.Filled])

end BoundSql
