import BoundSql.Proofs.Filter.Clauses
import BoundSql.Proofs.Join.Clauses
import BoundSql.Proofs.Statement.Emission

/-!
# The clauses of a query

What follows the columns of a query are clauses of the grammar of queries, as long as the query puts
something into every group of conditions, into every list of shared columns and behind every `ON`.
An empty list of alternatives does no harm, and a clause of nothing is left out; but an empty group
is written as two parentheses, and a join that nothing relates ends behind its keyword.

* `Query.Filled`: the queries in which nothing of this kind is empty;
* `Compiler.isQueryTail_iff`: the texts of these queries and of no others are in the grammar.
-/

namespace BoundSql

open Language (append_mem_mul)
open Sql (Headed IsQueryTail Lexeme Quoter Sound Token Tokens lex render)
open Sql.Grammar

/-- Something relates each joined table, and no group of conditions is empty. -/
structure Query.Filled (query : Query) : Prop where
  /-- Something relates each joined table to the tables before it. -/
  joins : (query.joins.getD []).Filled
  /-- No group of conditions is empty. -/
  filter : ∀ f ∈ query.filter, f.Filled

variable {q : Quoter} {d d₁ d' : Draft} {ts : Tokens}

/-- A filter that may be missing is written as clauses that choose rows. -/
theorem Filter.option_mem_choice {f : Option Filter} (hfilled : ∀ g ∈ f, g.Filled)
    (h : (Filter.compileOption f).exec q d = (.ok ts, d')) :
    ts.flatMap Token.lexemes ∈ choice := by
  cases f with
  | none =>
    obtain ⟨rfl, rfl⟩ := Build.exec_pure_ok.1 h
    have hnil := nil_mem_optional
    exact append_mem_mul (append_mem_mul (append_mem_mul (append_mem_mul (hnil _) (hnil _))
      (hnil _)) (hnil _)) (hnil _)
  | some f => exact Filter.mem_choice (hfilled f rfl) h

theorem Filter.option_filled_of_chain {f : Option Filter}
    (h : (Filter.compileOption f).exec q d = (.ok ts, d'))
    (hchain : (ts.flatMap Token.lexemes).IsChain Sql.Follows) : ∀ g ∈ f, g.Filled := by
  rintro g rfl
  exact Filter.filled_of_chain h hchain

theorem Filter.option_headed {f : Option Filter}
    (h : (Filter.compileOption f).exec q d = (.ok ts, d')) :
    Headed (ts.flatMap Token.lexemes) := by
  cases f with
  | none =>
    obtain ⟨rfl, rfl⟩ := Build.exec_pure_ok.1 h
    rintro _ ⟨⟩
  | some f => exact Filter.headed h

/-- What follows the columns of a query is in the grammar exactly if nothing is empty in it. -/
theorem Query.tail_mem_iff {query : Query} {name baseName : String} {α : Type}
    (aliasName : Option α) {table base joined filter : Tokens}
    (htable : q.table name = .ok table) (hbase : q.table baseName = .ok base)
    (hjoined : ((query.joins.getD []).compile base).exec q d = (.ok joined, d₁))
    (hfilter : (Filter.compileOption query.filter).exec q d₁ = (.ok filter, d')) :
    (Token.word .source :: (table ++ Sql.naming aliasName base) ++
        (if joined.isEmpty then [] else Token.word .space :: joined) ++ filter).flatMap
      Token.lexemes ∈ tail ↔ query.Filled := by
  have hblank : (if joined.isEmpty then [] else Token.word .space :: joined).flatMap Token.lexemes =
      joined.flatMap Token.lexemes := by
    cases joined <;> simp
  rw [List.flatMap_append, List.flatMap_append, List.flatMap_cons, hblank]
  constructor
  · intro htail
    -- Everything follows that is expected, so that neither the joins nor the filter lack anything.
    have hwhole := tail_le_whole htail
    rw [List.append_assoc] at hwhole
    have hwhole := right_mem_whole hwhole
    simp only [Joins.compile, Build.exec_bind_ok, Build.exec_pure_ok] at hjoined
    obtain ⟨parts, d₂, hparts, rfl, rfl⟩ := hjoined
    refine ⟨?_, Filter.option_filled_of_chain hfilter (right_mem_whole hwhole).1⟩
    rw [Sql.flatMap_lexemes_joinWith_space] at hwhole
    exact Joins.filled_of_whole hbase hparts (Filter.option_headed hfilter) hwhole
  · intro hfilled
    have hsource := append_mem_mul (Sql.keywords_mem ["FROM"])
      (Quoter.naming_mem_table aliasName htable hbase)
    have hjoins := Joins.mem_joins hfilled.joins hbase hjoined
    exact append_mem_mul (append_mem_mul hsource hjoins)
      (Filter.option_mem_choice hfilled.filter hfilter)

/-- The text behind the columns of a compiled query consists of clauses exactly if the query has
something to put into every group and list and behind every `ON`. -/
theorem Compiler.isQueryTail_iff {c c' : Compiler} {query : Query} {out : Compiled}
    (hq : '"' ∉ c.quoter.tablePrefix.toList) (h : c.compile (.select query) = (.ok out, c')) :
    ∃ columns d tail,
      (query.projection.compile (!(query.joins.getD []).isEmpty)).exec c.quoter
        { next := c.next } = (.ok columns, d) ∧
      out.sql = "SELECT " ++ render columns ++ tail ∧
      (IsQueryTail tail ↔ query.Filled) := by
  obtain ⟨ts, hexec, hsql, -⟩ := Compiler.exec_of_compile h
  obtain ⟨name, aliasName, table, base, columns, joined, filter, d₁, d₂, -, htable, hbase, hcolumns,
    hjoined, hfilter, rfl⟩ := Query.compile_ok hexec
  have hsound := (Query.emits_tail aliasName htable hbase hjoined hfilter).sound_of_values hq
  have hmem := Query.tail_mem_iff aliasName htable hbase hjoined hfilter
  rw [← Sql.lex_render hsound] at hmem
  have hiff := Iff.intro (fun htail : IsQueryTail _ => hmem.1 htail.derives)
    fun hfilled => ⟨hsound.names_closed, hmem.2 hfilled⟩
  refine ⟨columns, d₁, _, hcolumns, ?_, hiff⟩
  rw [hsql, ← String.toList_inj]
  simp only [Sql.toList_render, String.toList_append, List.flatMap_append, List.flatMap_cons,
    List.append_assoc]
  rfl

/-- A query with two joins, nested groups, an empty list of alternatives and all clauses. -/
theorem Compiler.isQueryTail_joins :
    let c : Compiler := { quoter := ⟨"x."⟩ }
    let query : Query :=
      { table := "users (u)"
        joins := some [("[>]posts (p)", .shared ["id", "day"]),
          ("[><]tags", .on [.pair "tag" "id",
            .group .or [.columns "u.x" .less "p.y", .pair "a" "b"]])]
        filter := some
          { conditions := [.equals "u.gone" .null,
              .group .or none [.among "id" [.int 4, .int 5], .among "k" []]]
            grouping := ["k", "p.n"]
            having := [.compares "n" .greater (.int 1)]
            order := [⟨"n", some .descending⟩, ⟨"k", none⟩]
            limit := some (.range (.int 5) (.str " 1e2 ")) } }
    let tail := " FROM \"x.users\" AS \"x.u\"" ++
      " LEFT JOIN \"x.posts\" AS \"x.p\" USING (\"id\", \"day\")" ++
      " INNER JOIN \"x.tags\" ON \"x.u\".\"tag\" = \"x.tags\".\"id\"" ++
      " AND (\"x.u\".\"x\" < \"x.p\".\"y\" OR \"x.u\".\"a\" = \"x.tags\".\"b\")" ++
      " WHERE \"x.u\".\"gone\" IS NULL AND (\"id\" IN (:ph0_b, :ph1_b) OR 1=0)" ++
      " GROUP BY \"k\",\"x.p\".\"n\" HAVING \"n\" > :ph2_b" ++
      " ORDER BY \"n\" DESC,\"k\" LIMIT 1e2 OFFSET 5"
    (c.compile (.select query)).1.map Compiled.sql = .ok ("SELECT *" ++ tail) ∧
      query.Filled ∧ IsQueryTail tail := by
  intro c query tail
  have hrun : (c.compile (.select query)).1.map Compiled.sql = .ok ("SELECT *" ++ tail) := by
    decide +kernel
  have hfilled : query.Filled := by
    constructor
    · simp [query, Joins.Filled, Relation.Filled, JoinCondition.AllFilled, JoinCondition.Filled]
    · simp [query, Filter.Filled, Condition.AllFilled, Condition.Filled]
  refine ⟨hrun, hfilled, ?_⟩
  rcases h : c.compile (.select query) with ⟨_ | out, c'⟩
  · rw [h] at hrun
    cases hrun
  rw [h] at hrun
  -- The columns of the query are the wildcard, so that its clauses are known.
  obtain ⟨columns, d, tail', hcolumns, hsql, htail⟩ := Compiler.isQueryTail_iff (by decide) h
  obtain rfl : [Token.word .wildcard] = columns := Except.ok.inj (congrArg Prod.fst hcolumns)
  have htext : "SELECT *" ++ tail = "SELECT *" ++ tail' :=
    (Except.ok.inj hrun).symm.trans hsql
  rw [(String.append_right_inj _).1 htext]
  exact htail.2 hfilled

/-- A group of no conditions, which no row meets: two parentheses with nothing in them. -/
theorem Compiler.not_isQueryTail_group :
    let c : Compiler := {}
    let query : Query :=
      { table := "t", filter := some { conditions := [.group .or none []] } }
    let tail := " FROM \"t\" WHERE ()"
    c.compile (.select query) = (.ok ⟨"SELECT *" ++ tail, []⟩, c) ∧ ¬IsQueryTail tail := by
  intro c query tail
  have hrun : c.compile (.select query) = (.ok ⟨"SELECT *" ++ tail, []⟩, c) := by decide +kernel
  refine ⟨hrun, fun htail => ?_⟩
  have hlex : lex tail.toList =
      [.word "FROM", .name "t", .word "WHERE", .mark '(', .mark ')'] := by decide +kernel
  have hwhole := tail_le_whole htail.derives
  rw [hlex] at hwhole
  have hchain := hwhole.1.tail.tail.tail
  exact (List.isChain_cons_cons.1 hchain).1.1 rfl rfl

end BoundSql
