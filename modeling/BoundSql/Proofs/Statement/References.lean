import BoundSql.Proofs.Join.References
import BoundSql.Proofs.Projection.References
import BoundSql.Proofs.Statement.Emission

/-!
# Names are referred to as they are introduced

A query introduces tables: its first one behind `FROM` and the others behind the keywords of joins,
each under an alias if it has one, and all of these names with the prefix of the quoter in front of
them. Its columns are referred to under these names, wherever they stand: a column of a join without
a dot under the name of its side, and a column with a dot under the name before the dot, which gets
the prefix as a table or an alias of that name does.

* `Query.IsQuery`: the texts that introduce the tables of a query and refer to its columns so;
* `Compiler.isQuery_of_compile`: queries compile to such texts.
-/

namespace BoundSql

open Sql (Quoter Reference Token Tokens lex references render)

/-- Whether a text asks for a query: it introduces the first table and every joined one, lists the
columns, and refers to the columns of the conditions under the names that are introduced. -/
structure Query.IsQuery (q : Quoter) (query : Query) (sql table : String)
    (aliasName : Option String) (columns : String) (joins : List String) (filter : String) :
    Prop where
  /-- The first table is the one that is given. -/
  given : Sql.splitAlias? (Text.trim query.table.toList) =
    some (table.toList, aliasName.map String.toList)
  /-- The text introduces the first table behind the columns. -/
  text : sql = "SELECT " ++ columns ++ " FROM " ++ q.introduction table aliasName ++
    String.join (joins.map (" " ++ ·)) ++ filter
  /-- The columns are listed. -/
  listed : query.projection.IsColumns q columns
  /-- Each joined table is introduced, and related to the first one. -/
  related : List.Forall₂ (Joins.IsJoin q (q.introduced table aliasName))
    (Joins.kept (query.joins.getD [])) joins
  /-- The filter refers to its columns. -/
  referred : references (lex filter.toList) = (query.filter.map (Filter.references q)).getD []

variable {q : Quoter} {d d' : Draft} {ts : Tokens}

/-- A column with a dot is referred to under the name by which a table or an alias of the name
before the dot is introduced. -/
theorem Sql.Quoter.columnReference_append (q : Quoter) {table : String}
    (h : '.' ∉ table.toList) (column : String) :
    q.columnReference (table ++ "." ++ column) = ⟨some (q.tableReference table).name, column⟩ := by
  have hsplit : Text.splitAtFirst? '.' (table ++ "." ++ column).toList =
      some (table.toList, column.toList) := by
    simpa using Text.splitAtFirst?_append h
  rw [columnReference, hsplit]
  simp [tableReference]

/-- A filter that may be missing refers to its columns. -/
theorem Filter.references_option {f : Option Filter} (hq : '"' ∉ q.tablePrefix.toList)
    (h : (compileOption f).exec q d = (.ok ts, d')) :
    Sql.references (lex (render ts).toList) = (f.map (Filter.references q)).getD [] := by
  have hsound := (Filter.emits_option h).1.sound_of_values hq
  cases f with
  | none =>
    obtain ⟨rfl, -⟩ := Build.exec_pure_ok.1 h
    exact Sql.Refers.nil.references_lex_render hsound
  | some f => exact (Filter.refers h).references_lex_render hsound

/-- A query is built as it should. -/
theorem Query.exists_isQuery {query : Query} (hq : '"' ∉ q.tablePrefix.toList)
    (h : query.compile.exec q d = (.ok ts, d')) :
    ∃ table aliasName columns joins filter,
      query.IsQuery q (render ts) table aliasName columns joins filter := by
  obtain ⟨name, aliasName, table, base, columns, joined, filter, d₁, d₂, hname, htable, hbase,
    hcolumns, hjoined, hfilter, rfl⟩ := Query.compile_ok h
  obtain ⟨joins, hjoins, heach⟩ := Joins.exists_texts hq hbase hjoined
  -- The parts of the table are characters; as texts they are introduced in the same way.
  have hgetD : String.ofList (aliasName.getD name) =
      (aliasName.map String.ofList).getD (String.ofList name) := by
    cases aliasName <;> rfl
  have hnaming : Sql.naming (aliasName.map String.ofList) base = Sql.naming aliasName base := by
    cases aliasName <;> rfl
  rw [hgetD] at hbase heach
  have hintroduction := Sql.Quoter.render_introduction htable hbase
  rw [hnaming] at hintroduction
  refine ⟨String.ofList name, aliasName.map String.ofList, render columns, joins, render filter,
    ?given, ?text, Projection.isColumns hcolumns, heach, Filter.references_option hq hfilter⟩
  case given =>
    rw [hname]
    cases aliasName <;> simp
  case text =>
    rw [← hintroduction, ← hjoins]
    simp only [Sql.render_append, Sql.render_cons, List.cons_append, String.append_assoc]
    rfl

namespace Compiler

/-- Names are referred to as they are introduced, if there is no quotation mark in the prefix of the
quoter: the text of a query that compiles introduces its tables and refers to its columns under the
names by which it does so, and a column with a dot is qualified by the name by which a table or an
alias of the name before the dot is introduced. -/
theorem isQuery_of_compile {c c' : Compiler} {query : Query} {out : Compiled}
    (hq : '"' ∉ c.quoter.tablePrefix.toList) (h : c.compile (.select query) = (.ok out, c')) :
    (∃ table aliasName columns joins filter,
      query.IsQuery c.quoter out.sql table aliasName columns joins filter) ∧
    ∀ table column : String, '.' ∉ table.toList →
      c.quoter.columnReference (table ++ "." ++ column) =
        ⟨some (c.quoter.tableReference table).name, column⟩ := by
  obtain ⟨ts, hexec, hsql, -⟩ := Compiler.exec_of_compile h
  rw [hsql]
  exact ⟨Query.exists_isQuery hq hexec, fun table column hdot =>
    c.quoter.columnReference_append hdot column⟩

/-- A query with aliases, in which columns with dots and without stand in every clause. -/
theorem isQuery_of_aliases :
    let c : Compiler := { quoter := ⟨"p_"⟩ }
    let query : Query :=
      { table := "users (u)",
        joins := some [("[>]posts(p)", .on [.pair "id" "user_id",
            .group .or [.pair "kind" "t.kind", .group .and [.columns "u.a" .less "p.b"]]]),
          ("[><]tags", .on [.pair "p.tag" "id"])],
        projection := .columns [.name "u.name(title)", .expression "n" ⟨"COUNT(<p.id>)", []⟩],
        filter := some
          { conditions := [.equals "u.id" (.int 1)], grouping := ["u.name"],
            having := [.columns "p.a" .equal "u.b"], order := [⟨"tags.id", none⟩] } }
    let sql := "SELECT \"p_u\".\"name\" AS \"title\",COUNT(\"p_p\".\"id\") AS \"n\" FROM " ++
      "\"p_users\" AS \"p_u\" LEFT JOIN \"p_posts\" AS \"p_p\" ON \"p_u\".\"id\" = " ++
      "\"p_p\".\"user_id\" AND (\"p_u\".\"kind\" = \"p_t\".\"kind\" OR (\"p_u\".\"a\" < " ++
      "\"p_p\".\"b\")) INNER JOIN \"p_tags\" ON \"p_p\".\"tag\" = \"p_tags\".\"id\" WHERE " ++
      "\"p_u\".\"id\" = :ph0_b GROUP BY \"p_u\".\"name\" HAVING \"p_p\".\"a\" = \"p_u\".\"b\" " ++
      "ORDER BY \"p_tags\".\"id\""
    '"' ∉ c.quoter.tablePrefix.toList ∧
      c.compile (.select query) = (.ok ⟨sql, [(":ph0_b", ⟨.int, .int 1⟩)]⟩, { c with next := 1 }) ∧
      (∃ table aliasName columns joins filter,
        query.IsQuery c.quoter sql table aliasName columns joins filter) ∧
      c.quoter.columnReference "p.tag" = ⟨some "p_p", "tag"⟩ := by
  intro c query sql
  have hq : '"' ∉ c.quoter.tablePrefix.toList := by decide
  have h : c.compile (.select query) =
      (.ok ⟨sql, [(":ph0_b", ⟨.int, .int 1⟩)]⟩, { c with next := 1 }) := by decide +kernel
  obtain ⟨hquery, hdotted⟩ := isQuery_of_compile hq h
  exact ⟨hq, h, hquery, hdotted "p" "tag" (by decide)⟩

end Compiler

end BoundSql
