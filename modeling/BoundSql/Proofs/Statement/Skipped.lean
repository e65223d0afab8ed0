import BoundSql.Proofs.Filter.Rejection
import BoundSql.Proofs.Join.Alias
import BoundSql.Proofs.Projection.Wildcard
import BoundSql.Statement.Compiler

/-!
# Joins that are passed over

Entries of joins whose key names no join are passed over, whatever their relations are. Nothing of
them is in the statement that a query compiles to. They leave one trace nevertheless: as long as any
entries are given, the query counts as one with joins, in which a column must not be a wildcard,
even if all of these entries are passed over.

* `Query.withoutSkipped`: a query without the entries that are passed over;
* `Query.compile_eq`: a query compiles in two portions, of which only the second one sees the joins;
* `Compiler.compile_withoutSkipped_iff`: the queries in which entries that are passed over leave no
  trace.
-/

namespace BoundSql

open Build (FailsWith)
open Sql (Quoter Token Tokens)

/-- The entries whose key names a join. -/
def Joins.kept (joins : Joins) : Joins :=
  joins.filter fun join => (JoinTarget.ofKey? join.1).isSome

/-- Only the entries whose key names a join are compiled. -/
theorem Joins.compileEach_kept (base : Tokens) (joins : Joins) :
    Joins.compileEach base joins.kept = Joins.compileEach base joins := by
  induction joins with
  | nil => rfl
  | cons join joins ih =>
    obtain ⟨key, relation⟩ := join
    rw [kept, List.filter_cons, compileEach]
    cases htarget : JoinTarget.ofKey? key with
    | none => exact ih
    | some target =>
      rw [if_pos (by simp), compileEach, htarget]
      show (do
        let first ← target.compile base relation
        let others ← compileEach base (kept joins)
        return first :: others) = _
      rw [ih]

/-- Joins compile to those whose key names one. -/
theorem Joins.compile_kept (base : Tokens) (joins : Joins) :
    Joins.compile base joins.kept = Joins.compile base joins := by
  rw [compile, compile, compileEach_kept]

/-- Nothing is kept of joins exactly if no key names one. -/
theorem Joins.kept_eq_nil_iff {joins : Joins} :
    joins.kept = [] ↔ ∀ join ∈ joins, JoinTarget.ofKey? join.1 = none := by
  simp [kept, List.filter_eq_nil_iff]

namespace Query

/-- A query without the entries that are passed over, and without joins if nothing is left. -/
def withoutSkipped (q : Query) : Query :=
  let kept := Joins.kept (q.joins.getD [])
  { q with joins := if kept.isEmpty then none else some kept }

/-- The entries that are left. -/
theorem joins_withoutSkipped (q : Query) :
    q.withoutSkipped.joins.getD [] = Joins.kept (q.joins.getD []) := by
  rw [withoutSkipped]
  split
  · next hempty => exact (List.isEmpty_iff.1 hempty).symm
  · rfl

/-! ### Queries in two portions -/

/-- The table of a query with its alias, and the name under which it is introduced. -/
def reference (q : Query) : Build (Tokens × Tokens) := do
  let (table, aliasName) ← match Sql.splitAlias? (Text.trim q.table.toList) with
    | some parts => pure parts
    | none => throw (.incorrectTable q.table)
  let table ← Build.table (String.ofList table)
  match aliasName with
  | some aliasName => do
    let quoted ← Build.table (String.ofList aliasName)
    return (table ++ Token.word .asAlias :: quoted, quoted)
  | none => return (table, table)

/-- The rest of a query over its table, counting as one with joins or without. -/
def clauses (q : Query) (inJoin : Bool) (named : Tokens × Tokens) : Build Tokens := do
  let columns ← q.projection.compile inJoin
  let joined ← Joins.compile named.2 (q.joins.getD [])
  let filter ← Filter.compileOption q.filter
  return Token.word .select :: columns ++ Token.word .source :: named.1 ++
    (if joined.isEmpty then [] else Token.word .space :: joined) ++ filter

/-- A query compiles to its table and to the rest over this table. -/
theorem compile_eq (q : Query) :
    q.compile = q.reference >>= q.clauses (!(q.joins.getD []).isEmpty) := by
  unfold compile reference clauses
  cases Sql.splitAlias? (Text.trim q.table.toList) with
  | none => rfl
  | some parts =>
    obtain ⟨table, aliasName⟩ := parts
    cases aliasName <;> simp

/-- Without the entries that are passed over, a query may count as one without joins. -/
theorem compile_withoutSkipped (q : Query) :
    q.withoutSkipped.compile =
      q.reference >>= q.clauses (!(Joins.kept (q.joins.getD [])).isEmpty) := by
  rw [compile_eq, joins_withoutSkipped]
  refine congrArg (q.reference >>= ·) (funext fun named => ?_)
  simp only [clauses, joins_withoutSkipped, Joins.compile_kept]
  rfl

variable {quoter : Quoter} {d : Draft}

/-- The table of a query is quoted exactly if it can be read. -/
theorem succeeds_reference (q : Query) :
    q.reference.Succeeds quoter d ↔ (Sql.splitAlias? (Text.trim q.table.toList)).isSome := by
  rw [reference]
  cases htable : Sql.splitAlias? (Text.trim q.table.toList) with
  | none =>
    refine iff_of_false ?_ (by simp)
    rintro ⟨tokens, d', h⟩
    simp at h
  | some parts =>
    obtain ⟨table, aliasName⟩ := parts
    obtain ⟨blanks, -, halias, hscan⟩ := Sql.exists_blanks_of_splitAlias? htable
    have hname := (Fragment.isName_of_scanName? hscan).1
    refine iff_of_true ?_ rfl
    -- The table and its alias are names, which are never rejected.
    have hquoted : ∀ name, Sql.isName name →
        (Build.table (String.ofList name)).exec quoter d =
          (.ok [.name (quoter.tablePrefix ++ String.ofList name)], d) := by
      intro name h
      refine Build.exec_table_ok.2 ⟨?_, rfl⟩
      rw [Quoter.table, if_pos (by simpa using h)]
    show Build.Succeeds (pure (table, aliasName) >>= _) quoter d
    rw [pure_bind]
    apply Build.succeeds_bind.2
    refine ⟨_, d, hquoted table hname, ?_⟩
    cases aliasName with
    | none => exact Build.succeeds_pure _ d
    | some aliasName =>
      exact Build.succeeds_bind.2 ⟨_, d, hquoted aliasName (halias aliasName rfl),
        Build.succeeds_pure _ d⟩

/-- In a query in which a wildcard is reached, the rest is refused if it counts as one with joins. -/
theorem exec_clauses_of_meets {q : Query} (h : q.projection.MeetsWildcard quoter) (d : Draft)
    (named : Tokens × Tokens) :
    ((q.clauses true named).exec quoter d).1 = .error .wildcardInJoin :=
  Build.exec_bind_error (Projection.exec_compile_of_meets h d) _

/-- In any other query, the rest compiles alike with joins and without. -/
theorem exec_clauses_of_not_meets {q : Query} (h : ¬q.projection.MeetsWildcard quoter) (d : Draft)
    (named : Tokens × Tokens) :
    (q.clauses true named).exec quoter d = (q.clauses false named).exec quoter d :=
  Build.exec_bind_congr (Projection.exec_compile_of_not_meets h d) _

/-- A query that counts as one without joins, and of whose joins nothing is kept, does not fail for a
wildcard. -/
theorem sparesWildcard_clauses {q : Query} (h : Joins.kept (q.joins.getD []) = [])
    (named : Tokens × Tokens) : FailsWith Error.SparesWildcard (q.clauses false named) := by
  refine .bind q.projection.sparesWildcard fun columns => ?_
  refine .bind ?joins fun joined => .bind ?filter fun filter => .pure _
  case joins =>
    rw [← Joins.compile_kept, h]
    exact .bind (.pure []) fun parts => .pure _
  case filter =>
    cases q.filter with
    | none => exact .pure []
    | some filter => exact filter.failsWith.sparesWildcard

/-- A query that is refused for entries that are passed over: entries are given, no key of them names
a join, and in the columns of a table that can be read a wildcard is reached. -/
structure FailsForSkipped (quoter : Quoter) (q : Query) : Prop where
  /-- There are entries. -/
  given : q.joins.getD [] ≠ []
  /-- All of them are passed over. -/
  skipped : ∀ join ∈ q.joins.getD [], JoinTarget.ofKey? join.1 = none
  /-- The table can be read. -/
  readable : (Sql.splitAlias? (Text.trim q.table.toList)).isSome
  /-- A wildcard is reached. -/
  wildcard : q.projection.MeetsWildcard quoter

/-- What a query that is refused for entries that are passed over comes to with them and without. -/
theorem exec_of_failsForSkipped {q : Query} (h : q.FailsForSkipped quoter) (d : Draft) :
    (q.compile.exec quoter d).1 = .error .wildcardInJoin ∧
      (q.withoutSkipped.compile.exec quoter d).1 ≠ .error .wildcardInJoin := by
  have hkept : Joins.kept (q.joins.getD []) = [] := Joins.kept_eq_nil_iff.2 h.skipped
  have hgiven : (!(q.joins.getD []).isEmpty) = true := by simp [h.given]
  obtain ⟨named, d₁, hnamed⟩ := q.succeeds_reference.2 h.readable
  rw [compile_eq, compile_withoutSkipped, hkept, hgiven, Build.exec_bind_of_ok hnamed,
    Build.exec_bind_of_ok hnamed]
  refine ⟨exec_clauses_of_meets h.wildcard d₁ named, fun hfails => ?_⟩
  exact sparesWildcard_clauses hkept named quoter d₁ _ hfails rfl

/-- Any other query comes to the same with the entries that are passed over and without. -/
theorem exec_withoutSkipped {q : Query} (h : ¬q.FailsForSkipped quoter) (d : Draft) :
    q.compile.exec quoter d = q.withoutSkipped.compile.exec quoter d := by
  rw [compile_eq, compile_withoutSkipped]
  by_cases hgiven : q.joins.getD [] = []
  · rw [hgiven]
    rfl
  by_cases hkept : Joins.kept (q.joins.getD []) = []
  · have hcounts : (!(q.joins.getD []).isEmpty) = true := by simp [hgiven]
    rw [hkept, hcounts, Build.exec_bind, Build.exec_bind]
    rcases hnamed : q.reference.exec quoter d with ⟨e | named, d₁⟩
    case error =>
      -- Behind a table that is rejected the joins do not matter.
      rfl
    case ok =>
      have hreadable := q.succeeds_reference.1 ⟨named, d₁, hnamed⟩
      refine exec_clauses_of_not_meets (fun hwildcard => h ?_) d₁ named
      exact ⟨hgiven, Joins.kept_eq_nil_iff.1 hkept, hreadable, hwildcard⟩
  · -- Something is kept, so that the query counts as one with joins in any case.
    rw [List.isEmpty_eq_false_iff.2 hkept, List.isEmpty_eq_false_iff.2 hgiven]

end Query

/-! ### Compiled queries -/

namespace Compiler

variable {c : Compiler} {s : Statement}

/-- A statement that fails to be built fails to compile. -/
theorem compile_of_exec_error {e : Error}
    (h : (s.compile.exec c.quoter { next := c.next }).1 = .error e) :
    c.compile s = (.error e, c) := by
  rw [compile]
  rcases hrun : s.compile.exec c.quoter { next := c.next } with ⟨x | ts, d⟩ <;> rw [hrun] at h
  · obtain rfl := Except.error.inj h
    rfl
  · cases h

/-- A statement fails to compile only as it fails to be built. -/
theorem exec_of_compile_error {e : Error} (h : (c.compile s).1 = .error e) :
    (s.compile.exec c.quoter { next := c.next }).1 = .error e := by
  rw [compile] at h
  rcases hrun : s.compile.exec c.quoter { next := c.next } with ⟨x | ts, d⟩ <;> rw [hrun] at h
  · exact congrArg Except.error (Except.error.inj h)
  · cases h

/-- Entries of joins whose key names no join leave no trace: a query compiles to the same without
them, and to the same without joins if nothing is left. This is so exactly if the query is not
refused for them. A query is refused for entries that are passed over if entries are given and no
key names a join, and a column that must not be a wildcard in a query with joins is one; the query
without them is not refused for this. -/
theorem compile_withoutSkipped_iff (c : Compiler) (q : Query) :
    (c.compile (.select q) = c.compile (.select q.withoutSkipped) ↔
      ¬q.FailsForSkipped c.quoter) ∧
    (q.FailsForSkipped c.quoter →
      c.compile (.select q) = (.error .wildcardInJoin, c) ∧
      (c.compile (.select q.withoutSkipped)).1 ≠ .error .wildcardInJoin) := by
  have hrefused : q.FailsForSkipped c.quoter →
      c.compile (.select q) = (.error .wildcardInJoin, c) ∧
      (c.compile (.select q.withoutSkipped)).1 ≠ .error .wildcardInJoin := by
    intro h
    obtain ⟨hfails, hspares⟩ := Query.exec_of_failsForSkipped h { next := c.next }
    exact ⟨compile_of_exec_error hfails, fun heq => hspares (exec_of_compile_error heq)⟩
  refine ⟨⟨fun heq h => ?_, fun h => ?_⟩, hrefused⟩
  · obtain ⟨hfails, hspares⟩ := hrefused h
    rw [← heq, hfails] at hspares
    exact hspares rfl
  · have hsame := Query.exec_withoutSkipped h { next := c.next }
    rw [compile, compile, Statement.compile, Statement.compile, hsame]

/-- Of the only entry the key names no join: all columns of the table are refused, and without the
entry they are read. -/
theorem skipped_entry_refuses_wildcard :
    let c : Compiler := {}
    let q : Query :=
      { table := "t", joins := some [("[=]u", .shared ["id"])], projection := .columns [.name "t.*"] }
    JoinTarget.ofKey? "[=]u" = none ∧
      q.withoutSkipped = { q with joins := none } ∧
      c.compile (.select q) = (.error .wildcardInJoin, c) ∧
      c.compile (.select { q with joins := none }) = (.ok ⟨"SELECT \"t\".* FROM \"t\"", []⟩, c) := by
  refine ⟨rfl, rfl, ?_, ?_⟩
  all_goals rfl

end Compiler

end BoundSql
