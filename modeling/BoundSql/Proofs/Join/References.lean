import BoundSql.Proofs.Filter.References
import BoundSql.Proofs.Join.Structure
import BoundSql.Proofs.Projection.Flattening
import BoundSql.Proofs.Statement.Skipped

/-!
# The names that a join refers to

A join introduces a table, under an alias if it has one, and then refers to the columns that relate
it to the tables before it. A column that names no table is under the name by which its side is
introduced: the base table by the query, the joined table by the join itself.

* `JoinCondition.references`: the columns of a condition, each with its qualification;
* `Joins.IsJoin`: the texts that introduce a joined table and refer to these columns;
* `Joins.exists_texts`: that joins are written as such texts.
-/

namespace BoundSql

open Sql (Connective Quoter Reference Refers Token Tokens Word lex references render)

mutual

/-- The columns of a condition between the tables with the names `base` and `joined`. A column in
which there is a dot has its own qualification. -/
def JoinCondition.references (q : Quoter) (base joined : String) : JoinCondition → List Reference
  | .pair localColumn foreignColumn =>
    [JoinCondition.reference q ('.' ∈ localColumn.toList) base localColumn,
      JoinCondition.reference q ('.' ∈ foreignColumn.toList) joined foreignColumn]
  | .columns left _ right => [q.columnReference left, q.columnReference right]
  | .group _ conditions => JoinCondition.allReferences q base joined conditions

/-- The columns of conditions between two tables, one condition after the other. -/
def JoinCondition.allReferences (q : Quoter) (base joined : String) :
    List JoinCondition → List Reference
  | [] => []
  | condition :: rest =>
    condition.references q base joined ++ JoinCondition.allReferences q base joined rest

end

/-- Whether a text relates two tables as it should: behind `ON` it refers to the columns of the
conditions, and else to the columns that the tables share. -/
def Relation.IsRelation (q : Quoter) (base joined : String) : Relation → String → Prop
  | .shared columns, text =>
    ∃ body, text = " USING (" ++ body ∧
      references (lex body.toList) = columns.map fun column => { name := column }
  | .on conditions, text =>
    ∃ body, text = " ON " ++ body ∧
      references (lex body.toList) = JoinCondition.allReferences q base joined conditions

/-- Whether a text joins a table to others of which the first is introduced under the name `base`:
it introduces the table and relates it to them under the name by which it does so. -/
def Joins.IsJoin (q : Quoter) (base : String) (join : String × Relation) (text : String) : Prop :=
  ∃ target related, JoinTarget.ofKey? join.1 = some target ∧
    text = target.kind.text ++ " " ++ q.introduction target.table target.aliasName ++ related ∧
    join.2.IsRelation q base (q.introduced target.table target.aliasName) related

variable {q : Quoter} {d d' : Draft} {base joined : String} {ts : Tokens}

/-- No name begins with a dot. -/
theorem Sql.not_isName_dot (rest : List Char) : isName ('.' :: rest) = false := by
  have hdot : isNameStart '.' = false := by decide
  rw [isName, hdot]
  rfl

/-- A column of the base table that is accepted names a table exactly if there is a dot in it. -/
theorem JoinCondition.namesTable_of_qualified {column : String} {table : Tokens}
    (h : (qualified (namesTable column) table column).exec q d = (.ok ts, d')) :
    namesTable column = decide ('.' ∈ column.toList) := by
  cases hchars : column.toList with
  | nil => simp [namesTable, hchars]
  | cons c rest =>
    by_cases hc : c = '.'
    · -- A dot at the start is not taken for one behind a table, and no column begins with it.
      subst hc
      have hnamed : namesTable column = false := by simp [namesTable, hchars]
      rw [hnamed, qualified, if_neg (by simp)] at h
      simp only [Build.exec_bind_ok, Build.exec_plainColumn_ok] at h
      obtain ⟨name, _, ⟨hname, -⟩, -⟩ := h
      rw [Quoter.plainColumn, hchars, Sql.not_isName_dot, if_neg (by simp)] at hname
      cases hname
    · simp [namesTable, hchars, hc, Ne.symm hc]

mutual

/-- A condition between two tables refers to its columns. -/
theorem JoinCondition.refers : ∀ (c : JoinCondition) {d d' : Draft} {ts : Tokens},
    (c.compile [.name base] [.name joined]).exec q d = (.ok ts, d') →
      Refers ts (c.references q base joined)
  | .pair localColumn foreignColumn, d, d', ts, h => by
    simp only [JoinCondition.compile, Build.exec_bind_ok, Build.exec_pure_ok] at h
    obtain ⟨left, d₁, hleft, right, d₂, hright, rfl, -⟩ := h
    rw [JoinCondition.references, ← JoinCondition.namesTable_of_qualified hleft,
      JoinCondition.tokens_of_qualified hleft, JoinCondition.tokens_of_qualified hright]
    exact (Refers.reference _).infixed (by decide) (.reference _)
  | .columns left op right, d, d', ts, h => by
    simp only [JoinCondition.compile, Build.exec_bind_ok, Build.exec_pure_ok] at h
    obtain ⟨left, d₁, hleft, right, d₂, hright, rfl, -⟩ := h
    exact (Refers.column hleft).infixed (by simp) (.column hright)
  | .group connective conditions, d, d', ts, h => by
    simp only [JoinCondition.compile, Build.exec_bind_ok, Build.exec_pure_ok] at h
    obtain ⟨inner, d₁, hinner, rfl, -⟩ := h
    have hinner := JoinCondition.refersAll connective conditions hinner
    exact (hinner.cons (by decide)).concat (by decide)

/-- Sibling conditions between two tables refer to their columns, one condition after the other. -/
theorem JoinCondition.refersAll (connective : Connective) :
    ∀ (cs : List JoinCondition) {d d' : Draft} {ts : Tokens},
    (JoinCondition.compileAll [.name base] [.name joined] connective cs).exec q d = (.ok ts, d') →
      Refers ts (JoinCondition.allReferences q base joined cs)
  | [], d, d', ts, h => by
    rw [JoinCondition.compileAll, Build.exec_pure_ok] at h
    obtain ⟨rfl, -⟩ := h
    exact .nil
  | [c], d, d', ts, h => by
    rw [JoinCondition.compileAll] at h
    rw [JoinCondition.allReferences, JoinCondition.allReferences, List.append_nil]
    exact c.refers h
  | c :: next :: rest, d, d', ts, h => by
    simp only [JoinCondition.compileAll, Build.exec_bind_ok, Build.exec_pure_ok] at h
    obtain ⟨first, d₁, hfirst, others, d₂, hothers, rfl, -⟩ := h
    exact (c.refers hfirst).infixed (by simp)
      (JoinCondition.refersAll connective (next :: rest) hothers)

end

/-- What relates two tables refers to the columns that it should. -/
theorem Relation.isRelation {r : Relation} (hq : '"' ∉ q.tablePrefix.toList)
    (hbase : Sql.Inert q [.name base]) (hjoined : Sql.Inert q [.name joined])
    (h : (r.compile [.name base] [.name joined]).exec q d = (.ok ts, d')) :
    r.IsRelation q base joined (render ts) := by
  -- The whole relation is sound, and so is what stands behind its keyword.
  have hsound := (Relation.emits hbase hjoined h).1.inert.sound hq
  cases r with
  | shared columns =>
    simp only [Relation.compile, Build.exec_bind_ok, Build.exec_pure_ok] at h
    obtain ⟨parts, d₁, hparts, rfl, -⟩ := h
    have hcolumn : ∀ column ∈ columns, ∀ {d ts d'},
        (Build.plainColumn column).exec q d = (.ok ts, d') →
          Refers ts [({ name := column } : Reference)] := by
      intro column _ d ts d' hname
      obtain ⟨rfl, -⟩ := Quoter.plainColumn_ok (Build.exec_plainColumn_ok.1 hname).1
      exact .reference { name := column }
    have heach := Build.forall₂_of_exec_mapM hcolumn hparts
    have hlist := (Refers.joinWith (w := .commaSpace) (by decide) heach).concat
      (w := .closeParen) (by decide)
    rw [← List.map_eq_flatMap] at hlist
    exact ⟨_, Sql.render_cons _ _, hlist.references_lex_render hsound.of_cons⟩
  | on conditions =>
    simp only [Relation.compile, Build.exec_bind_ok, Build.exec_pure_ok] at h
    obtain ⟨inner, d₁, hinner, rfl, -⟩ := h
    have hconditions := JoinCondition.refersAll .and conditions hinner
    exact ⟨_, Sql.render_cons _ _, hconditions.references_lex_render hsound.of_cons⟩

/-- A joined table is introduced and related to the tables before it. -/
theorem JoinTarget.isJoin {key name : String} {target : JoinTarget} {relation : Relation}
    {baseTokens : Tokens} (hq : '"' ∉ q.tablePrefix.toList)
    (hkey : JoinTarget.ofKey? key = some target) (hbase : q.table name = .ok baseTokens)
    (h : (target.compile baseTokens relation).exec q d = (.ok ts, d')) :
    Joins.IsJoin q (q.tableReference name).name (key, relation) (render ts) := by
  obtain ⟨joined, related, table, hjoined, hrelated, htable, rfl⟩ := JoinTarget.compile_ok h
  refine ⟨target, render related, hkey, ?text, ?related⟩
  case text =>
    rw [Sql.render_append, List.cons_append, Sql.render_cons,
      Sql.Quoter.render_introduction htable hjoined]
    rfl
  case related =>
    -- Both tables are single names from here on, the base table and the alias of the joined one.
    have hbaseInert := Sql.Inert.table hbase
    have hjoinedInert := Sql.Inert.table hjoined
    obtain ⟨rfl, -⟩ := Quoter.table_ok hbase
    obtain ⟨rfl, -⟩ := Quoter.table_ok hjoined
    exact Relation.isRelation hq hbaseInert hjoinedInert hrelated

/-- Of the joins that are not passed over, each is written as it should. -/
theorem Joins.isJoin_each {joins : Joins} {name : String} {baseTokens : Tokens}
    {parts : List Tokens} (hq : '"' ∉ q.tablePrefix.toList) (hbase : q.table name = .ok baseTokens)
    (h : (joins.compileEach baseTokens).exec q d = (.ok parts, d')) :
    List.Forall₂ (fun join part => Joins.IsJoin q (q.tableReference name).name join (render part))
      joins.kept parts := by
  induction joins generalizing d d' parts with
  | nil =>
    obtain ⟨rfl, -⟩ := Build.exec_pure_ok.1 h
    exact .nil
  | cons join joins ih =>
    obtain ⟨key, relation⟩ := join
    rw [Joins.compileEach] at h
    rw [Joins.kept, List.filter_cons]
    split at h
    · next hkey =>
      -- An entry that is passed over is not among those that are kept.
      rw [if_neg (by simp [hkey])]
      exact ih h
    · next target hkey =>
      simp only [Build.exec_bind_ok, Build.exec_pure_ok] at h
      obtain ⟨first, d₁, hfirst, others, d₂, hothers, rfl, -⟩ := h
      rw [if_pos (by simp [hkey])]
      exact .cons (JoinTarget.isJoin hq hkey hbase hfirst) (ih hothers)

/-- A join is not empty. -/
theorem Joins.IsJoin.ne_empty {base text : String} {join : String × Relation}
    (h : IsJoin q base join text) : text ≠ "" := by
  obtain ⟨target, related, -, rfl, -⟩ := h
  intro hempty
  have hchars := congrArg String.toList hempty
  simp at hchars

/-- Texts with a blank before each of them. -/
theorem Sql.render_blanks {parts : List Tokens} (hfilled : ∀ part ∈ parts, part ≠ []) :
    render (if (joinWith .space parts).isEmpty then []
      else Token.word .space :: joinWith .space parts) =
      String.join (parts.map fun part => " " ++ render part) := by
  induction parts with
  | nil => rfl
  | cons part parts ih =>
    obtain ⟨hpart, hparts⟩ := List.forall_mem_cons.1 hfilled
    have hne : (joinWith .space (part :: parts)).isEmpty = false := by
      rw [List.isEmpty_eq_false_iff, ne_eq, joinWith_eq_nil_iff hfilled]
      simp
    rw [hne, if_neg (by simp), List.map_cons, String.join_cons, ← ih hparts]
    by_cases hlast : parts = []
    · subst hlast
      simp [joinWith, render_cons, Token.text, Word.text]
    · have hrest := (joinWith_eq_nil_iff (w := .space) hparts).not.2 hlast
      rw [joinWith_cons part hlast, List.isEmpty_eq_false_iff.2 hrest, if_neg (by simp),
        render_cons, render_append, ← String.append_assoc]
      rfl

/-- Joined tables are written with a blank before each of them. -/
theorem Joins.exists_texts {joins : Joins} {name : String} {baseTokens : Tokens}
    (hq : '"' ∉ q.tablePrefix.toList) (hbase : q.table name = .ok baseTokens)
    (h : (joins.compile baseTokens).exec q d = (.ok ts, d')) :
    ∃ texts, render (if ts.isEmpty then [] else Token.word .space :: ts) =
        String.join (texts.map (" " ++ ·)) ∧
      List.Forall₂ (Joins.IsJoin q (q.tableReference name).name) joins.kept texts := by
  simp only [Joins.compile, Build.exec_bind_ok, Build.exec_pure_ok] at h
  obtain ⟨parts, d₁, hparts, rfl, -⟩ := h
  have heach := Joins.isJoin_each hq hbase hparts
  -- No part is empty, so that there is a blank before each of them.
  have hfilled : ∀ part ∈ parts, part ≠ [] := by
    refine ((List.forall₂_and_left parts _).1 (heach.flip.imp fun part join h => ⟨?_, h⟩)).1
    rintro rfl
    exact IsJoin.ne_empty h rfl
  refine ⟨parts.map render, ?_, List.forall₂_map_right_iff.2 heach⟩
  rw [Sql.render_blanks hfilled, List.map_map]
  rfl

end BoundSql
