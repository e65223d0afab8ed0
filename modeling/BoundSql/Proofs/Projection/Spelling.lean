import BoundSql.Proofs.Filter.Spelling
import BoundSql.Proofs.Statement.Placeholders

/-!
# What a projection spells out

A column by name is written with its alias; its type is only checked. Wildcards are fixed words, so
that of `table.*` only the table is a name. What a fragment spells out is not described here.
-/

namespace BoundSql

open Sql (Quoter Token Tokens)

/-- The names that a column and its alias ask for. -/
def ColumnName.names (q : Quoter) (c : ColumnName) : List String :=
  (q.columnReference c.column).names ++
    (c.aliasName.map fun aliasName => (q.columnReference aliasName).names).getD []

/-- The names that a written column asks for: none for all columns, the table for all columns of a
table, and else the column and its alias. -/
def Column.writtenNames (q : Quoter) (written : String) : List String :=
  let s := Text.trim written.toList
  if s = ['*'] then []
  else
    match Text.dropSuffix? ['.', '*'] s with
    | some table => [q.tablePrefix ++ String.ofList table]
    | none =>
      match ColumnName.ofText (String.ofList s) with
      | .ok parsed => parsed.names q
      | .error _ => []

mutual

/-- The names that a column asks for that is not the only one. -/
def Column.names (q : Quoter) : Column → List String
  | .name written => Column.writtenNames q written
  | .expression _ _ => []
  | .group _ columns => Column.allNames q columns

/-- The names that columns ask for, one column after the other. -/
def Column.allNames (q : Quoter) : List Column → List String
  | [] => []
  | column :: rest => column.names q ++ Column.allNames q rest

end

/-- The names that a projection asks for. The key of a group counts only if the group stands
alone. -/
def Projection.names (q : Quoter) : Projection → List String
  | .all => []
  | .columns [.group (some key) inner] =>
    (q.columnReference key).names ++ Column.allNames q inner
  | .columns items => Column.allNames q items

variable {q : Quoter} {d d' : Draft} {ts : Tokens}

/-- A column with an alias spells both. -/
theorem ColumnName.spells {c : ColumnName} {column : Tokens} {d₁ : Draft}
    (hcolumn : (Build.column c.column).exec q d = (.ok column, d₁))
    (h : (withAlias column c.aliasName).exec q d₁ = (.ok ts, d')) : Spells q (c.names q) [] ts := by
  rw [ColumnName.names]
  cases halias : c.aliasName with
  | none =>
    rw [halias, withAlias, Build.exec_pure_ok] at h
    obtain ⟨rfl, rfl⟩ := h
    rw [Option.map_none, Option.getD_none, List.append_nil]
    exact .of_column hcolumn
  | some aliasName =>
    simp only [halias, withAlias, Build.exec_bind_ok, Build.exec_pure_ok] at h
    obtain ⟨quoted, d₂, hquoted, rfl, rfl⟩ := h
    exact (Spells.of_column hcolumn).infixed .asAlias (.of_column hquoted)

/-- A written column spells its names. -/
theorem Column.spells_written {inJoin : Bool} {written : String}
    (h : (Column.compileName inJoin written).exec q d = (.ok ts, d')) :
    Spells q (Column.writtenNames q written) [] ts := by
  simp only [Column.compileName] at h
  rw [Column.writtenNames]
  split at h
  · exact (Build.exec_throw_ok.1 h).elim
  split at h
  · next hstar =>
    obtain ⟨rfl, rfl⟩ := Build.exec_pure_ok.1 h
    rw [if_pos hstar]
    exact .word .wildcard
  next hstar =>
  rw [if_neg hstar]
  cases hsuffix : Text.dropSuffix? ['.', '*'] (Text.trim written.toList) with
  | some table =>
    simp only [hsuffix, Build.exec_bind_ok, Build.exec_table_ok, Build.exec_pure_ok] at h
    obtain ⟨tokens, _, ⟨htable, rfl⟩, rfl, rfl⟩ := h
    have hall := (Spells.table htable).infixed .dot (.word .wildcard)
    rwa [List.append_nil] at hall
  | none =>
    simp only [hsuffix, Build.exec_bind_ok, Build.exec_ofExcept_ok] at h
    obtain ⟨parsed, _, ⟨hparsed, rfl⟩, column, d₁, hcolumn, h⟩ := h
    dsimp only
    rw [hparsed]
    exact ColumnName.spells hcolumn h

mutual

/-- A column without fragments spells its names. -/
theorem Column.spells (inJoin : Bool) : ∀ (c : Column) {d d' : Draft} {ts : Tokens}, c.isRawFree →
    (c.compile inJoin).exec q d = (.ok ts, d') → Spells q (c.names q) [] ts
  | .name written, d, d', ts, _, h => by
    rw [Column.compile] at h
    exact Column.spells_written h
  | .expression _ _, _, _, _, hraw, _ => absurd hraw (by simp [Column.isRawFree])
  | .group _ columns, d, d', ts, hraw, h => by
    simp only [Column.compile, Build.exec_bind_ok, Build.exec_pure_ok] at h
    obtain ⟨parts, d₁, hparts, rfl, rfl⟩ := h
    exact (Column.spellsEach inJoin columns hraw hparts).joinWith_filter .comma (by simp)

/-- Columns without fragments spell their names, one column after the other. -/
theorem Column.spellsEach (inJoin : Bool) : ∀ (cs : List Column) {d d' : Draft}
    {parts : List Tokens}, Column.allRawFree cs →
      (Column.compileEach inJoin cs).exec q d = (.ok parts, d') →
        SpellsEach q (Column.allNames q cs) parts
  | [], d, d', parts, _, h => by
    rw [Column.compileEach, Build.exec_pure_ok] at h
    obtain ⟨rfl, rfl⟩ := h
    exact .nil
  | c :: rest, d, d', parts, hraw, h => by
    rw [Column.allRawFree, Bool.and_eq_true] at hraw
    simp only [Column.compileEach, Build.exec_bind_ok, Build.exec_pure_ok] at h
    obtain ⟨first, d₁, hfirst, others, d₂, hothers, rfl, rfl⟩ := h
    exact .cons (c.spells inJoin hraw.1 hfirst) (Column.spellsEach inJoin rest hraw.2 hothers)

end

/-- A projection without fragments spells its names. -/
theorem Projection.spells {inJoin : Bool} {p : Projection} (hraw : p.isRawFree)
    (h : (p.compile inJoin).exec q d = (.ok ts, d')) : Spells q (p.names q) [] ts := by
  cases p with
  | all =>
    obtain ⟨rfl, rfl⟩ := Build.exec_pure_ok.1 h
    exact .word .wildcard
  | columns items =>
    rw [Projection.compile] at h
    unfold Column.compileList at h
    rw [Projection.isRawFree] at hraw
    split at h
    · next key inner =>
      -- The key of the only group is written as a column before those of the group.
      simp only [Build.exec_bind_ok, Build.exec_pure_ok] at h
      obtain ⟨name, d₁, hname, columns, d₂, hcolumns, _, _, ⟨rfl, rfl⟩, rfl, rfl⟩ := h
      rw [Column.allRawFree, Bool.and_eq_true] at hraw
      have hcolumns := Column.spells inJoin (.group none inner) hraw.1 hcolumns
      have heach := SpellsEach.cons (.of_column hname) (.cons hcolumns .nil)
      have hall := heach.joinWith_filter (p := fun part => !part.isEmpty) .comma (by simp)
      rwa [List.append_nil] at hall
    · next hgroup =>
      simp only [Build.exec_bind_ok, Build.exec_pure_ok] at h
      obtain ⟨parts, d₁, hparts, rfl, rfl⟩ := h
      have hall := (Column.spellsEach inJoin items hraw hparts).joinWith_filter
        (p := fun part => !part.isEmpty) .comma (by simp)
      rwa [Projection.names]
      exact hgroup

end BoundSql
