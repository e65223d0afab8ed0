import BoundSql.Proofs.Projection.Flattening
import BoundSql.Proofs.Sql.References

/-!
# The names that a projection refers to

The columns of a query are written one after the other, with commas between them: names with their
qualification and fragments in which the names at the markers are quoted, each with its alias. All
columns of a table are written with the table that they belong to.

* `Fragment.Piece.IsExpanded`: how the pieces of a fragment are written;
* `Column.IsColumn`: how a name or a fragment is written;
* `Projection.isColumns`: that a projection is written as its names and fragments.
-/

namespace BoundSql

open Sql (Quoter Reference Token Tokens render)

/-- Whether a text is what a piece of a template becomes: the name at a marker is quoted, as that of
a table behind a keyword and as that of a column elsewhere. -/
def Fragment.Piece.IsExpanded (q : Quoter) : Piece → String → Prop
  | .text chars, new => new = String.ofList chars
  | .quoted chars, new => new = String.ofList chars
  | .marker lead (some keyword) name, new =>
    new = String.ofList lead ++ keyword.text ++ " " ++ (q.tableReference (String.ofList name)).text
  | .marker lead none name, new =>
    new = String.ofList lead ++ (q.columnReference (String.ofList name)).text

/-- Whether a text is a name or a fragment as it is written among the columns of a query: a name
with its qualification, or a fragment with the names at its markers quoted, and the alias behind it.
A group is neither; it stands for the names and fragments in it. -/
def Column.IsColumn (q : Quoter) : Column → String → Prop
  | .name written, text =>
    let s := Text.trim written.toList
    if s = ['*'] then text = "*"
    else
      match Text.dropSuffix? ['.', '*'] s with
      | some table => text = (q.tableReference (String.ofList table)).text ++ ".*"
      | none => ∃ parsed, ColumnName.ofText (String.ofList s) = .ok parsed ∧
          text = (q.columnReference parsed.column).text ++
            Reference.namingText (parsed.aliasName.map q.columnReference)
  | .expression aliasName fragment, text =>
    ∃ parsed pieces, ColumnName.ofText aliasName = .ok parsed ∧
      List.Forall₂ (Fragment.Piece.IsExpanded q) (Fragment.scan fragment.template) pieces ∧
      text = String.join pieces ++ Reference.namingText (some (q.columnReference parsed.column))
  | .group _ _, _ => False

/-- Whether a text lists the columns of a query: all of them, or the names and fragments that are
given. The key of a group that stands alone comes before these. -/
def Projection.IsColumns (q : Quoter) : Projection → String → Prop
  | .all, text => text = "*"
  | .columns [.group (some key) inner], text =>
    ∃ texts, List.Forall₂ (Column.IsColumn q) (Column.allLeaves inner) texts ∧
      text = ",".intercalate ((q.columnReference key).text :: texts)
  | .columns items, text =>
    ∃ texts, List.Forall₂ (Column.IsColumn q) (Column.allLeaves items) texts ∧
      text = ",".intercalate texts

variable {q : Quoter} {d d' : Draft} {ts : Tokens} {inJoin : Bool}

/-- A piece is expanded as it should. -/
theorem Fragment.Piece.isExpanded {piece : Piece} (h : piece.expand q = .ok ts) :
    piece.IsExpanded q (render ts) := by
  cases piece with
  | text chars =>
    obtain rfl := Except.ok.inj h
    simp [IsExpanded, Sql.render_cons, Token.text]
  | quoted chars =>
    obtain rfl := Except.ok.inj h
    simp [IsExpanded, Sql.render_cons, Token.text]
  | marker lead keyword name =>
    cases keyword with
    | some keyword =>
      obtain ⟨table, htable, rfl⟩ := exists_of_map_ok h
      obtain ⟨rfl, -⟩ := Quoter.table_ok htable
      rw [IsExpanded, Sql.render_cons]
      rfl
    | none =>
      obtain ⟨column, hcolumn, rfl⟩ := exists_of_map_ok h
      obtain ⟨rfl, -⟩ := Quoter.column_ok hcolumn
      rw [IsExpanded, Sql.render_cons]
      rfl

/-- Pieces are expanded one after the other. -/
theorem Fragment.exists_pieces {pieces : List Piece} (h : expandPieces q pieces = .ok ts) :
    ∃ texts, List.Forall₂ (Piece.IsExpanded q) pieces texts ∧ render ts = String.join texts := by
  induction pieces generalizing ts with
  | nil =>
    obtain rfl := Except.ok.inj h
    exact ⟨[], .nil, rfl⟩
  | cons piece pieces ih =>
    rw [expandPieces] at h
    split at h
    · cases h
    · next tokens htokens =>
      obtain ⟨others, hothers, rfl⟩ := exists_of_map_ok h
      obtain ⟨texts, htexts, hrender⟩ := ih hothers
      refine ⟨render tokens :: texts, .cons (Piece.isExpanded htokens) htexts, ?_⟩
      rw [Sql.render_append, hrender, String.join_cons]

/-- A name is written with its alias. -/
theorem render_withAlias {column : Tokens} {aliasName : Option String}
    (h : (withAlias column aliasName).exec q d = (.ok ts, d')) :
    render ts = render column ++ Reference.namingText (aliasName.map q.columnReference) := by
  cases aliasName with
  | none =>
    obtain ⟨rfl, -⟩ := Build.exec_pure_ok.1 h
    exact (String.append_empty).symm
  | some aliasName =>
    simp only [withAlias, Build.exec_bind_ok, Build.exec_column_ok, Build.exec_pure_ok] at h
    obtain ⟨quoted, _, ⟨hquoted, -⟩, rfl, -⟩ := h
    obtain ⟨rfl, -⟩ := Quoter.column_ok hquoted
    rw [Sql.render_append, Sql.render_cons]
    rfl

/-- A name is written as it should. -/
theorem Column.isColumn_name {written : String}
    (h : (compileName inJoin written).exec q d = (.ok ts, d')) :
    IsColumn q (.name written) (render ts) := by
  -- The cases are those in which the compiler goes different ways: everything, a table, a column.
  simp only [compileName] at h
  simp only [IsColumn]
  split at h
  · exact (Build.exec_throw_ok.1 h).elim
  by_cases hall : Text.trim written.toList = ['*']
  · rw [if_pos hall] at h ⊢
    obtain ⟨rfl, -⟩ := Build.exec_pure_ok.1 h
    rfl
  rw [if_neg hall] at h ⊢
  cases hsuffix : Text.dropSuffix? ['.', '*'] (Text.trim written.toList) with
  | some table =>
    simp only [hsuffix, Build.exec_bind_ok, Build.exec_table_ok, Build.exec_pure_ok] at h
    obtain ⟨quoted, _, ⟨hquoted, -⟩, rfl, -⟩ := h
    obtain ⟨rfl, -⟩ := Quoter.table_ok hquoted
    exact Sql.render_append _ _
  | none =>
    simp only [hsuffix, Build.exec_bind_ok, Build.exec_ofExcept_ok, Build.exec_column_ok] at h
    obtain ⟨parsed, _, ⟨hparsed, -⟩, column, _, ⟨hcolumn, -⟩, h⟩ := h
    obtain ⟨rfl, -⟩ := Quoter.column_ok hcolumn
    exact ⟨parsed, hparsed, render_withAlias h⟩

/-- A name or a fragment is written as it should. -/
theorem Column.isColumn {c : Column} (hleaf : c.IsLeaf)
    (h : (c.compile inJoin).exec q d = (.ok ts, d')) : c.IsColumn q (render ts) := by
  cases c with
  | name written =>
    rw [compile] at h
    exact isColumn_name h
  | expression aliasName fragment =>
    simp only [compile, Build.exec_bind_ok, Build.exec_ofExcept_ok, Build.exec_expand_ok] at h
    obtain ⟨parsed, _, ⟨hparsed, -⟩, expanded, _, ⟨hexpanded, -⟩, h⟩ := h
    obtain ⟨pieces, hpieces, htext⟩ := Fragment.exists_pieces hexpanded
    refine ⟨parsed, pieces, hparsed, hpieces, ?_⟩
    rw [render_withAlias h, htext]
    rfl
  | group key columns => exact hleaf.elim

/-- Names and fragments are written with commas between them. -/
theorem Column.exists_parts {cs : List Column} (hleaf : ∀ c ∈ cs, c.IsLeaf)
    (h : (compileJoined inJoin cs).exec q d = (.ok ts, d')) :
    ∃ parts, ts = Sql.joinFilled .comma parts ∧ (∀ part ∈ parts, part ≠ []) ∧
      List.Forall₂ (fun c part => IsColumn q c (render part)) cs parts := by
  rw [compileJoined, compileEach_eq_mapM] at h
  simp only [Build.exec_bind_ok, Build.exec_pure_ok] at h
  obtain ⟨parts, d₁, hparts, rfl, -⟩ := h
  refine ⟨parts, rfl, ?_, Build.forall₂_of_exec_mapM (fun c hc => isColumn (hleaf c hc)) hparts⟩
  intro part hpart
  obtain ⟨c, hc, _, _, hexec⟩ := Build.exists_of_mem_mapM hparts hpart
  exact ne_nil_of_isLeaf (hleaf c hc) hexec

/-- The text of parts with commas between them. -/
theorem Sql.render_joinFilled {parts : List Tokens} (hfilled : ∀ part ∈ parts, part ≠ []) :
    render (joinFilled .comma parts) = ",".intercalate (parts.map render) := by
  rw [joinFilled_of_filled hfilled, render_joinWith]
  rfl

/-- The columns of a query are written as its names and fragments. -/
theorem Projection.isColumns {p : Projection} (h : (p.compile inJoin).exec q d = (.ok ts, d')) :
    p.IsColumns q (render ts) := by
  cases p with
  | all =>
    obtain ⟨rfl, -⟩ := Build.exec_pure_ok.1 h
    rfl
  | columns items =>
    rw [compile] at h
    unfold IsColumns
    split
    · next hall => cases hall
    · next key inner hitems =>
      obtain rfl := Projection.columns.inj hitems
      rw [Column.compileList_keyed] at h
      simp only [Build.exec_bind_ok, Build.exec_column_ok, Build.exec_pure_ok] at h
      obtain ⟨quoted, _, ⟨hquoted, -⟩, columns, _, hcolumns, rfl, -⟩ := h
      obtain ⟨rfl, -⟩ := Quoter.column_ok hquoted
      obtain ⟨parts, rfl, hfilled, heach⟩ :=
        Column.exists_parts (Column.isLeaf_of_mem_allLeaves inner) hcolumns
      refine ⟨parts.map render, List.forall₂_map_right_iff.2 heach, ?_⟩
      -- The key is one more part in front of the others.
      have hkey := Sql.joinFilled_append .comma [(q.columnReference key).tokens] parts
      rw [Sql.joinFilled_singleton] at hkey
      rw [← hkey, Sql.render_joinFilled]
      · rfl
      · exact List.forall_mem_cons.2 ⟨Reference.tokens_ne_nil _, hfilled⟩
    · next columns hlone hitems =>
      obtain rfl := Projection.columns.inj hitems
      rw [Column.compileList_eq inJoin hlone] at h
      obtain ⟨parts, rfl, hfilled, heach⟩ :=
        Column.exists_parts (Column.isLeaf_of_mem_allLeaves items) h
      exact ⟨parts.map render, List.forall₂_map_right_iff.2 heach, Sql.render_joinFilled hfilled⟩

end BoundSql
