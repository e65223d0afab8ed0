import BoundSql.Projection.Compile
import BoundSql.Proofs.Building.Emission

/-!
# What a projection emits

A projection binds the parameters of its fragments in the order in which they are read, those in
groups included. It makes no names for values.
-/

namespace BoundSql

open Sql (Led Quoter Sound Token Tokens Word)

mutual

/-- What a column binds: the parameters of its fragments. -/
def Column.bindables : Column → List Bindable
  | .name _ => []
  | .expression _ fragment => [.fragment fragment]
  | .group _ columns => Column.allBindables columns

/-- What columns bind, one column after the other. -/
def Column.allBindables : List Column → List Bindable
  | [] => []
  | column :: rest => column.bindables ++ Column.allBindables rest

end

/-- What a projection binds. -/
def Projection.bindables : Projection → List Bindable
  | .all => []
  | .columns items => Column.allBindables items

variable {q : Quoter} {d d' : Draft} {ts : Tokens}

/-- A piece of a template has no parameters among its tokens. -/
theorem Fragment.filterMap_label?_expand {piece : Piece} (h : piece.expand q = .ok ts) :
    ts.filterMap Token.label? = [] := by
  cases piece with
  | text chars =>
    obtain rfl := Except.ok.inj h
    rfl
  | quoted chars =>
    obtain rfl := Except.ok.inj h
    rfl
  | marker lead keyword name =>
    cases keyword with
    | some keyword =>
      rw [Piece.expand] at h
      cases hname : q.table (String.ofList name) with
      | error e => simp [hname, Except.map] at h
      | ok tokens =>
        rw [hname] at h
        obtain rfl := Except.ok.inj h
        exact (Sql.Inert.table hname).labels
    | none =>
      rw [Piece.expand] at h
      cases hname : q.column (String.ofList name) with
      | error e => simp [hname, Except.map] at h
      | ok tokens =>
        rw [hname] at h
        obtain rfl := Except.ok.inj h
        exact (Sql.Inert.column hname).labels

/-- The pieces of a template have no parameters among their tokens. -/
theorem Fragment.filterMap_label?_expandPieces {pieces : List Piece}
    (h : expandPieces q pieces = .ok ts) : ts.filterMap Token.label? = [] := by
  induction pieces generalizing ts with
  | nil =>
    obtain rfl := Except.ok.inj h
    rfl
  | cons piece pieces ih =>
    rw [expandPieces] at h
    split at h
    · cases h
    · next tokens hpiece =>
      cases hrest : expandPieces q pieces with
      | error e => simp [hrest, Except.map] at h
      | ok others =>
        rw [hrest] at h
        obtain rfl := Except.ok.inj h
        rw [List.filterMap_append, filterMap_label?_expand hpiece, ih hrest, List.append_nil]

/-- An expanded fragment binds its parameters. -/
theorem Emits.expand {f : Fragment} (h : (Build.expand f).exec q d = (.ok ts, d')) :
    Emits q d [.fragment f] ts d' := by
  obtain ⟨hexpand, rfl⟩ := Build.exec_expand_ok.1 h
  refine ⟨rfl, Fragment.filterMap_label?_expandPieces hexpand, fun _ hvalues => ?_⟩
  -- Nothing is said of the text of a fragment.
  exact absurd (hvalues (.fragment f) (by simp)) (by simp [Bindable.value?])

/-- An alias binds nothing. -/
theorem emits_withAlias {column : Tokens} {aliasName : Option String} {bs : List Bindable}
    {d₁ : Draft} (hcolumn : Emits q d bs column d₁)
    (h : (withAlias column aliasName).exec q d₁ = (.ok ts, d')) : Emits q d bs ts d' := by
  cases aliasName with
  | none =>
    obtain ⟨rfl, rfl⟩ := Build.exec_pure_ok.1 h
    exact hcolumn
  | some aliasName =>
    simp only [withAlias, Build.exec_bind_ok, Build.exec_pure_ok] at h
    obtain ⟨quoted, d₂, hquoted, rfl, rfl⟩ := h
    have halias := (Emits.column hquoted).cons (w := .asAlias) (by decide)
    have hall := hcolumn.append halias fun _ => Sql.led_cons.2 (by decide)
    rwa [List.append_nil] at hall

/-- A column by name binds nothing. -/
theorem Column.emits_name {inJoin : Bool} {name : String}
    (h : (Column.compileName inJoin name).exec q d = (.ok ts, d')) : Emits q d [] ts d' := by
  simp only [Column.compileName] at h
  split at h
  · exact (Build.exec_throw_ok.1 h).elim
  split at h
  · obtain ⟨rfl, rfl⟩ := Build.exec_pure_ok.1 h
    exact .word .wildcard d
  split at h
  · simp only [Build.exec_bind_ok, Build.exec_pure_ok] at h
    obtain ⟨table, d₁, htable, rfl, rfl⟩ := h
    have hall := (Emits.word (q := q) .wildcard d₁).cons (w := .dot) (by decide)
    exact (Emits.table htable).append hall fun _ => Sql.led_cons.2 (by decide)
  · simp only [Build.exec_bind_ok, Build.exec_ofExcept_ok] at h
    obtain ⟨parsed, _, ⟨-, rfl⟩, column, d₁, hcolumn, h⟩ := h
    exact emits_withAlias (.column hcolumn) h

mutual

/-- A column binds the parameters of its fragments. -/
theorem Column.emits (inJoin : Bool) : ∀ (c : Column) {d d' : Draft} {ts : Tokens},
    (c.compile inJoin).exec q d = (.ok ts, d') → Emits q d c.bindables ts d'
  | .name written, d, d', ts, h => by
    rw [Column.compile] at h
    exact Column.emits_name h
  | .expression aliasName fragment, d, d', ts, h => by
    simp only [Column.compile, Build.exec_bind_ok, Build.exec_ofExcept_ok] at h
    obtain ⟨parsed, _, ⟨-, rfl⟩, expanded, d₁, hexpanded, h⟩ := h
    exact emits_withAlias (.expand hexpanded) h
  | .group key columns, d, d', ts, h => by
    simp only [Column.compile, Build.exec_bind_ok, Build.exec_pure_ok] at h
    obtain ⟨parts, d₁, hparts, rfl, rfl⟩ := h
    have heach := Column.emitsEach inJoin columns hparts
    exact heach.joinWith_filter (by decide) (by decide) (by simp)

/-- Columns bind the parameters of their fragments, one column after the other. -/
theorem Column.emitsEach (inJoin : Bool) : ∀ (cs : List Column) {d d' : Draft}
    {parts : List Tokens}, (Column.compileEach inJoin cs).exec q d = (.ok parts, d') →
      EmitsEach q d (Column.allBindables cs) parts d'
  | [], d, d', parts, h => by
    rw [Column.compileEach, Build.exec_pure_ok] at h
    obtain ⟨rfl, rfl⟩ := h
    exact .nil d
  | c :: rest, d, d', parts, h => by
    simp only [Column.compileEach, Build.exec_bind_ok, Build.exec_pure_ok] at h
    obtain ⟨first, d₁, hfirst, others, d₂, hothers, rfl, rfl⟩ := h
    exact .cons (c.emits inJoin hfirst) (Column.emitsEach inJoin rest hothers)

end

/-- A projection binds the parameters of its fragments. -/
theorem Projection.emits {inJoin : Bool} {p : Projection}
    (h : (p.compile inJoin).exec q d = (.ok ts, d')) : Emits q d p.bindables ts d' := by
  cases p with
  | all =>
    obtain ⟨rfl, rfl⟩ := Build.exec_pure_ok.1 h
    exact .word .wildcard d
  | columns items =>
    rw [Projection.compile] at h
    unfold Column.compileList at h
    split at h
    · next key inner =>
      simp only [Build.exec_bind_ok, Build.exec_pure_ok] at h
      obtain ⟨name, d₁, hname, columns, d₂, hcolumns, _, _, ⟨rfl, rfl⟩, rfl, rfl⟩ := h
      have hcolumns := Column.emits inJoin (.group none inner) hcolumns
      have heach := EmitsEach.cons (.column hname) (.cons hcolumns (.nil d₂))
      exact heach.joinWith_filter (by decide) (by decide) (by simp)
    · simp only [Build.exec_bind_ok, Build.exec_pure_ok] at h
      obtain ⟨parts, d₁, hparts, rfl, rfl⟩ := h
      have heach := Column.emitsEach inJoin items hparts
      exact heach.joinWith_filter (by decide) (by decide) (by simp)

end BoundSql
