import BoundSql.Projection.Compile
import BoundSql.Proofs.Building.Alike
import BoundSql.Proofs.Sql.Quoted

/-!
# Groups of columns are flattened

A group of columns is nothing but a way to write its columns. What a list of columns compiles to,
what it binds and how it fails are those of the names and fragments in it, read from left to right;
empty groups leave no trace. Only the key of a group that stands alone is more than that.

* `Column.leaves`: the names and fragments of a column;
* `Column.compileJoined_allLeaves`: columns compile like their names and fragments;
* `Column.compileList_eq` and `Column.compileList_keyed`: what that means for a whole list;
* `Projection.compile_columns`: the same for projections, as equations between their compilers.
-/

namespace BoundSql

open Sql (Token Tokens Word)

namespace Sql

variable {w : Word} {parts others : List Tokens}

/-- The parts in which something stands, with a word between each two. -/
def joinFilled (w : Word) (parts : List Tokens) : Tokens :=
  joinWith w (parts.filter fun part => !part.isEmpty)

/-- A word stands behind the first part if there are more. -/
theorem joinWith_cons (part : Tokens) (hne : parts ≠ []) :
    joinWith w (part :: parts) = part ++ Token.word w :: joinWith w parts := by
  cases parts with
  | nil => exact absurd rfl hne
  | cons => rfl

/-- Parts that are joined behind others. -/
theorem joinWith_append (hne : parts ≠ []) (hothers : others ≠ []) :
    joinWith w (parts ++ others) = joinWith w parts ++ Token.word w :: joinWith w others := by
  induction parts with
  | nil => exact absurd rfl hne
  | cons part parts ih =>
    rw [List.cons_append]
    by_cases hlast : parts = []
    · subst hlast
      exact joinWith_cons part hothers
    · rw [joinWith_cons part hlast, joinWith_cons part (by simp [hlast]), ih hlast,
        List.append_assoc, List.cons_append]

/-- Joined parts in which something stands are nothing only if there is none. -/
theorem joinWith_eq_nil_iff (hfilled : ∀ part ∈ parts, part ≠ []) :
    joinWith w parts = [] ↔ parts = [] := by
  constructor
  · intro hnil
    match parts with
    | [] => rfl
    | [part] => exact absurd hnil (hfilled part (by simp))
    | part :: next :: rest => simp [joinWith] at hnil
  · rintro rfl
    rfl

/-- A part alone is what it is. -/
@[simp]
theorem joinFilled_singleton (part : Tokens) : joinFilled w [part] = part := by
  cases part <;> rfl

/-- Nothing is left out of parts in which something stands. -/
theorem joinFilled_of_filled (hfilled : ∀ part ∈ parts, part ≠ []) :
    joinFilled w parts = joinWith w parts := by
  rw [joinFilled, List.filter_eq_self.2]
  simpa using hfilled

/-- Parts can be joined in two portions. -/
theorem joinFilled_append (w : Word) (parts others : List Tokens) :
    joinFilled w (parts ++ others) = joinFilled w [joinFilled w parts, joinFilled w others] := by
  have hfilled : ∀ parts : List Tokens,
      ∀ part ∈ parts.filter (fun part => !part.isEmpty), part ≠ [] := by
    intro parts part hpart hnil
    simp [hnil] at hpart
  simp only [joinFilled, List.filter_append, List.filter_cons, List.filter_nil]
  have hleft := joinWith_eq_nil_iff (w := w) (hfilled parts)
  have hright := joinWith_eq_nil_iff (w := w) (hfilled others)
  generalize parts.filter (fun part => !part.isEmpty) = left at hleft ⊢
  generalize others.filter (fun part => !part.isEmpty) = right at hright ⊢
  -- A portion of which nothing is left is passed over.
  by_cases hl : left = [] <;> by_cases hr : right = []
  · simp [hl, hr, joinWith]
  · simp [hl, hr, hright, joinWith]
  · simp [hl, hr, hleft, joinWith]
  · simp [hl, hr, hleft, hright, joinWith, joinWith_append hl hr]

/-- A reference is written with one token at least. -/
theorem Reference.tokens_ne_nil (r : Reference) : r.tokens ≠ [] := by
  rcases r with ⟨_ | _, _⟩ <;> exact List.cons_ne_nil _ _

end Sql

/-- What follows a part matters only for what the part can come to. -/
theorem Build.bind_congr {α β : Type} {part : Build α} {next next' : α → Build β}
    (h : ∀ {q d a d'}, part.exec q d = (.ok a, d') → next a = next' a) :
    part >>= next = part >>= next' := by
  funext q d
  change (part >>= next).exec q d = (part >>= next').exec q d
  rw [Build.exec_bind, Build.exec_bind]
  rcases hpart : part.exec q d with ⟨e | a, d₁⟩
  · rfl
  · simp only [h hpart]

namespace Column

mutual

/-- The names and fragments of a column, from left to right. -/
def leaves : Column → List Column
  | .group _ columns => allLeaves columns
  | column => [column]

/-- The names and fragments of columns, from left to right. -/
def allLeaves : List Column → List Column
  | [] => []
  | column :: rest => column.leaves ++ allLeaves rest

end

/-- Whether a column is a name or a fragment. -/
def IsLeaf : Column → Prop
  | .group _ _ => False
  | _ => True

mutual

/-- What a column is made of are names and fragments. -/
theorem isLeaf_of_mem_leaves : ∀ (c : Column), ∀ leaf ∈ c.leaves, leaf.IsLeaf
  | .name _, leaf, h => by
    obtain rfl := List.mem_singleton.1 h
    trivial
  | .expression _ _, leaf, h => by
    obtain rfl := List.mem_singleton.1 h
    trivial
  | .group _ columns, leaf, h => isLeaf_of_mem_allLeaves columns leaf h

/-- What columns are made of are names and fragments. -/
theorem isLeaf_of_mem_allLeaves : ∀ (cs : List Column), ∀ leaf ∈ allLeaves cs, leaf.IsLeaf
  | [], leaf, h => nomatch h
  | c :: rest, leaf, h => by
    rcases List.mem_append.1 h with h | h
    · exact isLeaf_of_mem_leaves c leaf h
    · exact isLeaf_of_mem_allLeaves rest leaf h

end

/-- The tokens of columns, with commas between them, where something stands. -/
def compileJoined (inJoin : Bool) (cs : List Column) : Build Tokens := do
  return Sql.joinFilled .comma (← compileEach inJoin cs)

/-- Columns compile in two portions. -/
theorem compileEach_append (inJoin : Bool) (cs others : List Column) :
    compileEach inJoin (cs ++ others) = do
      let first ← compileEach inJoin cs
      let second ← compileEach inJoin others
      return first ++ second := by
  induction cs with
  | nil => simp [compileEach]
  | cons c cs ih => simp [compileEach, ih]

/-- Columns are joined in two portions. -/
theorem compileJoined_append (inJoin : Bool) (cs others : List Column) :
    compileJoined inJoin (cs ++ others) = do
      let first ← compileJoined inJoin cs
      let second ← compileJoined inJoin others
      return Sql.joinFilled .comma [first, second] := by
  simp [compileJoined, compileEach_append, Sql.joinFilled_append]

/-- A column alone. -/
theorem compileJoined_singleton (inJoin : Bool) (c : Column) :
    compileJoined inJoin [c] = c.compile inJoin := by
  simp [compileJoined, compileEach]

/-- A group compiles to its columns. -/
theorem compile_group (inJoin : Bool) (key : Option String) (cs : List Column) :
    compile inJoin (.group key cs) = compileJoined inJoin cs := by
  rw [compile]
  rfl

mutual

/-- A column compiles like its names and fragments. -/
theorem compileJoined_leaves (inJoin : Bool) : ∀ c : Column,
    compileJoined inJoin c.leaves = c.compile inJoin
  | .name written => compileJoined_singleton inJoin (.name written)
  | .expression aliasName fragment => compileJoined_singleton inJoin (.expression aliasName fragment)
  | .group key columns => by
    rw [leaves, compileJoined_allLeaves inJoin columns, compile_group]

/-- Columns compile like their names and fragments. -/
theorem compileJoined_allLeaves (inJoin : Bool) : ∀ cs : List Column,
    compileJoined inJoin (allLeaves cs) = compileJoined inJoin cs
  | [] => rfl
  | c :: rest => by
    have hcons : compileJoined inJoin (c :: rest) = compileJoined inJoin ([c] ++ rest) := rfl
    rw [allLeaves, compileJoined_append, compileJoined_leaves inJoin c,
      compileJoined_allLeaves inJoin rest, hcons, compileJoined_append, compileJoined_singleton]

end

/-- What has been taken apart into names and fragments stays as it is. -/
theorem allLeaves_of_isLeaf {cs : List Column} (h : ∀ c ∈ cs, c.IsLeaf) : allLeaves cs = cs := by
  induction cs with
  | nil => rfl
  | cons c cs ih =>
    obtain ⟨hc, hcs⟩ := List.forall_mem_cons.1 h
    have hleaf : c.leaves = [c] := by
      cases c with
      | name written => rfl
      | expression aliasName fragment => rfl
      | group key columns => exact hc.elim
    rw [allLeaves, hleaf, ih hcs, List.singleton_append]

/-- A name or a fragment that compiles leaves something in the statement. -/
theorem ne_nil_of_isLeaf {inJoin : Bool} {c : Column} {q : Sql.Quoter} {d d' : Draft} {ts : Tokens}
    (hleaf : c.IsLeaf) (h : (c.compile inJoin).exec q d = (.ok ts, d')) : ts ≠ [] := by
  -- An alias only adds to what stands before it.
  have halias : ∀ {column : Tokens} {aliasName : Option String} {d₁ : Draft},
      column ≠ [] ∨ aliasName.isSome →
        (withAlias column aliasName).exec q d₁ = (.ok ts, d') → ts ≠ [] := by
    rintro column (_ | aliasName) d₁ hne hexec
    · obtain ⟨rfl, -⟩ := Build.exec_pure_ok.1 hexec
      simpa using hne
    · simp only [withAlias, Build.exec_bind_ok, Build.exec_pure_ok] at hexec
      obtain ⟨quoted, d₂, -, rfl, -⟩ := hexec
      simp
  cases c with
  | name written =>
    rw [compile] at h
    simp only [compileName] at h
    split at h
    · exact (Build.exec_throw_ok.1 h).elim
    split at h
    · obtain ⟨rfl, -⟩ := Build.exec_pure_ok.1 h
      exact List.cons_ne_nil _ _
    split at h
    · simp only [Build.exec_bind_ok, Build.exec_pure_ok] at h
      obtain ⟨table, d₁, -, rfl, -⟩ := h
      simp
    · simp only [Build.exec_bind_ok, Build.exec_column_ok] at h
      obtain ⟨parsed, d₁, -, column, d₂, ⟨hcolumn, rfl⟩, h⟩ := h
      obtain ⟨rfl, -⟩ := Sql.Quoter.column_ok hcolumn
      exact halias (.inl (Sql.Reference.tokens_ne_nil _)) h
  | expression aliasName fragment =>
    simp only [compile, Build.exec_bind_ok] at h
    obtain ⟨parsed, d₁, -, expanded, d₂, -, h⟩ := h
    exact halias (.inr rfl) h
  | group key columns => exact hleaf.elim

/-- Columns are compiled one after the other. -/
theorem compileEach_eq_mapM (inJoin : Bool) (cs : List Column) :
    compileEach inJoin cs = cs.mapM (compile inJoin) := by
  induction cs with
  | nil => rfl
  | cons c cs ih => simp [compileEach, ih]

/-- Names and fragments are joined as they are: none of them is left out. -/
theorem compileJoined_of_isLeaf (inJoin : Bool) {cs : List Column} (h : ∀ c ∈ cs, c.IsLeaf) :
    compileJoined inJoin cs = do return Sql.joinWith .comma (← cs.mapM (compile inJoin)) := by
  rw [compileJoined, compileEach_eq_mapM]
  refine Build.bind_congr fun {q d parts d'} hparts => ?_
  rw [Sql.joinFilled_of_filled]
  intro part hpart
  obtain ⟨c, hc, _, _, hexec⟩ := Build.exists_of_mem_mapM hparts hpart
  exact ne_nil_of_isLeaf (h c hc) hexec

/-- A list of columns compiles to its names and fragments, unless it is a single group with a
key. -/
theorem compileList_eq {cs : List Column} (inJoin : Bool)
    (h : ∀ key columns, cs ≠ [.group (some key) columns]) :
    compileList inJoin cs = compileJoined inJoin (allLeaves cs) := by
  rw [compileJoined_allLeaves, compileList.eq_def]
  split
  · next key columns => exact absurd rfl (h key columns)
  · rfl

/-- A single group with a key compiles to the key and its names and fragments. -/
theorem compileList_keyed (inJoin : Bool) (key : String) (cs : List Column) :
    compileList inJoin [.group (some key) cs] = do
      let key ← Build.column key
      let columns ← compileJoined inJoin (allLeaves cs)
      return Sql.joinFilled .comma [key, columns] := by
  rw [compileJoined_allLeaves, ← compile_group inJoin none, compileList.eq_def]
  simp only [pure_bind]
  rfl

/-- Names and fragments are compiled as a list like one after the other. -/
theorem compileList_of_isLeaf (inJoin : Bool) {cs : List Column} (h : ∀ c ∈ cs, c.IsLeaf) :
    compileList inJoin cs = compileJoined inJoin cs := by
  rw [compileList_eq inJoin ?lone, allLeaves_of_isLeaf h]
  case lone =>
    rintro key columns rfl
    exact h (.group (some key) columns) (by simp)

end Column

/-- Groups of columns only flatten: whatever the quoter, the draft and the joins are, columns come
to the same, bind the same and fail in the same way, with the same values bound before, as the names
and fragments in them from left to right; and these are joined with commas, each of them, so that
empty groups leave no trace. A single group with a key stands for the key and then its columns, if
there are any. -/
theorem Projection.compile_columns (inJoin : Bool) (cs : List Column) :
    (compile inJoin (.columns cs) =
      match cs with
      | [.group (some key) inner] => do
        let key ← Build.column key
        let columns ← compile inJoin (.columns (Column.allLeaves inner))
        return if columns = [] then key else key ++ Token.word .comma :: columns
      | cs => compile inJoin (.columns (Column.allLeaves cs))) ∧
    compile inJoin (.columns (Column.allLeaves cs)) = do
      return Sql.joinWith .comma (← (Column.allLeaves cs).mapM (Column.compile inJoin)) := by
  have hleaves : ∀ cs, compile inJoin (.columns (Column.allLeaves cs)) =
      Column.compileJoined inJoin (Column.allLeaves cs) := fun cs =>
    Column.compileList_of_isLeaf inJoin (Column.isLeaf_of_mem_allLeaves cs)
  refine ⟨?flat, ?joined⟩
  case joined =>
    rw [hleaves, Column.compileJoined_of_isLeaf inJoin (Column.isLeaf_of_mem_allLeaves cs)]
  case flat =>
    split
    · next key inner =>
      rw [compile, Column.compileList_keyed]
      refine Build.bind_congr fun {q d quoted d'} hkey => ?_
      rw [hleaves]
      refine Build.bind_congr fun {_ _ columns _} _ => ?_
      -- The key is a name, so that only the columns can be missing behind it.
      obtain ⟨rfl, -⟩ := Sql.Quoter.column_ok (Build.exec_column_ok.1 hkey).1
      have hne := Sql.Reference.tokens_ne_nil (q.columnReference key)
      by_cases hnil : columns = []
      · simp [hnil, hne, Sql.joinFilled, Sql.joinWith]
      · simp [hnil, hne, Sql.joinFilled, Sql.joinWith]
    · next hlone =>
      rw [compile, Column.compileList_eq inJoin fun key columns h => hlone key columns h, ← hleaves]

end BoundSql
