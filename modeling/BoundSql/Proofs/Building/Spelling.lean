import BoundSql.Proofs.Building.Success
import BoundSql.Proofs.Sql.Quoted
import BoundSql.Proofs.Sql.Vocabulary

/-!
# What building a part spells out

A part of a statement is built from names and numbers of its specification, from fixed words and
from parameters. `Spells q names numbers ts` says which names and which numbers there are among the
tokens, in their order, and that every name is one that the quoter lets through: a checked name, or
one behind the table prefix (`Quoter.Allows`).

Like `Emits`, the relation is kept when parts are put together in the ways in which the compilers do
it. It is about the tokens alone, so that no draft occurs in it.
-/

namespace BoundSql

open Sql (Comparison Connective Quoter Reference Token Tokens Word)

/-- The names of a reference, in the order in which they are written. -/
def Sql.Reference.names (r : Reference) : List String := r.qualifier.toList ++ [r.name]

/-- A name that the quoter lets into a statement: a checked one, perhaps behind the table prefix. -/
def Sql.Quoter.Allows (q : Quoter) (name : String) : Prop :=
  Sql.isName name.toList ∨ ∃ s, Sql.isName s ∧ name = q.tablePrefix ++ String.ofList s

/-- The names and the numbers among the tokens `ts`, in order, where every name is allowed. -/
structure Spells (q : Quoter) (names numbers : List String) (ts : Tokens) : Prop where
  /-- The names among the tokens. -/
  names_eq : ts.filterMap Token.name? = names
  /-- The quoter lets every name through. -/
  allowed : ∀ name ∈ names, q.Allows name
  /-- The numbers among the tokens. -/
  numbers_eq : ts.filterMap Token.number? = numbers

namespace Spells

variable {q : Quoter} {a b m n : List String} {ts us : Tokens} {name : String}

/-- No tokens spell nothing. -/
theorem nil : Spells q [] [] [] := ⟨rfl, by simp, rfl⟩

/-- A fixed word spells nothing. -/
theorem word (w : Word) : Spells q [] [] [.word w] := ⟨rfl, by simp, rfl⟩

/-- A parameter spells nothing. -/
theorem parameter (label : String) : Spells q [] [] [.parameter label] := ⟨rfl, by simp, rfl⟩

/-- A number spells itself. -/
theorem number (digits : String) : Spells q [] [digits] [.number digits] := ⟨rfl, by simp, rfl⟩

/-- One part after another. -/
theorem append (ha : Spells q a m ts) (hb : Spells q b n us) :
    Spells q (a ++ b) (m ++ n) (ts ++ us) := by
  refine ⟨?_, ?_, ?_⟩
  · rw [List.filterMap_append, ha.names_eq, hb.names_eq]
  · intro name hname
    exact (List.mem_append.1 hname).elim (ha.allowed name) (hb.allowed name)
  · rw [List.filterMap_append, ha.numbers_eq, hb.numbers_eq]

/-- A part with a word before it. -/
theorem cons (w : Word) (h : Spells q a m ts) : Spells q a m (.word w :: ts) :=
  (word w).append h

/-- A part with a word behind it. -/
theorem concat (w : Word) (h : Spells q a m ts) : Spells q a m (ts ++ [.word w]) := by
  have hall := h.append (word w)
  rwa [List.append_nil, List.append_nil] at hall

/-- Something in parentheses spells what it spells without them. -/
theorem parenthesized (h : Spells q a m ts) :
    Spells q a m (.word .openParen :: ts ++ [.word .closeParen]) :=
  (h.cons .openParen).concat .closeParen

/-- Both sides of a word, one after the other. -/
theorem infixed (w : Word) (ha : Spells q a [] ts) (hb : Spells q b [] us) :
    Spells q (a ++ b) [] (ts ++ .word w :: us) :=
  ha.append (hb.cons w)

/-- A quoted table name is the name behind the prefix. -/
theorem table (h : q.table name = .ok ts) : Spells q [q.tablePrefix ++ name] [] ts := by
  rw [Quoter.table] at h
  split at h
  · next hname =>
    obtain rfl := Except.ok.inj h
    refine ⟨rfl, ?_, rfl⟩
    rw [List.forall_mem_singleton]
    exact .inr ⟨name.toList, hname, by rw [String.ofList_toList]⟩
  · cases h

/-- A quoted name of a column without qualification is the name. -/
theorem plainColumn (h : q.plainColumn name = .ok ts) : Spells q [name] [] ts := by
  rw [Quoter.plainColumn] at h
  split at h
  · next hname =>
    obtain rfl := Except.ok.inj h
    refine ⟨rfl, ?_, rfl⟩
    rw [List.forall_mem_singleton]
    exact .inl hname
  · cases h

/-- A quoted column name is its qualification behind the prefix and then the name. -/
theorem column (h : q.column name = .ok ts) : Spells q (q.columnReference name).names [] ts := by
  rw [Quoter.column] at h
  rw [Quoter.columnReference]
  -- Only the part before the first point is put behind the prefix.
  cases hsplit : Text.splitAtFirst? '.' name.toList with
  | none =>
    rw [hsplit] at h
    exact plainColumn h
  | some parts =>
    obtain ⟨qualifier, rest⟩ := parts
    simp only [hsplit] at h
    split at h
    · next hnames =>
      rw [Bool.and_eq_true] at hnames
      obtain rfl := Except.ok.inj h
      refine ⟨rfl, ?_, rfl⟩
      have hname : Sql.isName (String.ofList rest).toList := by
        rw [String.toList_ofList]
        exact hnames.2
      rw [Reference.names, Option.toList_some, List.singleton_append, List.forall_mem_cons,
        List.forall_mem_singleton]
      exact ⟨.inr ⟨qualifier, hnames.1, rfl⟩, .inl hname⟩
    · cases h

/-- The introduction of an alias spells the alias, if there is one. -/
theorem naming {α : Type} (aliasName : Option α) (h : Spells q [name] [] ts) :
    Spells q (aliasName.map fun _ => name).toList [] (Sql.naming aliasName ts) := by
  cases aliasName with
  | none => exact nil
  | some _ => exact h.cons .asAlias

end Spells

/-- Parts without numbers, each with the names it spells. -/
inductive SpellsEach (q : Quoter) : List String → List Tokens → Prop where
  /-- There are no parts. -/
  | nil : SpellsEach q [] []
  /-- There is a first part, and others behind it. -/
  | cons {a b : List String} {part : Tokens} {parts : List Tokens} (first : Spells q a [] part)
      (others : SpellsEach q b parts) : SpellsEach q (a ++ b) (part :: parts)

namespace SpellsEach

variable {q : Quoter} {d d' : Draft} {names : List String} {parts : List Tokens}

/-- Parts built over a list, when each of them spells the names of its item. -/
theorem of_mapM {α : Type} {f : α → Build Tokens} {g : α → List String} {items : List α}
    (hf : ∀ a ∈ items, ∀ {d ts d'}, (f a).exec q d = (.ok ts, d') → Spells q (g a) [] ts)
    (h : (items.mapM f).exec q d = (.ok parts, d')) : SpellsEach q (items.flatMap g) parts := by
  induction items generalizing d parts with
  | nil =>
    obtain ⟨rfl, rfl⟩ := Build.exec_mapM_nil_ok.1 h
    exact nil
  | cons a items ih =>
    obtain ⟨part, d₁, hpart, rest, hrest, rfl⟩ := Build.exec_mapM_cons_ok.1 h
    rw [List.flatMap_cons]
    exact cons (hf a (by simp) hpart) (ih (fun b hb => hf b (by simp [hb])) hrest)

/-- Parts that spell nothing over a list. -/
theorem of_mapM_nil {α : Type} {f : α → Build Tokens} {items : List α}
    (hf : ∀ a ∈ items, ∀ {d ts d'}, (f a).exec q d = (.ok ts, d') → Spells q [] [] ts)
    (h : (items.mapM f).exec q d = (.ok parts, d')) : SpellsEach q [] parts := by
  have heach := of_mapM (g := fun _ => []) hf h
  rwa [List.flatMap_eq_nil_iff.2 fun _ _ => rfl] at heach

/-- The parameters of a list of values spell nothing. -/
theorem of_pushValues {values : List Value} {parameters : List Token}
    (h : (values.mapM Build.pushValue).exec q d = (.ok parameters, d')) :
    SpellsEach q [] (parameters.map fun p => [p]) := by
  induction values generalizing d parameters with
  | nil =>
    obtain ⟨rfl, rfl⟩ := Build.exec_mapM_nil_ok.1 h
    exact nil
  | cons v values ih =>
    obtain ⟨parameter, d₁, hparameter, rest, hrest, rfl⟩ := Build.exec_mapM_cons_ok.1 h
    obtain ⟨rfl, rfl⟩ := Build.exec_pushValue_ok.1 hparameter
    exact cons (.parameter _) (ih hrest)

/-- Parts with a word between each two of those that are kept, when only empty ones are not. -/
theorem joinWith_filter {p : Tokens → Bool} (w : Word)
    (hkeep : ∀ part ∈ parts, p part = false → part = []) (h : SpellsEach q names parts) :
    Spells q names [] (Sql.joinWith w (parts.filter p)) := by
  induction h with
  | nil => exact Spells.nil
  | @cons a b part parts first others ih =>
    have hothers := ih fun part hpart => hkeep part (by simp [hpart])
    by_cases hpart : p part
    · rw [List.filter_cons_of_pos hpart]
      cases hrest : parts.filter p with
      | nil =>
        rw [hrest] at hothers
        simpa [Sql.joinWith] using first.append hothers
      | cons next rest =>
        rw [hrest] at hothers
        exact first.infixed w hothers
    · -- A part that is left out is empty, so that it spells no name.
      obtain rfl := hkeep part (by simp) (by simpa using hpart)
      rw [List.filter_cons_of_neg hpart]
      exact first.append hothers

/-- Parts with a word between each two of them. -/
theorem joinWith (w : Word) (h : SpellsEach q names parts) :
    Spells q names [] (Sql.joinWith w parts) := by
  have hall := h.joinWith_filter (p := fun _ => true) w (by simp)
  rwa [List.filter_true] at hall

end SpellsEach

end BoundSql
