import BoundSql.Proofs.Building.Success
import BoundSql.Proofs.Sql.Grammar
import BoundSql.Proofs.Sql.ReadBack

/-!
# The names that a text refers to

A database that reads a text finds in it names, which may be qualified by the names of tables. The
reader goes through the lexemes from left to right and takes every name with the point and the name
behind it, if there are any. What it finds in sound tokens can be told from the tokens, part by
part, as long as no part begins with a point.

* `references`: the names in lexemes, each with its qualification;
* `Refers`: that tokens refer to certain names, whatever follows them;
* `Refers.references_lex_render`: that these are the names in the text of the tokens;
* `Quoter.introduction`: the text by which a table is introduced, and `Quoter.introduced`, the name
  under which its columns are then referred to.
-/

namespace BoundSql

namespace Sql

/-- The names in lexemes, each with its qualification. -/
def references : List Lexeme → List Reference
  | [] => []
  | lexeme :: rest =>
    match _h : Reference.read? (lexeme :: rest) with
    | some (r, after) => r :: references after
    | none => references rest
  termination_by lexemes => lexemes.length
  decreasing_by
    · exact Reference.length_read?_lt _h
    · exact Nat.lt_succ_self _

/-- Lexemes that do not go on with a name before them. -/
def Undotted (lexemes : List Lexeme) : Prop := lexemes.head? ≠ some (.mark '.')

/-- Tokens that refer to certain names, whatever follows them. -/
structure Refers (ts : Tokens) (rs : List Reference) : Prop where
  /-- The tokens do not go on with a name before them. -/
  undotted : Undotted (ts.flatMap Token.lexemes)
  /-- The names are found before those that follow. -/
  found : ∀ rest, Undotted rest →
    references (ts.flatMap Token.lexemes ++ rest) = rs ++ references rest

variable {a b lexemes rest : List Lexeme} {ts us : Tokens} {rs ss : List Reference} {w : Word}

/-- In nothing there are no names. -/
@[simp]
theorem references_nil : references [] = [] := by
  rw [references]

/-- A name that is read is the first one. -/
theorem references_of_read? {r : Reference} (h : Reference.read? lexemes = some (r, rest)) :
    references lexemes = r :: references rest := by
  cases lexemes with
  | nil => cases h
  | cons lexeme lexemes =>
    rw [references]
    split
    · next found after hfound =>
      obtain ⟨rfl, rfl⟩ := Prod.mk.inj (Option.some.inj (hfound.symm.trans h))
      rfl
    · next hnone => exact absurd (hnone.symm.trans h) (by simp)

/-- Where no name stands, none is found. -/
theorem references_append_of_nameless (h : ∀ x ∈ lexemes, x.name? = none)
    (rest : List Lexeme) : references (lexemes ++ rest) = references rest := by
  induction lexemes with
  | nil => rfl
  | cons lexeme lexemes ih =>
    obtain ⟨hfirst, hothers⟩ := List.forall_mem_cons.1 h
    -- Every reference begins with a name, so that none begins here.
    have hread : Reference.read? (lexeme :: (lexemes ++ rest)) = none := by
      cases lexeme with
      | name content => cases hfirst
      | _ => rfl
    rw [List.cons_append, references]
    split
    · next hfound => exact absurd (hread.symm.trans hfound) (by simp)
    · exact ih hothers

/-- The second of two parts matters only if nothing stands in the first. -/
theorem Undotted.append (ha : Undotted a) (hb : Undotted b) : Undotted (a ++ b) := by
  cases a with
  | nil => exact hb
  | cons => exact ha

/-- No fixed word is a name. -/
theorem Word.nameless (w : Word) : ∀ x ∈ w.lexemes, x.name? = none := by
  cases w with
  | join k => cases k <;> simp [Lexeme.name?]
  | _ => simp [Lexeme.name?]

/-- The only word that goes on with a name is the point. -/
theorem Word.undotted (hw : w ≠ .dot) : Undotted w.lexemes := by
  cases w with
  | dot => exact absurd rfl hw
  | join k => cases k <;> simp [Undotted]
  | _ => simp [Undotted]

namespace Refers

/-- Tokens without names refer to none. -/
theorem of_nameless (hundotted : Undotted (ts.flatMap Token.lexemes))
    (hnameless : ∀ x ∈ ts.flatMap Token.lexemes, x.name? = none) :
    Refers ts [] :=
  ⟨hundotted, fun rest _ => references_append_of_nameless hnameless rest⟩

/-- No tokens refer to no names. -/
theorem nil : Refers [] [] := of_nameless (by simp [Undotted]) (by simp)

/-- A reference refers to its name. -/
theorem reference (r : Reference) : Refers r.tokens [r] := by
  refine ⟨?_, fun rest hrest => ?_⟩
  · rcases r with ⟨_ | _, _⟩ <;> simp [Undotted, Reference.tokens]
  · exact references_of_read? (r.read?_tokens hrest)

/-- A parameter refers to no name. -/
theorem parameter (label : String) : Refers [.parameter label] [] :=
  of_nameless (by simp [Undotted]) (by simp [Lexeme.name?])

/-- A word refers to no name. -/
theorem word (hw : w ≠ .dot) : Refers [.word w] [] := by
  have hlexemes : [Token.word w].flatMap Token.lexemes = w.lexemes := List.flatMap_singleton ..
  refine of_nameless ?_ ?_
  · rw [hlexemes]
    exact Word.undotted hw
  · rw [hlexemes]
    exact w.nameless

/-- Two parts refer to the names of both. -/
theorem append (ha : Refers ts rs) (hb : Refers us ss) : Refers (ts ++ us) (rs ++ ss) := by
  refine ⟨?_, fun rest hrest => ?_⟩
  · rw [List.flatMap_append]
    exact ha.undotted.append hb.undotted
  · -- The second part stands between the first and the rest; without lexemes it is passed over.
    rw [List.flatMap_append, List.append_assoc, ha.found _ (hb.undotted.append hrest),
      hb.found rest hrest, List.append_assoc]

/-- A word before a part. -/
theorem cons (hw : w ≠ .dot) (h : Refers ts rs) : Refers (.word w :: ts) rs :=
  (word hw).append h

/-- A word behind a part. -/
theorem concat (hw : w ≠ .dot) (h : Refers ts rs) : Refers (ts ++ [.word w]) rs := by
  simpa using h.append (word hw)

/-- A word between two parts. -/
theorem infixed (hw : w ≠ .dot) (ha : Refers ts rs) (hb : Refers us ss) :
    Refers (ts ++ .word w :: us) (rs ++ ss) :=
  ha.append (hb.cons hw)

/-- Parts with a word between each two of them refer to the names of all of them. -/
theorem joinWith {α : Type} {items : List α} {parts : List Tokens} {g : α → List Reference}
    (hw : w ≠ .dot) (h : List.Forall₂ (fun a part => Refers part (g a)) items parts) :
    Refers (joinWith w parts) (items.flatMap g) := by
  induction h with
  | nil => exact nil
  | @cons a part items parts hpart hparts ih =>
    rw [List.flatMap_cons]
    cases parts with
    | nil =>
      cases hparts
      rw [List.flatMap_nil, List.append_nil]
      exact hpart
    | cons next parts => exact hpart.infixed hw ih

/-- A list of parameters refers to no name. -/
theorem parameters (hw : w ≠ .dot) (labels : List String) :
    Refers (Sql.joinWith w ((labels.map Token.parameter).map fun p => [p])) [] := by
  have heach : List.Forall₂ (fun _ part => Refers part []) labels
      ((labels.map Token.parameter).map fun p => [p]) := by
    rw [List.map_map]
    exact List.forall₂_map_right_iff.2 (List.forall₂_same.2 fun label _ => parameter label)
  have hall := joinWith hw heach
  rwa [List.flatMap_eq_nil_iff.2 fun _ _ => rfl] at hall

/-- A column refers to what it is the reference for. -/
theorem column {q : Quoter} {d d' : Draft} {name : String}
    (h : (Build.column name).exec q d = (.ok ts, d')) : Refers ts [q.columnReference name] := by
  obtain ⟨rfl, -⟩ := Quoter.column_ok (Build.exec_column_ok.1 h).1
  exact reference _

/-- The names to which sound tokens refer are those in their text. -/
theorem references_lex_render (h : Refers ts rs) (hsound : Sound ts) :
    references (lex (render ts).toList) = rs := by
  have hfound := h.found [] (by simp [Undotted])
  rwa [List.append_nil, references_nil, List.append_nil, ← lex_render hsound] at hfound

end Refers

/-! ### Tables as they are introduced -/

/-- The text of a reference. -/
def Reference.text (r : Reference) : String := render r.tokens

/-- The text that introduces an alias, if there is one. -/
def Reference.namingText : Option Reference → String
  | none => ""
  | some r => " AS " ++ r.text

/-- The text by which a table is introduced, under an alias if it has one. -/
def Quoter.introduction (q : Quoter) (table : String) (aliasName : Option String) : String :=
  (q.tableReference table).text ++ Reference.namingText (aliasName.map q.tableReference)

/-- The name under which the columns of a table are referred to: the alias if it has one, else the
name of the table. -/
def Quoter.introduced (q : Quoter) (table : String) (aliasName : Option String) : String :=
  (q.tableReference (aliasName.getD table)).name

/-- A table is introduced with its alias. -/
theorem Quoter.render_introduction {q : Quoter} {table : String} {aliasName : Option String}
    (hts : q.table table = .ok ts) (hus : q.table (aliasName.getD table) = .ok us) :
    render (ts ++ naming aliasName us) = q.introduction table aliasName := by
  obtain ⟨rfl, -⟩ := Quoter.table_ok hts
  obtain ⟨rfl, -⟩ := Quoter.table_ok hus
  rw [render_append, introduction]
  cases aliasName with
  | none => rfl
  | some aliasName =>
    rw [naming, render_cons]
    rfl

end Sql

end BoundSql
