import BoundSql.Proofs.Keyed
import BoundSql.Proofs.Sql.Scanning
import BoundSql.Sql.Literal

/-!
# Values in the places of parameters

Tokens are filled when each parameter among them is replaced by the literal of a value, the first by
that of the first value and so on (`Fills`). A statement is shown by scanning its text and looking
up the name of each placeholder that is found. For sound tokens the two agree, whatever the literals
are made of: what has been written for one parameter is not read again when the next one is looked
for.

* `literalSql_render`: the text of sound tokens, shown with the values bound to their parameters, is
  the text of the tokens filled with these values.
-/

namespace BoundSql.Sql

/-- The second tokens are the first with the literals of the values in the places of the parameters,
in order. -/
inductive Fills : List Value → Tokens → Tokens → Prop where
  /-- There is nothing to fill. -/
  | nil : Fills [] [] []
  /-- The first token is a parameter, and the first value stands for it. -/
  | parameter {vs : List Value} {ts us : Tokens} (v : Value) (label : String)
      (rest : Fills vs ts us) :
      Fills (v :: vs) (.parameter label :: ts) (.verbatim (literalValue v.bind) :: us)
  /-- The first token is no parameter and stays. -/
  | keep {vs : List Value} {t : Token} {ts us : Tokens} (h : t.label? = none)
      (rest : Fills vs ts us) : Fills vs (t :: ts) (t :: us)

namespace Fills

variable {vs ws : List Value} {ts us ts' us' : Tokens} {w : Word}

/-- Tokens without parameters stay as they are. -/
theorem of_labels_eq_nil (h : ts.filterMap Token.label? = []) : Fills [] ts ts := by
  induction ts with
  | nil => exact nil
  | cons t ts ih =>
    have hlabels := List.filterMap_eq_nil_iff.1 h
    exact keep (hlabels t (by simp)) (ih (List.filterMap_eq_nil_iff.2 fun t ht =>
      hlabels t (by simp [ht])))

/-- One part after another. -/
theorem append (h : Fills vs ts us) (h' : Fills ws ts' us') :
    Fills (vs ++ ws) (ts ++ ts') (us ++ us') := by
  induction h with
  | nil => exact h'
  | parameter v label _ ih => exact parameter v label ih
  | keep ht _ ih => exact keep ht ih

/-- A part behind tokens without parameters. -/
theorem append_left (ht : ts.filterMap Token.label? = []) (h : Fills vs ts' us') :
    Fills vs (ts ++ ts') (ts ++ us') :=
  (of_labels_eq_nil ht).append h

/-- A part with a word before it. -/
theorem cons (w : Word) (h : Fills vs ts us) : Fills vs (.word w :: ts) (.word w :: us) :=
  keep rfl h

/-- A part with a word behind it. -/
theorem concat (w : Word) (h : Fills vs ts us) :
    Fills vs (ts ++ [.word w]) (us ++ [.word w]) := by
  have hall := h.append (cons w nil)
  rwa [List.append_nil] at hall

/-- There are as many parameters as values. -/
theorem length_labels (h : Fills vs ts us) :
    (ts.filterMap Token.label?).length = vs.length := by
  induction h with
  | nil => rfl
  | parameter v label _ ih => exact congrArg Nat.succ ih
  | keep ht _ ih => rwa [List.filterMap_cons_none ht]

end Fills

/-- Parts that are filled one after the other. -/
inductive FillsEach : List Value → List Tokens → List Tokens → Prop where
  /-- There are no parts. -/
  | nil : FillsEach [] [] []
  /-- There is a first part, and others behind it. -/
  | cons {vs ws : List Value} {part part' : Tokens} {parts parts' : List Tokens}
      (first : Fills vs part part') (others : FillsEach ws parts parts') :
      FillsEach (vs ++ ws) (part :: parts) (part' :: parts')

/-- Parts with a word between each two of them are filled when each part is. -/
theorem FillsEach.joinWith {vs : List Value} {parts parts' : List Tokens} (w : Word)
    (h : FillsEach vs parts parts') : Fills vs (joinWith w parts) (joinWith w parts') := by
  induction h with
  | nil => exact .nil
  | cons first others ih =>
    -- The word stands only before a further part.
    cases others with
    | nil =>
      rw [List.append_nil]
      exact first
    | cons second rest => exact first.append (ih.cons w)

section Showing

variable {binds : BindMap} {vs : List Value} {ts us : Tokens}

/-- What is shown of the text of sound tokens, token by token. -/
theorem flatMap_literal_segments_render (h : Sound ts) :
    (segments (render ts)).flatMap (Segment.literal binds .ansi) =
      ts.flatMap fun t => t.segment.literal binds .ansi := by
  rw [segments, scan_render h]
  clear h
  induction ts with
  | nil => rfl
  | cons t ts ih =>
    rw [List.foldr_cons, Segment.flatMap_prepend fun _ _ => rfl, ih, List.flatMap_cons]

/-- A token that is no parameter is shown as it is: names keep their quotation marks. -/
theorem literal_segment {t : Token} (h : t.label? = none) :
    t.segment.literal binds .ansi = t.text.toList := by
  cases t with
  | parameter label => cases h
  | name content => simp [Token.segment, Segment.literal, NameStyle.wrap, Token.text]
  | _ => rfl

/-- A parameter is shown as the literal of the value that is bound to it. -/
theorem literal_segment_parameter {label : String} {bound : Bound}
    (h : Keyed.get? label binds = some bound) :
    (Token.parameter label).segment.literal binds .ansi = (literalValue bound).toList := by
  rw [Token.segment, Segment.literal, String.ofList_toList, h]

/-- Fills tokens are what is shown of tokens whose parameters have the values bound to them. -/
theorem Fills.flatMap_literal (h : Fills vs ts us)
    (hbinds : ∀ pair ∈ (ts.filterMap Token.label?).zip (vs.map Value.bind),
      Keyed.get? pair.1 binds = some pair.2) :
    ts.flatMap (fun t => t.segment.literal binds .ansi) = us.flatMap fun u => u.text.toList := by
  induction h with
  | nil => rfl
  | @parameter vs ts us v label rest ih =>
    have hlabels : (Token.parameter label :: ts).filterMap Token.label? =
        label :: ts.filterMap Token.label? := rfl
    rw [hlabels, List.map_cons, List.zip_cons_cons] at hbinds
    rw [List.flatMap_cons, List.flatMap_cons, ih fun pair hpair => hbinds pair (by simp [hpair]),
      literal_segment_parameter (hbinds (label, v.bind) (by simp))]
    rfl
  | @keep vs t ts us ht rest ih =>
    rw [List.filterMap_cons_none ht] at hbinds
    rw [List.flatMap_cons, List.flatMap_cons, ih hbinds, literal_segment ht]

/-- The text of sound tokens with the values bound to their parameters written out is the text of
the tokens filled with these values. -/
theorem literalSql_render (hts : Sound ts) (h : Fills vs ts us)
    (hbinds : ∀ pair ∈ (ts.filterMap Token.label?).zip (vs.map Value.bind),
      Keyed.get? pair.1 binds = some pair.2) :
    literalSql (render ts) binds .ansi = render us := by
  rw [literalSql, flatMap_literal_segments_render hts, h.flatMap_literal hbinds, ← toList_render,
    String.ofList_toList]

end Showing

end BoundSql.Sql
