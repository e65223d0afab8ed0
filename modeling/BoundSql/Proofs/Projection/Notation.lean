import BoundSql.Projection.Basic
import BoundSql.Proofs.Join.Alias
import BoundSql.Proofs.Text.Blanks

/-!
# How a column is written

A written column is a run of the characters of columns, which an alias in parentheses and a type in
brackets may follow, with blanks of any kind before, between and behind them. The reader looks for
these parts one after the other; here they are put together instead, and what the reader accepts is
what can be put together.

* `ColumnName.Pieces`: the parts before the type, with their blanks;
* `ColumnName.pieces?_eq_some_iff`: the reader finds these parts where they stand;
* `ColumnName.Written`: a column with all its parts;
* `ColumnName.ofText_iff`: which texts are read, as what, and why the others are refused.
-/

namespace BoundSql

namespace Text

variable {mark : Char} {s before after : List Char}

/-- A text without the mark is not split. -/
theorem splitAtFirst?_eq_none_iff : splitAtFirst? mark s = none ↔ mark ∉ s := by
  induction s with
  | nil => simp [splitAtFirst?]
  | cons c s ih =>
    rw [splitAtFirst?, List.mem_cons, not_or, ← ih]
    split
    · next hc => simp [hc]
    · next hc => simp [Ne.symm hc]

/-- A text is split at the mark behind which no other stands before it. -/
theorem splitAtFirst?_eq_some_iff :
    splitAtFirst? mark s = some (before, after) ↔ mark ∉ before ∧ s = before ++ mark :: after := by
  constructor
  · intro h
    induction s generalizing before with
    | nil => cases h
    | cons c s ih =>
      rw [splitAtFirst?] at h
      split at h
      · next hc =>
        obtain ⟨rfl, rfl⟩ := Prod.mk.inj (Option.some.inj h)
        simp [hc]
      · next hc =>
        obtain ⟨⟨before', after'⟩, hsplit, heq⟩ := Option.map_eq_some_iff.1 h
        obtain ⟨rfl, rfl⟩ := Prod.mk.inj heq
        obtain ⟨hmem, rfl⟩ := ih hsplit
        simp [hmem, Ne.symm hc]
  · rintro ⟨hmem, rfl⟩
    exact splitAtFirst?_append hmem

end Text

namespace ColumnName

/-- No blank can stand in a column. -/
theorem isColumnChar_of_isBlank {c : Char} (h : Unicode.isBlank c) : isColumnChar c = false := by
  have hall : ∀ range ∈ Unicode.blankRanges,
      ∀ n ∈ List.range' range.1 (range.2 + 1 - range.1), isColumnChar (Char.ofNat n) = false := by
    decide +kernel
  obtain ⟨range, hrange, hin⟩ := List.any_eq_true.1 h
  simp only [Bool.and_eq_true, decide_eq_true_eq] at hin
  have hc := hall range hrange c.toNat (by rw [List.mem_range'_1]; omega)
  rwa [Char.ofNat_toNat] at hc

/-! ### The parts before the type -/

/-- What is written of a column before its type. -/
structure Pieces where
  /-- What stands before the column. -/
  lead : List Char
  /-- The column. -/
  column : List Char
  /-- What stands behind the column. -/
  gap : List Char
  /-- The alias, and what stands behind it. -/
  aliasName : Option (List Char × List Char)

namespace Pieces

/-- An alias in parentheses with what stands behind it, or nothing. -/
def aliasText : Option (List Char × List Char) → List Char
  | none => []
  | some (name, behind) => '(' :: name ++ ')' :: behind

/-- The parts one after the other. -/
def text (p : Pieces) : List Char := p.lead ++ (p.column ++ (p.gap ++ aliasText p.aliasName))

/-- The column is made of the characters of columns, the alias is a name, and all else is blank. -/
structure WellFormed (p : Pieces) : Prop where
  /-- Only blanks stand before the column. -/
  lead : ∀ c ∈ p.lead, Unicode.isBlank c
  /-- There is a column. -/
  column_ne_nil : p.column ≠ []
  /-- It is made of the characters of columns. -/
  column : ∀ c ∈ p.column, isColumnChar c
  /-- Only blanks stand behind the column. -/
  gap : ∀ c ∈ p.gap, Unicode.isBlank c
  /-- The alias is a name with blanks behind it. -/
  aliasName : ∀ a ∈ p.aliasName, Sql.isName a.1 ∧ ∀ c ∈ a.2, Unicode.isBlank c

/-- Whether the parts do not go on with a text: it begins with no blank, and without an alias with
none and with no character of the column. -/
def Stops (p : Pieces) (rest : List Char) : Prop :=
  ∀ c ∈ rest.head?, Unicode.isBlank c = false ∧
    (p.aliasName = none → c ≠ '(' ∧ (p.gap = [] → isColumnChar c = false))

end Pieces

/-- Find the parts of a column before its type, and what stands behind them. -/
def pieces? (s : List Char) : Option (Pieces × List Char) :=
  let s' := Text.trimStart s
  let found := s'.dropWhile isColumnChar
  let pieces := Pieces.mk (s.takeWhile Unicode.isBlank) (s'.takeWhile isColumnChar)
    (found.takeWhile Unicode.isBlank)
  if s'.takeWhile isColumnChar = [] then none
  else
    match Text.trimStart found with
    | '(' :: inner =>
      match Text.splitAtFirst? ')' inner with
      | some (name, after) =>
        if Sql.isName name then
          some (pieces (some (name, after.takeWhile Unicode.isBlank)), Text.trimStart after)
        else none
      | none => none
    | rest => some (pieces none, rest)

section Pieces

variable {p : Pieces} {s rest : List Char}

/-- What stands behind the column does not go on with it. -/
theorem Pieces.WellFormed.column_stops (h : p.WellFormed) (hstops : p.Stops rest) :
    ∀ c ∈ (p.gap ++ (Pieces.aliasText p.aliasName ++ rest)).head?, isColumnChar c = false := by
  intro c hc
  cases hgap : p.gap with
  | cons b gap =>
    rw [hgap] at hc
    obtain rfl := Option.some.inj hc
    exact isColumnChar_of_isBlank (h.gap b (by simp [hgap]))
  | nil =>
    rw [hgap, List.nil_append] at hc
    -- Without blanks there is the parenthesis of the alias, or the text that follows.
    cases halias : p.aliasName with
    | none =>
      rw [halias, Pieces.aliasText, List.nil_append] at hc
      exact ((hstops c hc).2 halias).2 hgap
    | some a =>
      rw [halias, Pieces.aliasText, List.cons_append] at hc
      obtain rfl := Option.some.inj hc
      decide

/-- Behind the column and its blanks stands no blank. -/
theorem Pieces.Stops.alias_head (hstops : p.Stops rest) :
    ∀ c ∈ (Pieces.aliasText p.aliasName ++ rest).head?, Unicode.isBlank c = false := by
  intro c hc
  cases halias : p.aliasName with
  | none =>
    rw [halias, Pieces.aliasText, List.nil_append] at hc
    exact (hstops c hc).1
  | some a =>
    rw [halias, Pieces.aliasText, List.cons_append] at hc
    obtain rfl := Option.some.inj hc
    decide

/-- Parts before a text with which they do not go on are found again. -/
theorem pieces?_append (h : p.WellFormed) (hstops : p.Stops rest) :
    pieces? (p.text ++ rest) = some (p, rest) := by
  obtain ⟨lead, column, gap, aliasName⟩ := p
  have hcolumn : ∀ c ∈ (column ++ (gap ++ (Pieces.aliasText aliasName ++ rest))).head?,
      Unicode.isBlank c = false := by
    obtain ⟨x, xs, rfl⟩ : ∃ x xs, column = x :: xs := List.exists_cons_of_ne_nil h.column_ne_nil
    rintro _ ⟨⟩
    rw [Bool.eq_false_iff]
    intro hblank
    have hchar := h.column x (by simp)
    rw [isColumnChar_of_isBlank hblank] at hchar
    cases hchar
  -- Each run ends where the next part begins.
  have hlead := Text.takeWhile_word_append h.lead hcolumn
  have htrim := Text.trimStart_append h.lead hcolumn
  have hfound := Text.takeWhile_word_append h.column (h.column_stops hstops)
  have hrest := Text.dropWhile_word_append h.column (h.column_stops hstops)
  have hgap := Text.takeWhile_word_append h.gap hstops.alias_head
  have hbehind := Text.trimStart_append h.gap hstops.alias_head
  simp only [Pieces.text, List.append_assoc, pieces?, hlead, htrim, hfound, hrest, hgap, hbehind,
    if_neg h.column_ne_nil]
  cases aliasName with
  | none =>
    rw [Pieces.aliasText, List.nil_append]
    split
    · exact absurd rfl ((hstops '(' rfl).2 rfl).1
    · rfl
  | some a =>
    obtain ⟨name, behind⟩ := a
    obtain ⟨hname, hblank⟩ := h.aliasName (name, behind) rfl
    have hsplit : Text.splitAtFirst? ')' (name ++ ')' :: (behind ++ rest)) =
        some (name, behind ++ rest) :=
      Text.splitAtFirst?_append (Sql.closeParen_not_mem_of_isName hname)
    have hhead : ∀ c ∈ rest.head?, Unicode.isBlank c = false := fun c hc => (hstops c hc).1
    simp only [Pieces.aliasText, List.cons_append, List.append_assoc, hsplit, if_pos hname,
      Text.takeWhile_word_append hblank hhead, Text.trimStart_append hblank hhead]

/-- What is found are parts, which do not go on with what stands behind them. -/
theorem of_pieces? (h : pieces? s = some (p, rest)) :
    p.WellFormed ∧ p.Stops rest ∧ s = p.text ++ rest := by
  have hblank : ∀ t : List Char, ∀ c ∈ t.takeWhile Unicode.isBlank, Unicode.isBlank c :=
    fun _ _ hc => List.mem_takeWhile_imp hc
  have hs : s.takeWhile Unicode.isBlank ++ Text.trimStart s = s := List.takeWhile_append_dropWhile
  simp only [pieces?] at h
  generalize Text.trimStart s = s' at h hs
  have hs' := List.takeWhile_append_dropWhile (p := isColumnChar) (l := s')
  have hfound := List.takeWhile_append_dropWhile (p := Unicode.isBlank)
    (l := s'.dropWhile isColumnChar)
  split at h
  · cases h
  next hne =>
  have hcolumn : ∀ c ∈ s'.takeWhile isColumnChar, isColumnChar c := fun _ hc =>
    List.mem_takeWhile_imp hc
  split at h
  · next inner hopen =>
    split at h
    case h_2 => cases h
    next name after hsplit =>
    split at h
    case isFalse => cases h
    next hname =>
    obtain ⟨rfl, rfl⟩ := Prod.mk.inj (Option.some.inj h)
    obtain ⟨-, rfl⟩ := Text.splitAtFirst?_eq_some_iff.1 hsplit
    refine ⟨⟨hblank _, hne, hcolumn, hblank _, ?_⟩, ?_, ?_⟩
    · intro a ha
      obtain rfl := Option.some.inj ha
      exact ⟨hname, hblank _⟩
    · intro c hc
      exact ⟨Text.isBlank_of_head?_trimStart hc, fun hnone => by cases hnone⟩
    · have hafter : after.takeWhile Unicode.isBlank ++ Text.trimStart after = after :=
        List.takeWhile_append_dropWhile
      rw [Text.trimStart] at hopen
      simp only [Pieces.text, Pieces.aliasText, List.append_assoc, List.cons_append, hafter]
      rw [← hopen, hfound, hs', hs]
  · next hopen =>
    obtain ⟨rfl, rfl⟩ := Prod.mk.inj (Option.some.inj h)
    refine ⟨⟨hblank _, hne, hcolumn, hblank _, by simp⟩, ?_, ?_⟩
    · intro c hc
      refine ⟨Text.isBlank_of_head?_trimStart hc, fun _ => ⟨?_, fun hgap => ?_⟩⟩
      · rintro rfl
        obtain ⟨inner, hinner⟩ := List.head?_eq_some_iff.1 hc
        exact hopen inner hinner
      · -- Without blanks the text begins where the column ends.
        dsimp only at hgap
        rw [hgap, List.nil_append] at hfound
        rw [Text.trimStart, hfound] at hc
        exact Text.head?_dropWhile hc
    · simp only [Pieces.text, Pieces.aliasText, List.append_nil, List.append_assoc]
      rw [Text.trimStart, hfound, hs', hs]

/-- The parts of a column before its type are found where they stand, and in one way only. -/
theorem pieces?_eq_some_iff :
    pieces? s = some (p, rest) ↔ p.WellFormed ∧ p.Stops rest ∧ s = p.text ++ rest := by
  constructor
  · exact of_pieces?
  · rintro ⟨h, hstops, rfl⟩
    exact pieces?_append h hstops

end Pieces

/-! ### The type -/

/-- A type in brackets with what stands behind it, or nothing. -/
def hintText : Option (TypeHint × List Char) → List Char
  | none => []
  | some (hint, behind) => '[' :: hint.text.toList ++ ']' :: behind

/-- A column as it is written, with all its parts. -/
structure Written where
  /-- The parts before the type. -/
  pieces : Pieces
  /-- The type, and what stands behind it. -/
  hint : Option (TypeHint × List Char)
  /-- The parts before the type are what they should be. -/
  wellFormed : pieces.WellFormed
  /-- Only blanks stand behind the type. -/
  hint_blank : ∀ h ∈ hint, ∀ c ∈ h.2, Unicode.isBlank c

/-- What is named by the parts of a column and its type. -/
def Pieces.name (p : Pieces) (hint : Option TypeHint) : ColumnName :=
  ⟨String.ofList p.column, p.aliasName.map fun a => String.ofList a.1, hint⟩

namespace Written

/-- The text of a written column. -/
def text (w : Written) : List Char := w.pieces.text ++ hintText w.hint

/-- What a written column names. -/
def name (w : Written) : ColumnName := w.pieces.name (w.hint.map Prod.fst)

end Written

/-- Whether a text names a type that is not known, behind the parts of a column that stand before
a type. What stands behind the bracket does not matter. -/
def NamesUnknownType (text hint : String) : Prop :=
  TypeHint.ofText? hint = none ∧ ']' ∉ hint.toList ∧
    ∃ (p : Pieces) (after : List Char), p.WellFormed ∧
      text.toList = p.text ++ '[' :: (hint.toList ++ ']' :: after)

/-- The failure for a type that is not known. -/
def unknownType (hint : String) : Error := .invalidArgument ("Unknown column type hint: " ++ hint)

/-- What becomes of the parts of a column before what stands behind them. -/
def finish (text : String) (p : Pieces) (rest : List Char) : Except Error ColumnName :=
  match Text.trimStart rest with
  | '[' :: inner =>
    match Text.splitAtFirst? ']' inner with
    | none => .error (.incorrectColumn text)
    | some (hint, after) =>
      match TypeHint.ofText? (String.ofList hint) with
      | none => .error (unknownType (String.ofList hint))
      | some hint =>
        if Text.trim after = [] then .ok (p.name (some hint)) else .error (.incorrectColumn text)
  | _ => if Text.trim rest = [] then .ok (p.name none) else .error (.incorrectColumn text)

/-- Blanks behind what stands behind a column do not matter. -/
theorem finish_append_blank (text : String) (p : Pieces) (rest : List Char) {trail : List Char}
    (htrail : ∀ c ∈ trail, Unicode.isBlank c) :
    finish text p (rest ++ trail) = finish text p rest := by
  have hopen : ']' ∉ trail := fun hmem => absurd (htrail _ hmem) (by decide)
  simp only [finish, Text.trim_eq_nil_iff_trimStart, Text.trimStart_append_blank htrail]
  cases hrest : Text.trimStart rest with
  | nil => rfl
  | cons c inner =>
    rw [if_neg (List.cons_ne_nil _ _), List.cons_append]
    by_cases hc : c = '['
    · subst hc
      cases hsplit : Text.splitAtFirst? ']' inner with
      | none =>
        have hall : Text.splitAtFirst? ']' (inner ++ trail) = none := by
          rw [Text.splitAtFirst?_eq_none_iff] at hsplit ⊢
          simp [hsplit, hopen]
        simp only [hsplit, hall]
      | some parts =>
        obtain ⟨hint, after⟩ := parts
        have hall : Text.splitAtFirst? ']' (inner ++ trail) = some (hint, after ++ trail) := by
          rw [Text.splitAtFirst?_eq_some_iff] at hsplit ⊢
          simp [hsplit]
        have hafter : Text.trimStart (after ++ trail) = [] ↔ Text.trimStart after = [] := by
          rw [Text.trimStart_append_blank htrail]
          split <;> simp_all
        simp only [hsplit, hall, hafter]
    · simp [hc]

/-- Blanks around what stands behind a column do not matter. -/
theorem finish_trimStart (text : String) (p : Pieces) (rest : List Char) {trail : List Char}
    (htrail : ∀ c ∈ trail, Unicode.isBlank c) :
    finish text p (Text.trimStart (rest ++ trail)) = finish text p rest := by
  rw [← finish_append_blank text p rest htrail, finish, finish]
  simp only [Text.trim_eq_nil_iff_trimStart, Text.trimStart_trimStart]

/-- Without a parenthesis there is no alias. -/
theorem readAlias?_of_ne {s : List Char} (h : ∀ inner, Text.trimStart s ≠ '(' :: inner) :
    readAlias? s = some (none, s) := by
  rw [readAlias?]
  split
  · next hopen => exact absurd hopen (h _)
  · rfl

/-- A written column is read part by part. Trimming it first changes nothing. -/
theorem ofText_eq (text : String) :
    ofText text =
      match pieces? text.toList with
      | none => .error (.incorrectColumn text)
      | some (p, rest) => finish text p rest := by
  obtain ⟨trail, htrail, hs⟩ := Text.exists_trail text.toList
  have hhead : ∀ c ∈ trail.head?, isColumnChar c = false := fun c hc =>
    isColumnChar_of_isBlank (htrail c (List.mem_of_mem_head? hc))
  have hrun : (Text.trim text.toList ++ trail).takeWhile isColumnChar =
        (Text.trim text.toList).takeWhile isColumnChar ∧
      (Text.trim text.toList ++ trail).dropWhile isColumnChar =
        (Text.trim text.toList).dropWhile isColumnChar ++ trail :=
    Text.run_append fun _ => hhead
  simp only [ofText, pieces?, hs, hrun.1, hrun.2]
  generalize List.dropWhile isColumnChar (Text.trim text.toList) = found
  have hbehind := Text.trimStart_append_blank (s := found) htrail
  split
  case isTrue => rfl
  by_cases hopen : ∃ inner, Text.trimStart found = '(' :: inner
  · obtain ⟨inner, hfound⟩ := hopen
    rw [hfound, if_neg (List.cons_ne_nil _ _), List.cons_append] at hbehind
    simp only [readAlias?, hfound, hbehind]
    cases hsplit : Text.splitAtFirst? ')' inner with
    | none =>
      have hall : Text.splitAtFirst? ')' (inner ++ trail) = none := by
        have hclose : ')' ∉ trail := fun hmem => absurd (htrail _ hmem) (by decide)
        rw [Text.splitAtFirst?_eq_none_iff] at hsplit ⊢
        simp [hsplit, hclose]
      simp only [hall]
    | some parts =>
      obtain ⟨name, after⟩ := parts
      have hall : Text.splitAtFirst? ')' (inner ++ trail) = some (name, after ++ trail) := by
        rw [Text.splitAtFirst?_eq_some_iff] at hsplit ⊢
        simp [hsplit]
      by_cases hname : Sql.isName name
      · simp only [hall, if_pos hname]
        exact (finish_trimStart text ⟨_, _, _, some (name, _)⟩ after htrail).symm
      · simp only [hall, if_neg hname]
  · have hopen' : ∀ inner, Text.trimStart (found ++ trail) ≠ '(' :: inner := by
      intro inner hinner
      rw [hbehind] at hinner
      split at hinner
      · cases hinner
      · next hne =>
        obtain ⟨c, rest, hfound⟩ := List.exists_cons_of_ne_nil hne
        rw [hfound, List.cons_append] at hinner
        obtain ⟨rfl, -⟩ := List.cons.inj hinner
        exact hopen ⟨rest, hfound⟩
    rw [readAlias?_of_ne fun inner hinner => hopen ⟨inner, hinner⟩]
    change finish text ⟨text.toList.takeWhile Unicode.isBlank, _,
      (found ++ trail).takeWhile Unicode.isBlank, none⟩ found = _
    rw [← finish_trimStart text _ found htrail]
    generalize Text.trimStart (found ++ trail) = rest at hopen'
    split
    · next hnone =>
      split at hnone
      · exact absurd rfl (hopen' _)
      · cases hnone
    · next hsome =>
      split at hsome
      · exact absurd rfl (hopen' _)
      · cases hsome
        rfl

/-! ### What is read -/

/-- The name of a type is read back. -/
theorem ofText?_eq_some_iff {s : String} {hint : TypeHint} :
    TypeHint.ofText? s = some hint ↔ s = hint.text := by
  constructor
  · intro h
    unfold TypeHint.ofText? at h
    split at h <;> cases h <;> rfl
  · rintro rfl
    cases hint <;> rfl

/-- The name of a type does not close its bracket. -/
theorem closeBracket_not_mem_text (hint : TypeHint) : ']' ∉ hint.text.toList := by
  cases hint <;> decide

/-- The bracket of a type goes on with no part of a column. -/
theorem Pieces.stops_bracket (p : Pieces) (t : List Char) : p.Stops ('[' :: t) := by
  rintro _ ⟨⟩
  exact ⟨by decide, fun _ => ⟨by decide, fun _ => by decide⟩⟩

/-- What names a type goes on with no part of a column. -/
theorem Pieces.stops_hintText (p : Pieces) (hint : Option (TypeHint × List Char)) :
    p.Stops (hintText hint) := by
  cases hint with
  | none => exact fun c hc => by cases hc
  | some h => exact p.stops_bracket _

/-- A bracket is split off where it is closed. -/
theorem splitAtFirst?_hintText (hint : TypeHint) (behind : List Char) :
    Text.splitAtFirst? ']' (hint.text.toList ++ ']' :: behind) =
      some (hint.text.toList, behind) :=
  Text.splitAtFirst?_append (closeBracket_not_mem_text hint)

/-- What names a type is not the same for two types. -/
theorem hintText_injective : Function.Injective hintText := by
  intro h₁ h₂ heq
  cases h₁ with
  | none =>
    cases h₂ with
    | none => rfl
    | some h₂ => cases heq
  | some h₁ =>
    cases h₂ with
    | none => cases heq
    | some h₂ =>
      obtain ⟨hint₁, behind₁⟩ := h₁
      obtain ⟨hint₂, behind₂⟩ := h₂
      have hsplit : Text.splitAtFirst? ']' (hint₁.text.toList ++ ']' :: behind₁) =
          Text.splitAtFirst? ']' (hint₂.text.toList ++ ']' :: behind₂) :=
        congrArg _ (List.cons.inj heq).2
      rw [splitAtFirst?_hintText, splitAtFirst?_hintText] at hsplit
      obtain ⟨htext, rfl⟩ := Prod.mk.inj (Option.some.inj hsplit)
      have hhint : some hint₁ = some hint₂ := by
        rw [← ofText?_eq_some_iff.2 rfl, ← ofText?_eq_some_iff.2 rfl, String.toList_injective htext]
      rw [Option.some.inj hhint]

/-- A written type behind the parts of a column is read. -/
theorem finish_hintText (text : String) (p : Pieces) {hint : Option (TypeHint × List Char)}
    (h : ∀ h ∈ hint, ∀ c ∈ h.2, Unicode.isBlank c) :
    finish text p (hintText hint) = .ok (p.name (hint.map Prod.fst)) := by
  cases hint with
  | none => rfl
  | some a =>
    obtain ⟨hint, behind⟩ := a
    have hblank : Text.trim behind = [] := Text.trim_eq_nil_iff.2 (h (hint, behind) rfl)
    have hhead : Text.trimStart (hintText (some (hint, behind))) =
        '[' :: (hint.text.toList ++ ']' :: behind) := rfl
    have hread : TypeHint.ofText? (String.ofList hint.text.toList) = some hint :=
      ofText?_eq_some_iff.2 String.ofList_toList
    simp only [finish, hhead, splitAtFirst?_hintText, hread, if_pos hblank, Option.map_some]

/-- A type that is not known is refused, whatever stands behind its bracket. -/
theorem finish_unknownType (text : String) (p : Pieces) {hint : String} {after : List Char}
    (h : TypeHint.ofText? hint = none) (hclose : ']' ∉ hint.toList) :
    finish text p ('[' :: (hint.toList ++ ']' :: after)) = .error (unknownType hint) := by
  have hhead : Text.trimStart ('[' :: (hint.toList ++ ']' :: after)) =
      '[' :: (hint.toList ++ ']' :: after) := rfl
  simp only [finish, hhead, Text.splitAtFirst?_append hclose, String.ofList_toList, h]

/-- Behind the parts of a column stands a written type, a type that is not known, or something
else, which is refused. -/
theorem finish_cases (text : String) (p : Pieces) {rest : List Char}
    (hrest : ∀ c ∈ rest.head?, Unicode.isBlank c = false) :
    (∃ hint, (∀ h ∈ hint, ∀ c ∈ h.2, Unicode.isBlank c) ∧ rest = hintText hint) ∨
    (∃ hint after, TypeHint.ofText? hint = none ∧ ']' ∉ hint.toList ∧
      rest = '[' :: (hint.toList ++ ']' :: after)) ∨
    finish text p rest = .error (.incorrectColumn text) := by
  have hstart : Text.trimStart rest = rest := Text.trimStart_of_head? hrest
  simp only [finish, hstart, Text.trim_eq_nil_iff]
  split
  · next inner =>
    split
    · exact .inr (.inr rfl)
    · next hint after hsplit =>
      obtain ⟨hclose, rfl⟩ := Text.splitAtFirst?_eq_some_iff.1 hsplit
      split
      · next hread =>
        exact .inr (.inl ⟨String.ofList hint, after, hread, by simpa using hclose, by simp⟩)
      · next hint' hread =>
        split
        · next hblank =>
          refine .inl ⟨some (hint', after), by rintro _ ⟨⟩; exact hblank, ?_⟩
          have hhint : hint = hint'.text.toList := by
            rw [← ofText?_eq_some_iff.1 hread, String.toList_ofList]
          rw [hhint]
          rfl
        · exact .inr (.inr rfl)
  · split
    · next hblank =>
      refine .inl ⟨none, by simp, ?_⟩
      rw [← hstart]
      exact Text.trimStart_of_blank hblank
    · exact .inr (.inr rfl)

section Reading

variable {text : String}

/-- The parts of a written column are found. -/
theorem Written.pieces?_text (w : Written) :
    pieces? w.text = some (w.pieces, hintText w.hint) :=
  pieces?_append w.wellFormed (w.pieces.stops_hintText w.hint)

/-- A text is written as a column in one way only. -/
theorem Written.text_injective : Function.Injective Written.text := by
  intro w₁ w₂ heq
  have hpieces := congrArg pieces? heq
  rw [w₁.pieces?_text, w₂.pieces?_text] at hpieces
  obtain ⟨hsame, hhint⟩ := Prod.mk.inj (Option.some.inj hpieces)
  obtain ⟨p₁, hint₁, _, _⟩ := w₁
  obtain ⟨p₂, hint₂, _, _⟩ := w₂
  obtain rfl : p₁ = p₂ := hsame
  obtain rfl : hint₁ = hint₂ := hintText_injective hhint
  rfl

/-- A written column is read as what it names. -/
theorem ofText_of_written {w : Written} (h : w.text = text.toList) : ofText text = .ok w.name := by
  rw [ofText_eq, ← h, w.pieces?_text]
  exact finish_hintText text w.pieces w.hint_blank

/-- A type that is not known is refused. -/
theorem ofText_of_namesUnknownType {hint : String} (h : NamesUnknownType text hint) :
    ofText text = .error (unknownType hint) := by
  obtain ⟨hread, hclose, p, after, hp, htext⟩ := h
  rw [ofText_eq, htext, pieces?_append hp (p.stops_bracket _)]
  exact finish_unknownType text p hread hclose

/-- Any text is a written column, or it names a type that is not known, or it is refused. -/
theorem ofText_cases (text : String) :
    (∃ w : Written, w.text = text.toList) ∨ (∃ hint, NamesUnknownType text hint) ∨
      ofText text = .error (.incorrectColumn text) := by
  rw [ofText_eq]
  cases hpieces : pieces? text.toList with
  | none => exact .inr (.inr rfl)
  | some found =>
    obtain ⟨p, rest⟩ := found
    obtain ⟨hp, hstops, htext⟩ := of_pieces? hpieces
    obtain ⟨hint, hblank, rfl⟩ | ⟨hint, after, hread, hclose, rfl⟩ | h :=
      finish_cases text p fun c hc => (hstops c hc).1
    · exact .inl ⟨⟨p, hint, hp, hblank⟩, htext.symm⟩
    · exact .inr (.inl ⟨hint, hread, hclose, p, after, hp, htext⟩)
    · exact .inr (.inr h)

end Reading

/-- A text is read as a column exactly if it is a written one, as what that names, and a text is
written in one way only. It is refused as naming a type that is not known exactly if it does so
behind parts of a column that are as they should be, and all other texts are refused as malformed
names. -/
theorem ofText_iff (text : String) :
    (∀ name, ofText text = .ok name ↔ ∃ w : Written, w.text = text.toList ∧ w.name = name) ∧
    Function.Injective Written.text ∧
    (∀ message, ofText text = .error (.invalidArgument message) ↔
      ∃ hint, NamesUnknownType text hint ∧ message = "Unknown column type hint: " ++ hint) ∧
    (ofText text = .error (.invalidIdentifier ("Incorrect column name: " ++ text)) ↔
      (∀ w : Written, w.text ≠ text.toList) ∧ ∀ hint, ¬NamesUnknownType text hint) := by
  -- The three cases exclude each other, as their results differ.
  have hcases := ofText_cases text
  refine ⟨fun name => ⟨fun h => ?_, ?_⟩, Written.text_injective, fun message => ⟨fun h => ?_, ?_⟩,
    fun h => ⟨fun w hw => ?_, fun hint hhint => ?_⟩, fun h => ?_⟩
  · obtain ⟨w, hw⟩ | ⟨hint, hhint⟩ | hrefused := hcases
    · exact ⟨w, hw, Except.ok.inj ((ofText_of_written hw).symm.trans h)⟩
    · cases (ofText_of_namesUnknownType hhint).symm.trans h
    · cases hrefused.symm.trans h
  · rintro ⟨w, hw, rfl⟩
    exact ofText_of_written hw
  · obtain ⟨w, hw⟩ | ⟨hint, hhint⟩ | hrefused := hcases
    · cases (ofText_of_written hw).symm.trans h
    · have hsame := Except.error.inj ((ofText_of_namesUnknownType hhint).symm.trans h)
      exact ⟨hint, hhint, (Error.invalidArgument.inj hsame).symm⟩
    · cases hrefused.symm.trans h
  · rintro ⟨hint, hhint, rfl⟩
    exact ofText_of_namesUnknownType hhint
  · cases (ofText_of_written hw).symm.trans h
  · cases (ofText_of_namesUnknownType hhint).symm.trans h
  · obtain ⟨w, hw⟩ | ⟨hint, hhint⟩ | hrefused := hcases
    · exact absurd hw (h.1 w)
    · exact absurd hhint (h.2 hint)
    · exact hrefused

end ColumnName

end BoundSql
