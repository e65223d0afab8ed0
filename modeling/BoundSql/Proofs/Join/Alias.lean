import BoundSql.Join.Basic
import BoundSql.Proofs.Fragment.Marker

/-!
# Tables with aliases

A query names its first table by a name, which an alias in parentheses may follow; a join names its
table in the same way behind the symbol of the join. The two are read by different readers. The
first one passes over all blanks before the parenthesis and lets nothing stand behind it. The second
one passes over one blank and ignores what it does not understand behind the name, so that an alias
behind two blanks is lost.

* `Sql.exists_blanks_of_splitAlias?`: what a query takes for a table with an alias;
* `JoinTarget.ofKey?_written`: what a join makes of such a text;
* `JoinTarget.agrees_splitAlias_iff`: the texts on which the two readers agree.
-/

namespace BoundSql

namespace Text

variable {mark : Char} {before after : List Char}

/-- A text is split at a mark that does not occur before. -/
theorem splitAtFirst?_append (h : mark ∉ before) :
    splitAtFirst? mark (before ++ mark :: after) = some (before, after) := by
  induction before with
  | nil => simp [splitAtFirst?]
  | cons c before ih =>
    simp only [List.mem_cons, not_or] at h
    rw [List.cons_append, splitAtFirst?, if_neg (Ne.symm h.1), ih h.2]
    rfl

/-- A text from which a word was dropped ends with it. -/
theorem eq_append_of_dropSuffix? {word s rest : List Char} (h : dropSuffix? word s = some rest) :
    s = rest ++ word := by
  rw [dropSuffix?, Option.map_eq_some_iff] at h
  obtain ⟨reversed, hreversed, rfl⟩ := h
  simpa using congrArg List.reverse (eq_append_of_dropPrefix? hreversed)

end Text

namespace Sql

variable {s table name : List Char} {aliasName : Option (List Char)}

/-- An alias as it is written behind a table: in parentheses, or not at all. -/
def writtenAlias : Option (List Char) → List Char
  | none => []
  | some name => '(' :: name ++ [')']

/-- No name has a parenthesis in it. -/
theorem closeParen_not_mem_of_isName (h : isName name) : ')' ∉ name := by
  intro hmem
  have hchar := Fragment.isNameChar_of_mem h _ hmem
  exact absurd hchar (by decide)

/-- What a query takes for a table with an alias is a name, blanks and the alias, which is a name as
well. -/
theorem exists_blanks_of_splitAlias? (h : splitAlias? s = some (table, aliasName)) :
    ∃ blanks, (∀ c ∈ blanks, Unicode.isBlank c) ∧ (∀ name ∈ aliasName, isName name) ∧
      scanName? s = some (table, blanks ++ writtenAlias aliasName) := by
  rw [splitAlias?] at h
  obtain ⟨⟨found, rest⟩, hscan, h⟩ := Option.bind_eq_some_iff.1 h
  dsimp only at h
  have hrest : rest.takeWhile Unicode.isBlank ++ Text.trimStart rest = rest :=
    List.takeWhile_append_dropWhile
  have hblank : ∀ c ∈ rest.takeWhile Unicode.isBlank, Unicode.isBlank c := fun c hc =>
    List.mem_takeWhile_imp hc
  refine ⟨rest.takeWhile Unicode.isBlank, hblank, ?_⟩
  -- Behind the blanks stands nothing, or a parenthesis; anything else is refused.
  split at h
  · next hnil =>
    obtain ⟨rfl, rfl⟩ := Prod.mk.inj (Option.some.inj h)
    rw [hnil] at hrest
    exact ⟨by simp, by rw [writtenAlias, hrest, hscan]⟩
  · next inner hparen =>
    obtain ⟨written, hwritten, h⟩ := Option.bind_eq_some_iff.1 h
    split at h
    · next hname =>
      obtain ⟨rfl, rfl⟩ := Prod.mk.inj (Option.some.inj h)
      rw [hparen, Text.eq_append_of_dropSuffix? hwritten] at hrest
      refine ⟨by simpa using hname, ?_⟩
      rw [writtenAlias, List.cons_append, hrest, hscan]
    · cases h
  · cases h

/-- A symbol of a join has no closing bracket in it. -/
theorem JoinKind.closeBracket_not_mem {symbol : String} {kind : JoinKind}
    (h : ofSymbol? symbol = some kind) : ']' ∉ symbol.toList := by
  unfold ofSymbol? at h
  split at h
  case h_5 => cases h
  all_goals decide

end Sql

namespace JoinTarget

variable {table blanks : List Char} {aliasName : Option (List Char)}

/-- An alias is read behind one blank at most. -/
theorem alias?_dropBlank (hblank : ∀ c ∈ blanks, Unicode.isBlank c)
    (hname : ∀ name ∈ aliasName, Sql.isName name) :
    alias? (dropBlank (blanks ++ Sql.writtenAlias aliasName)) =
      if blanks.length ≤ 1 then aliasName else none := by
  have hopen : ¬Unicode.isBlank '(' := by decide
  have hread : alias? (Sql.writtenAlias aliasName) = aliasName := by
    cases aliasName with
    | none => rfl
    | some name =>
      have hname : Sql.isName name := hname name rfl
      have hsplit : Text.splitAtFirst? ')' (name ++ [')']) = some (name, []) :=
        Text.splitAtFirst?_append (Sql.closeParen_not_mem_of_isName hname)
      rw [Sql.writtenAlias, List.cons_append, alias?, hsplit]
      exact if_pos hname
  match blanks, hblank with
  | [], _ =>
    have hdrop : dropBlank (Sql.writtenAlias aliasName) = Sql.writtenAlias aliasName := by
      cases aliasName with
      | none => rfl
      | some name => rw [Sql.writtenAlias, List.cons_append, dropBlank, if_neg hopen]
    rw [List.nil_append, hdrop, hread]
    exact (if_pos (Nat.zero_le 1)).symm
  | [b], hblank =>
    have hb : Unicode.isBlank b := hblank b (by simp)
    rw [List.cons_append, List.nil_append, dropBlank, if_pos hb, hread]
    exact (if_pos (Nat.le_refl 1)).symm
  | b :: b' :: blanks, hblank =>
    -- The second blank stands where the parenthesis should, and no blank is one.
    have hb : Unicode.isBlank b := hblank b (by simp)
    have hb' : b' ≠ '(' := fun heq => hopen (heq ▸ hblank b' (by simp))
    rw [List.cons_append, List.cons_append, dropBlank, if_pos hb, if_neg (by simp), alias?]
    intro rest heq
    exact hb' (List.cons.inj heq).1

/-- What a join makes of a symbol and a table with an alias, as a query would read them. -/
theorem ofKey?_written {symbol text : String} {kind : Sql.JoinKind}
    (hsymbol : Sql.JoinKind.ofSymbol? symbol = some kind)
    (hblank : ∀ c ∈ blanks, Unicode.isBlank c) (hname : ∀ name ∈ aliasName, Sql.isName name)
    (hscan : Sql.scanName? text.toList = some (table, blanks ++ Sql.writtenAlias aliasName)) :
    ofKey? ("[" ++ symbol ++ "]" ++ text) =
      some ⟨kind, String.ofList table,
        (if blanks.length ≤ 1 then aliasName else none).map String.ofList⟩ := by
  have htext : ("[" ++ symbol ++ "]" ++ text).toList =
      ['['] ++ (symbol.toList ++ ']' :: text.toList) := by simp
  rw [ofKey?, htext, Text.dropPrefix?_append]
  simp only [Option.bind_eq_bind, Option.bind_some, String.ofList_toList, hsymbol, hscan,
    Text.splitAtFirst?_append (Sql.JoinKind.closeBracket_not_mem hsymbol),
    alias?_dropBlank hblank hname]
  rfl

/-- A table that a query reads with its alias is read in a join key as well, behind every symbol, and
as the same table. It keeps its alias exactly if it has none or if at most one blank stands before
the parenthesis; behind more blanks the alias is lost. -/
theorem agrees_splitAlias_iff {symbol text : String} {kind : Sql.JoinKind}
    (htable : Sql.splitAlias? text.toList = some (table, aliasName))
    (hsymbol : Sql.JoinKind.ofSymbol? symbol = some kind) :
    ∃ blanks, (∀ c ∈ blanks, Unicode.isBlank c) ∧
      text.toList = table ++ blanks ++ Sql.writtenAlias aliasName ∧
      (ofKey? ("[" ++ symbol ++ "]" ++ text) =
          some ⟨kind, String.ofList table, aliasName.map String.ofList⟩ ↔
        aliasName = none ∨ blanks.length ≤ 1) ∧
      (1 < blanks.length →
        ofKey? ("[" ++ symbol ++ "]" ++ text) = some ⟨kind, String.ofList table, none⟩) := by
  obtain ⟨blanks, hblank, hname, hscan⟩ := Sql.exists_blanks_of_splitAlias? htable
  have hkey := ofKey?_written hsymbol hblank hname hscan
  refine ⟨blanks, hblank, ?text, ?agree, ?lost⟩
  case text =>
    rw [(Fragment.isName_of_scanName? hscan).2, List.append_assoc]
  case agree =>
    rw [hkey]
    by_cases hfew : blanks.length ≤ 1
    · simp [hfew]
    · cases aliasName <;> simp [hfew]
  case lost =>
    intro hmany
    rw [hkey, if_neg (Nat.not_le.2 hmany)]
    rfl

/-- One blank before the alias, which is not one of ASCII. -/
theorem agrees_splitAlias_ideographicSpace :
    Sql.splitAlias? "用户\u3000(u)".toList = some ("用户".toList, some ['u']) ∧
      Sql.JoinKind.ofSymbol? "><" = some .inner ∧
      ofKey? ("[" ++ "><" ++ "]" ++ "用户\u3000(u)") = some ⟨.inner, "用户", some "u"⟩ := by
  have htable : Sql.splitAlias? "用户\u3000(u)".toList = some ("用户".toList, some ['u']) := by
    decide +kernel
  have hsymbol : Sql.JoinKind.ofSymbol? "><" = some .inner := rfl
  obtain ⟨blanks, -, htext, hagree, -⟩ := agrees_splitAlias_iff htable hsymbol
  have hone : blanks.length = 1 := by
    have hlength := congrArg List.length htext
    simp [Sql.writtenAlias] at hlength
    omega
  exact ⟨htable, hsymbol, hagree.2 (.inr hone.le)⟩

/-- Two blanks before the alias: a query reads the alias, and a join key loses it. -/
theorem loses_alias_twoBlanks :
    Sql.splitAlias? "users  (u)".toList = some ("users".toList, some ['u']) ∧
      Sql.JoinKind.ofSymbol? ">" = some .left ∧
      ofKey? ("[" ++ ">" ++ "]" ++ "users  (u)") = some ⟨.left, "users", none⟩ := by
  refine ⟨?_, rfl, ?_⟩
  all_goals decide +kernel

end JoinTarget

end BoundSql
