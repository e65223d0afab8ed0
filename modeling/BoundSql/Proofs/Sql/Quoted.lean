import BoundSql.Proofs.Sql.Scanning
import BoundSql.Sql.Quoter

/-!
# Quoted names

What the quoter makes of a name that it accepts: a reference, which is a name and perhaps the table
it belongs to, each in quotation marks. Names hold no quotation marks themselves, but the table
prefix can. So a quoted name is sound as soon as the prefix holds none, and it binds nothing
(`Inert`).

* `Quoter.table_ok`, `Quoter.plainColumn_ok` and `Quoter.column_ok`: what accepted names become.
-/

namespace BoundSql.Sql

/-- A name in a statement, by its content and perhaps by that of its table. -/
structure Reference where
  /-- The table. -/
  qualifier : Option String := none
  /-- The name. -/
  name : String
  deriving DecidableEq, Repr

namespace Reference

/-- The tokens of a reference. -/
def tokens : Reference → Tokens
  | ⟨none, name⟩ => [.name name]
  | ⟨some qualifier, name⟩ => [.name qualifier, .word .dot, .name name]

/-- No part of a reference holds a quotation mark. -/
def QuoteFree (r : Reference) : Prop := (∀ s ∈ r.qualifier, '"' ∉ s.toList) ∧ '"' ∉ r.name.toList

/-- A reference has no parameters among its tokens. -/
theorem filterMap_label?_tokens (r : Reference) : r.tokens.filterMap Token.label? = [] := by
  rcases r with ⟨_ | _, _⟩ <;> rfl

/-- The tokens of a reference are sound if it holds no quotation marks. -/
theorem QuoteFree.sound {r : Reference} (h : r.QuoteFree) : Sound r.tokens := by
  obtain ⟨qualifier, name⟩ := r
  have hname : Sound [.name name] := .singleton h.2
  cases qualifier with
  | none => exact hname
  | some qualifier =>
    have hqualifier : Sound [.name qualifier] := .singleton (h.1 qualifier rfl)
    have hdot : Sound (.word .dot :: [.name name]) := hname.cons (by decide)
    exact hqualifier.append hdot (led_cons.2 (by decide))

end Reference

/-- How an alias is introduced behind a name, with the tokens of the alias; nothing without one. -/
def naming {α : Type} (aliasName : Option α) (quoted : Tokens) : Tokens :=
  match aliasName with
  | none => []
  | some _ => .word .asAlias :: quoted

/-- The introduction of an alias can stand behind anything. -/
theorem led_naming {α : Type} (aliasName : Option α) (quoted : Tokens) :
    Led (naming aliasName quoted) := by
  cases aliasName with
  | none => exact led_nil
  | some _ => exact led_cons.2 (by decide)

/-- Tokens that are sound under a quoter and have no parameters among them. -/
structure Inert (q : Quoter) (ts : Tokens) : Prop where
  /-- There are no parameters. -/
  labels : ts.filterMap Token.label? = []
  /-- The tokens are sound if the table prefix holds no quotation mark. -/
  sound : '"' ∉ q.tablePrefix.toList → Sound ts

/-- A name holds no quotation mark. -/
theorem quote_not_mem_of_isName {s : List Char} (h : isName s) : '"' ∉ s := by
  have hstart : isNameStart '"' = false := by decide
  have hchar : isNameChar '"' = false := by decide
  cases s with
  | nil => simp
  | cons c rest =>
    simp only [isName, Bool.and_eq_true, List.all_eq_true] at h
    rw [List.mem_cons, not_or]
    refine ⟨?_, ?_⟩
    · rintro rfl
      exact absurd h.1 (by simp [hstart])
    · intro hmem
      exact absurd (h.2 _ hmem) (by simp [hchar])

namespace Quoter

variable {q : Quoter} {name : String} {ts : Tokens}

/-- The reference for a table name. -/
def tableReference (q : Quoter) (name : String) : Reference := { name := q.tablePrefix ++ name }

/-- The reference for a column name, which may be qualified by a table name. -/
def columnReference (q : Quoter) (name : String) : Reference :=
  match Text.splitAtFirst? '.' name.toList with
  | none => { name }
  | some (qualifier, rest) =>
    { qualifier := some (q.tablePrefix ++ String.ofList qualifier), name := String.ofList rest }

/-- The prefix and a name behind it hold no quotation mark if the prefix holds none. -/
theorem quote_not_mem_prefixed {s : List Char} (hq : '"' ∉ q.tablePrefix.toList) (h : isName s) :
    '"' ∉ (q.tablePrefix ++ String.ofList s).toList := by
  rw [String.toList_append, String.toList_ofList, List.mem_append, not_or]
  exact ⟨hq, quote_not_mem_of_isName h⟩

/-- An accepted table name is quoted behind the prefix. -/
theorem table_ok (h : q.table name = .ok ts) :
    ts = (q.tableReference name).tokens ∧
      ('"' ∉ q.tablePrefix.toList → (q.tableReference name).QuoteFree) := by
  rw [table] at h
  split at h
  · next hname =>
    refine ⟨(Except.ok.inj h).symm, fun hq => ⟨by simp [tableReference], ?_⟩⟩
    simpa [tableReference] using quote_not_mem_prefixed hq hname
  · cases h

/-- An accepted name of a column without qualification is quoted as it is. -/
theorem plainColumn_ok (h : q.plainColumn name = .ok ts) :
    ts = [.name name] ∧ '"' ∉ name.toList := by
  rw [plainColumn] at h
  split at h
  · next hname => exact ⟨(Except.ok.inj h).symm, quote_not_mem_of_isName hname⟩
  · cases h

/-- An accepted column name is quoted with its qualification. -/
theorem column_ok (h : q.column name = .ok ts) :
    ts = (q.columnReference name).tokens ∧
      ('"' ∉ q.tablePrefix.toList → (q.columnReference name).QuoteFree) := by
  rw [column] at h
  rw [columnReference]
  -- A point parts the name of a table, which gets the prefix, from that of a column.
  cases hsplit : Text.splitAtFirst? '.' name.toList with
  | none =>
    rw [hsplit] at h
    obtain ⟨htokens, hfree⟩ := plainColumn_ok h
    exact ⟨htokens, fun _ => ⟨by simp, hfree⟩⟩
  | some parts =>
    obtain ⟨qualifier, rest⟩ := parts
    simp only [hsplit] at h
    split at h
    · next hnames =>
      rw [Bool.and_eq_true] at hnames
      refine ⟨(Except.ok.inj h).symm, fun hq => ⟨?_, ?_⟩⟩
      · intro s hs
        obtain rfl := Option.some.inj hs
        exact quote_not_mem_prefixed hq hnames.1
      · rw [String.toList_ofList]
        exact quote_not_mem_of_isName hnames.2
    · cases h

end Quoter

namespace Inert

variable {q : Quoter} {name : String} {ts : Tokens}

/-- A reference is inert. -/
theorem reference {r : Reference} (h : '"' ∉ q.tablePrefix.toList → r.QuoteFree) :
    Inert q r.tokens :=
  ⟨r.filterMap_label?_tokens, fun hq => (h hq).sound⟩

/-- A quoted table name is inert. -/
theorem table (h : q.table name = .ok ts) : Inert q ts := by
  obtain ⟨rfl, hfree⟩ := Quoter.table_ok h
  exact reference hfree

/-- A quoted name of a column without qualification is inert. -/
theorem plainColumn (h : q.plainColumn name = .ok ts) : Inert q ts := by
  obtain ⟨rfl, hfree⟩ := Quoter.plainColumn_ok h
  exact reference (r := { name }) fun _ => ⟨by simp, hfree⟩

/-- A quoted column name is inert. -/
theorem column (h : q.column name = .ok ts) : Inert q ts := by
  obtain ⟨rfl, hfree⟩ := Quoter.column_ok h
  exact reference hfree

/-- The introduction of an alias is inert. -/
theorem naming {α : Type} (aliasName : Option α) (h : Inert q ts) :
    Inert q (naming aliasName ts) := by
  cases aliasName with
  | none => exact ⟨rfl, fun _ => Sound.nil⟩
  | some _ => exact ⟨h.labels, fun hq => (h.sound hq).cons (by decide)⟩

end Inert

end BoundSql.Sql
