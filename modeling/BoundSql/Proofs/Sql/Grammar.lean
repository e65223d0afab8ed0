import BoundSql.Proofs.Sql.DecimalText
import BoundSql.Proofs.Sql.Lexing
import BoundSql.Proofs.Sql.Vocabulary
import Mathlib.Order.CompletePartialOrder

/-!
# The grammar of queries

What can follow the columns of a query, as languages over the lexemes of its text. No list and no
group in parentheses is empty in this grammar, and conditions follow each of the keywords that
introduce them.

* `Grammar.tail`: the language of the clauses from `FROM` on;
* `IsQueryTail`: the texts of this language;
* `Grammar.tail_le_whole`: what the grammar forbids, in a form that is read off a text: nowhere do
  two parentheses hold nothing, and `ON` is followed by a condition.
-/

namespace BoundSql.Sql

open Computability Language

/-- The content of a quoted name. -/
def Lexeme.name? : Lexeme → Option String
  | name content => some content
  | _ => none

/-- The lexemes of a number are words and marks that begin with one of its characters. -/
theorem mem_lex_of_isNumberChar {s : List Char} (hs : ∀ c ∈ s, isNumberChar c) {x : Lexeme}
    (hx : x ∈ lex s) :
    (∃ c word, x = .word (String.ofList (c :: word)) ∧ isNumberChar c) ∨
      ∃ c, x = .mark c ∧ isNumberChar c := by
  fun_induction lex s with
  | case1 => cases hx
  | case2 s => exact absurd (hs '"' (by simp)) (by decide)
  | case3 s h => exact absurd (hs ':' (by simp)) (by decide)
  | case4 c s h h' hword ih =>
    rcases List.mem_cons.1 hx with rfl | hx
    · exact Or.inl ⟨c, _, rfl, hs c (by simp)⟩
    · exact ih (fun y hy => hs y (by simp [(List.dropWhile_suffix _).mem hy])) hx
  | case5 c s h h' hword hoperator ih =>
    -- No operator begins in a number.
    have hnumber : ∀ c ∈ ['<', '>', '=', '!'], ¬isNumberChar c := List.any_eq_false.1 (by decide)
    exact absurd (hs c (by simp)) (hnumber c (by simpa [isOperatorChar] using hoperator))
  | case6 s h h' hword hoperator ih => exact ih (fun y hy => hs y (by simp [hy])) hx
  | case7 c s h h' hword hoperator hblank ih =>
    rcases List.mem_cons.1 hx with rfl | hx
    · exact Or.inr ⟨c, rfl, hs c (by simp)⟩
    · exact ih (fun y hy => hs y (by simp [hy])) hx

namespace Grammar

/-- Keywords one after the other. -/
def keywords (texts : List String) : Language Lexeme := {texts.map .word}

/-- A single character. -/
def mark (c : Char) : Language Lexeme := {[.mark c]}

/-- A phrase that may be missing. -/
def optional (l : Language Lexeme) : Language Lexeme := 1 + l

/-- At least one item, with commas between them. -/
def separated (item : Language Lexeme) : Language Lexeme := item * (mark ',' * item)∗

/-- A phrase in parentheses. -/
def parenthesized (l : Language Lexeme) : Language Lexeme := mark '(' * l * mark ')'

/-- A quoted name. -/
def name : Language Lexeme := {ls | ∃ content, ls = [.name content]}

/-- A column, which may be qualified by a table. -/
def column : Language Lexeme := name + name * mark '.' * name

/-- A named parameter. -/
def parameter : Language Lexeme := {ls | ∃ label, IsLabel label.toList ∧ ls = [.parameter label]}

/-- A comparison. -/
def operator : Language Lexeme := {ls | ∃ c : Comparison, ls = [.operator c.text]}

/-- A decimal number. -/
def number : Language Lexeme := {ls | ∃ text ∈ Numeral.decimalText, ls = lex text}

/-- A condition on a row, without connectives. -/
def rowTest : Language Lexeme :=
  column * operator * (parameter + column) +
    column * keywords ["IS", "NULL"] +
    column * keywords ["IN"] * parenthesized (separated parameter) +
    {[.word "1", .operator "=", .word "0"]}

/-- A condition between two tables, without connectives. -/
def columnTest : Language Lexeme := column * operator * column

/-- Tests under connectives and in parentheses, of which there is at least one everywhere. -/
inductive Conditions (test : Language Lexeme) : List Lexeme → Prop where
  /-- A single test. -/
  | test {a : List Lexeme} (h : a ∈ test) : Conditions test a
  /-- Conditions in parentheses. -/
  | group {a : List Lexeme} (h : Conditions test a) :
      Conditions test (.mark '(' :: a ++ [.mark ')'])
  /-- Conditions with a connective between them. -/
  | connected {a b : List Lexeme} (c : Connective) (ha : Conditions test a)
      (hb : Conditions test b) : Conditions test (a ++ .word c.text :: b)

/-- The conditions that are made of tests. -/
def conditions (test : Language Lexeme) : Language Lexeme := {ls | Conditions test ls}

/-- A table, with its alias if it has one. -/
def table : Language Lexeme := name * optional (keywords ["AS"] * name)

/-- What relates a joined table to the tables before it. -/
def relation : Language Lexeme :=
  keywords ["USING"] * parenthesized (separated name) + keywords ["ON"] * conditions columnTest

/-- A joined table. -/
def join : Language Lexeme :=
  (keywords ["LEFT", "JOIN"] + keywords ["RIGHT", "JOIN"] + keywords ["FULL", "JOIN"] +
    keywords ["INNER", "JOIN"]) * table * relation

/-- A column to order by. -/
def orderItem : Language Lexeme := column * optional (keywords ["ASC"] + keywords ["DESC"])

/-- The clauses that choose rows. -/
def choice : Language Lexeme :=
  optional (keywords ["WHERE"] * conditions rowTest) *
    optional (keywords ["GROUP", "BY"] * separated column) *
    optional (keywords ["HAVING"] * conditions rowTest) *
    optional (keywords ["ORDER", "BY"] * separated orderItem) *
    optional (keywords ["LIMIT"] * (number * optional (keywords ["OFFSET"] * number)))

/-- The clauses of a query behind its columns. -/
def tail : Language Lexeme := keywords ["FROM"] * table * join∗ * choice

end Grammar

/-- A text that can follow the columns of a query: all quoted names are closed in it, and its
lexemes are clauses of a query. -/
structure IsQueryTail (text : String) : Prop where
  /-- The names among the lexemes are those that the scanner finds, which are closed. -/
  closed : (lex text.toList).filterMap Lexeme.name? = quotedNames text
  /-- The lexemes are clauses of a query. -/
  derives : lex text.toList ∈ Grammar.tail

/-! ### What the grammar forbids -/

/-- Whether something must follow a lexeme. -/
def Lexeme.Expects (l : Lexeme) : Prop := l = .mark '(' ∨ l = .word "ON"

/-- Whether a lexeme can follow another one: there is something in parentheses, and `ON` stands
before a condition between two tables. -/
def Follows (a b : Lexeme) : Prop :=
  (a = .mark '(' → b ≠ .mark ')') ∧
    (a = .word "ON" → b = .mark '(' ∨ ∃ content, b = .name content)

namespace Grammar

/-- The lexemes in which everything that is expected follows. -/
def whole : Language Lexeme := {ls | ls.IsChain Follows ∧ ∀ l ∈ ls.getLast?, ¬l.Expects}

variable {a b : List Lexeme} {l m : Language Lexeme}

theorem follows_of_not_expects {x : Lexeme} (h : ¬x.Expects) (y : Lexeme) : Follows x y :=
  ⟨fun hx => absurd (Or.inl hx) h, fun hx => absurd (Or.inr hx) h⟩

theorem append_mem_whole (ha : a ∈ whole) (hb : b ∈ whole) : a ++ b ∈ whole := by
  constructor
  · refine ha.1.append hb.1 fun x hx y _ => follows_of_not_expects (ha.2 x hx) y
  · intro x hx
    -- The last one is that of the second part, unless this is empty.
    rw [List.getLast?_append] at hx
    cases hlast : b.getLast? with
    | none =>
      rw [hlast] at hx
      exact ha.2 x hx
    | some y =>
      rw [hlast] at hx
      obtain rfl := Option.some.inj hx
      exact hb.2 _ hlast

theorem right_mem_whole (h : a ++ b ∈ whole) : b ∈ whole := by
  refine ⟨h.1.right_of_append, fun x hx => h.2 x ?_⟩
  rw [List.getLast?_append, hx]
  rfl

/-- Something can be put before lexemes if their first one can follow it. -/
theorem cons_mem_whole {x y : Lexeme} (hy : y ∈ b.head?) (hxy : Follows x y) (hb : b ∈ whole) :
    x :: b ∈ whole := by
  cases b with
  | nil => cases hy
  | cons z b =>
    obtain rfl := Option.some.inj hy
    refine ⟨List.isChain_cons_cons.2 ⟨hxy, hb.1⟩, fun l hl => hb.2 l ?_⟩
    rwa [List.getLast?_cons_cons] at hl

theorem mem_whole_of_not_expects (h : ∀ x ∈ a, ¬x.Expects) : a ∈ whole := by
  induction a with
  | nil => exact ⟨List.isChain_nil, by simp⟩
  | cons x a ih =>
    have hx : [x] ∈ whole := ⟨List.isChain_singleton x, by simpa using h x (by simp)⟩
    exact append_mem_whole hx (ih fun y hy => h y (by simp [hy]))

theorem mul_le_whole (hl : l ≤ whole) (hm : m ≤ whole) : l * m ≤ whole := by
  intro ls hls
  obtain ⟨a, ha, b, hb, rfl⟩ := mem_mul.1 hls
  exact append_mem_whole (hl ha) (hm hb)

theorem one_le_whole : 1 ≤ whole := by
  rintro _ rfl
  exact mem_whole_of_not_expects (by simp)

theorem optional_le_whole (hl : l ≤ whole) : optional l ≤ whole := add_le one_le_whole hl

theorem kstar_le_whole (hl : l ≤ whole) : l∗ ≤ whole :=
  kstar_le_of_mul_le_right one_le_whole (mul_le_whole hl le_rfl)

theorem keywords_le_whole {texts : List String} (h : "ON" ∉ texts) : keywords texts ≤ whole := by
  rintro _ rfl
  refine mem_whole_of_not_expects fun x hx => ?_
  obtain ⟨text, htext, rfl⟩ := List.mem_map.1 hx
  rintro (hopen | hon)
  · cases hopen
  · exact h (Lexeme.word.inj hon ▸ htext)

theorem mark_le_whole {c : Char} (h : c ≠ '(') : mark c ≤ whole := by
  rintro _ rfl
  exact mem_whole_of_not_expects (by simpa [Lexeme.Expects] using h)

theorem name_le_whole : name ≤ whole := by
  rintro _ ⟨content, rfl⟩
  exact mem_whole_of_not_expects (by simp [Lexeme.Expects])

theorem parameter_le_whole : parameter ≤ whole := by
  rintro _ ⟨label, -, rfl⟩
  exact mem_whole_of_not_expects (by simp [Lexeme.Expects])

theorem operator_le_whole : operator ≤ whole := by
  rintro _ ⟨c, rfl⟩
  exact mem_whole_of_not_expects (by simp [Lexeme.Expects])

theorem number_le_whole : number ≤ whole := by
  rintro _ ⟨text, htext, rfl⟩
  refine mem_whole_of_not_expects fun x hx => ?_
  have hchars := (Numeral.isPlainNumber_of_mem_decimalText htext).chars
  -- Neither the keyword nor the parenthesis begins with a character of numbers.
  rcases mem_lex_of_isNumberChar hchars hx with ⟨c, word, rfl, hc⟩ | ⟨c, rfl, hc⟩
  · rintro (h | h)
    · cases h
    · have hword := congrArg String.toList (Lexeme.word.inj h)
      rw [String.toList_ofList] at hword
      obtain rfl : c = 'O' := (List.cons.inj hword).1
      exact absurd hc (by decide)
  · rintro (h | h)
    · obtain rfl := Lexeme.mark.inj h
      exact absurd hc (by decide)
    · cases h

theorem separated_le_whole (hl : l ≤ whole) : separated l ≤ whole :=
  mul_le_whole hl (kstar_le_whole (mul_le_whole (mark_le_whole (by decide)) hl))

/-- Whether everything in a language begins with certain lexemes. -/
def Begins (p : Lexeme → Prop) (l : Language Lexeme) : Prop := ∀ ls ∈ l, ∃ x ∈ ls.head?, p x

section Begins

variable {p : Lexeme → Prop}

theorem Begins.mul (hl : Begins p l) (m : Language Lexeme) : Begins p (l * m) := by
  intro ls hls
  obtain ⟨a, ha, b, -, rfl⟩ := mem_mul.1 hls
  obtain ⟨x, hx, hp⟩ := hl a ha
  exact ⟨x, by rw [List.head?_append, hx]; rfl, hp⟩

theorem Begins.add (hl : Begins p l) (hm : Begins p m) : Begins p (l + m) :=
  fun ls hls => hls.elim (hl ls) (hm ls)

theorem begins_name (h : ∀ content, p (.name content)) : Begins p name := by
  rintro _ ⟨content, rfl⟩
  exact ⟨_, rfl, h content⟩

theorem begins_column (h : ∀ content, p (.name content)) : Begins p column :=
  (begins_name h).add (((begins_name h).mul _).mul _)

theorem parenthesized_le_whole (hl : l ≤ whole) (hbegins : Begins (· ≠ .mark ')') l) :
    parenthesized l ≤ whole := by
  intro ls hls
  obtain ⟨_, hopened, _, rfl, rfl⟩ := mem_mul.1 hls
  obtain ⟨_, rfl, a, ha, rfl⟩ := mem_mul.1 hopened
  obtain ⟨x, hx, hclose⟩ := hbegins a ha
  have hopen : .mark '(' :: a ∈ whole := cons_mem_whole hx ⟨fun _ => hclose, by simp⟩ (hl ha)
  exact append_mem_whole hopen (mark_le_whole (by decide) rfl)

/-- Conditions begin with a parenthesis or with a test. -/
theorem conditions_whole {test : Language Lexeme} (htest : test ≤ whole) (hbegins : Begins p test)
    (hopen : p (.mark '(')) (hclose : ¬p (.mark ')')) :
    conditions test ≤ whole ∧ Begins p (conditions test) := by
  have hall : ∀ ls, Conditions test ls → ls ∈ whole ∧ ∃ x ∈ ls.head?, p x := by
    intro ls h
    induction h with
    | test h => exact ⟨htest h, hbegins _ h⟩
    | @group a h ih =>
      obtain ⟨hwhole, x, hx, hp⟩ := ih
      -- What stands behind the parenthesis does not close it.
      have hgroup : .mark '(' :: a ∈ whole :=
        cons_mem_whole hx ⟨fun _ hmark => hclose (hmark ▸ hp), by simp⟩ hwhole
      exact ⟨append_mem_whole hgroup (mark_le_whole (by decide) rfl), _, rfl, hopen⟩
    | @connected a b c ha hb iha ihb =>
      obtain ⟨hwhole, x, hx, hp⟩ := iha
      have hc : [c.text].map .word ∈ whole := keywords_le_whole (by cases c <;> decide) rfl
      refine ⟨append_mem_whole hwhole (append_mem_whole hc ihb.1), x, ?_, hp⟩
      rw [List.head?_append, hx]
      rfl
  exact ⟨fun ls h => (hall ls h).1, fun ls h => (hall ls h).2⟩

end Begins

theorem column_le_whole : column ≤ whole :=
  add_le name_le_whole
    (mul_le_whole (mul_le_whole name_le_whole (mark_le_whole (by decide))) name_le_whole)

theorem columnTest_le_whole : columnTest ≤ whole :=
  mul_le_whole (mul_le_whole column_le_whole operator_le_whole) column_le_whole

theorem rowTest_le_whole : rowTest ≤ whole := by
  have hcompare : column * operator * (parameter + column) ≤ whole :=
    mul_le_whole (mul_le_whole column_le_whole operator_le_whole)
      (add_le parameter_le_whole column_le_whole)
  have hnull : column * keywords ["IS", "NULL"] ≤ whole :=
    mul_le_whole column_le_whole (keywords_le_whole (by decide))
  have hlabel : Begins (· ≠ .mark ')') parameter := by
    rintro _ ⟨label, -, rfl⟩
    exact ⟨_, rfl, by simp⟩
  have hlist : column * keywords ["IN"] * parenthesized (separated parameter) ≤ whole :=
    mul_le_whole (mul_le_whole column_le_whole (keywords_le_whole (by decide)))
      (parenthesized_le_whole (separated_le_whole parameter_le_whole) (hlabel.mul _))
  have hnever : ({[.word "1", .operator "=", .word "0"]} : Language Lexeme) ≤ whole := by
    rintro _ rfl
    exact mem_whole_of_not_expects (by simp [Lexeme.Expects])
  exact add_le (add_le (add_le hcompare hnull) hlist) hnever

theorem rowConditions_le_whole : conditions rowTest ≤ whole := by
  have hcolumn := begins_column (p := (· ≠ .mark ')')) (by simp)
  have hnever : Begins (· ≠ .mark ')') ({[.word "1", .operator "=", .word "0"]}) := by
    rintro _ rfl
    exact ⟨_, rfl, by simp⟩
  have hbegins : Begins (· ≠ .mark ')') rowTest :=
    ((((hcolumn.mul _).mul _).add (hcolumn.mul _)).add ((hcolumn.mul _).mul _)).add hnever
  exact (conditions_whole rowTest_le_whole hbegins (by simp) (by simp)).1

theorem table_le_whole : table ≤ whole :=
  mul_le_whole name_le_whole
    (optional_le_whole (mul_le_whole (keywords_le_whole (by decide)) name_le_whole))

theorem relation_le_whole : relation ≤ whole := by
  have hshared : keywords ["USING"] * parenthesized (separated name) ≤ whole :=
    mul_le_whole (keywords_le_whole (by decide)) <|
      parenthesized_le_whole (separated_le_whole name_le_whole) ((begins_name (by simp)).mul _)
  have hon : keywords ["ON"] * conditions columnTest ≤ whole := by
    -- Conditions between two tables begin with what can follow the keyword.
    have hbegins : Begins (Follows (.word "ON")) columnTest :=
      ((begins_column fun content => ⟨by simp, fun _ => Or.inr ⟨content, rfl⟩⟩).mul _).mul _
    obtain ⟨hwhole, hhead⟩ := conditions_whole columnTest_le_whole hbegins
      ⟨by simp, fun _ => Or.inl rfl⟩ (by simp [Follows])
    intro ls hls
    obtain ⟨_, rfl, a, ha, rfl⟩ := mem_mul.1 hls
    obtain ⟨x, hx, hfollows⟩ := hhead a ha
    exact cons_mem_whole hx hfollows (hwhole ha)
  exact add_le hshared hon

theorem join_le_whole : join ≤ whole := by
  have hkinds : keywords ["LEFT", "JOIN"] + keywords ["RIGHT", "JOIN"] + keywords ["FULL", "JOIN"] +
      keywords ["INNER", "JOIN"] ≤ whole := by
    refine add_le (add_le (add_le ?_ ?_) ?_) ?_
    all_goals exact keywords_le_whole (by decide)
  exact mul_le_whole (mul_le_whole hkinds table_le_whole) relation_le_whole

theorem orderItem_le_whole : orderItem ≤ whole :=
  mul_le_whole column_le_whole <| optional_le_whole <|
    add_le (keywords_le_whole (by decide)) (keywords_le_whole (by decide))

theorem clause_le_whole {texts : List String} (htexts : "ON" ∉ texts) (hl : l ≤ whole) :
    optional (keywords texts * l) ≤ whole :=
  optional_le_whole (mul_le_whole (keywords_le_whole htexts) hl)

theorem choice_le_whole : choice ≤ whole := by
  refine mul_le_whole (mul_le_whole (mul_le_whole (mul_le_whole ?_ ?_) ?_) ?_) ?_
  · exact clause_le_whole (by decide) rowConditions_le_whole
  · exact clause_le_whole (by decide) (separated_le_whole column_le_whole)
  · exact clause_le_whole (by decide) rowConditions_le_whole
  · exact clause_le_whole (by decide) (separated_le_whole orderItem_le_whole)
  · refine clause_le_whole (by decide) (mul_le_whole number_le_whole ?_)
    exact clause_le_whole (by decide) number_le_whole

/-- In the clauses of a query everything that is expected follows. -/
theorem tail_le_whole : tail ≤ whole :=
  mul_le_whole (mul_le_whole (mul_le_whole (keywords_le_whole (by decide)) table_le_whole)
    (kstar_le_whole join_le_whole)) choice_le_whole

end Grammar

end BoundSql.Sql
