import BoundSql.Proofs.Sql.Formula
import BoundSql.Proofs.Sql.Grammar

/-!
# Phrases of tokens

The lexemes of names, lists and formulas are phrases of the grammar of queries. A formula is one as
soon as its tests are and no group in it is empty, and only then does everything follow in its
lexemes that is expected.

* `Formula.siblings_mem_conditions`: formulas under a connective are conditions if each of them is;
* `Formula.allFilled_of_chain`: no group is empty if everything follows that is expected.
-/

namespace BoundSql.Sql

open Computability Language Grammar

/-! ### Terminals -/

theorem name_mem (content : String) : [.name content] ∈ name := ⟨content, rfl⟩

theorem operator_mem (op : Comparison) : [.operator op.text] ∈ operator := ⟨op, rfl⟩

theorem keywords_mem (texts : List String) : texts.map .word ∈ keywords texts := rfl

theorem mark_mem (c : Char) : [.mark c] ∈ mark c := rfl

theorem Grammar.nil_mem_optional (l : Language Lexeme) : [] ∈ optional l := Or.inl nil_mem_one

theorem Reference.mem_column (r : Reference) : r.tokens.flatMap Token.lexemes ∈ column := by
  obtain ⟨_ | qualifier, content⟩ := r
  · exact Or.inl (name_mem content)
  · have hall := append_mem_mul (append_mem_mul (name_mem qualifier) (mark_mem '.')) <|
      name_mem content
    exact Or.inr hall

theorem Quoter.table_mem_name {q : Quoter} {content : String} {ts : Tokens}
    (h : q.table content = .ok ts) : ts.flatMap Token.lexemes ∈ name := by
  obtain ⟨rfl, -⟩ := Quoter.table_ok h
  exact name_mem _

/-- A table with its alias, if it has one. -/
theorem Quoter.naming_mem_table {q : Quoter} {content other : String} {ts us : Tokens} {α : Type}
    (aliasName : Option α) (hts : q.table content = .ok ts) (hus : q.table other = .ok us) :
    (ts ++ naming aliasName us).flatMap Token.lexemes ∈ Grammar.table := by
  rw [List.flatMap_append]
  refine append_mem_mul (Quoter.table_mem_name hts) ?_
  cases aliasName with
  | none => exact nil_mem_optional _
  | some _ => exact Or.inr (append_mem_mul (keywords_mem ["AS"]) (Quoter.table_mem_name hus))

section Lists

variable {item : Language Lexeme} {a b : List Lexeme} {parts : List Tokens} {w : Word}

theorem cons_mem_separated (ha : a ∈ item) (hb : b ∈ separated item) :
    a ++ .mark ',' :: b ∈ separated item := by
  obtain ⟨first, hfirst, others, hothers, rfl⟩ := mem_mul.1 hb
  have hcomma := append_mem_mul (mark_mem ',') hfirst
  have hle : mark ',' * item * (mark ',' * item)∗ ≤ (mark ',' * item)∗ := mul_kstar_le_kstar
  exact append_mem_mul ha (hle (append_mem_mul hcomma hothers))

/-- Parts with commas between them are a list if there are any. -/
theorem joinWith_mem_separated (hw : w.lexemes = [.mark ',']) (hne : parts ≠ [])
    (h : ∀ part ∈ parts, part.flatMap Token.lexemes ∈ item) :
    (joinWith w parts).flatMap Token.lexemes ∈ separated item := by
  induction parts with
  | nil => exact absurd rfl hne
  | cons part rest ih =>
    have hpart := h part (by simp)
    cases rest with
    | nil =>
      have hall := append_mem_mul hpart (nil_mem_kstar (mark ',' * item))
      rwa [List.append_nil] at hall
    | cons next rest =>
      have hrest := ih (List.cons_ne_nil _ _) fun p hp => h p (by simp [hp])
      have hjoin : (joinWith w (part :: next :: rest)).flatMap Token.lexemes =
          part.flatMap Token.lexemes ++
            .mark ',' :: (joinWith w (next :: rest)).flatMap Token.lexemes := by
        rw [joinWith, List.flatMap_append, List.flatMap_cons, Token.lexemes, hw]
        · rfl
        · exact List.cons_ne_nil _ _
      rw [hjoin]
      exact cons_mem_separated hpart hrest

/-- Parts with blanks between them have the lexemes of the parts. -/
theorem flatMap_lexemes_joinWith_space (parts : List Tokens) :
    (joinWith .space parts).flatMap Token.lexemes =
      parts.flatMap fun part => part.flatMap Token.lexemes := by
  induction parts with
  | nil => rfl
  | cons part rest ih =>
    cases rest with
    | nil => simp [joinWith]
    | cons next rest =>
      rw [List.flatMap_cons, ← ih]
      simp [joinWith]

end Lists

/-- Whether lexemes begin with a keyword, if there are any. -/
def Headed (ls : List Lexeme) : Prop := ∀ x ∈ ls.head?, ∃ text, x = .word text

theorem Headed.append {a b : List Lexeme} (ha : Headed a) (hb : Headed b) : Headed (a ++ b) := by
  cases a with
  | nil => exact hb
  | cons x a => exact ha

/-- Whether the parameters of a test are well-formed. -/
def Atom.Labelled : Atom → Prop
  | .compare _ _ (.parameter label) => IsLabel label.toList
  | .among _ first others => ∀ label ∈ first :: others, IsLabel label.toList
  | _ => True

theorem Atom.mem_rowTest (a : Atom) (h : a.Labelled) :
    a.tokens.flatMap Token.lexemes ∈ rowTest := by
  cases a with
  | compare left op right =>
    have hright : right.tokens.flatMap Token.lexemes ∈ parameter + column := by
      cases right with
      | parameter label => exact Or.inl ⟨label, h, rfl⟩
      | column r => exact Or.inr r.mem_column
    have hall := append_mem_mul (append_mem_mul left.mem_column (operator_mem op)) hright
    rw [List.append_assoc] at hall
    rw [tokens, List.flatMap_append]
    exact Or.inl (Or.inl (Or.inl hall))
  | isNull r =>
    have hall := append_mem_mul r.mem_column (keywords_mem ["IS", "NULL"])
    rw [tokens, List.flatMap_append]
    exact Or.inl (Or.inl (Or.inr hall))
  | among r first others =>
    have hlabels : ∀ part ∈ (first :: others).map fun label => [Token.parameter label],
        part.flatMap Token.lexemes ∈ parameter := by
      intro part hpart
      obtain ⟨label, hlabel, rfl⟩ := List.mem_map.1 hpart
      exact ⟨label, h label hlabel, rfl⟩
    have hlist := joinWith_mem_separated (w := .commaSpace) rfl (by simp) hlabels
    have hclosed := append_mem_mul (append_mem_mul (mark_mem '(') hlist) (mark_mem ')')
    have hall := append_mem_mul (append_mem_mul r.mem_column (keywords_mem ["IN"])) hclosed
    rw [List.append_assoc] at hall
    rw [tokens, List.flatMap_append, List.flatMap_append, List.flatMap_cons, List.append_assoc]
    exact Or.inl (Or.inr hall)
  | never => exact Or.inr rfl

theorem Atom.mem_columnTest (left : Reference) (op : Comparison) (right : Reference) :
    (compare left op (.column right)).tokens.flatMap Token.lexemes ∈ columnTest := by
  have hall :=
    append_mem_mul (append_mem_mul left.mem_column (operator_mem op)) right.mem_column
  rw [List.append_assoc] at hall
  rw [tokens, List.flatMap_append]
  exact hall

namespace Formula

variable {test : Language Lexeme} {parts : List Formula}

/-- Formulas under a connective are conditions if there are any and each of them is one. -/
theorem siblings_mem_conditions (c : Connective) (hne : parts ≠ [])
    (h : ∀ part ∈ parts, part.tokens.flatMap Token.lexemes ∈ conditions test) :
    (siblings c parts).flatMap Token.lexemes ∈ conditions test := by
  induction parts with
  | nil => exact absurd rfl hne
  | cons part rest ih =>
    cases rest with
    | nil => exact h part (by simp)
    | cons next rest =>
      have hrest := ih (List.cons_ne_nil _ _) fun p hp => h p (by simp [hp])
      rw [siblings, List.flatMap_append]
      · exact .connected c (h part (by simp)) hrest
      · exact List.cons_ne_nil _ _

/-- A group is a condition if its parts are conditions and there are any. -/
theorem group_mem_conditions (c : Connective) (hne : parts ≠ [])
    (h : ∀ part ∈ parts, part.tokens.flatMap Token.lexemes ∈ conditions test) :
    (group c parts).tokens.flatMap Token.lexemes ∈ conditions test := by
  rw [tokens, List.flatMap_append]
  exact .group (siblings_mem_conditions c hne h)

mutual

/-- No group of a formula is empty if everything follows in its lexemes that is expected. -/
theorem filled_of_chain : ∀ {f : Formula},
    (f.tokens.flatMap Token.lexemes).IsChain Follows → f.Filled
  | .atom _, _ => trivial
  | .group c parts, h => by
    rw [tokens, List.flatMap_append] at h
    have hinner := h.left_of_append.tail
    refine ⟨?_, allFilled_of_chain c hinner⟩
    rintro rfl
    -- Without parts the two parentheses touch.
    exact (List.isChain_cons_cons.1 h).1.1 rfl rfl

/-- No group of formulas is empty if everything follows in their lexemes that is expected. -/
theorem allFilled_of_chain (c : Connective) : ∀ {parts : List Formula},
    ((siblings c parts).flatMap Token.lexemes).IsChain Follows → AllFilled parts
  | [], _ => trivial
  | [part], h => ⟨filled_of_chain h, trivial⟩
  | part :: next :: rest, h => by
    rw [siblings, List.flatMap_append] at h
    · have hrest := h.right_of_append.tail
      exact ⟨filled_of_chain h.left_of_append, allFilled_of_chain c hrest⟩
    · exact List.cons_ne_nil _ _

end

end Formula

/-- The quoted names in the text of sound tokens are closed. -/
theorem Sound.names_closed {ts : Tokens} (h : Sound ts) :
    (lex (render ts).toList).filterMap Lexeme.name? = quotedNames (render ts) := by
  rw [lex_render h, quotedNames_render h, List.filterMap_flatMap, List.filterMap_eq_flatMap_toList]
  refine List.flatMap_congr fun t ht => ?_
  have hclean := h.clean t ht
  -- Of all tokens only names have lexemes that are names.
  cases t with
  | number digits =>
    refine List.filterMap_eq_nil_iff.2 fun x hx => ?_
    obtain ⟨_, _, rfl, -⟩ | ⟨_, rfl, -⟩ := mem_lex_of_isNumberChar hclean.chars hx <;> rfl
  | word w =>
    cases w with
    | join k => cases k <;> rfl
    | _ => rfl
  | name content => rfl
  | parameter label => rfl
  | verbatim chars => exact hclean.elim

end BoundSql.Sql
