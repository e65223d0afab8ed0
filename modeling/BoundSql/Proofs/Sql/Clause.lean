import BoundSql.Proofs.Sql.ReadBack

/-!
# Reading clauses of conditions

The conditions of a statement stand behind a keyword. They are read back if the keyword does not
occur before them and if what follows them does not go on with them.

* `Lacks`: the tokens in which a keyword does not occur; names and parameters have none;
* `readClause?_tokens`: formulas under a connective are read back from behind their keyword.
-/

namespace BoundSql.Sql

/-- A keyword does not occur in tokens. -/
def Lacks (keyword : String) (ts : Tokens) : Prop :=
  Lexeme.word keyword ∉ ts.flatMap Token.lexemes

namespace Lacks

variable {k : String} {t : Token} {a b ts : Tokens}

/-- A keyword does not occur in no tokens. -/
@[simp]
theorem nil : Lacks k [] := List.not_mem_nil

/-- A keyword does not occur in two parts if it occurs in neither of them. -/
theorem append (ha : Lacks k a) (hb : Lacks k b) : Lacks k (a ++ b) := by
  rw [Lacks, List.flatMap_append, List.mem_append, not_or]
  exact ⟨ha, hb⟩

/-- A keyword does not occur behind a token that does not hold it. -/
theorem cons (ht : Lexeme.word k ∉ t.lexemes) (h : Lacks k ts) : Lacks k (t :: ts) := by
  rw [Lacks, List.flatMap_cons, List.mem_append, not_or]
  exact ⟨ht, h⟩

/-- A keyword does not occur in parts with a word between each two of them. -/
theorem joinWith {w : Word} {parts : List Tokens} (hw : Lexeme.word k ∉ w.lexemes)
    (h : ∀ part ∈ parts, Lacks k part) : Lacks k (joinWith w parts) := by
  induction parts with
  | nil => exact nil
  | cons part rest ih =>
    have hpart := h part (by simp)
    have hrest := ih fun p hp => h p (by simp [hp])
    cases rest with
    | nil => exact hpart
    | cons next rest => exact hpart.append (hrest.cons hw)

end Lacks

/-- There are no keywords in a reference. -/
theorem Reference.lacks (r : Reference) (k : String) : Lacks k r.tokens := by
  rcases r with ⟨_ | qualifier, name⟩
  · simp [Lacks, tokens]
  · simp [Lacks, tokens]

/-- The keywords and numbers of formulas. -/
def Formula.keywords : List String := ["AND", "OR", "IS", "NULL", "IN", "1", "0"]

section Formulas

variable {k : String}

/-- There are only a few keywords in a condition without connectives. -/
theorem Atom.lacks (hk : k ∉ Formula.keywords) (a : Atom) : Lacks k a.tokens := by
  simp only [Formula.keywords, List.mem_cons, not_or] at hk
  cases a with
  | compare left op right =>
    have hright : Lacks k right.tokens := by
      cases right with
      | parameter label => simp [Lacks, Operand.tokens]
      | column r => exact r.lacks k
    exact (left.lacks k).append (hright.cons (by simp))
  | isNull column =>
    have htest : Lacks k [.word .isNull] := .cons (by simp [hk]) .nil
    exact (column.lacks k).append htest
  | among column first others =>
    have hlabels : ∀ part ∈ (first :: others).map fun label => [Token.parameter label],
        Lacks k part := by
      intro part hpart
      obtain ⟨label, -, rfl⟩ := List.mem_map.1 hpart
      simp [Lacks]
    have hlist := Lacks.joinWith (w := .commaSpace) (by simp) hlabels
    have hopen := hlist.cons (t := .word .among) (by simp [hk])
    have hclose : Lacks k [.word .closeParen] := .cons (by simp) .nil
    exact ((column.lacks k).append hopen).append hclose
  | never => exact .cons (by simp [hk]) .nil

/-- A keyword of a connective is one of formulas. -/
theorem word_not_mem_connect (hk : k ∉ Formula.keywords) (c : Connective) :
    Lexeme.word k ∉ (Word.connect c).lexemes := by
  simp only [Formula.keywords, List.mem_cons, not_or] at hk
  cases c <;> simp [Connective.text, hk]

mutual

/-- There are only a few keywords in a formula. -/
theorem Formula.lacks (hk : k ∉ keywords) : ∀ f : Formula, Lacks k f.tokens
  | .atom a => a.lacks hk
  | .group c parts => by
    have hopen := (Formula.lacks_siblings hk c parts).cons (t := .word .openParen) (by simp)
    have hclose : Lacks k [.word .closeParen] := .cons (by simp) .nil
    exact hopen.append hclose

/-- There are only a few keywords in formulas under a connective. -/
theorem Formula.lacks_siblings (hk : k ∉ keywords) (c : Connective) :
    ∀ parts : List Formula, Lacks k (siblings c parts)
  | [] => .nil
  | [part] => Formula.lacks hk part
  | part :: next :: rest => by
    have hrest := Formula.lacks_siblings hk c (next :: rest)
    exact (Formula.lacks hk part).append (hrest.cons (word_not_mem_connect hk c))

end

end Formulas

section Ends

variable {a b : List Lexeme}

/-- No lexemes do not go on with a formula. -/
@[simp]
theorem endsFormula_nil : EndsFormula [] := by
  simp [EndsFormula]

/-- The first of two parts does not go on with a formula, or it is empty and the second does not. -/
theorem EndsFormula.append (ha : EndsFormula a) (hb : EndsFormula b) : EndsFormula (a ++ b) := by
  cases a with
  | nil => exact hb
  | cons lexeme a => simpa [EndsFormula] using ha

/-- Whether a word does not go on with a formula before it. -/
def Word.endsFormula (w : Word) : Bool :=
  w.lexemes.head?.any (· ∉ [Lexeme.word "AND", .word "OR", .mark '.'])

/-- Tokens do not go on with a formula if their first one is a word that does not. -/
theorem Word.ends {w : Word} (hw : w.endsFormula) (ts : Tokens) :
    EndsFormula ((Token.word w :: ts).flatMap Token.lexemes) := by
  intro first hfirst
  -- Only the first lexeme counts, and it belongs to the word unless the word is a blank.
  cases hlexemes : w.lexemes with
  | nil =>
    rw [endsFormula, hlexemes] at hw
    cases hw
  | cons lexeme rest =>
    rw [endsFormula, hlexemes] at hw
    rw [List.flatMap_cons, Token.lexemes, hlexemes] at hfirst
    obtain rfl := Option.some.inj hfirst
    simpa using hw

end Ends

/-- Behind a keyword that does not occur before, the formula is read that begins there. -/
theorem readClause?_append {k : String} {before after : List Lexeme}
    (h : Lexeme.word k ∉ before) :
    readClause? k (before ++ .word k :: after) = readFormula? after := by
  -- Dropping stops at the keyword, since it does not occur before.
  have hdrop : (before ++ Lexeme.word k :: after).dropWhile (· ≠ .word k) = .word k :: after := by
    rw [List.dropWhile_append_of_pos fun lexeme hmem => ?_]
    · simp
    · simpa using ne_of_mem_of_not_mem hmem h
  rw [readClause?, hdrop, List.tail_cons]

/-- Formulas under a connective are read back from behind their keyword, without their groups of one
part. -/
theorem readClause?_tokens (c : Connective) {w : Word} {k : String} {a b : Tokens}
    {parts : List Formula} (hw : w.lexemes = [.word k]) (ha : Lacks k a)
    (hne : parts ≠ []) (hfilled : Formula.AllFilled parts)
    (hb : EndsFormula (b.flatMap Token.lexemes))
    (hsound : Sound (a ++ Token.word w :: Formula.siblings c parts ++ b)) :
    readClause? k
        (lex (render (a ++ Token.word w :: Formula.siblings c parts ++ b)).toList) =
      some ((Formula.group c parts).collapse, b.flatMap Token.lexemes) := by
  rw [lex_render hsound, List.flatMap_append, List.flatMap_append, List.flatMap_cons,
    Token.lexemes, hw, List.append_assoc, List.append_assoc, List.singleton_append,
    readClause?_append ha]
  exact readFormula?_siblings c hne hfilled hb

end BoundSql.Sql
