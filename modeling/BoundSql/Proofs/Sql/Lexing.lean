import BoundSql.Proofs.Sql.Scanning

/-!
# Lexemes of conditions

The text of a condition as a database reads it: names in quotation marks, parameters, words,
operators and marks, with blanks between them. Words and operators are longest runs of their
characters, so that two tokens whose texts touch could be read as one. Sound tokens are not: their
lexemes are those of each token alone (`lex_render`).
-/

namespace BoundSql.Sql

/-- A unit of the text of a condition. -/
inductive Lexeme where
  /-- A quoted name, by its content. -/
  | name (content : String)
  /-- A named parameter, with its colon. -/
  | parameter (label : String)
  /-- A keyword or a number. -/
  | word (text : String)
  /-- An operator. -/
  | operator (text : String)
  /-- A parenthesis, a comma, a point or any other single character. -/
  | mark (c : Char)
  deriving DecidableEq, Repr

/-- The characters of operators. -/
def isOperatorChar (c : Char) : Bool := c ∈ ['<', '>', '=', '!']

/-- The lexemes of a text. -/
def lex : List Char → List Lexeme
  | [] => []
  | c :: rest =>
    if c = '"' then
      .name (String.ofList (Segment.quotedRun '"' rest).1.dropLast) ::
        lex (Segment.quotedRun '"' rest).2
    else if c = ':' then
      .parameter (String.ofList (c :: rest.takeWhile Text.isAsciiWord)) ::
        lex (rest.dropWhile Text.isAsciiWord)
    else if Text.isAsciiWord c then
      .word (String.ofList (c :: rest.takeWhile Text.isAsciiWord)) ::
        lex (rest.dropWhile Text.isAsciiWord)
    else if isOperatorChar c then
      .operator (String.ofList (c :: rest.takeWhile isOperatorChar)) ::
        lex (rest.dropWhile isOperatorChar)
    else if c = ' ' then lex rest
    else .mark c :: lex rest
  termination_by s => s.length
  decreasing_by
    · have h := congrArg List.length (Segment.quotedRun_append '"' rest)
      simp only [List.length_append] at h
      simp only [List.length_cons]
      omega
    · exact Nat.lt_succ_of_le (List.dropWhile_suffix _).length_le
    · exact Nat.lt_succ_of_le (List.dropWhile_suffix _).length_le
    · exact Nat.lt_succ_of_le (List.dropWhile_suffix _).length_le
    · simp
    · simp

/-- A text without characters has no lexemes. -/
@[simp]
theorem lex_nil : lex [] = [] := by
  rw [lex]

/-- Two texts of which the second does not go on with a word or an operator of the first. -/
def Parted (s rest : List Char) : Prop :=
  ∀ x ∈ s.getLast?, ∀ y ∈ rest.head?,
    ¬(Text.isAsciiWord x ∧ Text.isAsciiWord y) ∧ ¬(isOperatorChar x ∧ isOperatorChar y)

namespace Parted

variable {c : Char} {s t rest : List Char}

/-- What is left of a text at its end is parted from what the text is parted from. -/
theorem of_suffix (h : Parted s rest) (ht : t <:+ s) : Parted t rest := by
  obtain ⟨before, rfl⟩ := ht
  intro x hx
  exact h x (by rw [List.getLast?_append, hx]; rfl)

/-- A run of word characters or of operator characters does not go on in the second text. -/
theorem stops {p : Char → Bool} (hp : p = Text.isAsciiWord ∨ p = isOperatorChar)
    (h : Parted (c :: s) rest) (hc : p c) (hs : ∀ x ∈ s, p x) : ∀ y ∈ rest.head?, p y = false := by
  -- The last character of the first text is one of the run.
  intro y hy
  obtain ⟨x, hx⟩ : ∃ x, (c :: s).getLast? = some x := ⟨_, List.getLast?_cons⟩
  have hpx : p x := by
    rcases List.mem_cons.1 (List.mem_of_getLast? hx) with rfl | hmem
    · exact hc
    · exact hs x hmem
  obtain ⟨hword, hoperator⟩ := h x hx y hy
  rw [Bool.eq_false_iff]
  intro hpy
  rcases hp with rfl | rfl
  · exact hword ⟨hpx, hpy⟩
  · exact hoperator ⟨hpx, hpy⟩

end Parted

/-- Text without names and parameters before other text from which it is parted. -/
theorem lex_append {s rest : List Char} (hplain : ∀ c ∈ s, c ≠ '"' ∧ c ≠ ':')
    (hparted : Parted s rest) : lex (s ++ rest) = lex s ++ lex rest := by
  -- The induction follows the lexer on the first text; names and parameters do not occur there.
  fun_induction lex s with
  | case1 => rfl
  | case2 s => exact absurd rfl (hplain '"' (by simp)).1
  | case3 s h => exact absurd rfl (hplain ':' (by simp)).2
  | case4 c s h h' hword ih =>
    have hrun := Text.run_append (hparted.stops (.inl rfl) hword)
    have hsuffix := (List.dropWhile_suffix Text.isAsciiWord).trans (List.suffix_cons c s)
    have hrest := ih (fun x hx => hplain x (hsuffix.mem hx)) (hparted.of_suffix hsuffix)
    rw [List.cons_append, lex, if_neg h, if_neg h', if_pos hword, hrun.1, hrun.2, hrest]
    rfl
  | case5 c s h h' hword hoperator ih =>
    have hrun := Text.run_append (hparted.stops (.inr rfl) hoperator)
    have hsuffix := (List.dropWhile_suffix isOperatorChar).trans (List.suffix_cons c s)
    have hrest := ih (fun x hx => hplain x (hsuffix.mem hx)) (hparted.of_suffix hsuffix)
    rw [List.cons_append, lex, if_neg h, if_neg h', if_neg hword, if_pos hoperator, hrun.1, hrun.2,
      hrest]
    rfl
  | case6 s h h' hword hoperator ih =>
    have hsuffix := List.suffix_cons ' ' s
    have hrest := ih (fun x hx => hplain x (hsuffix.mem hx)) (hparted.of_suffix hsuffix)
    rw [List.cons_append, lex, if_neg h, if_neg h', if_neg hword, if_neg hoperator, if_pos rfl,
      hrest]
  | case7 c s h h' hword hoperator hblank ih =>
    have hsuffix := List.suffix_cons c s
    have hrest := ih (fun x hx => hplain x (hsuffix.mem hx)) (hparted.of_suffix hsuffix)
    rw [List.cons_append, lex, if_neg h, if_neg h', if_neg hword, if_neg hoperator, if_neg hblank,
      hrest]
    rfl

/-- A quoted name is one lexeme. -/
theorem lex_name {content rest : List Char} (h : '"' ∉ content) (hrest : rest.head? ≠ some '"') :
    lex ('"' :: content ++ '"' :: rest) = .name (String.ofList content) :: lex rest := by
  rw [List.cons_append, lex, if_pos rfl, Segment.quotedRun_of_not_mem h hrest, List.dropLast_concat]

/-- A parameter is one lexeme if no letter or digit follows it. -/
theorem lex_label {s rest : List Char} (h : IsLabel s)
    (hrest : ∀ c ∈ rest.head?, Text.isAsciiWord c = false) :
    lex (s ++ rest) = .parameter (String.ofList s) :: lex rest := by
  obtain ⟨c, word, rfl, hc, hword⟩ := h
  have hall : ∀ x ∈ c :: word, Text.isAsciiWord x := by
    simpa [Segment.isAsciiWord_of_isPlaceholderStart hc] using hword
  rw [List.cons_append, lex, if_neg (by decide), if_pos rfl, Text.takeWhile_word_append hall hrest,
    Text.dropWhile_word_append hall hrest]

/-- The lexemes of a fixed word. -/
@[simp]
def Word.lexemes : Word → List Lexeme
  | select => [.word "SELECT"]
  | source => [.word "FROM"]
  | asAlias => [.word "AS"]
  | insertInto => [.word "INSERT", .word "INTO"]
  | values => [.word "VALUES"]
  | update => [.word "UPDATE"]
  | assignments => [.word "SET"]
  | deleteFrom => [.word "DELETE", .word "FROM"]
  | conditions => [.word "WHERE"]
  | groupBy => [.word "GROUP", .word "BY"]
  | having => [.word "HAVING"]
  | orderBy => [.word "ORDER", .word "BY"]
  | limit => [.word "LIMIT"]
  | offset => [.word "OFFSET"]
  | isNull => [.word "IS", .word "NULL"]
  | null => [.word "NULL"]
  | never => [.word "1", .operator "=", .word "0"]
  | among => [.word "IN", .mark '(']
  | wildcard => [.mark '*']
  | openParen => [.mark '(']
  | closeParen => [.mark ')']
  | dot => [.mark '.']
  | comma => [.mark ',']
  | commaSpace => [.mark ',']
  | space => []
  | compare c => [.operator c.text]
  | connect c => [.word c.text]
  | direction d => [.word d.text]
  | join .left => [.word "LEFT", .word "JOIN"]
  | join .right => [.word "RIGHT", .word "JOIN"]
  | join .full => [.word "FULL", .word "JOIN"]
  | join .inner => [.word "INNER", .word "JOIN"]
  | shared => [.word "USING", .mark '(']
  | on => [.word "ON"]

/-- The lexemes of a fixed word are those of its text. -/
theorem lex_word (w : Word) : lex w.text.toList = w.lexemes := by
  cases w with
  | compare c => cases c <;> decide +kernel
  | connect c => cases c <;> decide +kernel
  | direction d => cases d <;> decide +kernel
  | join k => cases k <;> decide +kernel
  | _ => decide +kernel

/-- The lexemes of a token alone. -/
@[simp]
def Token.lexemes : Token → List Lexeme
  | word w => w.lexemes
  | name content => [.name content]
  | parameter label => [.parameter label]
  | number digits => lex digits.toList
  | verbatim chars => lex chars.toList

/-- No word ends with an operator. -/
theorem Word.last_not_operator (w : Word) :
    w.text.toList.getLast?.any isOperatorChar = false := by
  cases w with
  | compare c => cases c <;> decide
  | connect c => cases c <;> decide
  | direction d => cases d <;> decide
  | join k => cases k <;> decide
  | _ => decide

/-- Plain characters begin no name and no parameter. -/
theorem ne_of_isPlain {c : Char} (h : Segment.isPlain c) : c ≠ '"' ∧ c ≠ ':' := by
  refine ⟨?_, ?_⟩
  · rintro rfl
    exact absurd h (by decide)
  · rintro rfl
    exact absurd h (by decide)

/-- Text before what can stand behind any token is parted from it. -/
theorem Led.parted {ts : Tokens} (h : Led ts) (s : List Char) : Parted s (render ts).toList := by
  have hmarks : ∀ y ∈ [' ', ')', '.', ','], ¬isOperatorChar y := List.any_eq_false.1 (by decide)
  intro x _ y hy
  have hword := h.not_word_of_head? y hy
  have hoperator := hmarks y (h.mem_of_head? y hy)
  simp [hword, hoperator]

/-- A word with anything behind it that can stand there is parted from it. -/
theorem Word.parted {w : Word} {ts : Tokens} (h : w.opens = false → Led ts) :
    Parted w.text.toList (render ts).toList := by
  cases hopens : w.opens with
  | false => exact (h hopens).parted _
  | true =>
    intro x hx y _
    have hword : Text.isAsciiWord x = false := by
      rw [opens, hx] at hopens
      simpa using hopens
    have hoperator : isOperatorChar x = false := by
      have hlast := w.last_not_operator
      rwa [hx] at hlast
    simp [hword, hoperator]

/-- The lexemes of sound tokens are those of each token alone. -/
theorem lex_render {ts : Tokens} (h : Sound ts) :
    lex (render ts).toList = ts.flatMap Token.lexemes := by
  -- The induction takes one token after the other off the text.
  induction ts with
  | nil => exact lex_nil
  | cons t ts ih =>
    have hhead := (List.isChain_cons.1 h.apart).1
    have hts := h.of_cons
    have ht := h.clean t (by simp)
    -- All but words need a separating word behind them.
    have hled : t.opens = false → Led ts := fun hopens t' ht' =>
      (hhead t' ht').resolve_left (by simp [hopens])
    rw [toList_render_cons, List.flatMap_cons, ← ih hts]
    cases t with
    | word w =>
      rw [Token.text, Token.lexemes, ← lex_word w]
      refine lex_append (fun c hc => ?_) (Word.parted hled)
      exact ne_of_isPlain (w.plain.1 c hc)
    | name content =>
      have hstop : (render ts).toList.head? ≠ some '"' := fun heq =>
        absurd ((hled rfl).mem_of_head? '"' heq) (by decide)
      have htext : (Token.name content).text.toList ++ (render ts).toList =
          '"' :: content.toList ++ '"' :: (render ts).toList := by
        simp [Token.text]
      rw [htext, lex_name ht hstop, String.ofList_toList]
      rfl
    | parameter label =>
      rw [Token.text, lex_label ht (hled rfl).not_word_of_head?, String.ofList_toList]
      rfl
    | number digits =>
      refine lex_append (fun c hc => ?_) ((hled rfl).parted _)
      exact ne_of_isPlain (isPlain_of_isNumberChar (ht.chars c hc))
    | verbatim chars => exact ht.elim

end BoundSql.Sql
