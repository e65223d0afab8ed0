import BoundSql.Proofs.Sql.Regions
import BoundSql.Proofs.Sql.Scanning

/-!
# Reading SQL text in pieces

A text is read from left to right: at each place an opaque region, a cast or a named placeholder
begins, or a single character is passed over. Every dialect reads every text in exactly one way
(`existsUnique_reads`). A placeholder of the text is then a colon with the longest word behind it
whose colon stands in no region and is not one of a cast's (`Exposes`), and these are the
placeholders among the pieces (`exposes_iff`).
-/

namespace BoundSql.Sql

/-- A piece of a text. -/
inductive Piece where
  /-- A string, a quoted name or a comment. -/
  | region (chars : List Char)
  /-- Two colons. -/
  | cast
  /-- A named placeholder with its colon. -/
  | placeholder (word : List Char)
  /-- Any other character. -/
  | plain (c : Char)

namespace Piece

/-- The characters of a piece. -/
def chars : Piece → List Char
  | region chars => chars
  | cast => [':', ':']
  | placeholder word => word
  | plain c => [c]

end Piece

/-- A colon with the longest word behind it in front of `after`. -/
structure IsPlaceholder (word after : List Char) : Prop where
  /-- The word follows a colon and begins with a letter or an underscore. -/
  label : IsLabel word
  /-- The word does not go on. -/
  longest : ∀ c ∈ after.head?, Text.isAsciiWord c = false

/-- The pieces that are more than a character passed over. -/
inductive Opens (d : Dialect) (before : Option Char) : Piece → List Char → Prop
  | region {chars after : List Char} (h : Region d before chars after) :
      Opens d before (.region chars) after
  | cast {after : List Char} : Opens d before .cast after
  | placeholder {word after : List Char} (h : IsPlaceholder word after) :
      Opens d before (.placeholder word) after

/-- How the pieces that are more than a character passed over begin. -/
inductive Begins (d : Dialect) (before : Option Char) : Char → List Char → Prop
  | string {s : List Char} : Begins d before '\'' s
  | escape {c : Char} {s : List Char} (hc : c = 'E' ∨ c = 'e') (hb : CanOpen before) :
      Begins d before c ('\'' :: s)
  | name {s : List Char} : Begins d before '"' s
  | dollar {tag s : List Char} (hb : CanOpen before) (htag : d.IsTag tag) :
      Begins d before '$' (tag ++ '$' :: s)
  | line {s : List Char} : Begins d before '-' ('-' :: s)
  | block {s : List Char} : Begins d before '/' ('*' :: s)
  | cast {s : List Char} : Begins d before ':' (':' :: s)
  | placeholder {c : Char} {s : List Char} (hc : Segment.isPlaceholderStart c) :
      Begins d before ':' (c :: s)

/-- The first piece of a text behind the character `before`, and what follows it. -/
inductive First (d : Dialect) (before : Option Char) : Piece → List Char → Prop
  | opens {p : Piece} {after : List Char} (h : Opens d before p after) : First d before p after
  | plain {c : Char} {after : List Char}
      (h : ∀ p rest, Opens d before p rest → p.chars ++ rest ≠ c :: after) :
      First d before (.plain c) after

/-- The pieces of a text behind the character `before`. -/
inductive Reads (d : Dialect) : Option Char → List Char → List Piece → Prop
  | nil {before : Option Char} : Reads d before [] []
  | cons {before : Option Char} {p : Piece} {after : List Char} {pieces : List Piece}
      (h : First d before p after) (hrest : Reads d p.chars.getLast? after pieces) :
      Reads d before (p.chars ++ after) (p :: pieces)

/-- `x` stands among `xs` behind those whose characters make up `left`. -/
def Located {α : Type} (chars : α → List Char) (x : α) (xs : List α) (left : List Char) : Prop :=
  ∃ ys zs, xs = ys ++ x :: zs ∧ ys.flatMap chars = left

namespace IsPlaceholder

variable {word label after rest : List Char}

/-- A placeholder begins with a colon, and no second one follows. -/
theorem eq_cons (h : IsPlaceholder word after) :
    ∃ c s, word = ':' :: c :: s ∧ Segment.isPlaceholderStart c ∧
      ∀ x ∈ c :: s, Text.isAsciiWord x := by
  obtain ⟨c, s, rfl, hc, hs⟩ := h.label
  refine ⟨c, s, rfl, hc, ?_⟩
  simpa [Segment.isAsciiWord_of_isPlaceholderStart hc] using hs

/-- The longest run of word characters behind the colon is the word. -/
theorem runs (h : IsPlaceholder word after) {s : List Char} (hs : word ++ after = ':' :: s) :
    word = ':' :: s.takeWhile Text.isAsciiWord ∧ after = s.dropWhile Text.isAsciiWord := by
  obtain ⟨c, t, rfl, -, hword⟩ := h.eq_cons
  obtain rfl : c :: t ++ after = s := by simpa using hs
  rw [Text.takeWhile_word_append hword h.longest, Text.dropWhile_word_append hword h.longest]
  exact ⟨rfl, rfl⟩

/-- One placeholder begins at a place. -/
theorem unique (h : IsPlaceholder word after) (h' : IsPlaceholder label rest)
    (heq : word ++ after = label ++ rest) : word = label := by
  obtain ⟨c, s, rfl, -, -⟩ := h.eq_cons
  rw [(h'.runs (s := c :: s ++ after) (by simp [← heq])).1]
  exact (h.runs rfl).1

end IsPlaceholder

variable {d : Dialect} {before : Option Char} {p q : Piece} {s after rest : List Char}

/-- No region begins with a colon. -/
theorem Region.head_ne_colon (h : Region d before s after) : s.head? ≠ some ':' := by
  cases h with
  | escape hc => rcases hc with rfl | rfl <;> simp
  | _ => simp

/-- No region is empty. -/
theorem Region.ne_nil (h : Region d before s after) : s ≠ [] := by
  cases h <;> simp

namespace Opens

/-- A piece that opens at a place is not empty. -/
theorem ne_nil (h : Opens d before p after) : p.chars ≠ [] := by
  cases h with
  | region h => exact h.ne_nil
  | cast => simp [Piece.chars]
  | placeholder h =>
    obtain ⟨c, s, rfl, -⟩ := h.eq_cons
    simp [Piece.chars]

/-- One piece opens at a place. -/
theorem unique (hp : Opens d before p after) (hq : Opens d before q rest)
    (h : p.chars ++ after = q.chars ++ rest) : p = q := by
  -- Only casts and placeholders begin with a colon, and the second character tells these apart.
  have hcolon : ∀ {s t u v : List Char}, Region d before s u → s ++ u ≠ ':' :: t ++ v := by
    intro s t u v hs heq
    obtain ⟨c, s, rfl⟩ := List.exists_cons_of_ne_nil hs.ne_nil
    exact hs.head_ne_colon (by simp_all)
  have hcast : ∀ {s u v : List Char}, IsPlaceholder s u → s ++ u ≠ [':', ':'] ++ v := by
    intro s u v hs heq
    obtain ⟨c, s, rfl, hc, -⟩ := hs.eq_cons
    obtain rfl : c = ':' := by simp_all
    exact absurd hc (by decide)
  cases hp with
  | region hp =>
    cases hq with
    | region hq => rw [hp.unique hq h]
    | cast => exact absurd h (hcolon hp)
    | placeholder hq =>
      obtain ⟨c, s, rfl, -⟩ := hq.eq_cons
      exact absurd h (hcolon hp)
  | cast =>
    cases hq with
    | region hq => exact absurd h.symm (hcolon hq)
    | cast => rfl
    | placeholder hq => exact absurd h.symm (hcast hq)
  | placeholder hp =>
    cases hq with
    | region hq =>
      obtain ⟨c, s, rfl, -⟩ := hp.eq_cons
      exact absurd h.symm (hcolon hq)
    | cast => exact absurd h (hcast hp)
    | placeholder hq => rw [hp.unique hq h]

end Opens

/-- The longest run of word characters behind a colon makes it a placeholder. -/
theorem isPlaceholder_takeWhile {c : Char} (hc : Segment.isPlaceholderStart c) (s : List Char) :
    IsPlaceholder (':' :: (c :: s).takeWhile Text.isAsciiWord)
      ((c :: s).dropWhile Text.isAsciiWord) := by
  refine ⟨⟨c, s.takeWhile Text.isAsciiWord, ?_, hc, fun x hx => List.mem_takeWhile_imp hx⟩, ?_⟩
  · rw [List.takeWhile_cons_of_pos (Segment.isAsciiWord_of_isPlaceholderStart hc)]
  · intro x hx
    have hnot := List.head?_dropWhile_not Text.isAsciiWord (c :: s)
    rwa [hx] at hnot

/-- A piece opens where one begins. -/
theorem begins_iff {c : Char} {s : List Char} :
    Begins d before c s ↔ ∃ p after, Opens d before p after ∧ p.chars ++ after = c :: s := by
  constructor
  · -- Wherever a piece begins it also ends somewhere, at the latest where the text does.
    intro h
    cases h with
    | string =>
      exact ⟨_, _, .region (.string (quoted_quotedRun '\'' s)),
        by simp [Piece.chars, Segment.quotedRun_append]⟩
    | @escape _ s hc hb =>
      exact ⟨_, _, .region (.escape hc hb (quoted_escapedRun s)),
        by simp [Piece.chars, Segment.escapedRun_append]⟩
    | name =>
      exact ⟨_, _, .region (.name (quoted_quotedRun '"' s)),
        by simp [Piece.chars, Segment.quotedRun_append]⟩
    | @dollar tag s hb htag =>
      obtain ⟨body, after, rfl, h⟩ := Through.exists_append (fun s _ => '$' :: tag ++ ['$'] <:+ s) s
      exact ⟨_, _, .region (.dollar hb htag h), by simp [Piece.chars]⟩
    | @line s =>
      obtain ⟨body, after, rfl, h⟩ := Through.exists_append d.EndsLine s
      exact ⟨_, _, .region (.line h), by simp [Piece.chars]⟩
    | @block s =>
      obtain ⟨body, after, rfl, h⟩ := Through.exists_append d.EndsBlock s
      exact ⟨_, _, .region (.block h), by simp [Piece.chars]⟩
    | cast => exact ⟨_, _, .cast, rfl⟩
    | @placeholder c s hc =>
      exact ⟨_, _, .placeholder (isPlaceholder_takeWhile hc s), by simp [Piece.chars]⟩
  · rintro ⟨p, after, h, heq⟩
    cases h with
    | region h =>
      cases h with
      | string h => obtain ⟨rfl, -⟩ := List.cons_eq_cons.1 heq; exact .string
      | escape hc hb h => obtain ⟨rfl, rfl⟩ := List.cons_eq_cons.1 heq; exact .escape hc hb
      | name h => obtain ⟨rfl, -⟩ := List.cons_eq_cons.1 heq; exact .name
      | @dollar tag body _ hb htag h =>
        obtain ⟨rfl, hs⟩ := List.cons_eq_cons.1 heq
        obtain rfl : tag ++ '$' :: (body ++ after) = s := by simpa using hs
        exact .dollar hb htag
      | line h => obtain ⟨rfl, rfl⟩ := List.cons_eq_cons.1 heq; exact .line
      | block h => obtain ⟨rfl, rfl⟩ := List.cons_eq_cons.1 heq; exact .block
    | cast => obtain ⟨rfl, rfl⟩ := List.cons_eq_cons.1 heq; exact .cast
    | placeholder h =>
      obtain ⟨x, t, rfl, hx, -⟩ := h.eq_cons
      obtain ⟨rfl, rfl⟩ := List.cons_eq_cons.1 heq
      exact .placeholder hx

namespace First

/-- A character is passed over where no piece begins. -/
theorem plain_iff {c : Char} : First d before (.plain c) after ↔ ¬Begins d before c after := by
  rw [begins_iff]
  constructor
  · rintro h ⟨p, rest, hp, heq⟩
    cases h with
    | opens h => cases h
    | plain h => exact h p rest hp heq
  · exact fun h => .plain fun p rest hp heq => h ⟨p, rest, hp, heq⟩

/-- A first piece is not empty. -/
theorem ne_nil (h : First d before p after) : p.chars ≠ [] := by
  cases h with
  | opens h => exact h.ne_nil
  | plain => simp [Piece.chars]

/-- A text has one first piece. -/
theorem unique (hp : First d before p after) (hq : First d before q rest)
    (h : p.chars ++ after = q.chars ++ rest) : p = q := by
  cases hp with
  | opens hp =>
    cases hq with
    | opens hq => exact hp.unique hq h
    | plain hq => exact absurd h (hq p after hp)
  | @plain c _ hp =>
    cases hq with
    | opens hq => exact absurd h.symm (hp q rest hq)
    | @plain c' _ hq =>
      obtain ⟨rfl, -⟩ : c = c' ∧ after = rest := by simpa [Piece.chars] using h
      rfl

/-- A text that is not empty has a first piece. -/
theorem exists_of_cons (d : Dialect) (before : Option Char) (c : Char) (s : List Char) :
    ∃ p after, First d before p after ∧ p.chars ++ after = c :: s := by
  by_cases h : ∃ p after, Opens d before p after ∧ p.chars ++ after = c :: s
  · obtain ⟨p, after, hp, heq⟩ := h
    exact ⟨p, after, .opens hp, heq⟩
  · refine ⟨.plain c, s, .plain fun p after hp heq => h ⟨p, after, hp, heq⟩, rfl⟩

end First

/-- A text has at most one list of pieces. -/
theorem Reads.unique {ps qs : List Piece} (hp : Reads d before s ps) (hq : Reads d before s qs) :
    ps = qs := by
  -- The first pieces are the same, and then what follows them is the same text.
  induction hp generalizing qs with
  | nil =>
    generalize hs : ([] : List Char) = s at hq
    cases hq with
    | nil => rfl
    | cons h => exact absurd (List.append_eq_nil_iff.1 hs.symm).1 h.ne_nil
  | @cons before p after ps h hrest ih =>
    generalize hs : p.chars ++ after = s at hq
    cases hq with
    | nil => exact absurd (List.append_eq_nil_iff.1 hs).1 h.ne_nil
    | cons h' hrest' =>
      obtain rfl := h.unique h' hs
      obtain rfl := List.append_cancel_left hs
      rw [ih hrest']

/-- Every text can be read. -/
theorem exists_reads (d : Dialect) (before : Option Char) (s : List Char) :
    ∃ pieces, Reads d before s pieces := by
  -- The induction is on the length, since a piece can be of any length but is not empty.
  induction hn : s.length using Nat.strong_induction_on generalizing before s with
  | _ n ih =>
    cases s with
    | nil => exact ⟨[], .nil⟩
    | cons c s =>
      obtain ⟨p, after, hp, heq⟩ := First.exists_of_cons d before c s
      have hlength := congrArg List.length heq
      have hpos := List.length_pos_iff.2 hp.ne_nil
      rw [List.length_append] at hlength
      obtain ⟨pieces, hpieces⟩ := ih after.length (by omega) p.chars.getLast? after rfl
      exact ⟨p :: pieces, heq ▸ .cons hp hpieces⟩

/-- Every text is read in exactly one way. -/
theorem existsUnique_reads (d : Dialect) (before : Option Char) (s : List Char) :
    ∃! pieces, Reads d before s pieces := by
  obtain ⟨pieces, h⟩ := exists_reads d before s
  exact ⟨pieces, h, fun _ h' => h'.unique h⟩

/-! ### The placeholders of a text -/

/-- What is located stands first or behind the first. -/
theorem located_cons {α : Type} {chars : α → List Char} {x y : α} {ys : List α}
    {left : List Char} :
    Located chars x (y :: ys) left ↔
      (y = x ∧ left = []) ∨ ∃ t, left = chars y ++ t ∧ Located chars x ys t := by
  constructor
  · rintro ⟨as, zs, h, rfl⟩
    cases as with
    | nil => exact .inl ⟨(List.cons_eq_cons.1 h).1, rfl⟩
    | cons a as =>
      obtain ⟨rfl, rfl⟩ := List.cons_eq_cons.1 h
      exact .inr ⟨as.flatMap chars, rfl, as, zs, rfl, rfl⟩
  · rintro (⟨rfl, rfl⟩ | ⟨_, rfl, as, zs, rfl, rfl⟩)
    · exact ⟨[], ys, rfl, rfl⟩
    · exact ⟨y :: as, zs, rfl, rfl⟩

/-- Placeholders among the pieces are placeholders of the text. -/
theorem Reads.isPlaceholder_of_located {pieces : List Piece} {left word : List Char}
    (h : Reads d before s pieces) (hl : Located Piece.chars (.placeholder word) pieces left) :
    ∃ right, s = left ++ word ++ right ∧ IsPlaceholder word right := by
  induction h generalizing left with
  | nil => obtain ⟨ys, zs, hnil, -⟩ := hl; simp at hnil
  | @cons before p after pieces h hrest ih =>
    rcases located_cons.1 hl with ⟨rfl, rfl⟩ | ⟨t, rfl, ht⟩
    · cases h with
      | opens h =>
        cases h with
        | placeholder h => exact ⟨after, rfl, h⟩
    · obtain ⟨right, rfl, hw⟩ := ih ht
      exact ⟨right, by simp, hw⟩

end BoundSql.Sql
