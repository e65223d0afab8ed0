import BoundSql.Proofs.Sql.Capture

/-!
# Numbers that stand apart

The number that is made for a placeholder is read as a parameter unless a word stands directly
before its dollar, which then goes on with the word. Since numbers are made for placeholders
wherever they stand, a number stands apart exactly where its placeholder did (`canOpen_mark_iff`).

Numbering a second time finds no placeholders and changes nothing, except where the dollar of a
number can close a tag that the text before the placeholder has opened (`BehindTag`). Such a tag
makes text of what has been outside of strings and shows what has been inside of them.

* `Reads.numbered`: a numbered text is read as the text before, with its numbers passed over;
* `positional_positional`: that a numbered text has no placeholders;
* `positional_standing_iff`: when all numbers stand apart.
-/

namespace BoundSql.Sql

/-- The characters of a piece when the placeholders are numbered from one by their names. -/
def Piece.numbered (names : List String) : Piece → List Char
  | placeholder word => '$' :: Nat.toDigits 10 (names.idxOf (String.ofList word) + 1)
  | piece => piece.chars

/-- The pieces of a piece when the placeholders are numbered: the characters of a number are passed
over. -/
def Piece.passed (names : List String) : Piece → List Piece
  | placeholder word => ((placeholder word).numbered names).map plain
  | piece => [piece]

/-- Whether a text that stands behind the character `before` ends with a dollar that can open a
string and further characters of a tag. -/
def BehindTag (before : Option Char) (left : List Char) : Prop :=
  ∃ a tag, left = a ++ '$' :: tag ∧ CanOpen (a.getLast?.or before) ∧ Dialect.flat.IsTag tag

/-- A text begins like another one, or with a dollar in the place of a colon. -/
def BeginsLike (s o : List Char) : Prop :=
  o.head? = s.head? ∨ s.head? = some ':' ∧ o.head? = some '$'

variable {before before' : Option Char} {s after after' : List Char} {pieces : List Piece}
  {names : List String}

/-- Only a placeholder has other characters when it is numbered. -/
theorem Piece.numbered_of_ne {p : Piece} (h : ∀ word, p ≠ .placeholder word) :
    p.numbered names = p.chars ∧ p.passed names = [p] := by
  cases p with
  | placeholder word => exact absurd rfl (h word)
  | _ => exact ⟨rfl, rfl⟩

/-! ### What stands before and behind a number -/

/-- Behind a word nothing opens. -/
theorem not_canOpen_append {word : List Char} (hne : word ≠ [])
    (hword : ∀ c ∈ word, Segment.isWordChar c) (left : List Char) :
    ¬CanOpen ((left ++ word).getLast?) := by
  intro hopen
  rw [List.getLast?_append, List.getLast?_eq_some_getLast hne, Option.some_or] at hopen
  have hlast := hopen _ rfl
  rw [hword _ (List.getLast_mem hne)] at hlast
  cases hlast

/-- A digit is a word character. -/
theorem isWordChar_of_isDigit {c : Char} (h : c.isDigit) : Segment.isWordChar c := by
  simp [Segment.isWordChar, Text.isAsciiWord, Char.isAlphanum, h]

/-- Behind a number nothing opens. -/
theorem not_canOpen_number (left : List Char) (n : Nat) :
    ¬CanOpen ((left ++ '$' :: Nat.toDigits 10 n).getLast?) := by
  refine not_canOpen_append (by simp) ?_ left
  intro c hc
  rcases List.mem_cons.1 hc with rfl | hc
  · decide
  · exact isWordChar_of_isDigit (isDigit_toDigits c hc)

/-- Behind a placeholder nothing opens. -/
theorem IsLabel.not_canOpen {word : List Char} (h : IsLabel word) (left : List Char) :
    ¬CanOpen ((left ++ word).getLast?) := by
  obtain ⟨c, t, rfl, hc, ht⟩ := h
  have hword : ∀ x ∈ c :: t, Segment.isWordChar x := by
    intro x hx
    rcases List.mem_cons.1 hx with rfl | hx
    · simp [Segment.isWordChar, Segment.isAsciiWord_of_isPlaceholderStart hc]
    · simp [Segment.isWordChar, ht x hx]
  have hlast := not_canOpen_append (by simp) hword (left ++ [':'])
  rwa [List.append_assoc] at hlast

/-- The tag that a text ends with does not change with text before it. -/
theorem BehindTag.append_left {text left : List Char} (hne : text ≠ [])
    (h : BehindTag text.getLast? left) : BehindTag before (text ++ left) := by
  obtain ⟨a, tag, rfl, hopen, htag⟩ := h
  refine ⟨text ++ a, tag, by simp, ?_, htag⟩
  rw [List.getLast?_append, Option.or_assoc, List.getLast?_eq_some_getLast hne, Option.some_or]
  rwa [List.getLast?_eq_some_getLast hne] at hopen

/-- No word stands behind a tag that is open where something can open. -/
theorem BehindTag.not_canOpen {left : List Char} (h : BehindTag before left) :
    ¬CanOpen left.getLast? := by
  obtain ⟨a, tag, rfl, -, htag⟩ := h
  refine not_canOpen_append (by simp) ?_ a
  intro c hc
  rcases List.mem_cons.1 hc with rfl | hc
  · decide
  · have hword : Text.isAsciiWord c := htag.1 c hc
    simp [Segment.isWordChar, hword]

/-- The numbered text of pieces begins like their text. -/
theorem Reads.beginsLike (h : Reads .flat before s pieces) (names : List String) :
    BeginsLike s (pieces.flatMap (Piece.numbered names)) := by
  cases h with
  | nil => exact .inl rfl
  | @cons _ p after pieces h hrest =>
    rw [List.flatMap_cons]
    by_cases hp : ∃ word, p = .placeholder word
    · obtain ⟨word, rfl⟩ := hp
      obtain ⟨c, t, rfl⟩ : ∃ c t, word = ':' :: c :: t := by
        cases h with
        | opens h =>
          cases h with
          | placeholder h =>
            obtain ⟨c, t, rfl, -⟩ := h.eq_cons
            exact ⟨c, t, rfl⟩
      exact .inr ⟨rfl, rfl⟩
    · obtain ⟨c, t, ht⟩ := List.exists_cons_of_ne_nil h.ne_nil
      rw [(Piece.numbered_of_ne fun word hword => hp ⟨word, hword⟩).1, ht]
      exact .inl rfl

namespace BeginsLike

variable {o : List Char}

/-- Only the empty text begins like the empty text. -/
theorem eq_nil (h : BeginsLike s o) (hs : s = []) : o = [] := by
  subst hs
  rcases h with h | ⟨h, -⟩
  · exact List.head?_eq_none_iff.1 h
  · cases h

/-- What does not begin with a mark does not do so with a dollar in the place of a colon. -/
theorem head?_ne (h : BeginsLike s o) {c : Char} (hc : c ≠ '$') (hs : s.head? ≠ some c) :
    o.head? ≠ some c := by
  rcases h with h | ⟨-, h⟩
  · rwa [h]
  · rw [h]
    exact fun heq => hc (Option.some.inj heq).symm

end BeginsLike

/-! ### Pieces of a numbered text -/

/-- A quoted text ends where it does also before a number. -/
theorem Quoted.congr {escapes : Bool} {mark : Char} {body : List Char} (hmark : mark ≠ '$')
    (h : Quoted escapes mark body after) (hlike : BeginsLike after after') :
    Quoted escapes mark body after' := by
  induction h with
  | closed h => exact .closed (hlike.head?_ne hmark h)
  | doubled _ ih => exact .doubled (ih hlike)
  | escaped he _ ih => exact .escaped he (ih hlike)
  | char hc he _ ih => exact .char hc he (ih hlike)
  | unclosed =>
    obtain rfl := hlike.eq_nil rfl
    exact .unclosed
  | cut he =>
    obtain rfl := hlike.eq_nil rfl
    exact .cut he

/-- What ends a region without a look ahead ends it before any text. -/
theorem Through.congr {ends : List Char → Prop} {body : List Char}
    (h : Through (fun s _ => ends s) body after) (hlike : BeginsLike after after') :
    Through (fun s _ => ends s) body after' :=
  ⟨h.first, h.last.imp_right hlike.eq_nil⟩

/-- A region is one also before a number and behind one. -/
theorem Region.congr {chars : List Char} (h : Region .flat before chars after)
    (hb : CanOpen before ↔ CanOpen before') (hlike : BeginsLike after after') :
    Region .flat before' chars after' := by
  cases h with
  | string h => exact .string (h.congr (by decide) hlike)
  | escape hc hopen h => exact .escape hc (hb.1 hopen) (h.congr (by decide) hlike)
  | name h => exact .name (h.congr (by decide) hlike)
  | dollar hopen htag h => exact .dollar (hb.1 hopen) htag (h.congr hlike)
  | @line body _ h =>
    have hends : Dialect.flat.EndsLine = fun s _ => ['\n'] <:+ s := by
      funext s rest
      simp [Dialect.EndsLine, Dialect.flat]
    rw [hends] at h
    refine .line ?_
    rw [hends]
    exact h.congr hlike
  | @block body _ h =>
    have hblock : Through (fun s _ => ['*', '/'] <:+ s) body after := h
    exact .block (hblock.congr hlike)

/-- A character is passed over also before a number, unless it is a dollar and opens a tag then. -/
theorem First.plain_congr {c : Char} (h : First .flat before (.plain c) after)
    (hb : CanOpen before ↔ CanOpen before') (hlike : BeginsLike after after')
    (htag : c = '$' → CanOpen before → ∀ tag t, Dialect.flat.IsTag tag → after' ≠ tag ++ '$' :: t) :
    First .flat before' (.plain c) after' := by
  rw [First.plain_iff] at h ⊢
  intro hbegins
  -- What begins with two characters would have begun with them in the text before.
  have hsecond : ∀ {x : Char} {t : List Char}, after' = x :: t → x ≠ '$' → ∃ u, after = x :: u := by
    rintro x t rfl hx
    rcases hlike with hhead | ⟨-, hhead⟩
    · exact List.head?_eq_some_iff.1 hhead.symm
    · exact absurd (Option.some.inj hhead) hx
  generalize htext : after' = u at hbegins
  cases hbegins with
  | string => exact h .string
  | escape hc hopen =>
    obtain ⟨t, rfl⟩ := hsecond htext (by decide)
    exact h (.escape hc (hb.2 hopen))
  | name => exact h .name
  | dollar hopen htag' => exact htag rfl (hb.2 hopen) _ _ htag' htext
  | line =>
    obtain ⟨t, rfl⟩ := hsecond htext (by decide)
    exact h .line
  | block =>
    obtain ⟨t, rfl⟩ := hsecond htext (by decide)
    exact h .block
  | cast =>
    obtain ⟨t, rfl⟩ := hsecond htext (by decide)
    exact h .cast
  | @placeholder x _ hx =>
    obtain ⟨t, rfl⟩ := hsecond htext (by rintro rfl; exact absurd hx (by decide))
    exact h (.placeholder hx)

/-- Digits are passed over. -/
theorem Reads.digits {digits : List Char} (hdigits : ∀ c ∈ digits, c.isDigit) {before : Option Char}
    (h : Reads .flat (digits.getLast?.or before) s pieces) :
    Reads .flat before (digits ++ s) (digits.map .plain ++ pieces) := by
  induction digits generalizing before with
  | nil => exact h
  | cons c digits ih =>
    have hc : c.isDigit := hdigits c (by simp)
    have hplain : First .flat before (.plain c) (digits ++ s) := by
      rw [First.plain_iff]
      intro hbegins
      -- Nothing begins with a digit.
      generalize digits ++ s = t at hbegins
      cases hbegins with
      | escape hletter => rcases hletter with rfl | rfl <;> exact absurd hc (by decide)
      | _ => exact absurd hc (by decide)
    refine .cons hplain (ih (fun x hx => hdigits x (by simp [hx])) ?_)
    have hlast : (Piece.plain c).chars.getLast? = some c := rfl
    rw [List.getLast?_cons, Option.some_or] at h
    rw [hlast]
    cases hdigit : digits.getLast? with
    | none => simpa [hdigit] using h
    | some x => simpa [hdigit] using h

/-- A number is passed over, wherever it stands. -/
theorem Reads.number {n : Nat} (h : Reads .flat ('$' :: Nat.toDigits 10 n).getLast? s pieces) :
    Reads .flat before ('$' :: Nat.toDigits 10 n ++ s)
      (('$' :: Nat.toDigits 10 n).map .plain ++ pieces) := by
  obtain ⟨c, digits, hn⟩ := List.exists_cons_of_ne_nil (Nat.toDigits_ne_nil (b := 10) (n := n))
  have hdigits : ∀ x ∈ c :: digits, x.isDigit := hn ▸ isDigit_toDigits
  rw [hn] at h ⊢
  have hplain : First .flat before (.plain '$') (c :: digits ++ s) := by
    rw [First.plain_iff]
    intro hbegins
    have hc : c.isDigit := hdigits c (by simp)
    generalize hdollar : '$' = x at hbegins
    generalize htext : c :: digits ++ s = t at hbegins
    cases hbegins with
    | escape hletter => rcases hletter with rfl | rfl <;> simp at hdollar
    | @dollar tag u _ htag =>
      -- No tag begins with a digit.
      cases tag with
      | nil =>
        obtain ⟨rfl, -⟩ := List.cons_eq_cons.1 htext
        exact absurd hc (by decide)
      | cons y tag =>
        obtain ⟨rfl, -⟩ := List.cons_eq_cons.1 htext
        exact absurd (htag.2 c rfl) (by simp [hc])
    | _ => simp at hdollar
  refine .cons hplain (Reads.digits hdigits ?_)
  rwa [List.getLast?_cons_cons] at h

/-- Where a numbered text begins with a tag and a dollar, so does the text before, or a placeholder
stands behind the tag. -/
theorem eq_append_or_located {tag t : List Char} (htag : '$' ∉ tag)
    (h : pieces.flatMap (Piece.numbered names) = tag ++ '$' :: t) :
    (∃ u, pieces.flatMap Piece.chars = tag ++ '$' :: u) ∨
      ∃ word, Located Piece.chars (.placeholder word) pieces tag := by
  induction pieces generalizing tag with
  | nil => simp at h
  | cons p pieces ih =>
    rw [List.flatMap_cons] at h
    by_cases hp : ∃ word, p = .placeholder word
    · obtain ⟨word, rfl⟩ := hp
      cases tag with
      | nil => exact .inr ⟨word, located_cons.2 (.inl ⟨rfl, rfl⟩)⟩
      | cons c tag =>
        obtain ⟨rfl, -⟩ := List.cons_eq_cons.1 h
        exact absurd (by simp) htag
    · rw [(Piece.numbered_of_ne fun word hword => hp ⟨word, hword⟩).1] at h
      -- The piece is followed by the dollar, ends before it or holds it.
      rcases List.append_eq_append_iff.1 h with ⟨u, rfl, hu⟩ | ⟨u, hchars, hu⟩
      · rw [List.mem_append, not_or] at htag
        rcases ih htag.2 hu with ⟨v, hv⟩ | ⟨word, hword⟩
        · exact .inl ⟨v, by rw [List.flatMap_cons, hv, List.append_assoc]⟩
        · exact .inr ⟨word, located_cons.2 (.inr ⟨u, rfl, hword⟩)⟩
      · cases u with
        | nil =>
          rw [List.append_nil] at hchars
          have hnil : pieces.flatMap (Piece.numbered names) = [] ++ '$' :: t := hu.symm
          rcases ih (by simp) hnil with ⟨v, hv⟩ | ⟨word, hword⟩
          · exact .inl ⟨v, by rw [List.flatMap_cons, hv, hchars, List.nil_append]⟩
          · exact .inr ⟨word, located_cons.2 (.inr ⟨[], by rw [hchars, List.append_nil], hword⟩)⟩
        | cons c u =>
          obtain ⟨rfl, -⟩ := List.cons_eq_cons.1 hu
          exact .inl ⟨u ++ pieces.flatMap Piece.chars, by rw [List.flatMap_cons, hchars]; simp⟩

/-- A numbered text is read as the text before, with its numbers passed over, provided that no
number closes a tag. -/
theorem Reads.numbered (h : Reads .flat before s pieces) (hb : CanOpen before ↔ CanOpen before')
    (hfree : ∀ left word, Located Piece.chars (.placeholder word) pieces left →
      ¬BehindTag before left) :
    Reads .flat before' (pieces.flatMap (Piece.numbered names))
      (pieces.flatMap (Piece.passed names)) := by
  induction h generalizing before' with
  | nil => exact .nil
  | @cons before p after pieces h hrest ih =>
    have hlike := hrest.beginsLike names
    have hbehind : ∀ left word, Located Piece.chars (.placeholder word) pieces left →
        ¬BehindTag p.chars.getLast? left := fun left word hlocated hbehind =>
      hfree (p.chars ++ left) word (located_cons.2 (.inr ⟨left, rfl, hlocated⟩))
        (hbehind.append_left h.ne_nil)
    rw [List.flatMap_cons, List.flatMap_cons]
    cases p with
    | region chars =>
      cases h with
      | opens h =>
        cases h with
        | region h => exact .cons (.opens (.region (h.congr hb hlike))) (ih Iff.rfl hbehind)
    | cast => exact .cons (.opens .cast) (ih Iff.rfl hbehind)
    | placeholder word =>
      have hlabel : IsLabel word := by
        cases h with
        | opens h =>
          cases h with
          | placeholder h => exact h.label
      -- Words stand before the rest in both texts.
      have hword : ¬CanOpen word.getLast? := hlabel.not_canOpen []
      have hnumber := not_canOpen_number [] (names.idxOf (String.ofList word) + 1)
      exact Reads.number (ih (iff_of_false hword hnumber) hbehind)
    | plain c =>
      refine .cons (h.plain_congr hb hlike ?_) (ih Iff.rfl hbehind)
      rintro rfl hopen tag t htag htext
      have hdollar : '$' ∉ tag := fun hmem => absurd (htag.1 '$' hmem) (by decide)
      rcases eq_append_or_located hdollar htext with ⟨u, hu⟩ | ⟨word, hword⟩
      · -- The tag has been open before.
        rw [hrest.flatMap_chars] at hu
        subst hu
        exact First.plain_iff.1 h (.dollar hopen htag)
      · exact hfree ('$' :: tag) word (located_cons.2 (.inr ⟨tag, rfl, hword⟩))
          ⟨[], tag, rfl, by simpa using hopen, htag⟩

/-! ### Statements -/

/-- The numbered segments of a text are its numbered pieces. -/
theorem exists_reads_numbered (names : List String) (before : Option Char) (s : List Char) :
    ∃ pieces, Reads .flat before s pieces ∧
      (Segment.scan before s).flatMap (Segment.numbered names) =
        pieces.flatMap (Piece.numbered names) := by
  fun_induction Segment.scan before s with
  | case1 => exact ⟨[], .nil, rfl⟩
  | case2 before c s piece ih =>
    -- What is taken stands for the first piece, and both are numbered alike.
    obtain ⟨pieces, hpieces, hrest⟩ := ih
    obtain ⟨p, hp, hchars, hword⟩ := takes_next before c s
    have hfirst : Segment.numbered names piece.1 = p.numbered names := by
      by_cases hplaceholder : ∃ word, p = .placeholder word
      · obtain ⟨word, rfl⟩ := hplaceholder
        rw [(hword word).2 rfl]
        rfl
      · have hne : ∀ word, piece.1 ≠ .placeholder word := fun word h =>
          hplaceholder ⟨word, (hword word).1 h⟩
        rw [(Piece.numbered_of_ne fun word h => hplaceholder ⟨word, h⟩).1, hchars]
        cases hpiece : piece.1 with
        | placeholder word => exact absurd hpiece (hne word)
        | _ => rfl
    refine ⟨p :: pieces, ?_, ?_⟩
    · rw [← Segment.source_next_append before c s, ← hchars]
      exact .cons hp (hchars ▸ hpieces)
    · rw [Segment.flatMap_prepend (fun _ _ => rfl), List.flatMap_cons, hfirst, hrest]

/-- The numbered text of a statement. -/
theorem toList_positional_sql (sql : String) :
    (positional sql).sql.toList =
      (segments sql).flatMap (Segment.numbered (placeholders sql).eraseDups) := by
  rw [positional_sql, String.toList_ofList]

/-- Numbering a second time changes nothing, provided that no number closes a tag. -/
theorem positional_positional {sql : String}
    (hfree : ∀ left word, Located Segment.source (.placeholder word) (segments sql) left →
      ¬BehindTag none left) :
    positional (positional sql).sql = ⟨(positional sql).sql, []⟩ := by
  generalize hnames : (placeholders sql).eraseDups = names
  obtain ⟨pieces, hpieces, hlocated⟩ := exists_reads_scan none sql.toList
  obtain ⟨pieces', hpieces', hnumbered⟩ := exists_reads_numbered names none sql.toList
  obtain rfl := hpieces.unique hpieces'
  have hreads : Reads .flat none (pieces.flatMap (Piece.numbered names))
      (pieces.flatMap (Piece.passed names)) :=
    hpieces.numbered Iff.rfl fun left word h => hfree left word ((hlocated left word).2 h)
  -- None of the pieces of the numbered text is a placeholder.
  have hnone : ∀ word, .placeholder word ∉ pieces.flatMap (Piece.passed names) := by
    intro word hmem
    obtain ⟨p, -, hp⟩ := List.mem_flatMap.1 hmem
    cases p with
    | placeholder label => simp [Piece.passed] at hp
    | _ => simp [Piece.passed] at hp
  obtain ⟨read, hread, hfound⟩ := exists_reads_scan none (positional sql).sql.toList
  have htext : (positional sql).sql.toList = pieces.flatMap (Piece.numbered names) := by
    rw [toList_positional_sql, hnames, ← hnumbered, segments]
  rw [htext] at hread
  obtain rfl := hread.unique hreads
  rw [positional_eq_self_iff, List.eq_nil_iff_forall_not_mem]
  intro name hname
  obtain ⟨segment, hsegment, hlabel⟩ := List.mem_filterMap.1 hname
  cases segment with
  | placeholder word =>
    obtain ⟨left, right, hsegments⟩ := List.append_of_mem hsegment
    obtain ⟨ys, zs, hsplit, -⟩ := (hfound _ word).1 ⟨left, right, hsegments, rfl⟩
    exact hnone word (by simp [hsplit])
  | _ => cases hlabel

/-- A number is made at a placeholder that comes first, and then at those behind it. -/
theorem mem_marksFrom_cons {i m : Nat} {segment : Segment} {rest : List Segment} :
    m ∈ marksFrom names i (segment :: rest) ↔
      (∃ word, segment = .placeholder word) ∧ m = i ∨
        m ∈ marksFrom names (i + (segment.numbered names).length) rest := by
  cases segment <;> simp [marksFrom, Segment.numbered]

/-- Numbers are made at the placeholders, behind the numbered text of what stands before them. -/
theorem mem_marksFrom {i m : Nat} {segments : List Segment} :
    m ∈ marksFrom names i segments ↔
      ∃ left word right, segments = left ++ .placeholder word :: right ∧
        m = i + (left.flatMap (Segment.numbered names)).length := by
  induction segments generalizing i with
  | nil => simp [marksFrom]
  | cons segment segments ih =>
    rw [mem_marksFrom_cons, ih]
    constructor
    · rintro (⟨⟨word, rfl⟩, rfl⟩ | ⟨left, word, right, rfl, rfl⟩)
      · exact ⟨[], word, segments, rfl, rfl⟩
      · refine ⟨segment :: left, word, right, rfl, ?_⟩
        rw [List.flatMap_cons, List.length_append, Nat.add_assoc]
    · rintro ⟨_ | ⟨first, left⟩, word, right, heq, rfl⟩
      · exact .inl ⟨⟨word, (List.cons_eq_cons.1 heq).1⟩, rfl⟩
      · obtain ⟨rfl, rfl⟩ := List.cons_eq_cons.1 heq
        refine .inr ⟨left, word, right, rfl, ?_⟩
        rw [List.flatMap_cons, List.length_append, Nat.add_assoc]

/-- Something can open behind numbered segments exactly if it can behind the segments. -/
theorem canOpen_numbered {left : List Segment}
    (hword : ∀ word, .placeholder word ∈ left → IsLabel word) (htext : .text [] ∉ left) :
    CanOpen (left.flatMap (Segment.numbered names)).getLast? ↔
      CanOpen (left.flatMap Segment.source).getLast? := by
  cases left using List.reverseRecOn with
  | nil => exact Iff.rfl
  | append_singleton left segment =>
    simp only [List.flatMap_append, List.flatMap_singleton]
    have hsame (s : List Char) (hne : s ≠ []) :
        (left.flatMap (Segment.numbered names) ++ s).getLast? =
          (left.flatMap Segment.source ++ s).getLast? := by
      rw [List.getLast?_append, List.getLast?_append, List.getLast?_eq_some_getLast hne,
        Option.some_or, Option.some_or]
    cases segment with
    | placeholder word =>
      exact iff_of_false (not_canOpen_number _ _) ((hword word (by simp)).not_canOpen _)
    | text chars =>
      have hne : chars ≠ [] := by
        rintro rfl
        simp at htext
      exact iff_of_eq (congrArg CanOpen (hsame chars hne))
    | quotedName content =>
      have hne : (Segment.quotedName content).source ≠ [] := by simp [Segment.source]
      exact iff_of_eq (congrArg CanOpen (hsame _ hne))

/-- A number follows a word exactly if its placeholder does. -/
theorem canOpen_mark_iff {sql : String} {left right : List Segment} {word : List Char}
    (h : segments sql = left ++ .placeholder word :: right) :
    CanOpen ((positional sql).sql.toList.take
        (left.flatMap (Segment.numbered (positional sql).names)).length).getLast? ↔
      CanOpen (left.flatMap Segment.source).getLast? := by
  have hword : ∀ label, .placeholder label ∈ left → IsLabel label := by
    intro label hlabel
    obtain ⟨before, after, rfl⟩ := List.append_of_mem hlabel
    exact (isPlaceholder_of_segments_eq (by rw [h, List.append_assoc]; rfl)).label
  have htext : .text [] ∉ left := fun hmem =>
    Segment.text_nil_not_mem_scan none sql.toList (by
      have hsegments : Segment.scan none sql.toList = left ++ .placeholder word :: right := h
      simp [hsegments, hmem])
  rw [toList_positional_sql, ← positional_names, h, List.flatMap_append, List.take_left']
  · exact canOpen_numbered hword htext
  · rfl

/-- All numbers of a statement stand apart from words exactly if all its placeholders do, and then
numbering a second time changes nothing. It changes nothing either as long as no placeholder stands
directly behind an open tag. -/
theorem positional_standing_iff (sql : String) :
    ((∀ m ∈ marks sql, CanOpen ((positional sql).sql.toList.take m).getLast?) ∧
        positional (positional sql).sql = ⟨(positional sql).sql, []⟩ ↔
      ∀ left word, Located Segment.source (.placeholder word) (segments sql) left →
        CanOpen left.getLast?) ∧
    ((∀ left word, Located Segment.source (.placeholder word) (segments sql) left →
        ¬BehindTag none left) →
      positional (positional sql).sql = ⟨(positional sql).sql, []⟩) := by
  refine ⟨⟨?placeholders, fun h => ⟨?numbers, ?again⟩⟩, positional_positional⟩
  case placeholders =>
    rintro ⟨h, -⟩ _ word ⟨left, right, hsegments, rfl⟩
    rw [← canOpen_mark_iff hsegments]
    exact h _ (mem_marksFrom.2 ⟨left, word, right, hsegments, (Nat.zero_add _).symm⟩)
  case numbers =>
    intro m hm
    obtain ⟨left, word, right, hsegments, rfl⟩ := mem_marksFrom.1 hm
    rw [Nat.zero_add, canOpen_mark_iff hsegments]
    exact h _ word ⟨left, right, hsegments, rfl⟩
  case again =>
    exact positional_positional fun left word hlocated hbehind =>
      hbehind.not_canOpen (h left word hlocated)

/-- A number behind a word, and a number that closes a tag: the second statement gets a parameter
when it is numbered again. -/
theorem positional_not_standing :
    positional "SELECT 1 LIMIT:n" = ⟨"SELECT 1 LIMIT$1", [":n"]⟩ ∧
      positional "$:x $$ :y $$" = ⟨"$$1 $$ :y $$", [":x"]⟩ ∧
      positional "$$1 $$ :y $$" = ⟨"$$1 $$ $1 $$", [":y"]⟩ ∧
      (¬∀ sql, ∀ m ∈ marks sql, CanOpen ((positional sql).sql.toList.take m).getLast?) ∧
      ¬∀ sql, positional (positional sql).sql = ⟨(positional sql).sql, []⟩ := by
  have hfirst : positional "$:x $$ :y $$" = ⟨"$$1 $$ :y $$", [":x"]⟩ := by decide +kernel
  have hsecond : positional "$$1 $$ :y $$" = ⟨"$$1 $$ $1 $$", [":y"]⟩ := by decide +kernel
  refine ⟨by decide +kernel, hfirst, hsecond, fun h => ?behind, fun h => ?again⟩
  case behind =>
    have hmark := h "SELECT 1 LIMIT:n" 14 (by decide +kernel)
    have hlast : ((positional "SELECT 1 LIMIT:n").sql.toList.take 14).getLast? = some 'T' := by
      decide +kernel
    rw [hlast] at hmark
    exact absurd (hmark 'T' rfl) (by decide)
  case again =>
    have hagain := h "$:x $$ :y $$"
    rw [hfirst, hsecond] at hagain
    exact absurd hagain (by decide)

end BoundSql.Sql
