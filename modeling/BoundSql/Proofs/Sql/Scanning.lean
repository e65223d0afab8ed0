import BoundSql.Proofs.Sql.Sound
import BoundSql.Proofs.Text.Runs

/-!
# Scanning the text of tokens

The scanner finds sound tokens again in their text: each quoted name and each parameter is a segment
of its own, and all between them is text (`scan_render`). So nothing that stands in words, names and
numbers can hide a parameter, or make one up.

* `scan_plain`: characters that begin no literal, comment, name or parameter are text;
* `scan_name` and `scan_label`: a quoted name and a parameter, whatever stands before them;
* `placeholders_render`: the placeholders of the text are the parameters among the tokens.
-/

namespace BoundSql.Sql

namespace Segment

/-- Whether `c` begins nothing but text. A minus sign is plain unless another one follows it. -/
def isPlain (c : Char) : Bool := c ∉ ['\'', '"', '$', ':', '/']

/-- The name of a placeholder. -/
def label? : Segment → Option String
  | placeholder chars => some (String.ofList chars)
  | _ => none

/-- Text before text before other segments. -/
theorem prepend_prepend_text (a b : List Char) (rest : List Segment) :
    (text a).prepend ((text b).prepend rest) = (text (a ++ b)).prepend rest := by
  rcases rest with _ | ⟨_ | _ | _, rest⟩ <;> simp [prepend]

/-- Joining two texts loses nothing that is looked for outside of texts. -/
theorem filterMap_prepend {α : Type} {f : Segment → Option α} (hf : ∀ chars, f (text chars) = none)
    (s : Segment) (rest : List Segment) :
    (s.prepend rest).filterMap f = (f s).toList ++ rest.filterMap f := by
  -- Two texts become one only if both are texts.
  rcases s with _ | _ | _ <;> rcases rest with _ | ⟨_ | _ | _, rest⟩ <;>
    simp [prepend, hf, List.filterMap_cons, Option.toList] <;> split <;> simp_all

/-- Joining two texts loses nothing of what segments give, if a joined text gives what its parts
give. -/
theorem flatMap_prepend {α : Type} {f : Segment → List α}
    (hf : ∀ a b, f (text (a ++ b)) = f (text a) ++ f (text b)) (s : Segment) (rest : List Segment) :
    (s.prepend rest).flatMap f = f s ++ rest.flatMap f := by
  rcases s with _ | _ | _ <;> rcases rest with _ | ⟨_ | _ | _, rest⟩ <;> simp [prepend, hf]

/-- A plain character is text, unless it is the first of two minus signs. -/
theorem next_plain (before : Option Char) {c : Char} {rest : List Char} (hc : isPlain c)
    (hquote : rest.head? ≠ some '\'') (hdash : c = '-' → rest.head? ≠ some '-') :
    next before c rest = (text [c], rest) := by
  simp only [isPlain, List.mem_cons, List.not_mem_nil, or_false, not_or, decide_eq_true_eq] at hc
  obtain ⟨h1, h2, h3, h4, h5⟩ := hc
  have hcomment : ¬(c = '-' ∧ rest.head? = some '-') := fun h => hdash h.1 h.2
  simp [next, h1, h2, h3, h4, h5, hquote, hcomment]

/-- Plain characters are text. -/
theorem scan_plain {s : List Char} (hne : s ≠ []) (hplain : ∀ c ∈ s, isPlain c)
    (hchain : s.IsChain fun a b => ¬(a = '-' ∧ b = '-')) {rest : List Char}
    (hquote : rest.head? ≠ some '\'') (hdash : s.getLast? = some '-' → rest.head? ≠ some '-')
    (before : Option Char) :
    scan before (s ++ rest) = (text s).prepend (scan s.getLast? rest) := by
  induction s generalizing before with
  | nil => exact absurd rfl hne
  | cons c s ih =>
    have hc : isPlain c := hplain c (by simp)
    cases s with
    | nil =>
      have hnext := next_plain before hc hquote fun h => hdash (by simp [h])
      rw [List.singleton_append, scan, hnext]
      rfl
    | cons d s =>
      have hd : isPlain d := hplain d (by simp)
      obtain ⟨hcd, hchain⟩ := List.isChain_cons_cons.1 hchain
      have hnext : next before c (d :: s ++ rest) = (text [c], d :: s ++ rest) := by
        refine next_plain before hc ?_ fun h => ?_
        · intro h
          obtain rfl : d = '\'' := by simpa using h
          exact absurd hd (by decide)
        · intro hdash
          exact hcd ⟨h, by simpa using hdash⟩
      have hrest := ih (by simp) (fun x hx => hplain x (by simp [hx])) hchain
        (fun h => hdash (by simpa using h)) (some c)
      rw [List.cons_append, scan, hnext, source, List.getLast?_singleton, hrest,
        prepend_prepend_text, List.getLast?_cons_cons]
      rfl

/-- The run of a quoted name without quotation marks in it ends at the first one. -/
theorem quotedRun_of_not_mem {quote : Char} {s rest : List Char} (hs : quote ∉ s)
    (hrest : rest.head? ≠ some quote) :
    quotedRun quote (s ++ quote :: rest) = (s ++ [quote], rest) := by
  induction s with
  | nil =>
    cases rest with
    | nil => simp [quotedRun]
    | cons d rest =>
      have hd : d ≠ quote := by simpa using hrest
      simp [quotedRun, hd]
  | cons c s ih =>
    simp only [List.mem_cons, not_or] at hs
    have hrun := ih hs.2
    -- A run looks at two characters, and the second one is never missing here.
    obtain ⟨x, t, ht⟩ : ∃ x t, s ++ quote :: rest = x :: t := List.exists_cons_of_ne_nil (by simp)
    rw [ht] at hrun
    rw [List.cons_append, ht, quotedRun, if_neg (Ne.symm hs.1), hrun]
    rfl

/-- A quoted name is a segment of its own. -/
theorem scan_name {content rest : List Char} (h : '"' ∉ content) (hrest : rest.head? ≠ some '"')
    (before : Option Char) :
    scan before ('"' :: content ++ '"' :: rest) = quotedName content :: scan (some '"') rest := by
  have hnext : next before '"' (content ++ '"' :: rest) = (quotedName content, rest) := by
    simp [next, quotedRun_of_not_mem h hrest]
  have hlast : ('"' :: content ++ ['"']).getLast? = some '"' := List.getLast?_concat
  rw [List.cons_append, scan, hnext]
  simp only [source, hlast]
  rfl

/-- A word of a placeholder begins like a word. -/
theorem isAsciiWord_of_isPlaceholderStart {c : Char} (h : isPlaceholderStart c) :
    Text.isAsciiWord c := by
  simp only [isPlaceholderStart, Bool.or_eq_true, decide_eq_true_eq] at h
  rcases h with h | rfl
  · simp [Text.isAsciiWord, Char.isAlphanum, h]
  · decide

/-- A parameter is a segment of its own if no letter or digit follows it. -/
theorem scan_label {s rest : List Char} (h : IsLabel s)
    (hrest : ∀ c ∈ rest.head?, Text.isAsciiWord c = false) (before : Option Char) :
    scan before (s ++ rest) = placeholder s :: scan s.getLast? rest := by
  obtain ⟨c, word, rfl, hc, hword⟩ := h
  have hc' := isAsciiWord_of_isPlaceholderStart hc
  have hcolon : c ≠ ':' := by
    rintro rfl
    exact absurd hc (by decide)
  have hall : ∀ x ∈ c :: word, Text.isAsciiWord x := by simpa [hc'] using hword
  have hnext : next before ':' (c :: word ++ rest) = (placeholder (':' :: c :: word), rest) := by
    rw [next, Text.takeWhile_word_append hall hrest, Text.dropWhile_word_append hall hrest]
    simp [hc, hcolon]
  rw [List.cons_append, scan, hnext]
  simp [prepend, source]

end Segment

/-- The segment that a token is found as. -/
def Token.segment : Token → Segment
  | word w => .text w.text.toList
  | name content => .quotedName content.toList
  | parameter label => .placeholder label.toList
  | number digits => .text digits.toList
  | verbatim chars => .text chars.toList

/-- The name of a parameter. -/
def Token.label? : Token → Option String
  | parameter label => some label
  | _ => none

/-- A token is found under the name it has. -/
theorem Token.label?_segment (t : Token) : t.segment.label? = t.label? := by
  cases t <;> simp [segment, label?, Segment.label?]

/-- What is led by a separating word begins with a blank or a punctuation mark. -/
theorem Led.mem_of_head? {ts : Tokens} (h : Led ts) :
    ∀ c ∈ (render ts).toList.head?, c ∈ [' ', ')', '.', ','] := by
  intro c hc
  -- Only a word can lead, and its text is known.
  cases ts with
  | nil => simp at hc
  | cons t ts =>
    rw [toList_render_cons] at hc
    cases t with
    | word w =>
      obtain ⟨d, s, hw⟩ := List.exists_cons_of_ne_nil w.text_ne_nil
      have hsep : Word.separates w := led_cons.1 h
      rw [Token.text, hw] at hc
      obtain rfl : d = c := by simpa using hc
      simpa [Word.separates, hw] using hsep
    | _ => exact absurd (led_cons.1 h) (by simp [Token.separates])

/-- What is led by a separating word does not go on with a word. -/
theorem Led.not_word_of_head? {ts : Tokens} (h : Led ts) :
    ∀ c ∈ (render ts).toList.head?, Text.isAsciiWord c = false := by
  have hmarks : ∀ c ∈ [' ', ')', '.', ','], ¬Text.isAsciiWord c :=
    List.any_eq_false.1 (by decide)
  intro c hc
  simpa using hmarks c (h.mem_of_head? c hc)

/-- Words are plain, and no two minus signs touch in them. -/
theorem Word.plain (w : Word) :
    (∀ c ∈ w.text.toList, Segment.isPlain c) ∧
      w.text.toList.IsChain (fun a b => ¬(a = '-' ∧ b = '-')) ∧
        w.text.toList.getLast? ≠ some '-' := by
  rw [← List.all_eq_true]
  cases w with
  | compare c => cases c <;> decide
  | connect c => cases c <;> decide
  | direction d => cases d <;> decide
  | join k => cases k <;> decide
  | _ => decide

/-- The characters of numbers are plain. -/
theorem isPlain_of_isNumberChar {c : Char} (h : isNumberChar c) : Segment.isPlain c := by
  rw [Segment.isPlain, decide_eq_true_eq]
  intro hmem
  have hspecial : ∀ c ∈ ['\'', '"', '$', ':', '/'], ¬isNumberChar c :=
    List.any_eq_false.1 (by decide)
  exact hspecial c hmem h

/-- The text of clean tokens does not begin with an apostrophe. -/
theorem head?_render_ne_apostrophe {ts : Tokens} (h : ∀ t ∈ ts, t.Clean) :
    (render ts).toList.head? ≠ some '\'' := by
  cases ts with
  | nil => simp
  | cons t ts =>
    have ht := h t (by simp)
    rw [toList_render_cons]
    cases t with
    | word w =>
      obtain ⟨d, s, hw⟩ := List.exists_cons_of_ne_nil w.text_ne_nil
      have hd := w.plain.1 d (by simp [hw])
      rw [Token.text, hw]
      rintro heq
      obtain rfl : d = '\'' := by simpa using heq
      exact absurd hd (by decide)
    | name content => simp [Token.text]
    | parameter label =>
      obtain ⟨c, rest, hlabel, -, -⟩ := ht
      simp [Token.text, hlabel]
    | number digits =>
      obtain ⟨d, s, hs⟩ := List.exists_cons_of_ne_nil ht.ne_nil
      have hd := isPlain_of_isNumberChar (ht.chars d (by simp [hs]))
      rw [Token.text, hs]
      rintro heq
      obtain rfl : d = '\'' := by simpa using heq
      exact absurd hd (by decide)
    | verbatim chars => exact ht.elim

/-- The scanner finds sound tokens again in their text. -/
theorem scan_render {ts : Tokens} (h : Sound ts) (before : Option Char) :
    Segment.scan before (render ts).toList =
      ts.foldr (fun t rest => t.segment.prepend rest) [] := by
  -- The scanner also looks at the character before, so it is general in the induction.
  induction ts generalizing before with
  | nil => simp [Segment.scan]
  | cons t ts ih =>
    have hhead := (List.isChain_cons.1 h.apart).1
    have hts := h.of_cons
    have ht := h.clean t (by simp)
    have hquote := head?_render_ne_apostrophe hts.clean
    -- All but words need a separating word behind them.
    have hled : t.opens = false → Led ts := fun hopens t' ht' =>
      (hhead t' ht').resolve_left (by simp [hopens])
    rw [toList_render_cons, List.foldr_cons]
    cases t with
    | word w =>
      obtain ⟨hplain, hchain, hlast⟩ := w.plain
      rw [Token.text, Segment.scan_plain w.text_ne_nil hplain hchain hquote
        (fun hdash => absurd hdash hlast), ih hts]
      rfl
    | name content =>
      have hstop : (render ts).toList.head? ≠ some '"' := fun heq =>
        absurd ((hled rfl).mem_of_head? '"' heq) (by decide)
      have htext : (Token.name content).text.toList ++ (render ts).toList =
          '"' :: content.toList ++ '"' :: (render ts).toList := by
        simp [Token.text]
      rw [htext, Segment.scan_name ht hstop, ih hts]
      rfl
    | parameter label =>
      rw [Token.text, Segment.scan_label ht (hled rfl).not_word_of_head?, ih hts]
      rfl
    | number digits =>
      have hstop : (render ts).toList.head? ≠ some '-' := fun heq =>
        absurd ((hled rfl).mem_of_head? '-' heq) (by decide)
      rw [Token.text, Segment.scan_plain ht.ne_nil
        (fun c hc => isPlain_of_isNumberChar (ht.chars c hc)) ht.chain hquote (fun _ => hstop),
        ih hts]
      rfl
    | verbatim chars => exact ht.elim

/-- What is looked for outside of texts is found in the tokens, one token after the other. -/
theorem filterMap_segments_render {α : Type} {f : Segment → Option α}
    (hf : ∀ chars, f (.text chars) = none) {ts : Tokens} (h : Sound ts) :
    (segments (render ts)).filterMap f = ts.filterMap fun t => f t.segment := by
  rw [segments, scan_render h]
  clear h
  induction ts with
  | nil => rfl
  | cons t ts ih =>
    rw [List.foldr_cons, Segment.filterMap_prepend hf, ih, List.filterMap_cons]
    cases f t.segment <;> rfl

/-- The placeholders of a statement, in the order of its text. -/
def placeholders (sql : String) : List String := (segments sql).filterMap Segment.label?

/-- The placeholders in the text of sound tokens are their parameters. -/
theorem placeholders_render {ts : Tokens} (h : Sound ts) :
    placeholders (render ts) = ts.filterMap Token.label? := by
  rw [placeholders, filterMap_segments_render (fun _ => rfl) h]
  exact List.filterMap_congr fun t _ => t.label?_segment

end BoundSql.Sql
