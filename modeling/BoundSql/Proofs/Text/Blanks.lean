import BoundSql.Proofs.Text.Runs
import BoundSql.Text.Scan

/-!
# Blanks around a text

What is dropped when blanks are dropped at the start of a text or at both ends of it: a run of
blanks, and nothing of a text that begins and ends with other characters (`trim_of_ends`).
-/

namespace BoundSql

/-- No digit is a blank. -/
theorem Unicode.isBlank_of_isDigit {c : Char} (h : c.isDigit) : isBlank c = false := by
  have hrange : 48 ≤ c.toNat ∧ c.toNat ≤ 57 := Char.isDigit_iff_toNat.1 h
  have hblank : ∀ range ∈ blankRanges, range.2 < 48 ∨ 57 < range.1 := by decide
  simp only [isBlank, inRanges, List.any_eq_false]
  intro range hmem
  have := hblank range hmem
  simp only [Bool.and_eq_true, decide_eq_true_eq]
  omega

namespace Text

variable {s blanks : List Char}

/-- What is trimmed off at the end is blank. -/
theorem exists_trail (s : List Char) :
    ∃ trail, (∀ c ∈ trail, Unicode.isBlank c) ∧ trimStart s = trim s ++ trail := by
  refine ⟨((trimStart s).reverse.takeWhile Unicode.isBlank).reverse, fun c hc => ?_, ?_⟩
  · exact List.mem_takeWhile_imp (List.mem_reverse.1 hc)
  · have hall := List.takeWhile_append_dropWhile (p := Unicode.isBlank) (l := (trimStart s).reverse)
    calc trimStart s
        = ((trimStart s).reverse.takeWhile Unicode.isBlank ++
            (trimStart s).reverse.dropWhile Unicode.isBlank).reverse := by
          rw [hall, List.reverse_reverse]
      _ = trim s ++ ((trimStart s).reverse.takeWhile Unicode.isBlank).reverse := by
          rw [List.reverse_append]
          rfl

/-- What is left when a run is dropped does not go on with it. -/
theorem head?_dropWhile {p : Char → Bool} {c : Char} (h : c ∈ (s.dropWhile p).head?) :
    p c = false := by
  have hall := List.head?_dropWhile_not p s
  rwa [Option.mem_def.1 h] at hall

/-- A text from which blanks were dropped does not begin with one. -/
theorem isBlank_of_head?_trimStart {c : Char} (h : c ∈ (trimStart s).head?) :
    Unicode.isBlank c = false :=
  head?_dropWhile h

/-- Nothing is left of blanks. -/
theorem trimStart_of_blank (h : ∀ c ∈ blanks, Unicode.isBlank c) : trimStart blanks = [] :=
  List.dropWhile_eq_nil_iff.2 h

/-- Blanks are dropped up to the first character that is none. -/
theorem trimStart_append (h : ∀ c ∈ blanks, Unicode.isBlank c)
    (hs : ∀ c ∈ s.head?, Unicode.isBlank c = false) : trimStart (blanks ++ s) = s :=
  dropWhile_word_append h hs

/-- From a text that does not begin with a blank none is dropped. -/
theorem trimStart_of_head? (h : ∀ c ∈ s.head?, Unicode.isBlank c = false) : trimStart s = s := by
  have hnone : ∀ c ∈ ([] : List Char), Unicode.isBlank c := by simp
  exact trimStart_append hnone h

/-- From what blanks were dropped from, none are dropped. -/
theorem trimStart_trimStart (s : List Char) : trimStart (trimStart s) = trimStart s :=
  trimStart_of_head? fun _ => isBlank_of_head?_trimStart

/-- Of a text with blanks behind it the same is dropped, unless it is blank itself. -/
theorem trimStart_append_blank (h : ∀ c ∈ blanks, Unicode.isBlank c) :
    trimStart (s ++ blanks) = if trimStart s = [] then [] else trimStart s ++ blanks := by
  split
  · next hnil =>
    have hs : ∀ c ∈ s, Unicode.isBlank c := List.dropWhile_eq_nil_iff.1 hnil
    exact trimStart_of_blank fun c hc => (List.mem_append.1 hc).elim (hs c) (h c)
  · next hne =>
    refine (run_append fun hs => ?_).2
    exact absurd (trimStart_of_blank hs) hne

/-- A text is trimmed to nothing exactly if it is blank. -/
theorem trim_eq_nil_iff : trim s = [] ↔ ∀ c ∈ s, Unicode.isBlank c := by
  constructor
  · intro h
    obtain ⟨trail, htrail, hs⟩ := exists_trail s
    rw [h, List.nil_append] at hs
    intro c hc
    rw [← List.takeWhile_append_dropWhile (p := Unicode.isBlank) (l := s), List.mem_append] at hc
    exact hc.elim List.mem_takeWhile_imp fun hc => htrail c (hs ▸ hc)
  · intro h
    rw [trim, trimStart_of_blank h]
    rfl

/-- Whether all of a text is trimmed off shows at its beginning. -/
theorem trim_eq_nil_iff_trimStart : trim s = [] ↔ trimStart s = [] :=
  trim_eq_nil_iff.trans List.dropWhile_eq_nil_iff.symm

/-- Nothing is trimmed off a text that neither begins nor ends with a blank. -/
theorem trim_of_ends (hhead : ∀ c ∈ s.head?, Unicode.isBlank c = false)
    (hlast : ∀ c ∈ s.getLast?, Unicode.isBlank c = false) : trim s = s := by
  rw [trim, trimStart_of_head? hhead, trimEnd, trimStart_of_head? (by rwa [List.head?_reverse]),
    List.reverse_reverse]

/-- Nothing is trimmed off a text that stands between texts without blanks. -/
theorem trim_between {before after : List Char} (s : List Char)
    (hbefore : ∀ c ∈ before, Unicode.isBlank c = false)
    (hafter : ∀ c ∈ after, Unicode.isBlank c = false) (hne : before ≠ []) (hne' : after ≠ []) :
    trim (before ++ s ++ after) = before ++ s ++ after := by
  refine trim_of_ends (fun c hc => hbefore c ?_) fun c hc => hafter c ?_
  · rw [List.append_assoc, List.head?_append, Option.or_of_isSome (by simpa using hne)] at hc
    exact List.mem_of_head? hc
  · rw [List.getLast?_append, Option.or_of_isSome (by simpa using hne')] at hc
    exact List.mem_of_getLast? hc

/-- Nothing is trimmed off a text without blanks. -/
theorem trim_of_not_blank (h : ∀ c ∈ s, Unicode.isBlank c = false) : trim s = s :=
  trim_of_ends (fun c hc => h c (List.mem_of_head? hc)) fun c hc => h c (List.mem_of_getLast? hc)

end Text

end BoundSql
