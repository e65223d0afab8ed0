import Mathlib.Data.List.TakeWhile

/-!
# Runs of characters

A scanner that takes the longest run of some class of characters at the start of a text takes the
same run when more text follows, unless the run goes to the end of the first text and the second one
begins with another character of the class.
-/

namespace BoundSql.Text

variable {p : Char → Bool} {s word rest : List Char}

/-- A run does not go on in what follows if it ends before or if what follows begins otherwise. -/
theorem run_append (h : (∀ c ∈ s, p c) → ∀ c ∈ rest.head?, p c = false) :
    (s ++ rest).takeWhile p = s.takeWhile p ∧ (s ++ rest).dropWhile p = s.dropWhile p ++ rest := by
  induction s with
  | nil =>
    cases rest with
    | nil => exact ⟨rfl, rfl⟩
    | cons c rest =>
      have hc : p c = false := h (by simp) c rfl
      simp [hc]
  | cons c s ih =>
    -- Where the run ends in the first text, the second one does not matter.
    by_cases hc : p c
    · obtain ⟨htake, hdrop⟩ := ih fun hs => h (by simpa [hc] using hs)
      rw [List.cons_append, List.takeWhile_cons_of_pos hc, List.takeWhile_cons_of_pos hc,
        List.dropWhile_cons_of_pos hc, List.dropWhile_cons_of_pos hc, htake, hdrop]
      exact ⟨rfl, rfl⟩
    · rw [List.cons_append, List.takeWhile_cons_of_neg hc, List.takeWhile_cons_of_neg hc,
        List.dropWhile_cons_of_neg hc, List.dropWhile_cons_of_neg hc]
      exact ⟨rfl, rfl⟩

/-- The longest run at the start of a word and what follows it is the word. -/
theorem takeWhile_word_append (hword : ∀ c ∈ word, p c) (hrest : ∀ c ∈ rest.head?, p c = false) :
    (word ++ rest).takeWhile p = word := by
  rw [(run_append fun _ => hrest).1, List.takeWhile_eq_self_iff]
  exact hword

/-- What follows the longest run at the start of a word and what follows it is the latter. -/
theorem dropWhile_word_append (hword : ∀ c ∈ word, p c) (hrest : ∀ c ∈ rest.head?, p c = false) :
    (word ++ rest).dropWhile p = rest := by
  rw [(run_append fun _ => hrest).2, List.dropWhile_eq_nil_iff.2 hword, List.nil_append]

end BoundSql.Text
