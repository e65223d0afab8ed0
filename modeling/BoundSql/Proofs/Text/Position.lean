import BoundSql.Text.Position
import Mathlib.Data.List.Basic
import Mathlib.Data.List.Induction
import Mathlib.Data.List.TakeWhile

/-!
# Bytes and characters

What a scanner sees at the position of a character, and what it sees inside of one. A test that does
not tell characters beyond ASCII apart (`IsCoarse`) finds in the bytes of a text what it finds in
the text.

* `IsCoarse.takeWhile_bytes`: the longest run of bytes is that of characters;
* `IsCoarse.findIdx?_bytes`: where the first byte that fails a test stands;
* `eq_behind`: what is the same at each byte beyond ASCII and at the next is the same at the
  beginning of a character and at its end;
* `size_throughFirst`: the position behind the first occurrence of a word.
-/

namespace BoundSql.Text

/-- A test that does not tell characters beyond ASCII apart. -/
def IsCoarse (p : Char → Bool) : Prop := ∀ c d : Char, 0x80 ≤ c.toNat → 0x80 ≤ d.toNat → p c = p d

variable {p : Char → Bool} {s before after rest : List Char} {c x : Char}

/-- A character beyond ASCII is none of ASCII. -/
theorem ne_of_le_of_lt {m : Char} (hc : 0x80 ≤ c.toNat) (hm : m.toNat < 0x80) : c ≠ m := by
  rintro rfl
  omega

/-- Looking for a character of ASCII is a coarse test. -/
theorem isCoarse_eq {m : Char} (hm : m.toNat < 0x80) : IsCoarse (· = m) := by
  intro c d hc hd
  simp [ne_of_le_of_lt hc hm, ne_of_le_of_lt hd hm]

/-! ### Bytes of a text -/

/-- A character has bytes. -/
theorem bytes_ne_nil (c : Char) : bytes [c] ≠ [] := by
  have hpos := c.utf8Size_pos
  rw [← List.length_pos_iff, length_bytes]
  simpa using hpos

/-- Behind some characters stand the bytes of the others. -/
theorem getElem?_bytes (before after : List Char) :
    (bytes (before ++ after))[size before]? = (bytes after).head? := by
  rw [bytes_append, List.getElem?_append_right (by simp), length_bytes, Nat.sub_self,
    List.head?_eq_getElem?]

/-- A character of ASCII is read as it is. -/
theorem byteAt_bytes (hc : c.toNat < 0x80) (before after : List Char) :
    byteAt (bytes (before ++ c :: after)) (size before) = pure c :=
  byteAt_of_eq (by rw [getElem?_bytes, bytes_cons_of_lt hc, List.head?_cons])

/-- The bytes behind some characters are those of the others. -/
theorem bytesFrom_bytes (before after : List Char) :
    bytesFrom (bytes (before ++ after)) (size before) = pure (bytes after) := by
  rw [bytesFrom, bytes_append, ← length_bytes, List.drop_left, if_pos (by simp)]

namespace IsCoarse

protected theorem or {q : Char → Bool} (hp : IsCoarse p) (hq : IsCoarse q) :
    IsCoarse fun c => p c || q c :=
  fun c d hc hd => congrArg₂ or (hp c d hc hd) (hq c d hc hd)

/-- The bytes of a character pass a coarse test if it does. -/
theorem eq_of_mem_bytes (hp : IsCoarse p) (hx : x ∈ bytes [c]) : p x = p c := by
  by_cases hc : c.toNat < 0x80
  · rw [bytes_of_lt hc, List.mem_singleton] at hx
    rw [hx]
  · exact hp x c (le_of_mem_bytes (by omega) hx) (by omega)

/-- The first byte passes a coarse test if the first character does. -/
theorem any_head?_bytes (hp : IsCoarse p) (s : List Char) :
    (bytes s).head?.any p = s.head?.any p := by
  cases s with
  | nil => rfl
  | cons c s =>
    obtain ⟨x, xs, hbytes⟩ := List.exists_cons_of_ne_nil (bytes_ne_nil c)
    have hx : p x = p c := hp.eq_of_mem_bytes (by simp [hbytes])
    rw [bytes_cons, hbytes]
    simpa using hx

/-- The last byte passes a coarse test if the last character does. -/
theorem any_getLast?_bytes (hp : IsCoarse p) (s : List Char) :
    (bytes s).getLast?.any p = s.getLast?.any p := by
  cases s using List.reverseRecOn with
  | nil => rfl
  | append_singleton s c =>
    obtain ⟨xs, x, hbytes⟩ := (List.eq_nil_or_concat' (bytes [c])).resolve_left (bytes_ne_nil c)
    have hx : p x = p c := hp.eq_of_mem_bytes (by simp [hbytes])
    rw [bytes_append, hbytes]
    simpa using hx

/-- All bytes pass a coarse test if all characters do. -/
theorem all_bytes (hp : IsCoarse p) (s : List Char) : (bytes s).all p = s.all p := by
  induction s with
  | nil => rfl
  | cons c s ih =>
    have hc : (bytes [c]).all p = p c := by
      obtain ⟨x, xs, hbytes⟩ := List.exists_cons_of_ne_nil (bytes_ne_nil c)
      have hall : ∀ y ∈ x :: xs, p y = p c := fun y hy => hp.eq_of_mem_bytes (hbytes ▸ hy)
      rw [hbytes, Bool.eq_iff_iff, List.all_eq_true]
      exact ⟨fun h => hall x (by simp) ▸ h x (by simp), fun h y hy => (hall y hy).trans h⟩
    rw [bytes_cons, List.all_append, ih, hc, List.all_cons]

/-- The longest run of bytes that pass a coarse test has the bytes of the longest run of such
characters. -/
theorem takeWhile_bytes (hp : IsCoarse p) (s : List Char) :
    (bytes s).takeWhile p = bytes (s.takeWhile p) := by
  induction s with
  | nil => rfl
  | cons c s ih =>
    have hc : ∀ x ∈ bytes [c], p x = p c := fun x hx => hp.eq_of_mem_bytes hx
    rw [bytes_cons]
    by_cases h : p c
    · rw [List.takeWhile_append_of_pos fun x hx => (hc x hx).trans h, ih,
        List.takeWhile_cons_of_pos h, ← bytes_cons]
    · -- The first byte already ends the run.
      obtain ⟨x, xs, hbytes⟩ := List.exists_cons_of_ne_nil (bytes_ne_nil c)
      have hx : ¬p x := by rwa [hc x (by simp [hbytes])]
      rw [hbytes, List.cons_append, List.takeWhile_cons_of_neg hx, List.takeWhile_cons_of_neg h]
      rfl

end IsCoarse

/-- The first byte is a character of ASCII where this is the first character. -/
theorem head?_bytes_eq_iff {m : Char} (hm : m.toNat < 0x80) (s : List Char) :
    (bytes s).head? = some m ↔ s.head? = some m := by
  have heq (o : Option Char) : o = some m ↔ o.any (· = m) := by cases o <;> simp
  rw [heq, (isCoarse_eq hm).any_head?_bytes, ← heq]

/-- The last byte is a character of ASCII where this is the last character. -/
theorem getLast?_bytes_eq_iff {m : Char} (hm : m.toNat < 0x80) (s : List Char) :
    (bytes s).getLast? = some m ↔ s.getLast? = some m := by
  have heq (o : Option Char) : o = some m ↔ o.any (· = m) := by cases o <;> simp
  rw [heq, (isCoarse_eq hm).any_getLast?_bytes, ← heq]

/-- Before a position stands the last byte of what is behind it. -/
theorem getElem?_bytes_pred (before after : List Char) (h : before ≠ []) :
    (bytes (before ++ after))[size before - 1]? = (bytes before).getLast? := by
  have hpos : size before ≠ 0 := mt size_eq_zero_iff.1 h
  rw [bytes_append, List.getElem?_append_left (by rw [length_bytes]; omega),
    List.getLast?_eq_getElem?, length_bytes]

/-- What ends the longest run of characters that pass a test stands behind them. -/
theorem findIdx?_not (p : Char → Bool) (s : List Char) :
    (s.findIdx? fun c => !p c) = if s.all p then none else some (s.takeWhile p).length := by
  induction s with
  | nil => rfl
  | cons c s ih =>
    rw [List.findIdx?_cons, ih]
    cases hc : p c with
    | false => simp [hc]
    | true =>
      cases hs : s.all p <;> simp [hc, hs]

/-- The byte that ends the longest run stands behind the bytes of the run. -/
theorem IsCoarse.findIdx?_bytes (hp : IsCoarse p) (s : List Char) :
    ((bytes s).findIdx? fun c => !p c) = if s.all p then none else some (size (s.takeWhile p)) := by
  rw [findIdx?_not, hp.all_bytes, hp.takeWhile_bytes, length_bytes]

/-- What is the same at each byte beyond ASCII and behind it is the same at the beginning and at the
end of a character beyond ASCII. -/
theorem eq_behind {α : Type} (rest : List Char) {f : Nat → α}
    (h : ∀ n x, (bytes (before ++ c :: rest))[n]? = some x → 0x80 ≤ x.toNat → f n = f (n + 1))
    (hc : 0x80 ≤ c.toNat) : f (size before) = f (size (before ++ [c])) := by
  -- By induction on the bytes of the character that are behind, all of them are passed.
  suffices hpass : ∀ k ≤ c.utf8Size, f (size before) = f (size before + k) by
    rw [size_append]
    exact hpass c.utf8Size le_rfl
  intro k hk
  induction k with
  | zero => rfl
  | succ k ih =>
    have hlt : k < (bytes [c]).length := by
      rw [length_bytes, size_cons, size_nil]
      omega
    have hbyte : (bytes (before ++ c :: rest))[size before + k]? = some (bytes [c])[k] := by
      rw [bytes_append, bytes_cons, List.getElem?_append_right (by simp), length_bytes,
        Nat.add_sub_cancel_left, List.getElem?_append_left hlt, List.getElem?_eq_getElem hlt]
    rw [ih (by omega), h _ _ hbyte (le_of_mem_bytes hc (List.getElem_mem hlt))]
    rfl

/-! ### Words -/

/-- A word is dropped from a text that begins with it. -/
theorem isSome_dropPrefix? (word s : List Char) :
    (dropPrefix? word s).isSome = word.isPrefixOf s := by
  rw [Bool.eq_iff_iff, List.isPrefixOf_iff_prefix]
  constructor
  · intro h
    obtain ⟨rest, hrest⟩ := Option.isSome_iff_exists.1 h
    exact ⟨rest, (eq_append_of_dropPrefix? hrest).symm⟩
  · rintro ⟨rest, rfl⟩
    rw [dropPrefix?_append]
    rfl

/-- The position behind the first occurrence of a word. -/
theorem size_throughFirst {word : List Char} (hword : word ≠ []) (s : List Char) :
    size (throughFirst word s).1 =
      match find? word s with
      | some n => n + size word
      | none => size s := by
  fun_induction throughFirst word s with
  | case1 => simp [find?, hword]
  | case2 c rest after h =>
    have hprefix : word.isPrefixOf (c :: rest) := by rw [← isSome_dropPrefix?, h]; rfl
    simp [find?, hprefix]
  | case3 c rest h run after hrun ih =>
    have hprefix : word.isPrefixOf (c :: rest) = false := by rw [← isSome_dropPrefix?, h]; rfl
    rw [hrun] at ih
    rw [find?, hprefix, if_neg Bool.false_ne_true, size_cons, ih]
    cases find? word rest with
    | none => rfl
    | some n => simp [Nat.add_assoc]

end BoundSql.Text
