import BoundSql.Proofs.Sql.Scanning
import BoundSql.Proofs.Sql.Regions
import BoundSql.Proofs.Text.Position
import BoundSql.Sql.Cursor

/-!
# The cursor finds the segments

A cursor that goes through the bytes of a statement finds what the scanner finds in its characters.
It stands behind some characters of which segments have been made and some of which none have; from
there one step leads behind the first piece of what is left, or over one byte of a character beyond
ASCII, so that it never cuts inside of a character.

* `quotedEnd_bytes`, `escapedEnd_bytes`, `through_append`, `dollarEnd?_append` and
  `labelEnd_append`: each loop ends behind the region that the scanner skips;
* `Cursor.next_standing`: one step takes the first piece of the text;
* `Cursor.run_standing`: from where it stands the cursor finds the segments of what is left;
* `segmentsByPosition_eq`: no access on its way is a fault, and it comes to the end.
-/

namespace BoundSql.Sql

open Text

/-! ### Quoted texts in bytes -/

namespace Quoted

variable {escapes : Bool} {mark : Char} {body after : List Char}

/-- Characters that are neither marks nor backslashes can stand before a quoted text. -/
theorem append {xs : List Char} (hxs : ∀ x ∈ xs, x ≠ mark ∧ (escapes → x ≠ '\\'))
    (h : Quoted escapes mark body after) : Quoted escapes mark (xs ++ body) after := by
  induction xs with
  | nil => exact h
  | cons x xs ih =>
    obtain ⟨hmark, hescape⟩ := hxs x (by simp)
    exact .char hmark hescape (ih fun y hy => hxs y (by simp [hy]))

/-- The bytes of a quoted text are one as well. -/
theorem bytes (hmark : mark.toNat < 0x80) (h : Quoted escapes mark body after) :
    Quoted escapes mark (bytes body) (bytes after) := by
  have hbyte : ∀ {m c x : Char}, m.toNat < 0x80 → x ∈ Text.bytes [c] → c ≠ m → x ≠ m := by
    intro m c x hm hx hc
    have := (isCoarse_eq hm).eq_of_mem_bytes hx
    simpa [hc] using this
  induction h with
  | closed h =>
    rw [bytes_of_lt hmark]
    exact .closed fun hhead => h ((head?_bytes_eq_iff hmark _).1 hhead)
  | doubled h ih =>
    rw [bytes_cons_of_lt hmark, bytes_cons_of_lt hmark]
    exact .doubled ih
  | @escaped c body after he h ih =>
    -- The backslash takes one byte with it, and what else the character has follows as it is.
    obtain ⟨x, xs, hc⟩ := List.exists_cons_of_ne_nil (bytes_ne_nil c)
    have hxs : ∀ y ∈ xs, 0x80 ≤ y.toNat := by
      intro y hy
      by_cases hlt : c.toNat < 0x80
      · rw [bytes_of_lt hlt] at hc
        obtain ⟨-, rfl⟩ := List.cons_eq_cons.1 hc
        cases hy
      · exact le_of_mem_bytes (by omega) (hc ▸ List.mem_cons_of_mem x hy)
    rw [bytes_cons_of_lt (by decide), bytes_cons, hc]
    refine .escaped he (append (fun y hy => ?_) ih)
    exact ⟨ne_of_le_of_lt (hxs y hy) hmark, fun _ => ne_of_le_of_lt (hxs y hy) (by decide)⟩
  | @char c body after hc he h ih =>
    rw [bytes_cons]
    exact append (fun x hx => ⟨hbyte hmark hx hc, fun h => hbyte (by decide) hx (he h)⟩) ih
  | unclosed => exact .unclosed
  | cut he =>
    rw [bytes_of_lt (by decide)]
    exact .cut he

end Quoted

namespace Cursor

variable {front body after : List Char} {quote : Char}

/-- The byte behind some others is read. -/
theorem byteAt_length (front : List Char) (c : Char) (s : List Char) :
    byteAt (front ++ c :: s) front.length = pure c :=
  byteAt_of_eq (by simp)

/-- The closing quote of a quoted run is found. -/
theorem quotedEnd_append (h : Quoted false quote body after) (front : List Char) :
    quotedEnd (front ++ (body ++ after)) quote front.length = pure (front ++ body).length := by
  -- By induction on the run; what has been read goes to the front.
  induction h generalizing front with
  | @closed after h =>
    have hnext : (front ++ quote :: after)[front.length + 1]? ≠ some quote := by
      simpa [List.getElem?_append_right, List.head?_eq_getElem?] using h
    rw [quotedEnd]
    simp [byteAt_length, hnext]
  | @doubled body after h ih =>
    have hrest := ih (front ++ [quote, quote])
    rw [quotedEnd]
    simpa [byteAt_length, List.getElem?_append_right] using hrest
  | escaped he => cases he
  | @char c body after hmark _ h ih =>
    have hrest := ih (front ++ [c])
    rw [quotedEnd, List.cons_append, dif_pos (by simp), byteAt_length, pure_bind, if_neg hmark]
    simpa [Nat.add_assoc, Nat.add_comm] using hrest
  | unclosed =>
    rw [quotedEnd]
    simp
  | cut he => cases he

/-- The closing quote of an escape string is found. -/
theorem escapedEnd_append (h : Quoted true '\'' body after) (front : List Char) :
    escapedEnd (front ++ (body ++ after)) front.length = pure (front ++ body).length := by
  induction h generalizing front with
  | @closed after h =>
    have hnext : (front ++ '\'' :: after)[front.length + 1]? ≠ some '\'' := by
      simpa [List.getElem?_append_right, List.head?_eq_getElem?] using h
    rw [escapedEnd]
    simp [byteAt_length, hnext]
  | @doubled body after h ih =>
    have hrest := ih (front ++ ['\'', '\''])
    rw [escapedEnd]
    simpa [byteAt_length, List.getElem?_append_right] using hrest
  | @escaped c body after _ h ih =>
    have hrest := ih (front ++ ['\\', c])
    rw [escapedEnd]
    simpa [byteAt_length] using hrest
  | @char c body after hmark he h ih =>
    have hrest := ih (front ++ [c])
    rw [escapedEnd, List.cons_append, dif_pos (by simp), byteAt_length, pure_bind, if_neg (he rfl),
      if_neg hmark]
    simpa [Nat.add_assoc, Nat.add_comm] using hrest
  | unclosed =>
    rw [escapedEnd]
    simp
  | cut =>
    -- The backslash is the last byte, and the position behind the next one is outside of the text.
    rw [escapedEnd, escapedEnd]
    simp [byteAt_length]

/-- A word is followed to its end. -/
theorem wordEnd_append (front s : List Char) :
    wordEnd (front ++ s) front.length = pure (front ++ s.takeWhile isAsciiWord).length := by
  induction s generalizing front with
  | nil =>
    rw [wordEnd]
    simp
  | cons c s ih =>
    have hrest := ih (front ++ [c])
    rw [wordEnd]
    cases hc : isAsciiWord c with
    | false => simp [hc]
    | true => simpa [hc, Nat.add_assoc, Nat.add_comm] using hrest

end Cursor

/-! ### Tests -/

/-- No character beyond ASCII is a letter or a digit of ASCII. -/
theorem isAlphanum_of_le {c : Char} (h : 0x80 ≤ c.toNat) : c.isAlphanum = false := by
  have hval : 0x80 ≤ c.val.toNat := h
  have hbeyond : ∀ last : UInt32, last.toNat < 0x80 → decide (c.val ≤ last) = false := by
    intro last hlast
    rw [decide_eq_false_iff_not, UInt32.le_iff_toNat_le]
    omega
  have hupper : c.isUpper = false :=
    decide_eq_false fun h => of_decide_eq_false (hbeyond 'Z'.val (by decide)) h.2
  have hlower : c.isLower = (decide ('a'.val ≤ c.val) && decide (c.val ≤ 'z'.val)) := rfl
  have hdigit : c.isDigit = (decide ('0'.val ≤ c.val) && decide (c.val ≤ '9'.val)) := rfl
  have hall : c.isAlphanum = (c.isUpper || c.isLower || c.isDigit) := rfl
  rw [hall, hupper, hlower, hdigit, hbeyond 'z'.val (by decide), hbeyond '9'.val (by decide),
    Bool.and_false, Bool.and_false]
  rfl

theorem isCoarse_isAlphanum : IsCoarse Char.isAlphanum := fun _ _ hc hd =>
  (isAlphanum_of_le hc).trans (isAlphanum_of_le hd).symm

theorem isCoarse_isAlpha : IsCoarse Char.isAlpha := fun _ _ hc hd =>
  (Bool.or_eq_false_iff.1 (isAlphanum_of_le hc)).1.trans
    (Bool.or_eq_false_iff.1 (isAlphanum_of_le hd)).1.symm

theorem isCoarse_isDigit : IsCoarse Char.isDigit := fun _ _ hc hd =>
  (Bool.or_eq_false_iff.1 (isAlphanum_of_le hc)).2.trans
    (Bool.or_eq_false_iff.1 (isAlphanum_of_le hd)).2.symm

theorem isCoarse_isAsciiWord : IsCoarse isAsciiWord :=
  isCoarse_isAlphanum.or (isCoarse_eq (by decide))

theorem isCoarse_isPlaceholderStart : IsCoarse Segment.isPlaceholderStart :=
  isCoarse_isAlpha.or (isCoarse_eq (by decide))

theorem isCoarse_isWordChar : IsCoarse Segment.isWordChar := by
  intro c d hc hd
  simp [Segment.isWordChar, hc, hd]

namespace Cursor

/-- The closing quote is found in the bytes of a text. -/
theorem quotedEnd_bytes {quote : Char} (hquote : quote.toNat < 0x80) (front s : List Char) :
    quotedEnd (bytes (front ++ s)) quote (size front) =
      pure (size (front ++ (Segment.quotedRun quote s).1)) := by
  have h := quotedEnd_append ((quoted_quotedRun quote s).bytes hquote) (bytes front)
  rwa [← bytes_append, Segment.quotedRun_append, ← bytes_append, ← bytes_append, length_bytes,
    length_bytes] at h

/-- Behind an opening quote the run goes to the closing one. -/
theorem quotedEnd_behind {quote : Char} (hquote : quote.toNat < 0x80) (front rest : List Char) :
    quotedEnd (bytes (front ++ quote :: rest)) quote (size front + 1) =
      pure (size (front ++ quote :: (Segment.quotedRun quote rest).1)) := by
  rw [← size_concat_of_lt hquote, List.append_cons, quotedEnd_bytes hquote, List.append_assoc]
  rfl

theorem escapedEnd_bytes (front s : List Char) :
    escapedEnd (bytes (front ++ s)) (size front) =
      pure (size (front ++ (Segment.escapedRun s).1)) := by
  have h := escapedEnd_append ((quoted_escapedRun s).bytes (by decide)) (bytes front)
  rwa [← bytes_append, Segment.escapedRun_append, ← bytes_append, ← bytes_append, length_bytes,
    length_bytes] at h

theorem wordEnd_bytes (front s : List Char) :
    wordEnd (bytes (front ++ s)) (size front) =
      pure (size (front ++ s.takeWhile isAsciiWord)) := by
  have h := wordEnd_append (bytes front) (bytes s)
  rwa [isCoarse_isAsciiWord.takeWhile_bytes, ← bytes_append, ← bytes_append, length_bytes,
    length_bytes] at h

/-- The text goes on behind the first occurrence of a mark. -/
theorem through_append {mark : List Char} (hmark : mark ≠ []) (front s : List Char) :
    through (front ++ s) mark (size front) = pure (size (front ++ (throughFirst mark s).1)) := by
  rw [through, cutFrom_append, pure_bind, size_append front (throughFirst mark s).1,
    size_throughFirst hmark]
  cases find? mark s with
  | none => simp
  | some n => simp [Nat.add_assoc]

/-- The end of a dollar-quoted string is found, or no tag is. -/
theorem dollarEnd?_append (front rest : List Char) :
    dollarEnd? (front ++ '$' :: rest) (size front) =
      pure ((Segment.dollarRun? rest).map fun run => size (front ++ '$' :: run.1)) := by
  have hone := (size_concat_of_lt (c := '$') (by decide) front).symm
  have htext : front ++ '$' :: rest = (front ++ ['$']) ++ rest := by simp
  rw [dollarEnd?, Segment.dollarRun?, hone, htext]
  simp only [getElem?_bytes, isCoarse_isDigit.any_head?_bytes, wordEnd_bytes, pure_bind]
  split
  · rfl
  -- The tag is the longest word, and a second dollar has to stand behind it.
  obtain ⟨tag, body, hword, htag, hbody⟩ : ∃ tag body, tag ++ body = rest ∧
      rest.takeWhile isAsciiWord = tag ∧ rest.dropWhile isAsciiWord = body :=
    ⟨_, _, List.takeWhile_append_dropWhile, rfl, rfl⟩
  have hnext : (bytes (front ++ ['$'] ++ rest))[size (front ++ ['$'] ++ tag)]? =
      (bytes body).head? := by
    rw [← hword, ← List.append_assoc, getElem?_bytes]
  rw [htag, hbody, hnext]
  simp only [head?_bytes_eq_iff (show '$'.toNat < 0x80 by decide)]
  split
  · next hdollar =>
    obtain ⟨body, rfl⟩ := List.head?_eq_some_iff.1 hdollar
    have hbehind : size (front ++ ['$'] ++ tag) + 1 = size (front ++ ('$' :: tag ++ ['$'])) := by
      rw [← size_concat_of_lt (c := '$') (by decide)]
      simp
    have hsplit : front ++ ['$'] ++ rest = front ++ ('$' :: tag ++ ['$']) ++ body := by
      simp [← hword]
    rw [hbehind, hsplit, cut_append, pure_bind, through_append (by simp)]
    simp
  · next hdollar =>
    split
    · next h => exact absurd rfl hdollar
    · rfl

/-- The end of a placeholder is found. -/
theorem labelEnd_append (front rest : List Char) :
    labelEnd (bytes (front ++ ':' :: rest)) (size front) =
      pure (size (front ++ ':' :: rest.takeWhile isAsciiWord)) := by
  have hone := (size_concat_of_lt (c := ':') (by decide) front).symm
  have hrest : bytesFrom (bytes (front ++ ':' :: rest)) (size front + 1) = pure (bytes rest) := by
    rw [hone, List.append_cons, bytesFrom_bytes]
  rw [labelEnd, hrest, pure_bind, isCoarse_isAsciiWord.findIdx?_bytes, hone, length_bytes]
  split
  · next h =>
    split at h
    · cases h
    · obtain rfl := Option.some.inj h
      simp [Nat.add_assoc]
  · next h =>
    -- The word goes to the end of the text.
    split at h
    · next hall =>
      rw [List.takeWhile_eq_self_iff.2 (List.all_eq_true.1 hall)]
    · cases h

/-- Whether a word goes on is seen from the last byte before. -/
theorem behindWord_append (front s : List Char) :
    behindWord (bytes (front ++ s)) (size front) =
      pure (front.getLast?.any Segment.isWordChar) := by
  rw [behindWord, ← isCoarse_isWordChar.any_getLast?_bytes, bytes_append, ← length_bytes]
  cases bytes front using List.reverseRecOn with
  | nil => rfl
  | append_singleton xs x =>
    have hback : goBack (xs ++ [x]).length 1 = pure xs.length := by
      rw [goBack_of_le (by simp)]
      simp
    rw [if_pos (by simp), hback, pure_bind, List.append_assoc, List.singleton_append,
      byteAt_length, pure_bind]
    simp

/-! ### One step -/

/-- The segments of a text of which nothing but text is made. -/
def textOf (chars : List Char) : List Segment := if chars = [] then [] else [.text chars]

/-- The cursor behind `made`, of which segments have been made, and `pending`, of which none have
been. -/
def standing (made pending : List Char) (found : List Segment) : Cursor where
  position := size (made ++ pending)
  textStart := size made
  found := found

/-- The cursor behind a segment that begins where another cursor stands. -/
def advanced (made pending : List Char) (found : List Segment) : Segment → Cursor
  | .text chars => standing made (pending ++ chars) found
  | segment =>
    standing (made ++ pending ++ segment.source) [] (found ++ textOf pending ++ [segment])

variable {c : Char} (made pending rest : List Char) (found : List Segment)

/-- The text before a position becomes a segment. -/
theorem flush_standing :
    (standing made pending found).flush (made ++ pending ++ rest) (size (made ++ pending)) =
      pure (found ++ textOf pending) := by
  cases pending with
  | nil => simp [flush, standing, textOf]
  | cons c pending =>
    rw [flush, standing, if_pos (size_lt_append made (List.cons_ne_nil c pending)), cut_append]
    rfl

theorem advanced_text (chars : List Char) :
    advanced made pending found (.text chars) =
      { position := size (made ++ pending ++ chars), textStart := size made, found } := by
  rw [advanced, standing, List.append_assoc]

/-- A quoted run of more than its opening mark ends with a mark if what follows that one does. -/
theorem closes_iff (front run : List Char) :
    (front ++ '"' :: run).getLast? = some '"' ∧ 2 ≤ 1 + size run ↔ run.getLast? = some '"' := by
  rw [List.getLast?_append_cons]
  cases run with
  | nil => simp
  | cons x run =>
    have hpos := x.utf8Size_pos
    simp only [List.getLast?_cons_cons, size_cons, and_iff_left_iff_imp]
    omega

/-- A quoted run is a quoted name if its last character is a mark, and text otherwise. -/
theorem takeName_standing :
    let run := (Segment.quotedRun '"' rest).1
    (standing made pending found).takeName (made ++ pending ++ '"' :: rest) =
      pure (advanced made pending found
        (if run.getLast? = some '"' then .quotedName run.dropLast else .text ('"' :: run))) := by
  intro run
  obtain ⟨after, hafter⟩ : ∃ after, rest = run ++ after :=
    ⟨_, (Segment.quotedRun_append '"' rest).symm⟩
  have hone : size (made ++ pending ++ ['"']) = size (made ++ pending) + 1 :=
    size_concat_of_lt (by decide) _
  have hstop : quotedEnd (bytes (made ++ pending ++ '"' :: rest)) '"' (size (made ++ pending) + 1) =
      pure (size (made ++ pending ++ '"' :: run)) := quotedEnd_behind (by decide) _ rest
  have hsize : size (made ++ pending ++ '"' :: run) = size (made ++ pending) + 1 + size run := by
    rw [List.append_cons, size_append, hone]
  have hlast : (bytes (made ++ pending ++ '"' :: rest))[size (made ++ pending ++ '"' :: run) - 1]? =
      (bytes (made ++ pending ++ '"' :: run)).getLast? := by
    rw [hafter, ← List.cons_append, ← List.append_assoc, getElem?_bytes_pred _ _ (by simp)]
  have hback : goBack (size (made ++ pending ++ '"' :: run)) 1 =
      pure (size (made ++ pending ++ '"' :: run) - 1) := goBack_of_le (by omega)
  have hlength : goBack (size (made ++ pending ++ '"' :: run)) (size (made ++ pending)) =
      pure (1 + size run) := by
    rw [goBack_of_le (by omega), hsize, Nat.add_assoc, Nat.add_sub_cancel_left]
  have hflush := flush_standing made pending ('"' :: rest) found
  simp only [standing] at hflush
  simp only [takeName, standing, hstop, hback, hlength, hlast, pure_bind, Bool.and_eq_true,
    decide_eq_true_eq, getLast?_bytes_eq_iff (show '"'.toNat < 0x80 by decide), closes_iff]
  split
  · next h =>
    obtain ⟨content, hcontent⟩ := List.getLast?_eq_some_iff.1 h
    have hcut : cut (made ++ pending ++ '"' :: rest) (size (made ++ pending) + 1)
        (size (made ++ pending ++ '"' :: run) - 1) = pure content := by
      refine cut_of_eq (made ++ pending ++ ['"']) ('"' :: after) ?_ hone ?_
      · simp [hafter, hcontent]
      · rw [size_append _ content, hone, hsize, hcontent, size_concat_of_lt (by decide)]
        omega
    rw [hflush, pure_bind, hcut, pure_bind, hcontent, List.dropLast_concat]
    simp [advanced, standing, Segment.source]
  · rw [advanced_text]

/-- A placeholder becomes a segment. -/
theorem takeLabel_standing :
    (standing made pending found).takeLabel (made ++ pending ++ ':' :: rest) =
      pure (advanced made pending found (.placeholder (':' :: rest.takeWhile isAsciiWord))) := by
  have hflush := flush_standing made pending (':' :: rest) found
  have hsplit : made ++ pending ++ ':' :: rest =
      made ++ pending ++ (':' :: rest.takeWhile isAsciiWord) ++ rest.dropWhile isAsciiWord := by
    simp
  have hlabel := cut_append (made ++ pending) (':' :: rest.takeWhile isAsciiWord)
    (rest.dropWhile isAsciiWord)
  rw [← hsplit] at hlabel
  simp only [standing] at hflush
  simp only [takeLabel, standing, labelEnd_append, hflush, hlabel, pure_bind]
  simp [advanced, standing, Segment.source]

/-- At a character of ASCII the cursor takes the first piece of the text. -/
theorem next_standing (hc : c.toNat < 0x80) :
    (standing made pending found).next (made ++ pending ++ c :: rest) =
      pure (advanced made pending found
        (Segment.next (made ++ pending).getLast? c rest).1) := by
  have hx := byteAt_bytes hc (made ++ pending) rest
  have hone := size_concat_of_lt hc (made ++ pending)
  have hnext : (bytes (made ++ pending ++ c :: rest))[size (made ++ pending) + 1]? =
      (bytes rest).head? := by
    rw [← hone, List.append_cons, getElem?_bytes]
  have hhead : ∀ m : Char, m.toNat < 0x80 → ((bytes rest).head? = some m ↔ rest.head? = some m) :=
    fun m hm => head?_bytes_eq_iff hm rest
  rw [next, Segment.next]
  simp only [standing, behindWord_append, hx, pure_bind, hnext, hhead '\'' (by decide),
    hhead '-' (by decide), hhead '*' (by decide), hhead ':' (by decide),
    isCoarse_isPlaceholderStart.any_head?_bytes]
  -- The tests are those of the characters, one after the other.
  split
  · next h =>
    -- A string.
    subst h
    rw [quotedEnd_behind hc, advanced_text]
    rfl
  split
  · next h =>
    -- An escape string, whose quote stands behind the letter.
    simp only [Bool.and_eq_true, decide_eq_true_eq] at h
    obtain ⟨rest, rfl⟩ := List.head?_eq_some_iff.1 h.2
    rw [← hone, ← size_concat_of_lt (c := '\'') (by decide), List.append_cons, List.append_cons,
      escapedEnd_bytes, advanced_text]
    simp
  split
  · next h =>
    -- A dollar sign, which may open a string.
    simp only [Bool.and_eq_true, decide_eq_true_eq] at h
    obtain ⟨rfl, -⟩ := h
    rw [dollarEnd?_append, pure_bind]
    cases Segment.dollarRun? rest with
    | none => rw [advanced_text, hone]; rfl
    | some run => rw [advanced_text]; rfl
  split
  · next h =>
    -- A quoted name.
    subst h
    have hname := takeName_standing made pending rest found
    simp only [standing] at hname
    rw [hname]
    split <;> rfl
  split
  · next h =>
    -- A comment to the end of the line.
    simp only [Bool.and_eq_true, decide_eq_true_eq] at h
    obtain ⟨rfl, -⟩ := h
    rw [through_append (by simp), pure_bind, advanced_text, throughFirst]
    simp [dropPrefix?]
  split
  · next h =>
    -- A comment to its closing mark.
    simp only [Bool.and_eq_true, decide_eq_true_eq] at h
    obtain ⟨rest, rfl⟩ := List.head?_eq_some_iff.1 h.2
    rw [show size (made ++ pending) + 2 = size (made ++ pending ++ [c] ++ ['*']) by
      rw [size_concat_of_lt (by decide), hone], List.append_cons, List.append_cons,
      through_append (by simp), advanced_text]
    simp
  split
  · next h =>
    -- A cast.
    simp only [Bool.and_eq_true, decide_eq_true_eq] at h
    obtain ⟨rest, rfl⟩ := List.head?_eq_some_iff.1 h.2
    rw [advanced_text]
    simp [utf8Size_of_lt hc, utf8Size_of_lt (c := ':') (by decide), Nat.add_assoc]
  split
  · next h =>
    -- A placeholder.
    simp only [Bool.and_eq_true, decide_eq_true_eq] at h
    obtain ⟨rfl, -⟩ := h
    exact takeLabel_standing made pending rest found
  · rw [advanced_text, hone]

/-! ### All steps -/

/-- A character beyond ASCII begins nothing but text. -/
theorem next_of_le (hc : 0x80 ≤ c.toNat) (before : Option Char) :
    Segment.next before c rest = (.text [c], rest) := by
  have hne (m : Char) : m.toNat < 0x80 → c ≠ m := ne_of_le_of_lt hc
  simp [Segment.next, hne '\'' (by decide), hne 'E' (by decide), hne 'e' (by decide),
    hne '$' (by decide), hne '"' (by decide), hne '-' (by decide), hne '/' (by decide),
    hne ':' (by decide)]

/-- A byte beyond ASCII is passed over. -/
theorem next_byte {s : List Char} {n textStart : Nat} {x : Char} (h : (bytes s)[n]? = some x)
    (hx : 0x80 ≤ x.toNat) : next s ⟨n, textStart, found⟩ = pure ⟨n + 1, textStart, found⟩ := by
  have hne (m : Char) : m.toNat < 0x80 → x ≠ m := ne_of_le_of_lt hx
  obtain ⟨w, hw⟩ : ∃ w, behindWord (bytes s) n = pure w := by
    have hlt : n < (bytes s).length := (List.getElem?_eq_some_iff.1 h).1
    rw [behindWord]
    split
    · next hpos =>
      have hbyte : byteAt (bytes s) (n - 1) = pure (bytes s)[n - 1] :=
        byteAt_of_eq (List.getElem?_eq_getElem (by omega))
      exact ⟨_, by rw [goBack_of_le (by omega), pure_bind, hbyte, pure_bind]⟩
    · exact ⟨false, rfl⟩
  simp [next, hw, byteAt_of_eq h, hne '\'' (by decide), hne 'E' (by decide), hne 'e' (by decide),
    hne '$' (by decide), hne '"' (by decide), hne '-' (by decide), hne '/' (by decide),
    hne ':' (by decide)]

/-- Behind a segment the cursor stands at a later position. -/
theorem position_lt_advanced {segment : Segment} (hne : segment.source ≠ []) :
    (standing made pending found).position < (advanced made pending found segment).position := by
  have hbehind : (advanced made pending found segment).position =
      size (made ++ pending ++ segment.source) := by
    cases segment with
    | text chars => rw [advanced_text, Segment.source]
    | placeholder | quotedName => simp [advanced, standing]
  rw [hbehind]
  exact size_lt_append _ hne

/-- The cursor passes over the first piece of the text, be it in one step or byte by byte. -/
theorem run_next :
    run (made ++ pending ++ c :: rest) (standing made pending found) =
      run (made ++ pending ++ c :: rest)
        (advanced made pending found (Segment.next (made ++ pending).getLast? c rest).1) := by
  by_cases hc : c.toNat < 0x80
  · have hlt : (standing made pending found).position <
        (bytes (made ++ pending ++ c :: rest)).length := by
      rw [length_bytes]
      exact size_lt_append _ (List.cons_ne_nil c rest)
    have hnext := position_lt_advanced made pending found
      (Segment.source_ne_nil_next (made ++ pending).getLast? c rest)
    rw [run, dif_pos hlt, next_standing made pending rest found hc, pure_bind, dif_pos hnext]
  · have hle : 0x80 ≤ c.toNat := by omega
    rw [next_of_le _ hle, advanced_text]
    refine eq_behind rest (f := fun n => run _ ⟨n, size made, found⟩) ?_ hle
    intro n x hx hle
    rw [run, dif_pos (List.getElem?_eq_some_iff.1 hx).1, next_byte _ hx hle, pure_bind,
      dif_pos (Nat.lt_succ_self n)]

/-- The segments of a text that stands behind other text. -/
def joined (pending : List Char) (rest : List Segment) : List Segment :=
  if pending = [] then rest else (Segment.text pending).prepend rest

/-- Text before a segment that is not text is a segment of its own. -/
theorem joined_prepend {segment : Segment} (h : ∀ chars, segment ≠ .text chars)
    (segments : List Segment) :
    joined pending (segment.prepend segments) = textOf pending ++ segment :: segments := by
  rw [joined, textOf]
  cases segment with
  | text chars => exact absurd rfl (h chars)
  | placeholder | quotedName => split <;> rfl

/-- Behind a segment that is not text no text is pending. -/
theorem advanced_eq {segment : Segment} (h : ∀ chars, segment ≠ .text chars) :
    advanced made pending found segment =
      standing (made ++ pending ++ segment.source) [] (found ++ textOf pending ++ [segment]) := by
  cases segment with
  | text chars => exact absurd rfl (h chars)
  | placeholder | quotedName => rfl

/-- The cursor goes on behind a segment, which is put before those that it finds there. -/
theorem run_advanced {segment : Segment} {after : List Char} {segments : List Segment}
    (hne : segment.source ≠ [])
    (h : ∀ made pending found, (made ++ pending).getLast? = segment.source.getLast? →
      run (made ++ pending ++ after) (standing made pending found) =
        pure (found ++ joined pending segments)) :
    run (made ++ pending ++ (segment.source ++ after)) (advanced made pending found segment) =
      pure (found ++ joined pending (segment.prepend segments)) := by
  have hlast (front : List Char) : (front ++ segment.source).getLast? = segment.source.getLast? :=
    List.getLast?_append_of_ne_nil front hne
  by_cases htext : ∃ chars, segment = .text chars
  · -- The text goes on, and what was text before it becomes one text with it.
    obtain ⟨chars, rfl⟩ := htext
    have hne : chars ≠ [] := hne
    have hrun := h made (pending ++ chars) found
      (by rw [← List.append_assoc]; exact hlast _)
    rw [← List.append_assoc made, List.append_assoc] at hrun
    rw [advanced, Segment.source, hrun]
    by_cases hpending : pending = []
    · simp [joined, hpending, hne]
    · simp [joined, hpending, hne, Segment.prepend_prepend_text]
  · have hother : ∀ chars, segment ≠ .text chars := fun chars heq => htext ⟨chars, heq⟩
    have hrun := h (made ++ pending ++ segment.source) [] (found ++ textOf pending ++ [segment])
      (by rw [List.append_nil]; exact hlast _)
    rw [List.append_nil, List.append_assoc] at hrun
    rw [advanced_eq _ _ _ hother, joined_prepend _ hother, hrun]
    simp [joined]

/-- From where it stands the cursor finds the segments of what is left. -/
theorem run_standing :
    run (made ++ pending ++ rest) (standing made pending found) =
      pure (found ++ joined pending (Segment.scan (made ++ pending).getLast? rest)) := by
  -- The induction is on the pieces of what is left, wherever the cursor stands before them.
  suffices h : ∀ before made pending found, (made ++ pending).getLast? = before →
      run (made ++ pending ++ rest) (standing made pending found) =
        pure (found ++ joined pending (Segment.scan before rest)) from h _ _ _ _ rfl
  intro before
  fun_induction Segment.scan before rest with
  | case1 before =>
    intro made pending found _
    have hflush := flush_standing made pending [] found
    have hend : ¬(standing made pending found).position < size (made ++ pending) := lt_irrefl _
    rw [List.append_nil] at hflush ⊢
    rw [run, length_bytes, dif_neg hend, hflush]
    rfl
  | case2 before c rest piece ih =>
    rintro made pending found rfl
    have hnext := run_advanced made pending found
      (Segment.source_ne_nil_next _ c rest) ih
    rwa [Segment.source_next_append, ← run_next] at hnext

end Cursor

/-- The cursor finds the segments of every statement: no access on its way is a fault, and each step
leads on. -/
theorem segmentsByPosition_eq (sql : String) : segmentsByPosition sql = pure (segments sql) :=
  Cursor.run_standing [] [] sql.toList []

end BoundSql.Sql
