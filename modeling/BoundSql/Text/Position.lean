import BoundSql.Text.Scan

/-!
# Positions in bytes

A text is kept as bytes in UTF-8, and a scanner that copies nothing stands at a position in them: it
reads single bytes, goes back by some of them, and cuts pieces out between two positions. Every such
access is checked here. Reading behind the end, going below the beginning, and cutting inside of a
character, behind the end or backwards are faults, and so is a step that does not lead to a later
position of the text, since a scan might never end then.

* `splitBytes?_eq_some_iff`: the positions between characters are those where a text can be split;
* `exists_cut_iff`: a piece is cut out exactly between two such positions that stand in order.
-/

namespace BoundSql.Text

/-- The bytes of a text in UTF-8. Each is shown by the character of its number, so that the byte of
an ASCII character is this character. -/
def bytes (s : List Char) : List Char := (s.flatMap String.utf8EncodeChar).map Char.ofUInt8

/-- How many bytes a text has. -/
def size : List Char → Nat
  | [] => 0
  | c :: s => c.utf8Size + size s

/-- What can go wrong at a position. -/
inductive Fault where
  /-- A byte was read that the text does not have. -/
  | outside (position : Nat)
  /-- A position would be below the beginning. -/
  | below (position back : Nat)
  /-- No piece of the text goes from one position to the other. -/
  | cut (start stop : Nat)
  /-- A scan went on from one position at another that is not a later one of the text. -/
  | stuck (position next : Nat)
  deriving DecidableEq, Repr

/-- What is computed with checked accesses: a result or a fault. -/
abbrev Checked : Type → Type := Except Fault

/-- The byte at a position. -/
def byteAt (b : List Char) (position : Nat) : Checked Char :=
  match b[position]? with
  | some x => pure x
  | none => throw (.outside position)

/-- The position that stands some bytes before another one. -/
def goBack (position back : Nat) : Checked Nat :=
  if back ≤ position then pure (position - back) else throw (.below position back)

/-- The bytes from a position on. -/
def bytesFrom (b : List Char) (start : Nat) : Checked (List Char) :=
  if start ≤ b.length then pure (b.drop start) else throw (.cut start b.length)

/-- Split a text behind some of its bytes, unless these end inside of a character or are more than
the text has. -/
def splitBytes? : Nat → List Char → Option (List Char × List Char)
  | 0, s => some ([], s)
  | _ + 1, [] => none
  | n + 1, c :: rest =>
    if c.utf8Size ≤ n + 1 then
      (splitBytes? (n + 1 - c.utf8Size) rest).map fun (before, after) => (c :: before, after)
    else none

/-- The piece of a text from one position to another, if characters begin there or the text ends,
and if they stand in order. -/
def piece? (s : List Char) (start stop : Nat) : Option (List Char) :=
  if start ≤ stop then
    (splitBytes? start s).bind fun (_, rest) => (splitBytes? (stop - start) rest).map Prod.fst
  else none

/-- Cut out the piece of a text from one position to another. -/
def cut (s : List Char) (start stop : Nat) : Checked (List Char) :=
  match piece? s start stop with
  | some piece => pure piece
  | none => throw (.cut start stop)

/-- The rest of a text from a position on. -/
def cutFrom (s : List Char) (start : Nat) : Checked (List Char) := cut s start (size s)

/-- The position of the first occurrence of a word. -/
def find? (word : List Char) : List Char → Option Nat
  | [] => if word = [] then some 0 else none
  | c :: rest =>
    if word.isPrefixOf (c :: rest) then some 0 else (find? word rest).map (c.utf8Size + ·)

/-! ### Bytes -/

variable {s t : List Char} {c : Char}

@[simp]
theorem size_nil : size [] = 0 := rfl

@[simp]
theorem size_cons (c : Char) (s : List Char) : size (c :: s) = c.utf8Size + size s := rfl

@[simp]
theorem size_append (s t : List Char) : size (s ++ t) = size s + size t := by
  induction s with
  | nil => simp
  | cons c s ih => simp [ih, Nat.add_assoc]

@[simp]
theorem bytes_nil : bytes [] = [] := rfl

/-- The bytes of a text are those of its characters. -/
theorem bytes_cons (c : Char) (s : List Char) : bytes (c :: s) = bytes [c] ++ bytes s := by
  simp [bytes]

@[simp]
theorem bytes_append (s t : List Char) : bytes (s ++ t) = bytes s ++ bytes t := by
  simp [bytes]

@[simp]
theorem length_bytes (s : List Char) : (bytes s).length = size s := by
  induction s with
  | nil => rfl
  | cons c s ih =>
    rw [bytes_cons, List.length_append, ih, size_cons]
    simp [bytes]

/-- A text that has no bytes has no characters. -/
@[simp]
theorem size_eq_zero_iff : size s = 0 ↔ s = [] := by
  cases s with
  | nil => simp
  | cons c s =>
    have := c.utf8Size_pos
    simp only [size_cons, reduceCtorEq, iff_false]
    omega

/-- More characters take more bytes. -/
theorem size_lt_append (s : List Char) (ht : t ≠ []) : size s < size (s ++ t) := by
  have hpos : size t ≠ 0 := mt size_eq_zero_iff.1 ht
  rw [size_append]
  exact Nat.lt_add_of_pos_right (Nat.pos_of_ne_zero hpos)

/-- A character of ASCII has one byte. -/
theorem utf8Size_of_lt (h : c.toNat < 0x80) : c.utf8Size = 1 :=
  Char.utf8Size_eq_one_iff.2 (UInt32.le_iff_toNat_le.2 (Nat.le_of_lt_succ h))

theorem size_concat_of_lt (h : c.toNat < 0x80) (s : List Char) : size (s ++ [c]) = size s + 1 := by
  rw [size_append, size_cons, utf8Size_of_lt h, size_nil]

/-- The byte of a character of ASCII is shown by this character. -/
theorem bytes_of_lt (h : c.toNat < 0x80) : bytes [c] = [c] := by
  have hbyte : Char.ofUInt8 c.val.toUInt8 = c := by
    apply Char.ext
    apply UInt32.toNat_inj.1
    have hlt : c.val.toNat < 0x80 := h
    rw [show (Char.ofUInt8 c.val.toUInt8).val = c.val.toUInt8.toUInt32 from rfl,
      UInt8.toNat_toUInt32, UInt32.toNat_toUInt8]
    omega
  rw [bytes, List.flatMap_singleton, String.utf8EncodeChar_eq_singleton (utf8Size_of_lt h),
    List.map_singleton, hbyte]

theorem bytes_cons_of_lt (h : c.toNat < 0x80) (s : List Char) : bytes (c :: s) = c :: bytes s := by
  rw [bytes_cons, bytes_of_lt h, List.singleton_append]

/-- No byte of any other character is one of ASCII. -/
theorem le_of_mem_bytes (h : 0x80 ≤ c.toNat) {x : Char} (hx : x ∈ bytes [c]) : 0x80 ≤ x.toNat := by
  obtain ⟨y, hy, rfl⟩ : ∃ y ∈ String.utf8EncodeChar c, Char.ofUInt8 y = x := by
    simpa [bytes] using hx
  have hshown : (Char.ofUInt8 y).toNat = y.toNat := UInt8.toNat_toUInt32 y
  have hc : ¬c.val.toNat ≤ 0x7f := Nat.not_le_of_lt h
  rw [hshown]
  simp only [String.utf8EncodeChar, hc, if_false] at hy
  -- Each byte is a constant of at least 128 and a remainder that does not bring it to 256.
  split at hy
  · simp only [List.mem_cons, List.not_mem_nil, or_false] at hy
    rcases hy with rfl | rfl <;> simp only [UInt8.toNat_ofNat'] <;> omega
  split at hy
  · simp only [List.mem_cons, List.not_mem_nil, or_false] at hy
    rcases hy with rfl | rfl | rfl <;> simp only [UInt8.toNat_ofNat'] <;> omega
  · simp only [List.mem_cons, List.not_mem_nil, or_false] at hy
    rcases hy with rfl | rfl | rfl | rfl <;> simp only [UInt8.toNat_ofNat'] <;> omega

/-! ### Accesses -/

theorem byteAt_of_eq {b : List Char} {n : Nat} {x : Char} (h : b[n]? = some x) :
    byteAt b n = pure x := by
  rw [byteAt, h]

theorem goBack_of_le {n back : Nat} (h : back ≤ n) : goBack n back = pure (n - back) :=
  if_pos h

/-- A text is split behind some of its bytes where these are the bytes of its first characters. -/
theorem splitBytes?_eq_some_iff {n : Nat} {before after : List Char} :
    splitBytes? n s = some (before, after) ↔ before ++ after = s ∧ size before = n := by
  induction s generalizing n before with
  | nil =>
    cases n with
    | zero => simp +contextual [splitBytes?, eq_comm, and_comm]
    | succ n =>
      refine iff_of_false (by simp [splitBytes?]) ?_
      rintro ⟨h, hsize⟩
      simp [(List.append_eq_nil_iff.1 h).1] at hsize
  | cons c s ih =>
    have hpos := c.utf8Size_pos
    cases n with
    | zero =>
      rw [splitBytes?, size_eq_zero_iff]
      constructor
      · rintro ⟨⟩
        exact ⟨rfl, rfl⟩
      · rintro ⟨h, rfl⟩
        rw [← h, List.nil_append]
    | succ n =>
      rw [splitBytes?]
      constructor
      · intro h
        split at h
        · next hle =>
          obtain ⟨⟨before', after'⟩, hsplit, heq⟩ := Option.map_eq_some_iff.1 h
          obtain ⟨rfl, rfl⟩ := Prod.mk.inj heq
          obtain ⟨rfl, hsize⟩ := ih.1 hsplit
          refine ⟨rfl, ?_⟩
          rw [size_cons, hsize]
          omega
        · cases h
      · rintro ⟨h, hsize⟩
        cases before with
        | nil => simp at hsize
        | cons x before =>
          obtain ⟨rfl, hs⟩ := List.cons_eq_cons.1 h
          rw [size_cons] at hsize
          have hrest : splitBytes? (n + 1 - x.utf8Size) s = some (before, after) :=
            ih.2 ⟨hs, by omega⟩
          rw [if_pos (by omega), hrest]
          rfl

/-- A piece goes from where the text before it ends to where it ends itself. -/
theorem piece?_eq_some_iff {start stop : Nat} {piece : List Char} :
    piece? s start stop = some piece ↔
      ∃ before after, before ++ piece ++ after = s ∧ size before = start ∧
        size (before ++ piece) = stop := by
  rw [piece?]
  constructor
  · intro h
    split at h
    · next hle =>
      obtain ⟨⟨before, rest⟩, hbefore, hpiece⟩ := Option.bind_eq_some_iff.1 h
      obtain ⟨⟨_, after⟩, hsplit, rfl⟩ := Option.map_eq_some_iff.1 hpiece
      obtain ⟨rfl, rfl⟩ := splitBytes?_eq_some_iff.1 hbefore
      obtain ⟨rfl, hsize⟩ := splitBytes?_eq_some_iff.1 hsplit
      refine ⟨before, after, by simp, rfl, ?_⟩
      rw [size_append, hsize]
      omega
    · cases h
  · rintro ⟨before, after, rfl, rfl, rfl⟩
    have hbefore : splitBytes? (size before) (before ++ piece ++ after) =
        some (before, piece ++ after) := splitBytes?_eq_some_iff.2 ⟨by simp, rfl⟩
    have hpiece : splitBytes? (size piece) (piece ++ after) = some (piece, after) :=
      splitBytes?_eq_some_iff.2 ⟨rfl, rfl⟩
    rw [size_append, if_pos (Nat.le_add_right _ _), hbefore, Nat.add_sub_cancel_left]
    simp [hpiece]

/-- The piece between two positions of characters is cut out. -/
theorem cut_append (before piece after : List Char) :
    cut (before ++ piece ++ after) (size before) (size (before ++ piece)) = pure piece := by
  rw [cut, piece?_eq_some_iff.2 ⟨before, after, rfl, rfl, rfl⟩]

/-- A piece is cut out at the positions at which it stands. -/
theorem cut_of_eq (before : List Char) {piece : List Char} (after : List Char) {start stop : Nat}
    (h : before ++ piece ++ after = s) (hstart : size before = start)
    (hstop : size (before ++ piece) = stop) : cut s start stop = pure piece := by
  rw [← h, ← hstart, ← hstop, cut_append]

/-- What stands behind a position of a character is cut out. -/
theorem cutFrom_append (before after : List Char) :
    cutFrom (before ++ after) (size before) = pure after := by
  have h := cut_append before after []
  rwa [List.append_nil] at h

/-- The positions of characters and of the end are those at which a text can be split. -/
theorem isValid_iff {n : Nat} :
    String.Pos.Raw.IsValid (String.ofList s) ⟨n⟩ ↔
      ∃ before after, before ++ after = s ∧ size before = n := by
  have hsize (t : List Char) : (String.ofList t).utf8ByteSize = size t := by
    induction t with
    | nil => rfl
    | cons c t ih => simp [String.ofList_cons, ih]
  simp only [String.Pos.Raw.isValid_ofList, hsize]
  constructor
  · rintro ⟨i, rfl⟩
    exact ⟨s.take i, s.drop i, List.take_append_drop i s, rfl⟩
  · rintro ⟨before, after, rfl, rfl⟩
    exact ⟨before.length, by simp⟩

/-- A piece is cut out exactly where characters begin or the text ends at both positions and these
stand in order. -/
theorem exists_cut_iff {start stop : Nat} :
    (∃ piece, cut s start stop = pure piece) ↔
      start ≤ stop ∧ String.Pos.Raw.IsValid (String.ofList s) ⟨start⟩ ∧
        String.Pos.Raw.IsValid (String.ofList s) ⟨stop⟩ := by
  have hcut : (∃ piece, cut s start stop = pure piece) ↔
      ∃ piece, piece? s start stop = some piece := by
    cases h : piece? s start stop with
    | none =>
      refine iff_of_false ?_ (by simp)
      rintro ⟨piece, hpiece⟩
      rw [cut, h] at hpiece
      cases hpiece
    | some piece => exact iff_of_true ⟨piece, by rw [cut, h]⟩ ⟨piece, rfl⟩
  simp only [hcut, piece?_eq_some_iff, isValid_iff]
  constructor
  · rintro ⟨piece, before, after, rfl, rfl, rfl⟩
    exact ⟨by simp, ⟨before, piece ++ after, by simp, rfl⟩, before ++ piece, after, rfl, rfl⟩
  · rintro ⟨hle, ⟨before, rest, rfl, rfl⟩, before', after, h, rfl⟩
    -- The text before the second position begins with the one before the first.
    rcases List.append_eq_append_iff.1 h with ⟨u, rfl, rfl⟩ | ⟨u, rfl, rfl⟩
    · rw [size_append] at hle
      obtain rfl : u = [] := size_eq_zero_iff.1 (by omega)
      exact ⟨[], before', rest, by simp, by simp, by simp⟩
    · exact ⟨u, before, after, by simp, rfl, rfl⟩

end BoundSql.Text
