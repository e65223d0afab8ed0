import BoundSql.Fragment.Cursor
import BoundSql.Proofs.Fragment.Marker
import BoundSql.Proofs.Sql.Cursor

/-!
# The cursor finds the pieces

A cursor that goes through the bytes of a template finds what the scanner finds in its characters.
The scanner keeps the text since the last piece with its latest character first; the cursor goes
back over the same text by positions, and none of these lies before the last piece or inside of a
character.

* `markerEnd?_append`: the end of a marker is found, or no marker is;
* `opening_append`: so are the keyword, the angle brackets and the quote before it;
* `closingEnd?_append`: and the quote that closes it;
* `Cursor.run_standing`: from where it stands the cursor finds the pieces of what is left;
* `scanners_by_position`: neither cursor ever makes a faulty access, and both come to the end.
-/

namespace BoundSql.Fragment

open Text

/-- A lead begins with what can quote a marker. -/
theorem IsLead.isMarkerQuote {quote : Option Char} {lead : List Char} (h : IsLead quote lead) :
    ∀ q ∈ quote, Fragment.isMarkerQuote q := by
  cases h with
  | none => simp
  | quoted hq n => simpa using hq

namespace Cursor

variable {c : Char}

/-! ### The end of a marker -/

theorem nameEnd_eq (position : Nat) (s : List Char) :
    nameEnd position s = position + size (s.takeWhile Sql.isNameChar) := by
  induction s generalizing position with
  | nil => rfl
  | cons c s ih =>
    rw [nameEnd]
    cases hc : Sql.isNameChar c with
    | false => simp [hc]
    | true => simp [hc, ih, Nat.add_assoc]

/-- The size of a name is that of the characters that are split off. -/
theorem nameSize?_eq (s : List Char) :
    nameSize? s = (Sql.scanName? s).map fun name => size name.1 := by
  cases s with
  | nil => rfl
  | cons c s =>
    rw [nameSize?, Sql.scanName?, nameEnd_eq]
    split <;> rfl

/-- A closing bracket is seen where the text behind a position begins with it. -/
theorem bracketEnd?_append (front rest : List Char) :
    bracketEnd? (front ++ rest) (size front) =
      pure (if rest.head? = some '>' then some (size (front ++ ['>'])) else none) := by
  rw [bracketEnd?, cutFrom_append, pure_bind, size_concat_of_lt (by decide)]

/-- The end of a name is found, be it qualified or not, and a closing bracket is looked for
there. -/
theorem markerEnd?_eq (front rest : List Char) :
    markerEnd? (front ++ '<' :: rest) (size front) =
      match readQualified? rest with
      | some (name, _) => bracketEnd? (front ++ '<' :: rest) (size (front ++ '<' :: name))
      | none => pure none := by
  have hone := (size_concat_of_lt (c := '<') (by decide) front).symm
  rw [markerEnd?, hone, List.append_cons, cutFrom_append, pure_bind, nameSize?_eq, readQualified?]
  cases hname : Sql.scanName? rest with
  | none => rfl
  | some found =>
    obtain ⟨name, after⟩ := found
    obtain ⟨-, rfl⟩ := isName_of_scanName? hname
    have hstop : size (front ++ ['<']) + size name = size (front ++ '<' :: name) := by
      simp [Nat.add_assoc]
    have htext : front ++ ['<'] ++ (name ++ after) = front ++ '<' :: name ++ after := by simp
    simp only [Option.map_some, hstop]
    rw [htext, cutFrom_append, pure_bind]
    split
    · next hpoint =>
      obtain ⟨after, rfl⟩ := List.head?_eq_some_iff.1 hpoint
      have htext : front ++ '<' :: name ++ '.' :: after =
          front ++ '<' :: name ++ ['.'] ++ after := by simp
      rw [htext, ← size_concat_of_lt (c := '.') (by decide), cutFrom_append, pure_bind,
        nameSize?_eq]
      cases hcolumn : Sql.scanName? after with
      | none => simp [hcolumn]
      | some found => simp [hcolumn, Nat.add_assoc]
    · next hpoint =>
      cases after with
      | nil => rfl
      | cons x after =>
        have hx : x ≠ '.' := by rintro rfl; exact hpoint rfl
        simp [hx]

/-- The end of a marker is found, or no marker is. -/
theorem markerEnd?_append (front rest : List Char) :
    markerEnd? (front ++ '<' :: rest) (size front) =
      pure ((readMarker? rest).map fun marker => size (front ++ '<' :: marker.1 ++ ['>'])) := by
  rw [markerEnd?_eq, readMarker?]
  cases hname : readQualified? rest with
  | none => rfl
  | some found =>
    obtain ⟨name, after⟩ := found
    obtain ⟨-, rfl⟩ := isQualified_of_readQualified? hname
    have htext : front ++ '<' :: (name ++ after) = front ++ '<' :: name ++ after := by simp
    dsimp only
    rw [htext, bracketEnd?_append]
    cases after with
    | nil => rfl
    | cons x after =>
      by_cases hx : x = '>'
      · subst hx
        rfl
      · simp [hx]

/-! ### What precedes a marker -/

theorem isCoarse_isMarkerQuote : IsCoarse isMarkerQuote :=
  (isCoarse_eq (by decide)).or (isCoarse_eq (by decide))

/-- A quote is a character of ASCII. -/
theorem toNat_lt_of_isMarkerQuote (h : isMarkerQuote c) : c.toNat < 0x80 := by
  simp only [isMarkerQuote, Bool.or_eq_true, decide_eq_true_eq] at h
  rcases h with rfl | rfl <;> decide

/-- Before a position that is not the first one stands a byte of the last character. -/
theorem exists_byteAt_pred (front : List Char) (c : Char) (rest : List Char) :
    ∃ x ∈ bytes [c], goBack (size (front ++ [c])) 1 = pure (size (front ++ [c]) - 1) ∧
      byteAt (bytes (front ++ [c] ++ rest)) (size (front ++ [c]) - 1) = pure x := by
  obtain ⟨xs, x, hbytes⟩ := (List.eq_nil_or_concat' (bytes [c])).resolve_left (bytes_ne_nil c)
  refine ⟨x, by simp [hbytes], goBack_of_le ?_, byteAt_of_eq ?_⟩
  · exact Nat.one_le_of_lt (size_lt_append front (List.cons_ne_nil c []))
  · rw [getElem?_bytes_pred _ _ (by simp), bytes_append, hbytes, ← List.append_assoc,
      List.getLast?_concat]

/-- The byte before a position behind the last piece decides whether to go back further. -/
theorem bracketsStart_of_lt {b : List Char} {consumed position : Nat} (h : consumed < position) :
    bracketsStart b consumed position = do
      if (← byteAt b (position - 1)) = '<' then bracketsStart b consumed (position - 1)
      else return position := by
  cases position with
  | zero => cases h
  | succ before =>
    rw [bracketsStart, if_pos h]
    rfl

/-- At the end of the last piece no angle brackets are left. -/
theorem bracketsStart_self (b : List Char) (consumed : Nat) :
    bracketsStart b consumed consumed = pure consumed := by
  cases consumed with
  | zero => rfl
  | succ n => rw [bracketsStart, if_neg (lt_irrefl _)]

/-- The angle brackets before a position are passed over. -/
theorem bracketsStart_append (front before rest : List Char) :
    bracketsStart (bytes (front ++ before.reverse ++ rest)) (size front)
        (size (front ++ before.reverse)) =
      pure (size (front ++ (before.dropWhile (· = '<')).reverse)) := by
  induction before generalizing rest with
  | nil => simp [bracketsStart_self]
  | cons c before ih =>
    have hlt : size front < size (front ++ before.reverse ++ [c]) := by
      rw [List.append_assoc]
      exact size_lt_append front (by simp)
    obtain ⟨x, hx, -, hbyte⟩ := exists_byteAt_pred (front ++ before.reverse) c rest
    have htest : x = '<' ↔ c = '<' := by
      simpa using (isCoarse_eq (by decide : '<'.toNat < 0x80)).eq_of_mem_bytes hx
    rw [List.reverse_cons, ← List.append_assoc, bracketsStart_of_lt hlt, hbyte, pure_bind]
    by_cases hc : c = '<'
    · have hrest := ih ('<' :: rest)
      rw [if_pos (htest.2 hc), hc, size_concat_of_lt (by decide), Nat.add_sub_cancel,
        List.dropWhile_cons_of_pos (by simp)]
      simpa using hrest
    · rw [if_neg (mt htest.1 hc), List.dropWhile_cons_of_neg (by simpa using hc)]
      simp

/-- The quote before a position is seen. -/
theorem quoteBefore?_append (front before rest : List Char) :
    quoteBefore? (bytes (front ++ before.reverse ++ rest)) (size front)
        (size (front ++ before.reverse)) =
      pure (before.head?.filter isMarkerQuote) := by
  cases before with
  | nil => simp [quoteBefore?]
  | cons c before =>
    have hlt : size front < size (front ++ before.reverse ++ [c]) := by
      rw [List.append_assoc]
      exact size_lt_append front (by simp)
    obtain ⟨x, hx, hback, hbyte⟩ := exists_byteAt_pred (front ++ before.reverse) c rest
    have htest : isMarkerQuote x = isMarkerQuote c := isCoarse_isMarkerQuote.eq_of_mem_bytes hx
    rw [List.reverse_cons, ← List.append_assoc, quoteBefore?, if_pos hlt, hback, pure_bind, hbyte,
      pure_bind, htest, List.head?_cons]
    split
    · next hc =>
      rw [bytes_of_lt (toNat_lt_of_isMarkerQuote hc), List.mem_singleton] at hx
      rw [hx, Option.filter_some_pos hc]
    · next hc => rw [Option.filter_some_neg (Bool.eq_false_iff.2 hc)]

/-- The quote before a marker or its keyword is found, and where it stands. -/
theorem leadStart_append (front before rest : List Char) (keyword : Option TableKeyword)
    (gap : List Char) :
    leadStart (bytes (front ++ before.reverse ++ rest)) (size front)
        (size (front ++ before.reverse)) =
      pure ((Opening.behind before keyword gap).quote,
        size (front ++ (Opening.behind before keyword gap).text)) := by
  obtain ⟨brackets, other, hbefore, hdrop⟩ : ∃ brackets other, brackets ++ other = before ∧
      before.dropWhile (· = '<') = other :=
    ⟨_, _, List.takeWhile_append_dropWhile, rfl⟩
  have hquote := quoteBefore?_append front other (brackets.reverse ++ rest)
  have htext : front ++ other.reverse ++ (brackets.reverse ++ rest) =
      front ++ before.reverse ++ rest := by simp [← hbefore]
  rw [htext] at hquote
  rw [leadStart, bracketsStart_append, pure_bind, hdrop, hquote, pure_bind, Opening.behind, hdrop]
  cases other with
  | nil => simp
  | cons c other =>
    rw [List.head?_cons]
    by_cases hc : isMarkerQuote c
    · have hback : goBack (size (front ++ (c :: other).reverse)) 1 =
          pure (size (front ++ other.reverse)) := by
        rw [List.reverse_cons, ← List.append_assoc,
          size_concat_of_lt (toNat_lt_of_isMarkerQuote hc), goBack_of_le (Nat.le_add_left _ _),
          Nat.add_sub_cancel]
      rw [Option.filter_some_pos hc]
      simp only [hback, pure_bind, hc, if_true]
    · rw [Option.filter_some_neg (Bool.eq_false_iff.2 hc)]
      simp [hc]

/-- The keyword that a text ends with is the one that is split off. -/
theorem find?_isSuffixOf (reversed : List Char) :
    (TableKeyword.all.find? fun keyword => keyword.text.toList.isSuffixOf reversed.reverse) =
      (TableKeyword.splitOff? reversed).map Prod.fst := by
  rw [TableKeyword.splitOff?]
  induction TableKeyword.all with
  | nil => rfl
  | cons keyword others ih =>
    have hsuffix : keyword.text.toList.isSuffixOf reversed.reverse =
        (dropPrefix? keyword.text.toList.reverse reversed).isSome := by
      rw [isSome_dropPrefix?, List.isSuffixOf, List.reverse_reverse]
    rw [List.find?_cons, List.findSome?_cons, hsuffix, ih]
    cases dropPrefix? keyword.text.toList.reverse reversed <;> rfl

/-- The keyword before a marker is found, and where it begins. -/
theorem keywordStart_append (front pending rest : List Char) :
    ∃ before keyword gap, Opening.ofReversed pending = Opening.behind before keyword gap ∧
      before.reverse ++ gap = pending.reverse ∧
      keywordStart (front ++ pending.reverse ++ rest) (size front)
          (size (front ++ pending.reverse)) =
        pure (keyword, size (front ++ before.reverse)) := by
  have htrim : trimEnd pending.reverse = (pending.dropWhile Unicode.isBlank).reverse := by
    rw [trimEnd, trimStart, List.reverse_reverse]
  rw [keywordStart, cut_append, pure_bind, htrim]
  simp only [find?_isSuffixOf]
  cases hsplit : TableKeyword.splitOff? (pending.dropWhile Unicode.isBlank) with
  | none => exact ⟨pending, none, [], Opening.ofReversed_of_none hsplit, List.append_nil _, rfl⟩
  | some found =>
    obtain ⟨k, before⟩ := found
    obtain ⟨blanks, -, hdrop, hpending, hfound⟩ := Opening.ofReversed_of_some hsplit
    refine ⟨before, some k, k.text.toList ++ blanks, hfound, by simp [hpending], ?_⟩
    have hsize : size front + size (pending.dropWhile Unicode.isBlank).reverse =
        size (front ++ before.reverse) + size k.text.toList := by
      rw [hdrop]
      simp [Nat.add_assoc]
    dsimp only [Option.map_some]
    rw [hsize, goBack_of_le (Nat.le_add_left _ _), pure_bind, Nat.add_sub_cancel]

/-- What precedes a marker is found where it begins. -/
theorem opening_append (front pending rest : List Char) :
    let o := Opening.ofReversed pending
    keywordStart (front ++ pending.reverse ++ rest) (size front) (size (front ++ pending.reverse)) =
        pure (o.keyword, size (front ++ (o.text ++ o.lead))) ∧
      leadStart (bytes (front ++ pending.reverse ++ rest)) (size front)
        (size (front ++ (o.text ++ o.lead))) = pure (o.quote, size (front ++ o.text)) := by
  obtain ⟨before, keyword, gap, hopening, hpending, hkeyword⟩ :=
    keywordStart_append front pending rest
  obtain ⟨hbefore, -, hfound, -⟩ := Opening.behind_spec before keyword gap
  have hlead := leadStart_append front before (gap ++ rest) keyword gap
  rw [← List.append_assoc, List.append_assoc front, hpending] at hlead
  intro o
  rw [show o = Opening.behind before keyword gap from hopening, hbefore, hfound]
  exact ⟨hkeyword, hlead⟩

/-- The quote that closes a marker is found. -/
theorem closingEnd?_append {quote : Option Char} (hquote : ∀ q ∈ quote, isMarkerQuote q)
    (front rest : List Char) :
    closingEnd? (bytes (front ++ rest)) quote (size front) =
      pure ((readClosing? quote rest).map fun closing => size (front ++ closing.1)) := by
  cases quote with
  | none => rfl
  | some q =>
    have hq := toNat_lt_of_isMarkerQuote (hquote q rfl)
    have hcoarse : IsCoarse fun c => !(decide (c = q) || decide (c = ',')) := fun c d hc hd =>
      congrArg not (((isCoarse_eq hq).or (isCoarse_eq (by decide))) c d hc hd)
    have hfind := hcoarse.findIdx?_bytes rest
    simp only [Bool.not_not] at hfind
    rw [closingEnd?]
    simp only [bytesFrom_bytes, pure_bind, hfind, readClosing?, Option.bind_eq_bind,
      Option.bind_some]
    -- Either nothing stops the search, or the first character that does is a quote or a comma.
    obtain ⟨run, other, hother, hrun, hdrop⟩ : ∃ run other, run ++ other = rest ∧
        rest.takeWhile (fun c => !(decide (c = q) || decide (c = ','))) = run ∧
        rest.dropWhile (fun c => !(decide (c = q) || decide (c = ','))) = other :=
      ⟨_, _, List.takeWhile_append_dropWhile, rfl, rfl⟩
    rw [hrun, hdrop]
    cases other with
    | nil =>
      rw [if_pos (List.all_eq_true.2 (List.dropWhile_eq_nil_iff.1 hdrop))]
      rfl
    | cons c other =>
      have hstop : c = q ∨ c = ',' := by
        have hhead := List.head?_dropWhile_not (fun c => !(decide (c = q) || decide (c = ','))) rest
        rw [hdrop] at hhead
        simpa [or_iff_not_imp_left] using hhead
      have hc : c.toNat < 0x80 := by
        rcases hstop with rfl | rfl
        · exact hq
        · decide
      have hall : ¬rest.all (fun c => !(decide (c = q) || decide (c = ','))) := by
        rw [← hother]
        rcases hstop with h | h <;> simp [h]
      rw [if_neg hall, ← hother]
      simp only [byteAt_bytes hc, pure_bind]
      by_cases h : c = q
      · rw [if_pos h, if_pos h, Option.map_some, ← List.append_assoc, size_concat_of_lt hq,
          size_append]
      · rw [if_neg h, if_neg h]
        rfl

/-! ### One step -/

/-- The cursor behind `done`, of which pieces have been made, and the reversed text `pending`, of
which none have. -/
def standing (done pending : List Char) (found : List Piece) : Cursor where
  consumed := size done
  search := size (done ++ pending.reverse)
  found := found

variable (done pending : List Char) (found : List Piece)

/-- The text before a position becomes a piece. -/
theorem flush_standing (text rest : List Char) :
    (standing done pending found).flush (done ++ text ++ rest) (size (done ++ text)) =
      pure (found ++ textPiece text) := by
  cases text with
  | nil => simp [flush, standing, textPiece]
  | cons c text =>
    rw [flush, standing, if_pos (size_lt_append done (List.cons_ne_nil c text)), cut_append]
    rfl

/-- The cursor behind a marker of which a piece has been made. -/
def behindMarker (name after : List Char) : Cursor :=
  let opening := Opening.ofReversed pending
  match readClosing? opening.quote after with
  | some (inside, _) =>
    standing (done ++ pending.reverse ++ '<' :: name ++ '>' :: inside) []
      (found ++ textPiece opening.text ++
        [.quoted (opening.lead ++ opening.gap ++ '<' :: name ++ '>' :: inside)])
  | none =>
    standing (done ++ pending.reverse ++ '<' :: name ++ ['>']) []
      (found ++ textPiece opening.text ++ [.marker opening.lead opening.keyword name])

/-- Behind a marker the cursor has passed it, and with it perhaps what goes to a closing quote. -/
theorem exists_search_behindMarker (name after : List Char) :
    ∃ passed rest, passed ++ rest = name ++ '>' :: after ∧
      (behindMarker done pending found name after).search =
        size (done ++ pending.reverse ++ '<' :: passed) := by
  rw [behindMarker]
  split
  · next inside beyond hclosing =>
    obtain ⟨-, rfl, -⟩ := readClosing?_append hclosing
    exact ⟨name ++ '>' :: inside, beyond, by simp, by simp [standing]⟩
  · exact ⟨name ++ ['>'], after, by simp, by simp [standing]⟩

/-- At a marker the cursor takes what precedes it and the marker. -/
theorem take_standing (name after : List Char) :
    (standing done pending found).take (done ++ pending.reverse ++ '<' :: name ++ '>' :: after)
        (size (done ++ pending.reverse)) (size (done ++ pending.reverse ++ '<' :: name ++ ['>'])) =
      pure (behindMarker done pending found name after) := by
  generalize hs : done ++ pending.reverse ++ '<' :: name ++ '>' :: after = s
  have hname : cut s (size (done ++ pending.reverse) + 1)
      (size (done ++ pending.reverse ++ '<' :: name)) = pure name :=
    cut_of_eq (done ++ pending.reverse ++ ['<']) ('>' :: after) (by simp [← hs])
      (size_concat_of_lt (by decide) _) (by simp)
  have hback : goBack (size (done ++ pending.reverse ++ '<' :: name ++ ['>'])) 1 =
      pure (size (done ++ pending.reverse ++ '<' :: name)) := by
    rw [size_concat_of_lt (by decide), goBack_of_le (Nat.le_add_left _ _), Nat.add_sub_cancel]
  obtain ⟨hkeyword, hstart⟩ := opening_append done pending ('<' :: name ++ '>' :: after)
  rw [← List.append_assoc, hs] at hkeyword hstart
  obtain ⟨hfits, hsource⟩ := Opening.ofReversed_spec pending
  rw [behindMarker]
  generalize Opening.ofReversed pending = o at *
  rw [Opening.source] at hsource
  have hsplit : s = done ++ o.text ++ (o.lead ++ o.gap ++ '<' :: name ++ '>' :: after) := by
    simp [← hs, ← hsource]
  have hflush := flush_standing done pending found o.text
    (o.lead ++ o.gap ++ '<' :: name ++ '>' :: after)
  rw [← hsplit] at hflush
  have hclosing := closingEnd?_append hfits.lead.isMarkerQuote
    (done ++ pending.reverse ++ '<' :: name ++ ['>']) after
  rw [List.append_assoc _ ['>'], List.singleton_append, hs] at hclosing
  simp only [standing] at hflush
  simp only [take, standing, hback, hname, hkeyword, hstart, hflush, hclosing, pure_bind]
  cases hread : readClosing? o.quote after with
  | none =>
    have hlead : cut s (size (done ++ o.text)) (size (done ++ (o.text ++ o.lead))) =
        pure o.lead := by
      refine cut_of_eq (done ++ o.text) (o.gap ++ '<' :: name ++ '>' :: after) ?_ rfl ?_
      · simp [hsplit]
      · rw [List.append_assoc]
    simp only [Option.map_none, hlead, pure_bind, List.reverse_nil, List.append_nil]
  | some closing =>
    obtain ⟨inside, beyond⟩ := closing
    obtain ⟨-, rfl, -⟩ := readClosing?_append hread
    have hquoted : cut s (size (done ++ o.text))
        (size (done ++ pending.reverse ++ '<' :: name ++ '>' :: inside)) =
          pure (o.lead ++ o.gap ++ '<' :: name ++ '>' :: inside) := by
      refine cut_of_eq (done ++ o.text) beyond ?_ rfl ?_
      · simp [hsplit]
      · simp [← hsource]
    simp only [Option.map_some, List.append_assoc _ ['>'], List.singleton_append, hquoted,
      pure_bind, List.reverse_nil, List.append_nil]

/-! ### All steps -/

/-- At a bracket the cursor goes on behind what it has passed with it. -/
theorem run_bracket (passed : List Char) {rest : List Char} {next : Cursor}
    (h : (standing done pending found).passBracket
      (done ++ pending.reverse ++ '<' :: (passed ++ rest)) (size (done ++ pending.reverse)) =
        pure next)
    (hnext : next.search = size (done ++ pending.reverse ++ '<' :: passed)) :
    run (done ++ pending.reverse ++ '<' :: (passed ++ rest)) (standing done pending found) =
      run (done ++ pending.reverse ++ '<' :: (passed ++ rest)) next := by
  generalize hs : done ++ pending.reverse ++ '<' :: (passed ++ rest) = s at h ⊢
  change (standing done pending found).passBracket s (standing done pending found).search = _ at h
  have hfrom : cutFrom s (standing done pending found).search = pure ('<' :: (passed ++ rest)) := by
    rw [← hs]
    exact cutFrom_append _ _
  have hfind : find? ['<'] ('<' :: (passed ++ rest)) = some 0 := by simp [find?]
  have hlt : (standing done pending found).search < next.search := by
    rw [hnext]
    exact size_lt_append _ (List.cons_ne_nil '<' passed)
  have hle : next.search ≤ size s := by
    rw [hnext, ← hs]
    simp
  rw [run, hfrom, pure_bind, hfind]
  dsimp only
  rw [Nat.add_zero, h, pure_bind, dif_pos ⟨hlt, hle⟩]

/-- A character at which no marker begins is passed over. -/
theorem run_text {rest : List Char} (h : c = '<' → readMarker? rest = none) :
    run (done ++ pending.reverse ++ c :: rest) (standing done pending found) =
      run (done ++ pending.reverse ++ c :: rest) (standing done (c :: pending) found) := by
  have hbehind : size (done ++ (c :: pending).reverse) =
      size (done ++ pending.reverse) + c.utf8Size := by simp [Nat.add_assoc]
  by_cases hc : c = '<'
  · subst hc
    refine run_bracket done pending found [] ?_ (by simp [standing])
    rw [passBracket, List.nil_append, markerEnd?_append, h rfl, standing, standing, hbehind]
    rfl
  · have hfind : find? ['<'] (c :: rest) = (find? ['<'] rest).map (c.utf8Size + ·) := by
      rw [find?, if_neg (by simpa using Ne.symm hc)]
    have hrest := cutFrom_append (done ++ (c :: pending).reverse) rest
    have htext : done ++ (c :: pending).reverse ++ rest = done ++ pending.reverse ++ c :: rest := by
      simp
    rw [htext, hbehind] at hrest
    rw [run]
    conv_rhs => rw [run]
    simp only [standing, cutFrom_append, hrest, pure_bind, hfind, hbehind]
    cases find? ['<'] rest with
    | none => rfl
    | some n =>
      simp only [Option.map_some, Nat.add_assoc]
      rfl

/-- At a marker the cursor goes on behind it. -/
theorem run_marker {rest name after : List Char} (h : readMarker? rest = some (name, after)) :
    run (done ++ pending.reverse ++ '<' :: rest) (standing done pending found) =
      run (done ++ pending.reverse ++ '<' :: rest)
        (behindMarker done pending found name after) := by
  obtain ⟨-, rfl⟩ := readMarker?_eq_some_iff.1 h
  have htake := take_standing done pending found name after
  rw [List.append_assoc _ ('<' :: name), List.cons_append] at htake
  obtain ⟨passed, beyond, hpassed, hsearch⟩ :=
    exists_search_behindMarker done pending found name after
  rw [← hpassed] at h htake ⊢
  refine run_bracket done pending found passed ?_ hsearch
  rw [passBracket, markerEnd?_append, h, pure_bind]
  exact htake

/-- From where it stands the cursor finds the pieces of what is left. -/
theorem run_standing (rest : List Char) :
    run (done ++ pending.reverse ++ rest) (standing done pending found) =
      pure (found ++ pieces pending rest) := by
  -- The induction is on the pieces of what is left; what no marker begins with is put to `pending`.
  fun_induction pieces pending rest generalizing done found with
  | case1 pending =>
    have hflush := flush_standing done pending found pending.reverse []
    have hfrom := cutFrom_append (done ++ pending.reverse) []
    rw [List.append_nil] at hflush hfrom ⊢
    rw [run]
    simp only [standing] at hflush ⊢
    simp only [hfrom, pure_bind, find?]
    exact hflush
  | case2 pending rest hnone ih =>
    rw [run_text _ _ _ fun _ => hnone]
    simpa using ih done found
  | case3 pending rest name after hmarker opening inside beyond hclosing ih =>
    obtain ⟨-, rfl⟩ := readMarker?_eq_some_iff.1 hmarker
    obtain ⟨-, rfl, -⟩ := readClosing?_append hclosing
    have hrest := ih (done ++ pending.reverse ++ '<' :: name ++ '>' :: inside)
      (found ++ textPiece opening.text ++
        [.quoted (opening.lead ++ opening.gap ++ '<' :: name ++ '>' :: inside)])
    rw [run_marker _ _ _ hmarker, behindMarker,
      show readClosing? (Opening.ofReversed pending).quote _ = _ from hclosing]
    simpa using hrest
  | case4 pending rest name after hmarker opening hclosing ih =>
    obtain ⟨-, rfl⟩ := readMarker?_eq_some_iff.1 hmarker
    have hrest := ih (done ++ pending.reverse ++ '<' :: name ++ ['>'])
      (found ++ textPiece opening.text ++ [.marker opening.lead opening.keyword name])
    rw [run_marker _ _ _ hmarker, behindMarker,
      show readClosing? (Opening.ofReversed pending).quote _ = _ from hclosing]
    simpa using hrest
  | case5 pending c rest hc ih =>
    rw [run_text _ _ _ fun h => absurd h hc]
    simpa using ih done found

end Cursor

/-- The cursor finds the pieces of every template. -/
theorem scanByPosition_eq (template : String) : scanByPosition template = pure (scan template) :=
  Cursor.run_standing [] [] [] template.toList

/-- In every text the cursors come to the end and find the segments and the pieces. Each byte that
they read is one of the text, no position is below the beginning, each piece that they cut goes from
the beginning of a character to the beginning of the same or a later one or to the end, and each
step leads to a later position. -/
theorem scanners_by_position (sql template : String) :
    Sql.segmentsByPosition sql = .ok (Sql.segments sql) ∧
      scanByPosition template = .ok (scan template) :=
  ⟨Sql.segmentsByPosition_eq sql, scanByPosition_eq template⟩

end BoundSql.Fragment
