import BoundSql.Fragment.Basic
import BoundSql.Proofs.Fragment.Marker
import BoundSql.Proofs.Sql.Sound

/-!
# Expanding a template twice

An expanded template has no marker left to be replaced: no marker begins in text that was copied or
with a name that was quoted, and the quoted markers that stood for themselves are found again with
the same extent, whatever now precedes them. So a second expansion changes nothing, under any
quoter.

* `render_expandPieces_cons`, `render_expandPieces_textPiece`: the text of expanded pieces;
* `Settled`: text that expands to itself, and how it is made up;
* `expand_expand`: that an expanded template is such a text.
-/

namespace BoundSql.Fragment

/-! ### The text of expanded pieces -/

section Text

variable {q : Sql.Quoter}

/-- The text of expanded pieces, one behind the other. -/
theorem render_expandPieces_cons (piece : Piece) (rest : List Piece) :
    (expandPieces q (piece :: rest)).map Sql.render =
      match (piece.expand q).map Sql.render with
      | .error e => .error e
      | .ok new => ((expandPieces q rest).map Sql.render).map fun text => new ++ text := by
  rw [expandPieces]
  cases piece.expand q with
  | error e => rfl
  | ok tokens =>
    cases expandPieces q rest with
    | error e => rfl
    | ok others => simp [Except.map, Sql.render_append]

/-- Text pieces are expanded to themselves. -/
theorem render_expandPieces_textPiece (chars : List Char) (rest : List Piece) :
    (expandPieces q (textPiece chars ++ rest)).map Sql.render =
      ((expandPieces q rest).map Sql.render).map fun text => String.ofList chars ++ text := by
  rw [textPiece]
  split
  · next hnil =>
    subst hnil
    cases h : expandPieces q rest <;> simp [Except.map, h]
  · rw [List.singleton_append, render_expandPieces_cons, Piece.expand]
    simp [Except.map, Sql.render_cons, Sql.Token.text]

/-- What pieces are expanded to begins with the text of the first ones. -/
theorem exists_of_render_expandPieces {chars : List Char} {piece : Piece} {rest : List Piece}
    {new : String}
    (h : (expandPieces q (textPiece chars ++ piece :: rest)).map Sql.render = .ok new) :
    ∃ first others, (piece.expand q).map Sql.render = .ok first ∧
      (expandPieces q rest).map Sql.render = .ok others ∧
      new.toList = chars ++ (first.toList ++ others.toList) := by
  rw [render_expandPieces_textPiece, render_expandPieces_cons] at h
  cases hfirst : (piece.expand q).map Sql.render with
  | error e =>
    rw [hfirst] at h
    cases h
  | ok first =>
    cases hothers : (expandPieces q rest).map Sql.render with
    | error e =>
      rw [hfirst, hothers] at h
      cases h
    | ok others =>
      rw [hfirst, hothers] at h
      obtain rfl := Except.ok.inj h
      exact ⟨first, others, rfl, rfl, by simp⟩

end Text

/-! ### Names that are rejected -/

section Refusal

variable {q : Sql.Quoter}

/-- Whether the name at a marker of the fragment is rejected. -/
def IsRefused (q : Sql.Quoter) (f : Fragment) : Prop :=
  ∃ lead keyword name, .marker lead keyword name ∈ scan f.template ∧
    if keyword.isSome then (q.table (String.ofList name)).isOk = false
    else (q.column (String.ofList name)).isOk = false

/-- A change of the result keeps whether there is one. -/
theorem isOk_map {ε α β : Type} (f : α → β) (x : Except ε α) : (x.map f).isOk = x.isOk := by
  cases x <;> rfl

/-- Pieces are not expanded if and only if one of them is not. -/
theorem isOk_expandPieces {pieces : List Piece} :
    (expandPieces q pieces).isOk = false ↔ ∃ piece ∈ pieces, (piece.expand q).isOk = false := by
  induction pieces with
  | nil => simp [expandPieces, Except.isOk, Except.toBool]
  | cons piece pieces ih =>
    rw [expandPieces]
    cases hpiece : piece.expand q with
    | error e => exact iff_of_true rfl ⟨piece, by simp, by rw [hpiece]; rfl⟩
    | ok tokens =>
      rw [isOk_map, ih]
      have hfirst : (piece.expand q).isOk ≠ false := by simp [hpiece, Except.isOk, Except.toBool]
      simp [hfirst]

/-- A fragment is not expanded if and only if the name at one of its markers is rejected. -/
theorem isOk_expand (q : Sql.Quoter) (f : Fragment) :
    (f.expand q).isOk = false ↔ f.IsRefused q := by
  rw [expand, isOk_expandPieces, IsRefused]
  constructor
  · rintro ⟨piece, hmem, hpiece⟩
    cases piece with
    | text chars => cases hpiece
    | quoted chars => cases hpiece
    | marker lead keyword name =>
      refine ⟨lead, keyword, name, hmem, ?_⟩
      cases keyword <;> simpa [Piece.expand, isOk_map] using hpiece
  · rintro ⟨lead, keyword, name, hmem, hname⟩
    refine ⟨_, hmem, ?_⟩
    cases keyword <;> simpa [Piece.expand, isOk_map] using hname

end Refusal

/-! ### Text without markers -/

/-- No marker begins in text without opening brackets. -/
theorem Unmarked.of_not_mem {before s : List Char} (h : '<' ∉ before) : Unmarked before s := by
  rintro a b rfl
  simp at h

/-- No marker begins in text that was passed over, and none with the next character. -/
theorem Unmarked.push {before rest : List Char} {c : Char} (h : Unmarked before (c :: rest))
    (hc : c = '<' → readMarker? rest = none) : Unmarked (before ++ [c]) rest := by
  intro a b heq
  cases b using List.reverseRecOn with
  | nil =>
    obtain ⟨-, hlast⟩ := List.append_inj' heq rfl
    exact hc (List.cons_eq_cons.1 hlast).1
  | append_singleton b x =>
    obtain ⟨hbefore, hlast⟩ := List.append_inj' (heq.trans (by simp : _ = a ++ '<' :: b ++ [x])) rfl
    obtain rfl := (List.cons_eq_cons.1 hlast).1
    rw [List.append_assoc]
    exact h a b hbefore

/-- Where no marker can end in what follows a text, it can be followed by anything of the kind. -/
theorem Unmarked.of_blocks {before s s' : List Char} (h : Unmarked before s) (hs : Blocks s') :
    Unmarked before s' := by
  rintro a b rfl
  cases hmarker : readMarker? (b ++ s') with
  | none => rfl
  | some found =>
    obtain ⟨after, hafter⟩ := hs.readMarker?_append hmarker s
    rw [h a b rfl] at hafter
    cases hafter

/-- No marker begins in a part of text in which none begins. -/
theorem Unmarked.of_append {a b s : List Char} (h : Unmarked (a ++ b) s) : Unmarked a (b ++ s) := by
  rintro x y rfl
  rw [← List.append_assoc]
  exact h x (y ++ b) (by simp)

/-! ### Text that expands to itself -/

/-- Text with what was passed over before it that expands to itself, whatever the quoter. -/
def Settled (pending s : List Char) : Prop :=
  ∀ q : Sql.Quoter,
    (expandPieces q (pieces pending s)).map Sql.render = .ok (String.ofList (pending.reverse ++ s))

namespace Settled

variable {pending before rest : List Char}

/-- Nothing is left to be expanded at the end. -/
theorem nil (pending : List Char) : Settled pending [] := by
  intro q
  have htext := render_expandPieces_textPiece (q := q) pending.reverse []
  rw [List.append_nil] at htext
  rw [pieces, htext, List.append_nil]
  simp [expandPieces, Except.map]

/-- A character with which no marker begins is passed over. -/
theorem cons {c : Char} (hc : c = '<' → readMarker? rest = none) (h : Settled (c :: pending) rest) :
    Settled pending (c :: rest) := by
  intro q
  have hpieces : pieces pending (c :: rest) = pieces (c :: pending) rest := by
    rw [pieces]
    split
    · next hbracket =>
      split
      · rfl
      · next hmarker =>
        rw [hc hbracket] at hmarker
        cases hmarker
    · rfl
  rw [hpieces, h q]
  simp

/-- Text in which no marker begins is passed over. -/
theorem append (hbefore : Unmarked before rest) (h : Settled (before.reverse ++ pending) rest) :
    Settled pending (before ++ rest) := by
  induction before generalizing pending with
  | nil => exact h
  | cons c before ih =>
    refine .cons (fun hc => hbefore [] before (by simp [hc])) (ih ?_ (by simpa using h))
    exact fun a b heq => hbefore (c :: a) b (by simp [heq])

/-- A quoted marker with its closing quote is passed over. -/
theorem quoted {name after inside beyond : List Char} (hm : readMarker? rest = some (name, after))
    (hc : readClosing? (Opening.ofReversed pending).quote after = some (inside, beyond))
    (h : Settled [] beyond) : Settled pending ('<' :: rest) := by
  intro q
  obtain ⟨hname, rfl⟩ := readMarker?_eq_some_iff.1 hm
  have hsource := (Opening.ofReversed_spec pending).2
  have hpieces : pieces pending ('<' :: (name ++ '>' :: after)) =
      textPiece (Opening.ofReversed pending).text ++
        .quoted ((Opening.ofReversed pending).lead ++ (Opening.ofReversed pending).gap ++
          '<' :: name ++ '>' :: inside) :: pieces [] beyond := by
    rw [pieces, if_pos rfl]
    split
    · next hnone => rw [hm] at hnone; cases hnone
    · next hsome =>
      rw [hm] at hsome
      obtain ⟨rfl, rfl⟩ := Prod.mk.inj (Option.some.inj hsome)
      dsimp only
      split
      · next hclosing =>
        rw [hc] at hclosing
        obtain ⟨rfl, rfl⟩ := Prod.mk.inj (Option.some.inj hclosing)
        rfl
      · next hclosing => rw [hc] at hclosing; cases hclosing
  rw [hpieces, render_expandPieces_textPiece, render_expandPieces_cons, Piece.expand, h q,
    ← hsource, (readClosing?_append hc).2.1]
  simp [Except.map, Opening.source, Sql.render_cons, Sql.Token.text, ← String.ofList_append]

end Settled

/-! ### Expanded templates -/

/-- No opening bracket stands in a name. -/
theorem bracket_not_mem_of_isName {name : List Char} (h : Sql.isName name) : '<' ∉ name :=
  IsQualified.not_mem (.inl h) (by decide) (by decide)

/-- A quoted table is a quote and more text without opening brackets. -/
theorem toList_render_table {q : Sql.Quoter} (hq : '<' ∉ q.tablePrefix.toList) {name : String}
    {tokens : Sql.Tokens} (h : q.table name = .ok tokens) :
    ∃ text, (Sql.render tokens).toList = '"' :: text ∧ '<' ∉ text := by
  rw [Sql.Quoter.table] at h
  split at h
  · next hname =>
    obtain rfl := Except.ok.inj h
    refine ⟨q.tablePrefix.toList ++ name.toList ++ ['"'], ?_, ?_⟩
    · simp [Sql.render_cons, Sql.Token.text]
    · simp [hq, bracket_not_mem_of_isName hname]
  · cases h

/-- A quoted column is a quote and more text without opening brackets. -/
theorem toList_render_column {q : Sql.Quoter} (hq : '<' ∉ q.tablePrefix.toList) {name : String}
    {tokens : Sql.Tokens} (h : q.column name = .ok tokens) :
    ∃ text, (Sql.render tokens).toList = '"' :: text ∧ '<' ∉ text := by
  rw [Sql.Quoter.column] at h
  split at h
  · rw [Sql.Quoter.plainColumn] at h
    split at h
    · next hname =>
      obtain rfl := Except.ok.inj h
      refine ⟨name.toList ++ ['"'], ?_, ?_⟩
      · simp [Sql.render_cons, Sql.Token.text]
      · simp [bracket_not_mem_of_isName hname]
    · cases h
  · next qualifier column _ =>
    split at h
    · next hnames =>
      rw [Bool.and_eq_true] at hnames
      obtain rfl := Except.ok.inj h
      refine ⟨q.tablePrefix.toList ++ qualifier ++ ('"' :: '.' :: '"' :: (column ++ ['"'])), ?_, ?_⟩
      · simp [Sql.render_cons, Sql.Token.text, Sql.Word.text]
      · simp [hq, bracket_not_mem_of_isName hnames.1, bracket_not_mem_of_isName hnames.2]
    · cases h

/-- An expanded marker is what preceded it without closing brackets, a quote, and more text without
opening brackets. -/
theorem toList_render_marker {q : Sql.Quoter} (hq : '<' ∉ q.tablePrefix.toList) {o : Opening}
    (ho : o.Fits) {name : List Char} {new : String}
    (h : ((Piece.marker o.lead o.keyword name).expand q).map Sql.render = .ok new) :
    ∃ before text, new.toList = before ++ '"' :: text ∧ '>' ∉ before ∧ '<' ∉ text := by
  cases hk : o.keyword with
  | some keyword =>
    rw [hk, Piece.expand] at h
    cases htable : q.table (String.ofList name) with
    | error e =>
      rw [htable] at h
      cases h
    | ok tokens =>
      rw [htable] at h
      obtain rfl := Except.ok.inj h
      obtain ⟨text, htext, hno⟩ := toList_render_table hq htable
      refine ⟨o.lead ++ (keyword.text.toList ++ [' ']), text, ?_, ?_, hno⟩
      · simp [Sql.render_cons, Sql.Token.text, htext]
      · exact close_not_mem ho.lead (.keyword keyword (List.forall_mem_singleton.2 (by decide)))
  | none =>
    rw [hk, Piece.expand] at h
    cases hcolumn : q.column (String.ofList name) with
    | error e =>
      rw [hcolumn] at h
      cases h
    | ok tokens =>
      rw [hcolumn] at h
      obtain rfl := Except.ok.inj h
      obtain ⟨text, htext, hno⟩ := toList_render_column hq hcolumn
      refine ⟨o.lead ++ [], text, ?_, close_not_mem ho.lead .none, hno⟩
      simp [Sql.render_cons, Sql.Token.text, htext]

/-- The text that a part of a template is expanded to expands to itself, whatever precedes it. -/
theorem settled_of_expandPieces {q : Sql.Quoter} (hq : '<' ∉ q.tablePrefix.toList)
    {pending s : List Char} (hpending : Unmarked pending.reverse s) :
    ∀ new, (expandPieces q (pieces pending s)).map Sql.render = .ok new →
      ∀ before, Settled before new.toList := by
  have hempty (s : List Char) : Unmarked [] s := .of_not_mem (by simp)
  fun_induction pieces pending s with
  | case1 pending =>
    intro new h before
    have htext := render_expandPieces_textPiece (q := q) pending.reverse []
    rw [List.append_nil, h] at htext
    obtain rfl : new = String.ofList pending.reverse := by
      simpa [expandPieces, Except.map] using htext
    have hsettled := Settled.append hpending (.nil (pending.reverse.reverse ++ before))
    simpa using hsettled
  | case2 pending rest hm ih => exact ih (by simpa using hpending.push fun _ => hm)
  | case3 pending rest name after hm opening inside beyond hc ih =>
    -- The marker is found again, and its quote with it.
    intro new h before
    obtain ⟨first, others, hfirst, hothers, hnew⟩ := exists_of_render_expandPieces h
    obtain rfl := Except.ok.inj hfirst
    obtain ⟨hname, -⟩ := readMarker?_eq_some_iff.1 hm
    obtain ⟨hfits, hsource⟩ := Opening.ofReversed_spec pending
    obtain ⟨hquoted, -, hclosing⟩ := readClosing?_append hc
    have hbefore : Unmarked (opening.text ++ (opening.lead ++ opening.gap))
        ('<' :: (name ++ '>' :: (inside ++ others.toList))) := by
      rw [← hsource, Opening.source] at hpending
      exact hpending.of_blocks (blocks_bracket _)
    have hmarker : readMarker? (name ++ '>' :: (inside ++ others.toList)) =
        some (name, inside ++ others.toList) := readMarker?_eq_some_iff.2 ⟨hname, rfl⟩
    have hquote : (Opening.ofReversed
        ((opening.text ++ (opening.lead ++ opening.gap)).reverse ++ before)).quote =
          opening.quote := by
      rw [List.reverse_append, List.append_assoc]
      exact Opening.quote_ofReversed hfits hquoted _
    have hsettled := ih (hempty _) others hothers []
    have hnewText : new.toList = opening.text ++ (opening.lead ++ opening.gap) ++
        '<' :: (name ++ '>' :: (inside ++ others.toList)) := by
      rw [hnew, Sql.render_cons, Sql.render_nil]
      simp [Sql.Token.text]
    have hagain := hclosing others.toList
    rw [← hquote] at hagain
    rw [hnewText]
    exact .append hbefore (.quoted hmarker hagain hsettled)
  | case4 pending rest name after hm opening hc ih =>
    -- The name is quoted, so that nothing before it can become a marker.
    intro new h before
    obtain ⟨first, others, hfirst, hothers, hnew⟩ := exists_of_render_expandPieces h
    obtain ⟨hfits, hsource⟩ := Opening.ofReversed_spec pending
    obtain ⟨lead, text, hmarker, hlead, htext⟩ := toList_render_marker hq hfits hfirst
    have hquote : Blocks ('"' :: (text ++ others.toList)) :=
      ⟨[], '"', _, rfl, by simp, by decide, by decide, by decide⟩
    have hbefore : Unmarked opening.text (lead ++ '"' :: (text ++ others.toList)) := by
      rw [← hsource, Opening.source] at hpending
      exact hpending.of_append.of_blocks (hquote.append_left hlead)
    have hrest : Unmarked ('"' :: text) others.toList := .of_not_mem (by simpa using htext)
    rw [hnew, hmarker, List.append_assoc]
    refine .append hbefore (.append (unmarked_of_not_mem hlead hquote) (.append hrest ?_))
    exact ih (hempty _) others hothers _
  | case5 pending c rest hc ih => exact ih (by simpa using hpending.push fun heq => absurd heq hc)

/-- A template that was expanded expands to itself under every quoter, provided that no opening
bracket was put before its tables. -/
theorem expand_expand {q : Sql.Quoter} (hq : '<' ∉ q.tablePrefix.toList) {f : Fragment}
    {tokens : Sql.Tokens} (h : f.expand q = .ok tokens) (other : Sql.Quoter)
    (params : Keyed String Value) :
    (Fragment.expand other ⟨Sql.render tokens, params⟩).map Sql.render =
      .ok (Sql.render tokens) := by
  have hnew : (expandPieces q (pieces [] f.template.toList)).map Sql.render =
      .ok (Sql.render tokens) := congrArg (Except.map Sql.render) h
  have hsettled := settled_of_expandPieces hq (.of_not_mem (by simp)) _ hnew [] other
  rwa [List.reverse_nil, List.nil_append, String.ofList_toList] at hsettled

/-- A template with a quoted marker and two others, expanded twice. -/
theorem expand_expand_quoted :
    let q : Sql.Quoter := { tablePrefix := "app_" }
    let f : Fragment := { template := "SELECT '<a>', '<b FROM <t>" }
    let text := "SELECT '<a>', '<b FROM \"app_t\""
    (f.expand q).map Sql.render = .ok text ∧
      (Fragment.expand q { template := text }).map Sql.render = .ok text := by
  intro q f text
  obtain ⟨tokens, h, htext⟩ : ∃ tokens, f.expand q = .ok tokens ∧ Sql.render tokens = text :=
    ⟨[.verbatim "SELECT ", .verbatim "'<a>'", .verbatim ", '<b ", .verbatim "FROM ",
      .name "app_t"], by decide +kernel, by decide +kernel⟩
  have hagain := expand_expand (q := q) (by decide) h q []
  rw [htext] at hagain
  exact ⟨by rw [h, ← htext]; rfl, hagain⟩

end BoundSql.Fragment
