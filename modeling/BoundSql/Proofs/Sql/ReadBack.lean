import BoundSql.Proofs.Sql.Precedence

/-!
# Reading formulas back

A formula that is written with its groups in parentheses is read back, without its groups of one
part. What follows it only matters in that a point would go on with a name.

* `Atom.read?_tokens`: conditions without connectives are read back;
* `Formula.readOperand?_tokens` and `Formula.readOperand?_siblings`: formulas and formulas under a
  connective are read back into any frame;
* `readFormula?_siblings`: so they are from the start of a text.
-/

namespace BoundSql.Sql

variable {rest : List Lexeme}

/-- A name is read back unless a point follows it. -/
theorem Reference.read?_tokens (r : Reference) (hrest : rest.head? ≠ some (.mark '.')) :
    read? (r.tokens.flatMap Token.lexemes ++ rest) = some (r, rest) := by
  -- Of what can follow a name without table only a point would be read as part of it.
  obtain ⟨_ | qualifier, name⟩ := r
  · change read? (.name name :: rest) = _
    rcases rest with _ | ⟨_ | _ | _ | _ | c, rest⟩
    case cons.mark =>
      have hc : c ≠ '.' := fun h => hrest (by rw [h]; rfl)
      simp [read?, hc]
    all_goals rfl
  · rfl

/-- The right side of a comparison is read back unless a point follows it. -/
theorem Operand.read?_tokens (o : Operand) (hrest : rest.head? ≠ some (.mark '.')) :
    read? (o.tokens.flatMap Token.lexemes ++ rest) = some (o, rest) := by
  cases o with
  | parameter label => rfl
  | column r =>
    have hr := r.read?_tokens hrest
    have hread : read? (r.tokens.flatMap Token.lexemes ++ rest) =
        (Reference.read? (r.tokens.flatMap Token.lexemes ++ rest)).map fun found =>
          (.column found.1, found.2) := by
      rcases r with ⟨_ | _, _⟩ <;> rfl
    rw [tokens, hread, hr]
    rfl

/-- The lexemes of a list of parameters. -/
theorem lexemes_labels (first : String) (others : List String) :
    (joinWith .commaSpace ((first :: others).map fun label => [.parameter label])).flatMap
        Token.lexemes =
      .parameter first :: others.flatMap fun label => [.mark ',', .parameter label] := by
  induction others generalizing first with
  | nil => rfl
  | cons next others ih =>
    have hjoin : joinWith .commaSpace ((first :: next :: others).map fun l => [.parameter l]) =
        [.parameter first] ++ Token.word .commaSpace ::
          joinWith .commaSpace ((next :: others).map fun l => [.parameter l]) := rfl
    rw [hjoin, List.flatMap_append, List.flatMap_cons (x := Token.word .commaSpace), ih next]
    rfl

/-- A list of parameters is read back up to its closing parenthesis. -/
theorem readLabels?_append (labels : List String) :
    readLabels? (labels.flatMap (fun label => [.mark ',', .parameter label]) ++
      .mark ')' :: rest) = some (labels, rest) := by
  induction labels with
  | nil => rfl
  | cons label labels ih =>
    change (readLabels? (labels.flatMap (fun label => [.mark ',', .parameter label]) ++
      .mark ')' :: rest)).map _ = _
    rw [ih]
    rfl

/-- The start of a condition without connectives is a name, unless no row meets it. -/
theorem Atom.read?_of_reference {r : Reference} {a : Atom} {test after : List Lexeme}
    (htest : test.head? ≠ some (.mark '.')) (hread : readTest? r test = some (a, after)) :
    read? (r.tokens.flatMap Token.lexemes ++ test) = some (a, after) := by
  have hbind : read? (r.tokens.flatMap Token.lexemes ++ test) =
      (Reference.read? (r.tokens.flatMap Token.lexemes ++ test)).bind fun found =>
        readTest? found.1 found.2 := by
    rcases r with ⟨_ | _, _⟩ <;> rfl
  rw [hbind, r.read?_tokens htest]
  exact hread

/-- A condition without connectives is read back unless a point follows it. -/
theorem Atom.read?_tokens (a : Atom) (hrest : rest.head? ≠ some (.mark '.')) :
    read? (a.tokens.flatMap Token.lexemes ++ rest) = some (a, rest) := by
  cases a with
  | compare left op right =>
    rw [tokens, List.flatMap_append, List.flatMap_cons, List.append_assoc]
    refine read?_of_reference (by simp) ?_
    simp only [Token.lexemes, Word.lexemes, List.cons_append, List.nil_append]
    rw [readTest?, Comparison.ofText?_text]
    dsimp only
    rw [right.read?_tokens hrest]
    rfl
  | isNull column =>
    rw [tokens, List.flatMap_append, List.append_assoc]
    exact read?_of_reference (by simp) rfl
  | among column first others =>
    rw [tokens, List.flatMap_append, List.flatMap_append, List.flatMap_cons, lexemes_labels,
      List.append_assoc, List.append_assoc]
    refine read?_of_reference (by simp) ?_
    change (readLabels? (others.flatMap _ ++ .mark ')' :: rest)).map _ = _
    rw [readLabels?_append]
    rfl
  | never => rfl

namespace Frame

/-- The frame after formulas under a connective were read into it. -/
def takeAll (c : Connective) (frame : Frame) : List Formula → Frame
  | [] => frame
  | [part] => frame.factor part
  | part :: next :: rest =>
    match c with
    | .and => takeAll c (frame.factor part) (next :: rest)
    | .or => takeAll c (frame.factor part).alternative (next :: rest)

/-- Formulas under AND become factors. -/
theorem takeAll_and (frame : Frame) (parts : List Formula) :
    frame.takeAll .and parts = { frame with factors := frame.factors ++ parts } := by
  induction parts generalizing frame with
  | nil => simp [takeAll]
  | cons part rest ih =>
    cases rest with
    | nil => rfl
    | cons next rest =>
      rw [takeAll, ih]
      simp [factor]

/-- Formulas under OR become alternatives, the last of which is not complete. -/
theorem formula_takeAll_or (alternatives : List Formula) {parts : List Formula} (hne : parts ≠ []) :
    (takeAll .or { alternatives } parts).formula = .joined .or (alternatives ++ parts) := by
  -- Every formula but the last one completes an alternative, which moves to the others.
  induction parts generalizing alternatives with
  | nil => exact absurd rfl hne
  | cons part rest ih =>
    cases rest with
    | nil => rfl
    | cons next rest =>
      have hpart : ((Frame.factor { alternatives } part).alternative) =
          { alternatives := alternatives ++ [part] } := rfl
      rw [takeAll, hpart, ih (alternatives ++ [part]) (by simp), List.append_assoc]
      rfl

/-- Formulas that are read into an empty frame are the formula of the frame. -/
theorem formula_takeAll (c : Connective) {parts : List Formula} (hne : parts ≠ []) :
    (takeAll c {} parts).formula = .joined c parts := by
  cases c with
  | and =>
    rw [takeAll_and]
    rfl
  | or => exact formula_takeAll_or [] hne

end Frame

variable {outer : List Frame} {frame : Frame}

/-- A condition without connectives is read into the frame as a factor. -/
theorem readOperand?_atom {a : Atom} {lexemes : List Lexeme}
    (h : Atom.read? lexemes = some (a, rest)) :
    readOperand? outer frame lexemes = readOperator? outer (frame.factor (.atom a)) rest := by
  cases lexemes with
  | nil => cases h
  | cons lexeme lexemes =>
    -- A condition begins with a name or a number, never with a parenthesis.
    have hopen : lexeme ≠ .mark '(' := by
      rintro rfl
      cases h
    rw [readOperand?, if_neg hopen]
    split
    · next found left hfound =>
      obtain ⟨rfl, rfl⟩ := Prod.mk.inj (Option.some.inj (hfound.symm.trans h))
      rfl
    · next hnone => exact absurd (hnone.symm.trans h) (by simp)

/-- Behind a connective the next condition is read, under OR into a new alternative. -/
theorem readOperator?_keyword (c : Connective) (lexemes : List Lexeme) :
    readOperator? outer frame (.word c.text :: lexemes) =
      readOperand? outer (match c with
        | .and => frame
        | .or => frame.alternative) lexemes := by
  rw [readOperator?.eq_def]
  cases c with
  | and => exact if_pos rfl
  | or => exact (if_neg (by decide)).trans (if_pos rfl)

/-- Behind a closing parenthesis what was in the parentheses is a factor. -/
theorem readOperator?_close {next : Frame} (lexemes : List Lexeme) :
    readOperator? (next :: outer) frame (.mark ')' :: lexemes) =
      readOperator? outer (next.factor frame.formula) lexemes := by
  rw [readOperator?, if_neg (by decide), if_neg (by decide), if_pos rfl]

mutual

/-- A formula is read back into the frame as a factor, without its groups of one part. -/
theorem Formula.readOperand?_tokens : ∀ (f : Formula) (outer : List Frame) (frame : Frame)
    {rest : List Lexeme}, f.Filled → rest.head? ≠ some (.mark '.') →
      readOperand? outer frame (f.tokens.flatMap Token.lexemes ++ rest) =
        readOperator? outer (frame.factor f.collapse) rest
  | .atom a, outer, frame, rest, _, hrest => readOperand?_atom (a.read?_tokens hrest)
  | .group c parts, outer, frame, rest, hfilled, _ => by
    have hne := Formula.collapseAll_ne_nil hfilled.1
    -- The group is read into a frame of its own, which ends at the parenthesis that closes it.
    have hclose : (Lexeme.mark ')' :: rest).head? ≠ some (.mark '.') := by simp
    rw [Formula.tokens, List.flatMap_append, List.flatMap_cons, List.flatMap_singleton]
    simp only [Token.lexemes, Word.lexemes, List.append_assoc, List.cons_append, List.nil_append]
    rw [readOperand?, if_pos rfl,
      Formula.readOperand?_siblings c parts (frame :: outer) {} hfilled.1 hfilled.2 hclose,
      readOperator?_close, Frame.formula_takeAll c hne]
    rfl

/-- Formulas under a connective are read back into the frame, without their groups of one part. -/
theorem Formula.readOperand?_siblings (c : Connective) : ∀ (parts : List Formula)
    (outer : List Frame) (frame : Frame) {rest : List Lexeme}, parts ≠ [] →
      Formula.AllFilled parts → rest.head? ≠ some (.mark '.') →
      readOperand? outer frame ((Formula.siblings c parts).flatMap Token.lexemes ++ rest) =
        readOperator? outer (frame.takeAll c (Formula.collapseAll parts)) rest
  | [], _, _, _, hne, _, _ => absurd rfl hne
  | [part], outer, frame, rest, _, hfilled, hrest =>
    part.readOperand?_tokens outer frame hfilled.1 hrest
  | part :: next :: parts, outer, frame, rest, _, hfilled, hrest => by
    rw [Formula.siblings, List.flatMap_append, List.flatMap_cons, Token.lexemes, Word.lexemes,
      List.append_assoc, List.append_assoc, List.singleton_append,
      part.readOperand?_tokens outer frame hfilled.1 (by simp),
      readOperator?_keyword,
      Formula.readOperand?_siblings c (next :: parts) outer _ (by simp) hfilled.2 hrest]
    · cases c <;> rfl
    · simp

end

/-- Lexemes that do not go on with a formula before them. -/
def EndsFormula (rest : List Lexeme) : Prop :=
  ∀ lexeme ∈ rest.head?, lexeme ∉ [Lexeme.word "AND", .word "OR", .mark '.']

/-- When no parenthesis is open, the formula ends before what does not go on with it. -/
theorem readOperator?_of_ends (hrest : EndsFormula rest) :
    readOperator? [] frame rest = some (frame.formula, rest) := by
  cases rest with
  | nil =>
    rw [readOperator?]
    rfl
  | cons lexeme rest =>
    have hlexeme := hrest lexeme rfl
    simp only [List.mem_cons, not_or] at hlexeme
    rw [readOperator?.eq_def]
    exact (if_neg hlexeme.1).trans (if_neg hlexeme.2.1)

/-- Formulas under a connective are read back from the start of a text, without their groups of one
part. -/
theorem readFormula?_siblings (c : Connective) {parts : List Formula} (hne : parts ≠ [])
    (hfilled : Formula.AllFilled parts) (hrest : EndsFormula rest) :
    readFormula? ((Formula.siblings c parts).flatMap Token.lexemes ++ rest) =
      some ((Formula.group c parts).collapse, rest) := by
  have hpoint : rest.head? ≠ some (.mark '.') := fun h => absurd (hrest _ h) (by simp)
  rw [readFormula?, Formula.readOperand?_siblings c parts [] {} hne hfilled hpoint,
    readOperator?_of_ends hrest, Frame.formula_takeAll c (Formula.collapseAll_ne_nil hne)]
  rfl

/-- Without parentheses AND binds tighter than OR, on its left as on its right. -/
theorem readFormula?_precedence {f g h k : Formula} (hf : f.Filled) (hg : g.Filled) (hh : h.Filled)
    (hk : k.Filled) :
    readFormula? ((f.tokens ++ Token.word (.connect .and) :: g.tokens ++
        Token.word (.connect .or) :: h.tokens ++
        Token.word (.connect .and) :: k.tokens).flatMap Token.lexemes) =
      some (.group .or [.group .and [f.collapse, g.collapse],
        .group .and [h.collapse, k.collapse]], []) := by
  simp only [List.flatMap_append, List.flatMap_cons, Token.lexemes, Word.lexemes,
    List.append_assoc, List.cons_append, List.nil_append]
  rw [readFormula?, f.readOperand?_tokens _ _ hf (by simp), readOperator?_keyword,
    g.readOperand?_tokens _ _ hg (by simp), readOperator?_keyword,
    h.readOperand?_tokens _ _ hh (by simp), readOperator?_keyword]
  rw [← List.append_nil (k.tokens.flatMap Token.lexemes),
    k.readOperand?_tokens _ _ hk (by simp), readOperator?]
  rfl

end BoundSql.Sql
