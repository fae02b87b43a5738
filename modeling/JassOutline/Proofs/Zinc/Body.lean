import JassOutline.Proofs.Zinc.Notation

/-!
# Reading written bodies

A body is read statement by statement. Each statement that was written for a local variable adds
this variable, and what stands behind its name is read over up to the semicolon.

## Key results

- `bodyFrom_head`, `bodyFrom_skip`: the start of a statement and what stands behind it
- `bodyFrom_statement`: one statement
- `body_of_writes`: a whole body with its braces
-/

namespace JassOutline.Zinc

open Lexeme

variable {front : List Lexeme}

/-- The local variables in front of those of the body. -/
def Body.prepend (locals : List LocalVariable) (body : Body) : Body :=
  ⟨locals ++ body.locals, body.closing⟩

@[simp] theorem Body.prepend_nil (body : Body) : body.prepend [] = body := rfl

theorem map_prepend_nil (reading : Except ZincError (Body × List Lexeme)) :
    reading.map (Prod.map (Body.prepend []) id) = reading := by
  cases reading <;> rfl

theorem map_prepend_append (front back : List LocalVariable)
    (reading : Except ZincError (Body × List Lexeme)) :
    (reading.map (Prod.map (Body.prepend back) id)).map (Prod.map (Body.prepend front) id) =
      reading.map (Prod.map (Body.prepend (front ++ back)) id) := by
  cases reading with
  | error e => rfl
  | ok pair =>
    simp only [Except.map, Prod.map, Body.prepend, List.append_assoc, id]

section

variable {first : Lexeme} (hopening : first.token.label ≠ .sign "\x7b")
  (hclosing : first.token.label ≠ .sign "\x7d") (hend : first.token.label ≠ .sign ";")

include hopening hclosing hend

/-- A statement may declare a variable, and what stands behind its start is read over. -/
theorem bodyFrom_start (depth : Nat) (rest : List Lexeme) :
    bodyFrom depth true (first :: rest) =
      (bodyFrom depth false (rest.drop (localHead first rest).2)).map
        (Prod.map (Body.prepend (localHead first rest).1.toList) id) := by
  rw [bodyFrom.eq_def]
  simp only [Token.isOperator_eq, beq_iff_eq, hopening, hclosing, hend, if_false, if_true]
  cases bodyFrom depth false (rest.drop (localHead first rest).2) <;> rfl

theorem bodyFrom_inside (depth : Nat) (rest : List Lexeme) :
    bodyFrom depth false (first :: rest) = bodyFrom depth false rest := by
  rw [bodyFrom.eq_def]
  simp [Token.isOperator_eq, hopening, hclosing, hend]

end

/-- What a statement holds behind its start is read over up to its semicolon. -/
theorem bodyFrom_skip {semicolon : Lexeme}
    (hfront : ∀ lexeme ∈ front,
      lexeme.token.label ∉ [.sign "\x7b", .sign "\x7d", .sign ";"])
    (hsemicolon : semicolon.token.label = .sign ";") (depth : Nat) (more : List Lexeme) :
    bodyFrom depth false (front ++ semicolon :: more) = bodyFrom depth true more := by
  induction front with
  | nil =>
    -- The semicolon ends the statement, and the next one starts
    rw [List.nil_append, bodyFrom.eq_def]
    simp [Token.isOperator_of_sign hsemicolon]
  | cons lexeme front ih =>
    have hlexeme := hfront lexeme List.mem_cons_self
    simp only [List.mem_cons, List.not_mem_nil, or_false, not_or] at hlexeme
    rw [List.cons_append, bodyFrom.eq_def]
    simp [Token.isOperator_eq, hlexeme, ih fun l hl => hfront l (List.mem_cons_of_mem _ hl)]

/-- The size of a local variable and its semicolon. -/
theorem skip_sizeLabels {isArray : Bool} {size : List Label} (hsize : IsSize size)
    (h : front.map label = sizeLabels isArray size ++ [.sign ";"]) (more : List Lexeme) :
    startsWithSign "[" (front ++ more) = isArray ∧
      bodyFrom 0 false (front ++ more) = bodyFrom 0 true more := by
  obtain ⟨before, behind, rfl, hbefore, hbehind⟩ := labels_eq_append.1 h
  obtain ⟨semicolon, rest, rfl, hsemicolon, hrest⟩ := labels_eq_cons.1 hbehind
  obtain rfl : rest = [] := by simpa using hrest
  -- Neither the brackets nor what they hold can end the statement
  have hmem : ∀ l ∈ sizeLabels isArray size, l ∉ [.sign "\x7b", .sign "\x7d", .sign ";"] := by
    cases isArray with
    | false => simp [sizeLabels]
    | true =>
      refine List.forall_mem_cons.2 ⟨by decide, List.forall_mem_append.2 ⟨?_, by decide⟩⟩
      exact fun l hl => (hsize l hl).1
  have hskip := bodyFrom_skip (fun lexeme hlexeme =>
    hmem _ (hbefore ▸ List.mem_map_of_mem hlexeme)) hsemicolon 0 more
  rw [List.append_assoc, List.singleton_append]
  refine ⟨?_, hskip⟩
  cases isArray with
  | false =>
    obtain rfl : before = [] := by simpa [sizeLabels] using hbefore
    exact startsWithSign_of_sign hsemicolon "["
  | true =>
    obtain ⟨bracket, rest, rfl, hbracket, -⟩ := labels_eq_cons.1 hbefore
    exact startsWithSign_of_sign hbracket "["

/-- The type and the word behind it declare a local variable, with the comments of the first
lexeme. -/
theorem bodyFrom_head {isConstant : Bool} {type name : String}
    (htype : type ∉ "constant" :: statementKeywords)
    (h : front.map label = (flagWords "constant" isConstant ++ [type, name]).map .word) :
    ∃ first later typeToken nameToken, front = first :: later ∧ typeToken.text = type ∧
      nameToken.text = name ∧ ∀ depth rest, bodyFrom depth true (front ++ rest) =
        (bodyFrom depth false rest).map
          (Prod.map (Body.prepend [localOf first isConstant typeToken nameToken rest]) id) := by
  rw [List.mem_cons, not_or] at htype
  obtain ⟨hconstant, htypeWords⟩ := htype
  cases isConstant with
  | false =>
    obtain ⟨first, rest, rfl, hfirst, hrest⟩ := labels_eq_cons.1 h
    obtain ⟨second, rest, rfl, hsecond, hrest⟩ := labels_eq_cons.1 hrest
    obtain rfl : rest = [] := by simpa using hrest
    refine ⟨first, [second], first.token, second.token, rfl, Token.text_of_word hfirst,
      Token.text_of_word hsecond, fun depth rest => ?_⟩
    have hhead : localHead first (second :: rest) =
        (some (localOf first false first.token second.token rest), 1) := by
      simp [localHead, Token.isIdentifier_of_word hfirst, Token.text_of_word hfirst, htypeWords,
        Token.isIdentifier_of_word hsecond, Token.isKeyword_of_word hfirst, hconstant]
    rw [List.cons_append, List.singleton_append, bodyFrom_start (by simp [hfirst])
      (by simp [hfirst]) (by simp [hfirst]), hhead]
    rfl
  | true =>
    -- The first word is `constant` here, and the type and the name are one lexeme further on
    obtain ⟨first, rest, rfl, hfirst, hrest⟩ := labels_eq_cons.1 h
    obtain ⟨second, rest, rfl, hsecond, hrest⟩ := labels_eq_cons.1 hrest
    obtain ⟨third, rest, rfl, hthird, hrest⟩ := labels_eq_cons.1 hrest
    obtain rfl : rest = [] := by simpa using hrest
    refine ⟨first, [second, third], second.token, third.token, rfl, Token.text_of_word hsecond,
      Token.text_of_word hthird, fun depth rest => ?_⟩
    have hflag : "constant" ∉ statementKeywords := by decide
    have hhead : localHead first (second :: third :: rest) =
        (some (localOf first true second.token third.token rest), 2) := by
      simp [localHead, Token.isIdentifier_of_word hfirst, Token.text_of_word hfirst, hflag,
        Token.isIdentifier_of_word hsecond, Token.isKeyword_of_word hfirst,
        Token.isIdentifier_of_word hthird]
    rw [List.cons_append, List.cons_append, List.singleton_append, bodyFrom_start (by simp [hfirst])
      (by simp [hfirst]) (by simp [hfirst]), hhead]
    rfl

/-- A free type is no word that starts another statement. -/
theorem not_mem_of_isFree {type : String} (h : isFree type = true) :
    type ∉ "constant" :: statementKeywords := fun hmem =>
  ne_of_isFree h ((by decide : ∀ w ∈ "constant" :: statementKeywords, w ∈ reservedWords) type hmem)
    rfl

/-- A statement that declares a local variable adds it to the body. -/
theorem bodyFrom_statement {v : LocalVariable} {size : List Label}
    (hshape : v.shape.isWritable isFree = true) (hsize : IsSize size)
    (h : front.map mark = Mark.below v.comments (localLabels v size)) (more : List Lexeme) :
    ∃ read : LocalVariable, read.bare = v.bare ∧
      bodyFrom 0 true (front ++ more) =
        (bodyFrom 0 true more).map (Prod.map (Body.prepend [read]) id) := by
  obtain ⟨⟨name?, comments, region⟩, isConstant, type?, isArray⟩ := v
  obtain ⟨type, name, hparts, htype, -⟩ := VariableShape.isWritable_iff.1 hshape
  obtain ⟨rfl, rfl⟩ : type? = some type ∧ name? = some name := by
    simpa [LocalVariable.shape] using hparts
  have hlabels := (label_of_mark h).trans (Mark.label_below ..)
  obtain ⟨head, tail, rfl, hhead, htail⟩ := labels_eq_append.1 hlabels
  obtain ⟨harray, hskip⟩ := skip_sizeLabels hsize htail more
  obtain ⟨first, later, typeToken, nameToken, rfl, htypeText, hnameText, hread⟩ :=
    bodyFrom_head (not_mem_of_isFree htype) hhead
  refine ⟨localOf first isConstant typeToken nameToken (tail ++ more), ?_, ?_⟩
  · simp [LocalVariable.bare, Heading.bare, localOf, bare_of_text (comments_of_below h), htypeText,
      hnameText, harray]
  · rw [List.append_assoc, hread, hskip]

/-- A body is read through its closing brace. -/
theorem bodyFrom_of_writes {marks : List Mark} {locals : List LocalVariable} {close : Lexeme}
    (h : BodyWrites marks locals) (hfront : front.map mark = marks)
    (hclose : close.token.label = .sign "\x7d") (more : List Lexeme) :
    ∃ read, bodyFrom 0 true (front ++ close :: more) = .ok (⟨read, close.token⟩, more) ∧
      read.map LocalVariable.bare = locals.map LocalVariable.bare := by
  induction h generalizing front with
  | nil =>
    obtain rfl : front = [] := by simpa using hfront
    refine ⟨[], ?_, rfl⟩
    rw [List.nil_append, bodyFrom]
    simp [Token.isOperator_of_sign hclose]
  | cons hshape hsize _ ih =>
    obtain ⟨statement, rest, rfl, hstatement, hrest⟩ := marks_eq_append.1 hfront
    obtain ⟨read, hread, hbare⟩ := ih hrest
    obtain ⟨first, hfirst, hadd⟩ :=
      bodyFrom_statement hshape hsize hstatement (rest ++ close :: more)
    refine ⟨first :: read, ?_, ?_⟩
    · rw [List.append_assoc, hadd, hread]
      rfl
    · rw [List.map_cons, List.map_cons, hfirst, hbare]

/-- A body is read with its braces. -/
theorem body_of_writes {marks : List Mark} {locals : List LocalVariable} {brace close : Lexeme}
    (h : BodyWrites marks locals) (hfront : front.map mark = marks)
    (hbrace : brace.token.label = .sign "\x7b") (hclose : close.token.label = .sign "\x7d")
    (more : List Lexeme) :
    ∃ read, body (brace :: (front ++ close :: more)) = .ok (⟨read, close.token⟩, more) ∧
      read.map LocalVariable.bare = locals.map LocalVariable.bare := by
  obtain ⟨read, hread, hbare⟩ := bodyFrom_of_writes h hfront hclose more
  exact ⟨read, by simp [body, sign_of_sign hbrace, hread, bind, Except.bind], hbare⟩

end JassOutline.Zinc
