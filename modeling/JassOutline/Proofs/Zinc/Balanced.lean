import JassOutline.Proofs.Zinc.Body

/-!
# Balanced brackets

Sizes and values of variables are labels in which the brackets are balanced. The grammar reads over
them in three ways: a size up to its bracket, a value up to a comma or a semicolon, and both of them
together with the rest of a statement inside of a body. There the braces of a value count as braces
of the body, and statements between them may declare local variables.

## Key results

- `closeGroup_of_balanced`, `skipExpression_of_balanced`: sizes and values are read over
- `isIdentifier_of_mem_localHead`: what is read to find out whether a statement declares a variable
- `exists_bodyFrom`: the rest of a statement whose braces close one another
-/

namespace JassOutline.Zinc

open Lexeme

variable {front : List Lexeme} {labels ends : List Label}

/-- The signs that open groups, each with the one that closes them. -/
def bracketPairs : List (String × String) := openingSigns.zip closingSigns

/-- The labels of all brackets. -/
def bracketLabels : List Label := (openingSigns ++ closingSigns).map .sign

/-- Every bracket is closed by one of its kind, and none of the first labels stands outside of
brackets. -/
inductive Balanced : List Label → List Label → Prop where
  | nil {ends : List Label} : Balanced ends []
  | cons {ends rest : List Label} {l : Label} :
    l ∉ bracketLabels → l ∉ ends → Balanced ends rest → Balanced ends (l :: rest)
  | group {ends inside rest : List Label} {opening closing : String} :
    (opening, closing) ∈ bracketPairs → Balanced [] inside → Balanced ends rest →
    Balanced ends (.sign opening :: (inside ++ .sign closing :: rest))

theorem cases_bracketPairs {opening closing : String} (h : (opening, closing) ∈ bracketPairs) :
    opening = "(" ∧ closing = ")" ∨ opening = "[" ∧ closing = "]" ∨
      opening = "\x7b" ∧ closing = "\x7d" := by
  simpa [bracketPairs, openingSigns, closingSigns] using h

theorem Balanced.append {a b : List Label} (ha : Balanced ends a) (hb : Balanced ends b) :
    Balanced ends (a ++ b) := by
  induction ha with
  | nil => exact hb
  | cons hbracket hend _ ih => exact .cons hbracket hend (ih hb)
  | group hpair hinside _ _ ih =>
    rw [List.cons_append, List.append_assoc, List.cons_append]
    exact .group hpair hinside (ih hb)

/-- More labels may stand outside of brackets. -/
theorem Balanced.anywhere (h : Balanced ends labels) : Balanced [] labels := by
  induction h with
  | nil => exact .nil
  | cons hbracket _ _ ih => exact .cons hbracket List.not_mem_nil ih
  | group hpair hinside _ _ ih => exact .group hpair hinside ih

/-! ### Sizes and values -/

theorem isOperatorOf_of_sign {token : Token} {text : String} (h : token.label = .sign text)
    (signs : List String) : token.isOperatorOf signs = signs.contains text := by
  have hkind : token.kind = .operator := congrArg Label.kind h
  have htext : token.text = text := congrArg Label.text h
  rw [Token.isOperatorOf, hkind, htext]
  rfl

theorem isOperatorOf_of_not_mem {token : Token} {signs : List String}
    (h : token.label ∉ signs.map .sign) : token.isOperatorOf signs = false := by
  refine Bool.eq_false_iff.2 fun hsign => ?_
  simp only [Token.isOperatorOf, Bool.and_eq_true, beq_iff_eq, List.contains_iff_mem] at hsign
  refine h (List.mem_map.2 ⟨token.text, hsign.2, ?_⟩)
  rw [Token.label, hsign.1]
  rfl

theorem isOperatorOf_of_not_bracket {token : Token} (h : token.label ∉ bracketLabels) :
    token.isOperatorOf openingSigns = false ∧ token.isOperatorOf closingSigns = false := by
  rw [bracketLabels, List.map_append, List.mem_append, not_or] at h
  exact ⟨isOperatorOf_of_not_mem h.1, isOperatorOf_of_not_mem h.2⟩

/-- Balanced labels leave the number of open square brackets as it was. -/
theorem closeGroup_of_balanced (h : Balanced ends labels) (hfront : front.map label = labels)
    (depth : Nat) (more : List Lexeme) :
    closeGroup "[" "]" depth (front ++ more) = closeGroup "[" "]" depth more := by
  induction h generalizing front depth more with
  | nil =>
    obtain rfl : front = [] := by simpa using hfront
    rfl
  | cons hbracket _ _ ih =>
    obtain ⟨first, rest, rfl, rfl, hrest⟩ := labels_eq_cons.1 hfront
    simp only [bracketLabels, openingSigns, closingSigns, List.cons_append, List.nil_append,
      List.map_cons, List.map_nil, List.mem_cons, List.not_mem_nil, or_false, not_or] at hbracket
    simp [closeGroup, Token.isOperator_eq, hbracket, ih hrest]
  | group hpair _ _ ihInside ihRest =>
    obtain ⟨first, rest, rfl, hfirst, hrest⟩ := labels_eq_cons.1 hfront
    obtain ⟨inside, behind, rfl, hinside, hbehind⟩ := labels_eq_append.1 hrest
    obtain ⟨close, later, rfl, hclose, hlater⟩ := labels_eq_cons.1 hbehind
    -- Only a square bracket changes the number, and the one that closes it changes it back
    obtain ⟨rfl, rfl⟩ | ⟨rfl, rfl⟩ | ⟨rfl, rfl⟩ := cases_bracketPairs hpair <;>
      simp [closeGroup, Token.isOperator_of_sign hfirst, Token.isOperator_of_sign hclose,
        ihInside hinside, ihRest hlater]

/-- Balanced labels are part of the expression around them, unless they hold what ends it. -/
theorem skipExpression_of_balanced (h : Balanced ends labels) (hfront : front.map label = labels)
    (depth : Nat) (hends : depth = 0 → ∀ text ∈ [",", ";"], .sign text ∈ ends)
    (more : List Lexeme) :
    skipExpression depth (front ++ more) = skipExpression depth more := by
  induction h generalizing front depth more with
  | nil =>
    obtain rfl : front = [] := by simpa using hfront
    rfl
  | @cons ends rest l hbracket hend _ ih =>
    -- The first lexeme is no bracket, and it does not end the expression
    obtain ⟨first, rest, rfl, rfl, hrest⟩ := labels_eq_cons.1 hfront
    obtain ⟨hopening, hclosing⟩ := isOperatorOf_of_not_bracket hbracket
    have hstop : ¬(depth = 0 ∧ first.token.isOperatorOf [",", ";"] = true) := by
      rintro ⟨hdepth, hsign⟩
      rw [isOperatorOf_of_not_mem fun hmem => ?_] at hsign
      · cases hsign
      · obtain ⟨text, htext, heq⟩ := List.mem_map.1 hmem
        exact hend (heq ▸ hends hdepth text htext)
    rw [List.cons_append, skipExpression.eq_def]
    simp only [if_neg hstop, hopening, hclosing, Bool.false_eq_true, if_false]
    exact ih hrest depth hends more
  | @group ends inner rest opening closing hpair _ _ ihInside ihRest =>
    obtain ⟨first, rest, rfl, hfirst, hrest⟩ := labels_eq_cons.1 hfront
    obtain ⟨inside, behind, rfl, hinside, hbehind⟩ := labels_eq_append.1 hrest
    obtain ⟨close, later, rfl, hclose, hlater⟩ := labels_eq_cons.1 hbehind
    -- An opening bracket makes the expression one deeper, whichever it is
    have hopens : skipExpression depth (first :: (inside ++ close :: (later ++ more))) =
        skipExpression (depth + 1) (inside ++ close :: (later ++ more)) := by
      obtain ⟨rfl, rfl⟩ | ⟨rfl, rfl⟩ | ⟨rfl, rfl⟩ := cases_bracketPairs hpair <;>
        simp [skipExpression, isOperatorOf_of_sign hfirst, openingSigns]
    have hcloses : skipExpression (depth + 1) (close :: (later ++ more)) =
        skipExpression depth (later ++ more) := by
      obtain ⟨rfl, rfl⟩ | ⟨rfl, rfl⟩ | ⟨rfl, rfl⟩ := cases_bracketPairs hpair <;>
        simp [skipExpression, isOperatorOf_of_sign hclose, openingSigns, closingSigns]
    simp only [List.cons_append, List.append_assoc]
    rw [hopens, ihInside hinside _ (fun h => absurd h (Nat.succ_ne_zero depth)), hcloses,
      ihRest hlater depth hends]

/-! ### Statements -/

/-- Whether the braces among the labels close one another and the given number of open ones. -/
def closesBraces : Nat → List Label → Bool
  | depth, [] => depth == 0
  | depth, l :: rest =>
    if l = .sign "\x7b" then closesBraces (depth + 1) rest
    else if l = .sign "\x7d" then
      match depth with
      | 0 => false
      | depth + 1 => closesBraces depth rest
    else closesBraces depth rest

theorem closesBraces_cons {l : Label} (hopening : l ≠ .sign "\x7b") (hclosing : l ≠ .sign "\x7d")
    (depth : Nat) (rest : List Label) :
    closesBraces depth (l :: rest) = closesBraces depth rest := by
  rw [closesBraces.eq_def]
  simp [hopening, hclosing]

/-- Balanced labels leave the number of open braces as it was. -/
theorem closesBraces_append (h : Balanced ends labels) (depth : Nat) (rest : List Label) :
    closesBraces depth (labels ++ rest) = closesBraces depth rest := by
  induction h generalizing depth rest with
  | nil => rfl
  | @cons ends later l hbracket _ _ ih =>
    have hopening : l ≠ .sign "\x7b" := fun h => hbracket (h ▸ by decide)
    have hclosing : l ≠ .sign "\x7d" := fun h => hbracket (h ▸ by decide)
    rw [List.cons_append, closesBraces_cons hopening hclosing, ih]
  | group hpair _ _ ihInside ihRest =>
    rw [List.cons_append, List.append_assoc, List.cons_append]
    obtain ⟨rfl, rfl⟩ | ⟨rfl, rfl⟩ | ⟨rfl, rfl⟩ := cases_bracketPairs hpair <;>
      simp [closesBraces, ihInside, ihRest]

/-- Only the first lexeme matters. -/
theorem startsWithSign_append_cons (text : String) (inner : List Lexeme) (last : Lexeme)
    (more : List Lexeme) :
    startsWithSign text (inner ++ last :: more) = startsWithSign text (inner ++ [last]) := by
  cases inner <;> rfl

/-- Behind the first lexeme of a statement, only words are read to find out what it declares. -/
theorem isIdentifier_of_mem_localHead (first : Lexeme) (rest : List Lexeme) :
    ∀ taken ∈ rest.take (localHead first rest).2, taken.token.isIdentifier = true := by
  fun_cases localHead first rest with
  | case3 | case4 | case5 | case6 => simp_all
  | _ => simp

/-- What a statement declares does not depend on what stands behind its semicolon. -/
theorem localHead_append (first : Lexeme) (inner : List Lexeme) {semicolon : Lexeme}
    (hsemicolon : semicolon.token.label = .sign ";") (more : List Lexeme) :
    localHead first (inner ++ semicolon :: more) = localHead first (inner ++ [semicolon]) ∧
      (localHead first (inner ++ [semicolon])).2 ≤ inner.length := by
  have hword : semicolon.token.isIdentifier = false := by
    rw [Token.isIdentifier_eq, hsemicolon]
    rfl
  by_cases hfirst : first.token.isIdentifier = true ∧ first.token.text ∉ statementKeywords
  · cases inner with
    | nil => simp [localHead, hfirst, hword]
    | cons second rest =>
      cases hsecond : second.token.isIdentifier with
      | false => simp [localHead, hfirst, hsecond]
      | true =>
        -- The name is the second word, or the third one behind `constant`
        cases hconstant : first.token.isKeyword "constant" with
        | false =>
          cases rest <;> simp [localHead, localOf, startsWithSign, hfirst, hsecond, hconstant]
        | true =>
          cases rest with
          | nil => simp [localHead, hfirst, hsecond, hconstant, hword]
          | cons third rest =>
            cases hthird : third.token.isIdentifier <;> cases rest <;>
              simp [localHead, localOf, startsWithSign, hfirst, hsecond, hconstant, hthird]
  · simp [localHead, hfirst]

/-- What holds behind words holds in front of them, if a single word keeps it. -/
theorem of_drop_words {p : List Lexeme → Prop}
    (hcons : ∀ first rest, first.token.isIdentifier = true → p rest → p (first :: rest))
    {lexemes : List Lexeme} {size : Nat}
    (hwords : ∀ taken ∈ lexemes.take size, taken.token.isIdentifier = true)
    (h : p (lexemes.drop size)) : p lexemes := by
  induction size generalizing lexemes with
  | zero => exact h
  | succ size ih =>
    cases lexemes with
    | nil => exact h
    | cons first rest =>
      rw [List.take_succ_cons] at hwords
      obtain ⟨hfirst, hrest⟩ := List.forall_mem_cons.1 hwords
      exact hcons first rest hfirst (ih hrest h)

/-- Words do not change the number of open braces. -/
theorem closesBraces_drop {inner : List Lexeme} {n : Nat}
    (h : ∀ lexeme ∈ inner.take n, lexeme.token.isIdentifier = true) (depth : Nat) :
    closesBraces depth ((inner.drop n).map label) = closesBraces depth (inner.map label) := by
  refine of_drop_words (p := fun lexemes => closesBraces depth ((inner.drop n).map label) =
    closesBraces depth (lexemes.map label)) (fun first rest hfirst hrest => ?_) h rfl
  have hne : ∀ text, first.label ≠ .sign text := fun text hlabel => by
    rw [Token.isIdentifier_eq, show first.token.label = .sign text from hlabel] at hfirst
    cases hfirst
  rw [hrest, List.map_cons, closesBraces_cons (hne _) (hne _)]

/-- The rest of a statement whose braces close one another adds the same variables to a body,
whatever stands behind its semicolon. -/
theorem exists_bodyFrom {inner : List Lexeme} {depth : Nat}
    (h : closesBraces depth (inner.map label) = true) {semicolon : Lexeme}
    (hsemicolon : semicolon.token.label = .sign ";") (atStatement : Bool) :
    ∃ locals, ∀ outer more, bodyFrom (outer + depth) atStatement (inner ++ semicolon :: more) =
      (bodyFrom outer true more).map (Prod.map (Body.prepend locals) id) := by
  -- At the start of a statement up to three lexemes are read at once
  induction hlength : inner.length using Nat.strongRecOn generalizing inner depth atStatement with
  | ind n ih =>
    cases inner with
    | nil =>
      obtain rfl : depth = 0 := by simpa [closesBraces] using h
      -- Nothing is left of the statement, so no brace is open
      refine ⟨[], fun outer more => ?_⟩
      rw [List.nil_append, bodyFrom.eq_def, map_prepend_nil]
      simp [Token.isOperator_of_sign hsemicolon]
    | cons first rest =>
      have hshorter : rest.length < n := by
        rw [← hlength, List.length_cons]
        exact Nat.lt_succ_self _
      by_cases hopening : first.token.label = .sign "\x7b"
      · -- One more brace is open behind the first lexeme
        have hinner : closesBraces (depth + 1) (rest.map label) = true := by
          simpa [closesBraces, label, hopening] using h
        obtain ⟨locals, hread⟩ := ih _ hshorter hinner true rfl
        refine ⟨locals, fun outer more => ?_⟩
        rw [List.cons_append, bodyFrom.eq_def, ← hread]
        simp [Token.isOperator_of_sign hopening, Nat.add_assoc]
      by_cases hclosing : first.token.label = .sign "\x7d"
      · -- The brace closes one that was opened inside of the statement
        cases depth with
        | zero => simp [closesBraces, label, hclosing] at h
        | succ depth =>
          have hinner : closesBraces depth (rest.map label) = true := by
            simpa [closesBraces, label, hclosing] using h
          obtain ⟨locals, hread⟩ := ih _ hshorter hinner true rfl
          refine ⟨locals, fun outer more => ?_⟩
          rw [List.cons_append, bodyFrom.eq_def, ← hread]
          simp [Token.isOperator_of_sign hclosing]
      have hrest := (closesBraces_cons hopening hclosing depth (rest.map label)).symm.trans h
      by_cases hend : first.token.label = .sign ";"
      · -- A semicolon inside of the braces ends a statement there
        obtain ⟨locals, hread⟩ := ih _ hshorter hrest true rfl
        refine ⟨locals, fun outer more => ?_⟩
        rw [List.cons_append, bodyFrom.eq_def, ← hread]
        simp [Token.isOperator_of_sign hend]
      -- The first lexeme is none of the three signs that end or start a statement
      cases atStatement with
      | false =>
        -- In the middle of a statement a lexeme passes by itself
        obtain ⟨locals, hread⟩ := ih _ hshorter hrest false rfl
        exact ⟨locals, fun outer more => by
          rw [List.cons_append, bodyFrom_inside hopening hclosing hend, hread]⟩
      | true =>
        -- At the start of one, the lexemes that say what it declares are taken together; they are
        -- words, so they open and close nothing
        have hle := (localHead_append first rest hsemicolon []).2
        have hwords := isIdentifier_of_mem_localHead first (rest ++ [semicolon])
        rw [List.take_append_of_le_length hle] at hwords
        let head := localHead first (rest ++ [semicolon])
        have hinner : closesBraces depth ((rest.drop head.2).map label) = true :=
          (closesBraces_drop hwords depth).trans hrest
        have hlater : (rest.drop head.2).length < n :=
          Nat.lt_of_le_of_lt (List.drop_sublist head.2 rest).length_le hshorter
        obtain ⟨locals, hread⟩ := ih _ hlater hinner false rfl
        refine ⟨head.1.toList ++ locals, fun outer more => ?_⟩
        rw [List.cons_append, bodyFrom_start hopening hclosing hend,
          (localHead_append first rest hsemicolon more).1, List.drop_append_of_le_length hle,
          hread, map_prepend_append]

/-- Without braces and semicolons, the rest of a statement adds no variable. -/
theorem exists_bodyFrom_inside {inner : List Lexeme}
    (h : closesBraces 0 (inner.map label) = true) {semicolon : Lexeme}
    (hsemicolon : semicolon.token.label = .sign ";") :
    ∃ locals, ((∀ l ∈ inner.map label, l ∉ [.sign "\x7b", .sign "\x7d", .sign ";"]) →
        locals = []) ∧
      ∀ outer more, bodyFrom outer false (inner ++ semicolon :: more) =
        (bodyFrom outer true more).map (Prod.map (Body.prepend locals) id) := by
  by_cases hplain : ∀ l ∈ inner.map label, l ∉ [.sign "\x7b", .sign "\x7d", .sign ";"]
  · refine ⟨[], fun _ => rfl, fun outer more => ?_⟩
    rw [map_prepend_nil]
    exact bodyFrom_skip (fun lexeme hlexeme => hplain _ (List.mem_map_of_mem hlexeme))
      hsemicolon outer more
  · obtain ⟨locals, hread⟩ := exists_bodyFrom h hsemicolon false
    exact ⟨locals, fun h => absurd h hplain, hread⟩

end JassOutline.Zinc
