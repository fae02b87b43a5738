import JassOutline.Proofs.Zinc.Parts.Skip

/-!
# Braces of a zinc program

Containers, sections and bodies reach from a brace to the brace that closes it. In between, sizes,
values, declarations without a place in a program and names of operators are read over, and there
brackets of other kinds are counted, or all kinds together. So the braces of a text that declares a
program close one another, apart from what is read over: a bracket that is never closed there makes
the brace of a container part of it.

Each reader of the grammar has a lemma that compares it with its parts. A body takes its own braces,
whatever else it holds, and the items of a container leave the count as it was.

## Key results

- `cuts_topItem`, `declarationsParts_cases`: the grammar and the parts of a program
- `closesBraces_parts`: where what is read over closes its braces, those outside decide
- `bracesNest_around_skipped`: the braces of a program nest around what is read over
- `not_bracesNest_openGroup`: a declaration with an open parenthesis takes the brace of its library
-/

namespace JassOutline.Zinc

open Lexeme

variable {opened later : Nat} {lexeme : Lexeme} {lexemes rest : List Lexeme}

/-! ### Variables -/

theorem cuts_commaSeparated {item : List Lexeme → Reading α} {itemParts : List Lexeme → PartReading}
    (hitem : Consumes item)
    (h : ∀ lexemes, Cuts opened opened lexemes (item lexemes) (itemParts lexemes))
    (lexemes : List Lexeme) :
    Cuts opened opened lexemes (commaSeparated item hitem lexemes)
      (commaSeparatedParts itemParts lexemes) := by
  fun_induction commaSeparated item hitem lexemes with
  | case1 lexemes e hread =>
    have hnone := (hread ▸ h lexemes).eq_none
    rw [commaSeparatedParts, hnone]
    exact .error
  | case2 lexemes value rest hread hcomma ih =>
    -- The comma behind the item is a part of its own
    obtain ⟨first, hfirst, htiles⟩ := (hread ▸ h lexemes).exists_parts
    have hless : rest.length < lexemes.length := hitem lexemes _ _ hread
    rw [commaSeparatedParts, hfirst]
    simp only [Option.bind_eq_bind, Option.bind_some, hcomma, if_true, hless, dif_pos]
    have hbehind := (passes_tail hcomma (by decide) (by decide)).tiles opened
    exact (ih.behind (htiles.append hbehind)).map fun _ _ => ⟨_, rfl⟩
  | case3 lexemes value rest hread hcomma =>
    obtain ⟨first, hfirst, htiles⟩ := (hread ▸ h lexemes).exists_parts
    rw [commaSeparatedParts, hfirst]
    simp only [Option.bind_eq_bind, Option.bind_some, hcomma]
    exact .ok htiles

theorem cuts_variableNamed (shared : VariableType) (opened : Nat) (lexemes : List Lexeme) :
    Cuts opened opened lexemes (variableNamed shared lexemes) (variableNamedParts lexemes) := by
  refine Cuts.bind (cuts_identifier .variableName opened lexemes) fun _ _ => ?_
  refine Cuts.bind (cuts_skipSize opened _) fun _ _ => ?_
  exact Cuts.bind (cuts_skipValue opened _) fun _ _ => .nil _ opened _

theorem cuts_variableDeclaration (opened : Nat) (lexemes : List Lexeme) :
    Cuts opened opened lexemes (variableDeclaration lexemes)
      (variableDeclarationParts lexemes) := by
  refine Cuts.bind (cuts_singly (keeps_variableType lexemes) opened) fun shared _ => ?_
  refine Cuts.bind (cuts_commaSeparated _ (cuts_variableNamed shared opened) _) fun _ _ => ?_
  refine Cuts.bind (cuts_singly (keeps_sign (by decide) (by decide) _) opened) fun _ _ => ?_
  exact .nil _ opened _

/-! ### Functions and methods -/

theorem tiles_of_body {read : Body} (h : body lexemes = .ok (read, rest)) (opened : Nat) :
    Tiles opened opened lexemes [.upTo .body lexemes rest] rest := by
  obtain ⟨_, inside, hsign, -⟩ := exists_of_bind h
  obtain ⟨brace, rfl, hbrace⟩ := eq_cons_of_sign hsign
  -- What a body takes closes its braces
  have hbody : TakesShortest (IsNestedFront (brace :: inside)) (brace :: inside)
    (body (brace :: inside)) := takesShortest_body hbrace
  rw [h] at hbody
  obtain ⟨front, hfront, hnested, -⟩ := hbody
  have hcloses := bracesNest_iff.1 hnested.nests
  rw [List.map_map] at hcloses
  rw [hfront]
  exact tiles_body front rest hcloses opened

theorem tiles_of_bodyOrSemicolon {read : Body} (h : bodyOrSemicolon lexemes = .ok (read, rest))
    (opened : Nat) : Tiles opened opened lexemes [.upTo .body lexemes rest] rest := by
  unfold bodyOrSemicolon at h
  split at h
  · exact tiles_of_body h opened
  · next semicolon later =>
    split at h
    · next hsemicolon =>
      cases h
      refine tiles_body [semicolon] _ ?_ opened
      rw [Token.isOperator_eq, beq_iff_eq] at hsemicolon
      simp [closesBraces, label, hsemicolon]
    · exact tiles_of_body h opened

theorem cuts_function (visibility : Visibility) (comments : List CommentLine) (keyword : Token)
    (opened : Nat) (lexemes : List Lexeme) :
    Cuts opened opened lexemes (function visibility comments keyword lexemes)
      (functionParts lexemes) := by
  refine Cuts.bind (cuts_identifier .functionName opened lexemes) fun _ _ => ?_
  refine Cuts.bind (cuts_singly (keeps_parameters _) opened) fun _ _ => ?_
  refine Cuts.bind (cuts_singly (keeps_result _) opened) fun _ _ => ?_
  refine Cuts.bind (.single fun _ _ hread => tiles_of_body hread opened) fun _ _ => ?_
  exact .nil _ opened _

theorem cuts_methodName (opened : Nat) (lexemes : List Lexeme) :
    Cuts opened opened lexemes (methodName lexemes) (methodNameParts lexemes) := by
  have hpasses := passes_acceptKeyword ["operator"] lexemes
  unfold methodName methodNameParts
  split
  · next rest hword =>
    rw [if_pos (by rw [hword])]
    refine Cuts.after hpasses ?_
    rw [hword]
    -- All of the name is read over
    obtain ⟨front, hfront, hcounts⟩ := exists_of_operatorName rest
    refine Cuts.alone (.ok ?_)
    have htiles := tiles_over .operatorName front (operatorName rest).2 rfl hcounts opened
    rwa [← hfront] at htiles
  · next rest hword =>
    rw [if_neg (by simp [hword]), acceptKeyword_of_false hword]
    exact (cuts_identifier .methodName opened lexemes).map fun _ _ => ⟨_, rfl⟩

theorem cuts_method (visibility : Visibility) (binding : Binding) (comments : List CommentLine)
    (keyword : Token) (opened : Nat) (lexemes : List Lexeme) :
    Cuts opened opened lexemes (method visibility binding comments keyword lexemes)
      (methodParts lexemes) := by
  refine Cuts.bind (cuts_methodName opened lexemes) fun _ _ => ?_
  refine Cuts.bind (cuts_singly (keeps_parameters _) opened) fun _ _ => ?_
  refine Cuts.bind (cuts_singly (keeps_result _) opened) fun _ _ => ?_
  refine Cuts.bind (.single fun _ _ hread => tiles_of_bodyOrSemicolon hread opened) fun _ _ => ?_
  exact .nil _ opened _

/-! ### Structs -/

theorem cuts_parent (opened : Nat) (lexemes : List Lexeme) :
    Cuts opened opened lexemes (parent lexemes) (parentParts lexemes) := by
  refine Cuts.bind (cuts_identifier .parentName opened lexemes) fun _ _ => ?_
  exact Cuts.bind (cuts_skipSize opened _) fun _ _ => .nil _ opened _

theorem cuts_parents (opened : Nat) (lexemes : List Lexeme) :
    Cuts opened opened lexemes (parents lexemes) (parentsParts lexemes) := by
  have hpasses := passes_acceptKeyword ["extends"] lexemes
  unfold parents parentsParts
  split
  · next rest hword =>
    rw [if_pos (by rw [hword])]
    refine Cuts.after hpasses ?_
    rw [hword]
    exact .alone (cuts_commaSeparated _ (cuts_parent opened) rest)
  · next rest hword =>
    rw [if_neg (by simp [hword]), acceptKeyword_of_false hword]
    exact .ok (tiles_nil opened lexemes)

/-- The keyword of a declaration, and what stands behind it. -/
theorem cuts_keyword {reading : Reading α} {reader : List Lexeme → PartReading}
    (hword : lexeme.token.isIdentifier = true) (h : Cuts opened later rest reading (reader rest)) :
    Cuts opened later (lexeme :: rest) reading
      (inTurn [keywordParts, reader] (lexeme :: rest)) := by
  have hread : identifier .declaration (lexeme :: rest) = .ok (lexeme.token, rest) := if_pos hword
  rw [inTurn, keywordParts, onePart, hread]
  exact h.alone.behind ((passes_identifier hword rest).tiles opened)

/-- A semicolon alone is an item. -/
theorem cuts_semicolon (hsemicolon : lexeme.token.isOperator ";" = true) (value : α) (opened : Nat)
    (rest : List Lexeme) :
    Cuts opened opened (lexeme :: rest) (.ok (value, rest))
      (onePart .singly (sign ";") (lexeme :: rest)) := by
  have hread : sign ";" (lexeme :: rest) = .ok (lexeme.token, rest) := if_pos hsemicolon
  rw [onePart, hread]
  exact .ok ((passes_sign hsemicolon (by decide) (by decide) rest).tiles opened)

theorem isIdentifier_of_isKeyword {token : Token} {word : String}
    (h : token.isKeyword word = true) : token.isIdentifier = true := by
  simp only [Token.isKeyword, Bool.and_eq_true] at h
  exact h.1

theorem cuts_structItemBody (visibility : Visibility) (binding : Binding)
    (comments : List CommentLine) (opened : Nat) (lexemes : List Lexeme) :
    Cuts opened opened lexemes (structItemBody visibility binding comments lexemes)
      (structItemBodyParts lexemes) := by
  cases lexemes with
  | nil => exact .error
  | cons lexeme rest =>
    rw [structItemBody, structItemBodyParts]
    split
    · next hmethod =>
      exact (cuts_keyword (isIdentifier_of_isKeyword hmethod)
        (cuts_method visibility binding comments lexeme.token opened rest)).map fun _ _ => ⟨_, rfl⟩
    split
    · next hsemicolon => exact cuts_semicolon hsemicolon _ opened rest
    split
    · exact (cuts_skipDeclaration opened (lexeme :: rest)).map fun _ _ => ⟨_, rfl⟩
    · exact (cuts_variableDeclaration opened (lexeme :: rest)).map fun _ _ => ⟨_, rfl⟩

theorem cuts_structItem (visibility : Visibility) (comments : List CommentLine) (opened : Nat)
    (lexemes : List Lexeme) :
    Cuts opened opened lexemes (structItem visibility comments lexemes)
      (structItemParts lexemes) :=
  .after (passes_acceptVisibility lexemes) <| .after (passes_acceptBinding _) <|
    .alone (cuts_structItemBody _ _ _ opened _)

/-- The brace of a section stands behind its visibility. -/
theorem tiles_sectionStart? {visibility : Visibility} {inside : List Lexeme}
    (h : sectionStart? lexemes = some (visibility, inside)) (opened : Nat) :
    Tiles opened (opened + 1) lexemes [.upTo .singly lexemes inside] inside := by
  unfold sectionStart? at h
  split at h
  · next word brace behind =>
    split at h
    · next hbrace =>
      obtain ⟨_, hword, hpair⟩ := Option.map_eq_some_iff.1 h
      cases hpair
      exact tiles_singly [word, brace] inside
        ((turns_visibility hword opened).append (turns_opening hbrace opened))
    · simp at h
  · simp at h

section

variable {itemParts : List Lexeme → PartReading} {depth : Nat}

theorem itemsParts_section {visibility : Visibility} {inside : List Lexeme}
    (hbrace : ¬lexeme.token.isOperator "\x7d" = true)
    (hsection : sectionStart? (lexeme :: rest) = some (visibility, inside)) :
    itemsParts itemParts depth (lexeme :: rest) =
      (itemsParts itemParts (depth + 1) inside).behind
        [.upTo .singly (lexeme :: rest) inside] := by
  rw [itemsParts.eq_def]
  simp only [if_neg hbrace]
  split
  · next hother =>
    rw [hsection] at hother
    cases hother
    rfl
  · next hnone =>
    rw [hsection] at hnone
    cases hnone

theorem itemsParts_item (hbrace : ¬lexeme.token.isOperator "\x7d" = true)
    (hsection : sectionStart? (lexeme :: rest) = none) :
    itemsParts itemParts depth (lexeme :: rest) =
      (itemParts (lexeme :: rest)).bind fun (first, behind) =>
        if behind.length < (lexeme :: rest).length then
          (itemsParts itemParts depth behind).behind first
        else none := by
  rw [itemsParts.eq_def]
  simp only [if_neg hbrace]
  split
  · next hother =>
    rw [hsection] at hother
    cases hother
  · rfl

end

/-- The items of a container close the braces of its sections and its own. -/
theorem cuts_items {item : Visibility → List CommentLine → List Lexeme → Reading Declarations}
    {itemParts : List Lexeme → PartReading}
    (hitem : ∀ visibility comments, Consumes (item visibility comments))
    (h : ∀ visibility comments opened lexemes,
      Cuts opened opened lexemes (item visibility comments lexemes) (itemParts lexemes))
    (visibility : Visibility) (outer : List Visibility) (opened : Nat) (lexemes : List Lexeme) :
    Cuts (opened + outer.length + 1) opened lexemes (items item hitem visibility outer lexemes)
      (itemsParts itemParts outer.length lexemes) := by
  -- The sections around the items are as many braces as have to be closed besides that of the
  -- container
  fun_induction items item hitem visibility outer lexemes with
  | case1 =>
    rw [itemsParts.eq_def]
    exact .error
  | case2 _ lexeme rest hbrace =>
    -- The brace of the container
    rw [itemsParts.eq_def]
    simp only [hbrace, if_true, List.length_nil]
    have htiles := tiles_singly [lexeme] rest (turns_closing hbrace opened)
    rw [Part.upTo_append] at htiles
    exact .ok htiles
  | case3 _ lexeme rest hbrace inner outer ih =>
    -- The brace of a section
    rw [itemsParts.eq_def]
    simp only [hbrace, if_true, List.length_cons]
    have htiles := tiles_singly [lexeme] rest (turns_closing hbrace (opened + outer.length + 1))
    rw [Part.upTo_append] at htiles
    exact ih.behind htiles
  | case4 visibility outer lexeme rest hbrace inner inside hsection ih =>
    -- A section opens one brace
    rw [itemsParts_section hbrace hsection]
    exact ih.behind (tiles_sectionStart? hsection _)
  | case5 visibility outer lexeme rest hbrace hsection e hread =>
    have hnone := (hread ▸ h visibility lexeme.comments opened (lexeme :: rest)).eq_none
    rw [itemsParts_item hbrace hsection, hnone]
    exact .error
  | case6 visibility outer lexeme rest hbrace hsection first behind hread ih =>
    -- An item leaves the count as it was
    have hitemParts := h visibility lexeme.comments (opened + outer.length + 1) (lexeme :: rest)
    obtain ⟨parts, hparts, htiles⟩ := (hread ▸ hitemParts).exists_parts
    have hless : behind.length < (lexeme :: rest).length := hitem _ _ _ _ _ hread
    rw [itemsParts_item hbrace hsection, hparts, Option.bind_some]
    simp only [if_pos hless]
    exact (ih.behind htiles).map fun _ _ => ⟨_, rfl⟩

theorem cuts_struct (visibility : Visibility) (comments : List CommentLine) (keyword : Token)
    (opened : Nat) (lexemes : List Lexeme) :
    Cuts opened opened lexemes (struct visibility comments keyword lexemes)
      (structParts lexemes) := by
  refine Cuts.bind (cuts_identifier .structName opened lexemes) fun _ _ => ?_
  refine Cuts.bind (cuts_skipSize opened _) fun _ _ => ?_
  refine Cuts.bind (cuts_parents opened _) fun _ _ => ?_
  refine Cuts.bind (cuts_opening opened _) fun _ rest => ?_
  refine Cuts.bind (cuts_items _ cuts_structItem .unmarked [] opened rest) fun _ rest => ?_
  exact .after (passes_acceptSign (by decide) (by decide) rest) (.nil _ opened _)

/-! ### Libraries and whole programs -/

theorem cuts_plainItem (visibility : Visibility) (comments : List CommentLine) (opened : Nat)
    (lexemes : List Lexeme) :
    Cuts opened opened lexemes (plainItem visibility comments lexemes)
      (plainItemParts lexemes) := by
  cases lexemes with
  | nil => exact .error
  | cons lexeme rest =>
    rw [plainItem, plainItemParts]
    -- The branches are those of the reader: an empty item, a struct, a function, a declaration
    -- without a place, and variables
    split
    · next hsemicolon => exact cuts_semicolon hsemicolon _ opened rest
    split
    · exact .error
    split
    · exact .error
    split
    · next hstruct =>
      exact (cuts_keyword (isIdentifier_of_isKeyword hstruct)
        (cuts_struct visibility comments lexeme.token opened rest)).map fun _ _ => ⟨_, rfl⟩
    split
    · next hfunction =>
      exact (cuts_keyword (isIdentifier_of_isKeyword hfunction)
        (cuts_function visibility comments lexeme.token opened rest)).map fun _ _ => ⟨_, rfl⟩
    split
    · exact (cuts_skipDeclaration opened (lexeme :: rest)).map fun _ _ => ⟨_, rfl⟩
    · exact (cuts_variableDeclaration opened (lexeme :: rest)).map fun _ _ => ⟨_, rfl⟩

theorem cuts_libraryItem (visibility : Visibility) (comments : List CommentLine) (opened : Nat)
    (lexemes : List Lexeme) :
    Cuts opened opened lexemes (libraryItem visibility comments lexemes)
      (inTurn [visibilityParts, plainItemParts] lexemes) :=
  .after (passes_acceptVisibility lexemes) (.alone (cuts_plainItem _ _ opened _))

theorem cuts_library (comments : List CommentLine) (keyword : Token) (opened : Nat)
    (lexemes : List Lexeme) :
    Cuts opened opened lexemes (library comments keyword lexemes) (libraryParts lexemes) := by
  refine Cuts.bind (cuts_identifier .libraryName opened lexemes) fun _ _ => ?_
  refine Cuts.bind (cuts_singly (keeps_requirements _) opened) fun _ _ => ?_
  refine Cuts.bind (cuts_opening opened _) fun _ rest => ?_
  refine Cuts.bind (cuts_items _ cuts_libraryItem .hidden [] opened rest) fun _ rest => ?_
  exact .nil _ opened rest

theorem cuts_topItemBody (visibility : Visibility) (comments : List CommentLine) (opened : Nat)
    (lexemes : List Lexeme) :
    Cuts opened opened lexemes (topItemBody visibility comments lexemes)
      (topItemBodyParts lexemes) := by
  cases lexemes with
  | nil => exact .error
  | cons lexeme rest =>
    rw [topItemBody, topItemBodyParts]
    split
    · next hlibrary =>
      simp only [Token.isKeywordOf, Bool.and_eq_true] at hlibrary
      exact (cuts_keyword hlibrary.1
        (cuts_library comments lexeme.token opened rest)).map fun _ _ => ⟨_, rfl⟩
    · exact cuts_plainItem visibility comments opened (lexeme :: rest)

theorem cuts_topItem (comments : List CommentLine) (opened : Nat) (lexemes : List Lexeme) :
    Cuts opened opened lexemes (topItem comments lexemes)
      (inTurn [visibilityParts, topItemBodyParts] lexemes) :=
  .after (passes_acceptVisibility lexemes) (.alone (cuts_topItemBody _ _ opened _))

/-- The parts of a program, and none where there is no program. -/
theorem declarationsParts_cases (lexemes : List Lexeme) :
    (∃ declared parts, declarations lexemes = .ok declared ∧
        declarationsParts lexemes = some parts ∧ Tiles 0 0 lexemes parts []) ∨
      ∃ e, declarations lexemes = .error e ∧ declarationsParts lexemes = none := by
  fun_induction declarations lexemes with
  | case1 => exact .inl ⟨_, [], rfl, by rw [declarationsParts]; rfl, tiles_nil 0 []⟩
  | case2 lexeme rest e hread =>
    have hnone := (hread ▸ cuts_topItem lexeme.comments 0 (lexeme :: rest)).eq_none
    refine .inr ⟨e, rfl, ?_⟩
    rw [declarationsParts, hnone]
    rfl
  | case3 lexeme rest first behind hread ih =>
    obtain ⟨parts, hparts, htiles⟩ :=
      (hread ▸ cuts_topItem lexeme.comments 0 (lexeme :: rest)).exists_parts
    have hless : behind.length < (lexeme :: rest).length := consumes_topItem _ _ _ _ hread
    have hdeclarations : declarationsParts (lexeme :: rest) =
        (declarationsParts behind).map (parts ++ ·) := by
      rw [declarationsParts, hparts]
      simp only [List.isEmpty_cons, Option.bind_eq_bind, Option.bind_some, dif_pos hless]
      cases declarationsParts behind <;> rfl
    obtain ⟨declared, others, hothers, hbehind, hrest⟩ | ⟨e, he, hnone⟩ := ih
    · refine .inl ⟨first ++ declared, parts ++ others, by rw [hothers]; rfl, ?_,
        htiles.append hrest⟩
      rw [hdeclarations, hbehind]
      rfl
    · refine .inr ⟨e, by rw [he]; rfl, ?_⟩
      rw [hdeclarations, hnone]
      rfl

/-! ### Braces of a program -/

/-- Where the braces of all that is read over close one another, only those outside count. -/
theorem closesBraces_parts {parts : List Part}
    (h : ∀ part ∈ parts, part.isOver = true → closesBraces 0 (part.lexemes.map label) = true)
    (opened : Nat) :
    closesBraces opened ((parts.flatMap Part.lexemes).map label) =
      closesBraces opened ((outside parts).map label) := by
  induction parts generalizing opened with
  | nil => rfl
  | cons part others ih =>
    obtain ⟨hpart, hothers⟩ := List.forall_mem_cons.1 h
    rw [List.flatMap_cons, outside_cons, List.map_append, List.map_append]
    cases hover : part.isOver with
    | true =>
      rw [if_pos rfl, List.map_nil, List.nil_append, ← ih hothers]
      exact turns_of_closed (hpart hover) opened _
    | false => exact closesBraces_append_congr (ih hothers) _ opened

theorem countSign_append (text : String) (a b : List Token) :
    countSign text (a ++ b) = countSign text a + countSign text b :=
  List.countP_append

/-- Every sign is outside or is read over. -/
theorem countSign_parts (text : String) (parts : List Part) :
    countSign text ((parts.flatMap Part.lexemes).map token) =
      countSign text ((outside parts).map token) + countSign text ((skipped parts).map token) := by
  induction parts with
  | nil => rfl
  | cons part others ih =>
    simp only [List.flatMap_cons, outside_cons, skipped_cons, List.map_append, countSign_append, ih]
    have hnil : countSign text ([].map token) = 0 := rfl
    cases part.isOver with
    | true =>
      simp only [if_true, hnil]
      omega
    | false =>
      simp only [Bool.false_eq_true, if_false, hnil]
      omega

/-- Comments are no signs. -/
theorem countSign_ofTokens (text : String) (tokens : List Token) :
    countSign text ((ofTokens tokens).map token) = countSign text tokens := by
  have hno : ∀ token : Token, token.label = .sign text → token.isComment = false :=
    fun token hlabel => by
      have hkind : token.kind = .operator := congrArg Label.kind hlabel
      simp [Token.isComment, hkind]
  rw [ofTokens, token_ofTokensAfter, countSign, countSign, List.countP_filter]
  refine List.countP_congr fun token _ => ?_
  simp only [decide_eq_true_eq, Bool.and_eq_true, Bool.not_eq_true', and_iff_left_iff_imp]
  exact hno token

/-- There is a program if and only if there are parts. -/
theorem exists_parse_iff (tokens : List Token) :
    (∃ program, parse tokens = .ok program) ↔ ∃ parts, partsOf tokens = some parts := by
  rw [parse, partsOf]
  obtain ⟨declared, parts, hdeclared, hparts, -⟩ | ⟨e, herror, hnone⟩ :=
    declarationsParts_cases (ofTokens tokens)
  · rw [hdeclared, hparts]
    exact ⟨fun _ => ⟨parts, rfl⟩, fun _ => ⟨_, rfl⟩⟩
  · rw [herror, hnone]
    constructor
    · rintro ⟨_, ⟨⟩⟩
    · rintro ⟨_, ⟨⟩⟩

/-- The parts of a token list make up all its lexemes. -/
theorem tiles_of_partsOf {tokens : List Token} {parts : List Part}
    (h : partsOf tokens = some parts) : Tiles 0 0 (ofTokens tokens) parts [] := by
  rw [partsOf] at h
  obtain ⟨_, _, _, hparts, htiles⟩ | ⟨_, _, hnone⟩ := declarationsParts_cases (ofTokens tokens)
  · obtain rfl := Option.some.inj (hparts.symm.trans h)
    exact htiles
  · cases hnone.symm.trans h

/-- A token list declares a program if and only if it falls into parts. These make up all lexemes,
and each of them counts what its way to read counts: in a body these are the braces. Outside of what
is read over braces nest. So the list has as many closing braces as opening ones if and only if the
stretches that are read over have, and all braces nest where those of each such stretch do. -/
theorem bracesNest_around_skipped (tokens : List Token) :
    ((∃ program, parse tokens = .ok program) ↔ ∃ parts, partsOf tokens = some parts) ∧
    ∀ parts, partsOf tokens = some parts →
      parts.flatMap Part.lexemes = ofTokens tokens ∧ (∀ part ∈ parts, part.Counts) ∧
      BracesNest ((outside parts).map token) ∧
      (countSign "\x7d" tokens = countSign "\x7b" tokens ↔
        countSign "\x7d" ((skipped parts).map token) =
          countSign "\x7b" ((skipped parts).map token)) ∧
      ((∀ part ∈ parts, part.isOver = true → BracesNest part.tokens) → BracesNest tokens) := by
  refine ⟨exists_parse_iff tokens, fun parts hparts => ?_⟩
  obtain ⟨hall, hcounts, hturns⟩ := tiles_of_partsOf hparts
  have hcovers : parts.flatMap Part.lexemes = ofTokens tokens := by rw [hall, List.append_nil]
  have houtside : closesBraces 0 ((outside parts).map label) = true := by
    simpa [closesBraces] using hturns []
  have hnests : BracesNest ((outside parts).map token) := by
    rw [bracesNest_iff, List.map_map]
    exact houtside
  refine ⟨hcovers, hcounts, hnests, ?_, fun hover => ?_⟩
  · -- Outside there are as many of one kind as of the other
    have htotal := hnests.total_eq
    rw [← countSign_ofTokens "\x7d", ← countSign_ofTokens "\x7b", ← hcovers, countSign_parts,
      countSign_parts]
    omega
  · -- What is read over can be left out of the count
    rw [bracesNest_iff, ← closesBraces_ofTokensAfter 0 []]
    show closesBraces 0 ((ofTokens tokens).map label) = true
    rw [← hcovers, closesBraces_parts fun part hpart hskipped => ?_, houtside]
    have hbraces := bracesNest_iff.1 (hover part hpart hskipped)
    rwa [Part.tokens, List.map_map] at hbraces

/-- The value of a statement is not read over: the brace behind it closes the body. -/
example : partsOf (Token.tokenize 0 "function f() \x7b x = ( \x7d ; \x7d".toList) = none := by
  decide +kernel

/-- A library in which something is read over in each of the four ways, and in which bodies hold
values whose brackets are never closed. -/
def nestedGroups : List Token :=
  Token.tokenize 0 ("library L \x7b type t (1, \x7b 2 \x7d); integer a[2], b = (\x7b 3 \x7d); " ++
    "struct s \x7b method operator [](integer i) \x7b if (i) \x7b \x7d \x7d \x7d " ++
    "function f() \x7b x = ( \x7d function g() \x7b y = ) ; \x7d \x7d").toList

theorem bracesNest_around_skipped_nestedGroups :
    (∃ program, parse nestedGroups = .ok program) ∧
    ∃ parts, partsOf nestedGroups = some parts ∧
      (((parts.filter Part.isOver).map (·.tokens.map Token.text)).filter (· ≠ []) =
        [["type", "t", "(", "1", ",", "\x7b", "2", "\x7d", ")", ";"], ["[", "2", "]"],
          ["=", "(", "\x7b", "3", "\x7d", ")"], ["[", "]"]] ∧
      ∀ part ∈ parts, part.isOver = true → BracesNest part.tokens) ∧
    BracesNest nestedGroups := by
  obtain ⟨hdeclares, hparts⟩ := bracesNest_around_skipped nestedGroups
  have hover : (partsOf nestedGroups).any (fun parts => decide
      (((parts.filter Part.isOver).map (·.tokens.map Token.text)).filter (· ≠ []) =
          [["type", "t", "(", "1", ",", "\x7b", "2", "\x7d", ")", ";"], ["[", "2", "]"],
            ["=", "(", "\x7b", "3", "\x7d", ")"], ["[", "]"]] ∧
        ∀ part ∈ parts, part.isOver = true → BracesNest part.tokens)) = true := by
    decide +kernel
  obtain ⟨parts, hsome, htexts⟩ := (Option.any_eq_true _ _).1 hover
  rw [decide_eq_true_eq] at htexts
  obtain ⟨-, -, -, -, hnests⟩ := hparts parts hsome
  exact ⟨hdeclares.2 ⟨parts, hsome⟩, parts, hsome, htexts, hnests htexts.2⟩

/-- A library with a declaration whose parenthesis is never closed, and a function behind its
brace. -/
def openGroup : List Token :=
  Token.tokenize 0 "library L \x7b type t ( \x7d function f() \x7b\x7d \x7d".toList

/-- The brace of the library ends the declaration, and the function becomes a part of the library.
More braces are closed than opened. -/
theorem not_bracesNest_openGroup :
    (parse openGroup).toOption.map (·.libraries.map (·.functions.map (·.name))) =
      some [[some "f"]] ∧ ¬BracesNest openGroup := by
  refine ⟨by decide +kernel, ?_⟩
  rw [bracesNest_iff]
  decide +kernel

end JassOutline.Zinc
