import JassOutline.Proofs.Zinc.Notation

/-!
# Reading written variables

A declaration of one variable is read through its semicolon, whatever stands behind it.

## Key results

- `variableDeclaration_of_labels`: a declaration of one variable
-/

namespace JassOutline.Zinc

open Lexeme

variable {front : List Lexeme}

/-- What variables share is read if a word other than `array` follows. -/
theorem variableType_of_words {isConstant isArray : Bool} {type : String} {next : Lexeme}
    (h : front.map label =
      (flagWords "constant" isConstant ++ type :: flagWords "array" isArray).map .word)
    (htype : type ≠ "constant") {name : String} (hnext : next.token.label = .word name)
    (hname : name ≠ "array") (more : List Lexeme) :
    ∃ token, token.text = type ∧
      variableType (front ++ next :: more) =
        .ok (⟨isConstant, token, isArray⟩, next :: more) := by
  -- What is read behind the optional `constant` does not depend on it
  have hrest : ∀ rest : List Lexeme, rest.map label =
      (type :: flagWords "array" isArray).map .word →
      ∃ token : Token, token.text = type ∧ ∃ behind,
        acceptKeyword ["constant"] (rest ++ next :: more) = (false, rest ++ next :: more) ∧
        identifier .typeName (rest ++ next :: more) = .ok (token, behind) ∧
        acceptKeyword ["array"] behind = (isArray, next :: more) := by
    intro rest hrest
    obtain ⟨first, later, rfl, hfirst, hlater⟩ := labels_eq_cons.1 hrest
    refine ⟨first.token, Token.text_of_word hfirst, later ++ next :: more, ?_, ?_, ?_⟩
    · simp [acceptKeyword_of_word hfirst, htype]
    · exact identifier_of_word hfirst _
    · cases isArray with
      | false =>
        obtain rfl : later = [] := by simpa [flagWords] using hlater
        simp [acceptKeyword_of_word hnext, hname]
      | true =>
        obtain ⟨second, later, rfl, hsecond, hlater⟩ := labels_eq_cons.1 hlater
        obtain rfl : later = [] := by simpa using hlater
        simp [acceptKeyword_of_word hsecond]
  cases isConstant with
  | false =>
    obtain ⟨token, htext, behind, hconstant, htoken, harray⟩ := hrest front h
    refine ⟨token, htext, ?_⟩
    simp [variableType, hconstant, htoken, harray, bind, Except.bind]
  | true =>
    obtain ⟨first, later, rfl, hfirst, hlater⟩ := labels_eq_cons.1 h
    obtain ⟨token, htext, behind, -, htoken, harray⟩ := hrest later hlater
    refine ⟨token, htext, ?_⟩
    simp [variableType, acceptKeyword_of_word hfirst, htoken, harray, bind, Except.bind]

/-- A name in front of a semicolon has neither a size nor a value. -/
theorem variableNamed_of_word {shared : VariableType} {name semicolon : Lexeme} {text : String}
    (hname : name.token.label = .word text) (hsemicolon : semicolon.token.label = .sign ";")
    (more : List Lexeme) :
    variableNamed shared (name :: semicolon :: more) =
      .ok (.ofName shared name.token false, semicolon :: more) := by
  simp [variableNamed, identifier_of_word hname, skipSize, skipValue,
    startsWithSign_of_sign hsemicolon, bind, Except.bind]

/-- A declaration of one variable is read through its semicolon. -/
theorem variableDeclaration_of_labels {isConstant : Bool} {shape : VariableShape}
    (h : front.map label = variableLabels isConstant shape)
    (hshape : shape.isWritable isFree = true) (more : List Lexeme) :
    ∃ v : Variable, variableDeclaration (front ++ more) = .ok ([v], more) ∧
      v.isConstant = isConstant ∧
      (⟨some v.type, v.isArray, some v.name⟩ : VariableShape) = shape := by
  obtain ⟨type?, isArray, name?⟩ := shape
  obtain ⟨type, name, hparts, htype, hname⟩ := VariableShape.isWritable_iff.1 hshape
  obtain ⟨rfl, rfl⟩ : type? = some type ∧ name? = some name := by simpa using hparts
  -- The name and the semicolon are read apart from what the variables would share
  have hsplit : front.map label =
      (flagWords "constant" isConstant ++ type :: flagWords "array" isArray).map .word ++
        [.word name, .sign ";"] := by
    rw [h]
    simp [variableLabels, VariableShape.words]
  obtain ⟨head, tail, rfl, hhead, htail⟩ := labels_eq_append.1 hsplit
  obtain ⟨nameLexeme, rest, rfl, hnameLexeme, hrest⟩ := labels_eq_cons.1 htail
  obtain ⟨semicolon, rest, rfl, hsemicolon, hrest⟩ := labels_eq_cons.1 hrest
  obtain rfl : rest = [] := by simpa using hrest
  obtain ⟨token, htoken, htypeRead⟩ := variableType_of_words hhead
    (ne_of_isFree htype (by decide)) hnameLexeme (ne_of_isFree hname (by decide))
    (semicolon :: more)
  let shared : VariableType := ⟨isConstant, token, isArray⟩
  have hnamed : variableNamed shared (nameLexeme :: semicolon :: more) =
      .ok (.ofName shared nameLexeme.token false, semicolon :: more) :=
    variableNamed_of_word hnameLexeme hsemicolon more
  -- No comma follows, so that the declaration has one variable
  have hlist : commaSeparated (variableNamed shared) (consumes_variableNamed shared)
      (nameLexeme :: semicolon :: more) =
      .ok ([.ofName shared nameLexeme.token false], semicolon :: more) :=
    commaSeparated_single hnamed (startsWithSign_of_sign hsemicolon ",")
  refine ⟨.ofName shared nameLexeme.token false, ?_, rfl, ?_⟩
  · rw [List.append_assoc]
    simp [variableDeclaration, htypeRead, shared, hlist, sign_of_sign hsemicolon, bind,
      Except.bind]
  · simp [Variable.ofName, shared, htoken, Token.text_of_word hnameLexeme]

end JassOutline.Zinc
