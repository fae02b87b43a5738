import JassOutline.Program.Assembly
import JassOutline.Proofs.Token.Trailing
import JassOutline.Proofs.Writing.Bare

/-!
# Declarations from lines without their comments

What is read off the tokens of a line is the same with and without comments at their end, apart
from places. Each reader of names, parameters and variables is taken through both token lists.

## Key results

- `LineRole.ofTokens_trimsTo`: what the first words of a line mean to the outline
- `Signature.bare_ofTokens_trimsTo`, `VariableShape.ofTokens_trimsTo`: the parts of headers and of
  variables
- `bare_ofLine_trimsTo` and `bare_ofHeader_trimsTo` for each kind of declaration
-/

namespace JassOutline

open Token

variable {tokens tokens' : List Token}

/-! ### Roles of lines -/

theorem LineRole.wordAfter?_trimsTo (h : TrimsTo tokens tokens') (modifiers : List String) :
    wordAfter? modifiers tokens' = wordAfter? modifiers tokens :=
  (h.dropWhile (isCodeTest_isKeywordOf modifiers).label).leadingIdentifier?_eq

theorem LineRole.ofTokens_trimsTo (h : TrimsTo tokens tokens') :
    ofTokens tokens' = ofTokens tokens := by
  rw [ofTokens, ofTokens, h.leadingIdentifier?_eq]
  simp only [wordAfter?_trimsTo h]

theorem startsWithTwoWords_of_isComment {token : Token} (h : token.isComment = true)
    (rest : List Token) : startsWithTwoWords (token :: rest) = false := by
  cases rest with
  | nil => rfl
  | cons => simp [startsWithTwoWords, isCodeTest_isIdentifier.comment h]

theorem startsWithTwoWords_trimsTo (h : TrimsTo tokens tokens') :
    startsWithTwoWords tokens' = startsWithTwoWords tokens := by
  cases h with
  | nil => rfl
  | comment hcomment => exact (startsWithTwoWords_of_isComment hcomment _).symm
  | cons hfirst hrest =>
    cases hrest with
    | nil => rfl
    | comment hcomment =>
      simp [startsWithTwoWords, isCodeTest_isIdentifier.comment hcomment]
    | cons hsecond _ =>
      simp only [startsWithTwoWords, isCodeTest_isIdentifier.label hfirst,
        isCodeTest_isIdentifier.label hsecond]

theorem Token.TrimsTo.dropOneKeyword (h : TrimsTo tokens tokens') (words : List String) :
    TrimsTo (JassOutline.dropOneKeyword words tokens)
      (JassOutline.dropOneKeyword words tokens') := by
  have hp := isCodeTest_isKeywordOf words
  cases h with
  | nil => exact .nil
  | comment hcomment hword hrest =>
    simpa [JassOutline.dropOneKeyword, hp.comment hcomment] using .comment hcomment hword hrest
  | @cons token token' rest rest' hlabel hrest =>
    rw [JassOutline.dropOneKeyword, JassOutline.dropOneKeyword, hp.label hlabel]
    split
    · exact hrest
    · exact .cons hlabel hrest

/-! ### Lists of names and parameters -/

theorem listedNames_trimsTo (h : TrimsTo tokens tokens') (expectsItem : Bool) :
    listedNames expectsItem tokens' = listedNames expectsItem tokens := by
  induction h generalizing expectsItem with
  | nil => rfl
  | comment hcomment _ _ ih =>
    cases expectsItem <;>
      simp [listedNames, (isCodeTest_isKeyword _).comment hcomment,
        (isCodeTest_isOperator _).comment hcomment, isCodeTest_isIdentifier.comment hcomment, ← ih]
  | @cons token token' rest rest' hlabel _ ih =>
    have htext := text_of_label_eq hlabel
    cases expectsItem <;>
      simp only [listedNames, (isCodeTest_isKeyword _).label hlabel,
        (isCodeTest_isOperator _).label hlabel, isCodeTest_isIdentifier.label hlabel, htext, ih]

/-- The names of a list are the same behind a keyword. -/
theorem listedNames_after?_trimsTo (h : TrimsTo tokens tokens') {p : Token → Bool}
    (hp : IsCodeTest p) :
    listedNames true ((after? p tokens').getD []) =
      listedNames true ((after? p tokens).getD []) := by
  obtain ⟨hnone, hnone'⟩ | ⟨rest, rest', hrest, hrest', htrims⟩ := h.after?_cases hp
  · rw [hnone, hnone']
  · rw [hrest, hrest']
    exact listedNames_trimsTo htrims true

namespace Parameter

theorem bare_ofType {type type' : Token} (h : type'.label = type.label) :
    (ofType type').bare = (ofType type).bare := by
  rw [ofType, bare, text_of_label_eq h]
  rfl

theorem bare_ofTypeAndName {type type' name name' : Token} (htype : type'.label = type.label)
    (hname : name'.label = name.label) :
    (ofTypeAndName type' name').bare = (ofTypeAndName type name).bare := by
  rw [ofTypeAndName, bare, text_of_label_eq htype, text_of_label_eq hname]
  rfl

/-- Each of the three readers of a list of parameters goes on with one of the others. -/
theorem bare_list_trimsTo (h : TrimsTo tokens tokens') :
    (listFrom tokens').map bare = (listFrom tokens).map bare ∧
      (∀ {type type' : Token}, type'.label = type.label →
        (listFromName type' tokens').map bare = (listFromName type tokens).map bare) ∧
      (listFromComma tokens').map bare = (listFromComma tokens).map bare := by
  induction h with
  | nil =>
    -- A type without a name may stand at the end of the list
    refine ⟨rfl, fun htype => ?_, rfl⟩
    simp only [listFromName, List.map_cons, List.map_nil, bare_ofType htype]
  | @comment token rest hcomment _ _ ih =>
    -- None of the readers takes a comment for what it waits for
    obtain ⟨ihType, ihName, ihComma⟩ := ih
    have hnothing := (isCodeTest_isKeyword "nothing").comment hcomment
    have hidentifier := isCodeTest_isIdentifier.comment hcomment
    have hcomma := (isCodeTest_isOperator ",").comment hcomment
    refine ⟨?_, fun {type type'} htype => ?_, ?_⟩
    · simpa [listFrom, hnothing, hidentifier] using ihType
    · simpa [listFromName, hidentifier, hcomma] using ihName htype
    · simpa [listFromComma, hcomma] using ihComma
  | @cons token token' rest rest' hlabel _ ih =>
    -- What the readers ask of a token is told by its label
    obtain ⟨ihType, ihName, ihComma⟩ := ih
    have hidentifier := isCodeTest_isIdentifier.label hlabel
    have hcomma := (isCodeTest_isOperator ",").label hlabel
    refine ⟨?_, fun {type type'} htype => ?_, ?_⟩
    · -- A type is expected
      rw [listFrom, listFrom, (isCodeTest_isKeyword "nothing").label hlabel, hidentifier]
      split
      · rfl
      · split
        · exact ihName hlabel
        · exact ihType
    · -- A name is expected, and the type may also stand alone
      rw [listFromName, listFromName, hidentifier, hcomma]
      split
      · rw [List.map_cons, List.map_cons, bare_ofTypeAndName htype hlabel, ihComma]
      · split
        · rw [List.map_cons, List.map_cons, bare_ofType htype, ihType]
        · exact ihName htype
    · -- Anything up to the next comma is passed over
      rw [listFromComma, listFromComma, hcomma]
      split
      · exact ihType
      · exact ihComma

end Parameter

/-! ### Headers -/

namespace Signature

theorem wordBehind?_trimsTo (h : TrimsTo tokens tokens') (keyword : String) :
    wordBehind? keyword tokens' = wordBehind? keyword tokens := by
  rw [wordBehind?, wordBehind?]
  obtain ⟨hnone, hnone'⟩ | ⟨rest, rest', hrest, hrest', htrims⟩ :=
    h.after?_cases (isCodeTest_isKeyword keyword)
  · rw [hnone, hnone']
  · rw [hrest, hrest']
    exact htrims.leadingIdentifier?_eq

theorem wordsBefore_trimsTo (h : TrimsTo tokens tokens') (keyword : String) :
    wordsBefore keyword tokens' = wordsBefore keyword tokens := by
  have hp := isCodeTest_isKeyword keyword
  rw [wordsBefore, wordsBefore, h.any hp,
    (h.takeWhile hp.not_label).texts_filter isCodeTest_isIdentifier]

theorem parameterTokens_trimsTo (h : TrimsTo tokens tokens') :
    TrimsTo (parameterTokens tokens) (parameterTokens tokens') := by
  have htakes := isCodeTest_isKeyword "takes"
  have hreturns := isCodeTest_isKeyword "returns"
  rw [parameterTokens, parameterTokens]
  obtain ⟨hnone, hnone'⟩ | ⟨rest, rest', hrest, hrest', htrims⟩ := h.after?_cases htakes
  · rw [hnone, hnone']
    exact .nil
  · rw [hrest, hrest']
    simp only [(h.takeWhile htakes.not_label).any hreturns]
    -- Whether `returns` stands in front of `takes` is the same for both
    split
    · exact htrims
    · exact htrims.takeWhile hreturns.not_label

theorem bare_ofTokens_trimsTo (h : TrimsTo tokens tokens') (keyword : String) :
    (ofTokens keyword tokens').bare = (ofTokens keyword tokens).bare := by
  have hparameters := (Parameter.bare_list_trimsTo (parameterTokens_trimsTo h)).1
  simp only [ofTokens, bare, wordBehind?_trimsTo h, wordsBefore_trimsTo h, hparameters]

end Signature

/-- A comment is no visibility, also where all tokens in front of a keyword are taken for words. -/
theorem Visibility.ofWords_trimsTo (h : TrimsTo tokens tokens') :
    ofWords (tokens'.map Token.text) = ofWords (tokens.map Token.text) := by
  have hfind : (tokens'.map Token.text).reverse.findSome? ofWord? =
      (tokens.map Token.text).reverse.findSome? ofWord? := by
    induction h with
    | nil => rfl
    | comment _ hword _ ih => simp [hword, ← ih]
    | cons hlabel _ ih =>
      have htext := text_of_label_eq hlabel
      simp only [List.map_cons, List.reverse_cons, List.findSome?_append, ih, htext]
  rw [ofWords, hfind, ofWords]

/-! ### Variables -/

theorem VariableShape.ofTypeAndRest_trimsTo (h : TrimsTo tokens tokens') (type : Option String) :
    ofTypeAndRest type tokens' = ofTypeAndRest type tokens := by
  cases h with
  | nil => rfl
  | comment hcomment _ =>
    simp [ofTypeAndRest, (isCodeTest_isKeyword "array").comment hcomment,
      isCodeTest_isIdentifier.comment hcomment]
  | cons hlabel hrest =>
    have htext := text_of_label_eq hlabel
    simp only [ofTypeAndRest, (isCodeTest_isKeyword "array").label hlabel,
      isCodeTest_isIdentifier.label hlabel, htext, hrest.leadingIdentifier?_eq]

theorem VariableShape.ofTokens_trimsTo (h : TrimsTo tokens tokens') :
    ofTokens tokens' = ofTokens tokens := by
  rw [ofTokens, ofTokens, h.leadingIdentifier?_eq, ofTypeAndRest_trimsTo h.tail]

theorem dropVisibility_trimsTo (h : TrimsTo tokens tokens') :
    (dropVisibility tokens').1 = (dropVisibility tokens).1 ∧
      TrimsTo (dropVisibility tokens).2 (dropVisibility tokens').2 := by
  cases h with
  | nil => exact ⟨rfl, .nil⟩
  | comment hcomment hword hrest =>
    simp only [dropVisibility, hword]
    exact ⟨trivial, .comment hcomment hword hrest⟩
  | cons hlabel hrest =>
    have htext := text_of_label_eq hlabel
    simp only [dropVisibility, htext]
    split
    · exact ⟨rfl, hrest⟩
    · exact ⟨rfl, .cons hlabel hrest⟩

theorem Member.dropBinding_trimsTo (h : TrimsTo tokens tokens') :
    (dropBinding tokens').1 = (dropBinding tokens).1 ∧
      TrimsTo (dropBinding tokens).2 (dropBinding tokens').2 := by
  have hstatic := isCodeTest_isKeyword "static"
  have hstub := isCodeTest_isKeyword "stub"
  cases h with
  | nil => exact ⟨rfl, .nil⟩
  | comment hcomment hword hrest =>
    simp only [dropBinding, hstatic.comment hcomment, hstub.comment hcomment]
    exact ⟨rfl, .comment hcomment hword hrest⟩
  | cons hlabel hrest =>
    simp only [dropBinding, hstatic.label hlabel, hstub.label hlabel]
    split
    · exact ⟨rfl, hrest⟩
    · split
      · exact ⟨rfl, hrest⟩
      · exact ⟨rfl, .cons hlabel hrest⟩

theorem Member.dropFlags_trimsTo (h : TrimsTo tokens tokens') (flags : Flags) :
    (dropFlags flags tokens').1 = (dropFlags flags tokens).1 ∧
      TrimsTo (dropFlags flags tokens).2 (dropFlags flags tokens').2 := by
  have hconstant := isCodeTest_isKeyword "constant"
  have hreadonly := isCodeTest_isKeyword "readonly"
  induction h generalizing flags with
  | nil => exact ⟨rfl, .nil⟩
  | comment hcomment hword hrest =>
    simp only [dropFlags, hconstant.comment hcomment, hreadonly.comment hcomment]
    exact ⟨rfl, .comment hcomment hword hrest⟩
  | cons hlabel hrest ih =>
    simp only [dropFlags, hconstant.label hlabel, hreadonly.label hlabel]
    split
    · exact ih _
    · split
      · exact ih _
      · exact ⟨rfl, .cons hlabel hrest⟩

/-! ### Declarations of single lines -/

section Lines

variable {record record' : SourceLine}

theorem isGlobalLine_trimsTo (h : TrimsTo record.tokens record'.tokens) :
    isGlobalLine record' = isGlobalLine record := by
  have hwords := startsWithTwoWords_trimsTo h
  have hconstant := isCodeTest_isKeyword "constant"
  rw [isGlobalLine, isGlobalLine]
  generalize record.tokens = tokens at h hwords
  generalize record'.tokens = tokens' at h hwords
  cases h with
  | nil => rfl
  | comment hcomment =>
    simp [hconstant.comment hcomment, startsWithTwoWords_of_isComment hcomment]
  | cons hlabel _ => simp only [hwords, hconstant.label hlabel]

theorem isMemberLine_trimsTo (h : TrimsTo record.tokens record'.tokens) :
    isMemberLine record' = isMemberLine record := by
  have htrims := (h.dropOneKeyword LineRole.visibilityWords).dropOneKeyword ["static", "stub"]
  have hwords := startsWithTwoWords_trimsTo htrims
  rw [isMemberLine, isMemberLine]
  generalize dropOneKeyword ["static", "stub"] (dropOneKeyword _ record.tokens) = tokens
    at htrims hwords ⊢
  generalize dropOneKeyword ["static", "stub"] (dropOneKeyword _ record'.tokens) = tokens'
    at htrims hwords ⊢
  cases htrims with
  | nil => rfl
  | comment hcomment => simp [startsWithTwoWords_of_isComment hcomment]
  | cons hlabel _ =>
    have htext := text_of_label_eq hlabel
    simp only [hwords, htext]

theorem Native.bare_ofLine_trimsTo (h : TrimsTo record.tokens record'.tokens) :
    (ofLine record').bare = (ofLine record).bare := by
  have hsignature := Signature.bare_ofTokens_trimsTo h "native"
  simp only [Signature.bare, Signature.mk.injEq] at hsignature
  simp only [ofLine, bare, Heading.bare, hsignature]

theorem TypeDeclaration.bare_ofLine_trimsTo (h : TrimsTo record.tokens record'.tokens) :
    (ofLine record').bare = (ofLine record).bare := by
  simp only [ofLine, bare, Heading.bare, Signature.wordBehind?_trimsTo h]

theorem GlobalVariable.bare_ofLine_trimsTo (h : TrimsTo record.tokens record'.tokens) :
    (ofLine record').bare = (ofLine record).bare := by
  obtain ⟨hvisibility, hrest⟩ := dropVisibility_trimsTo h
  obtain ⟨hconstant, hvariable⟩ := hrest.dropKeyword "constant"
  simp only [ofLine, bare, Heading.bare, hvisibility, hconstant,
    VariableShape.ofTokens_trimsTo hvariable]

theorem LocalVariable.bare_ofLine_trimsTo (h : TrimsTo record.tokens record'.tokens) :
    (ofLine record').bare = (ofLine record).bare := by
  rw [ofLine, ofLine]
  obtain ⟨hnone, hnone'⟩ | ⟨_, _, rest, rest', hlocal, hlocal', hrest⟩ :=
    h.dropWhile_not_cases (isCodeTest_isKeyword "local")
  · rw [hnone, hnone']
    rfl
  · obtain ⟨hconstant, hvariable⟩ := hrest.dropKeyword "constant"
    simp only [hlocal, hlocal', bare, Heading.bare, hconstant,
      VariableShape.ofTokens_trimsTo hvariable]

theorem Member.bare_ofLine_trimsTo (h : TrimsTo record.tokens record'.tokens) :
    (ofLine record').bare = (ofLine record).bare := by
  obtain ⟨hvisibility, hbehind⟩ := dropVisibility_trimsTo h
  obtain ⟨hbinding, hbehind⟩ := dropBinding_trimsTo hbehind
  obtain ⟨hflags, hbehind⟩ := dropFlags_trimsTo hbehind ⟨false, false⟩
  simp only [ofLine, hvisibility, hbinding, hflags]
  -- The variable may start behind the word `local`, wherever that stands
  obtain ⟨hnone, hnone'⟩ | ⟨_, _, rest, rest', hlocal, hlocal', hrest⟩ :=
    hbehind.dropWhile_not_cases (isCodeTest_isKeyword "local")
  · simp only [hnone, hnone', bare, Heading.bare, VariableShape.ofTokens_trimsTo hbehind]
  · obtain ⟨hconstant, hvariable⟩ := hrest.dropKeyword "constant"
    simp only [hlocal, hlocal', bare, Heading.bare, hconstant,
      VariableShape.ofTokens_trimsTo hvariable]

end Lines

/-! ### Headers of blocks -/

section Blocks

variable {record record' : SourceLine} (region region' : Region)

theorem Function.bare_ofHeader_trimsTo (h : TrimsTo record.tokens record'.tokens) :
    (ofHeader record' region').bare = (ofHeader record region).bare := by
  have hsignature := Signature.bare_ofTokens_trimsTo h "function"
  simp only [Signature.bare, Signature.mk.injEq] at hsignature
  simp only [ofHeader, bare, Heading.bare, hsignature]

theorem Method.bare_ofHeader_trimsTo (h : TrimsTo record.tokens record'.tokens) :
    (ofHeader record' region').bare = (ofHeader record region).bare := by
  have hsignature := Signature.bare_ofTokens_trimsTo h "method"
  simp only [Signature.bare, Signature.mk.injEq] at hsignature
  simp only [ofHeader, bare, Heading.bare, hsignature]

theorem Struct.bare_ofHeader_trimsTo (h : TrimsTo record.tokens record'.tokens) :
    (ofHeader record' region').bare = (ofHeader record region).bare := by
  have hwords := Visibility.ofWords_trimsTo (h.takeWhile (isCodeTest_isKeyword "struct").not_label)
  have hparents := listedNames_after?_trimsTo h (isCodeTest_isKeyword "extends")
  simp only [ofHeader, ofRegion, bare, Heading.bare, Signature.wordBehind?_trimsTo h, hwords,
    hparents]

theorem Library.bare_ofHeader_trimsTo (h : TrimsTo record.tokens record'.tokens) :
    (ofHeader record' region').bare = (ofHeader record region).bare := by
  have hrequirements :=
    listedNames_after?_trimsTo h (isCodeTest_isKeywordOf ["requires", "needs", "uses"])
  rw [ofHeader, ofHeader]
  obtain ⟨hnone, hnone'⟩ | ⟨rest, rest', hrest, hrest', htrims⟩ :=
    h.after?_cases (isCodeTest_isKeywordOf ["library", "library_once"])
  · rw [hnone, hnone']
    rfl
  · simp only [hrest, hrest', ofRegion, bare, Heading.bare, htrims.leadingIdentifier?_eq,
      Signature.wordBehind?_trimsTo h, hrequirements]

end Blocks

end JassOutline
