import JassOutline.Proofs.Writing.Notation

/-!
# Reading written variables

The line of a variable is a row of words: optional modifiers in a fixed order, and then the type and
the name. Each reader of modifiers takes its own words from the front and leaves the others, because
what follows does not start with a word it knows.

## Key results

- `GlobalVariable.ofLine_of_words`, `LocalVariable.ofLine_of_words`, `Member.ofLine_of_words`: each
  reader gives back the variable that a row of words says
- `isGlobalLine_of_words`, `isMemberLine_of_words`: the rows are known as variables
-/

namespace JassOutline

open Token

variable {tokens : List Token} {rest words : List String}

/-! ### Where a row of words starts -/

/-- The row does not start with one of the given words. -/
def StartsOutside (words rest : List String) : Prop :=
  ∀ w ∈ rest.head?, w ∉ words

theorem StartsOutside.flag {flag : String} {isSet : Bool} (h : StartsOutside words rest)
    (hflag : flag ∉ words) : StartsOutside words (flagWords flag isSet ++ rest) := by
  cases isSet with
  | false => exact h
  | true =>
    intro w hw
    obtain rfl : flag = w := by simpa [flagWords] using hw
    exact hflag

theorem StartsOutside.binding {binding : Binding} (h : StartsOutside words rest)
    (hstatic : "static" ∉ words) (hstub : "stub" ∉ words) :
    StartsOutside words (binding.words ++ rest) := by
  cases binding with
  | ordinary => exact h
  | static =>
    show StartsOutside words (flagWords "static" true ++ rest)
    exact h.flag hstatic
  | stub =>
    show StartsOutside words (flagWords "stub" true ++ rest)
    exact h.flag hstub

/-- The words of a variable start with its type, which is no reserved word. -/
theorem VariableShape.startsOutside {shape : VariableShape} (h : shape.isWritable isFree = true)
    (hwords : ∀ w ∈ words, w ∈ reservedWords) : StartsOutside words shape.words := by
  obtain ⟨type, name, hshape, htype, -⟩ := isWritable_iff.1 h
  rw [hshape]
  intro w hw hmem
  obtain rfl : type = w := by simpa [VariableShape.words] using hw
  exact ne_of_isFree htype (hwords type hmem) rfl

/-! ### Modifiers -/

/-- A row that does not start with one of the given words is empty or starts with another one. -/
theorem StartsOutside.cases (hrest : StartsOutside words rest)
    (h : tokens.map label = rest.map .word) :
    tokens = [] ∨ ∃ token later word, tokens = token :: later ∧ token.label = .word word ∧
      word ∉ words := by
  cases rest with
  | nil => exact .inl (by simpa using h)
  | cons word rest =>
    obtain ⟨token, later, rfl, htoken, -⟩ := labels_eq_cons.1 h
    exact .inr ⟨token, later, word, rfl, htoken, hrest word rfl⟩

theorem labels_words_cons {word : String}
    (h : tokens.map label = (word :: rest).map .word) :
    ∃ token later, tokens = token :: later ∧ token.label = .word word ∧
      later.map label = rest.map .word :=
  labels_eq_cons.1 h

/-- The visibility is taken from the front. -/
theorem dropVisibility_of_words {visibility : Visibility}
    (h : tokens.map label = (visibility.words ++ rest).map .word)
    (hrest : StartsOutside ["private", "public"] rest) :
    ∃ later, dropVisibility tokens = (visibility, later) ∧ later.map label = rest.map .word := by
  cases visibility with
  | unmarked =>
    refine ⟨tokens, ?_, h⟩
    rcases hrest.cases h with rfl | ⟨token, later, word, rfl, htoken, hword⟩
    · rfl
    · simp only [List.mem_cons, not_or] at hword
      simp [dropVisibility, text_of_word htoken, Visibility.ofWord?, hword]
  | hidden =>
    obtain ⟨token, later, rfl, htoken, hlater⟩ := labels_words_cons h
    exact ⟨later, by simp [dropVisibility, text_of_word htoken, Visibility.ofWord?], hlater⟩
  | exported =>
    obtain ⟨token, later, rfl, htoken, hlater⟩ := labels_words_cons h
    exact ⟨later, by simp [dropVisibility, text_of_word htoken, Visibility.ofWord?], hlater⟩

/-- The word of a flag is taken from the front. -/
theorem dropKeyword_of_words {flag : String} {isSet : Bool}
    (h : tokens.map label = (flagWords flag isSet ++ rest).map .word)
    (hrest : StartsOutside [flag] rest) :
    ∃ later, dropKeyword flag tokens = (isSet, later) ∧ later.map label = rest.map .word := by
  cases isSet with
  | false =>
    refine ⟨tokens, ?_, h⟩
    rcases hrest.cases h with rfl | ⟨token, later, word, rfl, htoken, hword⟩
    · rfl
    · have hflag : word ≠ flag := by simpa using hword
      simp [dropKeyword, isKeyword_of_word htoken, hflag]
  | true =>
    obtain ⟨token, later, rfl, htoken, hlater⟩ := labels_words_cons h
    exact ⟨later, by simp [dropKeyword, isKeyword_of_word htoken], hlater⟩

/-- The binding is taken from the front. -/
theorem Member.dropBinding_of_words {binding : Binding}
    (h : tokens.map label = (binding.words ++ rest).map .word)
    (hrest : StartsOutside ["static", "stub"] rest) :
    ∃ later, dropBinding tokens = (binding, later) ∧ later.map label = rest.map .word := by
  cases binding with
  | ordinary =>
    refine ⟨tokens, ?_, h⟩
    rcases hrest.cases h with rfl | ⟨token, later, word, rfl, htoken, hword⟩
    · rfl
    · simp only [List.mem_cons, not_or] at hword
      simp [dropBinding, isKeyword_of_word htoken, hword]
  | static =>
    obtain ⟨token, later, rfl, htoken, hlater⟩ := labels_words_cons h
    exact ⟨later, by simp [dropBinding, isKeyword_of_word htoken], hlater⟩
  | stub =>
    obtain ⟨token, later, rfl, htoken, hlater⟩ := labels_words_cons h
    exact ⟨later, by simp [dropBinding, isKeyword_of_word htoken], hlater⟩

/-- The flags of a member are taken from the front. -/
theorem Member.dropFlags_of_words (flags : Flags)
    (h : tokens.map label =
      (flagWords "constant" flags.isConstant ++
        (flagWords "readonly" flags.isReadonly ++ rest)).map .word)
    (hrest : StartsOutside ["constant", "readonly"] rest) :
    ∃ later, dropFlags ⟨false, false⟩ tokens = (flags, later) ∧
      later.map label = rest.map .word := by
  obtain ⟨isConstant, isReadonly⟩ := flags
  -- Nothing is taken from what is left
  have hstop : ∀ (flags : Flags) (tokens : List Token), tokens.map label = rest.map .word →
      dropFlags flags tokens = (flags, tokens) := by
    intro flags tokens h
    rcases hrest.cases h with rfl | ⟨token, later, word, rfl, htoken, hword⟩
    · rfl
    · simp only [List.mem_cons, not_or] at hword
      simp [dropFlags, isKeyword_of_word htoken, hword]
  cases isConstant with
  | false =>
    cases isReadonly with
    | false => exact ⟨tokens, hstop _ _ h, h⟩
    | true =>
      obtain ⟨token, later, rfl, htoken, hlater⟩ := labels_words_cons h
      exact ⟨later, by simp [dropFlags, isKeyword_of_word htoken, hstop _ _ hlater], hlater⟩
  | true =>
    obtain ⟨token, later, rfl, htoken, hlater⟩ := labels_words_cons h
    cases isReadonly with
    | false =>
      exact ⟨later, by simp [dropFlags, isKeyword_of_word htoken, hstop _ _ hlater], hlater⟩
    | true =>
      obtain ⟨second, behind, rfl, hsecond, hbehind⟩ := labels_words_cons hlater
      refine ⟨behind, ?_, hbehind⟩
      simp [dropFlags, isKeyword_of_word htoken, isKeyword_of_word hsecond, hstop _ _ hbehind]

/-! ### Variables -/

/-- The words behind the modifiers are read as the type and the name. -/
theorem VariableShape.ofTokens_of_words {shape : VariableShape}
    (h : tokens.map label = shape.words.map .word) (hshape : shape.isWritable isFree = true) :
    ofTokens tokens = shape := by
  obtain ⟨type?, isArray, name?⟩ := shape
  obtain ⟨type, name, hparts, -, hname⟩ := isWritable_iff.1 hshape
  obtain ⟨rfl, rfl⟩ : type? = some type ∧ name? = some name := by simpa using hparts
  have harray : name ≠ "array" := ne_of_isFree hname (by decide)
  obtain ⟨first, later, rfl, hfirst, hlater⟩ := labels_words_cons h
  -- The word behind the type is the name, unless it is `array`
  cases isArray with
  | false =>
    obtain ⟨second, behind, rfl, hsecond, -⟩ := labels_words_cons hlater
    simp [ofTokens, ofTypeAndRest, leadingIdentifier?, isIdentifier_of_word hfirst,
      text_of_word hfirst, isKeyword_of_word hsecond, harray, isIdentifier_of_word hsecond,
      text_of_word hsecond]
  | true =>
    obtain ⟨second, behind, rfl, hsecond, hbehind⟩ := labels_words_cons hlater
    obtain ⟨third, more, rfl, hthird, -⟩ := labels_words_cons hbehind
    simp [ofTokens, ofTypeAndRest, leadingIdentifier?, isIdentifier_of_word hfirst,
      text_of_word hfirst, isKeyword_of_word hsecond, isIdentifier_of_word hthird,
      text_of_word hthird]

theorem GlobalVariable.ofLine_of_words {v : GlobalVariable} {record : SourceLine}
    (h : record.tokens.map label = v.words.map .word) (hshape : v.shape.isWritable isFree = true) :
    ofLine record = { v with comments := [], region := record.region } := by
  have houtside : StartsOutside ["private", "public"]
      (flagWords "constant" v.isConstant ++ v.shape.words) :=
    (VariableShape.startsOutside hshape (by decide)).flag (by decide)
  obtain ⟨later, hvisibility, hlater⟩ := dropVisibility_of_words h houtside
  obtain ⟨behind, hconstant, hbehind⟩ := dropKeyword_of_words hlater
    (VariableShape.startsOutside hshape (by decide))
  simp [ofLine, hvisibility, hconstant, VariableShape.ofTokens_of_words hbehind hshape, shape]

theorem LocalVariable.ofLine_of_words {v : LocalVariable} {record : SourceLine}
    (h : record.tokens.map label = v.words.map .word) (hshape : v.shape.isWritable isFree = true) :
    ∃ region, ofLine record = { v with comments := [], region } := by
  obtain ⟨first, later, htokens, hfirst, hlater⟩ := labels_words_cons h
  obtain ⟨behind, hconstant, hbehind⟩ := dropKeyword_of_words hlater
    (VariableShape.startsOutside hshape (by decide))
  refine ⟨⟨first.start, record.region.stop⟩, ?_⟩
  simp [ofLine, htokens, isKeyword_of_word hfirst, hconstant,
    VariableShape.ofTokens_of_words hbehind hshape, shape]

theorem Member.ofLine_of_words {v : Member} {record : SourceLine}
    (h : record.tokens.map label = v.words.map .word) (hshape : v.shape.isWritable isFree = true) :
    ofLine record = { v with comments := [], region := record.region } := by
  have hfree {words : List String} (hwords : ∀ w ∈ words, w ∈ reservedWords) :=
    VariableShape.startsOutside hshape hwords
  -- Each reader takes its words and leaves those of the readers behind it
  obtain ⟨tokens₁, hvisibility, h₁⟩ := dropVisibility_of_words h
    ((((hfree (by decide)).flag (by decide)).flag (by decide)).binding (by decide) (by decide))
  obtain ⟨tokens₂, hbinding, h₂⟩ := dropBinding_of_words h₁
    (((hfree (by decide)).flag (by decide)).flag (by decide))
  obtain ⟨tokens₃, hflags, h₃⟩ := dropFlags_of_words ⟨v.isConstant, v.isReadonly⟩ h₂
    (hfree (by decide))
  -- A type and a name leave no place for the word `local`
  have hmem : .word "local" ∉ v.shape.words.map Label.word := by
    rw [Label.mem_map_word]
    intro hmem
    rcases VariableShape.isFree_of_mem_words hshape hmem with h | hfree
    · exact absurd h (by decide)
    · exact ne_of_isFree hfree (by decide) rfl
  have hall : tokens₃.map label = v.shape.words.map .word ++ [] := by rw [h₃, List.append_nil]
  have hlocal : tokens₃.dropWhile (!·.isKeyword "local") = [] :=
    List.map_eq_nil_iff.1 (span_of_labels hall
      (fun _ htoken => by simp [isKeyword_of_not_mem hmem htoken]) (by simp)).2
  simp [ofLine, hvisibility, hbinding, hflags, hlocal, VariableShape.ofTokens_of_words h₃ hshape,
    shape]

/-! ### Rows that are known as variables -/

theorem VariableShape.two_le_length_words (shape : VariableShape) : 2 ≤ shape.words.length := by
  simp [words]

theorem startsWithTwoWords_of_words (h : tokens.map label = words.map .word)
    (hwords : 2 ≤ words.length) : startsWithTwoWords tokens = true := by
  match words with
  | first :: second :: rest =>
    obtain ⟨token, later, rfl, htoken, hlater⟩ := labels_words_cons h
    obtain ⟨next, behind, rfl, hnext, -⟩ := labels_words_cons hlater
    simp [startsWithTwoWords, isIdentifier_of_word htoken, isIdentifier_of_word hnext]

theorem dropOneKeyword_of_words {front : List String}
    (h : tokens.map label = (front ++ rest).map .word) (hfront : ∀ w ∈ front, w ∈ words)
    (hone : front.length ≤ 1) (hrest : StartsOutside words rest) :
    (dropOneKeyword words tokens).map label = rest.map .word := by
  cases front with
  | nil =>
    rcases hrest.cases h with rfl | ⟨token, later, word, rfl, htoken, hword⟩
    · exact h
    · simpa [dropOneKeyword, isKeywordOf_of_word htoken, hword] using h
  | cons word front =>
    obtain rfl : front = [] := by simpa using hone
    obtain ⟨token, later, rfl, htoken, hlater⟩ := labels_words_cons h
    simpa [dropOneKeyword, isKeywordOf_of_word htoken, hfront word List.mem_cons_self] using hlater

theorem isGlobalLine_of_words {v : GlobalVariable} {record : SourceLine}
    (h : record.tokens.map label = v.words.map .word) : isGlobalLine record = true := by
  have htwo := startsWithTwoWords_of_words h (by
    have hshape := v.shape.two_le_length_words
    simp only [GlobalVariable.words, List.length_append]
    omega)
  unfold isGlobalLine
  split
  · next first rest htokens => rw [← htokens, htwo, Bool.or_true]
  · next htokens => simp [htokens, startsWithTwoWords] at htwo

theorem isMemberLine_of_words {v : Member} {record : SourceLine}
    (h : record.tokens.map label = v.words.map .word) (hshape : v.shape.isWritable isFree = true) :
    isMemberLine record = true := by
  -- The words behind the visibility and the binding
  let rest : List String :=
    flagWords "constant" v.isConstant ++ (flagWords "readonly" v.isReadonly ++ v.shape.words)
  have houtside {words : List String} (hwords : ∀ w ∈ words, w ∈ reservedWords)
      (hconstant : "constant" ∉ words) (hreadonly : "readonly" ∉ words) :
      StartsOutside words rest :=
    ((VariableShape.startsOutside hshape hwords).flag hreadonly).flag hconstant
  have hvisibility : (dropOneKeyword LineRole.visibilityWords record.tokens).map label =
      (v.binding.words ++ rest).map .word :=
    dropOneKeyword_of_words h (by cases v.visibility <;> decide) (by cases v.visibility <;> decide)
      ((houtside (by decide) (by decide) (by decide)).binding (by decide) (by decide))
  have hbinding : (dropOneKeyword ["static", "stub"]
      (dropOneKeyword LineRole.visibilityWords record.tokens)).map label = rest.map .word :=
    dropOneKeyword_of_words hvisibility (by cases v.binding <;> decide)
      (by cases v.binding <;> decide) (houtside (by decide) (by decide) (by decide))
  have htwo := startsWithTwoWords_of_words hbinding (by
    have hlength := v.shape.two_le_length_words
    simp only [rest, List.length_append]
    omega)
  -- The first of the two words starts no statement
  have hstatement : StartsOutside statementWords rest :=
    houtside (by decide) (by decide) (by decide)
  unfold isMemberLine
  split
  · next type later htokens =>
    rw [htokens] at htwo hbinding
    rcases hstatement.cases hbinding with hnil | ⟨_, _, word, htype, hlabel, hword⟩
    · cases hnil
    · obtain ⟨rfl, rfl⟩ := List.cons.inj htype
      simp [htwo, text_of_word hlabel, hword]
  · next htokens => simp [htokens, startsWithTwoWords] at htwo

end JassOutline
