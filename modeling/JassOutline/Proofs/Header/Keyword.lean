import JassOutline.Proofs.Declaration.Sites
import JassOutline.Proofs.Writing.Notation

/-!
# Keywords of declarations

The role of a line is decided at the first token that is no modifier, while the readers of
declarations look for their keyword anywhere in the line. On a line with the role of a construct
both find the same token: only modifiers that may stand there are in front of it. The line of a
member is parted in the same two ways.

## Key results

- `Construct.exists_splits`: where the keyword of a line stands
- `Construct.readsAt_of_splits`: what is read in front of it and behind it
- `Member.exists_splits`: the visibility and the binding in front of a member
-/

namespace JassOutline

open Token

/-! ### Constructs -/

/-- The declarations that a keyword introduces. -/
inductive Construct where
  | native
  | function
  | method
  | struct
  | library
  | typeDeclaration
  | localVariable
  deriving DecidableEq, Repr

namespace Construct

/-- The role of the lines that introduce the construct. -/
def role : Construct → LineRole
  | native => .native
  | function => .opens .function
  | method => .opens .method
  | struct => .opens .struct
  | library => .opens .library
  | typeDeclaration => .typeDeclaration
  | localVariable => .localVariable

/-- The words that may stand in front of the keyword. -/
def modifiers : Construct → List String
  | native => LineRole.nativeModifiers
  | function | method => LineRole.routineModifiers
  | struct | library => LineRole.visibilityWords
  | typeDeclaration | localVariable => []

/-- The words for the construct. -/
def keywords : Construct → List String
  | native => ["native"]
  | function => ["function"]
  | method => ["method"]
  | struct => ["struct"]
  | library => ["library", "library_once"]
  | typeDeclaration => ["type"]
  | localVariable => ["local"]

/-- The declaration of the construct that is read off the line. A block has the given region. -/
def read (record : SourceLine) (region : Region) : Construct → Declaration
  | native => .native (.ofLine record)
  | function => .function (.ofHeader record region)
  | method => .method (.ofHeader record region)
  | struct => .struct (.ofHeader record region)
  | library => .library (.ofHeader record region)
  | typeDeclaration => .type (.ofLine record)
  | localVariable => .localVariable (.ofLine record)

end Construct

/-- How a declaration is modified. -/
structure Declaration.Flags where
  visibility : Visibility
  binding : Binding
  isConstant : Bool
  deriving DecidableEq, Repr

/-- The flags of a declaration. What its kind does not have is not set. -/
def Declaration.flags : Declaration → Flags
  | .native d => ⟨.unmarked, .ordinary, d.isConstant⟩
  | .type _ => ⟨.unmarked, .ordinary, false⟩
  | .global d => ⟨d.visibility, .ordinary, d.isConstant⟩
  | .function d => ⟨d.visibility, .ordinary, d.isConstant⟩
  | .struct d => ⟨d.visibility, .ordinary, false⟩
  | .library _ => ⟨.unmarked, .ordinary, false⟩
  | .member d => ⟨d.visibility, d.binding, d.isConstant⟩
  | .method d => ⟨d.visibility, d.binding, false⟩
  | .localVariable d => ⟨.unmarked, .ordinary, d.isConstant⟩

/-- The flags that words in front of the keyword give a declaration. -/
def Construct.flagsOf (words : List String) : Construct → Declaration.Flags
  | native => ⟨.unmarked, .ordinary, words.contains "constant"⟩
  | function => ⟨.ofWords words, .ordinary, words.contains "constant"⟩
  | method => ⟨.ofWords words, .ofWords words, false⟩
  | struct => ⟨.ofWords words, .ordinary, false⟩
  | library | typeDeclaration | localVariable => ⟨.unmarked, .ordinary, false⟩

/-! ### Where the keyword stands -/

variable {tokens before behind : List Token} {keyword token : Token} {c : Construct}
  {record : SourceLine}

theorem Token.isKeywordOf_iff {words : List String} :
    token.isKeywordOf words = true ↔ token.isIdentifier = true ∧ token.text ∈ words := by
  simp [isKeywordOf, isIdentifier]

theorem Token.isKeywordOf_singleton (word : String) :
    token.isKeywordOf [word] = token.isKeyword word := by
  rw [Bool.eq_iff_iff]
  simp [isKeywordOf, isKeyword]

/-- The word that decides the role of a line stands behind the modifiers that go with it. -/
theorem LineRole.ofTokens_cases {role : LineRole} (h : ofTokens tokens = role)
    (hrole : role ≠ .other) :
    (∃ word, wordAfter? [] tokens = some word ∧ ofFirstWord? word = some role) ∨
    (∃ word, wordAfter? routineModifiers tokens = some word ∧ ofRoutineWord? word = some role) ∨
    (∃ word, wordAfter? visibilityWords tokens = some word ∧ ofContainerWord? word = some role) ∨
    (wordAfter? nativeModifiers tokens = some "native" ∧ role = .native) := by
  unfold ofTokens at h
  split at h
  · exact absurd h.symm hrole
  · next first hfirst =>
    -- The roles are tried one after the other, and the first one that fits decides
    have hfirst' : wordAfter? [] tokens = some first := by
      cases tokens with
      | nil => cases hfirst
      | cons => simpa [wordAfter?, isKeywordOf] using hfirst
    cases hword : ofFirstWord? first with
    | some found => exact .inl ⟨first, hfirst', by simpa [hword] using h⟩
    | none =>
      cases hroutine : (wordAfter? routineModifiers tokens).bind ofRoutineWord? with
      | some found =>
        obtain ⟨word, hbehind, hfound⟩ := Option.bind_eq_some_iff.1 hroutine
        exact .inr (.inl ⟨word, hbehind, by simpa [hword, hroutine, hfound] using h⟩)
      | none =>
        cases hcontainer : (wordAfter? visibilityWords tokens).bind ofContainerWord? with
        | some found =>
          obtain ⟨word, hbehind, hfound⟩ := Option.bind_eq_some_iff.1 hcontainer
          exact .inr (.inr (.inl
            ⟨word, hbehind, by simpa [hword, hroutine, hcontainer, hfound] using h⟩))
        | none =>
          -- What is left is a native, behind its modifiers, or no role at all
          rw [hword, hroutine, hcontainer] at h
          by_cases hnative : wordAfter? nativeModifiers tokens = some "native"
          · exact .inr (.inr (.inr ⟨hnative, by simpa [hnative] using h.symm⟩))
          · exact absurd (by simpa [hnative] using h.symm) hrole

namespace Construct

/-- The tokens of a line, parted at the keyword of the construct. -/
structure Splits (c : Construct) (tokens before : List Token) (keyword : Token)
    (behind : List Token) : Prop where
  tokens_eq : tokens = before ++ keyword :: behind
  modifiers : ∀ token ∈ before, token.isKeywordOf c.modifiers = true
  keyword : keyword.isKeywordOf c.keywords = true

/-- No keyword is one of the words that may stand in front of it. -/
theorem not_mem_modifiers {word : String} (h : word ∈ c.keywords) : word ∉ c.modifiers := by
  have hapart : ∀ word ∈ c.keywords, word ∉ c.modifiers := by cases c <;> decide
  exact hapart word h

/-! Each test knows few words. The role that it gives tells the word, and the construct has the
modifiers that the test passes over. -/

theorem of_ofFirstWord? {word : String} (h : LineRole.ofFirstWord? word = some c.role) :
    word ∈ c.keywords ∧ c.modifiers = [] := by
  unfold LineRole.ofFirstWord? at h
  split at h <;> cases c <;> simp_all [role, keywords, modifiers]

theorem of_ofRoutineWord? {word : String} (h : LineRole.ofRoutineWord? word = some c.role) :
    word ∈ c.keywords ∧ c.modifiers = LineRole.routineModifiers := by
  unfold LineRole.ofRoutineWord? at h
  split at h <;> cases c <;> simp_all [role, keywords, modifiers]

theorem of_ofContainerWord? {word : String} (h : LineRole.ofContainerWord? word = some c.role) :
    word ∈ c.keywords ∧ c.modifiers = LineRole.visibilityWords := by
  unfold LineRole.ofContainerWord? at h
  split at h <;> cases c <;> simp_all [role, keywords, modifiers]

/-- The word that decides the role of a construct is a keyword of the construct. -/
theorem exists_wordAfter? (h : LineRole.ofTokens tokens = c.role) :
    ∃ word ∈ c.keywords, LineRole.wordAfter? c.modifiers tokens = some word := by
  have hrole : c.role ≠ .other := by cases c <;> decide
  obtain ⟨word, hbehind, hword⟩ | ⟨word, hbehind, hword⟩ | ⟨word, hbehind, hword⟩ |
      ⟨hbehind, hword⟩ := LineRole.ofTokens_cases h hrole
  · obtain ⟨hmem, hmodifiers⟩ := of_ofFirstWord? hword
    exact ⟨word, hmem, by rw [hmodifiers, hbehind]⟩
  · obtain ⟨hmem, hmodifiers⟩ := of_ofRoutineWord? hword
    exact ⟨word, hmem, by rw [hmodifiers, hbehind]⟩
  · obtain ⟨hmem, hmodifiers⟩ := of_ofContainerWord? hword
    exact ⟨word, hmem, by rw [hmodifiers, hbehind]⟩
  · -- Only natives have this role
    obtain rfl : c = .native := by cases c <;> cases hword; rfl
    exact ⟨"native", List.mem_singleton_self _, hbehind⟩

/-- A line with the role of a construct is parted at the keyword, with nothing but modifiers of the
construct in front. -/
theorem exists_splits (h : LineRole.ofLine record = c.role) :
    ∃ before keyword behind, c.Splits record.tokens before keyword behind := by
  have htokens : LineRole.ofTokens record.tokens = c.role := by
    unfold LineRole.ofLine at h
    split at h
    · split at h <;> cases c <;> cases h
    · exact h
  obtain ⟨word, hword, hbehind⟩ := exists_wordAfter? htokens
  rw [LineRole.wordAfter?] at hbehind
  cases hrest : record.tokens.dropWhile (·.isKeywordOf c.modifiers) with
  | nil => simp [hrest, leadingIdentifier?] at hbehind
  | cons keyword behind =>
    simp only [hrest, leadingIdentifier?, Option.ite_none_right_eq_some, Option.some.injEq]
      at hbehind
    obtain ⟨hidentifier, rfl⟩ := hbehind
    refine ⟨record.tokens.takeWhile (·.isKeywordOf c.modifiers), keyword, behind, ?_, ?_,
      Token.isKeywordOf_iff.2 ⟨hidentifier, hword⟩⟩
    · rw [← hrest, List.takeWhile_append_dropWhile]
    · exact fun token => List.mem_takeWhile_imp

namespace Splits

variable (h : c.Splits tokens before keyword behind)
include h

theorem isIdentifier_of_mem : ∀ token ∈ before, token.isIdentifier = true := fun token htoken =>
  (Token.isKeywordOf_iff.1 (h.modifiers token htoken)).1

theorem not_isKeywordOf_of_mem : ∀ token ∈ before, token.isKeywordOf c.keywords = false := by
  intro token htoken
  refine Bool.eq_false_iff.2 fun hkeyword => ?_
  exact not_mem_modifiers (Token.isKeywordOf_iff.1 hkeyword).2
    (Token.isKeywordOf_iff.1 (h.modifiers token htoken)).2

/-- The role is decided at the keyword. -/
theorem findIdx_not_modifier :
    tokens.findIdx (fun token => !token.isKeywordOf c.modifiers) = before.length := by
  have hkeyword : keyword.isKeywordOf c.modifiers = false := by
    refine Bool.eq_false_iff.2 fun hmodifier => ?_
    exact not_mem_modifiers (Token.isKeywordOf_iff.1 h.keyword).2
      (Token.isKeywordOf_iff.1 hmodifier).2
  rw [h.tokens_eq]
  exact findIdx_append_cons (fun token htoken => by simp [h.modifiers token htoken])
    (by simp [hkeyword]) behind

/-- The keyword is the first token that reads like one. -/
theorem findIdx_keyword : tokens.findIdx (·.isKeywordOf c.keywords) = before.length := by
  rw [h.tokens_eq]
  exact findIdx_append_cons h.not_isKeywordOf_of_mem h.keyword behind

theorem after?_keyword : after? (·.isKeywordOf c.keywords) tokens = some behind := by
  rw [h.tokens_eq, after?_append h.not_isKeywordOf_of_mem, after?, h.keyword, if_pos rfl]

theorem takeWhile_not_keyword : tokens.takeWhile (!·.isKeywordOf c.keywords) = before := by
  have hbefore : ∀ token ∈ before, (!token.isKeywordOf c.keywords) = true := fun token htoken => by
    rw [h.not_isKeywordOf_of_mem token htoken, Bool.not_false]
  rw [h.tokens_eq, List.takeWhile_append_of_pos hbefore,
    List.takeWhile_cons_of_neg (by simp [h.keyword]), List.append_nil]

/-- The name is the word behind the keyword. -/
theorem wordBehind?_keyword {word : String} (hword : c.keywords = [word]) :
    Signature.wordBehind? word tokens = leadingIdentifier? behind := by
  have hafter := h.after?_keyword
  simp only [hword, Token.isKeywordOf_singleton] at hafter
  rw [Signature.wordBehind?, hafter, Option.bind_some]

/-- The modifiers are the words in front of the keyword. -/
theorem wordsBefore_keyword {word : String} (hword : c.keywords = [word]) :
    Signature.wordsBefore word tokens = before.map Token.text := by
  have hkeyword := h.keyword
  have htake := h.takeWhile_not_keyword
  simp only [hword, Token.isKeywordOf_singleton] at hkeyword htake
  have hany : tokens.any (·.isKeyword word) = true :=
    List.any_eq_true.2 ⟨keyword, by simp [h.tokens_eq], hkeyword⟩
  rw [Signature.wordsBefore, if_pos hany, htake, List.filter_eq_self.2 h.isIdentifier_of_mem]

end Splits

/-! ### What is read -/

/-- Role and reader part the line at the same token, and the reader takes the flags from the words
in front of it and the name from the token behind it. A local variable has no words in front, and
everything that is read of it stands behind the keyword. -/
structure ReadsAt (c : Construct) (record : SourceLine) (region : Region) (before : List Token)
    (keyword : Token) (behind : List Token) : Prop extends
    Splits c record.tokens before keyword behind where
  /-- The role is decided at the first token that is no modifier. -/
  decided : record.tokens.findIdx (fun token => !token.isKeywordOf c.modifiers) = before.length
  /-- The reader looks for the first token that reads like the keyword. -/
  found : record.tokens.findIdx (·.isKeywordOf c.keywords) = before.length
  flags : c ≠ .localVariable →
    (c.read record region).flags = c.flagsOf (before.map Token.text)
  name : c ≠ .localVariable → (c.read record region).heading.name = leadingIdentifier? behind
  localVariable : c = .localVariable → before = [] ∧
    (LocalVariable.ofLine record).isConstant = (dropKeyword "constant" behind).1 ∧
    (LocalVariable.ofLine record).shape =
      VariableShape.ofTokens (dropKeyword "constant" behind).2

theorem flags_of_splits (h : c.Splits record.tokens before keyword behind) (region : Region)
    (hlocal : c ≠ .localVariable) :
    (c.read record region).flags = c.flagsOf (before.map Token.text) := by
  cases c with
  | native => simp [read, flagsOf, Declaration.flags, Native.ofLine, Signature.ofTokens,
      h.wordsBefore_keyword rfl]
  | function => simp [read, flagsOf, Declaration.flags, Function.ofHeader, Signature.ofTokens,
      h.wordsBefore_keyword rfl]
  | method => simp [read, flagsOf, Declaration.flags, Method.ofHeader, Signature.ofTokens,
      h.wordsBefore_keyword rfl]
  | struct =>
    have htake := h.takeWhile_not_keyword
    simp only [keywords, Token.isKeywordOf_singleton] at htake
    simp [read, flagsOf, Declaration.flags, Struct.ofHeader, htake]
  | library => rfl
  | typeDeclaration => rfl
  | localVariable => exact absurd rfl hlocal

theorem name_of_splits (h : c.Splits record.tokens before keyword behind) (region : Region)
    (hlocal : c ≠ .localVariable) :
    (c.read record region).heading.name = leadingIdentifier? behind := by
  cases c with
  | native => exact h.wordBehind?_keyword rfl
  | function => exact h.wordBehind?_keyword rfl
  | method => exact h.wordBehind?_keyword rfl
  | struct => exact h.wordBehind?_keyword rfl
  | library =>
    have hafter := h.after?_keyword
    simp only [keywords] at hafter
    simp [read, Declaration.heading, Library.ofHeader, hafter]
  | typeDeclaration => exact h.wordBehind?_keyword rfl
  | localVariable => exact absurd rfl hlocal

/-- Nothing stands in front of the word `local`, and the variable is read off what stands behind. -/
theorem localVariable_of_splits
    (h : Splits .localVariable record.tokens before keyword behind) :
    before = [] ∧
    (LocalVariable.ofLine record).isConstant = (dropKeyword "constant" behind).1 ∧
    (LocalVariable.ofLine record).shape =
      VariableShape.ofTokens (dropKeyword "constant" behind).2 := by
  have hbefore : before = [] := List.eq_nil_iff_forall_not_mem.2 fun token htoken =>
    List.not_mem_nil (Token.isKeywordOf_iff.1 (h.modifiers token htoken)).2
  have hkeyword := h.keyword
  simp only [keywords, Token.isKeywordOf_singleton] at hkeyword
  simp [LocalVariable.ofLine, LocalVariable.shape, h.tokens_eq, hbefore, hkeyword]

theorem readsAt_of_splits (h : c.Splits record.tokens before keyword behind) (region : Region) :
    c.ReadsAt record region before keyword behind where
  toSplits := h
  decided := h.findIdx_not_modifier
  found := h.findIdx_keyword
  flags := flags_of_splits h region
  name := name_of_splits h region
  localVariable := by
    rintro rfl
    exact localVariable_of_splits h

end Construct

/-! ### Members -/

/-- A token that reads like a visibility is a word. -/
theorem Token.isIdentifier_of_ofWord? {line column : Nat} {text : List Char}
    (h : token ∈ tokenizeFrom line column text)
    (hword : (Visibility.ofWord? token.text).isSome = true) : token.isIdentifier = true := by
  fun_induction tokenizeFrom line column text with
  | case1 => cases h
  | case2 column c rest hblank ih => exact ih h
  | case3 column c rest hblank kind size hextent word stop ih =>
    rcases List.mem_cons.1 h with rfl | hlater
    · -- Both visibilities start with the same letter
      have hfirst : c = 'p' := by
        unfold Visibility.ofWord? at hword
        split at hword
        · next htext => simpa [word, String.ext_iff] using congrArg (·.toList.head?) htext
        · next htext => simpa [word, String.ext_iff] using congrArg (·.toList.head?) htext
        · cases hword
      rw [hfirst, extent_letter (.inl (by decide))] at hextent
      obtain rfl : TokenKind.identifier = kind := congrArg Prod.fst hextent
      rfl
    · exact ih hlater

/-- Words behind that stand for no visibility do not change it. -/
theorem Visibility.ofWords_append {more : List String} (h : ∀ word ∈ more, ofWord? word = none)
    (words : List String) : ofWords (words ++ more) = ofWords words := by
  have hmore : more.reverse.findSome? ofWord? = none :=
    List.findSome?_eq_none_iff.2 fun word hword => h word (List.mem_reverse.1 hword)
  rw [ofWords, List.reverse_append, List.findSome?_append, hmore, Option.none_or, ofWords]

/-- Words in front that stand for no binding do not change it. -/
theorem Binding.ofWords_append {words : List String}
    (h : ∀ word ∈ words, (Modifier.ofWord? word).bind Modifier.binding? = none)
    (more : List String) : ofWords (words ++ more) = ofWords more := by
  have hwords : (words.reverse.findSome? fun word =>
      (Modifier.ofWord? word).bind Modifier.binding?) = none :=
    List.findSome?_eq_none_iff.2 fun word hword => h word (List.mem_reverse.1 hword)
  rw [ofWords, List.reverse_append, List.findSome?_append, hwords, Option.or_none, ofWords]

/-- Test and reader take the same visibility from the front. -/
theorem exists_dropVisibility
    (h : ∀ token ∈ tokens, (Visibility.ofWord? token.text).isSome = true →
      token.isIdentifier = true) :
    ∃ front behind, tokens = front ++ behind ∧
      (∀ token ∈ front, token.isKeywordOf LineRole.visibilityWords = true) ∧
      dropOneKeyword LineRole.visibilityWords tokens = behind ∧
      dropVisibility tokens = (.ofWords (front.map Token.text), behind) := by
  cases tokens with
  | nil => exact ⟨[], [], rfl, by simp, rfl, rfl⟩
  | cons token rest =>
    cases hword : Visibility.ofWord? token.text with
    | none =>
      have hkeyword : token.isKeywordOf LineRole.visibilityWords = false := by
        refine Bool.eq_false_iff.2 fun hkeyword => ?_
        have hmem := (Token.isKeywordOf_iff.1 hkeyword).2
        simp only [LineRole.visibilityWords, List.mem_cons, List.not_mem_nil, or_false] at hmem
        rcases hmem with htext | htext <;> simp [htext, Visibility.ofWord?] at hword
      exact ⟨[], token :: rest, rfl, by simp, by simp [dropOneKeyword, hkeyword],
        by simp [dropVisibility, hword, Visibility.ofWords]⟩
    | some visibility =>
      have hkeyword : token.isKeywordOf LineRole.visibilityWords = true := by
        refine Token.isKeywordOf_iff.2 ⟨h token List.mem_cons_self (by simp [hword]), ?_⟩
        unfold Visibility.ofWord? at hword
        split at hword <;> simp_all [LineRole.visibilityWords]
      exact ⟨[token], rest, rfl, by simpa using hkeyword, by simp [dropOneKeyword, hkeyword],
        by simp [dropVisibility, hword, Visibility.ofWords]⟩

/-- Test and reader take the same binding from the front. -/
theorem Member.exists_dropBinding (tokens : List Token) :
    ∃ front behind, tokens = front ++ behind ∧
      (∀ token ∈ front, token.isKeywordOf ["static", "stub"] = true) ∧
      dropOneKeyword ["static", "stub"] tokens = behind ∧
      dropBinding tokens = (.ofWords (front.map Token.text), behind) := by
  cases tokens with
  | nil => exact ⟨[], [], rfl, by simp, rfl, rfl⟩
  | cons token rest =>
    by_cases hkeyword : token.isKeywordOf ["static", "stub"] = true
    · refine ⟨[token], rest, rfl, by simpa using hkeyword, by simp [dropOneKeyword, hkeyword], ?_⟩
      obtain ⟨hidentifier, hmem⟩ := Token.isKeywordOf_iff.1 hkeyword
      simp only [List.mem_cons, List.not_mem_nil, or_false] at hmem
      have hkind : token.kind = .identifier := by simpa [isIdentifier] using hidentifier
      rcases hmem with htext | htext <;>
        simp [dropBinding, isKeyword, hkind, htext, Binding.ofWords, Modifier.ofWord?,
          Modifier.binding?]
    · have hstatic : token.isKeyword "static" = false ∧ token.isKeyword "stub" = false := by
        simp only [isKeywordOf, List.contains_iff_mem, Bool.and_eq_true] at hkeyword
        simp only [isKeyword]
        grind
      exact ⟨[], token :: rest, rfl, by simp, by simp [dropOneKeyword, hkeyword],
        by simp [dropBinding, hstatic, Binding.ofWords]⟩

/-- The test for members and their reader part the line at the same place, and the reader takes the
visibility and the binding from what the test passes over. -/
structure Member.Splits (record : SourceLine) (front behind : List Token) : Prop where
  tokens_eq : record.tokens = front ++ behind
  words : ∀ token ∈ front, token.isKeywordOf (LineRole.visibilityWords ++ ["static", "stub"]) = true
  tested : dropOneKeyword ["static", "stub"]
    (dropOneKeyword LineRole.visibilityWords record.tokens) = behind
  read : (dropBinding (dropVisibility record.tokens).2).2 = behind
  visibility : (Member.ofLine record).visibility = .ofWords (front.map Token.text)
  binding : (Member.ofLine record).binding = .ofWords (front.map Token.text)

theorem Member.visibility_ofLine (record : SourceLine) :
    (Member.ofLine record).visibility = (dropVisibility record.tokens).1 := by
  unfold ofLine
  dsimp only
  split <;> rfl

theorem Member.binding_ofLine (record : SourceLine) :
    (Member.ofLine record).binding = (dropBinding (dropVisibility record.tokens).2).1 := by
  unfold ofLine
  dsimp only
  split <;> rfl

/-- What holds of all words of a class holds of the texts of tokens that are such words. -/
theorem Token.forall_mem_texts {words : List String} {P : String → Prop}
    (h : ∀ token ∈ tokens, token.isKeywordOf words = true) (hP : ∀ word ∈ words, P word) :
    ∀ word ∈ tokens.map Token.text, P word :=
  List.forall_mem_map.2 fun token htoken =>
    hP token.text (Token.isKeywordOf_iff.1 (h token htoken)).2

/-- Every line is parted in the same way by the test for members and by their reader. -/
theorem Member.exists_splits (record : SourceLine) :
    ∃ front behind, Member.Splits record front behind := by
  obtain ⟨visible, rest, htokens, hvisible, htested, hread⟩ :=
    @exists_dropVisibility record.tokens fun token htoken =>
      Token.isIdentifier_of_ofWord? htoken
  obtain ⟨bound, behind, rfl, hbound, htested', hread'⟩ := exists_dropBinding rest
  -- Neither part has words that mean something to the other
  have hmute : ∀ word ∈ bound.map Token.text, Visibility.ofWord? word = none :=
    Token.forall_mem_texts hbound (by decide)
  have hmute' : ∀ word ∈ visible.map Token.text,
      (Modifier.ofWord? word).bind Modifier.binding? = none :=
    Token.forall_mem_texts hvisible (by decide)
  refine ⟨visible ++ bound, behind, by rw [htokens, List.append_assoc], ?_, ?_, ?_, ?_, ?_⟩
  · refine List.forall_mem_append.2 ⟨fun token htoken => ?_, fun token htoken => ?_⟩
    · obtain ⟨hidentifier, hmem⟩ := Token.isKeywordOf_iff.1 (hvisible token htoken)
      exact Token.isKeywordOf_iff.2 ⟨hidentifier, List.mem_append_left _ hmem⟩
    · obtain ⟨hidentifier, hmem⟩ := Token.isKeywordOf_iff.1 (hbound token htoken)
      exact Token.isKeywordOf_iff.2 ⟨hidentifier, List.mem_append_right _ hmem⟩
  · rw [htested, htested']
  · rw [hread, hread']
  · rw [Member.visibility_ofLine, hread, List.map_append, Visibility.ofWords_append hmute]
  · rw [Member.binding_ofLine, hread, hread', List.map_append, Binding.ofWords_append hmute']

/-! ### All lines -/

/-- On a line with the role of a construct, role and reader find the keyword at the same token, all
tokens in front of it are modifiers that the role allows, and the flags come from these words and
the name from the token behind the keyword; only the flag and the name of a local variable come from
further tokens behind it. On every line, the reader of members takes the visibility and the binding
that the test for members passes over, and no more. -/
theorem role_agrees_with_readers (record : SourceLine) (region : Region) :
    (∀ c : Construct, LineRole.ofLine record = c.role →
      ∃ before keyword behind, c.ReadsAt record region before keyword behind) ∧
    ∃ front behind, Member.Splits record front behind := by
  refine ⟨fun c hrole => ?_, Member.exists_splits record⟩
  obtain ⟨before, keyword, behind, hsplits⟩ := Construct.exists_splits hrole
  exact ⟨before, keyword, behind, Construct.readsAt_of_splits hsplits region⟩

/-- A line with the words of several constructs. -/
def crowdedLine : SourceLine :=
  .ofChars "public constant method function takes native library returns local".toList 0 0

theorem role_agrees_with_readers_crowdedLine :
    LineRole.ofLine crowdedLine = Construct.method.role ∧
    (∃ before keyword behind,
      Construct.method.ReadsAt crowdedLine crowdedLine.region before keyword behind) ∧
    (Method.ofHeader crowdedLine crowdedLine.region).visibility = .exported ∧
    (Method.ofHeader crowdedLine crowdedLine.region).name = some "function" := by
  have hrole : LineRole.ofLine crowdedLine = Construct.method.role := by decide +kernel
  exact ⟨hrole, (role_agrees_with_readers crowdedLine _).1 .method hrole, by decide +kernel,
    by decide +kernel⟩

/-- A line that declares a constant local variable. -/
def constantLocalLine : SourceLine :=
  .ofChars "local constant integer x".toList 0 0

/-- Nothing stands in front of the word `local`, and the variable is constant all the same. Its name
is not the word directly behind the keyword. -/
theorem flag_behind_local :
    LineRole.ofLine constantLocalLine = Construct.localVariable.role ∧
    (LocalVariable.ofLine constantLocalLine).isConstant = true ∧
    (LocalVariable.ofLine constantLocalLine).name = some "x" ∧
    ∀ before keyword behind,
      Construct.localVariable.Splits constantLocalLine.tokens before keyword behind →
        (before.map Token.text).contains "constant" = false ∧
        leadingIdentifier? behind = some "constant" := by
  refine ⟨by decide +kernel, by decide +kernel, by decide +kernel, ?_⟩
  intro before keyword behind h
  obtain ⟨rfl, -⟩ := Construct.localVariable_of_splits h
  have htail : behind = constantLocalLine.tokens.tail := by rw [h.tokens_eq]; rfl
  refine ⟨rfl, ?_⟩
  rw [htail]
  decide +kernel

end JassOutline
