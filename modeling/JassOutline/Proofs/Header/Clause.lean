import JassOutline.Proofs.Declaration.Trailing
import JassOutline.Proofs.Header.Keyword

/-!
# Clauses behind a keyword

Behind the keyword of a declaration stand its name and its clauses, each with a keyword of its own.
The clauses are looked for in the whole line, so that they are read alike with and without a name.
The name is the word directly behind the keyword, whatever it is: on a line without a name it is the
keyword of the first clause.

## Key results

- `Construct.Names.bare_read`: a name behind the keyword changes nothing but the name
- `Construct.declaredAt_node`: what is read is declared
- `Construct.readsClauses_of_splits`: the name and the clauses of a line
-/

namespace JassOutline

open Token

/-! ### Declarations and their headers -/

namespace Declaration

/-- The declaration without places. -/
def bare : Declaration → Declaration
  | .native d => .native d.bare
  | .type d => .type d.bare
  | .global d => .global d.bare
  | .function d => .function d.bare
  | .struct d => .struct d.bare
  | .library d => .library d.bare
  | .member d => .member d.bare
  | .method d => .method d.bare
  | .localVariable d => .localVariable d.bare

/-- The declaration with another name. -/
def withName (name : Option String) : Declaration → Declaration
  | .native d => .native { d with name }
  | .type d => .type { d with name }
  | .global d => .global { d with name }
  | .function d => .function { d with name }
  | .struct d => .struct { d with name }
  | .library d => .library { d with name }
  | .member d => .member { d with name }
  | .method d => .method { d with name }
  | .localVariable d => .localVariable { d with name }

/-- The declaration without the comments above it and without what it holds. -/
def header : Declaration → Declaration
  | .native d => .native { d with comments := [] }
  | .type d => .type { d with comments := [] }
  | .global d => .global { d with comments := [] }
  | .function d => .function { d with comments := [], locals := [], globals := [] }
  | .struct d => .struct { d with comments := [], members := [], methods := [] }
  | .library d => .library { d with comments := [], globals := [], functions := [], structs := [] }
  | .member d => .member { d with comments := [] }
  | .method d => .method { d with comments := [], locals := [], globals := [] }
  | .localVariable d => .localVariable { d with comments := [] }

end Declaration

namespace Construct

/-- The words that open a list of requirements. -/
def requirementWords : List String := ["requires", "needs", "uses"]

/-- The words that open the clauses behind the name. -/
def clauseWords : Construct → List String
  | native | function | method => ["takes", "returns"]
  | struct | typeDeclaration => ["extends"]
  | library => "initializer" :: requirementWords
  | localVariable => []

/-- The node that a line of the construct makes: it stands alone, or it opens a block. -/
def node (record : SourceLine) (region : Region) (isClosed : Bool) (children : List Node) :
    Construct → Node
  | native | typeDeclaration | localVariable => .line record
  | function => .block .function region isClosed (.line record :: children)
  | method => .block .method region isClosed (.line record :: children)
  | struct => .block .struct region isClosed (.line record :: children)
  | library => .block .library region isClosed (.line record :: children)

/-- The scopes in which the construct is declared. -/
def scopes : Construct → List Scope
  | native | typeDeclaration | library => [.program]
  | function | struct => [.program, .library]
  | method => [.struct]
  | localVariable => [.body]

end Construct

/-! ### What stands in front of the clauses -/

variable {tokens tokens' front before before' behind behind' : List Token}
  {keyword keyword' inserted token : Token} {c : Construct} {record named : SourceLine}
  {name word : String} {words others : List String} {region region' : Region}

theorem Token.isKeywordOf_of_disjoint (h : token.isKeywordOf words = true)
    (hothers : ∀ word ∈ others, word ∉ words) : token.isKeywordOf others = false :=
  Bool.eq_false_iff.2 fun hkeyword =>
    hothers token.text (Token.isKeywordOf_iff.1 hkeyword).2 (Token.isKeywordOf_iff.1 h).2

theorem Token.isKeywordOf_mono (h : token.isKeywordOf words = false)
    (hothers : ∀ word ∈ others, word ∈ words) : token.isKeywordOf others = false :=
  Bool.eq_false_iff.2 fun hkeyword => by
    obtain ⟨hidentifier, hmem⟩ := Token.isKeywordOf_iff.1 hkeyword
    rw [Token.isKeywordOf_iff.2 ⟨hidentifier, hothers token.text hmem⟩] at h
    cases h

/-- A clause is read the same behind tokens that do not open it. -/
theorem Signature.wordBehind?_append (h : ∀ token ∈ front, token.isKeyword word = false)
    (rest : List Token) : wordBehind? word (front ++ rest) = wordBehind? word rest := by
  rw [wordBehind?, after?_append h, wordBehind?]

/-- The parameters are read the same behind tokens that open neither them nor the result. -/
theorem Signature.parameterTokens_append
    (htakes : ∀ token ∈ front, token.isKeyword "takes" = false)
    (hreturns : ∀ token ∈ front, token.isKeyword "returns" = false) (rest : List Token) :
    parameterTokens (front ++ rest) = parameterTokens rest := by
  have hpassed : ∀ token ∈ front, (!token.isKeyword "takes") = true := fun token htoken => by
    rw [htakes token htoken, Bool.not_false]
  have hfront : front.any (·.isKeyword "returns") = false :=
    List.any_eq_false.2 fun token htoken => by simp [hreturns token htoken]
  rw [parameterTokens, after?_append htakes, List.takeWhile_append_of_pos hpassed,
    List.any_append, hfront, Bool.false_or, parameterTokens]

/-- The two token lists say the same behind fronts that hold none of the words. -/
def AgreeBehind (words : List String) (tokens tokens' : List Token) : Prop :=
  ∃ front front' rest rest', tokens = front ++ rest ∧ tokens' = front' ++ rest' ∧
    (∀ token ∈ front ++ front', token.isKeywordOf words = false) ∧ TrimsTo rest rest'

namespace AgreeBehind

theorem mono (h : AgreeBehind words tokens tokens') (hothers : ∀ word ∈ others, word ∈ words) :
    AgreeBehind others tokens tokens' := by
  obtain ⟨front, front', rest, rest', htokens, htokens', hfronts, htrims⟩ := h
  exact ⟨front, front', rest, rest', htokens, htokens',
    fun token htoken => Token.isKeywordOf_mono (hfronts token htoken) hothers, htrims⟩

/-- The words behind a keyword are the same. -/
theorem wordBehind?_eq (h : AgreeBehind words tokens tokens') (word : String)
    (hword : word ∈ words) :
    Signature.wordBehind? word tokens' = Signature.wordBehind? word tokens := by
  obtain ⟨front, front', rest, rest', rfl, rfl, hfronts, htrims⟩ :=
    h.mono (List.forall_mem_singleton.2 hword)
  simp only [Token.isKeywordOf_singleton, List.forall_mem_append] at hfronts
  rw [Signature.wordBehind?_append hfronts.1, Signature.wordBehind?_append hfronts.2,
    Signature.wordBehind?_trimsTo htrims]

/-- The names of a list are the same behind a keyword. -/
theorem listedNames_eq (h : AgreeBehind words tokens tokens') (others : List String)
    (hothers : ∀ word ∈ others, word ∈ words) :
    listedNames true ((after? (·.isKeywordOf others) tokens').getD []) =
      listedNames true ((after? (·.isKeywordOf others) tokens).getD []) := by
  obtain ⟨front, front', rest, rest', rfl, rfl, hfronts, htrims⟩ := h.mono hothers
  rw [List.forall_mem_append] at hfronts
  rw [after?_append hfronts.1, after?_append hfronts.2,
    listedNames_after?_trimsTo htrims (isCodeTest_isKeywordOf others)]

/-- The parameters are the same up to their places. -/
theorem bare_parameters (h : AgreeBehind ["takes", "returns"] tokens tokens') :
    (Parameter.listFrom (Signature.parameterTokens tokens')).map Parameter.bare =
      (Parameter.listFrom (Signature.parameterTokens tokens)).map Parameter.bare := by
  obtain ⟨front, front', rest, rest', rfl, rfl, hfronts, htrims⟩ := h
  have htakes : ∀ token ∈ front ++ front', token.isKeyword "takes" = false := fun token htoken => by
    rw [← Token.isKeywordOf_singleton]
    exact Token.isKeywordOf_mono (hfronts token htoken) (by decide)
  have hreturns : ∀ token ∈ front ++ front', token.isKeyword "returns" = false :=
    fun token htoken => by
      rw [← Token.isKeywordOf_singleton]
      exact Token.isKeywordOf_mono (hfronts token htoken) (by decide)
  rw [List.forall_mem_append] at htakes hreturns
  rw [Signature.parameterTokens_append htakes.1 hreturns.1,
    Signature.parameterTokens_append htakes.2 hreturns.2]
  exact (Parameter.bare_list_trimsTo (Signature.parameterTokens_trimsTo htrims)).1

end AgreeBehind

/-! ### A name behind the keyword -/

/-- Tokens with the same labels say the same. -/
theorem Token.trimsTo_of_labels (h : tokens'.map label = tokens.map label) :
    TrimsTo tokens tokens' := by
  induction tokens generalizing tokens' with
  | nil =>
    obtain rfl : tokens' = [] := by simpa using h
    exact .nil
  | cons token rest ih =>
    obtain ⟨token', rest', rfl, hlabel, hrest⟩ := labels_eq_cons.1 h
    exact .cons hlabel (ih hrest)

namespace Construct

/-- Neither modifiers nor keywords open a clause. -/
theorem Splits.not_clauseWord (h : c.Splits tokens before keyword behind) :
    ∀ token ∈ before ++ [keyword], token.isKeywordOf c.clauseWords = false := by
  have hapart : ∀ word ∈ c.clauseWords, word ∉ c.modifiers ∧ word ∉ c.keywords := by
    cases c <;> decide
  refine List.forall_mem_append.2 ⟨fun token htoken => ?_, List.forall_mem_singleton.2 ?_⟩
  · exact Token.isKeywordOf_of_disjoint (h.modifiers token htoken) fun word hword =>
      (hapart word hword).1
  · exact Token.isKeywordOf_of_disjoint h.keyword fun word hword => (hapart word hword).2

/-- The second token list is parted at the keyword as the first one is, a name follows the keyword
there, and behind it the two say the same. -/
structure Names (c : Construct) (name : String) (tokens tokens' before before' : List Token)
    (keyword keyword' inserted : Token) (behind behind' : List Token) : Prop where
  splits : c.Splits tokens before keyword behind
  splits' : c.Splits tokens' before' keyword' (inserted :: behind')
  texts_eq : before'.map Token.text = before.map Token.text
  label_eq : inserted.label = .word name
  trimsTo : TrimsTo behind behind'

theorem Splits.exists_names (h : c.Splits tokens before keyword behind)
    (hnamed : tokens'.map label =
      before.map label ++ keyword.label :: .word name :: behind.map label) :
    ∃ before' keyword' inserted behind',
      c.Names name tokens tokens' before before' keyword keyword' inserted behind behind' := by
  obtain ⟨before', rest, rfl, hbefore, hrest⟩ := labels_eq_append.1 hnamed
  obtain ⟨keyword', rest, rfl, hkeyword, hrest⟩ := labels_eq_cons.1 hrest
  obtain ⟨inserted, behind', rfl, hinserted, hbehind⟩ := labels_eq_cons.1 hrest
  -- Whether a token is one of several words depends on its label
  have hwords : ∀ {token token' : Token} (words : List String), token'.label = token.label →
      token'.isKeywordOf words = token.isKeywordOf words := fun words hlabel =>
    (isCodeTest_isKeywordOf words).label hlabel
  refine ⟨before', keyword', inserted, behind', h, ⟨rfl, ?_, ?_⟩, ?_, hinserted,
    trimsTo_of_labels hbehind⟩
  · intro token' htoken'
    obtain ⟨token, htoken, hlabel⟩ := List.mem_map.1 (label_mem hbefore htoken')
    rw [hwords c.modifiers hlabel.symm]
    exact h.modifiers token htoken
  · rw [hwords c.keywords hkeyword]
    exact h.keyword
  · have htexts := congrArg (List.map Label.text) hbefore
    simpa [Function.comp_def, label] using htexts

namespace Names

variable (h : c.Names name tokens tokens' before before' keyword keyword' inserted behind behind')
include h

/-- No clause opens in front of what the two token lists have in common. -/
theorem agreeBehind (hname : name ∉ c.clauseWords) : AgreeBehind c.clauseWords tokens tokens' := by
  have hinserted : inserted.isKeywordOf c.clauseWords = false := by
    rw [isKeywordOf_of_word h.label_eq]
    simpa using hname
  exact ⟨before ++ [keyword], before' ++ [keyword'] ++ [inserted], behind, behind',
    by simp [h.splits.tokens_eq], by simp [h.splits'.tokens_eq],
    List.forall_mem_append.2 ⟨h.splits.not_clauseWord, List.forall_mem_append.2
      ⟨h.splits'.not_clauseWord, List.forall_mem_singleton.2 hinserted⟩⟩, h.trimsTo⟩

theorem leadingIdentifier?_eq : leadingIdentifier? (inserted :: behind') = some name := by
  rw [leadingIdentifier?, isIdentifier_of_word h.label_eq, if_pos rfl, text_of_word h.label_eq]

/-- A name changes nothing of a signature but the name. -/
theorem bare_signature (hkeywords : c.keywords = [word])
    (hwords : c.clauseWords = ["takes", "returns"]) (hname : name ∉ c.clauseWords) :
    (Signature.ofTokens word tokens').bare =
      { Signature.ofTokens word tokens with name := some name }.bare := by
  have hagree := h.agreeBehind hname
  rw [hwords] at hagree
  rw [Signature.ofTokens, Signature.ofTokens, Signature.bare, Signature.bare,
    h.splits'.wordBehind?_keyword hkeywords, h.leadingIdentifier?_eq, hagree.bare_parameters,
    hagree.wordBehind?_eq "returns" (by simp), h.splits'.wordsBefore_keyword hkeywords,
    h.splits.wordsBefore_keyword hkeywords, h.texts_eq]

end Names

/-- A name behind the keyword changes nothing of what is read but the name. -/
theorem Names.bare_read
    (h : c.Names name record.tokens named.tokens before before' keyword keyword' inserted behind
      behind') (hlocal : c ≠ .localVariable) (hname : name ∉ c.clauseWords) :
    (c.read named region').bare = ((c.read record region).withName (some name)).bare := by
  -- Clauses are looked for behind the same keywords, and the name is read on its own
  have hagree := h.agreeBehind hname
  cases c with
  | native =>
    have hsignature := h.bare_signature rfl rfl hname
    simp only [Signature.bare, Signature.mk.injEq] at hsignature
    simp [read, Declaration.bare, Declaration.withName, Native.ofLine, Native.bare, Heading.bare,
      hsignature]
  | function =>
    have hsignature := h.bare_signature rfl rfl hname
    simp only [Signature.bare, Signature.mk.injEq] at hsignature
    simp [read, Declaration.bare, Declaration.withName, Function.ofHeader, Function.bare,
      Heading.bare, hsignature]
  | method =>
    have hsignature := h.bare_signature rfl rfl hname
    simp only [Signature.bare, Signature.mk.injEq] at hsignature
    simp [read, Declaration.bare, Declaration.withName, Method.ofHeader, Method.bare,
      Heading.bare, hsignature]
  | struct =>
    have hwords := h.splits.takeWhile_not_keyword
    have hwords' := h.splits'.takeWhile_not_keyword
    have hparents := hagree.listedNames_eq ["extends"] (by decide)
    simp only [keywords, Token.isKeywordOf_singleton] at hwords hwords' hparents
    simp only [read, Declaration.bare, Declaration.withName, Struct.ofHeader, Struct.ofRegion,
      Struct.bare, Heading.bare, h.splits'.wordBehind?_keyword rfl, h.leadingIdentifier?_eq,
      hwords, hwords', h.texts_eq, hparents]
  | library =>
    have hafter := h.splits.after?_keyword
    have hafter' := h.splits'.after?_keyword
    have hrequirements := hagree.listedNames_eq requirementWords (by decide)
    simp only [keywords] at hafter hafter'
    rw [requirementWords] at hrequirements
    simp only [read, Declaration.bare, Declaration.withName, Library.ofHeader, Library.ofRegion,
      Library.bare, Heading.bare, hafter, hafter', h.leadingIdentifier?_eq,
      hagree.wordBehind?_eq "initializer" (by decide), hrequirements]
  | typeDeclaration =>
    simp only [read, Declaration.bare, Declaration.withName, TypeDeclaration.ofLine,
      TypeDeclaration.bare, Heading.bare, h.splits'.wordBehind?_keyword rfl,
      h.leadingIdentifier?_eq, hagree.wordBehind?_eq "extends" (by decide)]
  | localVariable => exact absurd rfl hlocal

/-! ### The declaration -/

/-- What is read off a library has no comments and holds nothing. -/
theorem header_library (record : SourceLine) (region : Region) (comments : List CommentLine)
    (inner : Declarations) :
    (Declaration.library { Library.ofHeader record region with
      comments, globals := inner.globals, functions := inner.functions
      structs := inner.structs }).header = library.read record region := by
  rw [read, Library.ofHeader]
  split <;> rfl

/-- The line of a construct is declared in every scope of the construct, alone or as the header of a
block, closed or not. -/
theorem declaredAt_node (h : LineRole.ofLine record = c.role) {scope : Scope}
    (hscope : scope ∈ c.scopes) (comments : List CommentLine) (isClosed : Bool)
    (children : List Node) :
    ∃ declaration,
      Declaration.declaredAt scope ⟨comments, c.node record region isClosed children⟩ =
        [declaration] ∧
      declaration.header = c.read record region := by
  have hadmits : ∀ scope ∈ [Scope.program, .library],
      scope.admits .function = true ∧ scope.admits .struct = true := by decide
  -- Lines are declared by their role, and blocks by their kind
  cases c with
  | native | typeDeclaration =>
    obtain rfl := List.mem_singleton.1 hscope
    refine ⟨_, if_pos (by simp [Scope.admitsLine, h, role]), ?_⟩
    simp [Declaration.ofLine, h, role, Declaration.header, read, Native.ofLine,
      TypeDeclaration.ofLine]
  | localVariable =>
    obtain rfl := List.mem_singleton.1 hscope
    refine ⟨_, if_pos (by simp [Scope.admitsLine, h, role]), ?_⟩
    rw [Declaration.ofLine, read, LocalVariable.ofLine]
    split <;> rfl
  | function => exact ⟨_, if_pos (hadmits scope hscope).1, rfl⟩
  | struct => exact ⟨_, if_pos (hadmits scope hscope).2, rfl⟩
  | method =>
    obtain rfl := List.mem_singleton.1 hscope
    exact ⟨_, rfl, rfl⟩
  | library =>
    obtain rfl := List.mem_singleton.1 hscope
    exact ⟨_, rfl, header_library record region comments _⟩

/-! ### All headers -/

/-- The function that sets up a library is the word directly behind the first `initializer`. -/
theorem setUp_eq (h : Splits .library record.tokens before keyword behind) (region : Region)
    {rest : List Token} (htokens : record.tokens = front ++ token :: rest)
    (hinitializer : token.isKeyword "initializer" = true)
    (hfront : ∀ token ∈ front, token.isKeyword "initializer" = false) :
    (Library.ofHeader record region).setUp = leadingIdentifier? rest := by
  have hafter := h.after?_keyword
  have hsetUp : Signature.wordBehind? "initializer" record.tokens = leadingIdentifier? rest := by
    rw [htokens, Signature.wordBehind?_append hfront, Signature.wordBehind?, after?, hinitializer,
      if_pos rfl, Option.bind_some]
  simp only [keywords] at hafter
  simp only [Library.ofHeader, hafter, hsetUp]

/-- The requirements of a library are listed behind the first word that opens them. -/
theorem requirements_eq (h : Splits .library record.tokens before keyword behind) (region : Region)
    {rest : List Token} (htokens : record.tokens = front ++ token :: rest)
    (hrequirement : token.isKeywordOf requirementWords = true)
    (hfront : ∀ token ∈ front, token.isKeywordOf requirementWords = false) :
    (Library.ofHeader record region).requirements = listedNames true rest := by
  have hafter := h.after?_keyword
  have hlist : after? (·.isKeywordOf requirementWords) record.tokens = some rest := by
    rw [htokens, after?_append hfront, after?, hrequirement, if_pos rfl]
  simp only [keywords] at hafter
  rw [requirementWords] at hlist
  simp only [Library.ofHeader, hafter, hlist, Option.getD_some]

/-- The name and the clauses of a line that is parted at the keyword. -/
structure ReadsClauses (c : Construct) (record : SourceLine) (region : Region)
    (before : List Token) (opening : Token) (behind : List Token) : Prop extends
    Splits c record.tokens before opening behind where
  /-- The name is the word directly behind the keyword. -/
  name : (c.read record region).heading.name = leadingIdentifier? behind
  /-- A clause that stands there gives its keyword for the name. -/
  name_of_clause : ∀ clause rest, behind = clause :: rest →
    clause.isKeywordOf c.clauseWords = true →
      (c.read record region).heading.name = some clause.text
  /-- A name in front of the clauses changes nothing of what they say. -/
  bare_named : ∀ named region' name,
    named.tokens.map label = before.map label ++ opening.label :: .word name :: behind.map label →
    name ∉ c.clauseWords →
      (c.read named region').bare = ((c.read record region).withName (some name)).bare
  /-- What is read is declared wherever the construct may stand. -/
  declared : ∀ scope ∈ c.scopes, ∀ comments isClosed children, ∃ declaration,
    Declaration.declaredAt scope ⟨comments, c.node record region isClosed children⟩ =
      [declaration] ∧
    declaration.header = c.read record region
  /-- A requirement directly behind `initializer` gives its keyword for the function that sets up
  the library, and is a requirement all the same. -/
  library : c = .library → ∀ front initializer requirement rest,
    record.tokens = front ++ initializer :: requirement :: rest →
    initializer.isKeyword "initializer" = true →
    (∀ token ∈ front, token.isKeyword "initializer" = false) →
    requirement.isKeywordOf requirementWords = true →
      (Library.ofHeader record region).setUp = some requirement.text ∧
      ((∀ token ∈ front, token.isKeywordOf requirementWords = false) →
        (Library.ofHeader record region).requirements = listedNames true rest)

theorem leadingIdentifier?_of_keyword (h : token.isKeywordOf words = true) (rest : List Token) :
    leadingIdentifier? (token :: rest) = some token.text := by
  rw [leadingIdentifier?, (Token.isKeywordOf_iff.1 h).1, if_pos rfl]

theorem readsClauses_of_splits (h : c.Splits record.tokens before keyword behind)
    (hrole : LineRole.ofLine record = c.role) (hlocal : c ≠ .localVariable) (region : Region) :
    c.ReadsClauses record region before keyword behind where
  toSplits := h
  name := name_of_splits h region hlocal
  name_of_clause := by
    -- The word that opens the clause is no name
    rintro clause rest rfl hclause
    rw [name_of_splits h region hlocal, leadingIdentifier?_of_keyword hclause]
  bare_named := by
    intro named region' name hnamed hname
    obtain ⟨before', keyword', inserted, behind', hnames⟩ := h.exists_names hnamed
    exact hnames.bare_read hlocal hname
  declared := fun scope hscope comments isClosed children =>
    declaredAt_node hrole hscope comments isClosed children
  library := by
    rintro rfl front initializer requirement rest htokens hinitializer hfront hrequirement
    refine ⟨?_, fun hnone => ?_⟩
    · rw [setUp_eq h region htokens hinitializer hfront,
        leadingIdentifier?_of_keyword hrequirement]
    · -- The word `initializer` opens no requirements either
      have hapart : initializer.isKeywordOf requirementWords = false := by
        rw [← Token.isKeywordOf_singleton] at hinitializer
        exact Token.isKeywordOf_of_disjoint hinitializer (by decide)
      have htokens' : record.tokens = front ++ [initializer] ++ requirement :: rest := by
        simpa using htokens
      exact requirements_eq h region htokens' hrequirement
        (List.forall_mem_append.2 ⟨hnone, List.forall_mem_singleton.2 hapart⟩)

/-- On every line with the role of a construct other than a local variable the name is the word
directly behind the keyword. The declaration is made with and without a name, and its clauses are
read the same. Where a clause follows directly, its keyword is taken for the name, and where a
requirement follows the word `initializer` directly, its keyword is taken for the function that sets
up the library. -/
theorem name_isWordBehind (c : Construct) (record : SourceLine) (region : Region)
    (hrole : LineRole.ofLine record = c.role) (hlocal : c ≠ .localVariable) :
    ∃ before keyword behind, c.ReadsClauses record region before keyword behind := by
  obtain ⟨before, keyword, behind, hsplits⟩ := exists_splits hrole
  exact ⟨before, keyword, behind, readsClauses_of_splits hsplits hrole hlocal region⟩

/-- A header without a name. -/
def namelessLine : SourceLine :=
  .ofChars "constant function takes integer a returns nothing".toList 0 0

/-- The same header with a name. -/
def namedLine : SourceLine :=
  .ofChars "constant function f takes integer a returns nothing".toList 0 0

theorem name_isWordBehind_namelessLine :
    LineRole.ofLine namelessLine = Construct.function.role ∧ Construct.function ≠ .localVariable ∧
    (Function.ofHeader namelessLine namelessLine.region).name = some "takes" ∧
    (Function.ofHeader namelessLine namelessLine.region).parameters.map Parameter.display =
      ["integer a"] ∧
    (Function.ofHeader namedLine namedLine.region).bare =
      { Function.ofHeader namelessLine namelessLine.region with name := some "f" }.bare := by
  have hrole : LineRole.ofLine namelessLine = Construct.function.role := by decide +kernel
  obtain ⟨before, keyword, behind, h⟩ :=
    name_isWordBehind .function namelessLine namelessLine.region hrole (by decide)
  -- The words of the line, and where it is parted
  have hlabels : namelessLine.tokens.map label =
      ["constant", "function", "takes", "integer", "a", "returns", "nothing"].map .word := by
    decide +kernel
  have hlength : before.length = 1 := by
    rw [← h.findIdx_keyword]
    decide +kernel
  obtain ⟨modifier, rfl⟩ := List.length_eq_one_iff.1 hlength
  rw [h.tokens_eq] at hlabels
  simp only [List.map_cons, List.map_nil, List.singleton_append, List.cons.injEq] at hlabels
  obtain ⟨hmodifier, hkeyword, hbehind⟩ := hlabels
  have hnamed : namedLine.tokens.map label =
      [modifier].map label ++ keyword.label :: .word "f" :: behind.map label := by
    rw [List.map_singleton, hmodifier, hkeyword, hbehind]
    decide +kernel
  have hbare := h.bare_named namedLine namedLine.region "f" hnamed (by decide)
  simp only [read, Declaration.bare, Declaration.withName, Declaration.function.injEq] at hbare
  obtain ⟨clause, rest, rfl, hclause, -⟩ := labels_eq_cons.1 hbehind
  have hname := h.name_of_clause clause rest rfl (by rw [isKeywordOf_of_word hclause]; decide)
  rw [text_of_word hclause] at hname
  exact ⟨hrole, by decide, hname, by decide +kernel, hbare⟩

/-- A header of which only the name is missing. -/
def unnamedLine : SourceLine :=
  .ofChars "function takes nothing returns nothing".toList 0 0

/-- A library of which only the function that sets it up is missing. -/
def uninitializedLine : SourceLine :=
  .ofChars "library L initializer requires A".toList 0 0

/-- The keywords of the clauses are taken for the names that are missing. -/
theorem clause_taken_for_name :
    LineRole.ofLine unnamedLine = Construct.function.role ∧
    (unnamedLine.tokens.map Token.text).take 2 = ["function", "takes"] ∧
    (Function.ofHeader unnamedLine unnamedLine.region).name = some "takes" ∧
    LineRole.ofLine uninitializedLine = Construct.library.role ∧
    (uninitializedLine.tokens.map Token.text).drop 2 = ["initializer", "requires", "A"] ∧
    (Library.ofHeader uninitializedLine uninitializedLine.region).setUp = some "requires" := by
  decide +kernel

end Construct

end JassOutline
