import JassOutline.Proofs.Declaration.Attachment
import JassOutline.Proofs.Zinc.Uncommented

/-!
# How lexemes declare

A declaration starts at the start of the lexemes or behind a semicolon or a brace. First there are
words that modify it, then its anchor: the keyword of a container, the type of variables, the first
word of a local variable. A container goes on up to what closes it, and declares what is declared
inside of it. Everything else is idle.

`Declares` says this of lexemes and declarations. Whatever the grammar reads is declared so, with
one lemma for each reader, and then the relation tells where comments and regions come from, without
another look at the grammar.

## Key results

- `Declares.anywhere`: a closing brace may stand in the middle of something that was given up
- `Reads.of_idle`: what is read over declares nothing
-/

namespace JassOutline.Zinc

/-! ### Declarations among lexemes -/

/-- The words that may stand in front of the anchor of a declaration. -/
def modifierWords : List String := ["public", "private", "static", "stub", "constant"]

/-- Whether the lexemes end an item or a statement, or open braces: something may be declared
behind them. -/
def endsItems (lexemes : List Lexeme) : Bool :=
  lexemes.getLast?.any (·.token.isOperatorOf [";", "\x7b", "\x7d"])

/-- The comments directly before the lexemes. -/
def commentsBefore : List Lexeme → List CommentLine
  | [] => []
  | first :: _ => first.comments

/-- The parameter is a type and the name behind it. -/
def IsParameter (lexemes : List Lexeme) (parameter : Parameter) : Prop :=
  ∃ type name, [type, name] <:+: lexemes ∧
    parameter.region = ⟨type.token.start, name.token.stop⟩

/-- The headings belong to the modifiers and the anchor behind them. The first one takes the
comments before all of these. -/
structure Starts (words : List Lexeme) (anchor : Lexeme) (headings : List Heading) : Prop where
  modifiers : ∀ word ∈ words, word.token.text ∈ modifierWords
  isIdentifier : anchor.token.isIdentifier = true
  start_eq : ∀ heading ∈ headings, heading.region.start = anchor.token.start
  comments : ∃ first others, headings = first :: others ∧
    first.comments = commentsBefore (words ++ [anchor]) ∧ ∀ other ∈ others, other.comments = []

/-- Variables with the given headings. -/
inductive Variables : List Heading → Declarations → Prop where
  | globals (globals : List GlobalVariable) :
    Variables (globals.map (·.toHeading)) { Declarations.none with globals }
  | members (members : List Member) :
    Variables (members.map (·.toHeading)) { Declarations.none with members }
  | locals (locals : List LocalVariable) :
    Variables (locals.map (·.toHeading)) { Declarations.none with locals }

/-- A container with the given keyword, header and heading, what is declared inside of it, and the
container itself. -/
inductive Encloses (keyword : Token) (header : List Lexeme) :
    Heading → Declarations → Declarations → Prop where
  | function {function : Function} :
    keyword.isKeyword "function" = true → function.globals = [] →
    (∀ parameter ∈ function.parameters, IsParameter header parameter) →
    Encloses keyword header function.toHeading
      { Declarations.none with locals := function.locals }
      { Declarations.none with functions := [function] }
  | method {method : Method} :
    keyword.isKeyword "method" = true → method.globals = [] →
    (∀ parameter ∈ method.parameters, IsParameter header parameter) →
    Encloses keyword header method.toHeading
      { Declarations.none with locals := method.locals }
      { Declarations.none with methods := [method] }
  | struct {struct : Struct} :
    keyword.isKeyword "struct" = true →
    Encloses keyword header struct.toHeading
      { Declarations.none with members := struct.members, methods := struct.methods }
      { Declarations.none with structs := [struct] }
  | library {library : Library} :
    keyword.isKeywordOf libraryWords = true →
    Encloses keyword header library.toHeading
      { Declarations.none with
        globals := library.globals, functions := library.functions, structs := library.structs }
      { Declarations.none with libraries := [library] }

theorem Variables.headings_eq {headings : List Heading} {own : Declarations}
    (h : Variables headings own) :
    own.headings = headings := by
  cases h <;> simp [Declarations.headings, Declarations.none]

/-- The headings of a container are its own and those of what is declared inside of it. -/
theorem Encloses.headings_eq {keyword : Token} {header : List Lexeme} {heading : Heading}
    {inner own : Declarations} (h : Encloses keyword header heading inner own) :
    own.headings = heading :: inner.headings := by
  cases h with
  | function _ hglobals _ =>
    simp [Declarations.headings, Declarations.none, Function.headings, hglobals]
  | method _ hglobals _ =>
    simp [Declarations.headings, Declarations.none, Method.headings, hglobals]
  | struct _ => simp [Declarations.headings, Declarations.none, Struct.headings]
  | library _ => simp [Declarations.headings, Declarations.none, Library.headings]

/-- What the lexemes declare. The flag tells whether a declaration may start with them. -/
inductive Declares : Bool → List Lexeme → Declarations → Prop where
  | nil {atStart : Bool} : Declares atStart [] .none
  | idle {atStart : Bool} {lexeme : Lexeme} {rest : List Lexeme} {declared : Declarations} :
    Declares (endsItems [lexeme]) rest declared → Declares atStart (lexeme :: rest) declared
  | names {words later rest : List Lexeme} {anchor : Lexeme} {headings : List Heading}
    {own declared : Declarations} :
    Starts words anchor headings → Variables headings own →
    (∀ heading ∈ headings, ∃ last ∈ later, heading.region.stop = last.token.stop) →
    Declares (endsItems later) rest declared →
    Declares true (words ++ anchor :: (later ++ rest)) (own ++ declared)
  | container {words header inside rest : List Lexeme} {anchor close : Lexeme} {heading : Heading}
    {inner own declared : Declarations} :
    Starts words anchor [heading] → Encloses anchor.token header heading inner own →
    heading.region.stop = close.token.stop →
    Declares (endsItems header) inside inner → Declares (endsItems [close]) rest declared →
    Declares true (words ++ anchor :: (header ++ (inside ++ close :: rest))) (own ++ declared)

variable {lexemes rest stretch behind : List Lexeme} {lexeme : Lexeme} {atStart : Bool}
  {declared more : Declarations}

theorem endsItems_append_cons (front : List Lexeme) (lexeme : Lexeme) (rest : List Lexeme) :
    endsItems (front ++ lexeme :: rest) = endsItems (lexeme :: rest) := by
  simp [endsItems, List.getLast?_append, List.getLast?_cons]

theorem endsItems_of_sign {text : String} (h : lexeme.token.isOperator text = true)
    (htext : text ∈ [";", "\x7b", "\x7d"]) (front : List Lexeme) :
    endsItems (front ++ [lexeme]) = true := by
  simp only [Token.isOperator, Bool.and_eq_true, beq_iff_eq] at h
  rw [endsItems_append_cons]
  simpa [endsItems, Token.isOperatorOf, h.1, h.2] using htext

theorem commentsBefore_append_cons (words : List Lexeme) (anchor : Lexeme) (rest : List Lexeme) :
    commentsBefore (words ++ anchor :: rest) = commentsBefore (words ++ [anchor]) := by
  cases words <;> rfl

namespace Declares

/-- What nothing starts with may stand anywhere. -/
theorem of_inside (h : Declares false lexemes declared) : Declares atStart lexemes declared := by
  cases h with
  | nil => exact .nil
  | idle h => exact .idle h

/-- Behind a sign that ends an item, the next item may start. -/
theorem sign {text : String} (hsign : lexeme.token.isOperator text = true)
    (htext : text ∈ [";", "\x7b", "\x7d"]) (h : Declares true rest declared) :
    Declares atStart (lexeme :: rest) declared := by
  have hends : endsItems [lexeme] = true := endsItems_of_sign hsign htext []
  exact .idle (hends ▸ h)

theorem idles (hstretch : stretch ≠ []) (h : Declares (endsItems stretch) behind more) :
    Declares atStart (stretch ++ behind) more := by
  induction stretch generalizing atStart with
  | nil => exact absurd rfl hstretch
  | cons first later ih =>
    refine .idle ?_
    cases later with
    | nil => exact h
    | cons second later => exact ih (by simp) h

end Declares

/-- A declaration does not start with a brace. -/
theorem Starts.not_startsWithSign {words : List Lexeme} {anchor : Lexeme} {headings : List Heading}
    (h : Starts words anchor headings) (rest : List Lexeme) :
    startsWithSign "\x7d" (words ++ anchor :: rest) = false := by
  cases words with
  | nil =>
    have hkind : anchor.token.kind = .identifier := by
      simpa [Token.isIdentifier] using h.isIdentifier
    simp [startsWithSign, Token.isOperator, hkind]
  | cons word words =>
    refine Bool.eq_false_iff.2 fun hbrace => ?_
    simp only [List.cons_append, startsWithSign, Token.isOperator, Bool.and_eq_true,
      beq_iff_eq] at hbrace
    have hmodifier := h.modifiers word List.mem_cons_self
    rw [hbrace.2] at hmodifier
    exact absurd hmodifier (by decide)

/-- Nothing, or a closing brace, may stand anywhere. -/
theorem Declares.anywhere (h : Declares true lexemes declared)
    (hend : lexemes = [] ∨ startsWithSign "\x7d" lexemes = true) :
    Declares atStart lexemes declared := by
  cases h with
  | nil => exact .nil
  | idle h => exact .idle h
  | names hstarts _ _ _ => simp [hstarts.not_startsWithSign] at hend
  | container hstarts _ _ _ _ => simp [hstarts.not_startsWithSign] at hend

/-! ### Items -/

/-- The lexemes in front of the rest declare what was read, whatever is left of the rest. -/
def Reads (lexemes : List Lexeme) (declared : Declarations) (rest : List Lexeme) : Prop :=
  ∃ front, lexemes = front ++ rest ∧ ∀ behind more, behind <+: rest → Declares true behind more →
    Declares true (front ++ behind) (declared ++ more)

theorem Reads.of_idle (front : List Lexeme) (hlexemes : lexemes = front ++ rest) (hne : front ≠ [])
    (hends : endsItems front = true ∨ startsWithSign "\x7d" rest = true) :
    Reads lexemes .none rest := by
  refine ⟨front, hlexemes, fun behind more hbehind hmore => ?_⟩
  rw [Declarations.none_append]
  refine .idles hne ?_
  obtain hends | hbrace := hends
  · rwa [hends]
  · refine hmore.anywhere ?_
    obtain ⟨last, rfl⟩ := hbehind
    cases behind with
    | nil => exact .inl rfl
    | cons lexeme later => exact .inr hbrace

end JassOutline.Zinc
