import Mathlib.Data.List.TakeWhile
import JassOutline.Outline.Block
import JassOutline.Proofs.Bounds.Lexer
import JassOutline.TextMacro.Invocation
import JassOutline.Declaration.Header

/-!
# Headers by positions

A header is read by finding the numbers of its keywords among the tokens of its line and cutting
the token list beside them, or by looking at the first token and cutting it off. Which keywords a
line has, and in which order, is up to the line. Each reader here does these cuts, and its theorem
says that none of them faults and that the reader of the same name makes the same of the line.

## Key results

- `findIdx?_cases`: where the first token of a kind stands, and what is in front of it and behind
- `Cut.signature_eq`, `Cut.libraryOf_eq`, `Cut.structOf_eq`: cuts beside keywords
- `Cut.globalOf_eq`, `Cut.localOf_eq`, `Cut.memberOf_eq`: cuts behind the first token
- `Cut.invocation_eq`, `Cut.definition?_eq`: directives
-/

namespace JassOutline

namespace Cut

/-! ### Cuts of token lists -/

/-- The tokens of a line. -/
def tokensOf (record : SourceLine) : Except Fault (List Token) :=
  Scan.tokenize record.line record.text.toList

/-- The tokens of a directive line, without its marker. -/
def directiveTokens (record : SourceLine) : Except Fault (List Token) :=
  Scan.tokenize record.line (Directive.unmark record.text.toList)

/-- The number of the first token that reads as the keyword. -/
def keywordAt (keyword : String) (tokens : List Token) : Option Nat :=
  tokens.findIdx? (·.isKeyword keyword)

/-- The text of the token with the given number, if it is an identifier. -/
def identifierAt (tokens : List Token) (index : Nat) : Option String :=
  (tokens[index]?.filter Token.isIdentifier).map Token.text

/-- The token with the given number. -/
def nth (tokens : List Token) (index : Nat) : Except Fault Token :=
  match tokens[index]? with
  | some token => .ok token
  | none => .error .outside

/-- Whether the first token passes the test, and the tokens behind it if it does. -/
def dropFirst (p : Token → Bool) (tokens : List Token) : Except Fault (Bool × List Token) :=
  if tokens.head?.any p then do .ok (true, ← Fault.behind tokens 1) else .ok (false, tokens)

/-- The visibility of the first token, if it has one, and the tokens behind it if it does. -/
def dropVisibility (tokens : List Token) : Except Fault (Visibility × List Token) :=
  match tokens.head?.bind (Visibility.ofWord? ·.text) with
  | some visibility => do .ok (visibility, ← Fault.behind tokens 1)
  | none => .ok (.unmarked, tokens)

/-! ### Headers with keywords -/

/-- The words in front of the keyword, if it occurs. -/
def wordsBefore (keyword : String) (tokens : List Token) : Except Fault (List String) :=
  match keywordAt keyword tokens with
  | some index => do
    .ok (((← Fault.upTo tokens index).filter Token.isIdentifier).map Token.text)
  | none => .ok []

/-- The parameters behind `takes`, up to `returns` if that comes later. -/
def parametersOf (tokens : List Token) : Except Fault (List Parameter) :=
  match keywordAt "takes" tokens with
  | some takes => do
    let stop := ((keywordAt "returns" tokens).filter (takes < ·)).getD tokens.length
    .ok (Parameter.listFrom (← Fault.between tokens (takes + 1) stop))
  | none => .ok []

/-- The parts of the header with the given keyword. -/
def signature (keyword : String) (tokens : List Token) : Except Fault Signature := do
  let modifiers ← wordsBefore keyword tokens
  let parameters ← parametersOf tokens
  .ok { name := (keywordAt keyword tokens).bind fun index => identifierAt tokens (index + 1)
        parameters
        returns := (keywordAt "returns" tokens).bind fun index => identifierAt tokens (index + 1)
        modifiers }

/-- The names of a list that starts behind the token with the given number. -/
def namesBehind (tokens : List Token) : Option Nat → Except Fault (List String)
  | some index => do .ok (listedNames true (← Fault.behind tokens (index + 1)))
  | none => .ok []

/-- The library with the given header line. -/
def libraryOf (header : SourceLine) (region : Region) : Except Fault Library := do
  let tokens ← tokensOf header
  match tokens.findIdx? (·.isKeywordOf ["library", "library_once"]) with
  | none => .ok (.ofRegion region)
  | some index =>
    let requirements ←
      namesBehind tokens (tokens.findIdx? (·.isKeywordOf ["requires", "needs", "uses"]))
    .ok { Library.ofRegion region with
          name := identifierAt tokens (index + 1)
          setUp := (keywordAt "initializer" tokens).bind fun index =>
            identifierAt tokens (index + 1)
          requirements }

/-- The struct with the given header line. -/
def structOf (header : SourceLine) (region : Region) : Except Fault Struct := do
  let tokens ← tokensOf header
  let parents ← namesBehind tokens (keywordAt "extends" tokens)
  .ok { Struct.ofRegion region with
        name := (keywordAt "struct" tokens).bind fun index => identifierAt tokens (index + 1)
        visibility := .ofWords ((tokens.takeWhile (!·.isKeyword "struct")).map Token.text)
        parents }

/-! ### Variables -/

/-- The global variable that a line declares. -/
def globalOf (record : SourceLine) : Except Fault GlobalVariable := do
  let (visibility, tokens) ← dropVisibility (← tokensOf record)
  let (isConstant, tokens) ← dropFirst (·.isKeyword "constant") tokens
  let shape := VariableShape.ofTokens tokens
  .ok { name := shape.name, comments := [], region := record.region, visibility, isConstant
        type := shape.type, isArray := shape.isArray }

/-- The variable behind the word `local`, if the word is there: where it starts, whether it is
constant, and its shape. -/
def embedded (tokens : List Token) :
    Except Fault (Option (Position × Bool × VariableShape)) :=
  match keywordAt "local" tokens with
  | none => .ok none
  | some index => do
    let word ← nth tokens index
    let (isConstant, rest) ← dropFirst (·.isKeyword "constant") (← Fault.behind tokens (index + 1))
    .ok (some (word.start, isConstant, VariableShape.ofTokens rest))

/-- The local variable that a line declares. -/
def localOf (record : SourceLine) : Except Fault LocalVariable := do
  match ← embedded (← tokensOf record) with
  | none =>
    .ok { name := none, comments := [], region := record.region, isConstant := false, type := none
          isArray := false }
  | some (start, isConstant, shape) =>
    .ok { name := shape.name, comments := [], region := ⟨start, record.region.stop⟩, isConstant
          type := shape.type, isArray := shape.isArray }

/-- The binding of the first token, if it has one, and the tokens behind it if it does. -/
def dropBinding (tokens : List Token) : Except Fault (Binding × List Token) := do
  let (isStatic, rest) ← dropFirst (·.isKeyword "static") tokens
  if isStatic then .ok (.static, rest)
  else
    let (isStub, rest) ← dropFirst (·.isKeyword "stub") rest
    .ok (if isStub then .stub else .ordinary, rest)

/-- A round of the loop over flags: it cuts off the first token if that is one. -/
def flagsRound (again : Member.Flags × List Token → Except Fault (Member.Flags × List Token))
    (state : Member.Flags × List Token) : Except Fault (Member.Flags × List Token) :=
  match state.2.head? with
  | none => .ok state
  | some token =>
    if token.isKeyword "constant" then do
      again ({ state.1 with isConstant := true }, ← Fault.behind state.2 1)
    else if token.isKeyword "readonly" then do
      again ({ state.1 with isReadonly := true }, ← Fault.behind state.2 1)
    else .ok state

/-- The flags at the start of the tokens, and the tokens behind them. -/
def dropFlags (tokens : List Token) : Except Fault (Member.Flags × List Token) :=
  rounds .stuck (fun state => state.2.length) flagsRound (⟨false, false⟩, tokens)

/-- The member that a line declares. -/
def memberOf (record : SourceLine) : Except Fault Member := do
  let (visibility, tokens) ← dropVisibility (← tokensOf record)
  let (binding, tokens) ← dropBinding tokens
  let (flags, tokens) ← dropFlags tokens
  match ← embedded tokens with
  | none =>
    let shape := VariableShape.ofTokens tokens
    .ok { name := shape.name, comments := [], region := record.region, visibility, binding
          isConstant := flags.isConstant, isReadonly := flags.isReadonly, type := shape.type
          isArray := shape.isArray }
  | some (start, isConstant, shape) =>
    .ok { name := shape.name, comments := [], region := ⟨start, record.region.stop⟩, visibility
          binding, isConstant := flags.isConstant || isConstant, isReadonly := flags.isReadonly
          type := shape.type, isArray := shape.isArray }

/-- Whether the line declares a member. -/
def isMemberLine (record : SourceLine) : Except Fault Bool := do
  let (_, tokens) ← dropFirst (·.isKeywordOf LineRole.visibilityWords) (← tokensOf record)
  let (_, tokens) ← dropFirst (·.isKeywordOf ["static", "stub"]) tokens
  match tokens.head? with
  | some type => .ok (startsWithTwoWords tokens && !statementWords.contains type.text)
  | none => .ok false

/-! ### Directives and blocks -/

/-- The request that a directive line makes. -/
def invocation (site : SourceLine) : Except Fault Invocation := do
  let (_, tokens) ← dropFirst (·.isKeyword "runtextmacro") (← directiveTokens site)
  let (isOptional, tokens) ← dropFirst (·.isKeyword "optional") tokens
  match tokens.head?.filter Token.isIdentifier with
  | none => .ok { name := "", arguments := [], isOptional, site }
  | some name =>
    let arguments ←
      (if tokens[1]?.any (·.isOperator "(") then do
        let inside ← Fault.behind tokens 2
        .ok ((TextMacro.listItems Token.isString true inside).map fun literal =>
          String.ofList (Invocation.unquote literal.toList))
      else .ok [])
    .ok { name := name.text, arguments, isOptional, site }

/-- The name and the parameters that the opening directive of a definition gives. -/
def definition? (header : SourceLine) : Except Fault (Option (String × List String)) := do
  let tokens ← directiveTokens header
  match tokens[1]?.filter Token.isIdentifier with
  | none => .ok none
  | some name =>
    let parameters ←
      (if tokens[2]?.any fun token => token.isOperator "(" || token.isKeyword "takes" then do
        .ok (TextMacro.listItems Token.isIdentifier true (← Fault.behind tokens 3))
      else .ok [])
    .ok (some (name.text, parameters))

/-- What a block holds besides its header. -/
def body (block : Block) : Except Fault (List Node) :=
  if block.header?.isSome then Fault.behind block.children 1 else .ok block.children

variable {tokens : List Token}

/-! ### Where keywords stand -/

/-- The number of the first token that passes a test counts the tokens in front of it. -/
theorem findIdx?_cases (p : Token → Bool) (tokens : List Token) :
    (tokens.findIdx? p = none ∧ Token.after? p tokens = none ∧ ∀ token ∈ tokens, p token = false) ∨
    ∃ front found rest, tokens = front ++ found :: rest ∧ p found = true ∧
      (∀ token ∈ front, p token = false) ∧ tokens.findIdx? p = some front.length ∧
      Token.after? p tokens = some rest := by
  induction tokens with
  | nil => exact .inl ⟨rfl, rfl, nofun⟩
  | cons token tokens ih =>
    -- A found token stands where it is counted and splits the list there
    by_cases htoken : p token = true
    · exact .inr ⟨[], token, tokens, rfl, htoken, nofun, by simp [List.findIdx?_cons, htoken],
        by simp [Token.after?, htoken]⟩
    have htoken := Bool.eq_false_iff.2 htoken
    obtain ⟨hfind, hafter, hnone⟩ | ⟨front, found, rest, rfl, hfound, hfront, hfind, hafter⟩ := ih
    · exact .inl ⟨by simp [List.findIdx?_cons, htoken, hfind],
        by simp [Token.after?, htoken, hafter], List.forall_mem_cons.2 ⟨htoken, hnone⟩⟩
    · exact .inr ⟨token :: front, found, rest, rfl, hfound, List.forall_mem_cons.2 ⟨htoken, hfront⟩,
        by simp [List.findIdx?_cons, htoken, hfind], by simp [Token.after?, htoken, hafter]⟩

theorem identifierAt_append (front : List Token) (found : Token) (rest : List Token) :
    identifierAt (front ++ found :: rest) (front.length + 1) = Token.leadingIdentifier? rest := by
  rw [identifierAt, List.getElem?_append_right (by omega), Nat.add_sub_cancel_left,
    List.getElem?_cons_succ]
  cases rest with
  | nil => rfl
  | cons token rest =>
    cases hidentifier : token.isIdentifier <;>
      simp [Token.leadingIdentifier?, hidentifier, Option.filter]

/-- The word behind a keyword is the token with the next number. -/
theorem bind_identifierAt (p : Token → Bool) (tokens : List Token) :
    ((tokens.findIdx? p).bind fun index => identifierAt tokens (index + 1)) =
      (Token.after? p tokens).bind Token.leadingIdentifier? := by
  obtain ⟨hfind, hafter, -⟩ | ⟨front, found, rest, rfl, -, -, hfind, hafter⟩ :=
    findIdx?_cases p tokens
  · rw [hfind, hafter]
    rfl
  · rw [hfind, hafter]
    exact identifierAt_append front found rest

theorem behind_append (front : List Token) (found : Token) (rest : List Token) :
    Fault.behind (front ++ found :: rest) (front.length + 1) = .ok rest := by
  rw [Fault.behind_of_le (by simp)]
  simp

theorem namesBehind_eq (p : Token → Bool) (tokens : List Token) :
    namesBehind tokens (tokens.findIdx? p) =
      .ok (listedNames true ((Token.after? p tokens).getD [])) := by
  obtain ⟨hfind, hafter, -⟩ | ⟨front, found, rest, rfl, -, -, hfind, hafter⟩ :=
    findIdx?_cases p tokens
  · rw [hfind, hafter]
    rfl
  · rw [hfind, hafter, namesBehind, behind_append]
    rfl

/-! ### Headers with keywords -/

theorem takeWhile_append_cons {p : Token → Bool} {front : List Token} {found : Token}
    {rest : List Token} (hfront : ∀ token ∈ front, p token = false) (hfound : p found = true) :
    (front ++ found :: rest).takeWhile (!p ·) = front := by
  rw [List.takeWhile_append_of_pos fun token htoken => by rw [hfront token htoken]; rfl,
    List.takeWhile_cons_of_neg (by simp [hfound]), List.append_nil]

theorem wordsBefore_eq (keyword : String) (tokens : List Token) :
    wordsBefore keyword tokens = .ok (Signature.wordsBefore keyword tokens) := by
  rw [wordsBefore, keywordAt, Signature.wordsBefore]
  obtain ⟨hfind, -, hnone⟩ | ⟨front, found, rest, rfl, hfound, hfront, hfind, -⟩ :=
    findIdx?_cases (·.isKeyword keyword) tokens
  · -- Without the keyword there are no words in front of it
    rw [hfind, if_neg]
    rw [List.any_eq_true]
    rintro ⟨token, htoken, hword⟩
    rw [hnone token htoken] at hword
    cases hword
  · -- The words in front of it are a start of the list, so the cut is within bounds
    have hany : (front ++ found :: rest).any (·.isKeyword keyword) = true :=
      List.any_eq_true.2 ⟨found, by simp, hfound⟩
    rw [hfind, if_pos hany, takeWhile_append_cons hfront hfound]
    dsimp only
    rw [Fault.upTo_of_le (by simp)]
    show Except.ok ((((front ++ found :: rest).take front.length).filter _).map _) = _
    rw [List.take_left]

/-- No token reads as two different words. -/
theorem isKeyword_of_ne {token : Token} {word other : String} (h : token.isKeyword word = true)
    (hne : word ≠ other) : token.isKeyword other = false := by
  simp only [Token.isKeyword, Bool.and_eq_true, beq_iff_eq] at h
  rw [Token.isKeyword, h.2, beq_eq_false_iff_ne.2 hne, Bool.and_false]

/-- The end of a parameter list comes behind the word `takes`, whichever of the two words stands
first on the line. -/
theorem between_returns {front rest : List Token} {takes : Token}
    (htakes : takes.isKeyword "takes" = true) :
    Fault.between (front ++ takes :: rest) (front.length + 1)
        (((keywordAt "returns" (front ++ takes :: rest)).filter (front.length < ·)).getD
          (front ++ takes :: rest).length) =
      .ok (if front.any (·.isKeyword "returns") then rest
        else rest.takeWhile (!·.isKeyword "returns")) := by
  have hwhole : Fault.between (front ++ takes :: rest) (front.length + 1)
      (front ++ takes :: rest).length = .ok rest := by
    rw [Fault.between_of_le (by simp) (Nat.le_refl _), List.take_length]
    simp
  rw [keywordAt, List.findIdx?_append]
  obtain ⟨hfind, -, hnone⟩ | ⟨before, returns, behind, rfl, hreturns, -, hfind, -⟩ :=
    findIdx?_cases (·.isKeyword "returns") front
  · -- The first `returns`, if there is one, comes behind `takes` and ends the list
    have hany : front.any (·.isKeyword "returns") = false := by
      rw [List.any_eq_false]
      intro token htoken hword
      rw [hnone token htoken] at hword
      cases hword
    rw [hfind, hany, List.findIdx?_cons, isKeyword_of_ne htakes (by decide)]
    obtain ⟨hlater, -, hnone⟩ | ⟨list, returns, behind, rfl, hreturns, hlist, hlater, -⟩ :=
      findIdx?_cases (·.isKeyword "returns") rest
    · -- Without `returns` the list goes on to the end of the line
      have hlist : rest.takeWhile (!·.isKeyword "returns") = rest := by
        rw [List.takeWhile_eq_self_iff]
        intro token htoken
        rw [hnone token htoken]
        rfl
      rw [hlater, hlist]
      exact hwhole
    · -- The list stops where `returns` stands, behind `takes` and so behind the start of the list
      have hlater' : front.length < list.length + 1 + front.length := by omega
      rw [hlater, takeWhile_append_cons hlist hreturns]
      simp only [Bool.false_eq_true, if_false, Option.map_some, Option.none_or, Option.filter_some,
        decide_eq_true hlater', if_true, Option.getD_some]
      rw [Fault.between_of_le (by omega) (by simp; omega)]
      have hcut : list.length + 1 + front.length = (front ++ takes :: list).length := by
        simp
        omega
      have htokens : front ++ takes :: (list ++ returns :: behind) =
          (front ++ takes :: list) ++ returns :: behind := by
        simp
      rw [hcut, htokens, List.take_left]
      simp
  · -- The first `returns` comes too early, and then no later one is looked for
    have hany : (before ++ returns :: behind).any (·.isKeyword "returns") = true :=
      List.any_eq_true.2 ⟨returns, by simp, hreturns⟩
    have hearlier : ¬(before ++ returns :: behind).length < before.length := by
      rw [List.length_append]
      omega
    rw [hfind, hany, Option.some_or, Option.filter_some, decide_eq_false hearlier]
    exact hwhole

theorem parametersOf_eq (tokens : List Token) :
    parametersOf tokens = .ok (Parameter.listFrom (Signature.parameterTokens tokens)) := by
  rw [parametersOf, keywordAt, Signature.parameterTokens]
  obtain ⟨hfind, hafter, -⟩ | ⟨front, takes, rest, rfl, htakes, hfront, hfind, hafter⟩ :=
    findIdx?_cases (·.isKeyword "takes") tokens
  · rw [hfind, hafter]
    rfl
  · rw [hfind, hafter, takeWhile_append_cons hfront htakes]
    dsimp only
    rw [between_returns htakes]
    rfl

theorem signature_eq (keyword : String) (tokens : List Token) :
    signature keyword tokens = .ok (.ofTokens keyword tokens) := by
  rw [signature, wordsBefore_eq, parametersOf_eq]
  show Except.ok _ = _
  rw [keywordAt, bind_identifierAt, keywordAt, bind_identifierAt]
  rfl

theorem tokensOf_eq (record : SourceLine) : tokensOf record = .ok record.tokens :=
  Scan.tokenize_eq _ _

theorem libraryOf_eq (header : SourceLine) (region : Region) :
    libraryOf header region = .ok (.ofHeader header region) := by
  rw [libraryOf, tokensOf_eq, Library.ofHeader]
  show (match header.tokens.findIdx? _ with | none => _ | some index => _) = _
  rw [namesBehind_eq]
  obtain ⟨hfind, hafter, -⟩ | ⟨front, found, rest, htokens, -, -, hfind, hafter⟩ :=
    findIdx?_cases (·.isKeywordOf ["library", "library_once"]) header.tokens
  · rw [hfind, hafter]
  · rw [hfind, hafter, keywordAt, bind_identifierAt, htokens]
    dsimp only
    rw [identifierAt_append]
    rfl

theorem structOf_eq (header : SourceLine) (region : Region) :
    structOf header region = .ok (.ofHeader header region) := by
  rw [structOf, tokensOf_eq, Struct.ofHeader]
  show (namesBehind _ _).bind _ = _
  rw [keywordAt, namesBehind_eq]
  show Except.ok _ = _
  rw [keywordAt, bind_identifierAt]
  rfl

/-! ### Variables -/

theorem dropFirst_eq (p : Token → Bool) (tokens : List Token) :
    dropFirst p tokens =
      .ok (tokens.head?.any p, if tokens.head?.any p then tokens.tail else tokens) := by
  rw [dropFirst]
  by_cases hfirst : tokens.head?.any p = true
  · obtain ⟨token, rest, rfl⟩ : ∃ token rest, tokens = token :: rest := by
      cases tokens with
      | nil => cases hfirst
      | cons token rest => exact ⟨token, rest, rfl⟩
    rw [if_pos hfirst, if_pos hfirst, Fault.behind_of_le (by simp), hfirst]
    rfl
  · rw [if_neg hfirst, if_neg hfirst, Bool.eq_false_iff.2 hfirst]

theorem dropKeyword_eq (word : String) (tokens : List Token) :
    dropFirst (·.isKeyword word) tokens = .ok (Token.dropKeyword word tokens) := by
  rw [dropFirst_eq]
  cases tokens with
  | nil => rfl
  | cons token rest =>
    cases hword : token.isKeyword word <;> simp [Token.dropKeyword, hword]

theorem dropVisibility_eq (tokens : List Token) :
    dropVisibility tokens = .ok (JassOutline.dropVisibility tokens) := by
  cases tokens with
  | nil => rfl
  | cons token rest =>
    rw [dropVisibility, JassOutline.dropVisibility.eq_def, Fault.behind_of_le (by simp)]
    dsimp only [List.head?_cons, Option.bind_some]
    cases Visibility.ofWord? token.text <;> rfl

theorem globalOf_eq (record : SourceLine) : globalOf record = .ok (.ofLine record) := by
  rw [globalOf, tokensOf_eq, GlobalVariable.ofLine]
  simp only [Fault.ok_bind, dropVisibility_eq]
  obtain ⟨visibility, tokens⟩ := JassOutline.dropVisibility record.tokens
  simp only [Fault.ok_bind, dropKeyword_eq]

/-- What stands behind the first word `local`. -/
theorem embedded_eq (tokens : List Token) :
    embedded tokens = .ok (match tokens.dropWhile (!·.isKeyword "local") with
      | [] => none
      | token :: rest =>
        some (token.start, (Token.dropKeyword "constant" rest).1,
          VariableShape.ofTokens (Token.dropKeyword "constant" rest).2)) := by
  rw [embedded, keywordAt]
  obtain ⟨hfind, -, hnone⟩ | ⟨front, found, rest, rfl, hfound, hfront, hfind, -⟩ :=
    findIdx?_cases (·.isKeyword "local") tokens
  · have hdrop : tokens.dropWhile (!·.isKeyword "local") = [] := by
      rw [List.dropWhile_eq_nil_iff]
      intro token htoken
      rw [hnone token htoken]
      rfl
    rw [hfind, hdrop]
  · have hdrop : (front ++ found :: rest).dropWhile (!·.isKeyword "local") = found :: rest := by
      rw [List.dropWhile_append_of_pos fun token htoken => by rw [hfront token htoken]; rfl,
        List.dropWhile_cons_of_neg (by simp [hfound])]
    have hnth : nth (front ++ found :: rest) front.length = .ok found := by
      rw [nth, List.getElem?_append_right (Nat.le_refl _), Nat.sub_self]
      rfl
    rw [hfind, hdrop]
    dsimp only
    rw [hnth, behind_append]
    show (dropFirst _ _).bind _ = _
    rw [dropKeyword_eq]
    rfl

theorem localOf_eq (record : SourceLine) : localOf record = .ok (.ofLine record) := by
  rw [localOf, tokensOf_eq, LocalVariable.ofLine]
  simp only [Fault.ok_bind, embedded_eq]
  cases record.tokens.dropWhile (!·.isKeyword "local") <;> rfl

theorem dropBinding_eq (tokens : List Token) :
    dropBinding tokens = .ok (Member.dropBinding tokens) := by
  rw [dropBinding, dropKeyword_eq]
  simp only [Fault.ok_bind]
  cases tokens with
  | nil => rfl
  | cons token rest =>
    rw [Token.dropKeyword, Member.dropBinding]
    cases token.isKeyword "static" with
    | true => rfl
    | false =>
      simp only [Bool.false_eq_true, if_false, dropKeyword_eq, Fault.ok_bind, Token.dropKeyword]
      cases token.isKeyword "stub" <;> rfl

/-- Each round of the loop takes a flag off. -/
theorem dropFlags_eq (tokens : List Token) :
    dropFlags tokens = .ok (Member.dropFlags ⟨false, false⟩ tokens) := by
  rw [dropFlags]
  -- The induction is on the tokens, with whatever flags have been taken off before
  generalize (⟨false, false⟩ : Member.Flags) = flags
  induction tokens generalizing flags with
  | nil =>
    rw [rounds]
    rfl
  | cons token rest ih =>
    rw [rounds, flagsRound, Member.dropFlags]
    simp only [List.head?_cons, Fault.behind_cons, Fault.ok_bind, List.length_cons,
      if_pos (Nat.lt_succ_self rest.length), ih]
    split
    · rfl
    · split <;> rfl

theorem memberOf_eq (record : SourceLine) : memberOf record = .ok (.ofLine record) := by
  rw [memberOf, tokensOf_eq, Member.ofLine]
  simp only [Fault.ok_bind, dropVisibility_eq]
  obtain ⟨visibility, tokens⟩ := JassOutline.dropVisibility record.tokens
  simp only [Fault.ok_bind, dropBinding_eq]
  obtain ⟨binding, tokens⟩ := Member.dropBinding tokens
  simp only [Fault.ok_bind, dropFlags_eq]
  obtain ⟨flags, tokens⟩ := Member.dropFlags ⟨false, false⟩ tokens
  simp only [Fault.ok_bind, embedded_eq]
  cases tokens.dropWhile (!·.isKeyword "local") <;> rfl

theorem dropOneKeyword_eq (words : List String) (tokens : List Token) :
    dropOneKeyword words tokens =
      if tokens.head?.any (·.isKeywordOf words) then tokens.tail else tokens := by
  cases tokens <;> rfl

theorem isMemberLine_eq (record : SourceLine) :
    isMemberLine record = .ok (JassOutline.isMemberLine record) := by
  rw [isMemberLine, tokensOf_eq, JassOutline.isMemberLine]
  simp only [Fault.ok_bind, dropFirst_eq, ← dropOneKeyword_eq]
  generalize dropOneKeyword ["static", "stub"] _ = tokens
  cases tokens <;> rfl

/-! ### Directives and blocks -/

theorem directiveTokens_eq (record : SourceLine) :
    directiveTokens record = .ok (TextMacro.directiveTokens record) :=
  Scan.tokenize_eq _ _

theorem invocation_eq (site : SourceLine) : invocation site = .ok (.ofLine site) := by
  rw [invocation, directiveTokens_eq, Invocation.ofLine]
  simp only [Fault.ok_bind, dropKeyword_eq]
  -- The name stands behind two words that may be missing
  obtain ⟨isOptional, tokens⟩ :=
    Token.dropKeyword "optional" (Token.dropKeyword "runtextmacro" _).2
  cases tokens with
  | nil => rfl
  | cons name rest =>
    dsimp only [List.head?_cons]
    rw [Invocation.target]
    cases hname : name.isIdentifier with
    | false => simp [Option.filter, hname]
    | true =>
      simp only [Option.filter, hname, if_true]
      cases rest with
      | nil => rfl
      | cons opening inside =>
        -- Where an opening parenthesis stands there are two tokens to cut off
        have hcut : Fault.behind (name :: opening :: inside) 2 = .ok inside :=
          Fault.behind_of_le (by simp)
        rw [hcut]
        simp only [List.getElem?_cons_succ, List.getElem?_cons_zero, Option.any_some,
          Invocation.argumentsOf]
        by_cases hopening : opening.isOperator "(" = true
        · rw [if_pos hopening, if_pos hopening]
          rfl
        · rw [if_neg hopening, if_neg hopening]
          rfl

theorem definition?_eq (header : SourceLine) :
    definition? header = .ok (TextMacro.signature? header) := by
  rw [definition?, directiveTokens_eq, TextMacro.signature?]
  simp only [Fault.ok_bind]
  rcases TextMacro.directiveTokens header with _ | ⟨first, _ | ⟨name, rest⟩⟩
  · rfl
  · rfl
  · simp only [List.getElem?_cons_succ, List.getElem?_cons_zero]
    cases hname : name.isIdentifier with
    | false => simp [Option.filter, hname]
    | true =>
      simp only [Option.filter, hname, if_true]
      cases rest with
      | nil => rfl
      | cons opening inside =>
        -- With a name and a sign behind it there are three tokens to cut off
        have hcut : Fault.behind (first :: name :: opening :: inside) 3 = .ok inside :=
          Fault.behind_of_le (by simp)
        rw [hcut]
        simp only [List.getElem?_cons_zero, Option.any_some, TextMacro.parametersOf]
        by_cases hopening : (opening.isOperator "(" || opening.isKeyword "takes") = true
        · rw [if_pos hopening, if_pos hopening]
          rfl
        · rw [if_neg hopening, if_neg hopening]
          rfl

theorem body_eq (block : Block) : body block = .ok block.body := by
  rw [body, Block.body]
  cases hheader : block.header? with
  | none => rfl
  | some record =>
    rw [Block.header_body hheader]
    rfl

end Cut

end JassOutline
