import JassOutline.Proofs.Zinc.Cursor.Skip
import JassOutline.Zinc.Routine

/-!
# Functions and methods by a cursor

A body is skipped by counting its braces from one on. At the start of a statement the comments are
asked for before the statement is looked at, and a declaration ends where the last token ended that
was taken. Each step mirrors the reader of its name.

## Key results

- `mirrors_parameters`, `mirrors_body`: the loops of functions and methods
- `agrees_function`, `agrees_method`
-/

namespace JassOutline.Zinc

namespace Step

/-! ### Steps over functions -/

/-- Takes a parameter list with its parentheses. -/
def parameters : Step (List Parameter) := do
  let _ ← expectSign "("
  if ← eat (·.isOperator ")") then return []
  else
    loop (fun again (found : List Parameter) => do
      let type ← expectIdentifier .parameterType
      let isNone ← (if type.isKeyword "nothing" then peekIs (·.isOperator ")") else pure false)
      if isNone then
        let _ ← advance
        return found
      else
        let name ← expectIdentifier .parameterName
        let found := found ++ [⟨type.text, some name.text, ⟨type.start, name.stop⟩⟩]
        if ← eat (·.isOperator ",") then again found
        else
          let _ ← expectSign ")"
          return found) []

/-- Takes an arrow and a type, if there is an arrow. -/
def result : Step (Option String) := do
  if ← eat (·.isOperator "->") then
    let type ← expectIdentifier .returnType
    return some type.text
  else return none

/-- Takes the name of a local variable of the given type, if a name is next. -/
def localNamed (comments : List CommentLine) (first type : Token) (isConstant : Bool) :
    Step (Option LocalVariable) := do
  if ← peekIs Token.isIdentifier then
    match ← advance with
    | some name =>
      let isArray ← peekIs (·.isOperator "[")
      return some
        { name := some name.text, comments, region := ⟨first.start, name.stop⟩, isConstant
          type := some type.text, isArray }
    | none => return none
  else return none

/-- Takes what is behind the first token of a statement, if the statement declares a variable. -/
def localVariable (comments : List CommentLine) (first : Token) : Step (Option LocalVariable) := do
  let isDeclaration ←
    (if first.isIdentifier && !statementKeywords.contains first.text then peekIs Token.isIdentifier
    else pure false)
  if isDeclaration then
    if first.isKeyword "constant" then
      let type ← expectIdentifier .typeName
      localNamed comments first type true
    else localNamed comments first first false
  else return none

/-- What a body is skipped with. -/
structure BodyState where
  locals : List LocalVariable
  depth : Nat
  atStatement : Bool

/-- Takes a body, and tells where it ends. -/
def body : Step (List LocalVariable × Position) := do
  let _ ← expectSign "\x7b"
  loop (fun again (state : BodyState) => do
    let comments ← (if state.atStatement then takeComments else pure [])
    let token ← need (.sign "\x7d")
    if token.isOperator "\x7b" then
      again { state with depth := state.depth + 1, atStatement := true }
    else if token.isOperator "\x7d" then
      let depth ← ofChecked (Fault.lower state.depth)
      if depth = 0 then return (state.locals, ← lastStop)
      else again { state with depth, atStatement := true }
    else if token.isOperator ";" then again { state with atStatement := true }
    else
      let declared ← (if state.atStatement then localVariable comments token else pure none)
      again { state with locals := state.locals ++ declared.toList, atStatement := false })
    ⟨[], 1, true⟩

/-- Takes a function. -/
def function (visibility : Visibility) (comments : List CommentLine) : Step Function := do
  let keyword ← need (.sign "function")
  let name ← expectIdentifier .functionName
  let parameters ← parameters
  let returns ← result
  let (locals, stop) ← body
  return { name := some name.text
           comments
           region := ⟨keyword.start, stop⟩
           visibility
           isConstant := false
           parameters
           returns
           locals
           globals := [] }

/-! ### Steps over methods -/

/-- Takes the tokens of the name of an operator. -/
def operatorName : Step String :=
  loop (fun again (name : String) => do
    match ← peek with
    | some token =>
      if token.isOperator "(" then return name
      else
        let _ ← advance
        again (name ++ token.text)
    | none => return name) ""

/-- Takes the name of a method or of an operator. -/
def methodName : Step String := do
  if ← eat (·.isKeywordOf ["operator"]) then operatorName
  else
    let name ← expectIdentifier .methodName
    return name.text

/-- Takes a body or the semicolon in its place, and tells where it ends. -/
def bodyOrSemicolon : Step (List LocalVariable × Position) := do
  if ← eat (·.isOperator ";") then return ([], ← lastStop) else body

/-- Takes a method. -/
def method (visibility : Visibility) (binding : Binding) (comments : List CommentLine) :
    Step Method := do
  let keyword ← need (.sign "method")
  let name ← methodName
  let parameters ← parameters
  let returns ← result
  let (locals, stop) ← bodyOrSemicolon
  return { name := some name
           comments
           region := ⟨keyword.start, stop⟩
           visibility
           binding
           parameters
           returns
           locals
           globals := [] }

end Step

/-! ### Parameters and results -/

/-- Parameters behind others. -/
theorem readBehind_parametersFrom (found : List Parameter) (lexemes : List Lexeme) :
    readBehind parametersFrom found lexemes =
      (identifier .parameterType lexemes).bind fun type =>
        if type.1.isKeyword "nothing" && startsWithSign ")" type.2 then .ok (found, type.2.tail)
        else (identifier .parameterName type.2).bind fun name =>
          let parameter : Parameter := ⟨type.1.text, some name.1.text, ⟨type.1.start, name.1.stop⟩⟩
          if startsWithSign "," name.2 then
            readBehind parametersFrom (found ++ [parameter]) name.2.tail
          else (sign ")" name.2).bind fun closing => .ok (found ++ [parameter], closing.2) := by
  rw [readBehind, parametersFrom_eq, onValue_bind]
  congr 1
  funext type
  split
  · simp [onValue, Except.map]
  rw [onValue_bind]
  congr 1
  funext name
  dsimp only
  split
  · exact onValue_append_cons ..
  · rw [onValue_bind]
    rfl

theorem mirrors_parameters : Mirrors Step.parameters parameters := by
  intro tokens bound cursor lexemes h
  refine (mirrors_expectSign "(" h).bind fun _ rest after _ hafter => ?_
  refine .eatSign hafter (fun _ _ hnone => .pure _ hnone) fun inside hinside => ?_
  -- The loop collects parameters in front of those that `parametersFrom` reads
  rw [← readBehind_nil parametersFrom]
  refine agrees_loop (readBehind _) (fun again found cursor lexemes h hagain => ?_) [] hinside
  rw [readBehind_parametersFrom]
  refine (mirrors_expectIdentifier .parameterType h).bind fun type rest after htype hafter => ?_
  have hnone : Agrees tokens bound
      (.ok (type.isKeyword "nothing" && startsWithSign ")" rest, rest))
      ((if type.isKeyword "nothing" then Step.peekIs (·.isOperator ")") else pure false)
        after) := by
    cases type.isKeyword "nothing" with
    | false => exact .pure false hafter
    | true =>
      rw [Bool.true_and, startsWithSign_eq]
      exact mirrors_peekIs _ hafter
  refine .before hnone fun ahead hahead => ?_
  -- The word `nothing` is the whole list only with the parenthesis right behind it
  refine .ite (fun hends => ?_) fun _ => ?_
  · cases rest with
    | nil => simp [startsWithSign] at hends
    | cons closing rest => exact .before (.advance hahead) fun _ hclosed => .pure found hclosed
  refine (mirrors_expectIdentifier .parameterName hahead).bind fun name later _ hname hlater => ?_
  refine .eatSign hlater (fun _ _ hothers => hagain _ _ _ ?_ hothers) fun _ hclosing => ?_
  · -- Type, name and comma are three lexemes less
    have := consumes_identifier _ _ _ _ htype
    have := consumes_identifier _ _ _ _ hname
    show later.tail.length < lexemes.length
    rw [List.length_tail]
    omega
  · exact (mirrors_expectSign ")" hclosing).bind fun _ _ _ _ hclosed => .pure _ hclosed

theorem mirrors_result : Mirrors Step.result result := fun _ _ _ _ h =>
  .eatSign h
    (fun _ _ harrow => (mirrors_expectIdentifier .returnType harrow).bind fun _ _ _ _ htype =>
      .pure _ htype)
    fun _ hafter => .pure none hafter

/-! ### Bodies -/

variable {tokens : List Token} {bound : Nat} {cursor : Cursor} {lexemes rest : List Lexeme}

theorem agrees_identifier {expected : Expected} (h : cursor.Ahead tokens bound (lexeme :: rest))
    (hidentifier : lexeme.token.isIdentifier = true) :
    Agrees tokens bound (.ok (lexeme.token, rest)) (Step.expectIdentifier expected cursor) := by
  have hread := mirrors_expectIdentifier expected h
  rwa [identifier, if_pos hidentifier] at hread

theorem agrees_localNamed (first : Lexeme) (type : Token) (isConstant : Bool)
    (h : cursor.Ahead tokens bound (lexeme :: rest)) :
    Agrees tokens bound
      (if lexeme.token.isIdentifier then
        .ok (some (localOf first isConstant type lexeme.token rest), rest)
      else .ok (none, lexeme :: rest))
      (Step.localNamed first.comments first.token type isConstant cursor) := by
  refine .before (mirrors_peekIs _ h) fun ahead hahead =>
    .ite (fun _ => ?_) fun _ => .pure none hahead
  refine .before (.advance hahead) fun after hafter => ?_
  rw [localOf, startsWithSign_eq]
  exact .before (mirrors_peekIs _ hafter) fun _ hname => .pure _ hname

/-- Of a statement that declares a variable those lexemes are taken that are looked at for it. -/
theorem agrees_localVariable (first : Lexeme) (h : cursor.Ahead tokens bound rest) :
    Agrees tokens bound (.ok ((localHead first rest).1, rest.drop (localHead first rest).2))
      (Step.localVariable first.comments first.token cursor) := by
  have hpeek : Agrees tokens bound
      (.ok (first.token.isIdentifier && !statementKeywords.contains first.token.text &&
        startsWith Token.isIdentifier rest, rest))
      ((if first.token.isIdentifier && !statementKeywords.contains first.token.text then
        Step.peekIs Token.isIdentifier else pure false) cursor) := by
    cases first.token.isIdentifier && !statementKeywords.contains first.token.text with
    | false => exact .pure false h
    | true => exact mirrors_peekIs _ h
  refine .before hpeek fun after hafter => ?_
  have hstarts : ∀ second later, startsWith Token.isIdentifier (second :: later) =
      second.token.isIdentifier := fun _ _ => rfl
  fun_cases localHead first rest with
  -- A declaration is looked at up to its name, and what was looked at is taken
  | case1 =>
    rw [show startsWith Token.isIdentifier [] = false from rfl, Bool.and_false]
    exact .pure none hafter
  | case2 _ second later hsecond =>
    -- One word alone declares nothing
    rw [hstarts, (Bool.not_eq_true' _).mp hsecond, Bool.and_false]
    exact .pure none hafter
  | case3 hword second hsecond hconstant =>
    -- Behind `constant` and a type the code ends
    rw [hstarts, hword, Bool.true_and, if_pos (by simpa using hsecond), if_pos hconstant]
    refine .before (agrees_identifier hafter (by simpa using hsecond)) fun ahead hahead => ?_
    exact .before (mirrors_peekIs _ hahead) fun _ hnone => .pure none hnone
  | case4 hword second hsecond hconstant third more hthird =>
    -- Behind `constant` the third word is the name
    rw [hstarts, hword, Bool.true_and, if_pos (by simpa using hsecond), if_pos hconstant]
    refine .before (agrees_identifier hafter (by simpa using hsecond)) fun ahead hahead => ?_
    have hname := agrees_localNamed first second.token true hahead
    rwa [if_pos hthird] at hname
  | case5 hword second hsecond hconstant third more hthird =>
    -- What stands in place of the name is none
    rw [hstarts, hword, Bool.true_and, if_pos (by simpa using hsecond), if_pos hconstant]
    refine .before (agrees_identifier hafter (by simpa using hsecond)) fun ahead hahead => ?_
    have hname := agrees_localNamed first second.token true hahead
    rwa [if_neg hthird] at hname
  | case6 hword second later hsecond hconstant =>
    -- Without `constant` the second word is the name
    rw [hstarts, hword, Bool.true_and, if_pos (by simpa using hsecond), if_neg hconstant]
    have hname := agrees_localNamed first first.token false hafter
    rwa [if_pos (by simpa using hsecond)] at hname
  | case7 _ hword =>
    -- The first lexeme cannot start a declaration
    rw [Bool.eq_false_iff.2 hword]
    exact .pure none hafter

/-- At the start of a statement the comments are asked for. -/
theorem commentsAtStatement_eq (atStatement : Bool) (h : cursor.Ahead tokens bound lexemes)
    (hfresh : lexemes.length < bound) :
    ∃ comments after, ∃ least ≤ bound,
      ((if atStatement then Step.takeComments else pure []) : Step _) cursor =
        .ok (comments, after) ∧
      after.Ahead tokens least lexemes ∧
      (atStatement = true → ∀ lexeme ∈ lexemes.head?, comments = lexeme.comments) := by
  cases atStatement with
  | false => exact ⟨_, _, bound, Nat.le_refl _, rfl, h, nofun⟩
  | true =>
    obtain ⟨comments, after, htake, hafter, hcomments⟩ := takeComments_eq h
    exact ⟨comments, after, _, Nat.le_of_lt hfresh, htake, hafter, fun _ => hcomments hfresh⟩

/-- What is read of a body behind the variables that were found. The step counts the body itself,
`bodyFrom` only the braces inside of it. -/
def readBody (state : Step.BodyState) (lexemes : List Lexeme) :
    Reading (List LocalVariable × Position) :=
  onValue (fun body => (state.locals ++ body.locals, body.closing.stop))
    (bodyFrom (state.depth - 1) state.atStatement lexemes)

theorem mirrors_body : Mirrors Step.body fun lexemes =>
    onValue (fun body => (body.locals, body.closing.stop)) (body lexemes) := by
  intro tokens bound cursor lexemes h
  show Agrees tokens bound
    (onValue _ ((sign "\x7b" lexemes).bind fun read => bodyFrom 0 true read.2)) _
  rw [onValue_bind]
  refine (mirrors_expectSign "\x7b" h).bind fun _ rest after hsign hafter => ?_
  have hfresh : rest.length < bound :=
    Nat.lt_of_lt_of_le (consumes_sign _ _ _ _ hsign) h.length_le
  -- Inside of the body its own brace is open, so the count is never zero there
  refine agrees_loop_of readBody (fun state => 0 < state.depth)
    (fun again state cursor lexemes hdepth hmost h hagain => ?_) ⟨[], 1, true⟩ Nat.one_pos
    (Nat.le_refl _) hafter
  obtain ⟨locals, _ | depth, atStatement⟩ := state
  · cases hdepth
  obtain ⟨comments, asked, least, hleast, hasks, hasked, hcomments⟩ :=
    commentsAtStatement_eq atStatement h (Nat.lt_of_le_of_lt hmost hfresh)
  dsimp only
  rw [Checked.bind_of_eq hasks]
  cases lexemes with
  | nil =>
    show Agrees _ _ (onValue _ (bodyFrom depth atStatement [])) _
    rw [bodyFrom]
    exact Checked.bind_of_error (need_nil _ hasked) _
  | cons first rest =>
    obtain ⟨after, hneed, htaken, hstop⟩ := need_eq (.sign "\x7d") hasked
    have hafter := htaken.renew hasked.length_le hleast
    rw [Checked.bind_of_eq hneed]
    have hlater := fun later hgood => hagain later after rest hgood (Nat.lt_succ_self _) hafter
    show Agrees _ _ (onValue _ (bodyFrom depth atStatement (first :: rest))) _
    rw [bodyFrom.eq_def]
    simp only [onValue_ite]
    refine .ite (fun _ => hlater ⟨locals, depth + 2, true⟩ (Nat.succ_pos _)) fun _ => ?_
    refine .ite (fun _ => ?_) fun _ => ?_
    · cases depth with
      | zero =>
        -- The brace of the body: it was taken last, so the body ends where it does
        refine .ok ?_ hafter
        show Except.ok ((locals, after.lastStop), after) =
          .ok ((locals ++ [], first.token.stop), after)
        rw [hstop, List.append_nil]
      | succ depth => exact hlater ⟨locals, depth + 1, true⟩ (Nat.succ_pos _)
    refine .ite (fun _ => hlater ⟨locals, depth + 1, true⟩ (Nat.succ_pos _)) fun _ => ?_
    cases atStatement with
    | false =>
      refine .before (.pure none hafter) fun ahead hahead => ?_
      rw [show locals ++ (none : Option LocalVariable).toList = locals from List.append_nil _]
      exact hagain ⟨locals, depth + 1, false⟩ ahead rest (Nat.succ_pos _) (Nat.lt_succ_self _)
        hahead
    | true =>
      -- The comments that were asked for are those of the statement
      rw [hcomments rfl first rfl]
      refine .before (agrees_localVariable first hafter) fun ahead hahead => ?_
      have hbody := hagain ⟨locals ++ (localHead first rest).1.toList, depth + 1, false⟩ ahead _
        (Nat.succ_pos _) (by rw [List.length_drop, List.length_cons]; omega) hahead
      simp only [readBody, List.append_assoc] at hbody
      rw [if_pos rfl, onValue_do]
      exact hbody

/-! ### Functions and methods -/

theorem agrees_function (visibility : Visibility) (comments : List CommentLine)
    (h : cursor.Ahead tokens bound (lexeme :: rest)) :
    Agrees tokens bound (function visibility comments lexeme.token rest)
      (Step.function visibility comments cursor) := by
  refine .before (.need _ h) fun after hafter => ?_
  refine (mirrors_expectIdentifier .functionName hafter).bind fun name _ _ _ hname => ?_
  refine (mirrors_parameters hname).bind fun parameters _ _ _ hparameters => ?_
  refine (mirrors_result hparameters).bind fun returns _ _ _ hresult => ?_
  exact (mirrors_body hresult).bind_onValue fun body _ _ _ hbody => .pure _ hbody

/-- What is read of the name of an operator behind a part of it. -/
def readOperatorName (name : String) (lexemes : List Lexeme) : Reading String :=
  .ok (name ++ (operatorName lexemes).1, (operatorName lexemes).2)

theorem mirrors_operatorName : Mirrors Step.operatorName fun lexemes =>
    .ok (operatorName lexemes) := by
  intro tokens bound cursor lexemes h
  have hnone : (.ok (operatorName lexemes) : Reading String) = readOperatorName "" lexemes := by
    simp [readOperatorName]
  show Agrees tokens bound (.ok (operatorName lexemes)) _
  rw [hnone]
  refine agrees_loop readOperatorName (fun again name cursor lexemes h hagain => ?_) "" h
  refine .before (mirrors_peek h) fun ahead hahead => ?_
  cases lexemes with
  | nil => simpa [readOperatorName, operatorName] using Agrees.pure name hahead
  | cons lexeme rest =>
    have hround : readOperatorName name (lexeme :: rest) =
        if lexeme.token.isOperator "(" then .ok (name, lexeme :: rest)
        else readOperatorName (name ++ lexeme.token.text) rest := by
      simp only [readOperatorName, operatorName]
      split <;> simp [String.append_assoc]
    rw [hround]
    refine .ite (fun _ => .pure name hahead) fun _ => ?_
    exact .before (.advance hahead) fun after hafter =>
      hagain _ after rest (Nat.lt_succ_self _) hafter

theorem mirrors_methodName : Mirrors Step.methodName methodName := by
  intro tokens bound cursor lexemes h
  refine .before (mirrors_eatKeyword ["operator"] h) fun after hafter => ?_
  rw [methodName]
  generalize acceptKeyword ["operator"] lexemes = accepted at hafter ⊢
  obtain ⟨_ | _, rest⟩ := accepted
  · exact (mirrors_expectIdentifier .methodName hafter).bind fun _ _ _ _ hname => .pure _ hname
  · exact mirrors_operatorName hafter

theorem mirrors_bodyOrSemicolon : Mirrors Step.bodyOrSemicolon fun lexemes =>
    onValue (fun body => (body.locals, body.closing.stop)) (bodyOrSemicolon lexemes) := by
  intro tokens bound cursor lexemes h
  cases lexemes with
  | nil => exact .before (mirrors_eatSign ";" h) fun _ hafter => mirrors_body hafter
  | cons lexeme rest =>
    show Agrees _ _ (onValue _ (bodyOrSemicolon (lexeme :: rest))) _
    rw [bodyOrSemicolon, onValue_ite]
    by_cases hsemicolon : lexeme.token.isOperator ";" = true
    · obtain ⟨after, heat, hafter, hstop⟩ := eat_eq (p := (·.isOperator ";")) h hsemicolon
      rw [if_pos hsemicolon, Step.bodyOrSemicolon, Checked.bind_of_eq heat]
      refine .ok ?_ hafter
      show Except.ok (([], after.lastStop), after) = .ok (([], lexeme.token.stop), after)
      rw [hstop]
    · rw [if_neg hsemicolon]
      refine .before (mirrors_eatSign ";" h) fun after hafter => ?_
      have hno : startsWithSign ";" (lexeme :: rest) = false := Bool.eq_false_iff.2 hsemicolon
      rw [acceptSign, hno] at hafter
      rw [hno]
      exact mirrors_body hafter

theorem agrees_method (visibility : Visibility) (binding : Binding) (comments : List CommentLine)
    (h : cursor.Ahead tokens bound (lexeme :: rest)) :
    Agrees tokens bound (method visibility binding comments lexeme.token rest)
      (Step.method visibility binding comments cursor) := by
  refine .before (.need _ h) fun after hafter => ?_
  refine (mirrors_methodName hafter).bind fun name _ _ _ hname => ?_
  refine (mirrors_parameters hname).bind fun parameters _ _ _ hparameters => ?_
  refine (mirrors_result hparameters).bind fun returns _ _ _ hresult => ?_
  exact (mirrors_bodyOrSemicolon hresult).bind_onValue fun body _ _ _ hbody => .pure _ hbody

end JassOutline.Zinc
