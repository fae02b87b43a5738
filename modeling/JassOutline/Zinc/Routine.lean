import JassOutline.Zinc.Body
import JassOutline.Zinc.Variable

/-!
# Functions and methods of the zinc dialect

`function NAME(TYPE NAME, TYPE NAME) -> TYPE { … }` declares a function. A method may be an
operator, whose name is made of several tokens, and may have a semicolon in place of its body.

Bridge lemmas: `consumes_function`, `consumes_method`.
-/

namespace JassOutline.Zinc

/-! ### Parameters and results -/

/-- Reads the parameters from behind the opening parenthesis through the closing one, where there
is at least one. The word `nothing` before the closing parenthesis is none. -/
def parametersFrom : List Lexeme → Except ZincError (List Parameter × List Lexeme)
  | [] => .error (.endOfCode .parameterType)
  | type :: rest =>
    if !type.token.isIdentifier then .error (.unexpected type.token .parameterType)
    else if type.token.isKeyword "nothing" && startsWithSign ")" rest then .ok ([], rest.tail)
    else
      match rest with
      | [] => .error (.endOfCode .parameterName)
      | [name] =>
        if name.token.isIdentifier then .error (.endOfCode (.sign ")"))
        else .error (.unexpected name.token .parameterName)
      | name :: separator :: rest =>
        if !name.token.isIdentifier then .error (.unexpected name.token .parameterName)
        else
          let parameter : Parameter :=
            ⟨type.token.text, some name.token.text, ⟨type.token.start, name.token.stop⟩⟩
          if separator.token.isOperator "," then do
            let (parameters, rest) ← parametersFrom rest
            .ok (parameter :: parameters, rest)
          else if separator.token.isOperator ")" then .ok ([parameter], rest)
          else .error (.unexpected separator.token (.sign ")"))

/-- Reads a parameter list with its parentheses. -/
def parameters (lexemes : List Lexeme) : Except ZincError (List Parameter × List Lexeme) := do
  let (_, rest) ← sign "(" lexemes
  if startsWithSign ")" rest then .ok ([], rest.tail) else parametersFrom rest

/-- Reads an arrow and a type, if there is an arrow. -/
def result (lexemes : List Lexeme) : Except ZincError (Option String × List Lexeme) :=
  if startsWithSign "->" lexemes then do
    let (type, rest) ← identifier .returnType lexemes.tail
    .ok (some type.text, rest)
  else .ok (none, lexemes)

theorem consumes_parametersFrom : Consumes parametersFrom := by
  intro lexemes
  fun_induction parametersFrom lexemes with
  | case1 => exact .error
  | case2 => exact .error
  | case3 => exact .ok (by simp only [List.length_tail, List.length_cons]; omega)
  | case4 => exact .error
  | case5 => exact .error
  | case6 => exact .error
  | case7 => exact .error
  | case8 _ _ _ _ _ _ _ _ _ ih =>
    refine Leaves.bind ih fun _ _ hrest => .ok ?_
    simp only [List.length_cons]
    omega
  | case9 => exact .ok (by simp only [List.length_cons]; omega)
  | case10 => exact .error

theorem consumes_parameters : Consumes parameters := by
  intro lexemes
  refine Leaves.bind (consumes_sign _ _) fun _ rest hsign => ?_
  dsimp only
  split
  · exact .ok (by simp only [List.length_tail]; omega)
  · exact (consumes_parametersFrom _).mono (Nat.le_of_lt hsign)

theorem leaves_result (lexemes : List Lexeme) :
    Leaves (lexemes.length + 1) (result lexemes) := by
  unfold result
  split
  · refine Leaves.bind (consumes_identifier _ _) fun _ _ hrest => .ok ?_
    simp only [List.length_tail] at hrest
    omega
  · exact .ok (by simp)

/-! ### Functions -/

/-- Reads a function, from its keyword on. -/
def function (visibility : Visibility) (comments : List CommentLine) (keyword : Token)
    (lexemes : List Lexeme) : Except ZincError (Function × List Lexeme) := do
  let (name, rest) ← identifier .functionName lexemes
  let (parameters, rest) ← parameters rest
  let (returns, rest) ← result rest
  let (body, rest) ← body rest
  .ok ({ name := some name.text
         comments
         region := ⟨keyword.start, body.closing.stop⟩
         visibility
         isConstant := false
         parameters
         returns
         locals := body.locals
         globals := [] }, rest)

theorem consumes_function (visibility : Visibility) (comments : List CommentLine)
    (keyword : Token) : Consumes (function visibility comments keyword) := by
  intro lexemes
  refine Leaves.bind (consumes_identifier _ _) fun _ _ hname => ?_
  refine Leaves.bind (consumes_parameters _) fun _ _ hparameters => ?_
  refine Leaves.bind (leaves_result _) fun _ _ hresult => ?_
  refine Leaves.bind (consumes_body _) fun _ _ hbody => .ok ?_
  omega

/-! ### Methods -/

/-- Reads the name of an operator: the texts of all tokens up to a parenthesis. -/
def operatorName : List Lexeme → String × List Lexeme
  | [] => ("", [])
  | lexeme :: rest =>
    if lexeme.token.isOperator "(" then ("", lexeme :: rest)
    else
      let (name, rest) := operatorName rest
      (lexeme.token.text ++ name, rest)

/-- Reads the name of a method or of an operator. -/
def methodName (lexemes : List Lexeme) : Except ZincError (String × List Lexeme) :=
  match acceptKeyword ["operator"] lexemes with
  | (true, rest) => .ok (operatorName rest)
  | (false, rest) => do
    let (name, rest) ← identifier .methodName rest
    .ok (name.text, rest)

/-- Reads a body, or the semicolon in its place. -/
def bodyOrSemicolon (lexemes : List Lexeme) : Except ZincError (Body × List Lexeme) :=
  match lexemes with
  | [] => body []
  | lexeme :: rest =>
    if lexeme.token.isOperator ";" then .ok (⟨[], lexeme.token⟩, rest) else body (lexeme :: rest)

/-- Reads a method, from its keyword on. -/
def method (visibility : Visibility) (binding : Binding) (comments : List CommentLine)
    (keyword : Token) (lexemes : List Lexeme) : Except ZincError (Method × List Lexeme) := do
  let (name, rest) ← methodName lexemes
  let (parameters, rest) ← parameters rest
  let (returns, rest) ← result rest
  let (body, rest) ← bodyOrSemicolon rest
  .ok ({ name := some name
         comments
         region := ⟨keyword.start, body.closing.stop⟩
         visibility
         binding
         parameters
         returns
         locals := body.locals
         globals := [] }, rest)

theorem length_operatorName_le (lexemes : List Lexeme) :
    (operatorName lexemes).2.length ≤ lexemes.length := by
  induction lexemes with
  | nil => simp [operatorName]
  | cons lexeme rest ih =>
    rw [operatorName]
    split
    · simp
    · exact Nat.le_succ_of_le ih

theorem leaves_methodName (lexemes : List Lexeme) :
    Leaves (lexemes.length + 1) (methodName lexemes) := by
  have hle := length_acceptKeyword_le ["operator"] lexemes
  unfold methodName
  split
  · next rest hrest =>
    rw [hrest] at hle
    have := length_operatorName_le rest
    intro _ _ h
    simp only [Except.ok.injEq] at h
    rw [h] at this
    exact Nat.lt_succ_of_le (Nat.le_trans this hle)
  · next rest hrest =>
    rw [hrest] at hle
    refine Leaves.bind (consumes_identifier _ _) fun _ _ hname => .ok ?_
    exact Nat.lt_succ_of_lt (Nat.lt_of_lt_of_le hname hle)

theorem consumes_bodyOrSemicolon : Consumes bodyOrSemicolon := by
  intro lexemes
  unfold bodyOrSemicolon
  split
  · exact consumes_body _
  · split
    · exact .ok (by simp)
    · exact consumes_body _

theorem consumes_method (visibility : Visibility) (binding : Binding)
    (comments : List CommentLine) (keyword : Token) :
    Consumes (method visibility binding comments keyword) := by
  intro lexemes
  refine Leaves.bind (leaves_methodName _) fun _ _ hname => ?_
  refine Leaves.bind (consumes_parameters _) fun _ _ hparameters => ?_
  refine Leaves.bind (leaves_result _) fun _ _ hresult => ?_
  refine Leaves.bind (consumes_bodyOrSemicolon _) fun _ _ hbody => .ok ?_
  omega

end JassOutline.Zinc
