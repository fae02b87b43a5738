import JassOutline.Proofs.Zinc.Cursor
import JassOutline.Proofs.Zinc.Loop
import JassOutline.Zinc.Variable

/-!
# Groups, values and variables by a cursor

Here the steps count open brackets from one on and take the closing ones off again, and they look
at a token before they take it. Each step mirrors the reader of its name.

## Key results

- `mirrors_skipGroup`, `mirrors_skipExpression`, `mirrors_skipDeclaration`: counts of brackets
- `mirrors_commaSeparated`: lists with commas
- `mirrors_variableDeclaration`: declarations of variables
-/

namespace JassOutline.Zinc

namespace Step

/-! ### Steps over what declares nothing -/

/-- Takes a group through the sign that closes it. -/
def skipGroup (opening closing : String) : Step Unit := do
  let _ ← expectSign opening
  loop (fun again (depth : Nat) => do
    if depth = 0 then return ()
    else
      let token ← need (.sign closing)
      if token.isOperator opening then again (depth + 1)
      else if token.isOperator closing then again (← ofChecked (Fault.lower depth))
      else again depth) 1

/-- Takes a group in square brackets, if there is one, and tells whether there was. -/
def skipSize : Step Bool := do
  if ← peekIs (·.isOperator "[") then
    skipGroup "[" "]"
    return true
  else return false

/-- Takes all tokens up to the first comma or semicolon outside of brackets. -/
def skipExpression : Step Unit :=
  loop (fun again (depth : Nat) => do
    match ← peek with
    | none => fail (.endOfCode (.sign ";"))
    | some token =>
      if depth = 0 ∧ token.isOperatorOf [",", ";"] then return ()
      else
        let depth ←
          if token.isOperatorOf openingSigns then pure (depth + 1)
          else if token.isOperatorOf closingSigns then
            if depth = 0 then fail (.unexpected token (.sign ";"))
            else ofChecked (Fault.lower depth)
          else pure depth
        let _ ← advance
        again depth) 0

/-- Takes an equals sign and the expression behind it, if there is one. -/
def skipValue : Step Unit := do
  if ← eat (·.isOperator "=") then skipExpression

/-- Takes all tokens through the end of a declaration, or up to the brace that closes what is around
it. -/
def skipDeclaration : Step Unit :=
  loop (fun again (depth : Nat) => do
    match ← peek with
    | none => fail (.endOfCode (.sign ";"))
    | some token =>
      if depth = 0 ∧ token.isOperator "\x7d" then return ()
      else
        let _ ← advance
        if token.isOperatorOf openingSigns then again (depth + 1)
        else if token.isOperatorOf closingSigns then
          if depth - 1 = 0 ∧ token.isOperator "\x7d" then
            let _ ← eat (·.isOperator ";")
            return ()
          else again (depth - 1)
        else if depth = 0 ∧ token.isOperator ";" then return ()
        else again depth) 0

/-! ### Steps over variables -/

/-- Takes items with commas between them. -/
def commaSeparated (item : Step α) : Step (List α) :=
  loop (fun again found => do
    let found := found ++ [← item]
    if ← eat (·.isOperator ",") then again found else return found) []

/-- Takes a name with its size and its value. -/
def variableNamed (shared : VariableType) : Step Variable := do
  let name ← expectIdentifier .variableName
  let hasSize ← skipSize
  skipValue
  return .ofName shared name hasSize

/-- Takes what the variables of a declaration share. -/
def variableType : Step VariableType := do
  let isConstant ← eat (·.isKeywordOf ["constant"])
  let type ← expectIdentifier .typeName
  let isArray ← eat (·.isKeywordOf ["array"])
  return ⟨isConstant, type, isArray⟩

/-- Takes a declaration of variables. -/
def variableDeclaration : Step (List Variable) := do
  let shared ← variableType
  let declared ← commaSeparated (variableNamed shared)
  let _ ← expectSign ";"
  return declared

end Step

/-! ### Groups -/

/-- Reads on until no bracket is open. The step counts the group itself, `closeGroup` only the
brackets inside of it. -/
def leaveGroup (opening closing : String) : Nat → List Lexeme → Reading Unit
  | 0 => fun lexemes => .ok ((), lexemes)
  | depth + 1 => closeGroup opening closing depth

theorem mirrors_skipGroup (opening closing : String) :
    Mirrors (Step.skipGroup opening closing) fun lexemes =>
      (sign opening lexemes).bind fun read => closeGroup opening closing 0 read.2 := by
  intro tokens bound cursor lexemes h
  refine (mirrors_expectSign opening h).bind fun _ rest after _ hafter => ?_
  refine agrees_loop (leaveGroup opening closing) (fun again depth cursor lexemes h hagain => ?_) 1
    hafter
  cases depth with
  | zero => exact .pure () h
  | succ depth =>
    rw [if_neg (Nat.succ_ne_zero depth)]
    cases lexemes with
    | nil => exact Checked.bind_of_error (need_nil _ h) _
    | cons lexeme rest =>
      refine .before (.need _ h) fun after hafter => ?_
      have hlater := fun depth => hagain depth after rest (Nat.lt_succ_self _) hafter
      show Agrees tokens bound (closeGroup opening closing depth (lexeme :: rest)) _
      rw [closeGroup.eq_def]
      dsimp only
      refine .ite (fun _ => hlater (depth + 2)) fun _ =>
        .ite (fun _ => ?_) fun _ => hlater (depth + 1)
      cases depth with
      | zero => exact hlater 0
      | succ depth => exact hlater (depth + 1)

theorem mirrors_skipSize : Mirrors Step.skipSize skipSize := by
  intro tokens bound cursor lexemes h
  refine .before (mirrors_peekIs _ h) fun after hafter => ?_
  rw [skipSize, startsWithSign_eq]
  refine .ite (fun hstarts => ?_) fun _ => .pure false hafter
  have hgroup := mirrors_skipGroup "[" "]" hafter
  cases lexemes with
  | nil => cases hstarts
  | cons lexeme rest =>
    have hsign : sign "[" (lexeme :: rest) = .ok (lexeme.token, rest) := if_pos hstarts
    dsimp only at hgroup
    rw [hsign] at hgroup
    exact hgroup.bind fun _ _ _ _ hclosed => .pure true hclosed

/-! ### Values and declarations without a place -/

theorem mirrors_skipExpression : Mirrors Step.skipExpression (skipExpression 0) := by
  intro tokens bound cursor lexemes h
  refine agrees_loop skipExpression (fun again depth cursor lexemes h hagain => ?_) 0 h
  refine .before (mirrors_peek h) fun after hafter => ?_
  cases lexemes with
  | nil => rfl
  | cons lexeme rest =>
    rw [skipExpression.eq_def]
    dsimp only [List.head?_cons, Option.map_some]
    refine .ite (fun _ => .pure () hafter) fun _ => ?_
    have hlater : ∀ depth, Agrees tokens bound (skipExpression depth rest)
        ((Step.advance >>= fun _ => again depth) after) := fun depth =>
      .before (.advance hafter) fun ahead hahead =>
        hagain depth ahead rest (Nat.lt_succ_self _) hahead
    refine .ite (fun _ => hlater (depth + 1)) fun _ => .ite (fun _ => ?_) fun _ => hlater depth
    cases depth with
    | zero => rfl
    | succ depth => exact hlater depth

theorem mirrors_skipValue : Mirrors Step.skipValue skipValue := fun _ _ _ _ h =>
  .eatSign h (fun _ _ hvalue => mirrors_skipExpression hvalue) fun _ hafter => .pure () hafter

theorem mirrors_skipDeclaration : Mirrors Step.skipDeclaration (skipDeclaration 0) := by
  intro tokens bound cursor lexemes h
  refine agrees_loop skipDeclaration (fun again depth cursor lexemes h hagain => ?_) 0 h
  refine .before (mirrors_peek h) fun ahead hahead => ?_
  cases lexemes with
  | nil => rfl
  | cons lexeme rest =>
    rw [skipDeclaration]
    dsimp only [List.head?_cons, Option.map_some]
    refine .ite (fun _ => .pure () hahead) fun _ => ?_
    refine .before (.advance hahead) fun after hafter => ?_
    have hlater := fun depth => hagain depth after rest (Nat.lt_succ_self _) hafter
    refine .ite (fun _ => hlater (depth + 1)) fun _ => .ite (fun _ => ?_) fun _ => ?_
    · -- The step lowers its count before it looks at it
      have hdepth : depth ≤ 1 ↔ depth - 1 = 0 := by omega
      simp only [hdepth]
      refine .ite (fun _ => ?_) fun _ => hlater (depth - 1)
      exact .before (mirrors_eatSign ";" hafter) fun _ hsemicolon => .pure () hsemicolon
    · exact .ite (fun _ => .pure () hafter) fun _ => hlater depth

/-! ### Lists and variables -/

/-- Items with commas between them, behind others. -/
theorem readBehind_commaSeparated {reader : List Lexeme → Reading α} (hreader : Consumes reader)
    (found : List α) (lexemes : List Lexeme) :
    readBehind (commaSeparated reader hreader) found lexemes =
      (reader lexemes).bind fun first =>
        if startsWithSign "," first.2 then
          readBehind (commaSeparated reader hreader) (found ++ [first.1]) first.2.tail
        else .ok (found ++ [first.1], first.2) := by
  rw [readBehind, commaSeparated_eq_bind, onValue_bind]
  congr 1
  funext first
  split
  · exact onValue_append_cons ..
  · rfl

theorem mirrors_commaSeparated {item : Step α} {reader : List Lexeme → Reading α}
    (hreader : Consumes reader) (hitem : Mirrors item reader) :
    Mirrors (Step.commaSeparated item) (commaSeparated reader hreader) := by
  intro tokens bound cursor lexemes h
  rw [← readBehind_nil (commaSeparated reader hreader)]
  refine agrees_loop (readBehind _) (fun again found cursor lexemes h hagain => ?_) [] h
  rw [readBehind_commaSeparated]
  refine (hitem h).bind fun value rest after hread hafter => ?_
  refine .eatSign hafter (fun ahead _ hahead => hagain _ ahead _ ?_ hahead) fun _ hahead =>
    .pure _ hahead
  have := hreader _ _ _ hread
  show rest.tail.length < lexemes.length
  rw [List.length_tail]
  omega

theorem mirrors_variableNamed (shared : VariableType) :
    Mirrors (Step.variableNamed shared) (variableNamed shared) := fun _ _ _ _ h =>
  (mirrors_expectIdentifier .variableName h).bind fun _ _ _ _ hname =>
    (mirrors_skipSize hname).bind fun _ _ _ _ hsize =>
      (mirrors_skipValue hsize).bind fun _ _ _ _ hvalue => .pure _ hvalue

theorem mirrors_variableType : Mirrors Step.variableType variableType := fun _ _ _ _ h =>
  .before (mirrors_eatKeyword ["constant"] h) fun _ hconstant =>
    (mirrors_expectIdentifier .typeName hconstant).bind fun _ _ _ _ htype =>
      .before (mirrors_eatKeyword ["array"] htype) fun _ harray => .pure _ harray

theorem mirrors_variableDeclaration : Mirrors Step.variableDeclaration variableDeclaration :=
  fun _ _ _ _ h =>
    (mirrors_variableType h).bind fun shared _ _ _ htype =>
      (mirrors_commaSeparated _ (mirrors_variableNamed shared) htype).bind fun _ _ _ _ hnames =>
        (mirrors_expectSign ";" hnames).bind fun _ _ _ _ hsign => .pure _ hsign

end JassOutline.Zinc
