import JassOutline.Zinc.Reading

/-!
# Skipping what declares nothing

Array sizes, initial values and declarations without a place in a program are read over by
counting brackets.

Bridge lemmas: one for each reader, that says how many lexemes it leaves.
-/

namespace JassOutline.Zinc

/-- The signs that open a group. -/
def openingSigns : List String := ["(", "[", "\x7b"]

/-- The signs that close a group. -/
def closingSigns : List String := [")", "]", "\x7d"]

/-- Reads from inside a group through the sign that closes it. `depth` counts the groups of the
same signs that are open inside of it. -/
def closeGroup (opening closing : String) (depth : Nat) : List Lexeme → Reading Unit
  | [] => .error (.endOfCode (.sign closing))
  | lexeme :: rest =>
    if lexeme.token.isOperator opening then closeGroup opening closing (depth + 1) rest
    else if lexeme.token.isOperator closing then
      match depth with
      | 0 => .ok ((), rest)
      | depth + 1 => closeGroup opening closing depth rest
    else closeGroup opening closing depth rest

/-- Reads over a group in square brackets, if there is one, and tells whether there was. -/
def skipSize (lexemes : List Lexeme) : Except ZincError (Bool × List Lexeme) :=
  if startsWithSign "[" lexemes then do
    let (_, rest) ← closeGroup "[" "]" 0 lexemes.tail
    .ok (true, rest)
  else .ok (false, lexemes)

/-- Reads up to the first comma or semicolon outside of brackets. -/
def skipExpression (depth : Nat) : List Lexeme → Reading Unit
  | [] => .error (.endOfCode (.sign ";"))
  | lexeme :: rest =>
    if depth = 0 ∧ lexeme.token.isOperatorOf [",", ";"] then .ok ((), lexeme :: rest)
    else if lexeme.token.isOperatorOf openingSigns then skipExpression (depth + 1) rest
    else if lexeme.token.isOperatorOf closingSigns then
      match depth with
      | 0 => .error (.unexpected lexeme.token (.sign ";"))
      | depth + 1 => skipExpression depth rest
    else skipExpression depth rest

/-- Reads over an equals sign and the expression behind it, if there is one. -/
def skipValue (lexemes : List Lexeme) : Reading Unit :=
  if startsWithSign "=" lexemes then skipExpression 0 lexemes.tail else .ok ((), lexemes)

/-- Reads through the end of a declaration: its semicolon, or its braces with a semicolon after
them, whichever comes first outside of brackets. A brace that closes what is around the
declaration ends it too and is left. -/
def skipDeclaration (depth : Nat) : List Lexeme → Reading Unit
  | [] => .error (.endOfCode (.sign ";"))
  | lexeme :: rest =>
    if depth = 0 ∧ lexeme.token.isOperator "\x7d" then .ok ((), lexeme :: rest)
    else if lexeme.token.isOperatorOf openingSigns then skipDeclaration (depth + 1) rest
    else if lexeme.token.isOperatorOf closingSigns then
      -- The brace of the declaration ends it, any other closing sign ends its own group
      if depth ≤ 1 ∧ lexeme.token.isOperator "\x7d" then .ok ((), acceptSign ";" rest)
      else skipDeclaration (depth - 1) rest
    else if depth = 0 ∧ lexeme.token.isOperator ";" then .ok ((), rest)
    else skipDeclaration depth rest

theorem consumes_closeGroup (opening closing : String) (depth : Nat) :
    Consumes (closeGroup opening closing depth) := by
  intro lexemes
  fun_induction closeGroup opening closing depth lexemes with
  | case1 => exact .error
  | case2 _ _ _ _ ih => exact ih.mono (by simp)
  | case3 => exact .ok (by simp)
  | case4 _ _ _ _ _ ih => exact ih.mono (by simp)
  | case5 _ _ _ _ _ ih => exact ih.mono (by simp)

theorem leaves_skipSize (lexemes : List Lexeme) :
    Leaves (lexemes.length + 1) (skipSize lexemes) := by
  unfold skipSize
  split
  · refine Leaves.bind (consumes_closeGroup _ _ _ _) fun _ _ hrest => .ok ?_
    simp only [List.length_tail] at hrest
    omega
  · exact .ok (by simp)

theorem leaves_skipExpression (depth : Nat) (lexemes : List Lexeme) :
    Leaves (lexemes.length + 1) (skipExpression depth lexemes) := by
  fun_induction skipExpression depth lexemes with
  | case1 => exact .error
  | case2 => exact .ok (by simp)
  | case3 _ _ _ _ _ ih => exact ih.mono (by simp)
  | case4 => exact .error
  | case5 _ _ _ _ _ _ ih => exact ih.mono (by simp)
  | case6 _ _ _ _ _ _ ih => exact ih.mono (by simp)

theorem leaves_skipValue (lexemes : List Lexeme) :
    Leaves (lexemes.length + 1) (skipValue lexemes) := by
  unfold skipValue
  split
  · exact (leaves_skipExpression 0 _).mono (by simp)
  · exact .ok (by simp)

theorem leaves_skipDeclaration (depth : Nat) (lexemes : List Lexeme) :
    Leaves (lexemes.length + 1) (skipDeclaration depth lexemes) := by
  fun_induction skipDeclaration depth lexemes with
  | case1 => exact .error
  | case2 => exact .ok (by simp)
  | case3 _ _ _ _ _ ih => exact ih.mono (by simp)
  | case4 _ _ rest =>
    exact .ok (Nat.lt_succ_of_lt (Nat.lt_succ_of_le (length_acceptSign_le ";" rest)))
  | case5 _ _ _ _ _ _ _ ih => exact ih.mono (by simp)
  | case6 => exact .ok (by simp only [List.length_cons]; omega)
  | case7 _ _ _ _ _ _ _ ih => exact ih.mono (by simp)

/-- A declaration that does not start with a closing brace is at least one lexeme long. -/
theorem leaves_skipDeclaration_cons {lexeme : Lexeme}
    (hword : lexeme.token.isOperator "\x7d" = false) (lexemes : List Lexeme) :
    Leaves (lexemes.length + 1) (skipDeclaration 0 (lexeme :: lexemes)) := by
  rw [skipDeclaration]
  simp only [hword, Bool.false_eq_true, and_false, if_false]
  split
  · exact leaves_skipDeclaration _ _
  · split
    · exact leaves_skipDeclaration _ _
    · split
      · exact .ok (by simp)
      · exact leaves_skipDeclaration _ _

end JassOutline.Zinc
