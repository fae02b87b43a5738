import JassOutline.Zinc.Reading

/-!
# Bodies of the zinc dialect

A body reaches from a brace to the brace that matches it. Of its statements, those that declare a
local variable are kept: `TYPE NAME …` or `constant TYPE NAME …` at the start of a statement.

Bridge lemma: `consumes_body`.
-/

namespace JassOutline.Zinc

/-- The words that start a statement which declares no variable. -/
def statementKeywords : List String :=
  ["if", "else", "while", "whilenot", "for", "do", "return", "break", "debug", "static", "method",
    "function"]

/-- The local variables of a body and the brace that closes it. -/
structure Body where
  locals : List LocalVariable
  closing : Token
  deriving DecidableEq, Repr

/-- The local variable with the given type and name. The lexemes behind the name tell whether it is
an array. -/
def localOf (first : Lexeme) (isConstant : Bool) (type name : Token) (rest : List Lexeme) :
    LocalVariable :=
  { name := some name.text
    comments := first.comments
    region := ⟨first.token.start, name.stop⟩
    isConstant
    type := some type.text
    isArray := startsWithSign "[" rest }

/-- The local variable that a statement declares if it starts with the given lexeme, and how many
of the lexemes behind the first are read to find out. -/
def localHead (first : Lexeme) (rest : List Lexeme) : Option LocalVariable × Nat :=
  if first.token.isIdentifier && !statementKeywords.contains first.token.text then
    match rest with
    | [] => (none, 0)
    | second :: later =>
      if !second.token.isIdentifier then (none, 0)
      else if first.token.isKeyword "constant" then
        match later with
        | [] => (none, 1)
        | third :: more =>
          if third.token.isIdentifier then
            (some (localOf first true second.token third.token more), 2)
          else (none, 1)
      else (some (localOf first false first.token second.token later), 1)
  else (none, 0)

/-- Reads from inside a body through the brace that closes it. `depth` counts the braces that are
open inside of it, and the flag tells whether a statement starts. -/
def bodyFrom (depth : Nat) (atStatement : Bool) (lexemes : List Lexeme) :
    Except ZincError (Body × List Lexeme) :=
  match lexemes with
  | [] => .error (.endOfCode (.sign "\x7d"))
  | lexeme :: rest =>
    if lexeme.token.isOperator "\x7b" then bodyFrom (depth + 1) true rest
    else if lexeme.token.isOperator "\x7d" then
      match depth with
      | 0 => .ok (⟨[], lexeme.token⟩, rest)
      | depth + 1 => bodyFrom depth true rest
    else if lexeme.token.isOperator ";" then bodyFrom depth true rest
    -- Only the first word of a statement tells whether it declares a variable
    else if atStatement then do
      let (declared, size) := localHead lexeme rest
      let (body, rest) ← bodyFrom depth false (rest.drop size)
      .ok (⟨declared.toList ++ body.locals, body.closing⟩, rest)
    else bodyFrom depth false rest
termination_by lexemes.length
decreasing_by
  all_goals
    simp only [List.length_cons, List.length_drop]
    omega

/-- Reads a body. -/
def body (lexemes : List Lexeme) : Except ZincError (Body × List Lexeme) := do
  let (_, rest) ← sign "\x7b" lexemes
  bodyFrom 0 true rest

theorem consumes_bodyFrom (depth : Nat) (atStatement : Bool) :
    Consumes (bodyFrom depth atStatement) := by
  intro lexemes
  fun_induction bodyFrom depth atStatement lexemes with
  | case1 => exact .error
  | case2 _ _ _ _ _ ih => exact ih.mono (by simp)
  | case3 => exact .ok (by simp)
  | case4 _ _ _ _ _ _ ih => exact ih.mono (by simp)
  | case5 _ _ _ _ _ _ _ ih => exact ih.mono (by simp)
  | case6 _ _ _ _ _ _ _ _ _ ih =>
    refine Leaves.bind ih fun _ _ hrest => .ok ?_
    simp only [List.length_drop, List.length_cons] at *
    omega
  | case7 _ _ _ _ _ _ _ _ ih => exact ih.mono (by simp)

theorem consumes_body : Consumes body := by
  intro lexemes
  refine Leaves.bind (consumes_sign _ _) fun _ _ hsign => ?_
  exact (consumes_bodyFrom 0 true _).mono (Nat.le_of_lt hsign)

end JassOutline.Zinc
