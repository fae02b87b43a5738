import JassOutline.Declaration
import JassOutline.Token

/-!
# Lexemes of the zinc dialect

Comments may stand between any two tokens. A `Lexeme` is a token other than a comment, together
with the comments directly before it, so that the grammar never meets a comment.

Bridge lemmas: `token_ofTokens` says that the tokens of the lexemes are the tokens that are no
comments.
-/

namespace JassOutline.Zinc

/-- A token and the comments directly before it. -/
structure Lexeme where
  token : Token
  comments : List CommentLine
  deriving DecidableEq, Repr, Inhabited

namespace Lexeme

/-- A comment token as a comment line. -/
def commentOf (token : Token) : CommentLine :=
  ⟨token.text, token.region⟩

/-- The lexemes of the tokens that follow the given comments. -/
def ofTokensAfter (comments : List CommentLine) : List Token → List Lexeme
  | [] => []
  | token :: rest =>
    if token.isComment then ofTokensAfter (comments ++ [commentOf token]) rest
    else ⟨token, comments⟩ :: ofTokensAfter [] rest

/-- The lexemes of a token list. Comments behind the last token are left out. -/
def ofTokens (tokens : List Token) : List Lexeme :=
  ofTokensAfter [] tokens

theorem token_ofTokensAfter (comments : List CommentLine) (tokens : List Token) :
    (ofTokensAfter comments tokens).map token = tokens.filter (!·.isComment) := by
  induction tokens generalizing comments with
  | nil => rfl
  | cons token rest ih =>
    rw [ofTokensAfter, List.filter_cons]
    cases token.isComment <;> simp [ih]

theorem token_ofTokens (tokens : List Token) :
    (ofTokens tokens).map token = tokens.filter (!·.isComment) :=
  token_ofTokensAfter [] tokens

end Lexeme

end JassOutline.Zinc
