import JassOutline.Proofs.Zinc.Edit.Grammar

/-!
# Zinc programs without comments

A token list declares the same with and without its comments, wherever they stand. To take the
comments away is an edit of the lexemes that puts nothing behind them.

## Key results

- `parse_of_apply`: an edit that puts nothing behind the lexemes, seen from the tokens
- `parse_filter_comments`: without its comment tokens, a text declares the same program without
  comments, or fails with the same error
-/

namespace JassOutline.Zinc

/-- Takes all comments away. -/
def Edit.uncomment : Edit where
  comments _ := []
  comments_nil := rfl
  behind := []

theorem ofTokensAfter_filter (comments : List CommentLine) (tokens : List Token) :
    Lexeme.ofTokensAfter [] (tokens.filter (!·.isComment)) =
      (Lexeme.ofTokensAfter comments tokens).map Edit.uncomment.lexeme := by
  induction tokens generalizing comments with
  | nil => rfl
  | cons token rest ih =>
    rw [List.filter_cons, Lexeme.ofTokensAfter]
    cases hcomment : token.isComment with
    | true => simpa using ih (comments ++ [Lexeme.commentOf token])
    | false => simp [Lexeme.ofTokensAfter, hcomment, ih [], Edit.lexeme, Edit.uncomment]

theorem ofTokens_filter (tokens : List Token) :
    Lexeme.ofTokens (tokens.filter (!·.isComment)) =
      Edit.uncomment.apply (Lexeme.ofTokens tokens) := by
  rw [Lexeme.ofTokens, ofTokensAfter_filter []]
  exact (List.append_nil _).symm

/-- Tokens whose lexemes are edited, with nothing put behind them, declare the same with the
comments edited, or fail with the same error. -/
theorem parse_of_apply {edit : Edit} (hbehind : edit.behind = []) {tokens tokens' : List Token}
    (htokens : Lexeme.ofTokens tokens' = edit.apply (Lexeme.ofTokens tokens)) :
    parse tokens' = (parse tokens).map (Program.mapComments edit.comments) := by
  have h := declarations_apply edit (Lexeme.ofTokens tokens)
  rw [parse, parse, htokens]
  cases hread : declarations (Lexeme.ofTokens tokens) with
  | ok declared =>
    rw [hread] at h
    have hnothing : declarations edit.behind = .ok .none := by
      rw [hbehind, declarations]
    rw [show declarations _ = _ from h, hnothing]
    simp [Except.map, bind, Except.bind, Declarations.mapComments_ofDeclarations]
  | error e =>
    rw [hread] at h
    cases e with
    | unexpected found expected =>
      rw [h.2]
      rfl
    | endOfCode expected =>
      rw [h hbehind]
      rfl

/-- The declarations of a token list without its comments are its declarations without comments,
and it has the same error if it has one. -/
theorem parse_filter_comments (tokens : List Token) :
    parse (tokens.filter (!·.isComment)) = (parse tokens).map Program.withoutComments :=
  parse_of_apply rfl (ofTokens_filter tokens)

end JassOutline.Zinc
