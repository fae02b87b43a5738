import JassOutline.Proofs.Zinc.Edit.Grammar
import JassOutline.Zinc.Block
import Mathlib.Control.Monad.Basic

/-!
# Zinc programs in parts

What a token list declares does not depend on the tokens behind it, and neither does the first token
that it does not expect. So token lists that declare something on their own declare the same things
together. Only comments at the end of a list belong to what is behind it.

## Key results

- `parse_append`: parts of a text, and all zinc blocks of a document
-/

namespace JassOutline.Zinc

/-- No comment stands behind the last other token. -/
def EndsInCode (tokens : List Token) : Prop :=
  ∀ last ∈ tokens.getLast?, last.isComment = false

/-! ### Lexemes of parts -/

namespace Lexeme

/-- The comments behind the last lexeme, where the given ones stand in front of the tokens. -/
def commentsBehind (comments : List CommentLine) : List Token → List CommentLine
  | [] => comments
  | token :: rest =>
    if token.isComment then commentsBehind (comments ++ [commentOf token]) rest
    else commentsBehind [] rest

theorem ofTokensAfter_append (comments : List CommentLine) (a b : List Token) :
    ofTokensAfter comments (a ++ b) =
      ofTokensAfter comments a ++ ofTokensAfter (commentsBehind comments a) b := by
  induction a generalizing comments with
  | nil => rfl
  | cons token rest ih =>
    rw [List.cons_append, ofTokensAfter, ofTokensAfter, commentsBehind]
    split
    · exact ih _
    · rw [ih, List.cons_append]

theorem commentsBehind_append (comments : List CommentLine) (a b : List Token) :
    commentsBehind comments (a ++ b) = commentsBehind (commentsBehind comments a) b := by
  induction a generalizing comments with
  | nil => rfl
  | cons token rest ih =>
    rw [List.cons_append, commentsBehind, commentsBehind]
    split <;> exact ih _

theorem commentsBehind_eq_nil {tokens : List Token} (h : EndsInCode tokens) :
    commentsBehind [] tokens = [] := by
  rcases List.eq_nil_or_concat tokens with rfl | ⟨front, last, rfl⟩
  · rfl
  · have hlast : last.isComment = false := h last (by simp)
    rw [List.concat_eq_append, commentsBehind_append]
    simp [commentsBehind, hlast]

end Lexeme

/-- Puts the lexemes of other tokens behind those of the given ones. -/
def Edit.before (a b : List Token) : Edit where
  comments := id
  comments_nil := rfl
  behind := Lexeme.ofTokensAfter (Lexeme.commentsBehind [] a) b

theorem ofTokens_append (a b : List Token) :
    Lexeme.ofTokens (a ++ b) = (Edit.before a b).apply (Lexeme.ofTokens a) := by
  have hid : (Edit.before a b).lexeme = id := rfl
  rw [Edit.apply, hid, List.map_id]
  exact Lexeme.ofTokensAfter_append [] a b

theorem mem_of_mem_lexemes {tokens : List Token} {token : Token}
    (h : token ∈ (Lexeme.ofTokens tokens).map Lexeme.token) :
    token ∈ tokens ∧ token.isComment = false := by
  rw [Lexeme.token_ofTokens] at h
  simpa using h

theorem declarations_of_parse {tokens : List Token} {program : Program}
    (h : parse tokens = .ok program) :
    ∃ declared, declarations (Lexeme.ofTokens tokens) = .ok declared ∧
      program = .ofDeclarations 0 declared := by
  rw [parse] at h
  cases hread : declarations (Lexeme.ofTokens tokens) with
  | error e =>
    rw [hread] at h
    cases h
  | ok declared =>
    rw [hread] at h
    cases h
    exact ⟨declared, rfl, rfl⟩

theorem parse_append_of_unexpected {a b : List Token} {found : Token} {expected : Expected}
    (h : parse a = .error (.unexpected found expected)) :
    parse (a ++ b) = .error (.unexpected found expected) ∧ found ∈ a ∧ found.isComment = false := by
  have happly := declarations_apply (Edit.before a b) (Lexeme.ofTokens a)
  have hread : declarations (Lexeme.ofTokens a) = .error (.unexpected found expected) := by
    rw [parse] at h
    cases hread : declarations (Lexeme.ofTokens a) with
    | ok declared =>
      rw [hread] at h
      cases h
    | error e =>
      rw [hread] at h
      cases h
      rfl
  rw [hread] at happly
  refine ⟨?_, mem_of_mem_lexemes happly.1⟩
  rw [parse, ofTokens_append, happly.2]
  rfl

theorem parse_append_of_ok {a b : List Token} {program : Program} (h : parse a = .ok program)
    (hcode : EndsInCode a) : parse (a ++ b) = (parse b).map program.merge := by
  obtain ⟨declared, hread, rfl⟩ := declarations_of_parse h
  have happly := declarations_apply (Edit.before a b) (Lexeme.ofTokens a)
  have hbehind : (Edit.before a b).behind = Lexeme.ofTokens b := by
    rw [Edit.before, Lexeme.commentsBehind_eq_nil hcode, Lexeme.ofTokens]
  rw [hread] at happly
  rw [parse, ofTokens_append, show declarations _ = _ from happly, hbehind, parse]
  cases declarations (Lexeme.ofTokens b) with
  | error e => rfl
  | ok others =>
    have hsame : declared.mapComments (Edit.before a b).comments = declared :=
      congrFun Declarations.mapComments_id declared
    rw [hsame]
    rfl

/-- Parts of a text declare what they declare alone. The first token that a part does not expect is
the same whatever stands behind it, and it is no comment. Behind a part that declares something and
does not end in a comment, the rest declares the same things as alone, or fails with the same error.
So zinc blocks that declare something on their own declare all of it together. -/
theorem parse_append :
    (∀ a b found expected, parse a = .error (.unexpected found expected) →
      parse (a ++ b) = .error (.unexpected found expected) ∧
        found ∈ a ∧ found.isComment = false) ∧
    (∀ a b program, parse a = .ok program → EndsInCode a →
      parse (a ++ b) = (parse b).map program.merge) ∧
    ∀ (blocks : List ZincBlock) (program : ZincBlock → Program),
      (∀ block ∈ blocks, parse (ZincBlock.tokens [block]) = .ok (program block) ∧
        EndsInCode (ZincBlock.tokens [block])) →
      parse (ZincBlock.tokens blocks) =
        .ok ((blocks.map program).foldr Program.merge (.empty 0)) := by
  refine ⟨fun _ _ _ _ => parse_append_of_unexpected, fun _ _ _ => parse_append_of_ok, ?_⟩
  intro blocks program h
  induction blocks with
  | nil => simp [ZincBlock.tokens, parse, Lexeme.ofTokens, Lexeme.ofTokensAfter, declarations]; rfl
  | cons block blocks ih =>
    obtain ⟨hblock, hcode⟩ := h block List.mem_cons_self
    have htokens : ZincBlock.tokens (block :: blocks) =
        ZincBlock.tokens [block] ++ ZincBlock.tokens blocks := by
      simp [ZincBlock.tokens]
    rw [htokens, parse_append_of_ok hblock hcode,
      ih fun other hother => h other (List.mem_cons_of_mem block hother)]
    rfl

/-! ### Blocks at the seam of a struct -/

/-- A block of one line. -/
def blockOf (text : String) : ZincBlock where
  region := .onLine 0 0 0
  isClosed := true
  lines := SourceLine.segment text.toList

/-- A semicolon may stand behind a struct. -/
def structBlock : ZincBlock := blockOf "struct s \x7b\x7d"

/-- The semicolon is the first token of the next block. -/
def semicolonBlock : ZincBlock := blockOf "; integer n = 2;"

/-- A variable without a name. -/
def namelessBlock : ZincBlock := blockOf "integer = 2;"

/-- What one of the blocks declares. -/
def blockProgram (block : ZincBlock) : Program :=
  (parse (ZincBlock.tokens [block])).toOption.getD (.empty 0)

theorem parse_append_struct :
    (parse (ZincBlock.tokens [namelessBlock]) =
        .error (.unexpected ⟨.operator, "=", 0, 8, 9⟩ .variableName) ∧
      parse (ZincBlock.tokens [namelessBlock] ++ ZincBlock.tokens [structBlock]) =
        .error (.unexpected ⟨.operator, "=", 0, 8, 9⟩ .variableName)) ∧
    (parse (ZincBlock.tokens [structBlock]) = .ok (blockProgram structBlock) ∧
      EndsInCode (ZincBlock.tokens [structBlock]) ∧
      parse (ZincBlock.tokens [structBlock] ++ ZincBlock.tokens [namelessBlock]) =
        (parse (ZincBlock.tokens [namelessBlock])).map (blockProgram structBlock).merge) ∧
    (∀ block ∈ [structBlock, semicolonBlock],
      parse (ZincBlock.tokens [block]) = .ok (blockProgram block) ∧
        EndsInCode (ZincBlock.tokens [block])) ∧
    parse (ZincBlock.tokens [structBlock, semicolonBlock]) =
      .ok ((blockProgram structBlock).merge ((blockProgram semicolonBlock).merge (.empty 0))) := by
  have hnameless : parse (ZincBlock.tokens [namelessBlock]) =
      .error (.unexpected ⟨.operator, "=", 0, 8, 9⟩ .variableName) := by decide +kernel
  have hblocks : ∀ block ∈ [structBlock, semicolonBlock],
      parse (ZincBlock.tokens [block]) = .ok (blockProgram block) ∧
        EndsInCode (ZincBlock.tokens [block]) := by
    unfold EndsInCode
    decide +kernel
  have hstruct := hblocks structBlock (by simp)
  exact ⟨⟨hnameless, (parse_append.1 _ _ _ _ hnameless).1⟩,
    ⟨hstruct.1, hstruct.2, parse_append.2.1 _ _ _ hstruct.1 hstruct.2⟩,
    hblocks, parse_append.2.2 [structBlock, semicolonBlock] blockProgram hblocks⟩

end JassOutline.Zinc
