import JassOutline.Text.Blank

/-!
# Block comments

`BlockComment.blank` replaces every character of a block comment by as many spaces as it has
bytes. Line feeds stay, so that every line and every byte of the text keeps its place. Strings and
line comments are read over: a comment does not open inside them.
-/

namespace JassOutline.BlockComment

open Text

/-- Where in the text the reader stands. -/
inductive Mode where
  | code
  | lineComment
  | blockComment
  /-- In a block comment, behind a star. -/
  | blockCommentStar
  | string
  /-- In a string, behind a backslash. -/
  | stringEscape
  deriving DecidableEq, Repr

/-- A character of a comment as it is shown: blank, unless it ends the line. -/
def blankChar (c : Char) : List Char :=
  if c = '\n' then [c] else List.replicate c.utf8Size ' '

/-- The text with its block comments blanked, read from the given mode. -/
def blankFrom : Mode → List Char → List Char
  | _, [] => []
  | .code, '/' :: '*' :: rest => ' ' :: ' ' :: blankFrom .blockComment rest
  | .code, '/' :: '/' :: rest => '/' :: '/' :: blankFrom .lineComment rest
  -- A slash that opens no comment passes together with the character behind it
  | .code, '/' :: '"' :: rest => '/' :: '"' :: blankFrom .string rest
  | .code, '/' :: c :: rest => '/' :: c :: blankFrom .code rest
  | .code, c :: rest => c :: blankFrom (if c = '"' then .string else .code) rest
  | .lineComment, c :: rest => c :: blankFrom (if c = '\n' then .code else .lineComment) rest
  | .blockComment, c :: rest =>
    blankChar c ++ blankFrom (if c = '*' then .blockCommentStar else .blockComment) rest
  -- A star behind a star may still be the first half of the end
  | .blockCommentStar, c :: rest =>
    blankChar c ++
      blankFrom (if c = '*' then .blockCommentStar else if c = '/' then .code else .blockComment)
        rest
  | .string, c :: rest =>
    c ::
      blankFrom
        (if c = '"' ∨ c = '\n' then .code else if c = '\\' then .stringEscape else .string) rest
  | .stringEscape, c :: rest => c :: blankFrom (if c = '\n' then .code else .string) rest

/-- The text with every block comment blanked. -/
def blank (text : List Char) : List Char :=
  blankFrom .code text

end JassOutline.BlockComment
