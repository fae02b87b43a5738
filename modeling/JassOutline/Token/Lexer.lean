import JassOutline.SourceLine
import JassOutline.Text.Alphabetic
import JassOutline.Token

/-!
# Cutting a line into tokens

`Token.tokenize` reads a text from left to right. Blanks separate tokens and belong to none. The
first character that is not blank decides which kind of token starts there, and `extent` gives the
number of characters that belong to it besides the first. A string, a raw code in apostrophes or
a comment that is not closed ends where its line ends.

Bridge lemmas: `tokenizeFrom_blank` and `tokenizeFrom_cons` unfold the reader by one step.
-/

namespace JassOutline.Token

open Text

/-! ### Characters -/

/-- Characters that continue an identifier. The dollar sign marks the parameters of text macros. -/
def isIdentifierChar (c : Char) : Bool :=
  isAlphanumeric c || c == '_' || c == '$'

/-- Characters that continue a word without a marked parameter. -/
def isPlainIdentifierChar (c : Char) : Bool :=
  isAlphanumeric c || c == '_'

/-- Hexadecimal digits. -/
def isHexDigit (c : Char) : Bool :=
  c.isDigit || ('a' ≤ c && c ≤ 'f') || ('A' ≤ c && c ≤ 'F')

/-- The signs of two characters. -/
def pairedSigns : List (Char × Char) :=
  [('=', '='), ('!', '='), ('<', '='), ('>', '='), ('-', '>'), ('&', '&'), ('|', '|'),
    ('+', '+'), ('-', '-')]

/-! ### Extents

Each function counts how many characters of the text belong to the token that is being read. -/

/-- The characters up to the end of the line. -/
def commentExtent (text : List Char) : Nat :=
  (text.takeWhile fun c => !isLineBreak c).length

/-- The rest of a string literal, the closing quote included. A backslash takes the next
character with it, unless that is a line feed. -/
def stringExtent : List Char → Nat
  | [] => 0
  | '"' :: _ => 1
  | ['\\'] => 1
  | '\\' :: c :: rest => if c = '\n' then 1 else stringExtent rest + 2
  | c :: rest => if isLineBreak c then 0 else stringExtent rest + 1

/-- The rest of a raw code, the closing apostrophe included. -/
def rawCodeExtent : List Char → Nat
  | [] => 0
  | c :: rest => if c = '\'' then 1 else if isLineBreak c then 0 else rawCodeExtent rest + 1

/-- The digits of a decimal number and its fraction. -/
def decimalExtent (text : List Char) : Nat :=
  let digits := (text.takeWhile Char.isDigit).length
  match text.drop digits with
  | '.' :: fraction => digits + 1 + (fraction.takeWhile Char.isDigit).length
  | _ => digits

/-- The rest of a number that starts with `first`: a hexadecimal number after `0x`, or else a
decimal one. -/
def numberExtent (first : Char) (rest : List Char) : Nat :=
  if first = '.' then (rest.takeWhile Char.isDigit).length
  else
    match rest with
    | c :: digits =>
      if first = '0' ∧ (c = 'x' ∨ c = 'X') then (digits.takeWhile isHexDigit).length + 1
      else decimalExtent rest
    | [] => 0

/-- What starts with a dollar sign: a hexadecimal number, if the word behind the sign has
hexadecimal digits only and no further dollar sign follows it, or else an identifier. -/
def dollarExtent (rest : List Char) : TokenKind × Nat :=
  let word := rest.takeWhile isPlainIdentifierChar
  let closed := (rest.drop word.length).head? == some '$'
  if !word.isEmpty && word.all isHexDigit && !closed then (.number, word.length)
  else (.identifier, (rest.takeWhile isIdentifierChar).length)

/-- The kind of the token that starts with `first`, and how many characters of the rest belong to
it. -/
def extent (first : Char) (rest : List Char) : TokenKind × Nat :=
  if first = '/' ∧ rest.head? = some '/' then (.comment, commentExtent rest)
  else if first = '"' then (.string, stringExtent rest)
  else if first = '\'' then (.number, rawCodeExtent rest)
  else if first = '$' then dollarExtent rest
  -- A dot starts a number only in front of a digit
  else if first.isDigit ∨ (first = '.' ∧ rest.head?.any Char.isDigit) then
    (.number, numberExtent first rest)
  else if isAlphabetic first ∨ first = '_' then
    (.identifier, (rest.takeWhile isIdentifierChar).length)
  -- A sign of two characters comes before its first character alone
  else if rest.head?.any fun c => pairedSigns.contains (first, c) then (.operator, 1)
  else (.operator, 0)

/-! ### The reader -/

/-- The tokens of a text that starts at the given byte column. -/
def tokenizeFrom (line column : Nat) (text : List Char) : List Token :=
  match text with
  | [] => []
  | c :: rest =>
    if isBlank c then tokenizeFrom line (column + c.utf8Size) rest
    else
      let (kind, size) := extent c rest
      let word := c :: rest.take size
      let stop := column + byteLength word
      ⟨kind, String.ofList word, line, column, stop⟩ :: tokenizeFrom line stop (rest.drop size)
termination_by text.length
decreasing_by
  · simp
  · simp only [List.length_drop, List.length_cons]; omega

/-- The tokens of a line of text. -/
def tokenize (line : Nat) (text : List Char) : List Token :=
  tokenizeFrom line 0 text

@[simp] theorem tokenizeFrom_nil (line column : Nat) : tokenizeFrom line column [] = [] := by
  rw [tokenizeFrom]

theorem tokenizeFrom_blank {c : Char} (h : isBlank c = true) (line column : Nat)
    (rest : List Char) :
    tokenizeFrom line column (c :: rest) = tokenizeFrom line (column + c.utf8Size) rest := by
  rw [tokenizeFrom, if_pos h]

theorem tokenizeFrom_cons {c : Char} (h : isBlank c = false) (line column : Nat)
    (rest : List Char) :
    tokenizeFrom line column (c :: rest) =
      ⟨(extent c rest).1, String.ofList (c :: rest.take (extent c rest).2), line, column,
          column + byteLength (c :: rest.take (extent c rest).2)⟩ ::
        tokenizeFrom line (column + byteLength (c :: rest.take (extent c rest).2))
          (rest.drop (extent c rest).2) := by
  rw [tokenizeFrom, if_neg (by simp [h])]

end JassOutline.Token

/-- The tokens of a line. -/
def JassOutline.SourceLine.tokens (record : JassOutline.SourceLine) : List JassOutline.Token :=
  JassOutline.Token.tokenize record.line record.text.toList
