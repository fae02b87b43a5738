import JassOutline.Position

/-!
# Tokens

A `Token` is a word, sign or literal of one line. Keywords are ordinary identifiers, told apart by
their text alone, so that both dialects share one kind of token.
-/

namespace JassOutline

/-- The classes of tokens. -/
inductive TokenKind where
  | identifier
  | operator
  | string
  | number
  | comment
  /-- The mark behind the last token. -/
  | endOfInput
  deriving DecidableEq, Repr, Inhabited

/-- A token, its line and its byte columns in that line. -/
structure Token where
  kind : TokenKind
  text : String
  line : Nat
  startColumn : Nat
  stopColumn : Nat
  deriving DecidableEq, Repr, Inhabited

namespace Token

/-- The mark behind the last token. -/
def endOfInput (line column : Nat) : Token :=
  ⟨.endOfInput, "", line, column, column⟩

/-- Whether the token is an identifier. -/
def isIdentifier (token : Token) : Bool :=
  token.kind == .identifier

/-- Whether the token is a string literal. -/
def isString (token : Token) : Bool :=
  token.kind == .string

/-- Whether the token is a comment. -/
def isComment (token : Token) : Bool :=
  token.kind == .comment

/-- Whether the token is the identifier that reads `word`. -/
def isKeyword (token : Token) (word : String) : Bool :=
  token.kind == .identifier && token.text == word

/-- Whether the token is one of the given words. -/
def isKeywordOf (token : Token) (words : List String) : Bool :=
  token.kind == .identifier && words.contains token.text

/-- Whether the token is the given sign. -/
def isOperator (token : Token) (sign : String) : Bool :=
  token.kind == .operator && token.text == sign

/-- Whether the token is one of the given signs. -/
def isOperatorOf (token : Token) (signs : List String) : Bool :=
  token.kind == .operator && signs.contains token.text

/-- Where the token starts. -/
def start (token : Token) : Position :=
  ⟨token.line, token.startColumn⟩

/-- Where the token ends. -/
def stop (token : Token) : Position :=
  ⟨token.line, token.stopColumn⟩

/-- The region of the token. -/
def region (token : Token) : Region :=
  ⟨token.start, token.stop⟩

/-- The token as a message names it. -/
def display (token : Token) : String :=
  match token.kind with
  | .identifier => s!"identifier '{token.text}'"
  | .operator => s!"'{token.text}'"
  | .string => s!"string literal {token.text}"
  | .number => s!"number {token.text}"
  | .comment => "comment"
  | .endOfInput => "end of input"

/-! ### Words among tokens -/

/-- The text of the first token, if it is an identifier. -/
def leadingIdentifier? : List Token → Option String
  | token :: _ => if token.isIdentifier then some token.text else none
  | [] => none

/-- Whether the word stands at the start of the tokens, and the tokens without it. -/
def dropKeyword (word : String) : List Token → Bool × List Token
  | token :: rest => if token.isKeyword word then (true, rest) else (false, token :: rest)
  | [] => (false, [])

/-- The tokens behind the first one that satisfies the test, if there is one. -/
def after? (p : Token → Bool) : List Token → Option (List Token)
  | [] => none
  | token :: rest => if p token then some rest else after? p rest

end Token

end JassOutline
