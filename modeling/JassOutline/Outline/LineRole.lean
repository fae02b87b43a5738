import JassOutline.Directive
import JassOutline.Outline.BlockKind
import JassOutline.Token.Lexer

/-!
# Roles of lines

What a line means to the outline is read off its first words: it opens or closes a block, declares
something by itself, comments on what follows, or is any other line. `isGlobalLine` and
`isMemberLine` tell which other lines declare a variable where one may stand.
-/

namespace JassOutline

open Text

/-- What a line means to the outline. -/
inductive LineRole where
  | opens (kind : BlockKind)
  | closes (kind : BlockKind)
  /-- A line comment that is no directive. -/
  | comment
  | native
  | localVariable
  | typeDeclaration
  | other
  deriving DecidableEq, Repr

namespace LineRole

/-- The words that may stand before `function` and `method`. -/
def routineModifiers : List String := ["private", "public", "static", "stub", "constant"]

/-- The words that may stand before `struct` and `library`. -/
def visibilityWords : List String := ["private", "public"]

/-- The words that may stand before `native`. -/
def nativeModifiers : List String := ["constant"]

/-- The role of a line that starts with the word, if the word alone decides it. -/
def ofFirstWord? (word : String) : Option LineRole :=
  match word with
  | "globals" => some (.opens .globals)
  | "endglobals" => some (.closes .globals)
  | "endfunction" => some (.closes .function)
  | "endmethod" => some (.closes .method)
  | "endstruct" => some (.closes .struct)
  | "endlibrary" => some (.closes .library)
  | "local" => some .localVariable
  | "type" => some .typeDeclaration
  | _ => none

/-- The first word behind a run of the given words. -/
def wordAfter? (modifiers : List String) (tokens : List Token) : Option String :=
  Token.leadingIdentifier? (tokens.dropWhile (·.isKeywordOf modifiers))

/-- The role of a function or method header. -/
def ofRoutineWord? : String → Option LineRole
  | "function" => some (.opens .function)
  | "method" => some (.opens .method)
  | _ => none

/-- The role of a struct or library header. -/
def ofContainerWord? : String → Option LineRole
  | "struct" => some (.opens .struct)
  | "library" | "library_once" => some (.opens .library)
  | _ => none

/-- The role of a line with the given tokens. -/
def ofTokens (tokens : List Token) : LineRole :=
  match Token.leadingIdentifier? tokens with
  | none => .other
  | some word =>
    ((ofFirstWord? word
      <|> (wordAfter? routineModifiers tokens).bind ofRoutineWord?
      <|> (wordAfter? visibilityWords tokens).bind ofContainerWord?)).getD
        (if wordAfter? nativeModifiers tokens = some "native" then .native else .other)

/-- The role of a line. -/
def ofLine (record : SourceLine) : LineRole :=
  if startsWith ['/', '/'] (trimStart record.text.toList) then
    if Directive.isMarked record.text.toList then .other else .comment
  else ofTokens record.tokens

end LineRole

/-! ### Lines that declare a variable -/

/-- Whether two words open the token list. -/
def startsWithTwoWords : List Token → Bool
  | first :: second :: _ => first.isIdentifier && second.isIdentifier
  | _ => false

/-- Whether the line declares a global variable: it starts with `constant` or with two words. -/
def isGlobalLine (record : SourceLine) : Bool :=
  match record.tokens with
  | first :: rest => first.isKeyword "constant" || startsWithTwoWords (first :: rest)
  | [] => false

/-- The words that start a statement and so are no type of a member. -/
def statementWords : List String :=
  ["call", "set", "return", "if", "else", "elseif", "endif", "loop", "endloop", "exitwhen",
    "implement", "debug"]

/-- The tokens without one of the given words at their start. -/
def dropOneKeyword (words : List String) : List Token → List Token
  | token :: rest => if token.isKeywordOf words then rest else token :: rest
  | [] => []

/-- Whether the line declares a member: two words follow a visibility and one of `static` and
`stub`, both of which may be missing, and the first of them starts no statement. -/
def isMemberLine (record : SourceLine) : Bool :=
  match dropOneKeyword ["static", "stub"]
      (dropOneKeyword LineRole.visibilityWords record.tokens) with
  | type :: rest =>
    startsWithTwoWords (type :: rest) && !statementWords.contains type.text
  | [] => false

end JassOutline
