import JassOutline.Token

/-!
# Errors of the zinc dialect

The grammar of the dialect fails at the first token that it does not expect, or at the end of the
tokens. A `ZincError` tells which of the two happened and what was expected.
-/

namespace JassOutline

/-- What the grammar can be waiting for. -/
inductive Expected where
  | declaration
  | libraryMember
  | structMember
  | libraryName
  | structName
  | parentName
  | functionName
  | methodName
  | parameterType
  | parameterName
  | returnType
  | typeName
  | variableName
  | sign (text : String)
  deriving DecidableEq, Repr

/-- What is expected, in words. -/
def Expected.phrase : Expected → String
  | declaration => "a declaration"
  | libraryMember => "a library member"
  | structMember => "a struct member"
  | libraryName => "a library name"
  | structName => "a struct name"
  | parentName => "a parent name"
  | functionName => "a function name"
  | methodName => "a method name"
  | parameterType => "a parameter type"
  | parameterName => "a parameter name"
  | returnType => "a return type"
  | typeName => "a type name"
  | variableName => "a variable name"
  | sign text => s!"`{text}`"

/-- Why a token list is no zinc program. -/
inductive ZincError where
  /-- A token stands where another one is expected. -/
  | unexpected (found : Token) (expected : Expected)
  /-- The tokens end where one is expected. -/
  | endOfCode (expected : Expected)
  deriving DecidableEq, Repr

namespace ZincError

/-- What was expected. -/
def expected : ZincError → Expected
  | unexpected _ expected => expected
  | endOfCode expected => expected

/-- Where the token starts that was not expected. -/
def position? : ZincError → Option Position
  | unexpected found _ => some found.start
  | endOfCode _ => none

/-- The sentence that tells what is wrong. -/
def message : ZincError → String
  | unexpected found expected =>
    s!"{found.start.display}: expected {expected.phrase}, found `{found.text}`"
  | endOfCode expected => s!"unexpected end of zinc code, expected {expected.phrase}"

end ZincError

end JassOutline
