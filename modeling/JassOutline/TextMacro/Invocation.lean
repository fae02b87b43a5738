import JassOutline.TextMacro

/-!
# Invocations of text macros

A directive `runtextmacro NAME("a", "b")` asks for the lines of a text macro with the given
arguments. The word `optional` before the name says that the macro need not exist.
-/

namespace JassOutline

open Text

/-- A request for the lines of a text macro. -/
structure Invocation where
  /-- The name asked for, empty if the directive gives none. -/
  name : String
  arguments : List String
  isOptional : Bool
  site : SourceLine
  deriving DecidableEq, Repr

namespace Invocation

/-- The text of a string literal without its quotes. The closing one may be missing. -/
def unquote (literal : List Char) : List Char :=
  let inner := (dropLeading? ['"'] literal).getD literal
  if inner.getLast? = some '"' then inner.dropLast else inner

/-- The strings in the parentheses that open the token list. -/
def argumentsOf : List Token → List String
  | opening :: rest =>
    if opening.isOperator "(" then
      (TextMacro.listItems Token.isString true rest).map fun literal =>
        String.ofList (unquote literal.toList)
    else []
  | [] => []

/-- The name and the arguments at the start of the token list. -/
def target : List Token → String × List String
  | name :: rest => if name.isIdentifier then (name.text, argumentsOf rest) else ("", [])
  | [] => ("", [])

/-- The request that a directive line makes. -/
def ofLine (site : SourceLine) : Invocation :=
  let tokens := (Token.dropKeyword "runtextmacro" (TextMacro.directiveTokens site)).2
  let (isOptional, tokens) := Token.dropKeyword "optional" tokens
  let (name, arguments) := target tokens
  { name, arguments, isOptional, site }

end Invocation

end JassOutline
