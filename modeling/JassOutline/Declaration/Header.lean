import JassOutline.Declaration
import JassOutline.Outline.LineRole

/-!
# Declarations from single lines

Each reader takes the tokens of one line and finds the parts of a declaration by the keywords in
front of them. A part that the line leaves out stays unset: there is always a declaration.
-/

namespace JassOutline

open Text

/-! ### Lists of names and parameters -/

/-- The first identifier of each item of a list separated by commas. The flag tells whether an
item is expected next. The word `optional` is no item. -/
def listedNames : Bool → List Token → List String
  | _, [] => []
  | true, token :: rest =>
    if token.isKeyword "optional" then listedNames true rest
    else if token.isIdentifier then token.text :: listedNames false rest
    else listedNames true rest
  | false, token :: rest => listedNames (token.isOperator ",") rest

namespace Parameter

/-- A parameter without a name. -/
def ofType (type : Token) : Parameter :=
  ⟨type.text, none, type.region⟩

/-- A parameter with a type and a name. -/
def ofTypeAndName (type name : Token) : Parameter :=
  ⟨type.text, some name.text, ⟨type.start, name.stop⟩⟩

mutual

/-- The parameters of a list where a type is expected. The word `nothing` ends the list. -/
def listFrom : List Token → List Parameter
  | [] => []
  | token :: rest =>
    if token.isKeyword "nothing" then []
    else if token.isIdentifier then listFromName token rest
    else listFrom rest

/-- The parameters of a list where a name for the type is expected. -/
def listFromName (type : Token) : List Token → List Parameter
  | [] => [ofType type]
  | token :: rest =>
    if token.isIdentifier then ofTypeAndName type token :: listFromComma rest
    else if token.isOperator "," then ofType type :: listFrom rest
    else listFromName type rest

/-- The parameters of a list where a comma is expected. -/
def listFromComma : List Token → List Parameter
  | [] => []
  | token :: rest => if token.isOperator "," then listFrom rest else listFromComma rest

end

end Parameter

/-! ### Signatures -/

/-- The parts of the header of a native, a function or a method. -/
structure Signature where
  name : Option String
  parameters : List Parameter
  returns : Option String
  /-- The words in front of the keyword. -/
  modifiers : List String
  deriving DecidableEq, Repr

namespace Signature

/-- The identifier directly behind the first token that reads as the keyword. -/
def wordBehind? (keyword : String) (tokens : List Token) : Option String :=
  (Token.after? (·.isKeyword keyword) tokens).bind Token.leadingIdentifier?

/-- The words in front of the keyword, if it occurs. -/
def wordsBefore (keyword : String) (tokens : List Token) : List String :=
  if tokens.any (·.isKeyword keyword) then
    ((tokens.takeWhile (!·.isKeyword keyword)).filter Token.isIdentifier).map Token.text
  else []

/-- The tokens of the parameter list: what follows `takes`, up to the first `returns` of the line
if that comes later. -/
def parameterTokens (tokens : List Token) : List Token :=
  match Token.after? (·.isKeyword "takes") tokens with
  | none => []
  | some rest =>
    if (tokens.takeWhile (!·.isKeyword "takes")).any (·.isKeyword "returns") then rest
    else rest.takeWhile (!·.isKeyword "returns")

/-- The parts of the header with the given keyword. -/
def ofTokens (keyword : String) (tokens : List Token) : Signature where
  name := wordBehind? keyword tokens
  parameters := Parameter.listFrom (parameterTokens tokens)
  returns := wordBehind? "returns" tokens
  modifiers := wordsBefore keyword tokens

end Signature

/-- The visibility that the last of the words with one gives. -/
def Visibility.ofWords (words : List String) : Visibility :=
  (words.reverse.findSome? ofWord?).getD .unmarked

/-- The binding that the last of the words with one gives. -/
def Binding.ofWords (words : List String) : Binding :=
  (words.reverse.findSome? fun word => (Modifier.ofWord? word).bind Modifier.binding?).getD
    .ordinary

namespace Native

/-- The native that a line declares. -/
def ofLine (record : SourceLine) : Native :=
  let signature := Signature.ofTokens "native" record.tokens
  { name := signature.name
    comments := []
    region := record.region
    isConstant := signature.modifiers.contains "constant"
    parameters := signature.parameters
    returns := signature.returns }

end Native

namespace Function

/-- The function with the given header line that takes the given region. -/
def ofHeader (header : SourceLine) (region : Region) : Function :=
  let signature := Signature.ofTokens "function" header.tokens
  { name := signature.name
    comments := []
    region
    visibility := .ofWords signature.modifiers
    isConstant := signature.modifiers.contains "constant"
    parameters := signature.parameters
    returns := signature.returns
    locals := []
    globals := [] }

/-- A function of which only the region is known. -/
def ofRegion (region : Region) : Function :=
  { name := none, comments := [], region, visibility := .unmarked, isConstant := false
    parameters := [], returns := none, locals := [], globals := [] }

end Function

namespace Method

/-- The method with the given header line that takes the given region. -/
def ofHeader (header : SourceLine) (region : Region) : Method :=
  let signature := Signature.ofTokens "method" header.tokens
  { name := signature.name
    comments := []
    region
    visibility := .ofWords signature.modifiers
    binding := .ofWords signature.modifiers
    parameters := signature.parameters
    returns := signature.returns
    locals := []
    globals := [] }

/-- A method of which only the region is known. -/
def ofRegion (region : Region) : Method :=
  { name := none, comments := [], region, visibility := .unmarked, binding := .ordinary
    parameters := [], returns := none, locals := [], globals := [] }

end Method

/-! ### Containers and types -/

namespace Library

/-- A library of which only the region is known. -/
def ofRegion (region : Region) : Library :=
  { name := none, comments := [], region, setUp := none, requirements := [], globals := []
    functions := [], structs := [] }

/-- The library with the given header line that takes the given region:
`library NAME initializer NAME requires NAME, optional NAME`. -/
def ofHeader (header : SourceLine) (region : Region) : Library :=
  let tokens := header.tokens
  match Token.after? (·.isKeywordOf ["library", "library_once"]) tokens with
  | none => ofRegion region
  | some rest =>
    { ofRegion region with
      name := Token.leadingIdentifier? rest
      setUp := Signature.wordBehind? "initializer" tokens
      requirements :=
        listedNames true
          ((Token.after? (·.isKeywordOf ["requires", "needs", "uses"]) tokens).getD []) }

end Library

namespace Struct

/-- A struct of which only the region is known. -/
def ofRegion (region : Region) : Struct :=
  { name := none, comments := [], region, visibility := .unmarked, parents := [], members := []
    methods := [] }

/-- The struct with the given header line that takes the given region:
`struct NAME extends NAME, NAME`. -/
def ofHeader (header : SourceLine) (region : Region) : Struct :=
  let tokens := header.tokens
  { ofRegion region with
    name := Signature.wordBehind? "struct" tokens
    visibility := .ofWords ((tokens.takeWhile (!·.isKeyword "struct")).map Token.text)
    parents := listedNames true ((Token.after? (·.isKeyword "extends") tokens).getD []) }

end Struct

namespace TypeDeclaration

/-- The type that a line declares: `type NAME extends NAME`. -/
def ofLine (record : SourceLine) : TypeDeclaration :=
  let tokens := record.tokens
  { name := Signature.wordBehind? "type" tokens
    comments := []
    region := record.region
    parent := Signature.wordBehind? "extends" tokens }

end TypeDeclaration

/-! ### Variables -/

/-- The type and the name of a variable. -/
structure VariableShape where
  type : Option String
  isArray : Bool
  name : Option String
  deriving DecidableEq, Repr

namespace VariableShape

/-- What the tokens behind a type say: `array NAME` or `NAME`. -/
def ofTypeAndRest (type : Option String) : List Token → VariableShape
  | [] => ⟨type, false, none⟩
  | token :: rest =>
    if token.isKeyword "array" then ⟨type, true, Token.leadingIdentifier? rest⟩
    else ⟨type, false, if token.isIdentifier then some token.text else none⟩

/-- The variable at the start of the tokens: `TYPE array NAME` or `TYPE NAME`. -/
def ofTokens (tokens : List Token) : VariableShape :=
  ofTypeAndRest (Token.leadingIdentifier? tokens) tokens.tail

end VariableShape

/-- The visibility at the start of the tokens, and the tokens without it. -/
def dropVisibility : List Token → Visibility × List Token
  | [] => (.unmarked, [])
  | token :: rest =>
    match Visibility.ofWord? token.text with
    | some visibility => (visibility, rest)
    | none => (.unmarked, token :: rest)

namespace GlobalVariable

/-- The global variable that a line declares: `private constant TYPE array NAME`. -/
def ofLine (record : SourceLine) : GlobalVariable :=
  let (visibility, tokens) := dropVisibility record.tokens
  let (isConstant, tokens) := Token.dropKeyword "constant" tokens
  let shape := VariableShape.ofTokens tokens
  { name := shape.name, comments := [], region := record.region, visibility, isConstant
    type := shape.type, isArray := shape.isArray }

end GlobalVariable

namespace LocalVariable

/-- The local variable that a line declares: `local constant TYPE array NAME`. Its region starts
at the word `local`. -/
def ofLine (record : SourceLine) : LocalVariable :=
  match record.tokens.dropWhile (!·.isKeyword "local") with
  | [] =>
    { name := none, comments := [], region := record.region, isConstant := false, type := none
      isArray := false }
  | token :: rest =>
    let (isConstant, rest) := Token.dropKeyword "constant" rest
    let shape := VariableShape.ofTokens rest
    { name := shape.name, comments := [], region := ⟨token.start, record.region.stop⟩, isConstant
      type := shape.type, isArray := shape.isArray }

end LocalVariable

namespace Member

/-- The binding at the start of the tokens, and the tokens without it. -/
def dropBinding : List Token → Binding × List Token
  | [] => (.ordinary, [])
  | token :: rest =>
    if token.isKeyword "static" then (.static, rest)
    else if token.isKeyword "stub" then (.stub, rest)
    else (.ordinary, token :: rest)

/-- The words `constant` and `readonly` that open a declaration. -/
structure Flags where
  isConstant : Bool
  isReadonly : Bool
  deriving DecidableEq, Repr

/-- The flags at the start of the tokens, added to the given ones, and the tokens without them. -/
def dropFlags (flags : Flags) : List Token → Flags × List Token
  | [] => (flags, [])
  | token :: rest =>
    if token.isKeyword "constant" then dropFlags { flags with isConstant := true } rest
    else if token.isKeyword "readonly" then dropFlags { flags with isReadonly := true } rest
    else (flags, token :: rest)

/-- The member that a line declares: `private static constant TYPE array NAME`. Where the word
`local` follows the modifiers, the variable behind it is declared instead. -/
def ofLine (record : SourceLine) : Member :=
  let (visibility, tokens) := dropVisibility record.tokens
  let (binding, tokens) := dropBinding tokens
  let (flags, tokens) := dropFlags ⟨false, false⟩ tokens
  match tokens.dropWhile (!·.isKeyword "local") with
  | [] =>
    let shape := VariableShape.ofTokens tokens
    { name := shape.name, comments := [], region := record.region, visibility, binding
      isConstant := flags.isConstant, isReadonly := flags.isReadonly, type := shape.type
      isArray := shape.isArray }
  | token :: rest =>
    let (isConstant, rest) := Token.dropKeyword "constant" rest
    let shape := VariableShape.ofTokens rest
    { name := shape.name, comments := [], region := ⟨token.start, record.region.stop⟩, visibility
      binding, isConstant := flags.isConstant || isConstant, isReadonly := flags.isReadonly
      type := shape.type, isArray := shape.isArray }

end Member

/-! ### Comments -/

namespace CommentLine

/-- The comment of a line, or the whole line if it has none. -/
def ofLine (record : SourceLine) : CommentLine :=
  match record.tokens.find? Token.isComment with
  | some token => ⟨token.text, token.region⟩
  | none => ⟨String.ofList (trim record.text.toList), record.region⟩

end CommentLine

end JassOutline
