import JassOutline.Directive
import JassOutline.Token.Lexer
import JassOutline.Warning

/-!
# Text macros

A `TextMacro` is a named template of lines with parameters, which stand in the lines as `$name$`.
`MacroTable.extract` takes the definitions out of a stream of lines: a definition reaches from its
opening directive to the next directive that opens or closes a definition, or to the end.

Bridge lemmas: `MacroTable.name_find?` and `MacroTable.mem_of_find?` say what a look-up by name
returns.
-/

namespace JassOutline

open Text

/-- A named template of lines. -/
structure TextMacro where
  name : String
  /-- The names that stand for the arguments of an invocation. -/
  parameters : List String
  /-- The lines between the directives that open and close the definition. -/
  body : List SourceLine
  /-- From the opening directive to the closing one. -/
  region : Region
  deriving DecidableEq, Repr

namespace TextMacro

/-! ### Substitution -/

/-- A parameter as it is written in a body line. -/
def placeholder (parameter : String) : List Char :=
  '$' :: parameter.toList ++ ['$']

/-- The text with each parameter replaced by its argument, one parameter after the other. A
parameter without an argument is replaced by nothing. -/
def substitute : List String → List String → List Char → List Char
  | [], _, text => text
  | parameter :: parameters, arguments, text =>
    substitute parameters arguments.tail
      (replaceAll (placeholder parameter) (arguments.headD "").toList text)

/-- The body lines for the given arguments. Each keeps its place. -/
def instantiate (definition : TextMacro) (arguments : List String) : List SourceLine :=
  definition.body.map fun record =>
    record.withText (substitute definition.parameters arguments record.text.toList)

/-- The body as one text. -/
def bodyText (definition : TextMacro) : String :=
  String.join (definition.body.map SourceLine.text)

/-! ### Lists in directives -/

/-- The texts of the accepted tokens of a list that commas separate and `)` ends. The flag tells
whether an item is expected next. Between an item and the comma after it, and where an item is
expected, what is not accepted is read over. -/
def listItems (accept : Token → Bool) : Bool → List Token → List String
  | _, [] => []
  | expecting, token :: rest =>
    if token.isOperator ")" then []
    else if expecting then
      if accept token then token.text :: listItems accept false rest
      else listItems accept true rest
    else listItems accept (token.isOperator ",") rest

/-- The tokens of a directive line, without its marker. -/
def directiveTokens (record : SourceLine) : List Token :=
  Token.tokenize record.line (Directive.unmark record.text.toList)

/-- The parameters of a definition, written `(a, b)` or `takes a, b`. -/
def parametersOf : List Token → List String
  | token :: rest =>
    if token.isOperator "(" || token.isKeyword "takes" then listItems Token.isIdentifier true rest
    else []
  | [] => []

/-- The name and the parameters that the opening directive of a definition gives. -/
def signature? (header : SourceLine) : Option (String × List String) :=
  match directiveTokens header with
  | _ :: name :: rest => if name.isIdentifier then some (name.text, parametersOf rest) else none
  | _ => none

end TextMacro

/-- The definitions of a source text in the order they stand in. -/
structure MacroTable where
  macros : List TextMacro
  deriving DecidableEq, Repr

namespace MacroTable

/-- The first definition of the name. -/
def find? (table : MacroTable) (name : String) : Option TextMacro :=
  table.macros.find? fun definition => definition.name == name

theorem name_find? {table : MacroTable} {name : String} {definition : TextMacro}
    (h : table.find? name = some definition) : definition.name = name := by
  simpa using List.find?_some h

theorem mem_of_find? {table : MacroTable} {name : String} {definition : TextMacro}
    (h : table.find? name = some definition) : definition ∈ table.macros :=
  List.mem_of_find?_eq_some h

/-! ### Taking definitions out of a stream of lines -/

/-- A stream of lines parted into its definitions and what remains. -/
structure Extraction where
  table : MacroTable
  remaining : List SourceLine
  warnings : List Warning
  deriving DecidableEq, Repr

/-- Whether the line opens or closes a definition. -/
def isBoundary (record : SourceLine) : Bool :=
  match Directive.ofLine? record with
  | some .macroStart | some .macroEnd => true
  | _ => false

/-- The definition with the given header and body, if the header names it. -/
def definition? (header : SourceLine) (body : List SourceLine) (stop : Position) :
    Option TextMacro :=
  (TextMacro.signature? header).map fun (name, parameters) =>
    { name, parameters, body, region := header.region.withStop stop }

/-- The warning for a definition whose name is taken. -/
def duplicateWarnings (source : Nat) (header : SourceLine) (known : List String) :
    Option TextMacro → List Warning
  | none => []
  | some definition =>
    if known.contains definition.name then
      [.onLine (.macroDuplicate definition.name) header source]
    else []

/-- The warning for a definition whose header gives no name. -/
def namelessWarnings (source : Nat) (header : SourceLine) : Option TextMacro → List Warning
  | none => [.onLine .macroNameless header source]
  | some _ => []

/-- Where a definition ends that nothing closes: at its last line. -/
def lastStop (header : SourceLine) (body : List SourceLine) : Position :=
  (body.getLastD header).region.stop

/-- Parts the stream, given the names defined before it. -/
def extractFrom (source : Nat) (known : List String) (lines : List SourceLine) : Extraction :=
  match lines with
  | [] => ⟨⟨[]⟩, [], []⟩
  | record :: rest =>
    match Directive.ofLine? record with
    | some .macroStart =>
      let body := rest.takeWhile (!isBoundary ·)
      match _hstop : rest.dropWhile (!isBoundary ·) with
      | [] =>
        let definition := definition? record body (lastStop record body)
        ⟨⟨definition.toList⟩, [],
          namelessWarnings source record definition ++
            .onLine .macroNeverClosed record source ::
              duplicateWarnings source record known definition⟩
      | closer :: later =>
        if Directive.ofLine? closer = some .macroEnd then
          let definition := definition? record body closer.region.stop
          let next :=
            extractFrom source (known ++ (definition.map TextMacro.name).toList) later
          ⟨⟨definition.toList ++ next.table.macros⟩, next.remaining,
            namelessWarnings source record definition ++
              duplicateWarnings source record known definition ++ next.warnings⟩
        else
          let definition := definition? record body (lastStop record body)
          let next :=
            extractFrom source (known ++ (definition.map TextMacro.name).toList) (closer :: later)
          ⟨⟨definition.toList ++ next.table.macros⟩, next.remaining,
            namelessWarnings source record definition ++
              .onLine .macroOpenAtNext record source ::
                (duplicateWarnings source record known definition ++ next.warnings)⟩
    | some .macroEnd =>
      let next := extractFrom source known rest
      { next with warnings := .onLine .macroEndUnmatched record source :: next.warnings }
    | _ =>
      let next := extractFrom source known rest
      { next with remaining := record :: next.remaining }
termination_by lines.length
decreasing_by
  all_goals
    first
    | simp only [List.length_cons]; omega
    | have hle := (List.dropWhile_suffix (!isBoundary ·) (l := rest)).length_le
      rw [_hstop] at hle
      simp only [List.length_cons] at *
      omega

/-- Parts the stream into the definitions it holds and the lines that remain. -/
def extract (source : Nat) (lines : List SourceLine) : Extraction :=
  extractFrom source [] lines

end MacroTable

end JassOutline
