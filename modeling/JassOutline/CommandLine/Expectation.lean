import JassOutline.Analysis

/-!
# Expectations of a test file

The comment lines that open a test file hold, behind the mark `//#`, a TOML table of what its
program is expected to declare and of the warnings it is expected to give. `Expectation.check`
compares them in a fixed order and stops at the first difference.
-/

namespace JassOutline.CommandLine

open Text

/-- A warning that is expected. -/
structure ExpectedWarning where
  /-- A part of its message. -/
  contains : String
  /-- The line it points at, counted from one. -/
  line : Option Nat
  deriving DecidableEq, Repr

/-- What a test file expects. What is not given is not compared. -/
structure Expectation where
  description : Option String
  functions : Option (List String)
  natives : Option (List String)
  globals : Option (List String)
  structs : Option (List String)
  libraries : Option (List String)
  /-- The number of zinc blocks. -/
  zincBlocks : Option Nat
  /-- The warnings, one for one. -/
  warnings : Option (List ExpectedWarning)
  deriving DecidableEq, Repr

/-! ### The header -/

namespace ExpectedWarning

/-- An expected warning: a table, or an array of the values of its keys. -/
def ofToml? : Toml.Value → Option ExpectedWarning
  | .table entries => do
    let contains ← Toml.Table.required? entries "contains" Toml.Value.asText?
    let line ← Toml.Table.optional? entries "line" Toml.Value.asNat?
    some ⟨contains, line⟩
  | .array (contains :: rest) => do
    let contains ← contains.asText?
    let line ← rest.head?.elim (some none) fun line => line.asNat?.map some
    some ⟨contains, line⟩
  | _ => none

/-- A list of expected warnings. -/
def listOfToml? : Toml.Value → Option (List ExpectedWarning)
  | .array elements => elements.mapM ofToml?
  | _ => none

end ExpectedWarning

namespace Expectation

/-- The keys an expectation may have. -/
def keys : List String :=
  ["description", "expect_functions", "expect_natives", "expect_globals", "expect_structs",
    "expect_libraries", "expect_zinc_blocks", "expect_warnings"]

/-- The expectation that a table gives. -/
def ofTable? (table : Toml.Table) : Option Expectation :=
  if table.hasOnly keys then do
    let description ← table.optional? "description" Toml.Value.asText?
    let functions ← table.optional? "expect_functions" Toml.Value.asTexts?
    let natives ← table.optional? "expect_natives" Toml.Value.asTexts?
    let globals ← table.optional? "expect_globals" Toml.Value.asTexts?
    let structs ← table.optional? "expect_structs" Toml.Value.asTexts?
    let libraries ← table.optional? "expect_libraries" Toml.Value.asTexts?
    let zincBlocks ← table.optional? "expect_zinc_blocks" Toml.Value.asNat?
    let warnings ← table.optional? "expect_warnings" ExpectedWarning.listOfToml?
    some ⟨description, functions, natives, globals, structs, libraries, zincBlocks, warnings⟩
  else none

/-- The mark of the comment lines that hold the expectation. -/
def marker : List Char := ['/', '/', '#']

/-- The lines at the start of a text that have the mark, from behind it. -/
def markedLines : List (List Char) → List (List Char)
  | [] => []
  | line :: rest =>
    match dropLeading? marker (trimStart line) with
    | some content => content :: markedLines rest
    | none => []

/-- Why a test fails. -/
inductive Failure where
  | unreadable (reason : String)
  | headerMissing
  | headerInvalid
  | zinc (e : ZincError)
  | names (what : String) (expected actual : List String)
  | zincBlocks (expected actual : Nat)
  | warningCount (expected : Nat) (messages : List String)
  | warningMessage (index : Nat) (expected message : String)
  | warningLine (index expected actual : Nat)
  deriving DecidableEq, Repr

/-- The reason in words. -/
def Failure.message : Failure → String
  | unreadable reason => s!"cannot read file: {reason}"
  | headerMissing => "missing `//#` expectation header"
  | headerInvalid => "TOML parse error: not a table of expectations"
  | zinc e => s!"zinc parse error: {e.message}"
  | names what expected actual =>
    let expected := ", ".intercalate expected
    let actual := ", ".intercalate actual
    s!"{what} mismatch\n  expected: [{expected}]\n  actual:   [{actual}]"
  | zincBlocks expected actual => s!"expected {expected} zinc block(s), got {actual}"
  | warningCount expected messages =>
    let listed := "\n".intercalate (messages.map ("    " ++ ·))
    s!"expected {expected} warning(s), got {messages.length}\n{listed}"
  | warningMessage index expected message =>
    s!"warning {index}: expected a message containing \"{expected}\", got: {message}"
  | warningLine index expected actual =>
    s!"warning {index}: expected on line {expected}, found on line {actual}"

/-- The expectation that a test file opens with. -/
def ofText (text : List Char) : Except Failure Expectation :=
  match markedLines (splitLines text) with
  | [] => .error .headerMissing
  | header =>
    match (Toml.parse? (['\n'].intercalate header)).bind ofTable? with
    | some expectation => .ok expectation
    | none => .error .headerInvalid

/-! ### Comparison -/

/-- The names of declarations, with a mark for a missing one. -/
def namesOf (heading : α → Heading) (declarations : List α) : List String :=
  declarations.map fun declaration => (heading declaration).name.getD "?"

/-- Compares names in the order of the declarations. -/
def checkNames (what : String) (expected : Option (List String)) (actual : List String) :
    Except Failure Unit :=
  match expected with
  | some expected => if expected = actual then .ok () else .error (.names what expected actual)
  | none => .ok ()

/-- Compares warnings one for one. -/
def checkWarnings (text : List Char) (index : Nat) :
    List (Warning × ExpectedWarning) → Except Failure Unit
  | [] => .ok ()
  | (warning, expected) :: rest =>
    if !occursIn expected.contains.toList warning.message.toList then
      .error (.warningMessage index expected.contains warning.message)
    else
      let actual := rowIndex (rows text) warning.span.start + 1
      match expected.line with
      | some line =>
        if line = actual then checkWarnings text (index + 1) rest
        else .error (.warningLine index line actual)
      | none => checkWarnings text (index + 1) rest

/-- Compares the warnings of a text with the expected ones. -/
def checkAllWarnings (text : List Char) (warnings : List Warning)
    (expected : List ExpectedWarning) : Except Failure Unit :=
  if warnings.length = expected.length then checkWarnings text 0 (warnings.zip expected)
  else .error (.warningCount expected.length (warnings.map Warning.message))

/-- Compares a source text with an expectation. -/
def check (expectation : Expectation) (settings : Settings) (text : List Char) :
    Except Failure Unit := do
  let analysis := Analysis.ofText 0 settings text
  if let some e := analysis.zincError then .error (.zinc e)
  let program := analysis.program
  checkNames "functions" expectation.functions (namesOf Function.toHeading program.allFunctions)
  checkNames "natives" expectation.natives (namesOf Native.toHeading program.natives)
  checkNames "globals" expectation.globals (namesOf GlobalVariable.toHeading program.allGlobals)
  checkNames "structs" expectation.structs (namesOf Struct.toHeading program.allStructs)
  checkNames "libraries" expectation.libraries (namesOf Library.toHeading program.libraries)
  let blocks := analysis.document.zincBlocks.length
  if let some expected := expectation.zincBlocks then
    if expected ≠ blocks then .error (.zincBlocks expected blocks)
  match expectation.warnings with
  | some expected => checkAllWarnings text analysis.document.warnings expected
  | none => .ok ()

end Expectation

end JassOutline.CommandLine
