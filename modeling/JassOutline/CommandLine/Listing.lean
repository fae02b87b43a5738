import JassOutline.Document

/-!
# Listings

What a document holds, in lines for a reader: its declarations, its blocks, its lines after the
expansion of text macros, its text macros, and its zinc blocks.
-/

namespace JassOutline.CommandLine.Listing

open Text

/-- What stands for a part that is not given. -/
def missing : String := "?"

/-- Blanks in front of a line, for each level. -/
def indent (level : Nat) : String :=
  String.ofList (List.replicate (2 * level) ' ')

/-- The name of a declaration. -/
def nameOf (heading : Heading) : String :=
  heading.name.getD missing

/-- The first and the last line of a region, counted from one. -/
def linesOf (region : Region) : String :=
  s!"{region.start.line + 1}-{region.stop.line + 1}"

/-- What is added for a block that nothing closes. -/
def openMark (isClosed : Bool) : String :=
  if isClosed then "" else " (unclosed)"

/-! ### Declarations -/

/-- The parameters and the result of a routine. -/
def signature (parameters : List Parameter) (returns : Option String) : String :=
  let shown := ", ".intercalate (parameters.map Parameter.display)
  s!"({shown}) -> {returns.getD missing}"

/-- A list of names behind a keyword, or nothing for the empty list. -/
def clause (keyword : String) (names : List String) : String :=
  if names.isEmpty then "" else s!" {keyword} " ++ ", ".intercalate names

/-- A variable behind a word for its kind. -/
def variableLine (level : Nat) (kind : String) (type : Option String) (heading : Heading) :
    String :=
  indent level ++ s!"{kind} {type.getD missing} {nameOf heading}"

/-- A routine behind a word for its kind. -/
def routineLine (level : Nat) (kind : String) (heading : Heading) (parameters : List Parameter)
    (returns : Option String) : String :=
  indent level ++ s!"{kind} {nameOf heading}" ++ signature parameters returns

/-- A global variable. -/
def globalLine (level : Nat) (v : GlobalVariable) : String :=
  variableLine level "global" v.type v.toHeading

/-- A function. -/
def functionLine (level : Nat) (f : Function) : String :=
  routineLine level "function" f.toHeading f.parameters f.returns

/-- A struct with its members and methods. -/
def structLines (level : Nat) (s : Struct) : List String :=
  (indent level ++ s!"struct {nameOf s.toHeading}" ++ clause "extends" s.parents)
    :: (s.members.map fun v => variableLine (level + 1) "member" v.type v.toHeading)
    ++ s.methods.map fun f => routineLine (level + 1) "method" f.toHeading f.parameters f.returns

/-- A library with what it declares. -/
def libraryLines (l : Library) : List String :=
  (s!"library {nameOf l.toHeading}" ++ clause "requires" l.requirements)
    :: l.globals.map (globalLine 1) ++ l.functions.map (functionLine 1)
    ++ l.structs.flatMap (structLines 1)

/-- All declarations of a program. -/
def programLines (program : Program) : List String :=
  (program.natives.map fun f => routineLine 0 "native" f.toHeading f.parameters f.returns)
    ++ (program.types.map fun t =>
      s!"type {nameOf t.toHeading} extends {t.parent.getD missing}")
    ++ program.globals.map (globalLine 0) ++ program.functions.map (functionLine 0)
    ++ program.structs.flatMap (structLines 0) ++ program.libraries.flatMap libraryLines

/-! ### Blocks, lines and text macros -/

mutual

/-- The blocks of a node, those inside another one level further in. -/
def nodeLines (level : Nat) : Node → List String
  | .line _ => []
  | .block kind region isClosed children =>
    let title :=
      match Block.header? ⟨kind, region, isClosed, children⟩ with
      | some header => String.ofList (trim header.text.toList)
      | none => kind.word
    (indent level ++ s!"{title} [{linesOf region}]" ++ openMark isClosed)
      :: nodesLines (level + 1) children

/-- The blocks of a list of nodes. -/
def nodesLines (level : Nat) : List Node → List String
  | [] => []
  | node :: rest => nodeLines level node ++ nodesLines level rest

end

/-- A number with blanks in front of it, so that it is at least five characters wide. -/
def padded (n : Nat) : String :=
  let digits := toString n
  String.ofList (List.replicate (5 - digits.length) ' ') ++ digits

/-- A line with its number in the source. -/
def numberedLine (record : SourceLine) : String :=
  s!"{padded (record.line + 1)} | " ++ String.ofList (trimEnd record.text.toList)

/-- A text macro. -/
def macroLine (definition : TextMacro) : String :=
  let parameters := ", ".intercalate definition.parameters
  s!"{definition.name}({parameters})  lines {linesOf definition.region}, "
    ++ s!"{definition.body.length} body line(s)"

/-- The zinc blocks of a document and the number of their tokens. -/
def zincLines (document : Document) : List String :=
  (document.zincBlocks.map fun b =>
    s!"zinc  lines {linesOf b.region}, {b.lines.length} line(s)" ++ openMark b.isClosed)
    ++ [s!"{document.zincTokens.length} token(s)"]

end JassOutline.CommandLine.Listing
