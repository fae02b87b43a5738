import JassOutline.Program
import JassOutline.Text.Printable

/-!
# Dumps of programs

A dump shows every field of a program, one a line, in nested brackets. `Dump` is the tree that is
shown, and `Dump.lines` lays it out with four blanks for each level.
-/

namespace JassOutline.CommandLine

open Text

/-- What a dump shows. -/
inductive Dump where
  /-- A word or a number. -/
  | word (text : String)
  | quoted (text : String)
  | list (elements : List Dump)
  /-- A value that may be missing and is there. -/
  | present (inner : Dump)
  | record (name : String) (fields : List (String × Dump))

namespace Dump

/-! ### Layout -/

/-- The digits of a number in base sixteen. -/
def hex (n : Nat) : List Char :=
  Nat.toDigits 16 n

/-- A character as it stands between quotes. -/
def quoteChar (c : Char) : List Char :=
  match c with
  | '"' => ['\\', '"']
  | '\\' => ['\\', '\\']
  | '\t' => ['\\', 't']
  | '\r' => ['\\', 'r']
  | '\n' => ['\\', 'n']
  | '\x00' => ['\\', '0']
  | c => if isPrintable c then [c] else "\\u\x7b".toList ++ hex c.toNat ++ ['}']

/-- A text between quotes. -/
def quote (text : String) : String :=
  String.ofList ('"' :: text.toList.flatMap quoteChar ++ ['"'])

/-- The lines with a text before the first one. -/
def before (text : String) : List String → List String
  | [] => [text]
  | first :: rest => (text ++ first) :: rest

/-- The lines with a text behind the last one. -/
def behind (text : String) : List String → List String
  | [] => [text]
  | [last] => [last ++ text]
  | first :: rest => first :: behind text rest

/-- The lines, one level further in and with a comma behind them. -/
def nested (lines : List String) : List String :=
  (behind "," lines).map ("    " ++ ·)

mutual

/-- The lines that show a tree. -/
def lines : Dump → List String
  | word text => [text]
  | quoted text => [quote text]
  | list [] => ["[]"]
  | list (element :: rest) => "[" :: elementLines (element :: rest) ++ ["]"]
  | present inner => "Some(" :: nested inner.lines ++ [")"]
  | record name fields => (name ++ " \x7b") :: fieldLines fields ++ ["\x7d"]

/-- The lines that show the elements of a list. -/
def elementLines : List Dump → List String
  | [] => []
  | element :: rest => nested element.lines ++ elementLines rest

/-- The lines that show the fields of a record. -/
def fieldLines : List (String × Dump) → List String
  | [] => []
  | (name, value) :: rest => nested (before (name ++ ": ") value.lines) ++ fieldLines rest

end

/-- The text that shows a tree. -/
def render (dump : Dump) : String :=
  "\n".intercalate dump.lines

/-! ### Trees of programs -/

/-- A number. -/
def ofNat (n : Nat) : Dump :=
  word (toString n)

/-- A truth value. -/
def ofBool (b : Bool) : Dump :=
  word (if b then "true" else "false")

/-- A text that may be missing. -/
def ofText? : Option String → Dump
  | some text => present (quoted text)
  | none => word "None"

/-- A list of texts. -/
def ofTexts (texts : List String) : Dump :=
  list (texts.map quoted)

/-- A position. -/
def ofPosition (p : Position) : Dump :=
  record "Position" [("line", ofNat p.line), ("column", ofNat p.column)]

/-- A region. -/
def ofRegion (region : Region) : Dump :=
  record "TextRange" [("start", ofPosition region.start), ("end", ofPosition region.stop)]

/-- The comments of a declaration. -/
def ofComments (comments : List CommentLine) : Dump :=
  list (comments.map fun comment =>
    record "LineComment" [("text", quoted comment.text), ("range", ofRegion comment.region)])

/-- A visibility. -/
def ofVisibility : Visibility → Dump
  | .unmarked => word "Default"
  | .hidden => word "Private"
  | .exported => word "Public"

/-- A binding, which takes the place of a modifier. -/
def ofBinding : Binding → Dump
  | .ordinary => word "None"
  | .static => word "Static"
  | .stub => word "Stub"

/-- The modifier of a variable that is constant or not. -/
def ofConstancy (isConstant : Bool) : Dump :=
  word (if isConstant then "Constant" else "None")

/-- Parameters. -/
def ofParameters (parameters : List Parameter) : Dump :=
  list (parameters.map fun parameter =>
    record "Take"
      [("ty", quoted parameter.type), ("name", ofText? parameter.name),
        ("range", ofRegion parameter.region)])

/-- The fields that close every declaration: its comments and its region. -/
def closing (heading : Heading) : List (String × Dump) :=
  [("comments", ofComments heading.comments), ("range", ofRegion heading.region)]

/-- A global variable. -/
def ofGlobal (v : GlobalVariable) : Dump :=
  record "Global" <|
    [("visibility", ofVisibility v.visibility), ("modifier", ofConstancy v.isConstant),
      ("ty", ofText? v.type), ("is_array", ofBool v.isArray), ("name", ofText? v.name)]
      ++ closing v.toHeading

/-- A local variable. -/
def ofLocal (v : LocalVariable) : Dump :=
  record "Local" <|
    [("modifier", ofConstancy v.isConstant), ("ty", ofText? v.type),
      ("is_array", ofBool v.isArray), ("name", ofText? v.name)] ++ closing v.toHeading

/-- A member. -/
def ofMember (v : Member) : Dump :=
  record "Member" <|
    [("visibility", ofVisibility v.visibility), ("modifier", ofBinding v.binding),
      ("is_constant", ofBool v.isConstant), ("is_readonly", ofBool v.isReadonly),
      ("ty", ofText? v.type), ("is_array", ofBool v.isArray), ("name", ofText? v.name)]
      ++ closing v.toHeading

/-- A native. -/
def ofNative (f : Native) : Dump :=
  record "Native" <|
    [("is_constant", ofBool f.isConstant), ("name", ofText? f.name),
      ("takes", ofParameters f.parameters), ("returns", ofText? f.returns)] ++ closing f.toHeading

/-- The fields for what a body declares. -/
def bodyFields (locals : List LocalVariable) (globals : List GlobalVariable) :
    List (String × Dump) :=
  [("locals", list (locals.map ofLocal)), ("globals", list (globals.map ofGlobal))]

/-- A function. -/
def ofFunction (f : Function) : Dump :=
  record "Func" <|
    [("visibility", ofVisibility f.visibility), ("is_constant", ofBool f.isConstant),
      ("name", ofText? f.name), ("takes", ofParameters f.parameters),
      ("returns", ofText? f.returns)] ++ closing f.toHeading ++ bodyFields f.locals f.globals

/-- A method. -/
def ofMethod (f : Method) : Dump :=
  record "Method" <|
    [("visibility", ofVisibility f.visibility), ("modifier", ofBinding f.binding),
      ("name", ofText? f.name), ("takes", ofParameters f.parameters),
      ("returns", ofText? f.returns)] ++ closing f.toHeading ++ bodyFields f.locals f.globals

/-- A struct. -/
def ofStruct (s : Struct) : Dump :=
  record "Struct" <|
    [("visibility", ofVisibility s.visibility), ("name", ofText? s.name),
      ("extends", ofTexts s.parents), ("members", list (s.members.map ofMember)),
      ("methods", list (s.methods.map ofMethod))] ++ closing s.toHeading

/-- A library. -/
def ofLibrary (l : Library) : Dump :=
  record "Library" <|
    [("name", ofText? l.name), ("initializer", ofText? l.setUp),
      ("requires", ofTexts l.requirements), ("globals", list (l.globals.map ofGlobal)),
      ("functions", list (l.functions.map ofFunction)),
      ("structs", list (l.structs.map ofStruct))] ++ closing l.toHeading

/-- A type. -/
def ofType (t : TypeDeclaration) : Dump :=
  record "TypeDecl" <|
    [("name", ofText? t.name), ("extends", ofText? t.parent)] ++ closing t.toHeading

/-- A program. -/
def ofProgram (program : Program) : Dump :=
  record "Program"
    [("natives", list (program.natives.map ofNative)),
      ("functions", list (program.functions.map ofFunction)),
      ("globals", list (program.globals.map ofGlobal)),
      ("structs", list (program.structs.map ofStruct)),
      ("libraries", list (program.libraries.map ofLibrary)),
      ("types", list (program.types.map ofType)), ("source_id", ofNat program.source)]

end Dump

end JassOutline.CommandLine
