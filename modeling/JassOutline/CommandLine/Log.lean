import JassOutline.Analysis

/-!
# The log

Each stage of reading a source text logs what it has found: a message with counts. Such details are
shown to those who ask for them, and what may be a mistake of the caller is shown to everybody.
There are finer entries still, which no option asks for, and these are left out.
-/

namespace JassOutline.CommandLine

/-- How much an entry matters. -/
inductive LogLevel where
  | warning
  | detail
  deriving DecidableEq, Repr

/-- The word an entry starts with, as wide as the widest. -/
def LogLevel.word : LogLevel → String
  | warning => " WARN"
  | detail => "DEBUG"

/-- An entry of the log. -/
structure LogEntry where
  level : LogLevel
  /-- The part of the program that it comes from. -/
  origin : String
  message : String
  /-- What belongs to the message, each with its name. -/
  fields : List (String × String)
  deriving DecidableEq, Repr

namespace LogEntry

/-- A detail that consists of counts. -/
def counts (origin message : String) (numbers : List (String × Nat)) : LogEntry :=
  ⟨.detail, origin, message, numbers.map fun (name, n) => (name, toString n)⟩

/-- The entry as a line. -/
def line (entry : LogEntry) : String :=
  let fields := entry.fields.map fun (name, value) => s!" {name}={value}"
  s!"{entry.level.word} {entry.origin}: {entry.message}{String.join fields}\n"

end LogEntry

/-! ### Source texts -/

/-- The part of the program that reads source texts. -/
def readerOrigin : String := "vjass::parser"

/-- What is logged while a source text goes through its stages. -/
def documentLog (text : List Char) (document : Document) : List LogEntry :=
  let lines := SourceLine.segment (BlockComment.blank text)
  [.counts readerOrigin "segmented source" [("lines", lines.length)],
    .counts readerOrigin "collected text macros" [("macros", document.macros.macros.length)],
    .counts readerOrigin "expanded text macros" [("lines", document.expanded.length)],
    .counts readerOrigin "extracted zinc blocks" [("blocks", document.zincBlocks.length)],
    .counts readerOrigin "built outline"
      [("blocks", (Node.blocksOfAll document.outline.nodes).length),
        ("warnings", document.warnings.length)]]

/-- What is logged about the zinc blocks of a document, if they can be read. -/
def zincLog (document : Document) : List LogEntry :=
  match document.zincProgram with
  | .ok program =>
    [.counts "zinc" "parsed zinc"
      [("tokens", document.zincTokens.length), ("libraries", program.libraries.length),
        ("functions", program.functions.length), ("structs", program.structs.length)]]
  | .error _ => []

/-- What is logged while a source text is analyzed. -/
def analysisLog (settings : Settings) (text : List Char) (document : Document) : List LogEntry :=
  documentLog text document ++
    if settings.readsZinc && !document.zincBlocks.isEmpty then zincLog document else []

end JassOutline.CommandLine
