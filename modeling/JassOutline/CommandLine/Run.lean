import JassOutline.CommandLine.Arguments
import JassOutline.CommandLine.Dump
import JassOutline.CommandLine.Listing
import JassOutline.CommandLine.TestRun
import JassOutline.Report

/-!
# Running a command

`run` takes the words of a command line and the files around it to what the command writes and the
code it ends with. Listings go to the standard output, and reports and the log to the standard
error, where the options of the whole program and the surroundings decide how they look.
-/

namespace JassOutline.CommandLine

/-- What a command does. -/
structure Effect where
  exitCode : Nat
  output : String
  /-- What is written to the standard error, in this order. -/
  notices : List Notice
  deriving DecidableEq, Repr

/-- What a command line leaves behind: the effect of its command, and how to write its notices. -/
structure Outcome extends Effect where
  display : Display
  deriving DecidableEq, Repr

namespace Effect

/-- The command ends with an error. -/
def failed (message : String) : Effect :=
  ⟨1, "", [.text s!"error: {message}\n"]⟩

end Effect

namespace Outcome

/-- What is written to the standard error of a console. -/
def errorsOn (console : Console) (outcome : Outcome) : String :=
  console.showAll outcome.display outcome.notices

/-- What is written to a standard error without a log and without colors. -/
def errors (outcome : Outcome) : String :=
  outcome.errorsOn .plain

/-- What can be seen of an outcome: the exit code, the standard output and the standard error of a
console. -/
def seenOn (console : Console) (outcome : Outcome) : Nat × String × String :=
  (outcome.exitCode, outcome.output, outcome.errorsOn console)

end Outcome

/-- The lines as a text. -/
def unlines (lines : List String) : String :=
  String.join (lines.map (· ++ "\n"))

/-! ### Outlines -/

/-- The reports about a source text, in the order of its stages. -/
def reports (text : List Char) (analysis : Analysis) : List Report :=
  let zinc : List Report := analysis.zincError.toList.map fun e =>
    ⟨.error, e.headline, e.label? text, []⟩
  analysis.document.warnings.map Warning.report ++ zinc

/-- What is shown of a source text. Of several switches, the first of a fixed order counts. -/
def listing (switches : List Switch) (analysis : Analysis) : List String :=
  let document := analysis.document
  if switches.contains .ast then [(Dump.ofProgram analysis.program).render]
  else if switches.contains .listBlocks then Listing.nodesLines 0 document.outline.nodes
  else if switches.contains .expanded then document.expanded.map Listing.numberedLine
  else if switches.contains .macros then document.macros.macros.map Listing.macroLine
  else if switches.contains .zinc then Listing.zincLines document
  else Listing.programLines analysis.program

/-- Outlines a source text. -/
def outlineText (settings : Settings) (file : String) (switches : List Switch)
    (text : List Char) : Effect :=
  let analysis := Analysis.ofText 0 settings text
  let notices := (analysisLog settings text analysis.document).map Notice.log
    ++ (reports text analysis).map (.report file text)
  if switches.contains .check then
    if analysis.zincError.isSome then ⟨1, "", notices⟩
    else
      let count := analysis.document.warnings.length
      ⟨0, "", notices ++ [.text s!"ok: {file} parsed with {count} warning(s)\n"]⟩
  else ⟨0, unlines (listing switches analysis), notices⟩

/-! ### Tests -/

/-- The tests at a path, in the wanted categories, and what is logged while they are looked for. -/
def findTests (disk : Disk) (path : String) (wanted : List String) :
    List Category × List LogEntry :=
  match disk.find path with
  | .ok (.file bytes) => ([⟨"", [⟨"", lastPart path, path, .file bytes⟩]⟩], [])
  | _ =>
    let categories := Category.ofPath disk path
    (Category.select wanted categories, Category.missingLog wanted categories)

/-- Runs the tests at a path. -/
def runTests (disk : Disk) (settings : Settings) (path : String) (wanted : List String) :
    Effect :=
  let (categories, log) := findTests disk path wanted
  let found := log.map Notice.log
  if categories.isEmpty then
    ⟨1, "", found ++ [.text s!"no matching .test.j files under {path}\n"]⟩
  else
    let start : LogEntry :=
      .counts testOrigin "running test files" [("categories", categories.length)]
    let (report, failed) := testReport (categories.map (CategoryResult.ofCategory settings))
    ⟨if failed = 0 then 0 else 1, "", found ++ .log start :: report⟩

/-- Lists the categories of the tests at a path. -/
def listCategories (disk : Disk) (path : String) : Effect :=
  match Category.ofPath disk path with
  | [] => ⟨0, "", [.text s!"no .test.j files under {path}\n"]⟩
  | categories =>
    let lines := categories.map fun c => s!"{Category.title c.name} ({c.files.length} test(s))"
    ⟨0, unlines lines, []⟩

/-! ### Commands -/

/-- The settings in a file, or why there are none. -/
def loadSettings (disk : Disk) (path : Option String) : Except String Settings :=
  match path with
  | none => .ok .standard
  | some path =>
    match disk.read path with
    | .error e => .error s!"cannot read '{path}': {e.message}"
    | .ok text =>
      match Settings.ofToml? text.toList with
      | some settings => .ok settings
      | none => .error "TOML parse error: not a table of settings"

/-- Runs a command under the given settings. -/
def runCommand (disk : Disk) (settings : Settings) : Command → Effect
  | .outline file switches =>
    match disk.read file with
    | .error e => .failed s!"cannot read '{file}': {e.message}"
    | .ok text => outlineText settings file switches text.toList
  | .test path categories => runTests disk settings path categories
  | .listCategories path => listCategories disk path

/-- How the commands are called. -/
def usage : String :=
  unlines
    ["vJass outline parser", "", "Usage: vjass [OPTIONS] <COMMAND>", "", "Commands:",
      "  outline  Parse a source file and print its declarations",
      "  test     Run .test.j test files", "  help     Print this message", "", "Options:",
      "      --no-color         Disable colored error output",
      "  -v, --verbose          Log pipeline stages",
      "      --config <CONFIG>  TOML file with parse settings",
      "  -h, --help             Print help", "  -V, --version          Print version"]

/-- What is left behind where there is no command to run. Nothing has been asked for then. -/
def stopped (stop : Stop) : Outcome :=
  let effect : Effect :=
    match stop with
    | .usage => ⟨2, "", [.text usage]⟩
    | .help => ⟨0, usage, []⟩
    | .version => ⟨0, "vjass 0.1.0\n", []⟩
  { effect with display := displayOf [] }

/-- What happens for a command, with the settings file in front of it. -/
def perform (disk : Disk) (config : Option String) (command : Command) : Effect :=
  match loadSettings disk config with
  | .error message => .failed message
  | .ok settings => runCommand disk settings command

/-- Runs what was asked for. -/
def runRequest (disk : Disk) (request : Request) : Outcome :=
  { perform disk request.config request.command with display := request.display }

/-- The paths of the files that a request reads. -/
def Request.filePaths (request : Request) : List String :=
  request.config.toList ++
    match request.command with
    | .outline file _ => [file]
    | _ => []

/-- The paths at which a request looks for test files. -/
def Request.testPaths (request : Request) : List String :=
  match request.command with
  | .outline .. => []
  | .test path _ | .listCategories path => [path]

/-- Runs the command that a command line asks for. -/
def run (disk : Disk) (words : List String) : Outcome :=
  match readArguments words with
  | .error stop => stopped stop
  | .ok request => runRequest disk request

end JassOutline.CommandLine
