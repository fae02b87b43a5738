import JassOutline.CommandLine.Log
import JassOutline.Report

/-!
# The standard error

A command writes texts, reports and entries of its log to the standard error, in the order in which
they come up. How they are shown is decided by the options of the command line together with the
surroundings: `--verbose` asks for the details of the log unless the surroundings say what to log,
and `--no-color` forbids the colors that the surroundings allow.
-/

namespace JassOutline.CommandLine

/-- The colors of a verdict. -/
inductive Color where
  | green
  | red
  deriving DecidableEq, Repr

/-- One thing that is written to the standard error. -/
inductive Notice where
  /-- A text that always looks the same. -/
  | text (text : String)
  /-- A text that is bold, and has a color if one is given. -/
  | bold (color : Option Color) (text : String)
  /-- A report about the source text in a file. -/
  | report (file : String) (source : List Char) (report : Report)
  | log (entry : LogEntry)
  deriving DecidableEq, Repr

/-- What the options say about the standard error. -/
structure Display where
  noColor : Bool
  verbose : Bool
  deriving DecidableEq, Repr

/-- What the surroundings of a command say about the standard error. -/
structure Console where
  /-- Which entries to log, if anything is said about it. -/
  logs? : Option (LogEntry → Bool)
  /-- The line for an entry. -/
  logLine : LogEntry → String
  /-- Whether colors are shown where nobody forbids them. -/
  hasColors : Bool
  /-- The bold text. -/
  paint : Option Color → String → String
  /-- The report in colors. -/
  paintReport : String → List Char → Report → String

namespace Console

/-- A console without a log and without colors. -/
def plain : Console where
  logs? := some fun _ => false
  logLine := LogEntry.line
  hasColors := false
  paint := fun _ text => text
  paintReport := Report.render

/-- Whether the entry is logged. -/
def logs (console : Console) (display : Display) (entry : LogEntry) : Bool :=
  match console.logs? with
  | some logs => logs entry
  | none => display.verbose || entry.level == .warning

/-- Whether colors are shown. -/
def isColored (console : Console) (display : Display) : Bool :=
  console.hasColors && !display.noColor

/-- What is written for a notice. -/
def shown (console : Console) (display : Display) : Notice → String
  | .text text => text
  | .bold color text => if console.isColored display then console.paint color text else text
  | .report file source report =>
    if console.isColored display then console.paintReport file source report
    else report.render file source
  | .log entry => if console.logs display entry then console.logLine entry else ""

/-- What is written for notices in their order. -/
def showAll (console : Console) (display : Display) (notices : List Notice) : String :=
  String.join (notices.map (console.shown display))

end Console

end JassOutline.CommandLine
