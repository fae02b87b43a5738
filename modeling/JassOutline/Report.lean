import JassOutline.Text.DisplayWidth
import JassOutline.Text.Row
import JassOutline.Warning

/-!
# Reports

A `Report` tells a reader what is wrong and shows the place in the source text: the row it is on,
with marks below the characters it is about. A label that reaches over a line feed is drawn as a
bracket to the left of its two rows.

Bridge lemma: `length_gutter` gives the width of the column that the line numbers stand in.
-/

namespace JassOutline

open Text

/-- How grave a report is. -/
inductive Severity where
  | warning
  | error
  deriving DecidableEq, Repr

/-- The word a report starts with. -/
def Severity.word : Severity → String
  | warning => "warning"
  | error => "error"

/-- What is wrong, where, and what helps. -/
structure Report where
  severity : Severity
  message : String
  /-- The bytes of the source text that the report is about. -/
  label? : Option ByteSpan
  notes : List String
  deriving DecidableEq, Repr

/-- The report of a warning. -/
def Warning.report (warning : Warning) : Report where
  severity := .warning
  message := warning.message
  label? := some warning.span
  notes := warning.notes

namespace Report

/-! ### Marks below a row -/

/-- The row as it is shown: without what may be left of its line end, and with blanks for tabs. -/
def shownRow (text : List Char) : List Char :=
  dropEndWhile (fun c => isLineBreak c || c == '\x00') text

/-- Marks below the characters that bytes of the label belong to, and blanks before them. A mark
behind the last character stands for what ends the row. -/
def marksFrom (start stop byte column : Nat) : List Char → List Char
  | [] => if start ≤ byte ∧ byte < stop then ['^'] else if byte < stop then [' '] else []
  | c :: rest =>
    let next := byte + c.utf8Size
    let width := widthAt column c
    let mark :=
      if start < next ∧ byte < stop then List.replicate width '^'
      else if byte < stop then List.replicate width ' '
      else []
    mark ++ marksFrom start stop next (column + width) rest

/-- The marks below a row for the given bytes of it. There is at least one. -/
def marks (text : List Char) (start stop : Nat) : List Char :=
  marksFrom start (max stop (start + 1)) 0 0 text

/-- The column behind the characters that start at or before byte `limit`, if the text starts at
the given byte and column. -/
def columnThrough (limit byte column : Nat) : List Char → Nat
  | [] => column
  | c :: rest =>
    if byte ≤ limit then columnThrough limit (byte + c.utf8Size) (column + widthAt column c) rest
    else column

/-- The number of characters that end at or before a byte. -/
def charactersBefore (byte : Nat) : List Char → Nat
  | [] => 0
  | c :: rest => if c.utf8Size ≤ byte then charactersBefore (byte - c.utf8Size) rest + 1 else 0

/-! ### The lines of a report -/

/-- The column of line numbers, with the given text at its right. -/
def gutter (width : Nat) (text : List Char) : List Char :=
  List.replicate (width - text.length) ' ' ++ text ++ [' ']

theorem length_gutter {width : Nat} {text : List Char} (h : text.length ≤ width) :
    (gutter width text).length = width + 1 := by
  simp only [gutter, List.length_append, List.length_replicate, List.length_singleton]
  omega

/-- The digits of a line number, counted from one. -/
def lineNumber (index : Nat) : List Char :=
  (toString (index + 1)).toList

/-- The lines that show a label within one row. -/
def rowLines (width : Nat) (file : String) (index : Nat) (row : Row) (start stop : Nat) :
    List (List Char) :=
  let shown := shownRow row.text
  let column := charactersBefore start row.text + 1
  [gutter width [] ++ "┌─ ".toList ++ file.toList ++ s!":{index + 1}:{column}".toList,
    gutter width [] ++ ['│'],
    gutter width (lineNumber index) ++ ['│', ' '] ++ expandTabs 0 shown,
    gutter width [] ++ ['│', ' '] ++ marks shown start stop]

/-- The lines that show a label from a byte of one row to a byte of the next. -/
def bracketLines (width : Nat) (file : String) (index : Nat) (row next : Row)
    (start stop : Nat) : List (List Char) :=
  let shown := shownRow row.text
  let shownNext := shownRow next.text
  let column := charactersBefore start row.text + 1
  let bottom := if stop = 0 then 0 else columnThrough (stop - 1) 0 0 shownNext
  [gutter width [] ++ "┌─ ".toList ++ file.toList ++ s!":{index + 1}:{column}".toList,
    gutter width [] ++ "│  ".toList,
    gutter width (lineNumber index) ++ "│   ".toList ++ expandTabs 0 shown,
    gutter width [] ++ "│ ╭".toList ++ List.replicate (columnThrough start 0 0 shown) '─' ++ ['^'],
    gutter width (lineNumber (index + 1)) ++ "│ │ ".toList ++ expandTabs 0 shownNext,
    gutter width [] ++ "│ ╰".toList ++ List.replicate bottom '─' ++ ['^']]

/-- The lines of the notes. -/
def noteLines (width : Nat) (notes : List String) : List (List Char) :=
  if notes.isEmpty then []
  else
    (gutter width [] ++ ['│'])
      :: notes.map fun note => gutter width [] ++ "= ".toList ++ note.toList

/-- The lines that show the place and the notes of a report. -/
def placeLines (file : String) (source : List Char) (notes : List String) (label : ByteSpan) :
    List (List Char) :=
  let all := rows source
  let first := rowIndex all label.start
  let last := rowIndex all label.stop
  let width := (lineNumber last).length
  match all[first]?, all[last]? with
  | some row, some next =>
    (if first = last then
      rowLines width file first row (label.start - row.start) (label.stop - row.start)
    else
      bracketLines width file first row next (label.start - row.start) (label.stop - next.start))
      ++ noteLines width notes
  | _, _ => []

/-- The report about a source text, with an empty line behind it. -/
def render (file : String) (source : List Char) (report : Report) : String :=
  let place := (report.label?.map (placeLines file source report.notes)).getD []
  let title := s!"{report.severity.word}: {report.message}".toList
  String.ofList ((title :: place ++ [[]]).flatMap (· ++ ['\n']))

end Report

end JassOutline
