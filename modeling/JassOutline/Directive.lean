import JassOutline.SourceLine
import JassOutline.Text.Word

/-!
# Directives

A line whose text starts with `//!` is a directive. Six words behind that marker are known: they
open, close and invoke text macros and open and close zinc blocks. Every other directive is an
ordinary line.
-/

namespace JassOutline

open Text

/-- What a known directive asks for. -/
inductive Directive where
  | macroStart
  | macroEnd
  | macroRun
  | zincStart
  | zincEnd
  deriving DecidableEq, Repr

namespace Directive

/-- The characters every directive starts with. -/
def marker : List Char := ['/', '/', '!']

/-- The directive a word names. -/
def ofWord? (word : String) : Option Directive :=
  match word with
  | "textmacro" | "textmacro_once" => some .macroStart
  | "endtextmacro" => some .macroEnd
  | "runtextmacro" => some .macroRun
  | "zinc" => some .zincStart
  | "endzinc" => some .zincEnd
  | _ => none

/-- The directive of a line: its marker, at least one blank and then one whole known word. -/
def ofChars? (text : List Char) : Option Directive :=
  match dropLeading? marker (trimStart text) with
  | none => none
  | some rest =>
    if rest.head?.any isBlank then ofWord? (String.ofList (leadingWord (trimStart rest)))
    else none

/-- The directive that a line holds. -/
def ofLine? (record : SourceLine) : Option Directive :=
  ofChars? record.text.toList

/-- Whether the text is a directive, known or not. -/
def isMarked (text : List Char) : Bool :=
  startsWith marker (trimStart text)

/-- The text with the first marker replaced by blanks, so that the rest keeps its columns. -/
def unmark : List Char → List Char
  | [] => []
  | '/' :: '/' :: '!' :: rest => ' ' :: ' ' :: ' ' :: rest
  | c :: rest => c :: unmark rest

end Directive

end JassOutline
