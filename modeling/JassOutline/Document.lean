import JassOutline.BlockComment
import JassOutline.Outline.Build
import JassOutline.Program.Assembly
import JassOutline.TextMacro.Expansion
import JassOutline.Zinc.Block
import JassOutline.Zinc.Grammar

/-!
# Reading a source text

`Document.read` takes a source text through all stages: block comments are blanked, the text is
cut into lines, text macros are taken out and their invocations replaced, zinc blocks are taken
out, and the remaining lines are nested into blocks. The declarations of the two dialects are read
off a document by `Document.program` and `Document.zincProgram`.
-/

namespace JassOutline

open Text

/-- A source text that has been read. -/
structure Document where
  /-- The number that the caller gave the source. -/
  source : Nat
  macros : MacroTable
  /-- The lines after the expansion of text macros, zinc blocks included. -/
  expanded : List SourceLine
  zincBlocks : List ZincBlock
  outline : Outline
  warnings : List Warning

namespace Document

/-- Reads a source text. Text macros may produce at most `limit?` lines, if a limit is given. -/
def read (source : Nat) (limit? : Option Nat) (text : List Char) : Document :=
  let extraction := MacroTable.extract source (SourceLine.segment (BlockComment.blank text))
  let expansion :=
    Expansion.expand { table := extraction.table, limit?, source } extraction.remaining
  let zinc := ZincBlock.extract source expansion.lines
  let (outline, outlineWarnings) := Outline.build source zinc.remaining
  { source
    macros := extraction.table
    expanded := expansion.lines
    zincBlocks := zinc.blocks
    outline
    warnings :=
      extraction.warnings ++ expansion.warnings ++ zinc.warnings ++ outlineWarnings }

/-- The program that the text outside of zinc blocks declares. -/
def program (document : Document) : Program :=
  .ofOutline document.source document.outline

/-- The tokens of all zinc blocks. -/
def zincTokens (document : Document) : List Token :=
  ZincBlock.tokens document.zincBlocks

/-- The program that the zinc blocks declare. -/
def zincProgram (document : Document) : Except ZincError Program :=
  Zinc.parse document.zincTokens

/-- The body of the first text macro with the name. -/
def macroText? (document : Document) (name : String) : Option String :=
  (document.macros.find? name).map TextMacro.bodyText

end Document

end JassOutline
