import JassOutline.Document
import JassOutline.Settings
import JassOutline.Text.Row

/-!
# Analysis of a source text

`Analysis.ofText` reads a source text under given settings and merges the declarations of its zinc
blocks into its program. Where the zinc blocks cannot be read, the program lacks them and the
error is kept. `ZincError.label?` is where a report points for such an error.
-/

namespace JassOutline

/-- Everything there is to report about a source text. -/
structure Analysis where
  document : Document
  /-- The declarations of both dialects. -/
  program : Program
  zincError : Option ZincError

/-- Reads a source text under the given settings. -/
def Analysis.ofText (source : Nat) (settings : Settings) (text : List Char) : Analysis :=
  let document := Document.read source settings.expansionLimit text
  let program := document.program
  if settings.readsZinc && !document.zincBlocks.isEmpty then
    match document.zincProgram with
    | .ok zinc => ⟨document, program.merge zinc, none⟩
    | .error e => ⟨document, program, some e⟩
  else ⟨document, program, none⟩

namespace ZincError

/-- The message of a report about the error. -/
def headline (e : ZincError) : String :=
  s!"zinc: {e.message}"

/-- The byte of the source text at which the error was found. A column behind the end of its line
stands for the start of the next line. -/
def label? (text : List Char) (e : ZincError) : Option ByteSpan :=
  e.position?.bind fun position =>
    (Text.rows text)[position.line]?.map fun row =>
      let start := min (row.start + position.column) row.next
      ⟨start, min (start + 1) row.next⟩

end ZincError

end JassOutline
