import JassOutline.Outline.BlockKind
import JassOutline.SourceLine

/-!
# Warnings

Nothing in a source text makes its reading fail. What looks wrong is recorded as a `Warning`: a
`Problem`, which is the cause, and the line it was found on. The wording of each cause is in
`Problem.message` and `Problem.notes`.
-/

namespace JassOutline

/-- What can be wrong with a source text. -/
inductive Problem where
  | macroOpenAtNext
  | macroNameless
  | macroEndUnmatched
  | macroNeverClosed
  | macroDuplicate (name : String)
  | macroUndefined (name : String)
  | macroRecursive (name : String)
  | expansionLimit
  | zincNested
  | zincEndUnmatched
  | zincNeverClosed
  /-- A closing keyword met inside a block of another kind. -/
  | closerMismatched (closer openKind : BlockKind)
  | closerUnmatched (closer : BlockKind)
  | blockNeverClosed (kind : BlockKind)
  deriving DecidableEq, Repr

namespace Problem

/-- The sentence that tells what is wrong. -/
def message : Problem → String
  | macroOpenAtNext => "text macro is not closed before the next one starts"
  | macroNameless => "text macro has no name"
  | macroEndUnmatched => "`endtextmacro` without a matching `textmacro`"
  | macroNeverClosed => "text macro is never closed with `endtextmacro`"
  | macroDuplicate name => s!"duplicate text macro `{name}`"
  | macroUndefined name => s!"undefined text macro `{name}`"
  | macroRecursive name => s!"text macro `{name}` invokes itself"
  | expansionLimit => "text macro expansion limit reached; remaining expansions are skipped"
  | zincNested => "`//! zinc` inside an open zinc block"
  | zincEndUnmatched => "`//! endzinc` without a matching `//! zinc`"
  | zincNeverClosed => "zinc block is never closed"
  | closerMismatched closer openKind =>
    s!"`end{closer.word}` does not close the open {openKind.word} block"
  | closerUnmatched closer => s!"`end{closer.word}` without an open {closer.word} block"
  | blockNeverClosed kind => s!"{kind.word} block is never closed"

/-- What a reader may want to know besides. -/
def notes : Problem → List String
  | macroDuplicate _ => ["invocations use the first definition"]
  | zincNeverClosed => ["expected `//! endzinc`"]
  | blockNeverClosed kind => [s!"expected `end{kind.word}`"]
  | _ => []

end Problem

/-- A problem and where it was found. -/
structure Warning where
  problem : Problem
  /-- The bytes of the line that the warning points at. -/
  span : ByteSpan
  /-- The number that the caller gave the source. -/
  source : Nat
  deriving DecidableEq, Repr

namespace Warning

/-- The warning that a line has a problem. -/
def onLine (problem : Problem) (record : SourceLine) (source : Nat) : Warning :=
  ⟨problem, record.span, source⟩

/-- The sentence that tells what is wrong. -/
def message (warning : Warning) : String :=
  warning.problem.message

/-- What a reader may want to know besides. -/
def notes (warning : Warning) : List String :=
  warning.problem.notes

end Warning

end JassOutline
