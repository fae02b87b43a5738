import JassOutline.Toml.Decode
import JassOutline.Toml.Parser

/-!
# Settings

How a source text is read may be set in a TOML file: how many lines text macros may produce, and
whether zinc blocks are read.
-/

namespace JassOutline

/-- How a source text is read. -/
structure Settings where
  /-- The number of lines that text macros may produce. -/
  expansionLimit : Option Nat
  /-- Whether the declarations of zinc blocks are read. -/
  readsZinc : Bool
  deriving DecidableEq, Repr

namespace Settings

/-- What holds where nothing is set. -/
def standard : Settings := ⟨none, true⟩

/-- The settings that a table gives. -/
def ofTable? (table : Toml.Table) : Option Settings :=
  if table.hasOnly ["max_expanded_lines", "zinc"] then do
    let expansionLimit ← table.optional? "max_expanded_lines" Toml.Value.asNat?
    let readsZinc ← table.optional? "zinc" Toml.Value.asBoolean?
    some ⟨expansionLimit, readsZinc.getD true⟩
  else none

/-- The settings that a TOML text gives. -/
def ofToml? (text : List Char) : Option Settings :=
  (Toml.parse? text).bind ofTable?

end Settings

end JassOutline
