import JassOutline.Text.Blank

/-!
# Rows

The rows of a text are what lies between its line feeds, so that a text always has one row more
than line feeds. A `Row` knows the bytes it starts and ends at. Rows are what a reader sees of a
text; `splitLines` are the lines a file consists of.
-/

namespace JassOutline.Text

/-- What lies between two line feeds. -/
structure Row where
  /-- The byte the row starts at. -/
  start : Nat
  text : List Char
  /-- The byte the next row starts at, or the length of the text behind the last row. -/
  next : Nat
  deriving DecidableEq, Repr, Inhabited

/-- What lies before the first line feed, and what lies behind it. -/
def breakLine : List Char → List Char × Option (List Char)
  | [] => ([], none)
  | c :: rest =>
    if c = '\n' then ([], some rest)
    else
      let (row, behind) := breakLine rest
      (c :: row, behind)

theorem length_of_breakLine {text row rest : List Char} (h : breakLine text = (row, some rest)) :
    rest.length < text.length := by
  induction text generalizing row with
  | nil => simp [breakLine] at h
  | cons c text ih =>
    simp only [breakLine] at h
    split at h
    · cases h
      simp
    · simp only [Prod.mk.injEq] at h
      exact Nat.lt_succ_of_lt (ih (Prod.ext rfl h.2))

/-- The rows of a text that starts at the given byte. -/
def rowsFrom (start : Nat) (text : List Char) : List Row :=
  match _hbreak : breakLine text with
  | (row, none) => [⟨start, row, start + byteLength row⟩]
  | (row, some rest) =>
    let next := start + byteLength row + 1
    ⟨start, row, next⟩ :: rowsFrom next rest
termination_by text.length
decreasing_by exact length_of_breakLine _hbreak

/-- The rows of a text. -/
def rows (text : List Char) : List Row :=
  rowsFrom 0 text

/-- The number of the row that a byte lies in. The line feed belongs to the row it ends. -/
def rowIndex (rows : List Row) (byte : Nat) : Nat :=
  (rows.dropLast.takeWhile fun row => row.next ≤ byte).length

/-- The line without the carriage return it may end with. -/
def dropReturn (line : List Char) : List Char :=
  if line.getLast? = some '\r' then line.dropLast else line

/-- The lines of a text, without what ends them. A text that ends with a line feed has no line
behind it. -/
def splitLines (text : List Char) : List (List Char) :=
  let texts := (rows text).map Row.text
  let last := texts.getLast?.getD []
  texts.dropLast.map dropReturn ++ if last.isEmpty then [] else [last]

end JassOutline.Text
