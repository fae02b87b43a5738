import JassOutline.Position
import JassOutline.Text.Blank

/-!
# Lines of a source text

A `SourceLine` is one line of text, which keeps the line feed that ends it, together with the
place it came from. `SourceLine.segment` cuts a text into its lines. A line may later stand for a
text other than the one at its place: `SourceLine.withText` changes the text and leaves the place.

Bridge lemmas: `flatten_linesOf` (no character is lost), `linesOf_append` and `linesOf_of_not_mem`
(where a text is cut), and `text_segment` (the texts of the lines are those of `linesOf`).
-/

namespace JassOutline

open Text

/-- A line of text and its place in the source. -/
structure SourceLine where
  text : String
  region : Region
  /-- The byte at which the line starts in the source. -/
  offset : Nat
  /-- The bytes of the line in the source, without the characters that end it. -/
  span : ByteSpan
  deriving DecidableEq, Repr, Inhabited

namespace SourceLine

/-- The line that reads `text` and stands at the given line number and byte offset. -/
def ofChars (text : List Char) (line offset : Nat) : SourceLine where
  text := String.ofList text
  region := .onLine line 0 (byteLength text)
  offset
  span := ⟨offset, offset + byteLength (dropEndWhile isLineBreak text)⟩

/-- The number of the line in the source. -/
def line (record : SourceLine) : Nat :=
  record.region.start.line

/-- Whether the line holds nothing but blanks. -/
def isEmpty (record : SourceLine) : Bool :=
  (trimStart record.text.toList).isEmpty

/-- The same place with another text. -/
def withText (record : SourceLine) (text : List Char) : SourceLine :=
  { record with
    text := String.ofList text
    region := record.region.withStop ⟨record.region.stop.line, byteLength text⟩ }

@[simp] theorem span_withText (record : SourceLine) (text : List Char) :
    (record.withText text).span = record.span := rfl

@[simp] theorem line_withText (record : SourceLine) (text : List Char) :
    (record.withText text).line = record.line := rfl

/-! ### Cutting a text into lines -/

/-- The lines of a text. Each keeps the line feed that ends it, and only the last may lack one. -/
def linesOf : List Char → List (List Char)
  | [] => []
  | c :: rest =>
    if c = '\n' then [c] :: linesOf rest
    else
      match linesOf rest with
      | [] => [[c]]
      | line :: lines => (c :: line) :: lines

theorem flatten_linesOf (text : List Char) : (linesOf text).flatten = text := by
  induction text with
  | nil => rfl
  | cons c rest ih =>
    simp only [linesOf]
    split
    · simp [ih]
    · split
      · next h => rw [h] at ih; simp [← ih]
      · next h => rw [h] at ih; simp [← ih]

theorem linesOf_append {text : List Char} (h : '\n' ∉ text) (rest : List Char) :
    linesOf (text ++ '\n' :: rest) = (text ++ ['\n']) :: linesOf rest := by
  induction text with
  | nil => simp [linesOf]
  | cons c text ih =>
    have hc : c ≠ '\n' := fun heq => h (heq ▸ List.mem_cons_self)
    rw [List.cons_append, linesOf, if_neg hc, ih fun hmem => h (List.mem_cons_of_mem _ hmem)]
    rfl

theorem linesOf_of_not_mem {text : List Char} (h : '\n' ∉ text) (hne : text ≠ []) :
    linesOf text = [text] := by
  induction text with
  | nil => exact absurd rfl hne
  | cons c text ih =>
    have hc : c ≠ '\n' := fun heq => h (heq ▸ List.mem_cons_self)
    cases text with
    | nil => simp [linesOf, hc]
    | cons d text =>
      rw [linesOf, if_neg hc, ih (fun hmem => h (List.mem_cons_of_mem _ hmem)) (by simp)]

/-- Numbers the lines from the given one and counts their offsets from the given byte. -/
def numbered (line offset : Nat) : List (List Char) → List SourceLine
  | [] => []
  | text :: rest => ofChars text line offset :: numbered (line + 1) (offset + byteLength text) rest

/-- The lines of a source text with their places. -/
def segment (source : List Char) : List SourceLine :=
  numbered 0 0 (linesOf source)

theorem text_numbered (line offset : Nat) (texts : List (List Char)) :
    (numbered line offset texts).map text = texts.map String.ofList := by
  induction texts generalizing line offset with
  | nil => rfl
  | cons _ _ ih => simp [numbered, ofChars, ih]

theorem text_segment (source : List Char) :
    (segment source).map text = (linesOf source).map String.ofList :=
  text_numbered 0 0 _

end SourceLine

end JassOutline
