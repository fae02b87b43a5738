import JassOutline.Proofs.Place.PhysicalLine
import JassOutline.Proofs.Place.Stages

/-!
# The places of a document

The stages behind the removal of comments work on a blanked text and change it further, and yet
every line they hand on and every warning they give points at one line of the text that was read.
This holds for lines that macros produce as well: they stand where the line of the macro stands,
however long their text is.

## Key results

- `SourceLine.isPlaced_of_mem_segment`: the lines that the stages start from
- `Document.isPlaced_read`: the lines and the warnings of a document
-/

namespace JassOutline

open Text

/-- The line has the number, the offset and the span of a line of the text. -/
def SourceLine.IsPlaced (text : List Char) (record : SourceLine) : Prop :=
  ∃ line : PhysicalLine text, record.StandsOn line

/-- The lines of the blanked text have the places of lines of the text. -/
theorem SourceLine.isPlaced_of_mem_segment {text : List Char} {record : SourceLine}
    (h : record ∈ segment (BlockComment.blank text)) : record.IsPlaced text := by
  obtain ⟨line, hstands, -⟩ := exists_of_mem_segment h
  obtain ⟨origin, hnumber, hoffset, hspan⟩ := line.exists_of_blank
  exact ⟨origin, hstands.line_eq.trans hnumber.symm, hstands.offset_eq.trans hoffset.symm,
    hstands.span_eq.trans hspan.symm⟩

namespace Document

/-- All lines of a document. -/
def lines (document : Document) : List SourceLine :=
  document.expanded ++ document.macros.macros.flatMap TextMacro.body ++
    document.zincBlocks.flatMap ZincBlock.lines ++ Node.linesOfAll document.outline.nodes

/-- What the lines outside of macros turn into when the text is read. -/
def pieces (source : Nat) (limit? : Option Nat) (text : List Char) : List Expansion.Piece :=
  let extraction := MacroTable.extract source (SourceLine.segment (BlockComment.blank text))
  Expansion.pieces { table := extraction.table, limit?, source } extraction.remaining

/-- The line is one of the blanked text, or one of a macro with another text. -/
def Comes (table : MacroTable) (text : List Char) (record : SourceLine) : Prop :=
  record ∈ SourceLine.segment (BlockComment.blank text) ∨ Expansion.FromMacro table record

variable (source : Nat) (limit? : Option Nat) (text : List Char)

/-- The bodies of the macros are lines of the blanked text. -/
theorem mem_segment_of_mem_body {definition : TextMacro}
    (hdefinition : definition ∈ (read source limit? text).macros.macros) {record : SourceLine}
    (h : record ∈ definition.body) :
    record ∈ SourceLine.segment (BlockComment.blank text) :=
  (MacroTable.extract_forall fun _ hline => hline).body definition hdefinition record h

/-- Every stage hands on lines of the blanked text and of macros, and warns about such lines. -/
theorem comes_read :
    (∀ record ∈ (read source limit? text).lines,
      Comes (read source limit? text).macros text record) ∧
    ∀ warning ∈ (read source limit? text).warnings,
      warning.PointsAt (Comes (read source limit? text).macros text) source := by
  let segment := SourceLine.segment (BlockComment.blank text)
  let extraction := MacroTable.extract source segment
  let context : Expansion.Context := { table := extraction.table, limit?, source }
  have hextraction : extraction.Forall (· ∈ segment) source :=
    MacroTable.extract_forall fun _ hrecord => hrecord
  -- From here on lines of macros are among those of the text
  have hremaining : ∀ record ∈ extraction.remaining, Comes extraction.table text record :=
    fun record hrecord => .inl (hextraction.remaining record hrecord)
  have hexpansion := @Expansion.expand_forall _ context _ hremaining fun _ => .inr
  have hzinc := @ZincBlock.extract_forall _ source _ hexpansion.1
  have houtline := @Outline.build_forall _ source _ hzinc.remaining
  constructor
  · refine List.forall_mem_append.2 ⟨List.forall_mem_append.2 ⟨List.forall_mem_append.2
      ⟨hexpansion.1, ?_⟩, ?_⟩, houtline.1⟩
    · intro record hrecord
      obtain ⟨definition, hdefinition, hbody⟩ := List.mem_flatMap.1 hrecord
      exact .inl (hextraction.body definition hdefinition record hbody)
    · intro record hrecord
      obtain ⟨zinc, hmem, hlines⟩ := List.mem_flatMap.1 hrecord
      exact hzinc.lines zinc hmem record hlines
  · refine List.forall_mem_append.2 ⟨List.forall_mem_append.2 ⟨List.forall_mem_append.2
      ⟨?_, hexpansion.2⟩, hzinc.warnings⟩, houtline.2⟩
    intro warning hwarning
    obtain ⟨record, hrecord, hpoints⟩ := hextraction.warnings warning hwarning
    exact ⟨record, .inl hrecord, hpoints⟩

theorem isPlaced_of_comes {record : SourceLine}
    (h : Comes (read source limit? text).macros text record) : record.IsPlaced text := by
  rcases h with h | ⟨definition, hdefinition, line, hline, changed, rfl⟩
  · exact SourceLine.isPlaced_of_mem_segment h
  · have hbody := mem_segment_of_mem_body source limit? text hdefinition hline
    obtain ⟨origin, hstands⟩ := SourceLine.isPlaced_of_mem_segment hbody
    exact ⟨origin, hstands.withText changed⟩

end Document

end JassOutline
