import JassOutline.Proofs.Declaration.Nodes
import JassOutline.Proofs.Writing.Construct
import JassOutline.Proofs.Writing.Passage
import JassOutline.Proofs.Writing.Plain

/-!
# Reading back what is written

A text that writes the declarations of a program is read as that program, up to places, and
nothing is warned about. The proof follows the writing: every line is a leaf of the outline, every
block a node of it, and both declare what they were written for.

## Key results

- `exists_nests_of_writes`: the lines denote a forest that declares what is written
- `Program.read_of_writes`: the round trip
-/

namespace JassOutline

open Token

/-! ### Written lines -/

/-- Every line of a written text is a written line. -/
theorem Writes.isWritten {scope : Scope} {comments : List CommentLine} {lines : List (List Char)}
    {declared : Declarations} (h : Writes scope comments lines declared) :
    ∀ text ∈ lines, IsWritten text := by
  induction h with
  | nil => simp
  | comment hplain hspells _ ih =>
    exact List.forall_mem_cons.2 ⟨.comment hplain hspells, ih⟩
  | line hline hspells _ ih =>
    exact List.forall_mem_cons.2 ⟨.labels hline.isPlain hspells, ih⟩
  | @block _ kind _ _ _ _ _ _ _ _ _ _ hheader hopener hcloser _ _ ihBody ihRest =>
    refine List.forall_mem_append.2 ⟨?_, ?_⟩
    · exact List.forall_mem_cons.2 ⟨.labels hheader.isPlain hopener, ihBody⟩
    · exact List.forall_mem_cons.2 ⟨.labels (isPlain_closer kind) hcloser, ihRest⟩

/-! ### The forest of a written text -/

/-- The records hold the lines, each with the line feed that ends it. -/
def Holds (records : List SourceLine) (lines : List (List Char)) : Prop :=
  records.map SourceLine.text = lines.map fun text => String.ofList (text ++ ['\n'])

theorem Holds.of_cons {records : List SourceLine} {text : List Char} {rest : List (List Char)}
    (h : Holds records (text :: rest)) :
    ∃ record later, records = record :: later ∧ record.text = String.ofList (text ++ ['\n']) ∧
      Holds later rest :=
  List.map_eq_cons_iff.1 h

theorem Holds.of_append {records : List SourceLine} {front back : List (List Char)}
    (h : Holds records (front ++ back)) :
    ∃ before behind, records = before ++ behind ∧ Holds before front ∧ Holds behind back :=
  List.map_eq_append_iff.1 (h.trans (List.map_append ..))

/-- The lines of a written text denote a forest that declares what is written. -/
theorem exists_nests_of_writes {scope : Scope} {comments : List CommentLine}
    {lines : List (List Char)} {declared : Declarations}
    (h : Writes scope comments lines declared) {records : List SourceLine}
    (hrecords : Holds records lines) (given : List CommentLine)
    (hgiven : given.map CommentLine.bare = comments.map CommentLine.bare) :
    ∃ nodes, Outline.Nests records nodes ∧
      (Declarations.ofNodes scope false given nodes).bare = declared.bare := by
  -- The comments in front vary: a comment line hands them on, any other line uses them up
  induction h generalizing records given with
  | nil =>
    obtain rfl : records = [] := List.map_eq_nil_iff.1 hrecords
    exact ⟨[], .nil, by rw [Declarations.ofNodes]⟩
  | @comment _ comments comment _ _ _ hplain hspells _ ih =>
    obtain ⟨record, later, rfl, hrecord, hlater⟩ := hrecords.of_cons
    obtain ⟨hrole, htext⟩ := LineRole.ofLine_of_comment hrecord hspells hplain
    have hmore : (given ++ [CommentLine.ofLine record]).map CommentLine.bare =
        (comments ++ [comment]).map CommentLine.bare := by
      simp [hgiven, CommentLine.bare, htext]
    obtain ⟨nodes, hnests, hnodes⟩ := ih hlater _ hmore
    exact ⟨_, .line (by rw [hrole]; rfl) hnests, by
      rw [Declarations.ofNodes_comment hrole, hnodes]⟩
  | line hline hspells _ ih =>
    obtain ⟨record, later, rfl, hrecord, hlater⟩ := hrecords.of_cons
    have hlabels := SourceLine.labels_tokens hrecord hspells hline.isPlain
    obtain ⟨role, hrole, hbracket, hcomment, hread⟩ := hline.bare_ofLine hlabels hgiven
    have hline := (LineRole.ofLine_of_spells hrecord hspells hline.isPlain).trans hrole
    obtain ⟨nodes, hnests, hnodes⟩ := ih hlater [] rfl
    exact ⟨_, .line (by rw [hline, hbracket]) hnests, by
      rw [Declarations.ofNodes_line hline hcomment, Declarations.bare_append,
        Declarations.bare_append, hread, hnodes]⟩
  | @block _ kind _ _ _ _ _ _ _ _ _ hadmits hheader hopener hcloser _ _ ihBody ihRest =>
    obtain ⟨front, behind, rfl, hfront, hbehind⟩ := hrecords.of_append
    obtain ⟨opener, body, rfl, hopenerText, hbody⟩ := hfront.of_cons
    obtain ⟨closer, later, rfl, hcloserText, hlater⟩ := hbehind.of_cons
    have hlabels := SourceLine.labels_tokens hopenerText hopener hheader.isPlain
    have hopens := (LineRole.ofLine_of_spells hopenerText hopener hheader.isPlain).trans
      (hheader.ofTokens hlabels)
    have hcloserLabels := SourceLine.labels_tokens hcloserText hcloser (isPlain_closer kind)
    have hcloses : LineRole.ofLine closer = .closes kind :=
      (LineRole.ofLine_of_spells hcloserText hcloser (isPlain_closer kind)).trans
        (LineRole.ofTokens_of_first hcloserLabels (by cases kind <;> rfl))
    -- The header is read with the comments above it, and the body starts without any
    obtain ⟨children, hchildren, hinside⟩ := ihBody hbody [] rfl
    obtain ⟨nodes, hnests, hnodes⟩ := ihRest hlater [] rfl
    exact ⟨_, .block hopens hcloses hchildren hnests, by
      rw [Declarations.ofNodes_block, if_pos hadmits, Declarations.bare_append,
        Declarations.bare_append,
        hheader.bare_ofBlock hlabels hgiven hinside, hnodes]⟩

/-! ### The round trip -/

theorem Holds.segment {lines : List (List Char)} (h : ∀ text ∈ lines, IsWritten text) :
    Holds (SourceLine.segment (unlines lines)) lines := by
  rw [Holds, SourceLine.text_segment, SourceLine.linesOf_unlines h, List.map_map]
  rfl

theorem Holds.ofLine?_eq_none {records : List SourceLine} {lines : List (List Char)}
    (hrecords : Holds records lines) (h : ∀ text ∈ lines, IsWritten text) :
    ∀ record ∈ records, Directive.ofLine? record = none := by
  intro record hmem
  have htext : record.text ∈ records.map SourceLine.text := List.mem_map_of_mem hmem
  rw [hrecords] at htext
  obtain ⟨text, hmem, heq⟩ := List.mem_map.1 htext
  exact Directive.ofLine?_of_isWritten heq.symm (h text hmem)

/-- A text that writes a program is read as the program, up to places, without a warning. -/
theorem Program.read_of_writes {program : Program} {lines : List (List Char)}
    (h : Writes .program [] lines program.declarations) (limit? : Option Nat) :
    (Document.read program.source limit? (unlines lines)).program.bare = program.bare ∧
      (Document.read program.source limit? (unlines lines)).warnings = [] := by
  have hwritten := h.isWritten
  -- No stage in front of the outline changes a written text
  have hholds := Holds.segment hwritten
  obtain ⟨nodes, hnests, hnodes⟩ := exists_nests_of_writes h hholds [] rfl
  obtain ⟨houtline, hwarnings⟩ := Outline.build_of_nests program.source hnests
  obtain ⟨hsource, hread, hreadWarnings⟩ := Document.read_of_plain program.source limit?
    (congrArg SourceLine.segment (BlockComment.blank_unlines hwritten))
    (hholds.ofLine?_eq_none hwritten)
  refine ⟨?_, hreadWarnings.trans hwarnings⟩
  rw [Document.program, hsource, hread, Program.ofOutline, houtline,
    Declarations.bare_ofDeclarations, hnodes]
  rfl

/-- Every program that can be written has a text, and whatever text writes it is read as it, up to
places, without a warning. -/
theorem Program.read_written (program : Program) (h : program.isWritable = true) :
    Writes .program [] program.lines program.declarations ∧
      ∀ lines, Writes .program [] lines program.declarations → ∀ limit?,
        (Document.read program.source limit? (unlines lines)).program.bare = program.bare ∧
          (Document.read program.source limit? (unlines lines)).warnings = [] :=
  ⟨program.writes_lines h, fun _ hwrites => Program.read_of_writes hwrites⟩

/-- A library with a struct and a function below a comment, and a native. -/
def Program.specimen : Program where
  natives := [⟨⟨some "GetUnit", [], .empty⟩, true, [⟨"integer", some "id", .empty⟩], some "unit"⟩]
  functions := []
  globals := [⟨⟨some "Count", [⟨"// how many", .empty⟩], .empty⟩, .hidden, false, some "integer",
    true⟩]
  structs := []
  libraries := [
    { name := some "Quest", comments := [⟨"// the quests", .empty⟩], region := .empty
      setUp := some "Start", requirements := ["Table", "Timer"], globals := []
      functions := [
        { name := some "Start", comments := [], region := .empty, visibility := .hidden
          isConstant := false, parameters := [], returns := some "nothing"
          locals := [⟨⟨some "i", [⟨"//", .empty⟩], .empty⟩, false, some "integer", false⟩]
          globals := [] }]
      structs := [
        { name := some "Item", comments := [], region := .empty, visibility := .exported
          parents := ["Base"]
          members := [⟨⟨some "cost", [], .empty⟩, .hidden, .static, true, true, some "real", true⟩]
          methods := [
            { name := some "drop", comments := [], region := .empty, visibility := .unmarked
              binding := .stub, returns := none, locals := [], globals := []
              parameters := [⟨"real", some "x", .empty⟩, ⟨"real", some "y", .empty⟩] }] }] }]
  types := [⟨⟨some "item", [], .empty⟩, some "widget"⟩]
  source := 0

theorem Program.read_written_specimen :
    Program.specimen.isWritable = true ∧
      (Document.read 0 none (unlines Program.specimen.lines)).program.bare =
        Program.specimen.bare :=
  have h : Program.specimen.isWritable = true := by decide
  ⟨h, ((Program.read_written Program.specimen h).2 _
    (Program.read_written Program.specimen h).1 none).1⟩

end JassOutline
