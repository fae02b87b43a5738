import JassOutline.Document
import JassOutline.Proofs.LineEnd.Expansion
import JassOutline.Proofs.LineEnd.Segment
import JassOutline.Proofs.Pairing.Declaration
import JassOutline.Proofs.Zinc.Uncommented

/-!
# Documents whose lines end with carriage returns

What is read of a text does not depend on whether its lines end with a line feed or with a carriage
return and a line feed, if the literals on every line are closed. Inside of a block comment the
carriage return is blanked, and a comment of a line that ends there takes that blank with it. The
reader of block comments does not see such a comment: an argument of a macro may open it.

## Key results

- `Pairing.lineEnds`, `Pairing.keeps_lineEnds`: the lines of both outlines and what they declare
- `Document.extraction_withReturns`, `Document.expansion_withReturns`, `Document.zinc_withReturns`:
  the stages
- `Document.read_withReturns`: what both documents have in common
-/

namespace JassOutline

open Text Token

variable {isOpen : Nat → Bool} {lines lines' : List SourceLine}

/-! ### Lines of which all literals are closed -/

/-- Two lines that are alike, and of which all literals are closed. -/
def SourceLine.AlikeClosed (isOpen : Nat → Bool) (record record' : SourceLine) : Prop :=
  (∀ token ∈ record.tokens, token.isClosed = true) ∧ record.Alike isOpen record'

theorem SourceLine.tokens_flatMap (h : List.Forall₂ (AlikeClosed isOpen) lines lines') :
    lines'.flatMap tokens = (lines.flatMap tokens).map (Token.pad isOpen) := by
  induction h with
  | nil => rfl
  | cons hrecord _ ih =>
    rw [List.flatMap_cons, List.flatMap_cons, List.map_append, hrecord.2.tokens_eq hrecord.1, ih]

theorem ZincBlock.tokens_pad {blocks blocks' : List ZincBlock}
    (h : List.Forall₂ (fun b b' => List.Forall₂ (SourceLine.AlikeClosed isOpen) b.lines b'.lines)
      blocks blocks') :
    tokens blocks' = (tokens blocks).map (Token.pad isOpen) := by
  rw [tokens, tokens]
  induction h with
  | nil => rfl
  | cons hlines _ ih =>
    rw [List.flatMap_cons, List.flatMap_cons, List.map_append, SourceLine.tokens_flatMap hlines, ih]

/-! ### Programs -/

/-- Lines that are alike answer to each other. -/
def Pairing.lineEnds (isOpen : Nat → Bool) : Pairing where
  drops _ := False
  pairs := SourceLine.AlikeClosed isOpen
  role_of_drops h := h.elim
  role_eq h := h.2.role h.1

theorem Pairing.lines_lineEnds (h : List.Forall₂ (SourceLine.AlikeClosed isOpen) lines lines') :
    (lineEnds isOpen).Lines lines lines' := by
  induction h with
  | nil => exact .nil
  | cons hrecord _ ih => exact .pair hrecord ih

/-- The comments of both outlines are the same but for the blank. -/
theorem Pairing.keeps_lineEnds :
    (lineEnds isOpen).Keeps (List.map (CommentLine.pad isOpen)) id where
  saysSame h := h.2.exists_trimsTo h.1
  nil := rfl
  drop h := h.elim
  comment {_ _ _ comments'} h hrole hcomments := by
    rw [SameComments, h.2.comment h.1 hrole, List.map_append, List.map_append, id, List.map_append,
      show comments'.map CommentLine.bare = _ from hcomments]
    rfl

namespace Zinc

/-- Comments take the blank in front of their line feed. -/
def Edit.pad (isOpen : Nat → Bool) : Edit where
  comments := List.map (CommentLine.pad isOpen)
  comments_nil := rfl
  behind := []

theorem ofTokensAfter_pad (comments : List CommentLine) (tokens : List Token) :
    Lexeme.ofTokensAfter (comments.map (CommentLine.pad isOpen))
        (tokens.map (Token.pad isOpen)) =
      (Lexeme.ofTokensAfter comments tokens).map (Edit.pad isOpen).lexeme := by
  induction tokens generalizing comments with
  | nil => rfl
  | cons token rest ih =>
    rw [List.map_cons, Lexeme.ofTokensAfter, Lexeme.ofTokensAfter, isComment_pad]
    split
    · next hcomment =>
      have hcommentOf : Lexeme.commentOf (token.pad isOpen) =
          (Lexeme.commentOf token).pad isOpen := commentLine_pad hcomment
      rw [← ih, List.map_append, hcommentOf]
      rfl
    · next hcomment =>
      have hrest : Lexeme.ofTokensAfter [] (rest.map (Token.pad isOpen)) = _ := ih []
      rw [pad_of_not_isComment (by simpa using hcomment), hrest]
      rfl

theorem parse_pad (tokens : List Token) :
    parse (tokens.map (Token.pad isOpen)) =
      (parse tokens).map (Program.mapComments (List.map (CommentLine.pad isOpen))) := by
  have hlexemes : Lexeme.ofTokens (tokens.map (Token.pad isOpen)) =
      (Edit.pad isOpen).apply (Lexeme.ofTokens tokens) :=
    (ofTokensAfter_pad [] tokens).trans (List.append_nil _).symm
  exact parse_of_apply rfl hlexemes

end Zinc

/-! ### Documents -/

namespace Document

/-- The definitions of macros in a text, and the lines that remain. -/
def extraction (source : Nat) (text : List Char) : MacroTable.Extraction :=
  MacroTable.extract source (SourceLine.segment (BlockComment.blank text))

/-- What the lines of a text are expanded with. -/
def context (source : Nat) (limit? : Option Nat) (text : List Char) : Expansion.Context :=
  { table := (extraction source text).table, limit?, source }

/-- The lines of a text with every invocation replaced. -/
def expansion (source : Nat) (limit? : Option Nat) (text : List Char) : Expansion.Output :=
  Expansion.expand (context source limit? text) (extraction source text).remaining

/-- The zinc blocks of a text, and the lines that remain. -/
def zinc (source : Nat) (limit? : Option Nat) (text : List Char) : ZincBlock.Extraction :=
  ZincBlock.extract source (expansion source limit? text).lines

theorem warnings_read (source : Nat) (limit? : Option Nat) (text : List Char) :
    (read source limit? text).warnings =
      (extraction source text).warnings ++ (expansion source limit? text).warnings ++
        (zinc source limit? text).warnings ++
          (Outline.build source (zinc source limit? text).remaining).2 := rfl

/-- The zinc tokens of a text whose invocations are replaced in the given number of steps. -/
theorem zincTokens_of_halts {source : Nat} {limit? : Option Nat} {text : List Char} {steps : Nat}
    (h : ((Expansion.Machine.start (extraction source text).remaining).after
      (context source limit? text) steps).step (context source limit? text) = none) :
    (read source limit? text).zincTokens =
      ZincBlock.tokens (ZincBlock.extract source ((Expansion.Machine.start
        (extraction source text).remaining).after (context source limit? text)
          steps).output.lines).blocks := by
  rw [Expansion.Machine.output_after h]
  rfl

/-- The token lists that are read of a text: those of the directives that open definitions and that
invoke macros, without their marker, and those of the lines of the expanded stream. -/
inductive Lexes (source : Nat) (limit? : Option Nat) (text : List Char) : List Token → Prop where
  | header {record : SourceLine} :
    record ∈ SourceLine.segment (BlockComment.blank text) →
    Directive.ofLine? record = some .macroStart →
    Lexes source limit? text (TextMacro.directiveTokens record)
  | invocation {machine behind : Expansion.Machine} {record : SourceLine} :
    Expansion.Machine.Reaches (context source limit? text)
      (.start (extraction source text).remaining) machine →
    machine.next? = some (record, behind) →
    Directive.ofLine? record = some .macroRun →
    Lexes source limit? text (TextMacro.directiveTokens record)
  | line {record : SourceLine} :
    record ∈ (expansion source limit? text).lines →
    Lexes source limit? text record.tokens

/-- Whether the invocations of a text are replaced in the given number of steps, and all literals
are closed that are read on the way. -/
def closesLiterals (source : Nat) (limit? : Option Nat) (text : List Char) (steps : Nat) : Bool :=
  let context := context source limit? text
  let start := Expansion.Machine.start (extraction source text).remaining
  ((start.after context steps).step context).isNone &&
    (SourceLine.segment (BlockComment.blank text)).all (fun record =>
      Directive.ofLine? record != some .macroStart ||
        (TextMacro.directiveTokens record).all Token.isClosed) &&
    (start.trace context steps).all (fun machine => machine.next?.all fun next =>
      Directive.ofLine? next.1 != some .macroRun ||
        (TextMacro.directiveTokens next.1).all Token.isClosed) &&
    (start.after context steps).output.lines.all (·.tokens.all Token.isClosed)

section

variable {source : Nat} {limit? : Option Nat} {text : List Char} {steps : Nat}
  (h : closesLiterals source limit? text steps = true)

include h

theorem expansion_of_closesLiterals :
    expansion source limit? text =
      ((Expansion.Machine.start (extraction source text).remaining).after
        (context source limit? text) steps).output := by
  simp only [closesLiterals, Bool.and_eq_true, Option.isNone_iff_eq_none] at h
  exact (Expansion.Machine.output_after h.1.1.1).symm

theorem isClosed_of_closesLiterals {tokens : List Token}
    (hlexes : Lexes source limit? text tokens) : ∀ token ∈ tokens, token.isClosed = true := by
  have hexpansion := expansion_of_closesLiterals h
  simp only [closesLiterals, Bool.and_eq_true, List.all_eq_true, Option.isNone_iff_eq_none] at h
  obtain ⟨⟨⟨hend, hheaders⟩, hinvocations⟩, hlines⟩ := h
  cases hlexes with
  | header hrecord hstart => simpa [hstart] using hheaders _ hrecord
  | invocation hreaches hnext hrun =>
    have hmachine := hinvocations _ (Expansion.Machine.mem_trace hend hreaches)
    simpa [hnext, hrun] using hmachine
  | line hrecord =>
    rw [hexpansion] at hrecord
    exact hlines _ hrecord

/-- The zinc tokens of a text, computed. -/
theorem zincTokens_of_closesLiterals :
    (read source limit? text).zincTokens =
      ZincBlock.tokens (ZincBlock.extract source ((Expansion.Machine.start
        (extraction source text).remaining).after (context source limit? text)
          steps).output.lines).blocks := by
  simp only [closesLiterals, Bool.and_eq_true, Option.isNone_iff_eq_none] at h
  exact zincTokens_of_halts h.1.1.1

end

section

variable (source : Nat) (limit? : Option Nat) {text : List Char} (hreturn : '\r' ∉ text)
  (hclosed : ∀ tokens, Lexes source limit? text tokens → ∀ token ∈ tokens, token.isClosed = true)

include hreturn hclosed

/-- With and without carriage returns, a text has definitions that are alike, and lines outside of
them that are alike. -/
theorem extraction_withReturns :
    (extraction source text).Pairs (SourceLine.Alike (BlockComment.isOpenAt text))
      (extraction source (withReturns text)) := by
  have hheaders : ∀ record ∈ SourceLine.segment (BlockComment.blank text),
      Directive.ofLine? record = some .macroStart →
        ∀ token ∈ TextMacro.directiveTokens record, token.isClosed = true :=
    fun record hrecord hstart => hclosed _ (.header hrecord hstart)
  have hsegment := (List.forall₂_and_left _ _).2 ⟨hheaders, SourceLine.alike_segment hreturn⟩
  have hpairs : (extraction source text).Pairs _ (extraction source (withReturns text)) :=
    MacroTable.extract_pairs (fun _ _ h => h.2.directive)
      (fun _ _ h hstart => h.2.signature? (h.1 hstart)) hsegment
  exact ⟨hpairs.macros.imp fun _ _ h => h.imp fun _ _ h => h.2,
    hpairs.remaining.imp fun _ _ h => h.2, hpairs.problems⟩

/-- With and without carriage returns, a text is expanded to lines that are alike. -/
theorem expansion_withReturns :
    (expansion source limit? text).Alike (BlockComment.isOpenAt text)
      (expansion source limit? (withReturns text)) := by
  have hextraction := extraction_withReturns source limit? hreturn hclosed
  have hcontext : (context source limit? text).Alike (BlockComment.isOpenAt text)
      (context source limit? (withReturns text)) := ⟨hextraction.macros, rfl⟩
  exact Expansion.expand_alike hcontext hextraction.remaining
    fun _ hreaches _ _ hnext hrun => hclosed _ (.invocation hreaches hnext hrun)

/-- With and without carriage returns, a text has zinc blocks that are alike, and lines outside of
them that are alike. -/
theorem zinc_withReturns :
    (zinc source limit? text).Pairs (SourceLine.AlikeClosed (BlockComment.isOpenAt text))
      (zinc source limit? (withReturns text)) := by
  have hexpansion := expansion_withReturns source limit? hreturn hclosed
  refine ZincBlock.extract_pairs (fun _ _ h => h.2.directive) _
    ((List.forall₂_and_left _ _).2 ⟨fun record hrecord => hclosed _ (.line hrecord), ?_⟩)
  exact hexpansion.lines

end

/-- Two documents that are read the same, but that the comments of the second take the blank in
front of their line feed. Places in the source may differ. -/
structure Alike (isOpen : Nat → Bool) (document document' : Document) : Prop where
  macros :
    document'.macros.macros.map (fun definition => (definition.name, definition.parameters)) =
      document.macros.macros.map (fun definition => (definition.name, definition.parameters))
  zincTokens : document'.zincTokens = document.zincTokens.map (Token.pad isOpen)
  shapes : Node.shapes document'.outline.nodes = Node.shapes document.outline.nodes
  messages : document'.warnings.map Warning.message = document.warnings.map Warning.message
  notes : document'.warnings.map Warning.notes = document.warnings.map Warning.notes
  program : document'.program.bare =
    (document.program.mapComments (List.map (CommentLine.pad isOpen))).bare
  zincProgram : document'.zincProgram =
    document.zincProgram.map (Program.mapComments (List.map (CommentLine.pad isOpen)))

/-- A text without carriage returns, in which every string literal and every raw code that is read
is closed on its line, is read the same if a carriage return is put in front of every line feed.
Both documents have the same macros, the same zinc tokens, the same blocks, the same warnings in the
same order, the same program apart from places and the same zinc program or zinc error, but for the
comments of lines that end inside of a block comment: such a comment has one more blank at its
end. -/
theorem read_withReturns (source : Nat) (limit? : Option Nat) {text : List Char}
    (hreturn : '\r' ∉ text)
    (hclosed : ∀ tokens, Lexes source limit? text tokens →
      ∀ token ∈ tokens, token.isClosed = true) :
    (read source limit? text).Alike (BlockComment.isOpenAt text)
      (read source limit? (withReturns text)) := by
  have hextraction := extraction_withReturns source limit? hreturn hclosed
  have hexpansion := expansion_withReturns source limit? hreturn hclosed
  have hzinc := zinc_withReturns source limit? hreturn hclosed
  have houtline := Pairing.lines_lineEnds hzinc.remaining
  have hnodes : (Pairing.lineEnds (BlockComment.isOpenAt text)).Nodes
      (read source limit? text).outline.nodes
        (read source limit? (withReturns text)).outline.nodes :=
    Outline.paired_build source houtline
  have htokens : (read source limit? (withReturns text)).zincTokens =
      (read source limit? text).zincTokens.map (Token.pad (BlockComment.isOpenAt text)) :=
    ZincBlock.tokens_pad hzinc.blocks
  have hproblems : (read source limit? (withReturns text)).warnings.map Warning.problem =
      (read source limit? text).warnings.map Warning.problem := by
    simp only [warnings_read, List.map_append, hextraction.problems, hexpansion.problems,
      hzinc.problems, Outline.problems_paired source houtline]
  obtain ⟨hmessages, hnotes⟩ := Warning.texts_eq hproblems
  -- Neither program has a comment in front of its first declaration
  have hnone : SameComments (List.map (CommentLine.pad (BlockComment.isOpenAt text))) id [] [] :=
    rfl
  have hdeclared := hnodes.bare_ofNodes Pairing.keeps_lineEnds .program hnone
  rw [SameDeclarations, Declarations.mapComments_id] at hdeclared
  exact {
    macros := TextMacro.signatures_eq hextraction.macros
    zincTokens := htokens
    shapes := hnodes.shapes
    messages := hmessages
    notes := hnotes
    program := congrArg (Program.ofDeclarations source) hdeclared
    zincProgram := by
      rw [zincProgram, htokens]
      exact Zinc.parse_pad _ }

/-- A macro whose argument opens a comment on a line that ends inside of a block comment. -/
def openLineText : List Char :=
  ("//! textmacro M(p)\n$p$ a /* b\nc */\n//! endtextmacro\n//! zinc\n" ++
    "//! runtextmacro M(\"//\")\nfunction f() {}\n//! endzinc\nendglobals\n").toList

theorem not_mem_openLineText : '\r' ∉ openLineText := by
  decide +kernel

theorem closesLiterals_openLineText : closesLiterals 0 none openLineText 12 = true := by
  decide +kernel

/-- A text whose only comment has one more blank with carriage returns. -/
theorem read_withReturns_openLineText :
    '\r' ∉ openLineText ∧
    (∀ tokens, Lexes 0 none openLineText tokens → ∀ token ∈ tokens, token.isClosed = true) ∧
    (read 0 none openLineText).Alike (BlockComment.isOpenAt openLineText)
      (read 0 none (withReturns openLineText)) := by
  have hclosed : ∀ tokens, Lexes 0 none openLineText tokens →
      ∀ token ∈ tokens, token.isClosed = true :=
    fun _ => isClosed_of_closesLiterals closesLiterals_openLineText
  exact ⟨not_mem_openLineText, hclosed, read_withReturns 0 none not_mem_openLineText hclosed⟩

/-- With carriage returns, the comment that an argument opens is not the same: it has a blank
more. -/
theorem comment_of_openLineText :
    '\r' ∉ openLineText ∧
    (∀ tokens, Lexes 0 none openLineText tokens → ∀ token ∈ tokens, token.isClosed = true) ∧
    (read 0 none openLineText).zincTokens.head? = some ⟨.comment, "// a     ", 1, 0, 9⟩ ∧
    (read 0 none (withReturns openLineText)).zincTokens.head? =
      some ⟨.comment, "// a      ", 1, 0, 10⟩ := by
  have hcloses : closesLiterals 0 none (withReturns openLineText) 12 = true := by decide +kernel
  refine ⟨not_mem_openLineText, fun _ => isClosed_of_closesLiterals closesLiterals_openLineText,
    ?_, ?_⟩
  · rw [zincTokens_of_closesLiterals closesLiterals_openLineText]
    decide +kernel
  · rw [zincTokens_of_closesLiterals hcloses]
    decide +kernel

end Document

end JassOutline
