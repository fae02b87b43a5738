import JassOutline.Proofs.Declaration.Attachment
import JassOutline.Proofs.Place.Stages

/-!
# Comments and the lines between

A comment belongs to the declaration below it if only comments of the same declaration lie in
between. The outline sees the lines that are left when text macros and zinc blocks have been taken
out, so this holds for what is left: a line between a comment and its declaration is one of their
comments, or it was taken out before. A zinc block or the definition of a macro between a comment
and a declaration does not part them.

## Key results

- `Document.sublist_outlined`: without invocations, the outline is made of lines of the text
- `Document.comments_attached`: what lies between a comment and its declaration
-/

namespace JassOutline

variable {source : Nat} {lines : List SourceLine}

/-! ### What the stages leave -/

theorem MacroTable.extractFrom_sublist (known : List String) :
    (extractFrom source known lines).remaining.Sublist lines := by
  fun_induction extractFrom source known lines with
  | case1 => exact .slnil
  | case2 => exact List.nil_sublist _
  | case3 known record rest hdirective body closer later hstop hend definition next ih =>
    -- The closing line is dropped with the definition
    have hlater : (closer :: later).Sublist rest := hstop ▸ List.dropWhile_sublist _
    exact ((ih.trans (List.sublist_cons_self ..)).trans hlater).cons _
  | case4 known record rest hdirective body closer later hstop hend definition next ih =>
    -- The header that ends the definition is read again, so it is still among the lines
    have hlater : (closer :: later).Sublist rest := hstop ▸ List.dropWhile_sublist _
    exact (ih.trans hlater).cons _
  | case5 known record rest hdirective next ih => exact ih.cons _
  | case6 known record rest next hstart hend ih => exact ih.cons_cons _

theorem ZincBlock.extract_sublist : (extract source lines).remaining.Sublist lines := by
  fun_induction extract source lines with
  | case1 => exact .slnil
  | case2 => exact List.nil_sublist _
  | case3 record rest hdirective inside closer later hstop next ih =>
    -- The closing line is dropped with the block
    have hlater : (closer :: later).Sublist rest := hstop ▸ List.dropWhile_sublist _
    exact ((ih.trans (List.sublist_cons_self ..)).trans hlater).cons _
  | case4 record rest hdirective next ih => exact ih.cons _
  | case5 record rest next hstart hend ih => exact ih.cons_cons _

/-- The lines of a text are numbered from top to bottom. -/
theorem SourceLine.pairwise_numbered (line offset : Nat) (texts : List (List Char)) :
    (numbered line offset texts).Pairwise (·.line < ·.line) ∧
      ∀ record ∈ numbered line offset texts, line ≤ record.line := by
  induction texts generalizing line offset with
  | nil => exact ⟨.nil, by simp [numbered]⟩
  | cons text rest ih =>
    obtain ⟨hpairwise, hle⟩ := ih (line + 1) (offset + Text.byteLength text)
    refine ⟨.cons (fun record hrecord => hle record hrecord) hpairwise, ?_⟩
    refine List.forall_mem_cons.2 ⟨Nat.le_refl _, fun record hrecord => ?_⟩
    exact Nat.le_of_succ_le (hle record hrecord)

/-! ### What lies between -/

/-- In a stream whose lines are numbered from top to bottom, the lines from the first comment of a
declaration to its first line are its comments. -/
theorem Heading.Attached.comment_of_between {heading : Heading} (h : heading.Attached lines)
    (hlines : lines.Pairwise (·.line < ·.line)) {comment : CommentLine}
    (hcomment : comment ∈ heading.comments) :
    (∃ record ∈ lines, LineRole.ofLine record = .comment ∧ comment = .ofLine record ∧
      record.line = comment.region.start.line ∧ record.line < heading.region.start.line) ∧
    ∀ record ∈ lines, comment.region.start.line < record.line →
      record.line < heading.region.start.line →
      LineRole.ofLine record = .comment ∧ CommentLine.ofLine record ∈ heading.comments := by
  obtain ⟨before, run, first, after, rfl, hrun, hcomments, hline⟩ := h
  rw [hcomments] at hcomment ⊢
  obtain ⟨own, hown, rfl⟩ := List.mem_map.1 hcomment
  rw [CommentLine.line_ofLine, hline]
  rw [List.pairwise_append, List.pairwise_append, List.pairwise_cons] at hlines
  obtain ⟨⟨-, -, hbefore⟩, ⟨hafter, -⟩, hcross⟩ := hlines
  have hfirst : own.line < first.line :=
    hcross own (List.mem_append_right _ hown) first List.mem_cons_self
  refine ⟨⟨own, by simp [hown], hrun own hown, rfl, rfl, hfirst⟩, fun record hrecord hlt hgt => ?_⟩
  -- What stands before the run or from the first line on does not lie between
  rcases List.mem_append.1 hrecord with hrecord | hrecord
  · rcases List.mem_append.1 hrecord with hrecord | hrecord
    · have := hbefore record hrecord own hown
      omega
    · exact ⟨hrun record hrecord, List.mem_map_of_mem hrecord⟩
  · rcases List.mem_cons.1 hrecord with rfl | hrecord
    · omega
    · have := hafter record hrecord
      omega

namespace Document

/-- The lines that the outline is made of. -/
def outlined (document : Document) : List SourceLine :=
  (ZincBlock.extract document.source document.expanded).remaining

variable (limit? : Option Nat) {text : List Char}

/-- Without invocations, the outline is made of lines of the text. -/
theorem sublist_outlined
    (h : ∀ record ∈ SourceLine.segment (BlockComment.blank text),
      Directive.ofLine? record ≠ some .macroRun) :
    (read source limit? text).outlined.Sublist (SourceLine.segment (BlockComment.blank text)) := by
  have hremaining : (MacroTable.extract source (SourceLine.segment (BlockComment.blank
      text))).remaining.Sublist (SourceLine.segment (BlockComment.blank text)) :=
    MacroTable.extractFrom_sublist []
  have hexpanded : (read source limit? text).expanded =
      (MacroTable.extract source (SourceLine.segment (BlockComment.blank text))).remaining :=
    congrArg Expansion.Output.lines (Expansion.expandFrom_of_plain
      (fun record hrecord => h record (hremaining.subset hrecord)) _)
  rw [outlined, hexpanded]
  exact ZincBlock.extract_sublist.trans hremaining

/-- Take a text without invocations of macros, a declaration of its program, at any depth, and a
comment of the declaration. The comment is that of a comment line above the declaration. A line of
the text between that line and the first line of the declaration is a comment line as well, and its
comment one of the declaration, unless the line was taken out of the text together with a macro or
a zinc block. -/
theorem comments_attached (source : Nat)
    (h : ∀ record ∈ SourceLine.segment (BlockComment.blank text),
      Directive.ofLine? record ≠ some .macroRun) :
    ∀ heading ∈ (read source limit? text).program.headings, ∀ comment ∈ heading.comments,
      (∃ record ∈ (read source limit? text).outlined, LineRole.ofLine record = .comment ∧
        comment = .ofLine record ∧ record.line = comment.region.start.line ∧
        record.line < heading.region.start.line) ∧
      ∀ record ∈ SourceLine.segment (BlockComment.blank text),
        comment.region.start.line < record.line → record.line < heading.region.start.line →
        LineRole.ofLine record = .comment ∧ CommentLine.ofLine record ∈ heading.comments ∨
          record ∉ (read source limit? text).outlined := by
  intro heading hheading comment hcomment
  have hattached : heading.Attached (read source limit? text).outlined :=
    Program.attached_ofOutline source _ hheading
  have hsublist : (read source limit? text).outlined.Sublist _ := sublist_outlined limit? h
  have hpairwise := (SourceLine.pairwise_numbered 0 0 _).1.sublist hsublist
  obtain ⟨hline, hbetween⟩ := hattached.comment_of_between hpairwise hcomment
  refine ⟨hline, fun record _ hbehind hfront => ?_⟩
  by_cases hrecord : record ∈ (read source limit? text).outlined
  · exact .inl (hbetween record hrecord hbehind hfront)
  · exact .inr hrecord

/-- Two comments of a function, of which the first stands in front of a zinc block. -/
theorem comments_attached_two :
    let text := ("// one\n//! zinc\n//! endzinc\n// two\n" ++
      "function f takes nothing returns nothing\n").toList
    ((read 0 none text).program.headings.map fun heading =>
      (heading.name, heading.comments.map CommentLine.text)) = [(some "f", ["// one", "// two"])] ∧
    (∀ record ∈ SourceLine.segment (BlockComment.blank text),
      Directive.ofLine? record ≠ some .macroRun) ∧
    ∀ heading ∈ (read 0 none text).program.headings, ∀ comment ∈ heading.comments,
      (∃ record ∈ (read 0 none text).outlined, LineRole.ofLine record = .comment ∧
        comment = .ofLine record ∧ record.line = comment.region.start.line ∧
        record.line < heading.region.start.line) ∧
      ∀ record ∈ SourceLine.segment (BlockComment.blank text),
        comment.region.start.line < record.line → record.line < heading.region.start.line →
        LineRole.ofLine record = .comment ∧ CommentLine.ofLine record ∈ heading.comments ∨
          record ∉ (read 0 none text).outlined :=
  ⟨by decide +kernel, by decide +kernel, comments_attached none 0 (by decide +kernel)⟩

/-- A comment in front of a zinc block stays with the function behind the block. -/
theorem comment_attached_across_zinc :
    let text := ("// about f\n//! zinc\n//! endzinc\n" ++
      "function f takes nothing returns nothing\n").toList
    (∀ record ∈ SourceLine.segment (BlockComment.blank text),
      Directive.ofLine? record ≠ some .macroRun) ∧
    ∃ heading ∈ (read 0 none text).program.headings, ∃ comment ∈ heading.comments,
      ∃ record ∈ SourceLine.segment (BlockComment.blank text),
        comment.region.start.line < record.line ∧ record.line < heading.region.start.line ∧
        LineRole.ofLine record ≠ .comment := by
  decide +kernel

end Document

end JassOutline
