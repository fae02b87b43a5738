import JassOutline.Proofs.Declaration.Trailing
import JassOutline.Proofs.Pairing.Outline

/-!
# Outlines of lines without their comments

`SourceLine.uncommentAll` leaves out the lines that are comments and cuts the comments at the end of
every other line. The lines of both texts answer to each other, so that the outline is the same but
for lines that are comments, and for lines that mean the same with and without the comments at their
end.

## Key results

- `SourceLine.exists_tokens_of_comment`: a comment line starts with a comment
- `SameLine.of_uncomment`: a line with and without the comments at its end
- `Pairing.uncommenting`: how the lines of both texts answer to each other
- `uncomments_build`, `problems_uncommented`: the outlines and their warnings
-/

namespace JassOutline

open Text Token

/-- The line without the comments at its end. A directive is left as it is. -/
def SourceLine.uncomment (record : SourceLine) : SourceLine :=
  if Directive.isMarked record.text.toList then record
  else record.withText (cutComments record.text.toList)

/-- The lines that are no comments, each without the comments at its end. -/
def SourceLine.uncommentAll (lines : List SourceLine) : List SourceLine :=
  (lines.filter (LineRole.ofLine · != .comment)).map uncomment

/-! ### Single lines -/

/-- A line that starts with two slashes is one whose first token is a comment. -/
theorem startsWith_slashes (line column : Nat) (text : List Char) :
    startsWith ['/', '/'] (trimStart text) =
      (tokenizeFrom line column text).head?.any isComment := by
  induction text generalizing column with
  | nil =>
    rw [tokenizeFrom_nil]
    rfl
  | cons c rest ih =>
    by_cases hblank : isBlank c = true
    · rw [tokenizeFrom_blank hblank, ← ih, trimStart, List.dropWhile_cons_of_pos hblank, trimStart]
    · rw [Bool.not_eq_true] at hblank
      rw [tokenizeFrom_cons hblank, trimStart, List.dropWhile_cons_of_neg (by simp [hblank]),
        Bool.eq_iff_iff, startsWith_iff]
      simp only [List.head?_cons, Option.any_some, isComment, beq_iff_eq, kind_extent_eq_comment,
        List.head?_eq_some_iff, List.cons_append, List.nil_append, List.cons.injEq,
        exists_and_left]

/-! ### Comment lines -/

namespace LineRole

theorem ofFirstWord?_ne_comment (word : String) : ofFirstWord? word ≠ some .comment := by
  unfold ofFirstWord?
  split <;> simp

theorem ofRoutineWord?_ne_comment (word : String) : ofRoutineWord? word ≠ some .comment := by
  unfold ofRoutineWord?
  split <;> simp

theorem ofContainerWord?_ne_comment (word : String) : ofContainerWord? word ≠ some .comment := by
  unfold ofContainerWord?
  split <;> simp

/-- No words make a line a comment. -/
theorem ofTokens_ne_comment (tokens : List Token) : ofTokens tokens ≠ .comment := by
  unfold ofTokens
  split
  · nofun
  · next word _ =>
    have hroutine : (wordAfter? routineModifiers tokens).bind ofRoutineWord? ≠ some .comment := by
      simp [Option.bind_eq_some_iff, ofRoutineWord?_ne_comment]
    have hcontainer :
        (wordAfter? visibilityWords tokens).bind ofContainerWord? ≠ some .comment := by
      simp [Option.bind_eq_some_iff, ofContainerWord?_ne_comment]
    generalize hrole : (ofFirstWord? word <|> _) = role?
    have hnot : role? ≠ some .comment := by
      simp [← hrole, Option.orElse_eq_or, ofFirstWord?_ne_comment, hroutine, hcontainer]
    cases role? with
    | some role => exact fun hcomment => hnot (congrArg some hcomment)
    | none => split <;> nofun

end LineRole

/-- The first token of a comment line is the comment. -/
theorem SourceLine.exists_tokens_of_comment {record : SourceLine}
    (h : LineRole.ofLine record = .comment) :
    ∃ token rest, record.tokens = token :: rest ∧ token.isComment = true := by
  have hslashes : startsWith ['/', '/'] (trimStart record.text.toList) = true := by
    by_contra hcode
    rw [LineRole.ofLine, if_neg hcode] at h
    exact LineRole.ofTokens_ne_comment _ h
  rw [startsWith_slashes record.line 0] at hslashes
  change record.tokens.head?.any isComment = true at hslashes
  cases htokens : record.tokens with
  | nil => simp [htokens] at hslashes
  | cons token rest => exact ⟨token, rest, rfl, by simpa [htokens] using hslashes⟩

/-! ### Lines that mean the same -/

/-- The second line means to the outline what the first one does, and says the same apart from
comments at its end. -/
structure SameLine (record record' : SourceLine) : Prop where
  role : LineRole.ofLine record' = LineRole.ofLine record
  tokens : TrimsTo record.tokens record'.tokens

namespace SameLine

variable {record record' : SourceLine}

/-- The place of a line does not matter. -/
theorem of_text_eq (h : record'.text = record.text) : SameLine record record' := by
  have htokens : TrimsTo record.tokens record'.tokens := by
    rw [SourceLine.tokens, SourceLine.tokens, h]
    exact trimsTo_tokenizeFrom ..
  refine ⟨?_, htokens⟩
  rw [LineRole.ofLine, LineRole.ofLine, h, LineRole.ofTokens_trimsTo htokens]

/-- A line that is neither a directive nor a comment means the same without the comments at its
end. -/
theorem of_cutComments (hmarked : Directive.isMarked record.text.toList = false)
    (hrole : LineRole.ofLine record ≠ .comment)
    (h : record'.text = String.ofList (cutComments record.text.toList)) :
    SameLine record record' := by
  have htokens : TrimsTo record.tokens record'.tokens := by
    rw [SourceLine.tokens, SourceLine.tokens, h, String.toList_ofList]
    exact trimsTo_cutComments ..
  have hcode : startsWith ['/', '/'] (trimStart record.text.toList) = false := by
    by_contra hslashes
    rw [Bool.not_eq_false] at hslashes
    simp [LineRole.ofLine, hslashes, hmarked] at hrole
  -- The first token is no comment, and so it is the first token of both lines
  have hcode' : startsWith ['/', '/'] (trimStart record'.text.toList) = false := by
    rw [startsWith_slashes record'.line 0]
    refine htokens.any_isComment_head? ?_
    rw [← hcode, startsWith_slashes record.line 0]
    rfl
  refine ⟨?_, htokens⟩
  simp only [LineRole.ofLine, hcode, hcode', LineRole.ofTokens_trimsTo htokens,
    Bool.false_eq_true, if_false]

theorem of_uncomment (hrole : LineRole.ofLine record ≠ .comment)
    (h : record'.text = record.uncomment.text) : SameLine record record' := by
  rw [SourceLine.uncomment] at h
  split at h
  · exact of_text_eq h
  · next hmarked => exact of_cutComments (by simpa using hmarked) hrole h

end SameLine

/-! ### Outlines -/

/-- Comments are left out, and every other line answers to one without the comments at its end. -/
def Pairing.uncommenting : Pairing where
  drops record := LineRole.ofLine record = .comment
  pairs := SameLine
  role_of_drops h := h
  role_eq h := h.role

/-- The second nodes are the first ones without the lines that are comments. The other lines mean
the same, the headers of blocks included, and no block is missing. -/
def Uncomments : List Node → List Node → Prop :=
  Pairing.uncommenting.Nodes

theorem SourceLine.lines_uncommentAll {lines lines' : List SourceLine}
    (h : lines'.map SourceLine.text = (uncommentAll lines).map SourceLine.text) :
    Pairing.uncommenting.Lines lines lines' := by
  induction lines generalizing lines' with
  | nil =>
    obtain rfl : lines' = [] := by simpa [SourceLine.uncommentAll] using h
    exact .nil
  | cons record rest ih =>
    by_cases hrole : LineRole.ofLine record = .comment
    · exact .drop hrole (ih (by simpa [SourceLine.uncommentAll, hrole] using h))
    · -- The edited text has a line for this one
      obtain ⟨record', rest', rfl, hrecord, hrest⟩ : ∃ record' rest', lines' = record' :: rest' ∧
          record'.text = record.uncomment.text ∧
          rest'.map SourceLine.text = (SourceLine.uncommentAll rest).map SourceLine.text := by
        simpa [SourceLine.uncommentAll, hrole, List.map_eq_cons_iff] using h
      exact .pair (SameLine.of_uncomment hrole hrecord) (ih hrest)

namespace Outline

variable (source : Nat) {lines lines' : List SourceLine}

/-- Without its comments, a text has the same outline. -/
theorem uncomments_build
    (h : lines'.map SourceLine.text = (SourceLine.uncommentAll lines).map SourceLine.text) :
    Uncomments (build source lines).1.nodes (build source lines').1.nodes :=
  paired_build source (SourceLine.lines_uncommentAll h)

theorem problems_uncommented
    (h : lines'.map SourceLine.text = (SourceLine.uncommentAll lines).map SourceLine.text) :
    (build source lines').2.map Warning.problem = (build source lines).2.map Warning.problem :=
  problems_paired source (SourceLine.lines_uncommentAll h)

end Outline

theorem Uncomments.shapes {nodes nodes' : List Node} (h : Uncomments nodes nodes') :
    Node.shapes nodes' = Node.shapes nodes :=
  Pairing.Nodes.shapes h

end JassOutline
