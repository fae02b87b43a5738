import JassOutline.Proofs.BlockComment.Reading
import JassOutline.SourceLine
import Mathlib.Data.List.DropRight

/-!
# Physical lines

A `PhysicalLine` of a text is a stretch of it from one line feed to the next. It knows what lies
before it, and so its number, its offset and its span are not counted along the way: they are the
line feeds and the bytes before it. A `SourceLine` stands on a physical line if it has the same
number, offset and span, whatever its own text is.

## Key results

- `SourceLine.exists_of_mem_segment`: the lines that a text is cut into stand on its lines
- `PhysicalLine.exists_of_blank`: a line of the blanked text is at the place of a line of the text
-/

namespace JassOutline

open Text

/-- A line of a text, and the text around it. -/
structure PhysicalLine (text : List Char) where
  before : List Char
  content : List Char
  /-- Carriage returns at the end of the line that are not counted as its content. -/
  returns : List Char
  behind : List Char
  text_eq : before ++ content ++ returns ++ behind = text
  starts : before = [] ∨ ∃ front, before = front ++ ['\n']
  isOneLine : '\n' ∉ content
  isReturn : ∀ c ∈ returns, c = '\r'
  ends : behind = [] ∨ ∃ rest, behind = '\n' :: rest

namespace PhysicalLine

variable {text : List Char}

/-- The number of the line, counted from zero. -/
def number (line : PhysicalLine text) : Nat :=
  line.before.count '\n'

/-- The byte at which the line starts. -/
def offset (line : PhysicalLine text) : Nat :=
  byteLength line.before

/-- The bytes of the content. -/
def span (line : PhysicalLine text) : ByteSpan :=
  ⟨line.offset, line.offset + byteLength line.content⟩

/-- What ends the line: carriage returns and a line feed, unless it is the last line. -/
def ending (line : PhysicalLine text) : List Char :=
  line.returns ++ line.behind.take 1

theorem isLineBreak_of_mem_ending (line : PhysicalLine text) :
    ∀ c ∈ line.ending, isLineBreak c = true := by
  refine List.forall_mem_append.2 ⟨fun c hc => ?_, ?_⟩
  · rw [line.isReturn c hc]
    decide
  · rcases line.ends with hnil | ⟨rest, hrest⟩
    · simp [hnil]
    · rw [hrest]
      exact List.forall_mem_singleton.2 (by decide)

end PhysicalLine

namespace SourceLine

/-- The line has the place of a physical line. -/
structure StandsOn {text : List Char} (record : SourceLine) (line : PhysicalLine text) : Prop where
  line_eq : record.line = line.number
  offset_eq : record.offset = line.offset
  span_eq : record.span = line.span

/-- The text of a line changes nothing about its place. -/
theorem StandsOn.withText {text : List Char} {record : SourceLine} {line : PhysicalLine text}
    (h : record.StandsOn line) (changed : List Char) : (record.withText changed).StandsOn line :=
  ⟨h.line_eq, h.offset_eq, h.span_eq⟩

/-! ### The lines that a text is cut into -/

/-- What a line drops from its end are carriage returns, if the line feed is left away. -/
theorem exists_returns {line : List Char} (h : '\n' ∉ line) :
    ∃ returns, line = dropEndWhile isLineBreak line ++ returns ∧ ∀ c ∈ returns, c = '\r' := by
  refine ⟨line.rtakeWhile isLineBreak, (List.rdropWhile_append_rtakeWhile ..).symm, ?_⟩
  intro c hc
  have hbreak := List.mem_rtakeWhile_imp hc
  have hmem : c ∈ line := (List.rtakeWhile_suffix isLineBreak line).subset hc
  have hne : c ≠ '\n' := fun heq => h (heq ▸ hmem)
  simpa [isLineBreak, hne] using hbreak

theorem dropEndWhile_concat_lineFeed (line : List Char) :
    dropEndWhile isLineBreak (line ++ ['\n']) = dropEndWhile isLineBreak line := by
  simp [dropEndWhile, isLineBreak]

/-- A line that is numbered by the line feeds before it stands where it was cut from. -/
theorem exists_standsOn_ofChars {text before line behind : List Char}
    (htext : before ++ line ++ behind = text)
    (hstarts : before = [] ∨ ∃ front, before = front ++ ['\n']) (hline : '\n' ∉ line)
    (hends : behind = [] ∨ ∃ rest, behind = '\n' :: rest) :
    ∃ physical : PhysicalLine text,
      (ofChars (line ++ behind.take 1) (before.count '\n') (byteLength before)).StandsOn physical ∧
        line ++ behind.take 1 = physical.content ++ physical.ending := by
  obtain ⟨returns, hreturns, hisReturn⟩ := exists_returns hline
  have hcontent : dropEndWhile isLineBreak (line ++ behind.take 1) =
      dropEndWhile isLineBreak line := by
    rcases hends with rfl | ⟨rest, rfl⟩
    · rw [List.take_nil, List.append_nil]
    · exact dropEndWhile_concat_lineFeed line
  have hmem : '\n' ∉ dropEndWhile isLineBreak line := fun h =>
    hline (hreturns ▸ List.mem_append_left _ h)
  refine ⟨⟨before, dropEndWhile isLineBreak line, returns, behind, ?_, hstarts, hmem, hisReturn,
    hends⟩, ⟨rfl, rfl, ?_⟩, ?_⟩
  · rw [List.append_assoc before, ← hreturns, htext]
  · rw [ofChars, hcontent]
    rfl
  · exact (congrArg (· ++ behind.take 1) hreturns).trans (List.append_assoc ..)

theorem exists_of_mem_numbered {text before rest : List Char} {record : SourceLine}
    (htext : before ++ rest = text)
    (hstarts : before = [] ∨ ∃ front, before = front ++ ['\n'])
    (h : record ∈ numbered (before.count '\n') (byteLength before) (linesOf rest)) :
    ∃ line : PhysicalLine text, record.StandsOn line ∧
      record.text.toList = line.content ++ line.ending := by
  -- Behind its first line, the rest is shorter
  induction hlength : rest.length using Nat.strong_induction_on generalizing before rest with
  | _ n ih =>
    by_cases hmem : '\n' ∈ rest
    · obtain ⟨line, later, rfl, hline⟩ := List.eq_append_cons_of_mem hmem
      rw [linesOf_append hline] at h
      rcases List.mem_cons.1 h with rfl | hlater
      · rw [← List.append_assoc] at htext
        obtain ⟨physical, hstands, heq⟩ :=
          exists_standsOn_ofChars htext hstarts hline (.inr ⟨later, rfl⟩)
        exact ⟨physical, hstands, by rw [← heq]; exact String.toList_ofList⟩
      · have hcount : before.count '\n' + 1 = (before ++ (line ++ ['\n'])).count '\n' := by
          rw [List.count_append, List.count_append, List.count_eq_zero_of_not_mem hline]
          rfl
        rw [hcount, ← byteLength_append] at hlater
        have hshorter : later.length < n := by
          rw [← hlength, List.length_append, List.length_cons]
          omega
        exact ih later.length hshorter (by simpa using htext)
          (.inr ⟨before ++ line, by rw [List.append_assoc]⟩) hlater rfl
    · by_cases hnil : rest = []
      · simp [hnil, linesOf, numbered] at h
      · rw [linesOf_of_not_mem hmem hnil, numbered, numbered, List.mem_singleton] at h
        have hwhole : before ++ rest ++ [] = text := by rw [List.append_nil, htext]
        obtain ⟨physical, hstands, heq⟩ :=
          exists_standsOn_ofChars hwhole hstarts hmem (.inl rfl)
        rw [List.take_nil, List.append_nil] at hstands heq
        exact ⟨physical, h ▸ hstands, by rw [h, ← heq]; exact String.toList_ofList⟩

/-- The lines that a text is cut into stand on its lines. -/
theorem exists_of_mem_segment {text : List Char} {record : SourceLine}
    (h : record ∈ segment text) :
    ∃ line : PhysicalLine text, record.StandsOn line ∧
      record.text.toList = line.content ++ line.ending :=
  exists_of_mem_numbered (List.nil_append text) (.inl rfl) h

end SourceLine

/-! ### Lines of the blanked text -/

namespace PhysicalLine

open BlockComment

/-- What is shown at the start of a line is a start of a line. -/
theorem starts_of_shown {marks : List (Char × Reading)} {before : List Char}
    (hshown : marks.flatMap shown = before)
    (h : before = [] ∨ ∃ front, before = front ++ ['\n']) :
    marks.map Prod.fst = [] ∨ ∃ front, marks.map Prod.fst = front ++ ['\n'] := by
  rcases h with rfl | ⟨front, rfl⟩
  · have hmarks : marks.flatMap shown = marks.map Prod.fst :=
      flatMap_shown_of_not_mem (by rw [hshown]; simp)
    exact .inl (hmarks.symm.trans hshown)
  · obtain ⟨first, last, rfl, -, hlast⟩ := exists_of_flatMap_shown hshown (.inr (by simp))
    have hmarks : last.flatMap shown = last.map Prod.fst :=
      flatMap_shown_of_not_mem (by rw [hlast]; simp)
    exact .inr ⟨first.map Prod.fst, by rw [List.map_append, ← hmarks, hlast]⟩

/-- What is shown at the end of a line is an end of a line. -/
theorem ends_of_shown {marks : List (Char × Reading)} {behind : List Char}
    (hshown : marks.flatMap shown = behind) (h : behind = [] ∨ ∃ rest, behind = '\n' :: rest) :
    marks.map Prod.fst = [] ∨ ∃ rest, marks.map Prod.fst = '\n' :: rest := by
  rcases h with rfl | ⟨rest, rfl⟩
  · have hmarks : marks.flatMap shown = marks.map Prod.fst :=
      flatMap_shown_of_not_mem (by rw [hshown]; simp)
    exact .inl (hmarks.symm.trans hshown)
  · rw [← List.singleton_append] at hshown
    obtain ⟨first, last, rfl, hfirst, -⟩ := exists_of_flatMap_shown hshown (.inl (by simp))
    have hmarks : first.flatMap shown = first.map Prod.fst :=
      flatMap_shown_of_not_mem (by rw [hfirst]; simp)
    exact .inr ⟨last.map Prod.fst, by rw [List.map_append, ← hmarks, hfirst]; rfl⟩

/-- A line of the blanked text is at the place of a line of the text. -/
theorem exists_of_blank {text : List Char} (line : PhysicalLine (blank text)) :
    ∃ origin : PhysicalLine text, origin.number = line.number ∧ origin.offset = line.offset ∧
      origin.span = line.span := by
  obtain ⟨before, content, returns, behind, htext, hstarts, hcontent, hreturns, hends⟩ := line
  -- The text is cut into the same four parts
  have hbehind : behind.head? ≠ some ' ' := by
    rcases hends with rfl | ⟨rest, rfl⟩ <;> simp
  have hending : (returns ++ behind).head? ≠ some ' ' := by
    cases returns with
    | nil => exact hbehind
    | cons c returns => simp [hreturns c List.mem_cons_self]
  have hbefore : before.getLast? ≠ some ' ' := by
    rcases hstarts with rfl | ⟨front, rfl⟩ <;> simp
  have hshown := (flatMap_shown_read text).trans htext.symm
  rw [List.append_assoc, List.append_assoc] at hshown
  obtain ⟨m₁, later, hread, hm₁, hlater⟩ := exists_of_flatMap_shown hshown (.inl hbefore)
  obtain ⟨m₂, last, rfl, hm₂, hlast⟩ := exists_of_flatMap_shown hlater (.inr hending)
  obtain ⟨m₃, m₄, rfl, hm₃, hm₄⟩ := exists_of_flatMap_shown hlast (.inr hbehind)
  -- No character of a comment is shown as a carriage return
  have hm₃' : m₃.map Prod.fst = returns := by
    rw [← hm₃, flatMap_shown_of_not_mem]
    intro hblank
    exact absurd (hreturns ' ' (hm₃ ▸ hblank)) (by decide)
  have hm₂' : '\n' ∉ m₂.map Prod.fst := by
    rw [← List.count_eq_zero, ← count_flatMap_shown, hm₂, List.count_eq_zero]
    exact hcontent
  refine ⟨⟨m₁.map Prod.fst, m₂.map Prod.fst, m₃.map Prod.fst, m₄.map Prod.fst, ?_,
    starts_of_shown hm₁ hstarts, hm₂', hm₃' ▸ hreturns, ends_of_shown hm₄ hends⟩, ?_, ?_, ?_⟩
  · rw [← map_fst_read text, hread]
    simp
  · rw [number, number, ← count_flatMap_shown, hm₁]
  · rw [offset, offset, ← byteLength_flatMap_shown, hm₁]
  · simp only [span, offset, ← byteLength_flatMap_shown, hm₁, hm₂]

end PhysicalLine

end JassOutline
