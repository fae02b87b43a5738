import JassOutline.Proofs.BlockComment.Reading
import JassOutline.Proofs.LineEnd.Line

/-!
# Texts with carriage returns

`withReturns` puts a carriage return in front of every line feed of a text. Blanking its block
comments turns a carriage return inside of a block comment into a blank and leaves the other ones.
Line by line, the two texts are alike.

## Key results

- `BlockComment.blankFrom_withReturns`: what is shown of a text with carriage returns
- `SourceLine.alike_segment`: the lines of both texts
-/

namespace JassOutline

open Text

/-- The text with a carriage return in front of every line feed. -/
def Text.withReturns (text : List Char) : List Char :=
  text.flatMap fun c => if c = '\n' then ['\r', c] else [c]

@[simp] theorem Text.withReturns_nil : withReturns [] = [] := rfl

theorem Text.withReturns_feed (rest : List Char) :
    withReturns ('\n' :: rest) = '\r' :: '\n' :: withReturns rest := rfl

theorem Text.withReturns_cons {c : Char} (h : c ≠ '\n') (rest : List Char) :
    withReturns (c :: rest) = c :: withReturns rest := by
  rw [withReturns, List.flatMap_cons, if_neg h, withReturns]
  rfl

namespace BlockComment

/-- For each line feed whether it lies inside of a block comment. -/
def openEnds (marks : List (Char × Reading)) : List Bool :=
  (marks.filter (·.1 == '\n')).map (·.2 == .blockComment)

/-- Whether the line of the given number ends inside of a block comment. -/
def isOpenAt (text : List Char) (line : Nat) : Bool :=
  (openEnds (read text)).getD line false

/-- How the line ends whose line feed has the given reading. -/
def endOf (reading : Reading) : LineEnd :=
  if reading = .blockComment then .blankAndFeed else .returnAndFeed

/-- What the blanked text shows of a character, where a carriage return stands in front of every
line feed. -/
def shownWithReturn (mark : Char × Reading) : List Char :=
  if mark.1 = '\n' then (endOf mark.2).chars else shown mark

theorem endOf_ne_absent (reading : Reading) : endOf reading ≠ .absent := by
  rw [endOf]
  split <;> simp

theorem answers_endOf (reading : Reading) :
    LineEnd.Answers (reading == .blockComment) .feed (endOf reading) := by
  cases reading <;> first | exact .outside | exact .inside

theorem shownWithReturn_of_ne {mark : Char × Reading} (h : mark.1 ≠ '\n') :
    shownWithReturn mark = shown mark := if_neg h

/-! ### Blanking -/

theorem opensComment_withReturns {c : Char} {rest : List Char}
    (h : opensComment (c :: rest) = false) :
    opensComment (c :: withReturns rest) = false := by
  rw [opensComment_cons_eq_false] at h ⊢
  intro hslash
  cases rest with
  | nil => exact h hslash
  | cons d rest =>
    by_cases hd : d = '\n'
    · rw [hd, withReturns_feed]
      exact ⟨by simp, by simp⟩
    · rw [withReturns_cons hd]
      exact h hslash

theorem blankChar_return : blankChar '\r' = [' '] := by decide

theorem blankChar_feed : blankChar '\n' = ['\n'] := rfl

/-- What is shown of a text with carriage returns. A carriage return is read like the line feed
behind it, but for one that ends a string or a line comment. -/
theorem blankFrom_withReturns (mode : Mode) (text : List Char) :
    blankFrom mode (withReturns text) = (readFrom mode text).flatMap shownWithReturn := by
  fun_induction readFrom mode text with
  | case1 => simp [blankFrom]
  | case2 rest ih =>
    -- The two characters that open a block comment are no line feeds
    have hslash : shownWithReturn ('/', .blockComment) = [' '] := by decide
    have hstar : shownWithReturn ('*', .blockComment) = [' '] := by decide
    rw [withReturns_cons (by decide), withReturns_cons (by decide), blankFrom, ih]
    simp [hslash, hstar]
  | case3 rest ih =>
    -- Neither are those that open a line comment
    have hslash : ∀ reading, reading ≠ .blockComment → shownWithReturn ('/', reading) = ['/'] :=
      fun _ hreading =>
        (shownWithReturn_of_ne (show '/' ≠ '\n' by decide)).trans (shown_of_ne hreading)
    rw [withReturns_cons (by decide), withReturns_cons (by decide), blankFrom, ih]
    simp [hslash]
  | case4 c rest hblock hline ih =>
    by_cases hc : c = '\n'
    · -- In code a carriage return opens nothing and is kept
      subst hc
      have hreturn : opensComment ('\r' :: '\n' :: withReturns rest) = false := rfl
      have hfeed : opensComment ('\n' :: withReturns rest) = false := rfl
      rw [withReturns_feed, blankFrom_code hreturn, if_neg (by decide), blankFrom_code hfeed, ih]
      rfl
    · have hopens : opensComment (c :: rest) = false := by
        -- Nor does a carriage return behind the character let a comment open
        unfold opensComment
        split <;> simp_all
      rw [withReturns_cons hc, blankFrom_code (opensComment_withReturns hopens), List.flatMap_cons,
        shownWithReturn_of_ne hc, shown_of_ne (by split <;> simp)]
      by_cases hquote : c = '"' <;> simp_all
  -- Outside of code, a character is blanked or kept whatever stands behind it
  | case5 c rest ih | case6 c rest ih | case7 c rest ih | case8 c rest ih | case9 c rest ih =>
    by_cases hc : c = '\n'
    · simp_all [withReturns_feed, blankFrom, shownWithReturn, endOf, LineEnd.chars,
        blankChar_return, blankChar_feed]
    · simp_all [withReturns_cons, blankFrom, shownWithReturn, shown]

theorem blank_withReturns (text : List Char) :
    blank (withReturns text) = (read text).flatMap shownWithReturn :=
  blankFrom_withReturns .code text

/-! ### Marks up to a line feed -/

section

variable {marks : List (Char × Reading)}

theorem flatMap_shownWithReturn (h : ∀ mark ∈ marks, mark.1 ≠ '\n') :
    marks.flatMap shownWithReturn = marks.flatMap shown :=
  List.flatMap_congr fun mark hmark => shownWithReturn_of_ne (h mark hmark)

theorem isLineBreak_flatMap_shown
    (hfeed : ∀ mark ∈ marks, mark.1 ≠ '\n') (hreturn : ∀ mark ∈ marks, mark.1 ≠ '\r') :
    ∀ c ∈ marks.flatMap shown, isLineBreak c = false := by
  intro c hc
  obtain ⟨mark, hmark, hshown⟩ := List.mem_flatMap.1 hc
  rcases shown_eq_or mark with h | ⟨h, -⟩
  · obtain rfl := List.mem_singleton.1 (h ▸ hshown)
    simp [isLineBreak, hfeed mark hmark, hreturn mark hmark]
  · rw [h] at hshown
    rw [List.eq_of_mem_replicate hshown]
    rfl

theorem openEnds_of_not_mem (h : ∀ mark ∈ marks, mark.1 ≠ '\n') : openEnds marks = [] := by
  rw [openEnds, List.filter_eq_nil_iff.2 fun mark hmark => by simpa using h mark hmark]
  rfl

section

variable (h : ∀ mark ∈ marks, mark.1 ≠ '\n') (reading : Reading) (behind : List (Char × Reading))

include h

theorem openEnds_line :
    openEnds (marks ++ ('\n', reading) :: behind) =
      (reading == .blockComment) :: openEnds behind := by
  have hmarks := openEnds_of_not_mem h
  rw [openEnds, List.map_eq_nil_iff] at hmarks
  rw [openEnds, List.filter_append, hmarks]
  rfl

theorem flatMap_shownWithReturn_line :
    (marks ++ ('\n', reading) :: behind).flatMap shownWithReturn =
      marks.flatMap shown ++ (endOf reading).chars ++ behind.flatMap shownWithReturn := by
  rw [List.flatMap_append, List.flatMap_cons, flatMap_shownWithReturn h, List.append_assoc]
  rfl

omit h

theorem flatMap_shown_line :
    (marks ++ ('\n', reading) :: behind).flatMap shown =
      marks.flatMap shown ++ LineEnd.feed.chars ++ behind.flatMap shown := by
  have hfeed : shown ('\n', reading) = LineEnd.feed.chars := by cases reading <;> rfl
  rw [List.flatMap_append, List.flatMap_cons, hfeed, List.append_assoc]

end

theorem exists_first_feed (marks : List (Char × Reading)) :
    (∀ mark ∈ marks, mark.1 ≠ '\n') ∨
      ∃ before reading behind, marks = before ++ ('\n', reading) :: behind ∧
        ∀ mark ∈ before, mark.1 ≠ '\n' := by
  induction marks with
  | nil => exact .inl (List.forall_mem_nil _)
  | cons mark rest ih =>
    by_cases hmark : mark.1 = '\n'
    · exact .inr ⟨[], mark.2, rest, by rw [← hmark]; rfl, List.forall_mem_nil _⟩
    · obtain hrest | ⟨before, reading, behind, rfl, hbefore⟩ := ih
      · exact .inl (List.forall_mem_cons.2 ⟨hmark, hrest⟩)
      · exact .inr ⟨mark :: before, reading, behind, rfl, List.forall_mem_cons.2 ⟨hmark, hbefore⟩⟩

end

end BlockComment

/-! ### Lines -/

namespace SourceLine

open BlockComment

theorem linesOf_append_chars {ending : LineEnd} (h : ending ≠ .absent) {body : List Char}
    (hbody : '\n' ∉ body) (rest : List Char) :
    linesOf (body ++ ending.chars ++ rest) = (body ++ ending.chars) :: linesOf rest := by
  cases ending with
  | absent => exact absurd rfl h
  | feed => simpa [LineEnd.chars] using linesOf_append hbody rest
  | returnAndFeed =>
    have hreturn : '\n' ∉ body ++ ['\r'] := by simp [hbody]
    simpa [LineEnd.chars] using linesOf_append hreturn rest
  | blankAndFeed =>
    have hblank : '\n' ∉ body ++ [' '] := by simp [hbody]
    simpa [LineEnd.chars] using linesOf_append hblank rest

theorem alike_ofChars {isOpen : Nat → Bool} {line : Nat} {ending ending' : LineEnd}
    {body : List Char} (h : LineEnd.Answers (isOpen line) ending ending')
    (hbreak : ∀ c ∈ body, isLineBreak c = false) (offset offset' : Nat) :
    Alike isOpen (ofChars (body ++ ending.chars) line offset)
      (ofChars (body ++ ending'.chars) line offset') where
  line_eq := rfl
  exists_body := ⟨body, ending, ending', h, hbreak, String.toList_ofList, String.toList_ofList⟩

section

variable {isOpen : Nat → Bool} {marks : List (Char × Reading)} {line : Nat}
  (hopen : ∀ n, isOpen (line + n) = (openEnds marks).getD n false)
  (hreturn : ∀ mark ∈ marks, mark.1 ≠ '\r') (offset offset' : Nat)

include hopen hreturn

/-- Without a line feed, one line is left or none. -/
theorem alike_last (hfeed : ∀ mark ∈ marks, mark.1 ≠ '\n') :
    List.Forall₂ (Alike isOpen) (numbered line offset (linesOf (marks.flatMap shown)))
      (numbered line offset' (linesOf (marks.flatMap shownWithReturn))) := by
  have hbreak := isLineBreak_flatMap_shown hfeed hreturn
  have hnot : '\n' ∉ marks.flatMap shown := fun hmem => by simpa [isLineBreak] using hbreak _ hmem
  rw [openEnds_of_not_mem hfeed] at hopen
  have hends : LineEnd.Answers (isOpen line) .absent .absent := by
    rw [show isOpen line = false from hopen 0]
    exact .absent
  rw [flatMap_shownWithReturn hfeed]
  by_cases hnil : marks.flatMap shown = []
  · rw [hnil]
    exact .nil
  · rw [linesOf_of_not_mem hnot hnil]
    have hline := alike_ofChars hends hbreak offset offset'
    rw [LineEnd.chars, List.append_nil] at hline
    exact .cons hline .nil

/-- Line by line, what is shown of marks is alike with and without carriage returns. -/
theorem alike_numbered :
    List.Forall₂ (Alike isOpen) (numbered line offset (linesOf (marks.flatMap shown)))
      (numbered line offset' (linesOf (marks.flatMap shownWithReturn))) := by
  -- The induction is on the number of marks: all up to the first line feed are taken at once
  induction hlength : marks.length using Nat.strongRecOn generalizing marks line offset offset' with
  | _ n ih =>
  obtain hfeed | ⟨before, reading, behind, rfl, hfeed⟩ := exists_first_feed marks
  · exact alike_last hopen hreturn offset offset' hfeed
  · obtain ⟨hbefore, hbehind⟩ := List.forall_mem_append.1 hreturn
    have hbreak := isLineBreak_flatMap_shown hfeed hbefore
    have hnot : '\n' ∉ before.flatMap shown := fun hmem => by
      simpa [isLineBreak] using hbreak _ hmem
    rw [openEnds_line hfeed] at hopen
    have hends : LineEnd.Answers (isOpen line) .feed (endOf reading) := by
      rw [show isOpen line = (reading == .blockComment) from hopen 0]
      exact answers_endOf reading
    rw [flatMap_shown_line, flatMap_shownWithReturn_line hfeed,
      linesOf_append_chars (by simp) hnot, linesOf_append_chars (endOf_ne_absent reading) hnot]
    refine .cons (alike_ofChars hends hbreak offset offset') (ih behind.length ?_ ?_ ?_ _ _ rfl)
    · rw [← hlength, List.length_append, List.length_cons]
      omega
    · intro n
      rw [Nat.add_assoc, Nat.add_comm 1 n, hopen, List.getD_cons_succ]
    · exact fun mark hmark => hbehind mark (List.mem_cons_of_mem _ hmark)

end

/-- Line by line, a text is alike with and without carriage returns. -/
theorem alike_segment {text : List Char} (h : '\r' ∉ text) :
    List.Forall₂ (Alike (isOpenAt text)) (segment (blank text))
      (segment (blank (withReturns text))) := by
  rw [segment, segment, blank_withReturns, ← flatMap_shown_read]
  refine alike_numbered (fun n => ?_) (fun mark hmark heq => h ?_) 0 0
  · rw [Nat.zero_add, isOpenAt]
  · rw [← map_fst_read text, ← heq]
    exact List.mem_map_of_mem hmark

end SourceLine

end JassOutline
