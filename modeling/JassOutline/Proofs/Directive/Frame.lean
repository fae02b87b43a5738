import JassOutline.Proofs.Token.Piece
import JassOutline.Proofs.Writing.Passage

/-!
# Lines of directives

A `Frame` is what may stand around the words of a directive: blanks in front of the marker, and
behind the words blanks, a comment and the end of the line. Whatever the words are, the line is a
comment for the reader that blanks block comments, and so it keeps them. The first word says which
directive the line is, and the tokens of the directive are those of the words, and perhaps the
comment.

## Key results

- `Frame.survives`: the line and block comments
- `Frame.ofChars?_line`: which directive the line is
- `Frame.labels_directiveTokens`: the tokens of the words
-/

namespace JassOutline

open Text

/-! ### Line comments and blanks -/

namespace BlockComment

variable {text rest : List Char}

theorem blankFrom_lineComment_of_not_mem (h : '\n' ∉ text) :
    blankFrom .lineComment text = text := by
  induction text with
  | nil => rfl
  | cons c text ih =>
    have hc : c ≠ '\n' := fun heq => h (heq ▸ List.mem_cons_self)
    rw [blankFrom, if_neg hc, ih fun hmem => h (List.mem_cons_of_mem _ hmem)]

/-- A line comment passes with the end of its line. -/
theorem blankFrom_lineComment_chars (h : '\n' ∉ text) {ending : LineEnd}
    (hrest : ending = .absent → rest = []) :
    blankFrom .lineComment (text ++ (ending.chars ++ rest)) =
      text ++ (ending.chars ++ blankFrom .code rest) := by
  -- What stands in front of the line feed belongs to the comment
  have hfeed : ∀ returns, '\n' ∉ returns →
      blankFrom .lineComment (text ++ (returns ++ '\n' :: rest)) =
        text ++ (returns ++ '\n' :: blankFrom .code rest) := fun returns hreturns => by
    have hfront : '\n' ∉ text ++ returns := by simp [h, hreturns]
    rw [← List.append_assoc, blankFrom_lineComment_append hfront, List.append_assoc]
  cases ending with
  | absent =>
    have hline : '\n' ∉ text ++ ([] ++ []) := by simpa using h
    rw [hrest rfl]
    exact blankFrom_lineComment_of_not_mem hline
  | feed => exact hfeed [] (by simp)
  | returnAndFeed => exact hfeed ['\r'] (by simp)
  | blankAndFeed => exact hfeed [' '] (by simp)

end BlockComment

theorem Token.isIdentifierChar_of_isBlank {c : Char} (h : isBlank c = true) :
    isIdentifierChar c = false := by
  have hblanks : ∀ n ∈ List.range' 0x09 5 ++ List.range' 0x2000 11 ++ [0x20, 0x85, 0xA0, 0x1680,
      0x2028, 0x2029, 0x202F, 0x205F, 0x3000], isIdentifierChar (Char.ofNat n) = false := by
    decide +kernel
  rw [← Char.ofNat_toNat c]
  refine hblanks c.toNat ?_
  simp only [isBlank, Bool.or_eq_true, Bool.and_eq_true, decide_eq_true_eq, beq_iff_eq] at h
  simp only [List.mem_append, List.mem_range'_1, List.mem_cons, List.not_mem_nil, or_false]
  omega

namespace Directive

theorem unmark_append_of_not_mem {front : List Char} (h : '/' ∉ front) (rest : List Char) :
    unmark (front ++ rest) = front ++ unmark rest := by
  induction front with
  | nil => rfl
  | cons c front ih =>
    have hc : c ≠ '/' := fun heq => h (heq ▸ List.mem_cons_self)
    rw [List.cons_append, unmark, ih fun hmem => h (List.mem_cons_of_mem _ hmem)]
    · rfl
    · exact fun _ heq => absurd heq hc

/-- What stands around the words of a directive on its line. -/
structure Frame where
  indent : List Char
  /-- The blanks behind the words. -/
  gap : List Char
  /-- What stands behind the slashes of a comment, if there is one. -/
  comment? : Option (List Char)
  ending : LineEnd
  isBlank_indent : ∀ c ∈ indent, isBlank c = true ∧ c ≠ '\n'
  isBlank_gap : ∀ c ∈ gap, isBlank c = true ∧ c ≠ '\n'
  isOneLine_comment : ∀ comment ∈ comment?, ∀ c ∈ comment, isLineBreak c = false

namespace Frame

variable (frame : Frame) {words : List Char}

/-- The comment with its slashes. -/
def comment : List Char :=
  match frame.comment? with
  | none => []
  | some text => '/' :: '/' :: text

/-- What stands behind the words. -/
def tail : List Char :=
  frame.gap ++ (frame.comment ++ frame.ending.chars)

/-- The line with the given words. -/
def line (words : List Char) : List Char :=
  frame.indent ++ (marker ++ ' ' :: (words ++ frame.tail))

/-! ### Block comments -/

/-- Where no comment is open, the line keeps its characters, and none is open behind it. A line
without an end is the last one. -/
def Survives (words : List Char) : Prop :=
  ∀ rest, (frame.ending = .absent → rest = []) →
    BlockComment.blankFrom .code (frame.line words ++ rest) =
      frame.line words ++ BlockComment.blankFrom .code rest

/-- Blanks open neither a comment nor a string, and have no part in the marker. -/
theorem inert_indent : ∀ c ∈ frame.indent, c ≠ '/' ∧ c ≠ '"' := fun c hc => by
  have hblank := (frame.isBlank_indent c hc).1
  constructor
  · rintro rfl
    cases hblank
  · rintro rfl
    cases hblank

theorem feed_not_mem_comment : '\n' ∉ frame.comment := by
  unfold comment
  split
  · exact List.not_mem_nil
  · next text htext =>
    have htext : '\n' ∉ text := fun hmem => by
      have hbreak := frame.isOneLine_comment text htext _ hmem
      cases hbreak
    simpa using htext

theorem survives (h : '\n' ∉ words) : frame.Survives words := by
  intro rest hrest
  have hgap : '\n' ∉ frame.gap := fun hmem => (frame.isBlank_gap _ hmem).2 rfl
  -- The slashes of the marker open a line comment
  have hbehind : '\n' ∉ '!' :: ' ' :: (words ++ (frame.gap ++ frame.comment)) := by
    simp [h, hgap, frame.feed_not_mem_comment]
  have hline : ∀ rest, frame.line words ++ rest = frame.indent ++
      '/' :: '/' :: ('!' :: ' ' :: (words ++ (frame.gap ++ frame.comment)) ++
        (frame.ending.chars ++ rest)) := by
    simp [line, tail, marker]
  rw [hline, hline, BlockComment.blankFrom_code_append frame.inert_indent, BlockComment.blankFrom,
    BlockComment.blankFrom_lineComment_chars hbehind hrest]

/-! ### Classification -/

theorem ofChars?_line (keyword : String) (hfirst : keyword.toList.head?.any (!isBlank ·) = true)
    (hword : keyword.toList.all isWordChar = true) (rest : List Char) :
    ofChars? (frame.line (Token.spaced keyword rest)) = ofWord? keyword := by
  have hline : trimStart (frame.line (Token.spaced keyword rest)) =
      marker ++ ' ' :: (keyword.toList ++ ' ' :: (rest ++ frame.tail)) := by
    rw [line, trimStart, List.dropWhile_append_of_pos fun c hc => (frame.isBlank_indent c hc).1,
      Token.spaced, List.append_assoc]
    rfl
  have hstart : trimStart (' ' :: (keyword.toList ++ ' ' :: (rest ++ frame.tail))) =
      keyword.toList ++ ' ' :: (rest ++ frame.tail) := by
    obtain ⟨c, hhead, hc⟩ := (Option.any_eq_true _ _).1 hfirst
    obtain ⟨later, hkeyword⟩ := List.head?_eq_some_iff.1 hhead
    rw [Bool.not_eq_true'] at hc
    rw [trimStart, List.dropWhile_cons_of_pos (by decide), hkeyword, List.cons_append,
      List.dropWhile_cons_of_neg (by simp [hc])]
  have hleading : leadingWord (keyword.toList ++ ' ' :: (rest ++ frame.tail)) = keyword.toList := by
    rw [leadingWord, List.takeWhile_append_of_pos (List.all_eq_true.1 hword),
      List.takeWhile_cons_of_neg (by decide), List.append_nil]
  rw [ofChars?, hline, dropLeading?_append]
  have hblank : isBlank ' ' = true := by decide
  simp only [List.head?_cons, Option.any_some, hblank, if_true, hstart, hleading,
    String.ofList_toList]

/-! ### Tokens -/

theorem unmark_line :
    unmark (frame.line words) = frame.indent ++ (List.replicate 4 ' ' ++ (words ++ frame.tail)) :=
  unmark_append_of_not_mem (fun hmem => (frame.inert_indent _ hmem).1 rfl) _

/-- The tokens of a directive are those of its words, and those behind them. -/
theorem labels_directiveTokens {record : SourceLine} {labels : List Label}
    (htext : record.text.toList = frame.line words)
    (hwords : Token.IsRead words labels frame.tail) :
    ∃ behind, (TextMacro.directiveTokens record).map Token.label =
      labels ++ (Token.tokenizeFrom record.line behind frame.tail).map Token.label := by
  have hindent : Token.IsRead frame.indent [] (List.replicate 4 ' ' ++ words ++ frame.tail) :=
    .blanks (fun c hc => (frame.isBlank_indent c hc).1) _
  have hmarker : Token.IsRead (List.replicate 4 ' ') [] (words ++ frame.tail) :=
    .blanks (fun c hc => List.eq_of_mem_replicate hc ▸ by decide) _
  have hunmarked : unmark (frame.line words) =
      (frame.indent ++ (List.replicate 4 ' ' ++ words)) ++ frame.tail := by
    simp [unmark_line]
  rw [TextMacro.directiveTokens, htext, hunmarked]
  exact (hindent.append (hmarker.append hwords)) record.line 0

theorem endsIdentifier_tail : Token.EndsIdentifier frame.tail := by
  intro c hc
  rw [tail, List.head?_append, Option.mem_def, Option.or_eq_some_iff] at hc
  obtain hgap | ⟨-, hc⟩ := hc
  · have hblank := frame.isBlank_gap c (List.mem_of_mem_head? hgap)
    exact Token.isIdentifierChar_of_isBlank hblank.1
  · unfold comment at hc
    split at hc
    · have hblank := List.all_eq_true.1 frame.ending.isBlank_chars c (List.mem_of_mem_head? hc)
      exact Token.isIdentifierChar_of_isBlank hblank
    · obtain rfl : '/' = c := Option.some.inj hc
      decide

/-- Behind the words stands nothing but a comment. -/
theorem kind_tail (line column : Nat) :
    ∀ label ∈ (Token.tokenizeFrom line column frame.tail).map Token.label,
      label.kind = .comment := by
  obtain ⟨behind, hgap⟩ := Token.IsRead.blanks (fun c hc => (frame.isBlank_gap c hc).1)
    (frame.comment ++ frame.ending.chars) line column
  rw [tail, hgap, comment]
  split
  · rw [List.nil_append, List.nil_append, Token.tokenizeFrom_chars]
    exact List.forall_mem_nil _
  · next text htext =>
    have hbreak : ∀ c ∈ '/' :: text, isLineBreak c = false :=
      List.forall_mem_cons.2 ⟨by decide, frame.isOneLine_comment text htext⟩
    rw [List.nil_append, List.cons_append, Token.tokenizeFrom_comment_append _ hbreak rfl]
    have hcomment := Token.isComment_stretch frame.ending
      ⟨.comment, String.ofList ('/' :: '/' :: text), line, behind,
        behind + byteLength ('/' :: '/' :: text)⟩
    exact List.forall_mem_singleton.2 (beq_iff_eq.1 hcomment)

end Frame

end Directive

end JassOutline
