import JassOutline.Proofs.Place.PhysicalLine

/-!
# Reading a blanked text again

The blanked text is read as the text itself was, but for the comments that are now blank: strings
and line comments are where they were, and no block comment is left. Therefore each line of it can
be read by itself. Where the readings of the text are laid out byte by byte, those of a line are a
stretch of them.

## Key results

- `read_blank`: the readings of the blanked text
- `readFrom_append`: where lines meet, a text without block comments can be cut
- `bytesIn_span`: the readings of the bytes of one line
-/

namespace JassOutline

open Text

/-- How what a comment was blanked to is read. -/
def Reading.outside : Reading → Reading
  | .blockComment => .code
  | reading => reading

theorem Reading.outside_ne (reading : Reading) : reading.outside ≠ .blockComment := by
  cases reading <;> simp [outside]

namespace BlockComment

/-- The mode in which the blanked text is read. -/
def Mode.outside : Mode → Mode
  | .blockComment | .blockCommentStar => .code
  | mode => mode

@[simp] theorem Mode.outside_code : Mode.code.outside = .code := rfl

/-- What is shown of a character, with its reading in the blanked text. -/
def reread (mark : Char × Reading) : List (Char × Reading) :=
  (shown mark).map fun c => (c, mark.2.outside)

theorem reread_of_ne {c : Char} {reading : Reading} (h : reading ≠ .blockComment) :
    reread (c, reading) = [(c, reading)] := by
  rw [reread, shown_of_ne h]
  cases reading <;> first | rfl | exact absurd rfl h

/-- Blanks and line feeds open nothing. -/
theorem readFrom_blankChar (c : Char) (rest : List Char) :
    readFrom .code (blankChar c ++ rest) =
      reread (c, .blockComment) ++ readFrom .code rest := by
  have hplain : ∀ shown : List Char, (∀ d ∈ shown, d ≠ '/' ∧ d ≠ '"') →
      readFrom .code (shown ++ rest) =
        shown.map (fun d => (d, Reading.code)) ++ readFrom .code rest := by
    intro shown h
    induction shown with
    | nil => rfl
    | cons d shown ih =>
      obtain ⟨⟨hslash, hquote⟩, hrest⟩ := List.forall_mem_cons.1 h
      have hopens : opensComment (d :: (shown ++ rest)) = false :=
        opensComment_cons_eq_false.2 fun hd => absurd hd hslash
      rw [List.cons_append, readFrom_code hopens, if_neg hquote, if_neg hquote, ih hrest]
      rfl
  rw [reread, shown_blockComment]
  apply hplain
  intro d hd
  unfold blankChar at hd
  split at hd
  · next hc => simp_all
  · rw [List.eq_of_mem_replicate hd]
    decide

/-- Blanking does not let a comment open where none did. -/
theorem opensComment_blankFrom {c : Char} {rest : List Char}
    (h : opensComment (c :: rest) = false) (mode : Mode) (hmode : c = '/' → mode = .code) :
    opensComment (c :: blankFrom mode rest) = false := by
  rw [opensComment_cons_eq_false] at h ⊢
  intro hc
  obtain ⟨hstar, hslash⟩ := h hc
  rw [hmode hc]
  cases rest with
  | nil => simp [blankFrom]
  | cons d rest =>
    -- The next character is no slash, so it passes
    have hd : d ≠ '/' := fun heq => hslash (congrArg some heq)
    have hopens : opensComment (d :: rest) = false :=
      opensComment_cons_eq_false.2 fun heq => absurd heq hd
    rw [blankFrom_code hopens]
    exact ⟨hstar, hslash⟩

theorem readFrom_blankFrom (mode : Mode) (text : List Char) :
    readFrom mode.outside (blankFrom mode text) = (readFrom mode text).flatMap reread := by
  -- The induction follows the reading of the text itself: what has become blank is then read in
  -- code, and everything else in the mode it was read in before
  fun_induction readFrom mode text with
  | case1 mode => cases mode <;> simp [blankFrom, readFrom]
  | case2 rest ih =>
    -- The opening characters are read as two blanks
    have hslash : blankChar '/' = [' '] := by decide
    have hstar : blankChar '*' = [' '] := by decide
    have hfirst := readFrom_blankChar '/' (' ' :: blankFrom .blockComment rest)
    have hsecond := readFrom_blankChar '*' (blankFrom .blockComment rest)
    rw [hslash] at hfirst
    rw [hstar] at hsecond
    rw [blankFrom, List.flatMap_cons, List.flatMap_cons, ← ih]
    exact hfirst.trans (congrArg (reread ('/', .blockComment) ++ ·) hsecond)
  | case3 rest ih =>
    -- The two slashes still open a line comment
    rw [blankFrom, List.flatMap_cons, List.flatMap_cons, ← ih, reread_of_ne (by simp),
      reread_of_ne (by simp)]
    simp [Mode.outside, readFrom]
  | case4 c rest hblock hline ih =>
    -- A character of the code opens no comment in the blanked text either
    have hopens : opensComment (c :: rest) = false := by
      unfold opensComment
      split <;> simp_all
    have hquote : c = '/' → (if c = '"' then Mode.string else Mode.code) = .code := by
      rintro rfl
      rfl
    rw [blankFrom_code hopens, List.flatMap_cons, ← ih, reread_of_ne (by split <;> simp),
      Mode.outside_code, readFrom_code (opensComment_blankFrom hopens _ hquote)]
    split <;> rfl
  | case5 c rest ih =>
    -- In a line comment nothing is blanked
    by_cases hc : c = '\n' <;> simp_all [blankFrom, readFrom, Mode.outside, reread_of_ne]
  | case6 c rest ih =>
    -- What is shown of a comment is read in code, whether or not the comment goes on
    rw [blankFrom, Mode.outside, readFrom_blankChar, List.flatMap_cons, ← ih]
    split <;> rfl
  | case7 c rest ih =>
    rw [blankFrom, Mode.outside, readFrom_blankChar, List.flatMap_cons, ← ih]
    split
    · rfl
    · split <;> rfl
  | case8 c rest ih =>
    -- In a string only three characters change the mode
    by_cases hquote : c = '"'
    · simp_all [blankFrom, readFrom, Mode.outside, reread_of_ne]
    · by_cases hescape : c = '\\'
      · simp_all [blankFrom, readFrom, Mode.outside, reread_of_ne]
      · by_cases hline : c = '\n' <;>
          simp_all [blankFrom, readFrom, Mode.outside, reread_of_ne]
  | case9 c rest ih =>
    by_cases hc : c = '\n' <;> simp_all [blankFrom, readFrom, Mode.outside, reread_of_ne]

/-- The blanked text is read as the text was, but for the comments that are blank. -/
theorem read_blank (text : List Char) : read (blank text) = (read text).flatMap reread :=
  readFrom_blankFrom .code text

theorem ne_blockComment_of_mem_read_blank {text : List Char} {mark : Char × Reading}
    (h : mark ∈ read (blank text)) : mark.2 ≠ .blockComment := by
  rw [read_blank] at h
  obtain ⟨origin, -, hmark⟩ := List.mem_flatMap.1 h
  obtain ⟨c, -, rfl⟩ := List.mem_map.1 hmark
  exact origin.2.outside_ne

/-! ### Cuts between lines -/

/-- Behind a line feed reading starts anew, unless the line feed is in a block comment. -/
theorem readFrom_append_lineFeed (mode : Mode) (line rest : List Char)
    (h : ∀ mark ∈ readFrom mode (line ++ '\n' :: rest), mark.2 ≠ .blockComment) :
    readFrom mode (line ++ '\n' :: rest) =
      readFrom mode (line ++ ['\n']) ++ readFrom .code rest := by
  -- A line feed at the end of the front is the only place where the two readings could part
  fun_induction readFrom mode line with
  | case1 mode =>
    -- In a block comment the line feed itself would be read as part of it
    cases mode with
    | blockComment => simp [readFrom] at h
    | blockCommentStar => simp [readFrom] at h
    | _ => simp [readFrom]
  | case2 line ih => simp [readFrom] at h
  | case3 line ih =>
    simp only [List.cons_append, readFrom, List.forall_mem_cons] at h ⊢
    rw [ih h.2.2]
  | case4 c line hblock hline ih =>
    -- That no comment opens is known of each text with the line feed behind the line
    have hopens : ∀ later, opensComment (c :: (line ++ '\n' :: later)) = false := by
      intro later
      rw [opensComment_cons_eq_false]
      rintro rfl
      cases line <;> simp_all
    simp only [List.cons_append, readFrom_code (hopens _), List.forall_mem_cons] at h ⊢
    rw [ih h.2]
  | case5 c line ih =>
    simp only [List.cons_append, readFrom, List.forall_mem_cons] at h ⊢
    rw [ih h.2]
  | case6 c line ih => simp [readFrom] at h
  | case7 c line ih => simp [readFrom] at h
  | case8 c line ih =>
    simp only [List.cons_append, readFrom, List.forall_mem_cons] at h ⊢
    rw [ih h.2]
  | case9 c line ih =>
    simp only [List.cons_append, readFrom, List.forall_mem_cons] at h ⊢
    rw [ih h.2]

/-- Where lines meet, a text without block comments can be cut. -/
theorem readFrom_append {a b : List Char} (hlines : a = [] ∨ ∃ front, a = front ++ ['\n'])
    (h : ∀ mark ∈ readFrom .code (a ++ b), mark.2 ≠ .blockComment) :
    readFrom .code (a ++ b) = readFrom .code a ++ readFrom .code b := by
  rcases hlines with rfl | ⟨front, rfl⟩
  · rfl
  · rw [List.append_assoc, List.singleton_append] at h ⊢
    exact readFrom_append_lineFeed .code front b h

/-! ### Bytes -/

/-- The marks of the bytes of a text, given those of its characters. -/
def bytes (marks : List (Char × Reading)) : List (Char × Reading) :=
  marks.flatMap fun mark => List.replicate mark.1.utf8Size mark

/-- The bytes of a stretch of text, each with its character and the reading of that. -/
def bytesIn (text : List Char) (span : ByteSpan) : List (Char × Reading) :=
  ((bytes (read text)).drop span.start).take (span.stop - span.start)

/-- A byte as it is read again when comments are blank. -/
def rereadByte (byte : Char × Reading) : Char × Reading :=
  if byte.2 = .blockComment then (if byte.1 = '\n' then '\n' else ' ', .code) else byte

@[simp] theorem bytes_nil : bytes [] = [] := rfl

theorem bytes_cons (mark : Char × Reading) (rest : List (Char × Reading)) :
    bytes (mark :: rest) = List.replicate mark.1.utf8Size mark ++ bytes rest := rfl

theorem bytes_append (a b : List (Char × Reading)) : bytes (a ++ b) = bytes a ++ bytes b :=
  List.flatMap_append

theorem length_bytes (marks : List (Char × Reading)) :
    (bytes marks).length = byteLength (marks.map Prod.fst) := by
  induction marks with
  | nil => rfl
  | cons mark rest ih =>
    rw [bytes_cons, List.length_append, List.length_replicate, ih, List.map_cons, byteLength_cons]

/-- All bytes of a character are alike, so that no character is cut. -/
theorem takeWhile_bytes (p : Char × Reading → Bool) (marks : List (Char × Reading)) :
    (bytes marks).takeWhile p = bytes (marks.takeWhile p) := by
  induction marks with
  | nil => rfl
  | cons mark rest ih =>
    have hpos := mark.1.utf8Size_pos
    by_cases hp : p mark = true
    · rw [bytes_cons, List.takeWhile_append_of_pos, ih, List.takeWhile_cons_of_pos hp, bytes_cons]
      exact fun byte hbyte => List.eq_of_mem_replicate hbyte ▸ hp
    · obtain ⟨n, hn⟩ := Nat.exists_eq_add_of_lt hpos
      rw [bytes_cons, hn, Nat.zero_add, List.replicate_succ, List.cons_append,
        List.takeWhile_cons_of_neg hp, List.takeWhile_cons_of_neg hp, bytes_nil]

theorem bytes_reread (mark : Char × Reading) :
    bytes (reread mark) = List.replicate mark.1.utf8Size (rereadByte mark) := by
  obtain ⟨c, reading⟩ := mark
  by_cases hblock : reading = .blockComment
  · subst hblock
    rw [reread, shown_blockComment, blankChar]
    by_cases hline : c = '\n'
    · simp [hline, bytes, rereadByte, Reading.outside]
    · have hblank : Char.utf8Size ' ' = 1 := rfl
      simp [hline, bytes, rereadByte, Reading.outside, hblank, List.flatMap_replicate]
  · rw [reread_of_ne hblock]
    simp [bytes, rereadByte, hblock]

theorem bytes_flatMap_reread (marks : List (Char × Reading)) :
    bytes (marks.flatMap reread) = (bytes marks).map rereadByte := by
  induction marks with
  | nil => rfl
  | cons mark rest ih =>
    rw [List.flatMap_cons, bytes_append, bytes_reread, ih, bytes_cons, List.map_append,
      List.map_replicate]

/-- In a text without block comments, a line is read as it would be read alone. -/
theorem readFrom_line {before line behind : List Char}
    (hstarts : before = [] ∨ ∃ front, before = front ++ ['\n'])
    (hends : behind = [] ∨ ∃ rest, behind = '\n' :: rest)
    (h : ∀ mark ∈ readFrom .code (before ++ (line ++ behind)), mark.2 ≠ .blockComment) :
    readFrom .code (before ++ (line ++ behind)) = readFrom .code before ++
      (readFrom .code (line ++ behind.take 1) ++ readFrom .code (behind.drop 1)) := by
  have hbefore := readFrom_append hstarts h
  rw [hbefore] at h ⊢
  rcases hends with rfl | ⟨rest, rfl⟩
  · simp [readFrom]
  · have hline := readFrom_append_lineFeed .code line rest fun mark hmark =>
      h mark (List.mem_append_right _ hmark)
    rw [hline]
    rfl

/-- A line of the blanked text is read as it would be read alone. -/
theorem read_blank_line {text : List Char} (line : PhysicalLine (blank text)) :
    read (blank text) = readFrom .code line.before ++
      (readFrom .code (line.content ++ line.ending) ++ readFrom .code (line.behind.drop 1)) := by
  have htext : line.before ++ (line.content ++ line.returns ++ line.behind) = blank text :=
    Eq.trans (by simp only [List.append_assoc]) line.text_eq
  have hread := readFrom_line line.starts line.ends fun mark hmark =>
    ne_blockComment_of_mem_read_blank (htext ▸ hmark)
  have hending : line.content ++ line.ending =
      line.content ++ line.returns ++ line.behind.take 1 := (List.append_assoc ..).symm
  rw [hending]
  exact (congrArg read htext).symm.trans hread

/-- No block comment is left in a line of the blanked text. -/
theorem ne_blockComment_of_mem_line {text : List Char} (line : PhysicalLine (blank text)) :
    ∀ mark ∈ readFrom .code (line.content ++ line.ending), mark.2 ≠ .blockComment := by
  intro mark hmark
  apply ne_blockComment_of_mem_read_blank
  rw [read_blank_line line]
  exact List.mem_append_right _ (List.mem_append_left _ hmark)

/-- The readings of the bytes of a line are those of the line alone. -/
theorem bytesIn_span {text : List Char} (line : PhysicalLine (blank text)) :
    (bytesIn text line.span).map rereadByte =
      bytes ((readFrom .code (line.content ++ line.ending)).take line.content.length) := by
  let marks := readFrom .code (line.content ++ line.ending)
  have hmap : marks.map Prod.fst = line.content ++ line.ending := map_fst_readFrom ..
  have hbefore : (bytes (readFrom .code line.before)).length = line.span.start := by
    rw [length_bytes, map_fst_readFrom]
    rfl
  have hcontent : (bytes (marks.take line.content.length)).length =
      line.span.stop - line.span.start := by
    rw [length_bytes, List.map_take, hmap, List.take_left]
    exact (Nat.add_sub_cancel_left ..).symm
  -- The bytes of the content, between those before the line and those of the rest of it
  have hbytes : (bytes (read text)).map rereadByte =
      bytes (readFrom .code line.before) ++ (bytes (marks.take line.content.length) ++
        bytes (marks.drop line.content.length ++ readFrom .code (line.behind.drop 1))) := by
    rw [← bytes_flatMap_reread, ← read_blank, read_blank_line line, bytes_append,
      ← bytes_append (marks.take _), ← List.append_assoc (marks.take _), List.take_append_drop]
  rw [bytesIn, List.map_take, List.map_drop, hbytes, List.drop_left' hbefore,
    List.take_left' hcontent]

end BlockComment

end JassOutline
