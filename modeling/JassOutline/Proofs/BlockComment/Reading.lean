import JassOutline.BlockComment

/-!
# How the characters of a text are read

`BlockComment.blank` shows what is left of a text, but not what its reader took each character for.
`readFrom` is the same reader and says so: every character of the source text comes with its
`Reading`. The blanked text is what the readings show, character by character.

## Key results

- `map_fst_readFrom`, `flatMap_shown_readFrom`: the readings of a text and the blanked text
- `exists_of_flatMap_shown`: where the blanked text is cut beside a character that is no blank, the
  source text is cut as well
-/

namespace JassOutline

/-- What a character is part of. -/
inductive Reading where
  | code
  /-- A string literal, its quotes included. -/
  | string
  /-- The first character of a line comment. -/
  | commentStart
  /-- A line comment behind its first character. -/
  | comment
  /-- A block comment, with the characters that open and close it. -/
  | blockComment
  deriving DecidableEq, Repr

namespace BlockComment

open Text

/-- The characters of a text with their readings, read from the given mode. A line feed ends a
string and a line comment and belongs to neither. -/
def readFrom : Mode → List Char → List (Char × Reading)
  | _, [] => []
  | .code, '/' :: '*' :: rest =>
    ('/', .blockComment) :: ('*', .blockComment) :: readFrom .blockComment rest
  | .code, '/' :: '/' :: rest =>
    ('/', .commentStart) :: ('/', .comment) :: readFrom .lineComment rest
  | .code, c :: rest =>
    (c, if c = '"' then .string else .code) ::
      readFrom (if c = '"' then .string else .code) rest
  | .lineComment, c :: rest =>
    (c, if c = '\n' then .code else .comment) ::
      readFrom (if c = '\n' then .code else .lineComment) rest
  | .blockComment, c :: rest =>
    (c, .blockComment) ::
      readFrom (if c = '*' then .blockCommentStar else .blockComment) rest
  | .blockCommentStar, c :: rest =>
    (c, .blockComment) ::
      readFrom (if c = '*' then .blockCommentStar else if c = '/' then .code else .blockComment)
        rest
  | .string, c :: rest =>
    (c, if c = '\n' then .code else .string) ::
      readFrom
        (if c = '"' ∨ c = '\n' then .code else if c = '\\' then .stringEscape else .string) rest
  | .stringEscape, c :: rest =>
    (c, if c = '\n' then .code else .string) ::
      readFrom (if c = '\n' then .code else .string) rest

/-- The characters of a text with their readings. -/
def read (text : List Char) : List (Char × Reading) :=
  readFrom .code text

/-- What the blanked text shows of a character. -/
def shown (mark : Char × Reading) : List Char :=
  if mark.2 = .blockComment then blankChar mark.1 else [mark.1]

theorem map_fst_readFrom (mode : Mode) (text : List Char) :
    (readFrom mode text).map Prod.fst = text := by
  fun_induction readFrom mode text <;> simp_all

theorem shown_of_ne {c : Char} {reading : Reading} (h : reading ≠ .blockComment) :
    shown (c, reading) = [c] := if_neg h

theorem shown_blockComment (c : Char) : shown (c, .blockComment) = blankChar c := if_pos rfl

/-- Whether a comment opens at the start of the text. -/
def opensComment : List Char → Bool
  | '/' :: '*' :: _ => true
  | '/' :: '/' :: _ => true
  | _ => false

theorem opensComment_cons_eq_false {c : Char} {rest : List Char} :
    opensComment (c :: rest) = false ↔
      (c = '/' → rest.head? ≠ some '*' ∧ rest.head? ≠ some '/') := by
  unfold opensComment
  split <;> simp_all
  next hstar hslash =>
    intro hc
    cases rest <;> simp_all

/-- A character that opens no comment passes by itself. -/
theorem blankFrom_code {c : Char} {rest : List Char} (h : opensComment (c :: rest) = false) :
    blankFrom .code (c :: rest) = c :: blankFrom (if c = '"' then .string else .code) rest := by
  rw [opensComment_cons_eq_false] at h
  by_cases hc : c = '/'
  · obtain ⟨hstar, hslash⟩ := h hc
    cases rest with
    | nil => simp [hc, blankFrom]
    | cons d rest =>
      rw [List.head?_cons, Ne, Option.some_inj] at hstar hslash
      by_cases hd : d = '"' <;> simp [hc, blankFrom, hslash, hd]
  · simp [blankFrom, hc]

theorem readFrom_code {c : Char} {rest : List Char} (h : opensComment (c :: rest) = false) :
    readFrom .code (c :: rest) =
      (c, if c = '"' then .string else .code) ::
        readFrom (if c = '"' then .string else .code) rest := by
  rw [opensComment_cons_eq_false] at h
  by_cases hc : c = '/'
  · obtain ⟨hstar, hslash⟩ := h hc
    cases rest with
    | nil => simp [hc, readFrom]
    | cons d rest =>
      rw [List.head?_cons, Ne, Option.some_inj] at hstar hslash
      simp [hc, readFrom, hstar, hslash]
  · simp [readFrom, hc]

theorem flatMap_shown_readFrom (mode : Mode) (text : List Char) :
    (readFrom mode text).flatMap shown = blankFrom mode text := by
  fun_induction readFrom mode text with
  | case1 => simp [blankFrom]
  | case2 rest ih =>
    -- Both characters that open a block comment are blanked
    have hslash : blankChar '/' = [' '] := by decide
    have hstar : blankChar '*' = [' '] := by decide
    simp [blankFrom, shown, hslash, hstar, ih]
  | case3 rest ih => simp [blankFrom, shown, ih]
  | case4 c rest hblock hline ih =>
    -- A character of the code that opens no comment
    have hopens : opensComment (c :: rest) = false := by
      unfold opensComment
      split <;> simp_all
    rw [blankFrom_code hopens, ← ih]
    by_cases hc : c = '"' <;> simp [shown, hc]
  -- The rest of a line comment passes up to its line feed
  | case5 c rest ih => by_cases hc : c = '\n' <;> simp_all [blankFrom, shown]
  | case6 c rest ih => simp [blankFrom, shown, ih]
  | case7 c rest ih => simp [blankFrom, shown, ih]
  | case8 c rest ih => by_cases hc : c = '\n' <;> simp_all [blankFrom, shown]
  | case9 c rest ih => by_cases hc : c = '\n' <;> simp_all [blankFrom, shown]

theorem map_fst_read (text : List Char) : (read text).map Prod.fst = text :=
  map_fst_readFrom .code text

theorem flatMap_shown_read (text : List Char) : (read text).flatMap shown = blank text :=
  flatMap_shown_readFrom .code text

/-! ### Lengths and cuts -/

/-- A character is shown as it is, or as blanks that take as many bytes. -/
theorem shown_eq_or (mark : Char × Reading) :
    shown mark = [mark.1] ∨
      (shown mark = List.replicate mark.1.utf8Size ' ' ∧ mark.1 ≠ '\n') := by
  obtain ⟨c, reading⟩ := mark
  by_cases hreading : reading = .blockComment
  · rw [hreading, shown_blockComment, blankChar]
    split
    · exact .inl rfl
    · next hc => exact .inr ⟨rfl, hc⟩
  · exact .inl (shown_of_ne hreading)

theorem byteLength_replicate_blank (n : Nat) : byteLength (List.replicate n ' ') = n := by
  have hblank : Char.utf8Size ' ' = 1 := rfl
  induction n with
  | zero => rfl
  | succ n ih => rw [List.replicate_succ, byteLength_cons, ih, hblank, Nat.add_comm]

theorem byteLength_shown (mark : Char × Reading) : byteLength (shown mark) = mark.1.utf8Size := by
  rcases shown_eq_or mark with h | ⟨h, -⟩
  · rw [h, byteLength_cons, byteLength_nil, Nat.add_zero]
  · rw [h, byteLength_replicate_blank]

theorem count_shown (mark : Char × Reading) : (shown mark).count '\n' = [mark.1].count '\n' := by
  rcases shown_eq_or mark with h | ⟨h, hne⟩
  · rw [h]
  · rw [h, List.count_replicate, List.count_singleton]
    simp [hne]

/-- Blanking moves no byte. -/
theorem byteLength_flatMap_shown (marks : List (Char × Reading)) :
    byteLength (marks.flatMap shown) = byteLength (marks.map Prod.fst) := by
  induction marks with
  | nil => rfl
  | cons mark rest ih =>
    rw [List.flatMap_cons, byteLength_append, byteLength_shown, ih, List.map_cons, byteLength_cons]

/-- Blanking keeps every line feed. -/
theorem count_flatMap_shown (marks : List (Char × Reading)) :
    (marks.flatMap shown).count '\n' = (marks.map Prod.fst).count '\n' := by
  induction marks with
  | nil => rfl
  | cons mark rest ih =>
    rw [List.flatMap_cons, List.count_append, count_shown, ih, ← List.count_append,
      List.singleton_append, List.map_cons]

/-- Characters of which none is shown as a blank are shown as they are. -/
theorem flatMap_shown_of_not_mem {marks : List (Char × Reading)} (h : ' ' ∉ marks.flatMap shown) :
    marks.flatMap shown = marks.map Prod.fst := by
  induction marks with
  | nil => rfl
  | cons mark rest ih =>
    rw [List.flatMap_cons, List.mem_append, not_or] at h
    rw [List.flatMap_cons, List.map_cons, ih h.2]
    rcases shown_eq_or mark with hshown | ⟨hshown, -⟩
    · rw [hshown, List.singleton_append]
    · refine absurd ?_ h.1
      rw [hshown, List.mem_replicate]
      exact ⟨Nat.ne_of_gt mark.1.utf8Size_pos, rfl⟩

/-- Only between two blanks can a cut go through what is shown of one character. -/
theorem exists_of_flatMap_shown {marks : List (Char × Reading)} {a b : List Char}
    (h : marks.flatMap shown = a ++ b) (hcut : a.getLast? ≠ some ' ' ∨ b.head? ≠ some ' ') :
    ∃ before behind, marks = before ++ behind ∧ before.flatMap shown = a ∧
      behind.flatMap shown = b := by
  induction marks generalizing a with
  | nil =>
    have hnil : a = [] ∧ b = [] := by simpa using h.symm
    exact ⟨[], [], rfl, hnil.1.symm, hnil.2.symm⟩
  | cons mark rest ih =>
    rw [List.flatMap_cons, List.append_eq_append_iff] at h
    rcases h with ⟨later, rfl, hrest⟩ | ⟨piece, hshown, rfl⟩
    · -- The cut lies behind the first character
      have hlater : later.getLast? ≠ some ' ' ∨ b.head? ≠ some ' ' := by
        refine hcut.imp_left fun hlast hblank => hlast ?_
        rw [List.getLast?_append, hblank]
        rfl
      obtain ⟨before, behind, rfl, rfl, rfl⟩ := ih hrest hlater
      exact ⟨mark :: before, behind, rfl, by rw [List.flatMap_cons], rfl⟩
    · -- The cut lies before the first character, behind it or in the middle of what it shows
      by_cases ha : a = []
      · exact ⟨[], mark :: rest, rfl, ha.symm, by rw [List.flatMap_cons, hshown, ha]; rfl⟩
      by_cases hpiece : piece = []
      · exact ⟨[mark], rest, rfl, by simpa [hpiece] using hshown, by rw [hpiece]; rfl⟩
      have hblank : ∀ c ∈ shown mark, c = ' ' := by
        rcases shown_eq_or mark with h | ⟨h, -⟩
        · have hlength := congrArg List.length (h.symm.trans hshown)
          have := List.length_pos_iff.2 ha
          have := List.length_pos_iff.2 hpiece
          rw [List.length_append, List.length_singleton] at hlength
          omega
        · exact fun c hc => List.eq_of_mem_replicate (h ▸ hc)
      obtain ⟨front, last, rfl⟩ := (List.eq_nil_or_concat a).resolve_left ha
      obtain ⟨first, pieces, rfl⟩ := List.exists_cons_of_ne_nil hpiece
      have hlast := hblank last (by simp [hshown])
      have hfirst := hblank first (by simp [hshown])
      simp [hlast, hfirst] at hcut

end BlockComment

end JassOutline
