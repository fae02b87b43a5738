import JassOutline.Document
import JassOutline.Proofs.Expansion.Pieces
import JassOutline.Proofs.Writing.Text

/-!
# Written texts on their way to the outline

A written line holds no block comment, no string and no directive. The stages in front of the
outline therefore leave a written text as it is, and cut it into its lines.

## Key results

- `IsWritten.blankFrom`, `IsWritten.ofChars?_eq_none`: a written line and each stage
- `Document.outline_read`, `Document.warnings_read`: a text without directives goes to the outline
  line by line
-/

namespace JassOutline

open Text

/-! ### Streams without directives -/

variable {lines : List SourceLine} (source : Nat)

theorem MacroTable.extractFrom_of_plain (h : ∀ record ∈ lines, Directive.ofLine? record = none)
    (known : List String) : extractFrom source known lines = ⟨⟨[]⟩, lines, []⟩ := by
  induction lines with
  | nil => rw [extractFrom]
  | cons record rest ih =>
    have hrecord := h record List.mem_cons_self
    rw [extractFrom, hrecord, ih fun r hr => h r (List.mem_cons_of_mem _ hr)]

theorem ZincBlock.extract_of_plain (h : ∀ record ∈ lines, Directive.ofLine? record = none) :
    extract source lines = ⟨[], lines, []⟩ := by
  induction lines with
  | nil => rw [extract]
  | cons record rest ih =>
    have hrecord := h record List.mem_cons_self
    rw [extract, hrecord, ih fun r hr => h r (List.mem_cons_of_mem _ hr)]

/-- A text without directives goes to the outline line by line. -/
theorem Document.read_of_plain (limit? : Option Nat) {text : List Char}
    (hlines : SourceLine.segment (BlockComment.blank text) = lines)
    (h : ∀ record ∈ lines, Directive.ofLine? record = none) :
    (read source limit? text).source = source ∧
      (read source limit? text).outline = (Outline.build source lines).1 ∧
      (read source limit? text).warnings = (Outline.build source lines).2 := by
  have hplain : ∀ record ∈ lines, Directive.ofLine? record ≠ some .macroRun := fun record hrecord =>
    by simp [h record hrecord]
  simp [read, hlines, MacroTable.extract, MacroTable.extractFrom_of_plain source h,
    Expansion.expand, Expansion.expandFrom_of_plain hplain, ZincBlock.extract_of_plain source h]

/-! ### Written lines -/

/-- A line that a text of declarations consists of. -/
inductive IsWritten (text : List Char) : Prop where
  | labels {labels : List Label} :
    (∀ l ∈ labels, l.IsPlain) → Spells labels text → IsWritten text
  | comment {comment : String} :
    isPlainComment comment = true → Spells [.comment comment] text → IsWritten text

/-- The characters that words and commas are spelled with. -/
def IsSpelling (c : Char) : Prop := isNameChar c = true ∨ c = ',' ∨ c = ' ' ∨ c = '\t'

theorem IsSpelling.ne {c d : Char} (h : IsSpelling c) (hd : isNameChar d = false)
    (hother : d ∉ [',', ' ', '\t']) : c ≠ d := by
  rintro rfl
  simp only [List.mem_cons, List.not_mem_nil, or_false, not_or] at hother
  rcases h with h | h | h | h
  · simp [h] at hd
  · exact hother.1 h
  · exact hother.2.1 h
  · exact hother.2.2 h

theorem Label.IsPlain.isSpelling {l : Label} (h : l.IsPlain) {c : Char}
    (hc : c ∈ l.text.toList) : IsSpelling c := by
  cases h with
  | word hname =>
    obtain ⟨first, rest, htext, hfirst, hrest⟩ := exists_of_isName hname
    rw [Label.text_word, htext] at hc
    rcases List.mem_cons.1 hc with rfl | hc
    · exact .inl (isNameChar_of_isNameStart hfirst)
    · exact .inl (hrest c hc)
  | comma => exact .inr (.inl (by simpa [Label.sign] using hc))

theorem Label.IsPlain.isSpelling_spaced {l : Label} (h : l.IsPlain) {c : Char}
    (hc : c ∈ l.spaced) : IsSpelling c := by
  unfold Label.spaced at hc
  split at hc
  · exact h.isSpelling hc
  · rcases List.mem_cons.1 hc with rfl | hc
    · exact .inr (.inr (.inl rfl))
    · exact h.isSpelling hc

/-- A line that spells words and commas consists of nothing else. -/
theorem Spells.isSpelling {labels : List Label} {text : List Char} (h : Spells labels text)
    (hplain : ∀ l ∈ labels, l.IsPlain) {c : Char} (hc : c ∈ text) : IsSpelling c := by
  obtain ⟨indent, hindent, rfl⟩ := h
  rcases List.mem_append.1 hc with hc | hc
  · exact .inr (.inr (hindent c hc))
  · cases labels with
    | nil => cases hc
    | cons l rest =>
      rcases List.mem_append.1 hc with hc | hc
      · exact (hplain l List.mem_cons_self).isSpelling hc
      · obtain ⟨m, hm, hc⟩ := List.mem_flatMap.1 hc
        exact (hplain m (List.mem_cons_of_mem _ hm)).isSpelling_spaced hc

/-- A line that spells a comment is the comment behind its indentation. -/
theorem Spells.eq_comment {comment : String} {text : List Char}
    (h : Spells [.comment comment] text) (hplain : isPlainComment comment = true) :
    ∃ indent rest, IsIndent indent ∧ text = indent ++ '/' :: '/' :: rest ∧
      rest.head? ≠ some '!' ∧ ∀ c ∈ rest, isLineBreak c = false := by
  obtain ⟨indent, hindent, rfl⟩ := h
  obtain ⟨rest, htext, hhead, hrest⟩ := exists_of_isPlainComment hplain
  exact ⟨indent, rest, hindent, by simp [Label.spell, Label.comment, htext], hhead, hrest⟩

namespace IsWritten

variable {text : List Char}

/-- A written line is one line. -/
theorem not_mem (h : IsWritten text) : '\n' ∉ text := by
  intro hmem
  cases h with
  | labels hplain hspells =>
    exact (hspells.isSpelling hplain hmem).ne (d := '\n') (by decide) (by decide) rfl
  | comment hplain hspells =>
    obtain ⟨indent, rest, hindent, rfl, -, hrest⟩ := hspells.eq_comment hplain
    simp only [List.mem_append, List.mem_cons] at hmem
    rcases hmem with hmem | hmem | hmem | hmem
    · rcases hindent _ hmem with h | h <;> exact absurd h (by decide)
    · exact absurd hmem (by decide)
    · exact absurd hmem (by decide)
    · exact absurd (hrest _ hmem) (by decide)

end IsWritten

/-! ### Block comments -/

namespace BlockComment

/-- Characters that open neither a comment nor a string pass. -/
theorem blankFrom_code_append {text : List Char} (h : ∀ c ∈ text, c ≠ '/' ∧ c ≠ '"')
    (rest : List Char) : blankFrom .code (text ++ rest) = text ++ blankFrom .code rest := by
  induction text with
  | nil => rfl
  | cons c text ih =>
    obtain ⟨hslash, hquote⟩ := h c List.mem_cons_self
    rw [List.cons_append, blankFrom, if_neg hquote, ih fun d hd => h d (List.mem_cons_of_mem _ hd)]
    · rfl
    all_goals simp [hslash]

/-- A line comment passes up to the end of its line. -/
theorem blankFrom_lineComment_append {text : List Char} (h : '\n' ∉ text) (rest : List Char) :
    blankFrom .lineComment (text ++ '\n' :: rest) = text ++ '\n' :: blankFrom .code rest := by
  induction text with
  | nil => rfl
  | cons c text ih =>
    have hc : c ≠ '\n' := fun heq => h (heq ▸ List.mem_cons_self)
    rw [List.cons_append, blankFrom, if_neg hc, ih fun hmem => h (List.mem_cons_of_mem _ hmem)]
    rfl

theorem blankFrom_of_isWritten {text : List Char} (h : IsWritten text) (rest : List Char) :
    blankFrom .code (text ++ '\n' :: rest) = text ++ '\n' :: blankFrom .code rest := by
  cases h with
  | labels hplain hspells =>
    rw [blankFrom_code_append fun c hc =>
      have hspelling := hspells.isSpelling hplain hc
      ⟨hspelling.ne (by decide) (by decide), hspelling.ne (by decide) (by decide)⟩]
    have hnewline : blankFrom .code (['\n'] ++ rest) = ['\n'] ++ blankFrom .code rest :=
      blankFrom_code_append (by simp) rest
    exact congrArg (text ++ ·) hnewline
  | comment hplain hspells =>
    obtain ⟨indent, behind, hindent, rfl, -, hbehind⟩ := hspells.eq_comment hplain
    have hindentPlain : ∀ c ∈ indent, c ≠ '/' ∧ c ≠ '"' := fun c hc => by
      rcases hindent c hc with rfl | rfl <;> decide
    have hnewline : '\n' ∉ behind := fun hmem => absurd (hbehind _ hmem) (by decide)
    -- The two slashes lead from code into the comment, and the line feed leads back
    rw [List.append_assoc, blankFrom_code_append hindentPlain, List.cons_append, List.cons_append,
      blankFrom, blankFrom_lineComment_append hnewline]
    simp

/-- A written text has no block comment. -/
theorem blank_unlines {lines : List (List Char)} (h : ∀ text ∈ lines, IsWritten text) :
    blank (unlines lines) = unlines lines := by
  induction lines with
  | nil => rfl
  | cons text rest ih =>
    have hrest := ih fun t ht => h t (List.mem_cons_of_mem _ ht)
    rw [blank] at hrest ⊢
    rw [unlines, List.flatMap_cons, List.append_assoc, List.singleton_append,
      blankFrom_of_isWritten (h text List.mem_cons_self)]
    exact congrArg (text ++ '\n' :: ·) hrest

end BlockComment

/-! ### Lines -/

namespace SourceLine

/-- A written text is cut into the lines it was put together from. -/
theorem linesOf_unlines {lines : List (List Char)} (h : ∀ text ∈ lines, IsWritten text) :
    linesOf (unlines lines) = lines.map (· ++ ['\n']) := by
  induction lines with
  | nil => rfl
  | cons text rest ih =>
    have hrest := ih fun t ht => h t (List.mem_cons_of_mem _ ht)
    rw [unlines, List.flatMap_cons, List.append_assoc, List.singleton_append,
      linesOf_append (h text List.mem_cons_self).not_mem]
    exact congrArg ((text ++ ['\n']) :: ·) hrest

end SourceLine

/-! ### Directives -/

theorem Text.dropLeading?_trimStart {text opening : List Char} {c : Char} (h : c ∉ text) :
    dropLeading? (c :: opening) (trimStart text) = none := by
  cases htrim : trimStart text with
  | nil => rfl
  | cons d rest =>
    have hmem : d ∈ text := by
      apply (List.dropWhile_suffix isBlank).subset
      rw [← trimStart, htrim]
      exact List.mem_cons_self
    have hne : c ≠ d := fun heq => h (heq ▸ hmem)
    rw [dropLeading?, if_neg hne]

theorem Spells.not_slash_mem {labels : List Label} {text : List Char} (h : Spells labels text)
    (hplain : ∀ l ∈ labels, l.IsPlain) : '/' ∉ text ++ ['\n'] := by
  intro hmem
  rcases List.mem_append.1 hmem with hmem | hmem
  · exact (h.isSpelling hplain hmem).ne (d := '/') (by decide) (by decide) rfl
  · exact absurd (List.mem_singleton.1 hmem) (by decide)

theorem trimStart_comment {indent rest : List Char} (h : IsIndent indent) :
    trimStart (indent ++ '/' :: '/' :: rest ++ ['\n']) = '/' :: '/' :: (rest ++ ['\n']) := by
  rw [trimStart, List.append_assoc, List.dropWhile_append_of_pos fun c hc => h.isBlank hc]
  rfl

/-- A written line is no directive. -/
theorem IsWritten.dropLeading?_marker {text : List Char} (h : IsWritten text) :
    dropLeading? Directive.marker (trimStart (text ++ ['\n'])) = none := by
  cases h with
  | labels hplain hspells => exact dropLeading?_trimStart (hspells.not_slash_mem hplain)
  | comment hplain hspells =>
    obtain ⟨indent, rest, hindent, rfl, hhead, -⟩ := hspells.eq_comment hplain
    -- A third character that is no exclamation mark tells the comment from a directive
    rw [trimStart_comment hindent]
    cases rest with
    | nil => decide
    | cons c rest =>
      have hc : '!' ≠ c := fun heq => hhead (by rw [heq]; rfl)
      simp [Directive.marker, dropLeading?, hc]

/-! ### Lines of the outline -/

variable {record : SourceLine} {text : List Char}

theorem Directive.ofLine?_of_isWritten (hrecord : record.text = String.ofList (text ++ ['\n']))
    (h : IsWritten text) : ofLine? record = none := by
  rw [ofLine?, ofChars?, hrecord, String.toList_ofList, h.dropLeading?_marker]

/-- The role of a line of words is that of its tokens. -/
theorem LineRole.ofLine_of_spells {labels : List Label}
    (hrecord : record.text = String.ofList (text ++ ['\n'])) (h : Spells labels text)
    (hplain : ∀ l ∈ labels, l.IsPlain) : ofLine record = ofTokens record.tokens := by
  have hstart : startsWith ['/', '/'] (trimStart record.text.toList) = false := by
    rw [startsWith, hrecord, String.toList_ofList, dropLeading?_trimStart (h.not_slash_mem hplain)]
    rfl
  rw [ofLine, hstart]
  rfl

/-- The tokens of a written line say what it spells. -/
theorem SourceLine.labels_tokens {labels : List Label}
    (hrecord : record.text = String.ofList (text ++ ['\n'])) (h : Spells labels text)
    (hplain : ∀ l ∈ labels, l.IsPlain) : record.tokens.map Token.label = labels := by
  rw [tokens, Token.tokenize, hrecord, String.toList_ofList, Token.labels_of_spells h hplain]

/-- A comment line has the role of a comment and is read as that comment. -/
theorem LineRole.ofLine_of_comment {comment : String}
    (hrecord : record.text = String.ofList (text ++ ['\n'])) (h : Spells [.comment comment] text)
    (hplain : isPlainComment comment = true) :
    ofLine record = .comment ∧ (CommentLine.ofLine record).text = comment := by
  constructor
  · have hmarked : Directive.isMarked (text ++ ['\n']) = false := by
      rw [Directive.isMarked, startsWith, (IsWritten.comment hplain h).dropLeading?_marker]
      rfl
    obtain ⟨indent, rest, hindent, rfl, -, -⟩ := h.eq_comment hplain
    have hstart : startsWith ['/', '/'] (trimStart (indent ++ '/' :: '/' :: rest ++ ['\n'])) =
        true := by
      rw [trimStart_comment hindent]
      rfl
    rw [ofLine, hrecord, String.toList_ofList, hstart, hmarked]
    rfl
  · have hlabels : record.tokens.map Token.label = [.comment comment] := by
      rw [SourceLine.tokens, Token.tokenize, hrecord, String.toList_ofList,
        Token.labels_of_spells_comment h hplain]
    obtain ⟨token, later, htokens, htoken, -⟩ := Token.labels_eq_cons.1 hlabels
    have hkind : token.isComment = true := by
      rw [Token.isComment, show token.kind = .comment from congrArg Label.kind htoken]
      rfl
    rw [CommentLine.ofLine, htokens, List.find?_cons_of_pos hkind]
    exact congrArg Label.text htoken

end JassOutline
