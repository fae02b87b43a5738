import JassOutline.Analysis
import JassOutline.Proofs.LineEnd.Document
import JassOutline.Proofs.Place.Document
import JassOutline.Proofs.Token.Tiling
import JassOutline.Proofs.Zinc.Incremental

/-!
# Labels of errors

The label of an error is counted from the first byte of a line, by a column that was measured on the
line of the expanded stream. The row of a line runs up to the next line, its line feed included, and
so do the labels: a column behind the line feed is taken for the next line. Where no macro changed
the line, the column is the one in the source, because blanks of block comments take as many bytes
as what they replace.

## Key results

- `PhysicalLine.getElem?_rows`: the row of a line
- `PhysicalLine.isLabeled`: where a label lies, and when it lies behind its line
- `Document.exists_first_char`: a token of a line that passed starts at its column in the source
- `ZincError.label?_isLabeled`: the label of the error that an analysis reports
-/

namespace JassOutline

open Text

/-! ### Rows -/

namespace Text

variable {row : List Char}

theorem breakLine_of_not_mem (h : '\n' ∉ row) : breakLine row = (row, none) := by
  induction row with
  | nil => rfl
  | cons c row ih =>
    obtain ⟨hc, hrow⟩ := List.ne_and_not_mem_of_not_mem_cons h
    rw [breakLine, if_neg hc.symm, ih hrow]

theorem breakLine_append (h : '\n' ∉ row) (rest : List Char) :
    breakLine (row ++ '\n' :: rest) = (row, some rest) := by
  induction row with
  | nil => rfl
  | cons c row ih =>
    obtain ⟨hc, hrow⟩ := List.ne_and_not_mem_of_not_mem_cons h
    rw [List.cons_append, breakLine, if_neg hc.symm, ih hrow]

theorem rowsFrom_of_not_mem (h : '\n' ∉ row) (start : Nat) :
    rowsFrom start row = [⟨start, row, start + byteLength row⟩] := by
  rw [rowsFrom]
  split
  · next hbreak =>
    rw [breakLine_of_not_mem h] at hbreak
    cases hbreak
    rfl
  · next hbreak =>
    rw [breakLine_of_not_mem h] at hbreak
    cases hbreak

theorem rowsFrom_append (h : '\n' ∉ row) (start : Nat) (rest : List Char) :
    rowsFrom start (row ++ '\n' :: rest) =
      ⟨start, row, start + byteLength row + 1⟩ :: rowsFrom (start + byteLength row + 1) rest := by
  rw [rowsFrom]
  split
  · next hbreak =>
    rw [breakLine_append h] at hbreak
    cases hbreak
  · next hbreak =>
    rw [breakLine_append h] at hbreak
    cases hbreak
    rfl

/-- The row behind some line feeds is the one with their number. -/
theorem getElem?_rowsFrom {before behind : List Char} (start : Nat)
    (hstarts : before = [] ∨ ∃ front, before = front ++ ['\n']) (hrow : '\n' ∉ row)
    (hends : behind = [] ∨ ∃ rest, behind = '\n' :: rest) :
    (rowsFrom start (before ++ (row ++ behind)))[before.count '\n']? =
      some ⟨start + byteLength before, row,
        start + byteLength before + byteLength row + byteLength (behind.take 1)⟩ := by
  -- Behind its first line, what lies before the row is shorter
  induction hlength : before.length using Nat.strong_induction_on generalizing before start with
  | _ n ih =>
    by_cases hnil : before = []
    · subst hnil
      rcases hends with rfl | ⟨rest, rfl⟩
      · simp [rowsFrom_of_not_mem hrow]
      · simp [rowsFrom_append hrow]
        rfl
    · obtain ⟨front, rfl⟩ := hstarts.resolve_left hnil
      obtain ⟨first, later, hsplit, hfirst⟩ :=
        List.eq_append_cons_of_mem (List.mem_append_right front (List.mem_singleton_self '\n'))
      have hlater : later = [] ∨ ∃ front, later = front ++ ['\n'] := by
        rcases List.eq_nil_or_concat later with hlater | ⟨rest, last, rfl⟩
        · exact .inl hlater
        · have hends : front ++ ['\n'] = (first ++ '\n' :: rest) ++ [last] := by
            rw [hsplit, List.concat_eq_append, List.append_assoc, List.cons_append]
          exact .inr ⟨rest, by rw [List.append_inj_right' hends rfl, List.concat_eq_append]⟩
      rw [hsplit] at hlength ⊢
      have hshorter : later.length < n := by
        rw [← hlength, List.length_append, List.length_cons]
        omega
      -- The first line takes one line feed, and the rest starts behind it
      have hcount : (first ++ '\n' :: later).count '\n' = later.count '\n' + 1 := by
        rw [List.count_append, List.count_eq_zero_of_not_mem hfirst, List.count_cons_self,
          Nat.zero_add]
      have hfeed :
          byteLength (first ++ '\n' :: later) = byteLength first + 1 + byteLength later := by
        rw [byteLength_append, byteLength_cons, ← Nat.add_assoc]
        rfl
      rw [List.append_assoc, List.cons_append, rowsFrom_append hfirst, hcount,
        List.getElem?_cons_succ, ih _ hshorter _ hlater rfl, hfeed]
      simp only [Nat.add_assoc]

end Text

namespace PhysicalLine

variable {text : List Char} (line : PhysicalLine text)

/-- The byte at which the text of the line ends, in front of its line feed. -/
def stop : Nat :=
  line.offset + byteLength (line.content ++ line.returns)

/-- The byte at which the next line starts, or the length of the text. -/
def next : Nat :=
  line.stop + byteLength (line.behind.take 1)

/-- The row of a line starts with it and ends where the next one starts. -/
theorem getElem?_rows :
    (rows text)[line.number]? = some ⟨line.offset, line.content ++ line.returns, line.next⟩ := by
  have hrow : '\n' ∉ line.content ++ line.returns := by
    rw [List.mem_append, not_or]
    exact ⟨line.isOneLine, fun h => absurd (line.isReturn _ h) (by decide)⟩
  have htext : line.before ++ ((line.content ++ line.returns) ++ line.behind) = text := by
    rw [← List.append_assoc, ← List.append_assoc, line.text_eq]
  have hget := getElem?_rowsFrom 0 line.starts hrow line.ends
  rw [htext, Nat.zero_add] at hget
  exact hget

/-- Two lines with the same number are at the same place. -/
theorem row_eq_of_number_eq {line line' : PhysicalLine text} (h : line.number = line'.number) :
    line.offset = line'.offset ∧ line.stop = line'.stop ∧ line.next = line'.next := by
  have hrow := line.getElem?_rows
  rw [h, line'.getElem?_rows, Option.some_inj, Row.mk.injEq] at hrow
  obtain ⟨hoffset, htext, hnext⟩ := hrow
  exact ⟨hoffset.symm, by rw [stop, stop, hoffset, htext], hnext.symm⟩

theorem next_le : line.next ≤ byteLength text := by
  have htext := congrArg byteLength line.text_eq
  have hbehind := congrArg byteLength (List.take_append_drop 1 line.behind)
  simp only [byteLength_append] at htext hbehind
  simp only [next, stop, offset, byteLength_append]
  omega

theorem span_stop_le_stop : line.span.stop ≤ line.stop := by
  simp only [span, stop, byteLength_append]
  omega

theorem next_eq : line.next = line.stop ∧ line.behind = [] ∨
    line.next = line.stop + 1 ∧ line.behind ≠ [] := by
  rcases line.ends with h | ⟨rest, h⟩
  · exact .inl ⟨by rw [next, h]; rfl, h⟩
  · exact .inr ⟨by rw [next, h]; rfl, by simp [h]⟩

end PhysicalLine

/-! ### Labels -/

namespace ZincError

/-- Where the label of an error lies that was found at a column of a line. Up to the line feed it is
the byte at the column, and behind it the empty span in front of the next line. -/
structure IsLabeled {text : List Char} (e : ZincError) (line : PhysicalLine text) (column : Nat)
    (label : ByteSpan) : Prop where
  label_eq : e.label? text = some label
  offset_le : line.offset ≤ label.start
  start_le_stop : label.start ≤ label.stop
  stop_le : label.stop ≤ byteLength text
  eq_of_lt : line.offset + column < line.next →
    label = ⟨line.offset + column, line.offset + column + 1⟩
  eq_of_le : line.next ≤ line.offset + column → label = ⟨line.next, line.next⟩
  /-- The label starts on the line, unless the column is one behind the line feed. -/
  start_le_iff : label.start ≤ line.stop ↔ line.behind = [] ∨ line.offset + column ≤ line.stop

theorem isLabeled {text : List Char} {e : ZincError} {line : PhysicalLine text} {column : Nat}
    (h : e.position? = some ⟨line.number, column⟩) :
    ∃ label, e.IsLabeled line column label := by
  have hle := line.next_le
  have hoffset : line.offset ≤ line.stop := Nat.le_add_right ..
  have hlabel : e.label? text = some ⟨min (line.offset + column) line.next,
      min (min (line.offset + column) line.next + 1) line.next⟩ := by
    rw [label?, h, Option.bind_some, line.getElem?_rows, Option.map_some]
  by_cases hlt : line.offset + column < line.next
  · rw [Nat.min_eq_left (Nat.le_of_lt hlt), Nat.min_eq_left hlt] at hlabel
    refine ⟨_, hlabel, Nat.le_add_right .., Nat.le_succ _, Nat.le_trans hlt hle,
      fun _ => rfl, fun hge => absurd hge (Nat.not_le_of_lt hlt), ?_⟩
    rcases line.next_eq with ⟨hnext, hbehind⟩ | ⟨hnext, hbehind⟩
    · exact iff_of_true (by dsimp only; omega) (.inl hbehind)
    · simp [hbehind]
  · have hge := Nat.le_of_not_lt hlt
    rw [Nat.min_eq_right hge, Nat.min_eq_right (Nat.le_succ _)] at hlabel
    refine ⟨_, hlabel, ?_, Nat.le_refl _, hle, fun h => absurd h hlt, fun _ => rfl, ?_⟩
    · exact Nat.le_trans hoffset (Nat.le_add_right ..)
    · rcases line.next_eq with ⟨hnext, hbehind⟩ | ⟨hnext, hbehind⟩
      · exact iff_of_true (Nat.le_of_eq hnext) (.inl hbehind)
      · exact iff_of_false (by dsimp only; omega) (by simp only [hbehind, false_or]; omega)

end ZincError

/-! ### Tokens of lines that passed -/

/-- What the blanked text shows of the source text, other than a blank, stands at the same byte of
the source text. -/
theorem BlockComment.exists_of_blank_eq {text before behind : List Char} {c : Char}
    (h : blank text = before ++ c :: behind) (hc : c ≠ ' ') :
    ∃ front rest, text = front ++ c :: rest ∧ byteLength front = byteLength before := by
  obtain ⟨first, later, hread, hfirst, hlater⟩ :=
    exists_of_flatMap_shown ((flatMap_shown_read text).trans h) (.inr (by simpa using hc))
  obtain ⟨mark, last, rfl⟩ : ∃ mark last, later = mark :: last := by
    cases later with
    | nil => cases hlater
    | cons mark last => exact ⟨mark, last, rfl⟩
  rw [List.flatMap_cons] at hlater
  -- A character is shown as it is, or as blanks
  have hmark : mark.1 = c := by
    rcases shown_eq_or mark with hshown | ⟨hshown, -⟩
    · rw [hshown] at hlater
      exact (List.cons.inj hlater).1
    · obtain ⟨n, hn⟩ := Nat.exists_eq_succ_of_ne_zero (Nat.ne_of_gt mark.1.utf8Size_pos)
      rw [hshown, hn, List.replicate_succ] at hlater
      exact absurd (List.cons.inj hlater).1.symm hc
  refine ⟨first.map Prod.fst, last.map Prod.fst, ?_, ?_⟩
  · rw [← map_fst_read text, hread, List.map_append, List.map_cons, hmark]
  · rw [← byteLength_flatMap_shown, hfirst]

namespace Document

/-- A token of a line of the blanked text stands at its column in the source text. -/
theorem exists_first_char {text : List Char} {record : SourceLine} {token : Token}
    (hrecord : record ∈ SourceLine.segment (BlockComment.blank text))
    (htoken : token ∈ record.tokens) :
    ∃ line : PhysicalLine text, line.number = token.line ∧
      line.offset + token.startColumn < line.stop ∧
      ∃ before c behind rest, text = before ++ c :: behind ∧
        byteLength before = line.offset + token.startColumn ∧ token.text.toList = c :: rest := by
  obtain ⟨shown, hstands, htext⟩ := SourceLine.exists_of_mem_segment hrecord
  obtain ⟨origin, hnumber, hoffset, hspan⟩ := shown.exists_of_blank
  have hline := ((Token.tiles_tokenizeFrom record.line 0 record.text.toList).columns token htoken).1
  obtain ⟨front, c, behind, rest, hfront, hc, hcolumn, hword⟩ := Token.exists_first_char htoken
  -- The token starts in front of what ends the line
  obtain ⟨later, hcontent⟩ : ∃ later, shown.content = front ++ c :: later := by
    rcases cases_append (htext.symm.trans hfront) with hlater | ⟨before, -, hending⟩
    · exact hlater
    · have hbreak := shown.isLineBreak_of_mem_ending c (by rw [hending]; simp)
      rw [isBlank_of_isLineBreak hbreak] at hc
      cases hc
  have hblank : BlockComment.blank text =
      (shown.before ++ front) ++ c :: (later ++ shown.returns ++ shown.behind) := by
    refine shown.text_eq.symm.trans ?_
    rw [hcontent]
    simp
  have hne : c ≠ ' ' := fun heq => by simp [heq, isBlank] at hc
  obtain ⟨before, behind', hsource, hbytes⟩ := BlockComment.exists_of_blank_eq hblank hne
  refine ⟨origin, ?_, ?_, before, c, behind', rest, hsource, ?_, hword⟩
  · rw [hnumber, ← hstands.line_eq, hline]
  · have hstop := hspan ▸ origin.span_stop_le_stop
    have hpos := c.utf8Size_pos
    simp only [PhysicalLine.span, hcontent, byteLength_append, byteLength_cons] at hstop
    omega
  · rw [hbytes, hoffset, byteLength_append, hcolumn, Nat.zero_add]
    rfl

theorem map_record_pieces (source : Nat) (limit? : Option Nat) (text : List Char) :
    (pieces source limit? text).map Expansion.Piece.record = (read source limit? text).expanded :=
  Expansion.record_pieces _

/-- A zinc token is one of a line that passed or of a line that a macro produced. -/
theorem exists_piece_of_mem_zincTokens {source : Nat} {limit? : Option Nat} {text : List Char}
    {token : Token} (h : token ∈ (read source limit? text).zincTokens) :
    ∃ piece ∈ pieces source limit? text, token ∈ piece.record.tokens := by
  obtain ⟨block, hblock, hlines⟩ := List.mem_flatMap.1 h
  obtain ⟨record, hrecord, htoken⟩ := List.mem_flatMap.1 hlines
  have hzinc := @ZincBlock.extract_forall (· ∈ (read source limit? text).expanded) source _
    fun _ hline => hline
  have hexpanded := hzinc.lines block hblock record hrecord
  rw [← map_record_pieces] at hexpanded
  obtain ⟨piece, hpiece, rfl⟩ := List.mem_map.1 hexpanded
  exact ⟨piece, hpiece, htoken⟩

variable {source : Nat} {limit? : Option Nat} {text : List Char}

theorem mem_segment_of_passed {record : SourceLine}
    (h : .passed record ∈ pieces source limit? text) :
    record ∈ SourceLine.segment (BlockComment.blank text) :=
  (@MacroTable.extract_forall (· ∈ SourceLine.segment (BlockComment.blank text)) source _
    fun _ hline => hline).remaining record (Expansion.mem_of_passed h)

/-- Every token of the expanded stream is on a line of the text. -/
theorem exists_line_of_mem_pieces {piece : Expansion.Piece} {token : Token}
    (hpiece : piece ∈ pieces source limit? text) (htoken : token ∈ piece.record.tokens) :
    ∃ line : PhysicalLine text, line.number = token.line := by
  have hexpanded : piece.record ∈ (read source limit? text).expanded :=
    map_record_pieces source limit? text ▸ List.mem_map_of_mem hpiece
  have hlines : piece.record ∈ (read source limit? text).lines :=
    List.mem_append_left _ (List.mem_append_left _ (List.mem_append_left _ hexpanded))
  obtain ⟨line, hstands⟩ :=
    isPlaced_of_comes source limit? text ((comes_read source limit? text).1 _ hlines)
  have htiles := Token.tiles_tokenizeFrom piece.record.line 0 piece.record.text.toList
  exact ⟨line, hstands.line_eq.symm.trans (htiles.columns token htoken).1.symm⟩

end Document

/-! ### Analyses -/

/-- Without a zinc block there are no tokens, and no error. -/
theorem Document.zincBlocks_ne_nil {document : Document} {e : ZincError}
    (h : document.zincProgram = .error e) : document.zincBlocks ≠ [] := by
  intro hnil
  have hempty : Zinc.parse [] = .ok (.empty 0) := by decide +kernel
  rw [zincProgram, zincTokens, hnil, ZincBlock.tokens, List.flatMap_nil, hempty] at h
  cases h

/-- An analysis reports the error of the zinc blocks if it reads them. -/
theorem Analysis.zincError_eq_some_iff {source : Nat} {settings : Settings} {text : List Char}
    {e : ZincError} :
    (ofText source settings text).zincError = some e ↔ settings.readsZinc = true ∧
      (Document.read source settings.expansionLimit text).zincProgram = .error e := by
  simp only [ofText]
  by_cases hreads : settings.readsZinc = true
  · cases hzinc : (Document.read source settings.expansionLimit text).zincProgram with
    | ok zinc => simp only [reduceCtorEq, and_false, iff_false]; split <;> simp
    | error other =>
      have hblocks := Document.zincBlocks_ne_nil hzinc
      simp [hreads, hblocks]
  · simp [hreads]

namespace ZincError

/-- An error that has a position is about a token at that position, on a line of the text that was
read, and it is labeled there: the label lies within the text and starts behind the start of the
line, and it starts in front of the next line unless the column of the token is one behind the line
feed. The token is one of a line that passed or of a line that a macro produced. In a line that
passed its first character stands at its column in the text, in front of the line feed, and the
label is the first byte of that character. -/
theorem label?_isLabeled (source : Nat) (settings : Settings) (text : List Char) {e : ZincError}
    {position : Position}
    (h : (Analysis.ofText source settings text).zincError = some e)
    (hposition : e.position? = some position) :
    ∃ found expected, ∃ line : PhysicalLine text, ∃ label,
      e = .unexpected found expected ∧ found.start = position ∧ line.number = position.line ∧
      e.IsLabeled line position.column label ∧
      (∃ piece ∈ Document.pieces source settings.expansionLimit text,
        found ∈ piece.record.tokens) ∧
      ∀ record, .passed record ∈ Document.pieces source settings.expansionLimit text →
        found ∈ record.tokens →
        label = ⟨line.offset + position.column, line.offset + position.column + 1⟩ ∧
          label.start < line.stop ∧
          ∃ before c behind rest, text = before ++ c :: behind ∧
            byteLength before = label.start ∧ found.text.toList = c :: rest := by
  cases e with
  | endOfCode expected => cases hposition
  | unexpected found expected =>
    obtain rfl := Option.some.inj hposition
    have hparse := (Analysis.zincError_eq_some_iff.1 h).2
    obtain ⟨-, htoken, -⟩ := Zinc.parse_append_of_unexpected (b := []) hparse
    obtain ⟨piece, hpiece, hfound⟩ := Document.exists_piece_of_mem_zincTokens htoken
    obtain ⟨line, hline⟩ := Document.exists_line_of_mem_pieces hpiece hfound
    have hstart : (ZincError.unexpected found expected).position? =
        some ⟨line.number, found.startColumn⟩ := by
      rw [hline]
      rfl
    obtain ⟨label, hlabel⟩ := isLabeled hstart
    refine ⟨found, expected, line, label, rfl, rfl, hline, hlabel, ⟨piece, hpiece, hfound⟩, ?_⟩
    -- The line that passed and the one of the label have the same number, so they are the same
    intro record hpassed hrecord
    obtain ⟨origin, hnumber, hstop, before, c, behind, rest, htext, hbefore, hword⟩ :=
      Document.exists_first_char (Document.mem_segment_of_passed hpassed) hrecord
    obtain ⟨hoffset, hsame, -⟩ := PhysicalLine.row_eq_of_number_eq (hline.trans hnumber.symm)
    rw [← hoffset, ← hsame] at hstop
    have hbyte := hlabel.eq_of_lt (Nat.lt_of_lt_of_le hstop (Nat.le_add_right ..))
    refine ⟨hbyte, ?_, before, c, behind, rest, htext, ?_, hword⟩
    · rw [hbyte]
      exact hstop
    · rw [hbyte, hbefore, ← hoffset]

/-- The line of a macro is shorter than the one that the macro produces. -/
def longArgumentText : List Char :=
  ("//! textmacro M(a)\n$a$\n//! endtextmacro\n//! zinc\n" ++
    "//! runtextmacro M(\"integer x y\")\n//! endzinc\n").toList

/-- There is no semicolon in front of the second name. -/
def secondName : ZincError :=
  .unexpected ⟨.identifier, "y", 1, 10, 11⟩ (.sign ";")

/-- The line of the macro. -/
def longArgumentLine : PhysicalLine longArgumentText where
  before := "//! textmacro M(a)\n".toList
  content := "$a$".toList
  returns := []
  behind := ("\n//! endtextmacro\n//! zinc\n" ++
    "//! runtextmacro M(\"integer x y\")\n//! endzinc\n").toList
  text_eq := by decide
  starts := .inr ⟨"//! textmacro M(a)".toList, by decide⟩
  isOneLine := by decide
  isReturn := by simp
  ends := .inr ⟨_, rfl⟩

theorem zincError_longArgument :
    (Analysis.ofText 0 .standard longArgumentText).zincError = some secondName := by
  have hhalts : ((Expansion.Machine.start
      (Document.extraction 0 longArgumentText).remaining).after
        (Document.context 0 none longArgumentText) 5).step
          (Document.context 0 none longArgumentText) = none := by
    decide +kernel
  refine Analysis.zincError_eq_some_iff.2 ⟨rfl, ?_⟩
  rw [Document.zincProgram, show Settings.standard.expansionLimit = none from rfl,
    Document.zincTokens_of_halts hhalts]
  decide +kernel

theorem isLabeled_longArgument :
    (Analysis.ofText 0 .standard longArgumentText).zincError = some secondName ∧
    secondName.position? = some ⟨1, 10⟩ ∧
    ∃ found expected, ∃ line : PhysicalLine longArgumentText, ∃ label,
      secondName = .unexpected found expected ∧ found.start = ⟨1, 10⟩ ∧ line.number = 1 ∧
      secondName.IsLabeled line 10 label ∧
      (∃ piece ∈ Document.pieces 0 none longArgumentText, found ∈ piece.record.tokens) ∧
      ∀ record, .passed record ∈ Document.pieces 0 none longArgumentText →
        found ∈ record.tokens →
        label = ⟨line.offset + 10, line.offset + 10 + 1⟩ ∧
          label.start < line.stop ∧
          ∃ before c behind rest, longArgumentText = before ++ c :: behind ∧
            byteLength before = label.start ∧ found.text.toList = c :: rest :=
  ⟨zincError_longArgument, rfl,
    label?_isLabeled 0 .standard longArgumentText zincError_longArgument rfl⟩

/-- The error is on the second line, and its label is the start of the third one. -/
theorem label?_behind_line :
    (Analysis.ofText 0 .standard longArgumentText).zincError = some secondName ∧
    secondName.position? = some ⟨1, 10⟩ ∧ secondName.label? longArgumentText = some ⟨23, 23⟩ ∧
    ∀ line : PhysicalLine longArgumentText, line.number = 1 →
      line.offset = 19 ∧ line.stop = 22 ∧ line.next = 23 := by
  obtain ⟨label, hlabel⟩ := @isLabeled _ secondName longArgumentLine 10 rfl
  have hnext : longArgumentLine.next = 23 := by decide
  refine ⟨zincError_longArgument, rfl, ?_, fun line hline => ?_⟩
  · rw [hlabel.label_eq, hlabel.eq_of_le (by decide), hnext]
  · obtain ⟨hoffset, hstop, hnext'⟩ := PhysicalLine.row_eq_of_number_eq
      (hline.trans (show 1 = longArgumentLine.number by decide))
    exact ⟨hoffset.trans (by decide), hstop.trans (by decide), hnext'.trans hnext⟩

end ZincError

end JassOutline
