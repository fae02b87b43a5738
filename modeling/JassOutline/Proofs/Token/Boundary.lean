import JassOutline.Proofs.Token.Agreement

/-!
# The boundaries of strings and comments

The reader that blanks comments decides for every byte of a text whether it is part of a string and
where a line comment starts. The tokens of a line say the same about the bytes of that line, exactly
if no raw code of the line hides an opener, and then no block comment is taken for signs. Only
behind a carriage return in the middle of a string or a comment nothing is said: for the reader of
tokens alone it ends both.

## Key results

- `SourceLine.tokens_agree_iff`: when the tokens of a line agree with the readings of its bytes
- `SourceLine.not_agree_quoteInRawCode`: a line on which they do not
-/

namespace JassOutline

open Text BlockComment

namespace SourceLine

/-- The bytes of a stretch of a text up to the first stray carriage return. -/
def calmBytes (text : List Char) (span : ByteSpan) : List (Char × Reading) :=
  (bytesIn text span).takeWhile fun byte => !isStrayReturn byte

/-- A stray carriage return is read again as one, and nothing else is. -/
theorem isStrayReturn_rereadByte (byte : Char × Reading) :
    isStrayReturn (rereadByte byte) = isStrayReturn byte := by
  obtain ⟨c, reading⟩ := byte
  by_cases hblock : reading = .blockComment
  · -- Neither code nor a block comment is a string or a line comment
    rw [hblock, rereadByte, if_pos rfl]
    exact (Bool.and_false _).trans (Bool.and_false _).symm
  · rw [rereadByte, if_neg hblock]

/-- Behind what has no stray carriage return stands one, or all of the line is read. -/
theorem isLineBreak_of_dropWhile {inside behind : List (Char × Reading)}
    (hbehind : ∀ c ∈ (behind.map Prod.fst).head?, isLineBreak c = true) :
    ∀ c ∈ ((inside.dropWhile (fun mark => !isStrayReturn mark) ++ behind).map Prod.fst).head?,
      isLineBreak c = true := by
  have hfirst := List.head?_dropWhile_not (fun mark => !isStrayReturn mark) inside
  cases hleft : inside.dropWhile fun mark => !isStrayReturn mark with
  | nil => exact hbehind
  | cons mark rest =>
    have hstray : (!isStrayReturn mark) = false := by rwa [hleft] at hfirst
    simp only [Bool.not_eq_false', isStrayReturn, Bool.and_eq_true, beq_iff_eq] at hstray
    intro c hc
    obtain rfl : mark.1 = c := Option.some.inj hc
    rw [hstray.1]
    decide

/-- A line of the blanked text up to the first stray carriage return. -/
theorem exists_isLine {text : List Char} (line : PhysicalLine (blank text)) :
    ∃ content ending, content ++ ending = line.content ++ line.ending ∧
      Token.IsLine content ending ∧
      (calmBytes text line.span).map rereadByte =
        bytes ((readFrom .code (content ++ ending)).take content.length) := by
  -- The marks of the line are the calm ones, those left of its content, and those of its ending
  let marks := readFrom .code (line.content ++ line.ending)
  let inside := marks.take line.content.length
  let calm := inside.takeWhile fun mark => !isStrayReturn mark
  let left := inside.dropWhile fun mark => !isStrayReturn mark
  have hfst : marks.map Prod.fst = line.content ++ line.ending := map_fst_readFrom ..
  have hinside : calm ++ left = inside := List.takeWhile_append_dropWhile
  have hmarks : calm ++ (left ++ marks.drop line.content.length) = marks := by
    rw [← List.append_assoc, hinside, List.take_append_drop]
  have hcontent : inside.map Prod.fst = line.content := by
    rw [List.map_take, hfst, List.take_left]
  have hending : (marks.drop line.content.length).map Prod.fst = line.ending := by
    rw [List.map_drop, hfst, List.drop_left]
  have hwhole : calm.map Prod.fst ++ (left ++ marks.drop line.content.length).map Prod.fst =
      line.content ++ line.ending := by
    rw [← List.map_append, hmarks, hfst]
  have hcalm : (readFrom .code (line.content ++ line.ending)).take (calm.map Prod.fst).length =
      calm := by
    rw [List.length_map]
    exact (congrArg (List.take calm.length) hmarks.symm).trans (List.take_left ..)
  refine ⟨calm.map Prod.fst, _, hwhole, ⟨?_, ?_, ?_, ?_⟩, ?_⟩
  · refine isLineBreak_of_dropWhile fun c hc => ?_
    exact line.isLineBreak_of_mem_ending c (List.mem_of_mem_head? (hending ▸ hc))
  · intro hmem
    refine line.isOneLine ?_
    rw [← hcontent, ← hinside, List.map_append]
    exact List.mem_append_left _ hmem
  · rw [hwhole]
    exact ne_blockComment_of_mem_line line
  · rw [hwhole, hcalm]
    intro mark hmark
    simpa using List.mem_takeWhile_imp hmark
  · -- The bytes are cut where the characters are, and where those of the text itself are
    have hsame : (fun mark => !isStrayReturn mark) ∘ rereadByte = fun mark => !isStrayReturn mark :=
      funext fun mark => congrArg not (isStrayReturn_rereadByte mark)
    rw [hwhole, hcalm, calmBytes]
    nth_rewrite 1 [← hsame]
    rw [← List.takeWhile_map, bytesIn_span line, takeWhile_bytes]

/-- What is agreed on is the same for the text and for the blanked text. -/
theorem agree_map_rereadByte {tokens : List Token} {column : Nat}
    {marks : List (Char × Reading)} :
    Token.Agree tokens column ((marks.map rereadByte).map Prod.snd) ↔
      Token.Agree tokens column (marks.map Prod.snd) := by
  -- Only block comments are read in another way, and of them nothing is told
  have hsame : ∀ byte : Char × Reading, ∀ shown, shown = .string ∨ shown = .commentStart →
      ((rereadByte byte).2 = shown ↔ byte.2 = shown) := by
    rintro ⟨c, reading⟩ shown (rfl | rfl) <;> cases reading <;> simp [rereadByte]
  constructor
  · intro h k reading hreading shown hshown
    rw [List.getElem?_map, Option.map_eq_some_iff] at hreading
    obtain ⟨byte, hbyte, rfl⟩ := hreading
    rw [← hsame byte shown hshown]
    exact h k _ (by rw [List.getElem?_map, List.getElem?_map, hbyte]; rfl) shown hshown
  · intro h k reading hreading shown hshown
    rw [List.getElem?_map, List.getElem?_map, Option.map_map, Option.map_eq_some_iff] at hreading
    obtain ⟨byte, hbyte, rfl⟩ := hreading
    rw [Function.comp_apply, hsame byte shown hshown]
    exact h k _ (by rw [List.getElem?_map, hbyte]; rfl) shown hshown

/-- Up to the first stray carriage return, the tokens of a line agree with the readings of its bytes
exactly if no raw code hides an opener, and then no block comment reaches them as signs. -/
theorem tokens_agree_iff {text : List Char} {record : SourceLine}
    (h : record ∈ segment (blank text)) :
    (Token.Agree record.tokens 0 ((calmBytes text record.span).map Prod.snd) ↔
      Token.HideNone record.tokens (calmBytes text record.span).length) ∧
    (Token.Agree record.tokens 0 ((calmBytes text record.span).map Prod.snd) →
      ∀ slash ∈ record.tokens, slash.startColumn < (calmBytes text record.span).length →
        ∀ star ∈ record.tokens, slash.isOperator "/" = true → star.isOperator "*" = true →
          slash.stopColumn ≠ star.startColumn) := by
  obtain ⟨line, hstands, htext⟩ := exists_of_mem_segment h
  obtain ⟨content, ending, hwhole, hline, hbytes⟩ := exists_isLine line
  have hlockstep := Token.lockstep_tokenizeFrom record.line hline 0
  rw [Token.InStep] at hlockstep
  have hlength : (calmBytes text line.span).length = 0 + byteLength
      (((readFrom .code (content ++ ending)).take content.length).map Prod.fst) := by
    rw [Nat.zero_add, ← length_bytes, ← hbytes, List.length_map]
  have htokens : record.tokens = Token.tokenizeFrom record.line 0 (content ++ ending) := by
    rw [hwhole, ← htext]
    rfl
  have hiff : Token.Agree record.tokens 0 ((calmBytes text line.span).map Prod.snd) ↔
      Token.HideNone record.tokens (calmBytes text line.span).length := by
    rw [← agree_map_rereadByte, hbytes, hlength, htokens]
    exact hlockstep.agree_iff
  rw [hstands.span_eq]
  refine ⟨hiff, fun hagree => ?_⟩
  have hclean := hiff.1 hagree
  rw [hlength, htokens] at hclean ⊢
  exact hlockstep.stopColumn_ne_startColumn hclean (Token.startColumn_lt_stopColumn _ _ _)
    ((Token.splitsOpeners_readFrom .code _).take _)

/-- A string with an opener in it, and a comment behind it. -/
def quotedOpener : List Char := "s = \"/*\" // t".toList

theorem tokens_agree_quotedOpener :
    ofChars quotedOpener 0 0 ∈ segment (blank quotedOpener) ∧
      Token.Agree (ofChars quotedOpener 0 0).tokens 0
        ((calmBytes quotedOpener (ofChars quotedOpener 0 0).span).map Prod.snd) ∧
      ∀ slash ∈ (ofChars quotedOpener 0 0).tokens,
        slash.startColumn < (calmBytes quotedOpener (ofChars quotedOpener 0 0).span).length →
          ∀ star ∈ (ofChars quotedOpener 0 0).tokens,
            slash.isOperator "/" = true → star.isOperator "*" = true →
              slash.stopColumn ≠ star.startColumn := by
  have hmem : ofChars quotedOpener 0 0 ∈ segment (blank quotedOpener) := by decide
  have htokens : (ofChars quotedOpener 0 0).tokens =
      [⟨.identifier, "s", 0, 0, 1⟩, ⟨.operator, "=", 0, 2, 3⟩, ⟨.string, "\"/*\"", 0, 4, 8⟩,
        ⟨.comment, "// t", 0, 9, 13⟩] := by decide +kernel
  have hnone : ∀ token ∈ (ofChars quotedOpener 0 0).tokens, token.hidesOpener = false := by
    rw [htokens]
    decide
  obtain ⟨hiff, hsigns⟩ := tokens_agree_iff hmem
  have hagree := hiff.2 fun token htoken _ => hnone token htoken
  exact ⟨hmem, hagree, hsigns hagree⟩

/-- A raw code with a quote in it, and a comment behind it. -/
def quoteInRawCode : List Char := "x = '\"' /* y */".toList

/-- A quote in a raw code opens a string for the reader that blanks comments, which therefore does
not see the comment behind it. The tokens are a number, and then the signs of the comment. -/
theorem not_agree_quoteInRawCode :
    ∃ record ∈ segment (blank quoteInRawCode),
      ¬Token.Agree record.tokens 0 ((bytesIn quoteInRawCode record.span).map Prod.snd) ∧
      ∃ slash ∈ record.tokens, ∃ star ∈ record.tokens,
        slash.isOperator "/" = true ∧ star.isOperator "*" = true ∧
          slash.stopColumn = star.startColumn := by
  have htokens : (ofChars quoteInRawCode 0 0).tokens =
      [⟨.identifier, "x", 0, 0, 1⟩, ⟨.operator, "=", 0, 2, 3⟩, ⟨.number, "'\"'", 0, 4, 7⟩,
        ⟨.operator, "/", 0, 8, 9⟩, ⟨.operator, "*", 0, 9, 10⟩, ⟨.identifier, "y", 0, 11, 12⟩,
        ⟨.operator, "*", 0, 13, 14⟩, ⟨.operator, "/", 0, 14, 15⟩] := by decide +kernel
  refine ⟨ofChars quoteInRawCode 0 0, by decide, fun hagree => ?_, ?_⟩
  · -- The quote is the sixth byte, and no string stands there
    have hquote : ((bytesIn quoteInRawCode (ofChars quoteInRawCode 0 0).span).map
        Prod.snd)[5]? = some .string := by decide
    obtain ⟨token, htoken, hkind, -⟩ := (hagree 5 .string hquote .string (.inl rfl)).2 rfl
    rw [htokens] at htoken
    simp only [List.mem_cons, List.not_mem_nil, or_false] at htoken
    rcases htoken with rfl | rfl | rfl | rfl | rfl | rfl | rfl | rfl <;> cases hkind
  · rw [htokens]
    exact ⟨⟨.operator, "/", 0, 8, 9⟩, by simp, ⟨.operator, "*", 0, 9, 10⟩, by simp, by decide,
      by decide, rfl⟩

end SourceLine

end JassOutline
