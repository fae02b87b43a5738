import JassOutline.Proofs.LineEnd.Token

/-!
# Tokens with single spaces between them

A token does not depend on its neighbours: read alone, its text is the same token, and so it is in
front of a space, unless it is a comment or a literal that nothing closes. These reach to the end of
their line, where no token follows. So a line can be written again with single spaces between its
tokens.

## Key results

- `extent_alone`: a token that nothing follows
- `extent_spaced`: a token in front of a space
- `labels_joined`: the tokens of a line, written with single spaces
-/

namespace JassOutline.Token

open Text

/-! ### Literals and comments alone -/

theorem commentExtent_alone (text : List Char) :
    commentExtent (text.take (commentExtent text)) = commentExtent text := by
  rw [commentExtent, commentExtent, take_length_takeWhile, List.takeWhile_idem]

theorem stringExtent_alone (text : List Char) :
    stringExtent (text.take (stringExtent text)) = stringExtent text := by
  fun_induction stringExtent text with
  | case1 => rfl
  | case2 => simp [stringExtent]
  | case3 => simp [stringExtent]
  | case4 => simp [stringExtent]
  | case5 c rest hc ih => simp [stringExtent, hc, ih]
  | case6 => rfl
  | case7 c rest hquote hnil hcons hbreak ih =>
    -- A plain character of the string, behind which as much is taken as before
    have hescape := ne_backslash hnil hcons
    rw [List.take_succ_cons, stringExtent_cons hquote hescape (Bool.eq_false_iff.2 hbreak), ih]

theorem rawCodeExtent_alone (text : List Char) :
    rawCodeExtent (text.take (rawCodeExtent text)) = rawCodeExtent text := by
  induction text with
  | nil => rfl
  | cons c rest ih =>
    rw [rawCodeExtent]
    by_cases hquote : c = '\''
    · simp [hquote, rawCodeExtent]
    by_cases hbreak : isLineBreak c = true
    · simp [hquote, hbreak, rawCodeExtent]
    · simp [hquote, hbreak, rawCodeExtent, ih]

/-! ### Numbers and words alone -/

theorem takeWhile_take_alone (p : Char → Bool) (text : List Char) :
    (text.take (text.takeWhile p).length).takeWhile p = text.takeWhile p := by
  rw [take_length_takeWhile, List.takeWhile_idem]

/-- Behind a run of characters of a class, no further one of the class stands. -/
theorem span_take_dropWhile (p : Char → Bool) (text : List Char) (n : Nat) :
    ((text.dropWhile p).take n).takeWhile p = [] ∧
      ((text.dropWhile p).take n).dropWhile p = (text.dropWhile p).take n := by
  have hhead := List.head?_dropWhile_not p text
  cases n with
  | zero => simp
  | succ n =>
    cases hrest : text.dropWhile p with
    | nil => simp
    | cons c rest => simp_all

/-- The start of a text starts as the text does, if it has a character at all. -/
theorem head?_of_take {text : List Char} {n : Nat} {c : Char}
    (h : (text.take n).head? = some c) : text.head? = some c := by
  rw [List.head?_take] at h
  split at h
  · cases h
  · exact h

theorem any_head?_of_take {p : Char → Bool} {text : List Char} {n : Nat}
    (h : (text.take n).head?.any p = true) : text.head?.any p = true := by
  obtain ⟨c, hc, hp⟩ := (Option.any_eq_true _ _).1 h
  rw [head?_of_take hc]
  exact hp

theorem fractionExtent_alone (text : List Char) :
    fractionExtent (text.take (fractionExtent text)) = fractionExtent text := by
  obtain ⟨fraction, rfl⟩ | hpoint := fraction_cases text
  · rw [fractionExtent, List.take_succ_cons, fractionExtent, takeWhile_take_alone]
  · have hzero := fractionExtent_eq_zero hpoint
    rw [hzero]
    rfl

theorem decimalExtent_alone (text : List Char) :
    decimalExtent (text.take (decimalExtent text)) = decimalExtent text := by
  have hdigits : ∀ c ∈ text.takeWhile Char.isDigit, c.isDigit = true := fun c hc =>
    List.mem_takeWhile_imp hc
  rw [decimalExtent_eq text, List.take_add, take_length_takeWhile, drop_length_takeWhile]
  -- What is taken of the fraction starts with no digit either
  obtain ⟨htake, hdrop⟩ := span_take_dropWhile Char.isDigit text
    (fractionExtent (text.dropWhile Char.isDigit))
  rw [decimalExtent_eq, List.takeWhile_append_of_pos hdigits, List.dropWhile_append_of_pos hdigits,
    htake, hdrop, List.append_nil, fractionExtent_alone]

theorem numberExtent_alone (first : Char) (text : List Char) :
    numberExtent first (text.take (numberExtent first text)) = numberExtent first text := by
  by_cases hpoint : first = '.'
  · simp only [numberExtent, hpoint, if_true, takeWhile_take_alone]
  by_cases hhex : first = '0' ∧ text.head?.any isHexMark = true
  · obtain ⟨mark, digits, rfl, hextent⟩ := exists_hexadecimal hhex
    rw [hextent, List.take_succ_cons, hextent, takeWhile_take_alone]
  · have hhex' : ¬(first = '0' ∧ (text.take (decimalExtent text)).head?.any isHexMark = true) :=
      mt (And.imp_right any_head?_of_take) hhex
    rw [numberExtent_decimal hpoint hhex, numberExtent_decimal hpoint hhex', decimalExtent_alone]

theorem dollarExtent_alone (text : List Char) :
    dollarExtent (text.take (dollarExtent text).2) = dollarExtent text := by
  rw [dollarExtent_eq text]
  by_cases hnumber : isDollarNumber text = true
  · -- A number between dollar signs keeps its closing one
    rw [if_pos hnumber]
    dsimp only
    have hnone : (text.takeWhile isPlainIdentifierChar).dropWhile isPlainIdentifierChar = [] :=
      List.dropWhile_eq_nil_iff.2 fun c hc => List.mem_takeWhile_imp hc
    have hnumber' : isDollarNumber (text.takeWhile isPlainIdentifierChar) = true := by
      simp only [isDollarNumber, Bool.and_eq_true] at hnumber
      rw [isDollarNumber, List.takeWhile_idem, hnone, hnumber.1.1, hnumber.1.2]
      rfl
    rw [take_length_takeWhile, dollarExtent_eq, if_pos hnumber', List.takeWhile_idem]
  · rw [if_neg hnumber]
    dsimp only
    -- What is no such number is a word, and taking only the word makes it none
    have hbehind : ∀ c ∈ (text.dropWhile isIdentifierChar).head?, isIdentifierChar c = false :=
      SameStart.head?_fails isIdentifierChar_of_isLineBreak (.inl rfl)
    have hsame : isDollarNumber (text.takeWhile isIdentifierChar) = isDollarNumber text := by
      have happend := isDollarNumber_append (text.takeWhile isIdentifierChar) hbehind
        (show ∀ c ∈ [].head?, isIdentifierChar c = false by simp)
      rwa [List.takeWhile_append_dropWhile, List.append_nil] at happend
    rw [take_length_takeWhile, dollarExtent_eq, hsame, if_neg hnumber, List.takeWhile_idem]

/-! ### Any token alone -/

/-- A token that nothing follows is the same. -/
theorem extent_alone (first : Char) (text : List Char) :
    extent first (text.take (extent first text).2) = extent first text := by
  by_cases hcomment : first = '/' ∧ text.head? = some '/'
  · obtain ⟨rfl, hslash⟩ := hcomment
    -- Both slashes are part of the comment that is taken
    have hslash' : (text.take (commentExtent text)).head? = some '/' := by
      obtain ⟨rest, rfl⟩ := List.head?_eq_some_iff.1 hslash
      simp [commentExtent, isLineBreak]
    rw [extent_slashes hslash, extent_slashes hslash', commentExtent_alone]
  by_cases hquote : first = '"'
  · rw [hquote, extent_quote, extent_quote, stringExtent_alone]
  by_cases hraw : first = '\''
  · rw [hraw, extent_apostrophe, extent_apostrophe, rawCodeExtent_alone]
  by_cases hdollar : first = '$'
  · rw [hdollar, extent_dollar, extent_dollar, dollarExtent_alone]
  have hcomment' : ∀ n, ¬(first = '/' ∧ (text.take n).head? = some '/') := fun n =>
    mt (And.imp_right head?_of_take) hcomment
  rw [extent_of_ne (hcomment' _) hquote hraw hdollar, extent_of_ne hcomment hquote hraw hdollar]
  by_cases hnumber : first.isDigit ∨ (first = '.' ∧ text.head?.any Char.isDigit)
  · have hnumber' : first.isDigit ∨ (first = '.' ∧
        (text.take (numberExtent first text)).head?.any Char.isDigit) := by
      -- One digit behind the point is enough to tell, and it is taken too
      refine hnumber.imp_right fun hfraction => ?_
      obtain ⟨hpoint, hdigit⟩ := hfraction
      refine ⟨hpoint, ?_⟩
      -- The digit behind the point belongs to the number
      cases text with
      | nil => cases hdigit
      | cons d rest =>
        have hd : d.isDigit = true := hdigit
        simp [numberExtent, hpoint, hd]
    rw [if_pos hnumber]
    dsimp only
    rw [if_pos hnumber', numberExtent_alone]
  -- What starts no number starts none with less behind it either
  have hnumber' : ∀ n, ¬(first.isDigit ∨ (first = '.' ∧ (text.take n).head?.any Char.isDigit)) :=
    fun n => mt (Or.imp_right (And.imp_right any_head?_of_take)) hnumber
  rw [if_neg hnumber, if_neg (hnumber' _)]
  by_cases hword : isAlphabetic first ∨ first = '_'
  · rw [if_pos hword, if_pos hword, takeWhile_take_alone]
  rw [if_neg hword, if_neg hword]
  by_cases hpair : (text.head?.any fun c => pairedSigns.contains (first, c)) = true
  · have hpair' : ((text.take 1).head?.any fun c => pairedSigns.contains (first, c)) = true := by
      -- The second sign of a pair is taken with the first
      rwa [List.head?_take, if_neg Nat.one_ne_zero]
    rw [if_pos hpair]
    exact if_pos hpair'
  · rw [if_neg hpair]
    rfl

/-! ### Tokens in front of a space -/

/-- A token that is closed is the same in front of a space. -/
theorem extent_spaced {first : Char} {text : List Char}
    (hcomment : (extent first text).1 ≠ .comment)
    (hclosed : isClosedWord (first :: text.take (extent first text).2) = true)
    (behind : List Char) :
    extent first (text.take (extent first text).2 ++ ' ' :: behind) = extent first text := by
  have halone := extent_alone first text
  have hlength : (text.take (extent first text).2).length = (extent first text).2 :=
    List.length_take_of_le (size_extent_le first text)
  -- A line end whose carriage return was blanked starts with a space as well
  have hending : extent first (text.take (extent first text).2 ++ LineEnd.blankAndFeed.chars) =
      extent first text := by
    rw [extent_append (by rwa [halone]), halone]
    refine .inr (.inr ?_)
    rwa [halone, List.take_take, Nat.min_self]
  have hstart : SameStart ((text.take (extent first text).2 ++ LineEnd.blankAndFeed.chars).drop
      (extent first (text.take (extent first text).2 ++ LineEnd.blankAndFeed.chars)).2)
      (' ' :: behind) := by
    rw [hending, List.drop_left' hlength]
    exact .inl rfl
  have hresume := extent_resume hstart
  rwa [hending, List.take_left' hlength] at hresume

theorem isClosedString_or_eq_length {text : List Char}
    (hbreak : ∀ c ∈ text, isLineBreak c = false) :
    isClosedString (text.take (stringExtent text)) = true ∨ stringExtent text = text.length := by
  fun_induction stringExtent text with
  | case1 => exact .inr rfl
  | case2 => exact .inl rfl
  | case3 => exact .inr rfl
  | case4 => exact absurd (hbreak '\n' (by simp)) (by decide)
  | case5 c rest hc ih =>
    -- An escaped character passes together with its backslash
    refine (ih fun d hd => hbreak d (by simp [hd])).imp (fun h => ?_) fun h => ?_
    · rwa [List.take_succ_cons, List.take_succ_cons, isClosedString]
    · rw [h, List.length_cons, List.length_cons]
  | case6 c rest hquote _ _ hline => simp [hbreak c List.mem_cons_self] at hline
  | case7 c rest hquote hnil hcons hline ih =>
    -- Any other character of the line passes
    have hescape := ne_backslash hnil hcons
    refine (ih fun d hd => hbreak d (by simp [hd])).imp (fun h => ?_) fun h => ?_
    · rwa [List.take_succ_cons, isClosedString_cons hquote hescape]
    · rw [h, List.length_cons]

theorem mem_or_rawCodeExtent_eq_length {text : List Char}
    (hbreak : ∀ c ∈ text, isLineBreak c = false) :
    '\'' ∈ text.take (rawCodeExtent text) ∨ rawCodeExtent text = text.length := by
  induction text with
  | nil => exact .inr rfl
  | cons c rest ih =>
    obtain ⟨hc, hrest⟩ := List.forall_mem_cons.1 hbreak
    rw [rawCodeExtent]
    by_cases hquote : c = '\''
    · simp [hquote]
    · simpa [hquote, hc, Ne.symm hquote] using ih hrest

/-- On its line, what is not closed has nothing behind it. -/
theorem isClosedWord_or_eq_length (first : Char) {text : List Char}
    (hbreak : ∀ c ∈ text, isLineBreak c = false) :
    ((extent first text).1 ≠ .comment ∧
        isClosedWord (first :: text.take (extent first text).2) = true) ∨
      (extent first text).2 = text.length := by
  by_cases hcomment : first = '/' ∧ text.head? = some '/'
  · -- A comment reaches the end of the line
    have hall : text.takeWhile (fun c => !isLineBreak c) = text :=
      List.takeWhile_eq_self_iff.2 fun c hc => by simp [hbreak c hc]
    obtain ⟨rfl, hslash⟩ := hcomment
    rw [extent_slashes hslash]
    exact .inr (congrArg List.length hall)
  -- Only a comment has the kind, so from here on the word decides
  have hkind : (extent first text).1 ≠ .comment := mt kind_extent_eq_comment.1 hcomment
  by_cases hquote : first = '"'
  · subst hquote
    rw [extent_quote] at hkind ⊢
    exact (isClosedString_or_eq_length hbreak).imp_left fun h => ⟨hkind, h⟩
  by_cases hraw : first = '\''
  · subst hraw
    rw [extent_apostrophe] at hkind ⊢
    exact (mem_or_rawCodeExtent_eq_length hbreak).imp_left fun h =>
      ⟨hkind, List.contains_iff_mem.2 h⟩
  · refine .inl ⟨hkind, ?_⟩
    unfold isClosedWord
    split
    · next h => exact absurd (List.cons.inj h).1 hquote
    · next h => exact absurd (List.cons.inj h).1 hraw
    · rfl

/-- The texts of the tokens with single spaces between them. -/
def joined (tokens : List Token) : List Char :=
  [' '].intercalate (tokens.map fun token => token.text.toList)

/-- The text of a token says that token alone. -/
theorem labels_alone (line column : Nat) {first : Char} (hblank : isBlank first = false)
    (text : List Char) :
    (tokenizeFrom line column (first :: text.take (extent first text).2)).map label =
      [⟨(extent first text).1, String.ofList (first :: text.take (extent first text).2)⟩] := by
  rw [tokenizeFrom_cons hblank, extent_alone, List.take_take, Nat.min_self,
    List.drop_eq_nil_of_le (List.length_take_le _ _), tokenizeFrom_nil]
  rfl

/-- Every token of a text is recognised alone. -/
theorem labels_of_mem (line column line' column' : Nat) (text : List Char) :
    ∀ token ∈ tokenizeFrom line column text,
      (tokenizeFrom line' column' token.text.toList).map label = [token.label] := by
  induction text using readingInduction generalizing column with
  | nil => simp
  | blank c rest hblank ih =>
    rw [tokenizeFrom_blank hblank]
    exact ih _
  | token c rest hblank ih =>
    rw [tokenizeFrom_cons hblank]
    refine List.forall_mem_cons.2 ⟨?_, ih _⟩
    rw [String.toList_ofList]
    exact labels_alone line' column' hblank rest

/-- In front of a space, the text of a closed token says the same, and reading goes on behind the
space. -/
theorem labels_spaced_token (line column : Nat) {first : Char} {text : List Char}
    (hblank : isBlank first = false) (hcomment : (extent first text).1 ≠ .comment)
    (hclosed : isClosedWord (first :: text.take (extent first text).2) = true)
    (behind : List Char) :
    ∃ next, (tokenizeFrom line column
          (first :: text.take (extent first text).2 ++ ' ' :: behind)).map label =
      ⟨(extent first text).1, String.ofList (first :: text.take (extent first text).2)⟩ ::
        (tokenizeFrom line next behind).map label := by
  have hlength : (text.take (extent first text).2).length = (extent first text).2 :=
    List.length_take_of_le (size_extent_le first text)
  rw [List.cons_append, tokenizeFrom_cons hblank, extent_spaced hcomment hclosed,
    List.take_left' hlength, List.drop_left' hlength, tokenizeFrom_blank (by decide)]
  exact ⟨_, rfl⟩

/-- The tokens of a line, written with single spaces between them, say the same. -/
theorem labels_tokenizeFrom_joined (line column line' column' : Nat) {text : List Char}
    (hbreak : ∀ c ∈ text, isLineBreak c = false) :
    (tokenizeFrom line' column' (joined (tokenizeFrom line column text))).map label =
      (tokenizeFrom line column text).map label := by
  induction text using readingInduction generalizing column column' with
  | nil => simp [joined]
  | blank c rest hblank ih =>
    rw [tokenizeFrom_blank hblank]
    exact ih _ _ fun d hd => hbreak d (List.mem_cons_of_mem c hd)
  | token c rest hblank ih =>
    have hrest : ∀ d ∈ rest, isLineBreak d = false := fun d hd =>
      hbreak d (List.mem_cons_of_mem c hd)
    have hlater := fun column column' => ih column column' fun d hd =>
      hrest d (List.mem_of_mem_drop hd)
    rw [tokenizeFrom_cons hblank]
    generalize column + byteLength (c :: rest.take (extent c rest).2) = stop
    cases htokens : tokenizeFrom line stop (rest.drop (extent c rest).2) with
    | nil =>
      rw [joined, List.map_singleton, List.intercalate_singleton, String.toList_ofList,
        labels_alone line' column' hblank]
      rfl
    | cons next tokens =>
      -- Behind what is not closed there is nothing left of the line
      obtain ⟨hcomment, hclosed⟩ | hall := isClosedWord_or_eq_length c hrest
      · obtain ⟨behind, hbehind⟩ := labels_spaced_token line' column' hblank hcomment hclosed
          (joined (next :: tokens))
        rw [joined, List.map_cons, List.intercalate_cons_of_ne_nil (by simp),
          String.toList_ofList, List.append_assoc, List.singleton_append]
        rw [← htokens, hlater] at hbehind
        rw [← htokens]
        exact hbehind
      · rw [List.drop_eq_nil_of_le (Nat.le_of_eq hall.symm), tokenizeFrom_nil] at htokens
        cases htokens

/-- The tokens of a line, written with single spaces between them, are read again with the same
kinds and texts; and each of them is recognised alone. -/
theorem labels_joined (line line' : Nat) (text : List Char)
    (hbreak : ∀ c ∈ text, isLineBreak c = false) :
    (tokenize line' (joined (tokenize line text))).map label = (tokenize line text).map label ∧
    ∀ token ∈ tokenize line text,
      (tokenize line' token.text.toList).map label = [token.label] :=
  ⟨labels_tokenizeFrom_joined line 0 line' 0 hbreak, labels_of_mem line 0 line' 0 text⟩

/-- A line with hardly a blank: a hexadecimal number, parameters of a macro, numbers with a point,
signs of two characters and a string that nothing closes. -/
def crowded : List Char := "$FF+$a$b 1..5.===0x\"\\".toList

theorem labels_joined_crowded :
    (∀ c ∈ crowded, isLineBreak c = false) ∧
    (tokenize 0 (joined (tokenize 0 crowded))).map label = (tokenize 0 crowded).map label ∧
    (tokenize 0 crowded).map Token.text =
      ["$FF", "+", "$a$b", "1.", ".5", ".", "==", "=", "0x", "\"\\"] := by
  have hall : crowded.all (!isLineBreak ·) = true := by decide
  have hbreak : ∀ c ∈ crowded, isLineBreak c = false := fun c hc => by
    simpa using List.all_eq_true.1 hall c hc
  exact ⟨hbreak, (labels_joined 0 0 crowded hbreak).1, by decide +kernel⟩

end JassOutline.Token
