import JassOutline.Proofs.Token.Extent

/-!
# What a token ends in front of

Where a token ends is seen from the character behind it. `SameStart` relates two texts that a token
may stand in front of: they start with the same character, or a slash in the one stands where the
other ends the line. No token goes on with a slash or with a line break, and so it is the same in
front of both. A comment can then be taken away without any effect on the token in front of it.

## Key results

- `SameStart.takeWhile_append`: a run of characters ends where it ended
- `extent_resume`: a token is the same in front of both texts
-/

namespace JassOutline.Token

open Text

/-! ### The start of what follows -/

theorem drop_length_takeWhile (p : Char → Bool) (text : List Char) :
    text.drop (text.takeWhile p).length = text.dropWhile p := by
  induction text with
  | nil => rfl
  | cons c rest ih => by_cases hc : p c = true <;> simp [hc, ih]

/-- The second text starts with the same character as the first one, or ends the line where the
first one has a slash. -/
def SameStart (text text' : List Char) : Prop :=
  text'.head? = text.head? ∨ (text.head? = some '/' ∧ ∀ c ∈ text'.head?, isLineBreak c = true)

namespace SameStart

variable {text text' : List Char}

theorem eq_nil (h : SameStart [] text') : text' = [] := by
  rcases h with h | h
  · simpa using h
  · simp at h

theorem exists_cons {c : Char} {rest : List Char} (h : SameStart (c :: rest) text') (hc : c ≠ '/') :
    ∃ later, text' = c :: later := by
  have hhead : text'.head? = some c := by simpa [SameStart, hc] using h
  exact List.head?_eq_some_iff.1 hhead

/-- A class of characters without the slash and the line breaks tells the two apart in nothing. -/
theorem any_head? (h : SameStart text text') (p : Char → Bool) (hslash : p '/' = false)
    (hbreak : ∀ c, isLineBreak c = true → p c = false) :
    text'.head?.any p = text.head?.any p := by
  rcases h with h | ⟨h, hend⟩
  · rw [h]
  · rw [h, Option.any_some, hslash]
    cases hhead : text'.head? with
    | none => rfl
    | some c => exact hbreak c (hend c hhead)

/-- The start of a text is its own, however much of it is replaced. -/
theorem of_drop {n : Nat} (h : SameStart (text.drop n) text') :
    SameStart text (text.take n ++ text') := by
  cases n with
  | zero => simpa using h
  | succ n =>
    cases text with
    | nil => simpa using h
    | cons c rest => exact .inl rfl

section

variable {p : Char → Bool} (hbreak : ∀ c, isLineBreak c = true → p c = false)

include hbreak

theorem head?_fails (h : SameStart (text.dropWhile p) text') : ∀ c ∈ text'.head?, p c = false := by
  intro c hc
  rcases h with h | ⟨-, hend⟩
  · rw [h] at hc
    have := List.head?_dropWhile_not p text
    simp_all
  · exact hbreak c (hend c hc)

/-- A run of characters ends where it ended. -/
theorem takeWhile_append (h : SameStart (text.dropWhile p) text') :
    (text.takeWhile p ++ text').takeWhile p = text.takeWhile p := by
  have hfails := h.head?_fails hbreak
  rw [List.takeWhile_append_of_pos fun c hc => List.mem_takeWhile_imp hc]
  cases text' with
  | nil => simp
  | cons c rest => simp [hfails c rfl]

theorem dropWhile_append (h : SameStart (text.dropWhile p) text') :
    (text.takeWhile p ++ text').dropWhile p = text' := by
  have hfails := h.head?_fails hbreak
  rw [List.dropWhile_append_of_pos fun c hc => List.mem_takeWhile_imp hc]
  cases text' with
  | nil => rfl
  | cons c rest => simp [hfails c rfl]

theorem takeWhile_take (h : SameStart (text.drop (text.takeWhile p).length) text') :
    (text.take (text.takeWhile p).length ++ text').takeWhile p = text.takeWhile p := by
  rw [drop_length_takeWhile] at h
  rw [take_length_takeWhile, h.takeWhile_append hbreak]

end

end SameStart

/-! ### Strings, comments and raw codes -/

variable {text text' : List Char}

theorem ne_of_isLineBreak {c d : Char} (h : isLineBreak c = true) (hd : isLineBreak d = false) :
    c ≠ d := by
  rintro rfl
  simp [h] at hd

theorem isDigit_of_isLineBreak (c : Char) (h : isLineBreak c = true) : c.isDigit = false := by
  rcases eq_of_isLineBreak h with rfl | rfl <;> rfl

theorem commentExtent_resume (h : SameStart (text.drop (commentExtent text)) text') :
    commentExtent (text.take (commentExtent text) ++ text') = commentExtent text :=
  congrArg List.length (h.takeWhile_take fun c hc => by simp [hc])

theorem stringExtent_cons {c : Char} {rest : List Char} (hquote : c ≠ '"') (hescape : c ≠ '\\')
    (hbreak : isLineBreak c = false) : stringExtent (c :: rest) = stringExtent rest + 1 := by
  rw [stringExtent]
  · simp [hbreak]
  · exact hquote
  · exact fun heq => absurd heq hescape
  · exact fun _ _ heq => absurd heq hescape

theorem stringExtent_resume (h : SameStart (text.drop (stringExtent text)) text') :
    stringExtent (text.take (stringExtent text) ++ text') = stringExtent text := by
  fun_induction stringExtent text with
  | case1 => simp [h.eq_nil, stringExtent]
  | case2 => simp [stringExtent]
  | case3 => simp [h.eq_nil, stringExtent]
  | case4 rest =>
    -- The line feed behind the backslash stays
    obtain ⟨later, rfl⟩ := h.exists_cons (by decide)
    simp [stringExtent]
  | case5 c rest hc ih => simp [stringExtent, hc, ih h]
  | case6 c rest hquote _ _ hbreak =>
    obtain ⟨later, rfl⟩ := h.exists_cons (ne_of_isLineBreak hbreak (by decide))
    rcases eq_of_isLineBreak hbreak with rfl | rfl <;> simp [stringExtent, isLineBreak]
  | case7 c rest hquote hnil hcons hbreak ih =>
    have hescape := ne_backslash hnil hcons
    rw [List.take_succ_cons, List.cons_append,
      stringExtent_cons hquote hescape (Bool.eq_false_iff.2 hbreak), ih h]

theorem rawCodeExtent_resume (h : SameStart (text.drop (rawCodeExtent text)) text') :
    rawCodeExtent (text.take (rawCodeExtent text) ++ text') = rawCodeExtent text := by
  induction text with
  | nil => simp [h.eq_nil, rawCodeExtent]
  | cons c rest ih =>
    rw [rawCodeExtent] at h ⊢
    by_cases hquote : c = '\''
    · simp [hquote, rawCodeExtent]
    by_cases hbreak : isLineBreak c = true
    · simp only [hquote, hbreak, if_false, if_true] at h ⊢
      obtain ⟨later, rfl⟩ := h.exists_cons (ne_of_isLineBreak hbreak (by decide))
      simp [rawCodeExtent, hquote, hbreak]
    · simp only [hquote, hbreak, if_false] at h ⊢
      simp [rawCodeExtent, hquote, hbreak, ih h]

/-! ### Numbers and words -/

/-- The point and the digits behind it. -/
def fractionExtent : List Char → Nat
  | '.' :: fraction => (fraction.takeWhile Char.isDigit).length + 1
  | _ => 0

theorem decimalExtent_eq (text : List Char) :
    decimalExtent text = (text.takeWhile Char.isDigit).length +
      fractionExtent (text.dropWhile Char.isDigit) := by
  rw [decimalExtent, drop_length_takeWhile]
  generalize text.dropWhile Char.isDigit = behind
  split
  · rw [fractionExtent]
    omega
  · next hpoint => simp [fractionExtent]

theorem fractionExtent_eq_zero {text : List Char}
    (h : text.head?.any (· == '.') = false) : fractionExtent text = 0 := by
  unfold fractionExtent
  split
  · simp at h
  · rfl

/-- A text starts with a point, or there is no fraction. -/
theorem fraction_cases (text : List Char) :
    (∃ fraction, text = '.' :: fraction) ∨ text.head?.any (· == '.') = false := by
  cases text with
  | nil => exact .inr rfl
  | cons c fraction =>
    by_cases hc : c = '.'
    · exact .inl ⟨fraction, by rw [hc]⟩
    · exact .inr (by simpa using hc)

theorem fractionExtent_resume (h : SameStart (text.drop (fractionExtent text)) text') :
    fractionExtent (text.take (fractionExtent text) ++ text') = fractionExtent text := by
  obtain ⟨fraction, rfl⟩ | hpoint := fraction_cases text
  · rw [fractionExtent, List.drop_succ_cons] at h
    rw [fractionExtent, List.take_succ_cons, List.cons_append, fractionExtent,
      h.takeWhile_take isDigit_of_isLineBreak]
  · rw [fractionExtent_eq_zero hpoint, List.drop_zero] at h
    have hpoint' := h.any_head? (· == '.') (by decide) (fun c hc => by
      simpa using ne_of_isLineBreak hc (by decide))
    rw [fractionExtent_eq_zero hpoint, List.take_zero, List.nil_append,
      fractionExtent_eq_zero (hpoint'.trans hpoint)]

theorem decimalExtent_resume (h : SameStart (text.drop (decimalExtent text)) text') :
    decimalExtent (text.take (decimalExtent text) ++ text') = decimalExtent text := by
  rw [decimalExtent_eq, ← List.drop_drop, drop_length_takeWhile] at h
  rw [decimalExtent_eq text, List.take_add, take_length_takeWhile, drop_length_takeWhile,
    List.append_assoc, decimalExtent_eq]
  have hbehind := h.of_drop
  rw [hbehind.takeWhile_append isDigit_of_isLineBreak,
    hbehind.dropWhile_append isDigit_of_isLineBreak, fractionExtent_resume h]

theorem isHexDigit_of_isLineBreak (c : Char) (h : isLineBreak c = true) :
    isHexDigit c = false := by
  rcases eq_of_isLineBreak h with rfl | rfl <;> rfl

theorem isIdentifierChar_of_isLineBreak (c : Char) (h : isLineBreak c = true) :
    isIdentifierChar c = false := by
  rcases eq_of_isLineBreak h with rfl | rfl <;> decide

/-- The letters behind the zero of a hexadecimal number. -/
def isHexMark (c : Char) : Bool := c == 'x' || c == 'X'

theorem numberExtent_decimal {first : Char} (hpoint : first ≠ '.')
    (hhex : ¬(first = '0' ∧ text.head?.any isHexMark = true)) :
    numberExtent first text = decimalExtent text := by
  unfold numberExtent
  rw [if_neg hpoint]
  cases text with
  | nil => rfl
  | cons c digits =>
    have hmark : ¬(first = '0' ∧ (c = 'x' ∨ c = 'X')) := by simpa [isHexMark] using hhex
    exact if_neg hmark

/-- A hexadecimal number. -/
theorem exists_hexadecimal {first : Char}
    (h : first = '0' ∧ text.head?.any isHexMark = true) :
    ∃ mark digits, text = mark :: digits ∧ ∀ digits,
      numberExtent first (mark :: digits) = (digits.takeWhile isHexDigit).length + 1 := by
  obtain ⟨rfl, hany⟩ := h
  obtain ⟨mark, hhead, hmark⟩ := (Option.any_eq_true _ _).1 hany
  obtain ⟨digits, rfl⟩ := List.head?_eq_some_iff.1 hhead
  refine ⟨mark, digits, rfl, fun digits => ?_⟩
  simp_all [numberExtent, isHexMark]

theorem numberExtent_resume {first : Char}
    (h : SameStart (text.drop (numberExtent first text)) text') :
    numberExtent first (text.take (numberExtent first text) ++ text') =
      numberExtent first text := by
  by_cases hpoint : first = '.'
  · simp only [numberExtent, hpoint, if_true] at h ⊢
    rw [h.takeWhile_take isDigit_of_isLineBreak]
  by_cases hhex : first = '0' ∧ text.head?.any isHexMark = true
  · obtain ⟨mark, digits, rfl, hextent⟩ := exists_hexadecimal hhex
    rw [hextent, List.drop_succ_cons] at h
    rw [hextent, List.take_succ_cons, List.cons_append, hextent,
      h.takeWhile_take isHexDigit_of_isLineBreak]
  · rw [numberExtent_decimal hpoint hhex] at h ⊢
    have hmark := h.of_drop.any_head? isHexMark (by decide) fun c hc => by
      rcases eq_of_isLineBreak hc with rfl | rfl <;> rfl
    rw [numberExtent_decimal hpoint (hmark ▸ hhex), decimalExtent_resume h]

/-- Whether what starts with a dollar sign is a number. -/
def isDollarNumber (text : List Char) : Bool :=
  !(text.takeWhile isPlainIdentifierChar).isEmpty &&
    (text.takeWhile isPlainIdentifierChar).all isHexDigit &&
    !(text.dropWhile isPlainIdentifierChar).head?.any (· == '$')

theorem dollarExtent_eq (text : List Char) :
    dollarExtent text =
      if isDollarNumber text then (.number, (text.takeWhile isPlainIdentifierChar).length)
      else (.identifier, (text.takeWhile isIdentifierChar).length) := by
  rw [dollarExtent, drop_length_takeWhile, isDollarNumber]
  cases (text.dropWhile isPlainIdentifierChar).head? <;> rfl

theorem not_isPlainIdentifierChar {c : Char} (h : isIdentifierChar c = false) :
    isPlainIdentifierChar c = false ∧ c ≠ '$' := by
  simpa [isIdentifierChar, isPlainIdentifierChar] using h

/-- The characters of an identifier alone decide whether it is a number. -/
theorem isDollarNumber_append (word : List Char)
    (h : ∀ c ∈ text.head?, isIdentifierChar c = false)
    (h' : ∀ c ∈ text'.head?, isIdentifierChar c = false) :
    isDollarNumber (word ++ text') = isDollarNumber (word ++ text) := by
  suffices hword : (word ++ text').takeWhile isPlainIdentifierChar =
        (word ++ text).takeWhile isPlainIdentifierChar ∧
      ((word ++ text').dropWhile isPlainIdentifierChar).head?.any (· == '$') =
        ((word ++ text).dropWhile isPlainIdentifierChar).head?.any (· == '$') by
    rw [isDollarNumber, hword.1, hword.2, isDollarNumber]
  have hstops : ∀ text : List Char, (∀ c ∈ text.head?, isIdentifierChar c = false) →
      text.takeWhile isPlainIdentifierChar = [] ∧
        (text.dropWhile isPlainIdentifierChar).head?.any (· == '$') = false := by
    intro text h
    cases text with
    | nil => simp
    | cons c rest =>
      have hc := not_isPlainIdentifierChar (h c rfl)
      simp [hc.1, hc.2]
  induction word with
  | nil => simp [hstops text h, hstops text' h']
  | cons c word ih =>
    by_cases hc : isPlainIdentifierChar c = true
    · simpa [hc] using ih
    · simp [hc]

theorem dollarExtent_resume (h : SameStart (text.drop (dollarExtent text).2) text') :
    dollarExtent (text.take (dollarExtent text).2 ++ text') = dollarExtent text := by
  rw [dollarExtent_eq text] at h ⊢
  by_cases hnumber : isDollarNumber text = true
  · -- The closing sign stands in what follows, which starts as before
    rw [if_pos hnumber] at h ⊢
    dsimp only at h ⊢
    rw [drop_length_takeWhile] at h
    have hbreak : ∀ c, isLineBreak c = true → isPlainIdentifierChar c = false := fun c hc =>
      (not_isPlainIdentifierChar (isIdentifierChar_of_isLineBreak c hc)).1
    have hclosed := h.any_head? (· == '$') (by decide) (fun c hc => by
      simpa using ne_of_isLineBreak hc (by decide))
    have hnumber' : isDollarNumber (text.takeWhile isPlainIdentifierChar ++ text') = true := by
      rw [isDollarNumber, h.takeWhile_append hbreak, h.dropWhile_append hbreak, hclosed]
      exact hnumber
    rw [take_length_takeWhile, dollarExtent_eq, if_pos hnumber', h.takeWhile_append hbreak]
  · -- The word ends where it did, since what follows does not go on with it
    rw [if_neg hnumber] at h ⊢
    dsimp only at h ⊢
    rw [drop_length_takeWhile] at h
    have hbehind : ∀ c ∈ (text.dropWhile isIdentifierChar).head?, isIdentifierChar c = false :=
      SameStart.head?_fails isIdentifierChar_of_isLineBreak (.inl rfl)
    have hsame := isDollarNumber_append (text.takeWhile isIdentifierChar) hbehind
      (h.head?_fails isIdentifierChar_of_isLineBreak)
    rw [List.takeWhile_append_dropWhile] at hsame
    rw [take_length_takeWhile, dollarExtent_eq, hsame, if_neg hnumber,
      h.takeWhile_append isIdentifierChar_of_isLineBreak]

/-! ### Any token -/

/-- The signs of two characters have no slash and no line break at their end. -/
theorem not_pairedSigns (first : Char) {c : Char} (h : c = '/' ∨ isLineBreak c = true) :
    pairedSigns.contains (first, c) = false := by
  rw [← Bool.not_eq_true, List.contains_iff_mem]
  intro hmem
  have hsigns : ∀ sign ∈ pairedSigns, sign.2 ≠ '/' ∧ isLineBreak sign.2 = false := by decide
  rcases h with rfl | h
  · exact (hsigns _ hmem).1 rfl
  · simp [(hsigns _ hmem).2] at h

/-- Numbers, words and signs. -/
theorem extent_of_ne {first : Char} (hcomment : ¬(first = '/' ∧ text.head? = some '/'))
    (hquote : first ≠ '"') (hraw : first ≠ '\'') (hdollar : first ≠ '$') :
    extent first text =
      if first.isDigit ∨ (first = '.' ∧ text.head?.any Char.isDigit) then
        (.number, numberExtent first text)
      else if isAlphabetic first ∨ first = '_' then
        (.identifier, (text.takeWhile isIdentifierChar).length)
      else if text.head?.any fun c => pairedSigns.contains (first, c) then (.operator, 1)
      else (.operator, 0) := by
  rw [extent, if_neg hcomment, if_neg hquote, if_neg hraw, if_neg hdollar]

/-- A token is the same whatever follows it, if that starts with the same character or ends the line
where a comment stood. -/
theorem extent_resume {first : Char} (h : SameStart (text.drop (extent first text).2) text') :
    extent first (text.take (extent first text).2 ++ text') = extent first text := by
  have hstart := h.of_drop
  by_cases hcomment : first = '/' ∧ text.head? = some '/'
  · obtain ⟨rfl, hslash⟩ := hcomment
    rw [extent_slashes hslash] at h ⊢
    have hslash' : (text.take (commentExtent text) ++ text').head? = some '/' := by
      obtain ⟨rest, rfl⟩ := List.head?_eq_some_iff.1 hslash
      simp [commentExtent, isLineBreak]
    rw [extent_slashes hslash', commentExtent_resume h]
  have hcomment' : ¬(first = '/' ∧
      (text.take (extent first text).2 ++ text').head? = some '/') := by
    rintro ⟨rfl, hslash⟩
    rcases hstart with hsame | ⟨hhead, -⟩
    · exact hcomment ⟨rfl, hsame ▸ hslash⟩
    · exact hcomment ⟨rfl, hhead⟩
  by_cases hquote : first = '"'
  · subst hquote
    rw [extent_quote] at h ⊢
    rw [extent_quote, stringExtent_resume h]
  by_cases hraw : first = '\''
  · subst hraw
    rw [extent_apostrophe] at h ⊢
    rw [extent_apostrophe, rawCodeExtent_resume h]
  by_cases hdollar : first = '$'
  · subst hdollar
    rw [extent_dollar] at h ⊢
    rw [extent_dollar, dollarExtent_resume h]
  -- Of what follows the first character, the tests look at one character at most
  have hdigit := hstart.any_head? Char.isDigit (by decide) isDigit_of_isLineBreak
  have hpaired := hstart.any_head? (fun c => pairedSigns.contains (first, c))
    (not_pairedSigns first (.inl rfl)) fun c hc => not_pairedSigns first (.inr hc)
  rw [extent_of_ne hcomment' hquote hraw hdollar, hdigit, hpaired]
  rw [extent_of_ne hcomment hquote hraw hdollar] at h ⊢
  by_cases hnumber : first.isDigit ∨ (first = '.' ∧ text.head?.any Char.isDigit)
  · rw [if_pos hnumber] at h ⊢
    rw [if_pos hnumber, numberExtent_resume h]
  rw [if_neg hnumber] at h ⊢
  by_cases hword : isAlphabetic first ∨ first = '_'
  · rw [if_pos hword] at h ⊢
    rw [if_neg hnumber, if_pos hword, h.takeWhile_take isIdentifierChar_of_isLineBreak]
  · rw [if_neg hnumber, if_neg hword, if_neg hword]

end JassOutline.Token
