import JassOutline.Proofs.Token.Trailing

/-!
# Tokens in front of a line end

A line ends with a line feed, or with a carriage return and a line feed. Where the line feed lies
inside of a block comment, the carriage return has become a blank. What a line says does not depend
on which `LineEnd` it has, if its literals are closed: a token ends in front of any of them. The
exception is a comment, which takes the blank with it.

## Key results

- `extent_append`: a token in front of a line end
- `tokenizeFrom_append`: the tokens of a line and its end
-/

namespace JassOutline

open Text

/-! ### Line ends -/

/-- What a line ends with. -/
inductive LineEnd where
  /-- The text ends with the line. -/
  | absent
  | feed
  | returnAndFeed
  /-- The carriage return has been blanked. -/
  | blankAndFeed
  deriving DecidableEq, Repr

namespace LineEnd

/-- The characters of the line end. -/
def chars : LineEnd → List Char
  | absent => []
  | feed => ['\n']
  | returnAndFeed => ['\r', '\n']
  | blankAndFeed => [' ', '\n']

/-- Characters that do not belong to a line end. -/
def Excludes (p : Char → Bool) : Prop :=
  p '\n' = false ∧ p '\r' = false ∧ p ' ' = false

instance (p : Char → Bool) : Decidable (Excludes p) :=
  inferInstanceAs (Decidable (p '\n' = false ∧ p '\r' = false ∧ p ' ' = false))

variable (ending : LineEnd)

theorem isBlank_chars : ending.chars.all isBlank = true := by
  cases ending <;> decide

theorem Excludes.not_mem {p : Char → Bool} (hp : Excludes p) {c : Char} (hc : c ∈ ending.chars) :
    p c = false := by
  obtain ⟨hfeed, hreturn, hblank⟩ := hp
  cases ending <;> simp [chars] at hc
  · rw [hc, hfeed]
  · obtain rfl | rfl := hc <;> assumption
  · obtain rfl | rfl := hc <;> assumption

theorem any_head?_append {p : Char → Bool} (hp : Excludes p) (text : List Char) :
    (text ++ ending.chars).head?.any p = text.head?.any p := by
  cases text with
  | nil =>
    cases hhead : ending.chars.head? with
    | none => simp [hhead]
    | some c => simp [hhead, hp.not_mem ending (List.mem_of_mem_head? hhead)]
  | cons c rest => rfl

theorem takeWhile_append {p : Char → Bool} (hp : Excludes p) (text : List Char) :
    (text ++ ending.chars).takeWhile p = text.takeWhile p := by
  induction text with
  | nil =>
    rw [List.nil_append]
    cases hchars : ending.chars with
    | nil => rfl
    | cons c rest =>
      have hc : p c = false := hp.not_mem ending (by rw [hchars]; exact List.mem_cons_self)
      rw [List.takeWhile_cons_of_neg (by simp [hc])]
      rfl
  | cons c rest ih => by_cases hc : p c = true <;> simp [hc, ih]

theorem dropWhile_append {p : Char → Bool} (hp : Excludes p) (text : List Char) :
    (text ++ ending.chars).dropWhile p = text.dropWhile p ++ ending.chars := by
  induction text with
  | nil =>
    rw [List.nil_append, List.dropWhile_nil, List.nil_append]
    cases hchars : ending.chars with
    | nil => rfl
    | cons c rest =>
      have hc : p c = false := hp.not_mem ending (by rw [hchars]; exact List.mem_cons_self)
      rw [List.dropWhile_cons_of_neg (by simp [hc])]
  | cons c rest ih => by_cases hc : p c = true <;> simp [hc, ih]

end LineEnd

/-! ### Closed literals -/

namespace Token

/-- Whether the rest of a string literal ends with the quote that closes it. -/
def isClosedString : List Char → Bool
  | [] => false
  | ['"'] => true
  | '\\' :: _ :: rest => isClosedString rest
  | _ :: rest => isClosedString rest

/-- Whether the word is closed, if it is a string literal or a raw code. -/
def isClosedWord : List Char → Bool
  | '"' :: rest => isClosedString rest
  | '\'' :: rest => rest.contains '\''
  | _ => true

/-- Whether the token is closed, if it is a string literal or a raw code. -/
def isClosed (token : Token) : Bool :=
  isClosedWord token.text.toList

/-- The token with one more blank at its end, if it is a comment. -/
def withBlank (token : Token) : Token :=
  if token.isComment then
    { token with text := token.text ++ " ", stopColumn := token.stopColumn + 1 }
  else token

theorem isClosedString_cons {c : Char} {rest : List Char} (hquote : c ≠ '"') (hescape : c ≠ '\\') :
    isClosedString (c :: rest) = isClosedString rest := by
  rw [isClosedString]
  · exact fun heq _ => hquote heq
  · exact fun _ _ heq => absurd heq hescape

/-- A closed string literal ends where it does whatever follows. -/
theorem stringExtent_of_isClosed {text : List Char}
    (h : isClosedString (text.take (stringExtent text)) = true) (behind : List Char) :
    stringExtent (text.take (stringExtent text) ++ behind) = stringExtent text := by
  -- Of the cases, only the quote ends a closed literal
  fun_induction stringExtent text with
  | case1 => cases h
  | case2 => simp [stringExtent]
  | case3 => cases h
  | case4 => cases h
  | case5 c rest hc ih =>
    -- An escaped character is neither the quote nor the end
    rw [List.take_succ_cons, List.take_succ_cons, isClosedString] at h
    simp [stringExtent, hc, ih h]
  | case6 => cases h
  | case7 c rest hquote hnil hcons hbreak ih =>
    -- A plain character passes, and the rest is closed
    have hescape := ne_backslash hnil hcons
    have hrest : isClosedString (rest.take (stringExtent rest)) = true := by
      rwa [List.take_succ_cons, isClosedString_cons hquote hescape] at h
    rw [List.take_succ_cons, List.cons_append,
      stringExtent_cons hquote hescape (Bool.eq_false_iff.2 hbreak), ih hrest]

/-- A closed raw code ends where it does whatever follows. -/
theorem rawCodeExtent_of_isClosed {text : List Char}
    (h : '\'' ∈ text.take (rawCodeExtent text)) (behind : List Char) :
    rawCodeExtent (text.take (rawCodeExtent text) ++ behind) = rawCodeExtent text := by
  induction text with
  | nil => simp [rawCodeExtent] at h
  | cons c rest ih =>
    rw [rawCodeExtent] at h ⊢
    by_cases hquote : c = '\''
    · simp [hquote, rawCodeExtent]
    by_cases hbreak : isLineBreak c = true
    · simp [hquote, hbreak] at h
    · simp only [hquote, hbreak, if_false, Bool.false_eq_true, List.take_succ_cons] at h ⊢
      have hrest : '\'' ∈ rest.take (rawCodeExtent rest) := by
        rcases List.mem_cons.1 h with heq | hmem
        · exact absurd heq.symm hquote
        · exact hmem
      simp [rawCodeExtent, hquote, hbreak, ih hrest]

/-! ### Tokens in front of a line end -/

section

variable (ending : LineEnd) (text : List Char)

theorem excludes_isDigit : LineEnd.Excludes Char.isDigit := by decide

theorem excludes_isIdentifierChar : LineEnd.Excludes isIdentifierChar := by decide

theorem excludes_isPlainIdentifierChar : LineEnd.Excludes isPlainIdentifierChar := by decide

theorem excludes_isHexDigit : LineEnd.Excludes isHexDigit := by decide

theorem excludes_pairedSigns (first : Char) :
    LineEnd.Excludes fun c => pairedSigns.contains (first, c) := by
  have hsigns : ∀ sign ∈ pairedSigns, sign.2 ≠ '\n' ∧ sign.2 ≠ '\r' ∧ sign.2 ≠ ' ' := by decide
  refine ⟨?_, ?_, ?_⟩ <;> rw [← Bool.not_eq_true, List.contains_iff_mem] <;> intro hmem
  · exact (hsigns _ hmem).1 rfl
  · exact (hsigns _ hmem).2.1 rfl
  · exact (hsigns _ hmem).2.2 rfl

theorem decimalExtent_append : decimalExtent (text ++ ending.chars) = decimalExtent text := by
  have hpoint := ending.any_head?_append (p := (· == '.')) (by decide) (text.dropWhile Char.isDigit)
  rw [decimalExtent_eq, decimalExtent_eq, ending.takeWhile_append excludes_isDigit,
    ending.dropWhile_append excludes_isDigit]
  generalize text.dropWhile Char.isDigit = behind at hpoint ⊢
  obtain ⟨fraction, rfl⟩ | h := fraction_cases behind
  · rw [List.cons_append, fractionExtent, fractionExtent, ending.takeWhile_append excludes_isDigit]
  · rw [fractionExtent_eq_zero h, fractionExtent_eq_zero (hpoint.trans h)]

theorem numberExtent_append (first : Char) :
    numberExtent first (text ++ ending.chars) = numberExtent first text := by
  by_cases hpoint : first = '.'
  · simp only [numberExtent, hpoint, if_true, ending.takeWhile_append excludes_isDigit]
  have hmark := ending.any_head?_append (p := isHexMark) (by decide) text
  by_cases hhex : first = '0' ∧ text.head?.any isHexMark = true
  · obtain ⟨mark, digits, rfl, hextent⟩ := exists_hexadecimal hhex
    rw [List.cons_append, hextent, hextent, ending.takeWhile_append excludes_isHexDigit]
  · rw [numberExtent_decimal hpoint hhex, numberExtent_decimal hpoint (hmark ▸ hhex),
      decimalExtent_append]

theorem dollarExtent_append : dollarExtent (text ++ ending.chars) = dollarExtent text := by
  have hclosed := ending.any_head?_append (p := (· == '$')) (by decide)
    (text.dropWhile isPlainIdentifierChar)
  rw [dollarExtent_eq, dollarExtent_eq, isDollarNumber, isDollarNumber,
    ending.takeWhile_append excludes_isIdentifierChar,
    ending.takeWhile_append excludes_isPlainIdentifierChar,
    ending.dropWhile_append excludes_isPlainIdentifierChar, hclosed]

theorem stringExtent_append_feed : stringExtent (text ++ ['\n']) = stringExtent text := by
  fun_induction stringExtent text with
  | case1 => simp [stringExtent, isLineBreak]
  | case2 => simp [stringExtent]
  | case3 => simp [stringExtent]
  | case4 => simp [stringExtent]
  | case5 c rest hc ih => simp [stringExtent, hc, ih]
  | case6 c rest hquote _ _ hbreak =>
    -- A carriage return ends the string as well, and so does the line feed itself
    rcases eq_of_isLineBreak hbreak with rfl | rfl <;> simp [stringExtent, isLineBreak]
  | case7 c rest hquote hnil hcons hbreak ih =>
    have hescape := ne_backslash hnil hcons
    rw [List.cons_append, stringExtent_cons hquote hescape (Bool.eq_false_iff.2 hbreak), ih]

theorem rawCodeExtent_append_feed : rawCodeExtent (text ++ ['\n']) = rawCodeExtent text := by
  induction text with
  | nil => simp [rawCodeExtent, isLineBreak]
  | cons c rest ih => rw [List.cons_append, rawCodeExtent, rawCodeExtent, ih]

variable {ending text}

theorem stringExtent_append
    (h : ending = .absent ∨ ending = .feed ∨
      isClosedString (text.take (stringExtent text)) = true) :
    stringExtent (text ++ ending.chars) = stringExtent text := by
  obtain rfl | rfl | h := h
  · rw [LineEnd.chars, List.append_nil]
  · exact stringExtent_append_feed text
  · have hext := stringExtent_of_isClosed h (text.drop (stringExtent text) ++ ending.chars)
    rwa [← List.append_assoc, List.take_append_drop] at hext

theorem rawCodeExtent_append
    (h : ending = .absent ∨ ending = .feed ∨
      (text.take (rawCodeExtent text)).contains '\'' = true) :
    rawCodeExtent (text ++ ending.chars) = rawCodeExtent text := by
  obtain rfl | rfl | h := h
  · rw [LineEnd.chars, List.append_nil]
  · exact rawCodeExtent_append_feed text
  · have hext := rawCodeExtent_of_isClosed (List.contains_iff_mem.1 h)
      (text.drop (rawCodeExtent text) ++ ending.chars)
    rwa [← List.append_assoc, List.take_append_drop] at hext

/-- A line end does not make two slashes of one. -/
theorem startsComment_append {first : Char} :
    (first = '/' ∧ (text ++ ending.chars).head? = some '/') ↔
      (first = '/' ∧ text.head? = some '/') := by
  have hslash := ending.any_head?_append (p := (· == '/')) (by decide) text
  have hiff : ∀ head? : Option Char, head?.any (· == '/') = true ↔ head? = some '/' := by
    intro head?
    cases head? <;> simp
  rw [← hiff, ← hiff, hslash]

/-- A token that is no comment is the same in front of any line end. If it is a literal, it has to
be closed, or end where the line feed stands. -/
theorem extent_append {first : Char} (hcomment : (extent first text).1 ≠ .comment)
    (h : ending = .absent ∨ ending = .feed ∨
      isClosedWord (first :: text.take (extent first text).2) = true) :
    extent first (text ++ ending.chars) = extent first text := by
  have hslash : ¬(first = '/' ∧ text.head? = some '/') := mt kind_extent_eq_comment.2 hcomment
  -- Only literals read over blanks, and only they need to be closed
  by_cases hquote : first = '"'
  · subst hquote
    rw [extent_quote] at h
    rw [extent_quote, extent_quote, stringExtent_append h]
  by_cases hraw : first = '\''
  · subst hraw
    rw [extent_apostrophe] at h
    rw [extent_apostrophe, extent_apostrophe, rawCodeExtent_append h]
  by_cases hdollar : first = '$'
  · subst hdollar
    rw [extent_dollar, extent_dollar, dollarExtent_append]
  rw [extent_of_ne (mt startsComment_append.1 hslash) hquote hraw hdollar,
    extent_of_ne hslash hquote hraw hdollar, ending.any_head?_append excludes_isDigit,
    ending.any_head?_append (excludes_pairedSigns first), numberExtent_append,
    ending.takeWhile_append excludes_isIdentifierChar]

end

end Token

/-- What the line end adds to a token: a comment takes a blank with it. -/
def LineEnd.stretch (ending : LineEnd) (token : Token) : Token :=
  if ending = .blankAndFeed then token.withBlank else token

namespace Token

/-! ### The tokens of a line and its end -/

theorem withBlank_of_not_isComment {token : Token} (h : token.isComment = false) :
    token.withBlank = token := by
  rw [withBlank, h]
  rfl

theorem stretch_of_not_isComment (ending : LineEnd) {token : Token}
    (h : token.isComment = false) : ending.stretch token = token := by
  rw [LineEnd.stretch, withBlank_of_not_isComment h, ite_self]

theorem tokenizeFrom_chars (ending : LineEnd) (line column : Nat) :
    tokenizeFrom line column ending.chars = [] :=
  (tokenizeFrom_eq_nil_iff ..).2 ending.isBlank_chars

theorem stringExtent_le_length (text : List Char) : stringExtent text ≤ text.length := by
  fun_induction stringExtent text with
  | case5 c rest hc ih => exact Nat.add_le_add_right ih 2
  | case7 c rest hquote hnil hcons hbreak ih => exact Nat.succ_le_succ ih
  | _ => simp

theorem length_takeWhile_le (p : Char → Bool) (text : List Char) :
    (text.takeWhile p).length ≤ text.length :=
  (List.takeWhile_prefix p).length_le

theorem decimalExtent_le_length (text : List Char) : decimalExtent text ≤ text.length := by
  have hsplit : (text.takeWhile Char.isDigit).length + (text.dropWhile Char.isDigit).length =
      text.length := by
    rw [← List.length_append, List.takeWhile_append_dropWhile]
  have hfraction : ∀ behind : List Char, fractionExtent behind ≤ behind.length := fun behind => by
    unfold fractionExtent
    split
    · exact Nat.succ_le_succ (length_takeWhile_le _ _)
    · exact Nat.zero_le _
  have := hfraction (text.dropWhile Char.isDigit)
  rw [decimalExtent_eq]
  omega

theorem numberExtent_le_length (first : Char) (text : List Char) :
    numberExtent first text ≤ text.length := by
  unfold numberExtent
  split
  · exact length_takeWhile_le _ _
  · split
    · split
      · exact Nat.succ_le_succ (length_takeWhile_le _ _)
      · exact decimalExtent_le_length _
    · exact Nat.zero_le _

/-- No token reaches behind the end of its text. -/
theorem size_extent_le (first : Char) (text : List Char) :
    (extent first text).2 ≤ text.length := by
  unfold extent
  split
  · exact length_takeWhile_le _ _
  split
  · exact stringExtent_le_length text
  split
  · exact rawCodeExtent_le_length text
  split
  · rw [dollarExtent_eq]
    split <;> exact length_takeWhile_le _ _
  split
  · exact numberExtent_le_length first text
  split
  · exact length_takeWhile_le _ _
  split
  · -- A sign of two characters has its second one in the text
    next hpair =>
    cases text with
    | nil => cases hpair
    | cons c rest => exact Nat.succ_le_succ (Nat.zero_le _)
  · exact Nat.zero_le _

/-- A comment reaches to the end of its line. -/
theorem commentExtent_append {text behind : List Char} (hbreak : ∀ c ∈ text, isLineBreak c = false)
    (hbehind : behind.head?.all isLineBreak = true) :
    commentExtent (text ++ behind) = text.length := by
  have hstop : behind.takeWhile (fun c => !isLineBreak c) = [] := by
    cases behind with
    | nil => rfl
    | cons c rest =>
      have hfirst : isLineBreak c = true := hbehind
      rw [List.takeWhile_cons_of_neg (by simp [hfirst])]
  rw [commentExtent, List.takeWhile_append_of_pos fun c hc => by rw [hbreak c hc]; rfl, hstop,
    List.append_nil]

theorem extent_comment {text behind : List Char} (hbreak : ∀ c ∈ text, isLineBreak c = false)
    (hslash : text.head? = some '/') (hbehind : behind.head?.all isLineBreak = true) :
    extent '/' (text ++ behind) = (.comment, text.length) := by
  have hstart : (text ++ behind).head? = some '/' := by
    rw [List.head?_append, hslash]
    rfl
  rw [extent, if_pos ⟨rfl, hstart⟩, commentExtent_append hbreak hbehind]

/-- A comment is the last token of its line. -/
theorem tokenizeFrom_comment {line column : Nat} {text behind : List Char}
    (hbreak : ∀ c ∈ text, isLineBreak c = false) (hslash : text.head? = some '/')
    (hbehind : behind.head?.all isLineBreak = true) (hblank : behind.all isBlank = true) :
    tokenizeFrom line column ('/' :: (text ++ behind)) =
      [⟨.comment, String.ofList ('/' :: text), line, column,
        column + byteLength ('/' :: text)⟩] := by
  rw [tokenizeFrom_cons (by decide), extent_comment hbreak hslash hbehind, List.take_left,
    List.drop_left, (tokenizeFrom_eq_nil_iff ..).2 hblank]

/-- A comment takes the blank in front of a line feed with it. -/
theorem tokenizeFrom_comment_append (ending : LineEnd) {line column : Nat} {text : List Char}
    (hbreak : ∀ c ∈ text, isLineBreak c = false) (hslash : text.head? = some '/') :
    tokenizeFrom line column ('/' :: (text ++ ending.chars)) =
      [ending.stretch ⟨.comment, String.ofList ('/' :: text), line, column,
        column + byteLength ('/' :: text)⟩] := by
  cases ending with
  | absent => exact tokenizeFrom_comment hbreak hslash rfl rfl
  | feed => exact tokenizeFrom_comment hbreak hslash rfl rfl
  | returnAndFeed => exact tokenizeFrom_comment hbreak hslash rfl rfl
  | blankAndFeed =>
    have hlonger : ∀ c ∈ text ++ [' '], isLineBreak c = false :=
      List.forall_mem_append.2 ⟨hbreak, by simp [isLineBreak]⟩
    have hstart : (text ++ [' ']).head? = some '/' := by rw [List.head?_append, hslash]; rfl
    have htokens : tokenizeFrom line column ('/' :: (text ++ [' '] ++ ['\n'])) = _ :=
      tokenizeFrom_comment hlonger hstart rfl rfl
    have hword : String.ofList ('/' :: (text ++ [' '])) = String.ofList ('/' :: text) ++ " " := by
      rw [← List.cons_append, String.ofList_append]
    rw [List.append_assoc] at htokens
    rw [show LineEnd.blankAndFeed.chars = [' '] ++ ['\n'] from rfl, htokens, hword,
      ← List.cons_append, byteLength_append]
    rfl

/-- The tokens of a line and its end are those of the line, but for the blank that a comment takes
with it. -/
theorem tokenizeFrom_append {ending : LineEnd} {line column : Nat} {text : List Char}
    (hbreak : ∀ c ∈ text, isLineBreak c = false)
    (h : ending = .absent ∨ ending = .feed ∨
      ∀ token ∈ tokenizeFrom line column text, token.isClosed = true) :
    tokenizeFrom line column (text ++ ending.chars) =
      (tokenizeFrom line column text).map ending.stretch := by
  induction text using readingInduction generalizing column with
  | nil => rw [List.nil_append, tokenizeFrom_chars, tokenizeFrom_nil, List.map_nil]
  | blank c rest hblank ih =>
    rw [tokenizeFrom_blank hblank] at h
    rw [List.cons_append, tokenizeFrom_blank hblank, tokenizeFrom_blank hblank]
    exact ih (fun c hc => hbreak c (List.mem_cons_of_mem _ hc)) h
  | token c rest hblank ih =>
    have hrest : ∀ d ∈ rest, isLineBreak d = false := fun d hd =>
      hbreak d (List.mem_cons_of_mem _ hd)
    by_cases hcomment : (extent c rest).1 = .comment
    · obtain ⟨rfl, hslash⟩ := kind_extent_eq_comment.1 hcomment
      -- A comment goes up to the line end, and at most takes the blank with it
      have hwhole : tokenizeFrom line column ('/' :: (rest ++ LineEnd.absent.chars)) = _ :=
        tokenizeFrom_comment_append .absent hrest hslash
      rw [LineEnd.chars, List.append_nil] at hwhole
      rw [List.cons_append, tokenizeFrom_comment_append ending hrest hslash, hwhole]
      rfl
    · rw [tokenizeFrom_cons hblank] at h ⊢
      -- A literal has to be closed, so that it does not go on into the line end
      have hword : ending = .absent ∨ ending = .feed ∨
          isClosedWord (c :: rest.take (extent c rest).2) = true := by
        refine h.imp_right (Or.imp_right fun hclosed => ?_)
        have hfirst := hclosed _ List.mem_cons_self
        rwa [isClosed, String.toList_ofList] at hfirst
      have hbehind := ih (fun d hd => hrest d (List.mem_of_mem_drop hd))
        (h.imp_right (Or.imp_right fun hclosed token htoken =>
          hclosed token (List.mem_cons_of_mem _ htoken)))
      have hsize := size_extent_le c rest
      rw [List.cons_append, tokenizeFrom_cons hblank, extent_append hcomment hword,
        List.take_append_of_le_length hsize, List.drop_append_of_le_length hsize, List.map_cons,
        stretch_of_not_isComment ending (by simpa [isComment] using hcomment), hbehind]

theorem isComment_stretch (ending : LineEnd) (token : Token) :
    (ending.stretch token).isComment = token.isComment := by
  rw [LineEnd.stretch, withBlank]
  split_ifs <;> rfl

/-- A comment is no visibility, also with a blank behind it. -/
theorem ofWord?_stretch (ending : LineEnd) {token : Token} {rest : List Char}
    (h : token.text = String.ofList ('/' :: rest)) :
    Visibility.ofWord? (ending.stretch token).text = none := by
  rw [LineEnd.stretch, withBlank]
  split_ifs
  · have hblank : String.ofList ('/' :: rest) ++ " " = String.ofList ('/' :: (rest ++ [' '])) := by
      rw [← List.cons_append, String.ofList_append]
    rw [h, hblank]
    exact ofWord?_slash _
  all_goals
    rw [h]
    exact ofWord?_slash _

/-- A line says the same without the comment at its end, whatever the line end adds to that. -/
theorem trimsTo_map_stretch (ending : LineEnd) {line column column' : Nat} {text : List Char}
    (hbreak : ∀ c ∈ text, isLineBreak c = false) :
    TrimsTo ((tokenizeFrom line column text).map ending.stretch)
      (tokenizeFrom line column' (cutComments text)) := by
  induction text using readingInduction generalizing column column' with
  | nil =>
    rw [cutComments_nil, tokenizeFrom_nil, tokenizeFrom_nil]
    exact .nil
  | blank c rest hblank ih =>
    rw [cutComments_blank hblank, tokenizeFrom_blank hblank, tokenizeFrom_blank hblank]
    exact ih fun c hc => hbreak c (List.mem_cons_of_mem _ hc)
  | token c rest hblank ih =>
    -- What is left behind the token is part of the same line
    have hrest : ∀ d ∈ rest, isLineBreak d = false := fun d hd =>
      hbreak d (List.mem_cons_of_mem _ hd)
    rw [tokenizeFrom_cons hblank, cutComments_cons hblank, List.map_cons]
    by_cases hcomment : (extent c rest).1 = .comment
    · -- The comment is all that is left of the line
      obtain ⟨rfl, hslash⟩ := kind_extent_eq_comment.1 hcomment
      have hextent : extent '/' (rest ++ []) = (.comment, rest.length) :=
        extent_comment hrest hslash (by simp)
      rw [List.append_nil] at hextent
      rw [hextent, List.drop_length, cutComments_nil, if_pos ⟨rfl, rfl⟩, tokenizeFrom_nil,
        tokenizeFrom_nil, List.map_nil]
      exact .comment (isComment_stretch ..) (ofWord?_stretch ending rfl) .nil
    · obtain ⟨htake, hdrop⟩ := take_drop_cutComments rest (extent c rest).2
      rw [if_neg fun hcut => hcomment hcut.1, tokenizeFrom_cons hblank, extent_cutComments, htake,
        hdrop, stretch_of_not_isComment ending (by simpa [isComment] using hcomment)]
      exact .cons rfl (ih fun d hd => hrest d (List.mem_of_mem_drop hd))

end Token

end JassOutline
