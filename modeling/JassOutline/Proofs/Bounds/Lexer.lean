import JassOutline.Proofs.Bounds.Text
import JassOutline.Proofs.Token.Resumption

/-!
# Cutting a line into tokens by bytes

`Token.tokenize` takes the characters of a line from a list. `Scan.tokenize` is the same reader by
bytes: it stands at a byte of the line, cuts the line there to look ahead, moves on by the bytes of
what it reads and cuts out the text of each token between two bytes.

## Key results

- `Scan.eatWhile_eq`: over the characters of a class
- `Scan.tokenKind_eq`: over one token
- `Scan.tokenize_eq`: no cut faults, and the tokens are those of `Token.tokenize`
-/

namespace JassOutline

open Text

/-- A reader that stands at a byte of a text. -/
abbrev Scan := Checked Nat Fault

namespace Scan

variable (text : List Char)

/-- What is ahead. -/
def ahead : Scan (List Char) := fun pos => (fromByte text pos).map (·, pos)

/-- The next character. -/
def peek : Scan (Option Char) := return (← ahead text).head?

/-- Moves on by the given number of bytes. -/
def skip (size : Nat) : Scan Unit := fun pos => .ok ((), pos + size)

/-- Moves over the next character, if there is one. -/
def bump : Scan Unit := do
  match ← peek text with
  | some c => skip c.utf8Size
  | none => return ()

/-- The text from a byte to where the reader stands. -/
def textFrom (start : Nat) : Scan (List Char) := fun pos => (slice text start pos).map (·, pos)

/-- Goes round after round, each of which has to move on before it starts another one. -/
def loop (round : (σ → Scan α) → σ → Scan α) (s : σ) : Scan α :=
  Checked.loop .stuck (byteLength text - ·) round s

/-- Moves over all characters of a class. -/
def eatWhile (p : Char → Bool) : Scan Unit :=
  loop text (fun again (_ : Unit) => do
    match ← peek text with
    | some c => if p c then do skip c.utf8Size; again () else return ()
    | none => return ()) ()

/-! ### Literals -/

/-- Moves over a string literal. -/
def stringLiteral : Scan Unit := do
  bump text
  loop text (fun again (_ : Unit) => do
    match ← peek text with
    | none => return ()
    | some c =>
      if c = '"' then bump text
      else if c = '\\' then
        bump text
        if (← peek text).any (· != '\n') then bump text
        again ()
      else if isLineBreak c then return ()
      else
        bump text
        again ()) ()

/-- Moves over a raw code. -/
def rawCode : Scan Unit := do
  bump text
  loop text (fun again (_ : Unit) => do
    match ← peek text with
    | none => return ()
    | some c =>
      if c = '\'' then bump text
      else if isLineBreak c then return ()
      else
        bump text
        again ()) ()

/-- Moves over a dot and the digits behind it, if there is a dot. -/
def fraction : Scan Unit := do
  if (← peek text) = some '.' then
    bump text
    eatWhile text Char.isDigit

/-- Moves over a number. -/
def number : Scan Unit := do
  let behind ← ahead text
  if startsWith ['0', 'x'] behind || startsWith ['0', 'X'] behind then
    skip 2
    eatWhile text Token.isHexDigit
  else
    eatWhile text Char.isDigit
    fraction text

/-- Moves over what starts with a dollar sign. -/
def dollar (start : Nat) : Scan TokenKind := do
  bump text
  eatWhile text Token.isPlainIdentifierChar
  let word ← textFrom text (start + 1)
  let closing ← peek text
  if !word.isEmpty && word.all Token.isHexDigit && closing != some '$' then return .number
  else
    eatWhile text Token.isIdentifierChar
    return .identifier

/-! ### Tokens -/

/-- Moves over the token that starts with the given character and tells its kind. -/
def tokenKind (start : Nat) (c : Char) : Scan TokenKind := do
  let behind ← ahead text
  if c = '/' ∧ startsWith ['/', '/'] behind then
    skip (byteLength (behind.takeWhile (!isLineBreak ·)))
    return .comment
  else if c = '"' then
    stringLiteral text
    return .string
  else if c = '\'' then
    rawCode text
    return .number
  else if c = '$' then dollar text start
  else if c.isDigit ∨ (c = '.' ∧ behind[1]?.any Char.isDigit) then
    number text
    return .number
  else if isAlphabetic c ∨ c = '_' then
    eatWhile text Token.isIdentifierChar
    return .identifier
  else if Token.pairedSigns.any fun sign => startsWith [sign.1, sign.2] behind then
    skip 2
    return .operator
  else
    bump text
    return .operator

/-- A round of the reader: it passes a blank or cuts a token out. -/
def round (line : Nat) (again : List Token → Scan (List Token)) (found : List Token) :
    Scan (List Token) := do
  match ← peek text with
  | none => return found
  | some c =>
    let start ← get
    if isBlank c then
      bump text
      again found
    else
      let kind ← tokenKind text start c
      let word ← textFrom text start
      again (found ++ [⟨kind, String.ofList word, line, start, ← get⟩])

/-- The tokens of a line of text. -/
def tokenize (line : Nat) (text : List Char) : Except Fault (List Token) :=
  (loop text (round text line) [] 0).map Prod.fst

/-! ### Single characters -/

variable {text : List Char} {pos : Nat} {back rest word : List Char} {c : Char}

theorem ahead_eq (h : Stands text pos back) : ahead text pos = .ok (back, pos) := by
  rw [ahead, h.fromByte]
  rfl

theorem peek_eq (h : Stands text pos back) : peek text pos = .ok (back.head?, pos) :=
  Checked.bind_of_eq (ahead_eq h) _

theorem bump_eq (h : Stands text pos (c :: back)) : bump text pos = .ok ((), pos + c.utf8Size) :=
  Checked.bind_of_eq (peek_eq h) _

theorem textFrom_eq (h : Stands text pos (word ++ back)) :
    textFrom text pos (pos + byteLength word) = .ok (word, pos + byteLength word) := by
  rw [textFrom, h.slice]
  rfl

/-- A loop does what is said of it if each of its rounds does so where the rounds that it starts
do. -/
theorem loop_of {round : (σ → Scan α) → σ → Scan α} (value : σ → Nat → List Char → α × Nat)
    (hround : ∀ (again : σ → Scan α) (s : σ) (pos : Nat) (back : List Char), Stands text pos back →
      (∀ later after rest, byteLength rest < byteLength back → Stands text after rest →
        again later after = .ok (value later after rest)) →
      round again s pos = .ok (value s pos back))
    (s : σ) (h : Stands text pos back) : loop text round s pos = .ok (value s pos back) := by
  -- The induction is on the bytes ahead, of which every round leaves fewer to those it starts
  induction hn : byteLength back using Nat.strongRecOn generalizing s pos back with
  | ind n ih =>
    subst hn
    rw [loop, Checked.loop_eq]
    refine hround _ s pos back h fun later after rest hlength hafter => ?_
    have hpos := h.pos_add_length
    have hrest := hafter.pos_add_length
    rw [if_pos (by omega)]
    exact ih (byteLength rest) hlength later hafter rfl

theorem byteLength_lt_cons (c : Char) (rest : List Char) :
    byteLength rest < byteLength (c :: rest) := by
  have := c.utf8Size_pos
  rw [byteLength_cons]
  omega

theorem eatWhile_eq (p : Char → Bool) (h : Stands text pos back) :
    eatWhile text p pos = .ok ((), pos + byteLength (back.takeWhile p)) := by
  refine loop_of (fun _ pos back => ((), pos + byteLength (back.takeWhile p)))
    (fun again _ pos back h hagain => ?_) () h
  rw [Checked.bind_of_eq (peek_eq h)]
  cases back with
  | nil => rfl
  | cons c rest =>
    -- The run ends where the text does or at the first character of another class
    dsimp only [List.head?_cons]
    by_cases hc : p c = true
    · rw [if_pos hc, List.takeWhile_cons_of_pos hc, byteLength_cons, ← Nat.add_assoc]
      exact hagain () _ rest (byteLength_lt_cons c rest) h.cons
    · rw [if_neg hc, List.takeWhile_cons_of_neg hc]
      rfl

/-! ### Literals -/

theorem byteLength_take_succ (c : Char) (rest : List Char) (size : Nat) :
    byteLength ((c :: rest).take (size + 1)) = c.utf8Size + byteLength (rest.take size) := by
  rw [List.take_succ_cons, byteLength_cons]

theorem stringLiteral_eq (h : Stands text pos (c :: rest)) :
    stringLiteral text pos =
      .ok ((), pos + byteLength (c :: rest.take (Token.stringExtent rest))) := by
  -- Behind the opening quote each round of the loop takes one character, or two with an escape
  rw [stringLiteral, Checked.bind_of_eq (bump_eq h), byteLength_cons, ← Nat.add_assoc]
  refine loop_of (fun _ pos back =>
    ((), pos + byteLength (back.take (Token.stringExtent back))))
    (fun again _ pos back h hagain => ?_) () h.cons
  rw [Checked.bind_of_eq (peek_eq h)]
  cases back with
  | nil => rfl
  | cons c rest =>
    dsimp only [List.head?_cons]
    -- The closing quote is part of the literal
    by_cases hquote : c = '"'
    · subst hquote
      rw [if_pos rfl, bump_eq h]
      rfl
    rw [if_neg hquote]
    by_cases hescape : c = '\\'
    · -- A round takes the backslash and what it escapes
      subst hescape
      rw [if_pos rfl, Checked.bind_of_eq (bump_eq h), Checked.bind_of_eq (peek_eq h.cons)]
      have hlater := fun later after rest hlength => hagain later after rest
        (Nat.lt_of_le_of_lt hlength (byteLength_lt_cons _ _))
      cases rest with
      | nil => exact hlater () _ [] (Nat.le_refl _) h.cons
      | cons d rest =>
        by_cases hd : d = '\n'
        · -- The literal ends in front of the line feed
          subst hd
          exact hlater () _ ('\n' :: rest) (Nat.le_refl _) h.cons
        have hextent : Token.stringExtent ('\\' :: d :: rest) = Token.stringExtent rest + 2 := by
          simp [Token.stringExtent, hd]
        have hother : (List.head? (d :: rest)).any (· != '\n') = true := by simpa using hd
        rw [if_pos hother, Checked.bind_of_eq (bump_eq h.cons), hextent, byteLength_take_succ,
          byteLength_take_succ, ← Nat.add_assoc, ← Nat.add_assoc]
        exact hlater () _ rest (Nat.le_of_lt (byteLength_lt_cons d rest)) h.cons.cons
    rw [if_neg hescape]
    -- Any other character ends the literal only if it breaks the line
    have hextent : Token.stringExtent (c :: rest) =
        if isLineBreak c then 0 else Token.stringExtent rest + 1 := by
      simp [Token.stringExtent, hescape]
    rw [hextent]
    by_cases hbreak : isLineBreak c = true
    · rw [if_pos hbreak, if_pos hbreak]
      rfl
    · rw [if_neg hbreak, if_neg hbreak, Checked.bind_of_eq (bump_eq h), byteLength_take_succ,
        ← Nat.add_assoc]
      exact hagain () _ rest (byteLength_lt_cons c rest) h.cons

theorem rawCode_eq (h : Stands text pos (c :: rest)) :
    rawCode text pos =
      .ok ((), pos + byteLength (c :: rest.take (Token.rawCodeExtent rest))) := by
  rw [rawCode, Checked.bind_of_eq (bump_eq h), byteLength_cons, ← Nat.add_assoc]
  refine loop_of (fun _ pos back =>
    ((), pos + byteLength (back.take (Token.rawCodeExtent back))))
    (fun again _ pos back h hagain => ?_) () h.cons
  rw [Checked.bind_of_eq (peek_eq h)]
  cases back with
  | nil => rfl
  | cons c rest =>
    dsimp only [List.head?_cons]
    rw [Token.rawCodeExtent]
    -- The closing apostrophe is part of the literal
    by_cases hquote : c = '\''
    · rw [if_pos hquote, if_pos hquote, bump_eq h]
      rfl
    rw [if_neg hquote, if_neg hquote]
    by_cases hbreak : isLineBreak c = true
    · rw [if_pos hbreak, if_pos hbreak]
      rfl
    · rw [if_neg hbreak, if_neg hbreak, Checked.bind_of_eq (bump_eq h), byteLength_take_succ,
        ← Nat.add_assoc]
      exact hagain () _ rest (byteLength_lt_cons c rest) h.cons

theorem startsWith_pair {a b : Char} :
    startsWith [a, b] (c :: rest) = true ↔ c = a ∧ rest.head? = some b := by
  rw [startsWith_iff]
  constructor
  · rintro ⟨behind, hbehind⟩
    cases hbehind
    exact ⟨rfl, rfl⟩
  · rintro ⟨rfl, hrest⟩
    obtain ⟨behind, rfl⟩ := List.head?_eq_some_iff.1 hrest
    exact ⟨behind, rfl⟩

theorem fraction_eq (h : Stands text pos back) :
    fraction text pos = .ok ((), pos + byteLength (back.take (Token.fractionExtent back))) := by
  rw [fraction, Checked.bind_of_eq (peek_eq h)]
  -- Only digits behind the dot belong to the fraction, and the dot even without them
  by_cases hdot : back.head? = some '.'
  · obtain ⟨digits, rfl⟩ := List.head?_eq_some_iff.1 hdot
    rw [if_pos hdot, Checked.bind_of_eq (bump_eq h), eatWhile_eq _ h.cons, Token.fractionExtent,
      byteLength_take_succ, Token.take_length_takeWhile, Nat.add_assoc]
  · have hnone : back.head?.any (· == '.') = false := by
      cases hhead : back.head? with
      | none => rfl
      | some c => simpa [hhead] using hdot
    rw [if_neg hdot, Token.fractionExtent_eq_zero hnone]
    rfl

theorem number_eq (h : Stands text pos (c :: rest)) (hc : c = '.' ∨ c.isDigit = true) :
    number text pos = .ok ((), pos + byteLength (c :: rest.take (Token.numberExtent c rest))) := by
  rw [number, Checked.bind_of_eq (ahead_eq h)]
  simp only [Bool.or_eq_true, startsWith_pair, ← and_or_left]
  by_cases hdot : c = '.'
  · -- There are no digits in front of the dot, and the fraction is the whole number
    subst hdot
    have hdigits : ('.' :: rest).takeWhile Char.isDigit = [] :=
      List.takeWhile_cons_of_neg (by decide)
    rw [if_neg (by simp), Checked.bind_of_eq (eatWhile_eq _ h), hdigits, byteLength_nil,
      Nat.add_zero, fraction_eq h, Token.fractionExtent, byteLength_take_succ,
      Token.numberExtent.eq_def, if_pos rfl, byteLength_cons]
  have hdigit := hc.resolve_left hdot
  -- Whether a number is hexadecimal is told by the character behind a zero
  have hextent : Token.numberExtent c rest =
      if c = '0' ∧ (rest.head? = some 'x' ∨ rest.head? = some 'X') then
        (rest.tail.takeWhile Token.isHexDigit).length + 1
      else Token.decimalExtent rest := by
    cases rest with
    | nil => simp [Token.numberExtent, hdot, Token.decimalExtent]
    | cons d digits => simp [Token.numberExtent, hdot]
  rw [hextent]
  by_cases hhex : c = '0' ∧ (rest.head? = some 'x' ∨ rest.head? = some 'X')
  · -- The zero and the letter behind it take one byte each
    rw [if_pos hhex, if_pos hhex]
    obtain ⟨rfl, hx⟩ := hhex
    have hsize : ∃ x digits, rest = x :: digits ∧ Char.utf8Size x = 1 := by
      obtain hx | hx := hx
      · obtain ⟨digits, rfl⟩ := List.head?_eq_some_iff.1 hx
        exact ⟨'x', digits, rfl, rfl⟩
      · obtain ⟨digits, rfl⟩ := List.head?_eq_some_iff.1 hx
        exact ⟨'X', digits, rfl, rfl⟩
    obtain ⟨x, digits, rfl, hsize⟩ := hsize
    have hdigits : Stands text (pos + 2) digits := by
      have hdigits := h.cons.cons
      rwa [hsize] at hdigits
    have hskip : skip 2 pos = .ok ((), pos + 2) := rfl
    rw [Checked.bind_of_eq hskip, eatWhile_eq _ hdigits, byteLength_cons, byteLength_take_succ,
      List.tail_cons, Token.take_length_takeWhile, hsize, ← Nat.add_assoc, ← Nat.add_assoc]
    rfl
  · -- The digits, and the fraction behind them
    rw [if_neg hhex, if_neg hhex, Checked.bind_of_eq (eatWhile_eq _ h)]
    have hword := h.dropWhile Char.isDigit
    rw [List.dropWhile_cons_of_pos hdigit] at hword
    rw [fraction_eq hword, Token.decimalExtent_eq, List.take_add, Token.take_length_takeWhile,
      Token.drop_length_takeWhile, List.takeWhile_cons_of_pos hdigit, byteLength_cons,
      byteLength_cons, byteLength_append]
    simp only [Nat.add_assoc]

theorem takeWhile_append_takeWhile {p q : Char → Bool} (h : ∀ c, p c = true → q c = true)
    (text : List Char) :
    text.takeWhile q = text.takeWhile p ++ (text.dropWhile p).takeWhile q := by
  induction text with
  | nil => rfl
  | cons c rest ih =>
    by_cases hc : p c = true
    · simp [hc, h c hc, ih]
    · simp [hc]

theorem dollar_eq (h : Stands text pos ('$' :: rest)) :
    dollar text pos pos = .ok ((Token.dollarExtent rest).1,
      pos + byteLength ('$' :: rest.take (Token.dollarExtent rest).2)) := by
  have hbehind : Stands text (pos + 1) rest := h.cons
  have hword : Stands text (pos + 1) (rest.takeWhile Token.isPlainIdentifierChar ++
      rest.dropWhile Token.isPlainIdentifierChar) := by
    rwa [List.takeWhile_append_dropWhile]
  have hbump : bump text pos = .ok ((), pos + 1) := bump_eq h
  rw [dollar, Checked.bind_of_eq hbump, Checked.bind_of_eq (eatWhile_eq _ hbehind),
    Checked.bind_of_eq (textFrom_eq hword), Checked.bind_of_eq (peek_eq hword.append),
    Token.dollarExtent, Token.drop_length_takeWhile]
  have hsize : ∀ word, byteLength ('$' :: word) = 1 + byteLength word := fun _ => rfl
  simp only [bne]
  split
  · rw [Token.take_length_takeWhile, hsize, ← Nat.add_assoc]
    rfl
  · -- The second run of letters goes on where the first one stopped
    have hplain : ∀ c, Token.isPlainIdentifierChar c = true → Token.isIdentifierChar c = true := by
      intro c hc
      simp only [Token.isPlainIdentifierChar, Token.isIdentifierChar, Bool.or_eq_true] at hc ⊢
      exact .inl hc
    rw [Checked.bind_of_eq (eatWhile_eq _ hword.append), Token.take_length_takeWhile,
      takeWhile_append_takeWhile hplain rest, hsize, byteLength_append]
    simp only [← Nat.add_assoc]
    rfl

/-! ### Tokens -/

theorem comment_eq (hc : c = '/') :
    byteLength ((c :: rest).takeWhile (!isLineBreak ·)) =
      byteLength (c :: rest.take (Token.commentExtent rest)) := by
  subst hc
  rw [List.takeWhile_cons_of_pos (by decide), Token.commentExtent, Token.take_length_takeWhile]

theorem identifier_eq (hc : isAlphabetic c = true ∨ c = '_') :
    byteLength ((c :: rest).takeWhile Token.isIdentifierChar) =
      byteLength (c :: rest.take (rest.takeWhile Token.isIdentifierChar).length) := by
  have hfirst : Token.isIdentifierChar c = true := by
    obtain hc | hc := hc <;> simp [Token.isIdentifierChar, isAlphanumeric, hc]
  rw [List.takeWhile_cons_of_pos hfirst, Token.take_length_takeWhile]

theorem any_pairedSigns (c : Char) (rest : List Char) :
    Token.pairedSigns.any (fun sign => startsWith [sign.1, sign.2] (c :: rest)) =
      rest.head?.any fun d => Token.pairedSigns.contains (c, d) := by
  rw [Bool.eq_iff_iff, List.any_eq_true]
  simp only [startsWith_pair]
  cases rest with
  | nil => simp
  | cons d rest =>
    simp only [List.head?_cons, Option.some_inj, Option.any_some, List.contains_iff_mem]
    constructor
    · rintro ⟨sign, hsign, rfl, rfl⟩
      exact hsign
    · intro hsign
      exact ⟨_, hsign, rfl, rfl⟩

/-- The signs of two characters take two bytes. -/
theorem utf8Size_pairedSigns : ∀ sign ∈ Token.pairedSigns,
    sign.1.utf8Size = 1 ∧ sign.2.utf8Size = 1 := by
  decide

theorem tokenKind_eq (h : Stands text pos (c :: rest)) :
    tokenKind text pos c pos = .ok ((Token.extent c rest).1,
      pos + byteLength (c :: rest.take (Token.extent c rest).2)) := by
  rw [tokenKind, Checked.bind_of_eq (ahead_eq h), Token.extent]
  simp only [startsWith_pair, any_pairedSigns, List.getElem?_cons_succ, ← List.head?_eq_getElem?]
  -- The kinds are tried in the same order by both readers
  by_cases hcomment : c = '/' ∧ rest.head? = some '/'
  · rw [if_pos ⟨hcomment.1, hcomment⟩, if_pos hcomment, comment_eq hcomment.1]
    rfl
  rw [if_neg fun hboth => hcomment hboth.2, if_neg hcomment]
  by_cases hstring : c = '"'
  · rw [if_pos hstring, if_pos hstring, Checked.bind_of_eq (stringLiteral_eq h)]
    rfl
  rw [if_neg hstring, if_neg hstring]
  by_cases hraw : c = '\''
  · rw [if_pos hraw, if_pos hraw, Checked.bind_of_eq (rawCode_eq h)]
    rfl
  rw [if_neg hraw, if_neg hraw]
  by_cases hdollar : c = '$'
  · subst hdollar
    rw [if_pos rfl, if_pos rfl, dollar_eq h]
  rw [if_neg hdollar, if_neg hdollar]
  by_cases hnumber : c.isDigit = true ∨ (c = '.' ∧ rest.head?.any Char.isDigit = true)
  · rw [if_pos hnumber, if_pos hnumber,
      Checked.bind_of_eq (number_eq h (hnumber.symm.imp_left And.left))]
    rfl
  rw [if_neg hnumber, if_neg hnumber]
  by_cases hword : isAlphabetic c = true ∨ c = '_'
  · rw [if_pos hword, if_pos hword, Checked.bind_of_eq (eatWhile_eq _ h), identifier_eq hword]
    rfl
  rw [if_neg hword, if_neg hword]
  by_cases hpair : (rest.head?.any fun d => Token.pairedSigns.contains (c, d)) = true
  · rw [if_pos hpair, if_pos hpair]
    obtain ⟨d, behind, rfl⟩ : ∃ d behind, rest = d :: behind := by
      cases rest with
      | nil => cases hpair
      | cons d behind => exact ⟨d, behind, rfl⟩
    -- Both signs are one byte each
    obtain ⟨hc, hd⟩ := utf8Size_pairedSigns (c, d) (List.contains_iff_mem.1 hpair)
    show Except.ok (TokenKind.operator, pos + 2) =
      .ok (.operator, pos + (c.utf8Size + (d.utf8Size + 0)))
    rw [show c.utf8Size = 1 from hc, show d.utf8Size = 1 from hd]
  · rw [if_neg hpair, if_neg hpair, Checked.bind_of_eq (bump_eq h)]
    rfl

/-- The reader by bytes never faults, and it cuts a line into the same tokens. -/
theorem tokenize_eq (line : Nat) (text : List Char) :
    tokenize line text = .ok (Token.tokenize line text) := by
  -- Where a round starts, the tokens in front of it have been found
  have hloop : loop text (round text line) [] 0 = _ := loop_of (fun found pos back =>
    (found ++ Token.tokenizeFrom line pos back, pos + byteLength back))
    (fun again found pos back h hagain => ?_) [] (Stands.start text)
  · rw [tokenize, hloop]
    rfl
  rw [round, Checked.bind_of_eq (peek_eq h)]
  cases back with
  | nil =>
    rw [Token.tokenizeFrom_nil, List.append_nil]
    rfl
  | cons c rest =>
    have hget : (get : Scan Nat) pos = .ok (pos, pos) := rfl
    dsimp only [List.head?_cons]
    rw [Checked.bind_of_eq hget]
    by_cases hblank : isBlank c = true
    · rw [if_pos hblank, Checked.bind_of_eq (bump_eq h), Token.tokenizeFrom_blank hblank,
        byteLength_cons, ← Nat.add_assoc]
      exact hagain found _ rest (byteLength_lt_cons c rest) h.cons
    · -- The text of the token is cut out between where it starts and where the reader stands now
      have hword : Stands text pos ((c :: rest.take (Token.extent c rest).2) ++
          rest.drop (Token.extent c rest).2) := by
        rwa [List.cons_append, List.take_append_drop]
      have hstop : ∀ stop, (get : Scan Nat) stop = .ok (stop, stop) := fun _ => rfl
      rw [if_neg hblank, Checked.bind_of_eq (tokenKind_eq h),
        Checked.bind_of_eq (textFrom_eq hword), Checked.bind_of_eq (hstop _),
        Token.tokenizeFrom_cons (Bool.eq_false_iff.2 hblank)]
      have hlater := hagain
        (found ++ [⟨(Token.extent c rest).1, String.ofList (c :: rest.take (Token.extent c rest).2),
          line, pos, pos + byteLength (c :: rest.take (Token.extent c rest).2)⟩])
        _ _ ?_ hword.append
      · rw [hlater, List.append_assoc, List.singleton_append, Nat.add_assoc, ← byteLength_append,
          List.cons_append, List.take_append_drop]
      · have hlength := byteLength_append (rest.take (Token.extent c rest).2)
          (rest.drop (Token.extent c rest).2)
        rw [List.take_append_drop] at hlength
        have := byteLength_lt_cons c rest
        omega

end Scan

end JassOutline
