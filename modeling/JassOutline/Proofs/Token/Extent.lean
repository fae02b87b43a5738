import JassOutline.Proofs.BlockComment.Reading
import JassOutline.Token.Lexer
import Mathlib.Data.List.TakeWhile

/-!
# Tokens and readings

The reader of tokens and the reader that blanks comments know strings and line comments each on
its own. At the start of a token, outside of strings and comments, both take the characters of the
token for the same, with one exception: the reader that blanks comments does not know raw codes,
and so a quote or two slashes inside of one open a string or a comment for it.

## Key results

- `readFrom_of_not_holdsOpener`: a text without openers is read as code
- `Token.readsFirst`: how the characters of one token are read
-/

namespace JassOutline

open Text BlockComment

/-! ### Openers -/

/-- Whether the text holds what opens a string or a line comment: a quote or two slashes. -/
def holdsOpener : List Char → Bool
  | [] => false
  | c :: rest => c == '"' || (c == '/' && rest.head? == some '/') || holdsOpener rest

theorem holdsOpener_cons_eq_false {c : Char} {rest : List Char} :
    holdsOpener (c :: rest) = false ↔
      c ≠ '"' ∧ (c = '/' → rest.head? ≠ some '/') ∧ holdsOpener rest = false := by
  simp [holdsOpener, and_assoc]

/-- What opens a block comment is not read as code. -/
theorem head?_ne_star {rest : List Char}
    (h : ∀ mark ∈ readFrom .code ('/' :: rest), mark.2 ≠ .blockComment) :
    rest.head? ≠ some '*' := by
  intro hstar
  obtain ⟨later, rfl⟩ := List.head?_eq_some_iff.1 hstar
  simp [readFrom] at h

/-- A text without openers is read as code, if none comes to be where it ends. -/
theorem readFrom_of_not_holdsOpener {word behind : List Char} (hword : holdsOpener word = false)
    (hlast : word.getLast? = some '/' → behind.head? ≠ some '/')
    (h : ∀ mark ∈ readFrom .code (word ++ behind), mark.2 ≠ .blockComment) :
    readFrom .code (word ++ behind) =
      word.map (fun c => (c, Reading.code)) ++ readFrom .code behind := by
  induction word with
  | nil => rfl
  | cons c word ih =>
    obtain ⟨hquote, hslash, hrest⟩ := holdsOpener_cons_eq_false.1 hword
    have hopens : opensComment (c :: (word ++ behind)) = false := by
      rw [opensComment_cons_eq_false]
      rintro rfl
      refine ⟨head?_ne_star h, ?_⟩
      cases word with
      | nil => exact hlast rfl
      | cons d word => exact hslash rfl
    rw [List.cons_append, readFrom_code hopens, if_neg hquote, if_neg hquote] at h ⊢
    rw [ih ?_ ?_ (List.forall_mem_cons.1 h).2]
    · rfl
    · exact hrest
    · intro hslash
      refine hlast ?_
      rw [List.getLast?_cons, hslash]
      rfl

/-- Conversely, what is neither read as a string nor as a comment holds no opener. -/
theorem holdsOpener_take_eq_false {text : List Char} {n : Nat}
    (h : ∀ mark ∈ (readFrom .code text).take n,
      mark.2 ≠ .string ∧ mark.2 ≠ .commentStart ∧ mark.2 ≠ .blockComment) :
    holdsOpener (text.take n) = false := by
  induction n generalizing text with
  | zero => rfl
  | succ n ih =>
    cases text with
    | nil => rfl
    | cons c rest =>
      by_cases hopens : opensComment (c :: rest) = true
      · -- The first character would be part of the comment
        unfold opensComment at hopens
        split at hopens
        · next heq =>
          obtain ⟨rfl, rfl⟩ := List.cons.inj heq
          simp [readFrom] at h
        · next heq =>
          obtain ⟨rfl, rfl⟩ := List.cons.inj heq
          simp [readFrom] at h
        · cases hopens
      · rw [Bool.not_eq_true] at hopens
        rw [readFrom_code hopens, List.take_succ_cons, List.forall_mem_cons] at h
        obtain ⟨hfirst, hrest⟩ := h
        have hquote : c ≠ '"' := by
          rintro rfl
          exact hfirst.1 rfl
        rw [if_neg hquote] at hrest
        rw [List.take_succ_cons, holdsOpener_cons_eq_false]
        refine ⟨hquote, fun hc => ?_, ih hrest⟩
        have hslash := (opensComment_cons_eq_false.1 hopens hc).2
        cases n with
        | zero => simp
        | succ n => simpa [List.head?_take] using hslash

/-! ### Extents of tokens -/

/-- The characters that none of the openers consists of. -/
def IsInert (c : Char) : Prop := c ≠ '"' ∧ c ≠ '/'

theorem holdsOpener_of_inert {word : List Char} (h : ∀ c ∈ word, IsInert c) :
    holdsOpener word = false := by
  induction word with
  | nil => rfl
  | cons c word ih =>
    obtain ⟨hc, hword⟩ := List.forall_mem_cons.1 h
    exact holdsOpener_cons_eq_false.2 ⟨hc.1, fun hslash => absurd hslash hc.2, ih hword⟩

namespace Token

theorem take_length_takeWhile (p : Char → Bool) (text : List Char) :
    text.take (text.takeWhile p).length = text.takeWhile p :=
  (List.prefix_iff_eq_take.1 (List.takeWhile_prefix p)).symm

/-- A class of characters without quotes and slashes has inert ones only. -/
theorem isInert_of_takeWhile {p : Char → Bool} (hquote : p '"' = false) (hslash : p '/' = false)
    (text : List Char) : ∀ c ∈ text.take (text.takeWhile p).length, IsInert c := by
  intro c hc
  rw [take_length_takeWhile] at hc
  have hp := List.mem_takeWhile_imp hc
  constructor
  · rintro rfl
    simp [hquote] at hp
  · rintro rfl
    simp [hslash] at hp

theorem isInert_digits (text : List Char) :
    ∀ c ∈ text.take (text.takeWhile Char.isDigit).length, IsInert c :=
  isInert_of_takeWhile (by decide) (by decide) text

theorem isInert_word (text : List Char) :
    ∀ c ∈ text.take (text.takeWhile isIdentifierChar).length, IsInert c :=
  isInert_of_takeWhile (by decide) (by decide) text

/-- More characters of an inert start. -/
theorem isInert_take_add {text : List Char} {m n : Nat} (hm : ∀ c ∈ text.take m, IsInert c)
    (hn : ∀ c ∈ (text.drop m).take n, IsInert c) : ∀ c ∈ text.take (m + n), IsInert c := by
  rw [List.take_add]
  exact List.forall_mem_append.2 ⟨hm, hn⟩

theorem isInert_decimalExtent (text : List Char) :
    ∀ c ∈ text.take (decimalExtent text), IsInert c := by
  unfold decimalExtent
  have hdigits := isInert_digits text
  dsimp only
  split
  · next fraction hrest =>
    rw [Nat.add_assoc]
    apply isInert_take_add hdigits
    rw [hrest, Nat.add_comm, List.take_succ_cons]
    exact List.forall_mem_cons.2 ⟨⟨by decide, by decide⟩, isInert_digits fraction⟩
  · exact hdigits

theorem isInert_numberExtent (first : Char) (rest : List Char) :
    ∀ c ∈ rest.take (numberExtent first rest), IsInert c := by
  unfold numberExtent
  split
  · exact isInert_digits rest
  · split
    · next c digits =>
      split
      · next hex =>
        -- The letter `x` and hexadecimal digits
        rw [List.take_succ_cons]
        refine List.forall_mem_cons.2 ⟨?_, isInert_of_takeWhile (by decide) (by decide) digits⟩
        rcases hex.2 with rfl | rfl <;> exact ⟨by decide, by decide⟩
      · exact isInert_decimalExtent _
    · simp

theorem isInert_dollarExtent (rest : List Char) :
    ∀ c ∈ rest.take (dollarExtent rest).2, IsInert c := by
  unfold dollarExtent
  dsimp only
  split
  · exact isInert_of_takeWhile (by decide) (by decide) rest
  · exact isInert_word rest

theorem isInert_of_pairedSigns {first c : Char} (h : (first, c) ∈ pairedSigns) :
    first ≠ '/' ∧ IsInert c := by
  simp only [pairedSigns, List.mem_cons, Prod.mk.injEq, List.not_mem_nil, or_false] at h
  rcases h with h | h | h | h | h | h | h | h | h <;> obtain ⟨rfl, rfl⟩ := h <;>
    exact ⟨by decide, by decide, by decide⟩

/-- What follows the first character of a token that is neither a string, nor a raw code, nor a
comment. -/
theorem isInert_extent {first : Char} {rest : List Char} (hquote : first ≠ '"')
    (hraw : first ≠ '\'') (hcomment : ¬(first = '/' ∧ rest.head? = some '/')) :
    ((extent first rest).1 ≠ .string ∧ (extent first rest).1 ≠ .comment) ∧
      (first = '/' → (extent first rest).2 = 0) ∧
      ∀ c ∈ rest.take (extent first rest).2, IsInert c := by
  unfold extent
  rw [if_neg hcomment, if_neg hquote, if_neg hraw]
  split
  · next hdollar =>
    -- A dollar sign is followed by letters and at most one more dollar sign
    refine ⟨?_, by simp [hdollar], isInert_dollarExtent rest⟩
    unfold dollarExtent
    dsimp only
    split <;> simp
  · split
    · next hdigit =>
      -- Digits and a point
      refine ⟨by simp, ?_, isInert_numberExtent first rest⟩
      rintro rfl
      simp at hdigit
    · split
      · next hletter =>
        -- Letters and digits
        refine ⟨by simp, ?_, isInert_word rest⟩
        rintro rfl
        exact absurd hletter (by decide)
      · split
        · next hpair =>
          -- The second sign of a pair, none of which starts with a slash
          obtain ⟨c, hc, hpair⟩ := (Option.any_eq_true _ _).1 hpair
          have hinert := isInert_of_pairedSigns (List.contains_iff_mem.1 hpair)
          obtain ⟨later, rfl⟩ := List.head?_eq_some_iff.1 hc
          exact ⟨by simp, fun h => absurd h hinert.1, by simpa using hinert.2⟩
        · simp

/-! ### Strings, comments and raw codes -/

theorem extent_slashes {text : List Char} (h : text.head? = some '/') :
    extent '/' text = (.comment, commentExtent text) :=
  if_pos ⟨rfl, h⟩

theorem extent_quote (text : List Char) : extent '"' text = (.string, stringExtent text) := by
  simp [extent]

theorem extent_apostrophe (text : List Char) :
    extent '\'' text = (.number, rawCodeExtent text) := by
  simp [extent]

theorem extent_dollar (text : List Char) : extent '$' text = dollarExtent text := by
  simp [extent]

/-- What is read next when a string or a comment has reached the end of its line. A carriage
return still counts as part of it for the reader that blanks comments. -/
def Stopped (later : List (Char × Reading)) : Prop :=
  ∀ mark ∈ later.head?, mark.1 = '\n' ∨
    (mark.1 = '\r' ∧ (mark.2 = .string ∨ mark.2 = .comment))

theorem eq_of_isLineBreak {c : Char} (h : isLineBreak c = true) : c = '\r' ∨ c = '\n' := by
  simpa [isLineBreak] using h

/-- A character that does not escape what stands behind it is no backslash. -/
theorem ne_backslash {c : Char} {rest : List Char} (hnil : c = '\\' → rest = [] → False)
    (hcons : ∀ d later, c = '\\' → rest = d :: later → False) : c ≠ '\\' := by
  cases rest with
  | nil => exact fun heq => hnil heq rfl
  | cons d later => exact fun heq => hcons d later heq rfl

/-- The rest of a string is read as a string up to its closing quote or to the end of its line. -/
theorem exists_readFrom_string (text : List Char) :
    ∃ later, readFrom .string text =
        (text.take (stringExtent text)).map (fun c => (c, Reading.string)) ++ later ∧
      (later = readFrom .code (text.drop (stringExtent text)) ∨ Stopped later) := by
  fun_induction stringExtent text with
  | case1 => exact ⟨[], rfl, .inl rfl⟩
  | case2 rest => exact ⟨readFrom .code rest, rfl, .inl rfl⟩
  | case3 => exact ⟨[], rfl, .inl rfl⟩
  | case4 rest =>
    -- A backslash does not take the line feed with it
    exact ⟨('\n', .code) :: readFrom .code rest, rfl, .inr (by simp [Stopped])⟩
  | case5 c rest hc ih =>
    -- An escaped character stays inside
    obtain ⟨later, hread, hlater⟩ := ih
    refine ⟨later, ?_, hlater⟩
    simp [readFrom, hc, hread]
  | case6 c rest hquote _ _ hbreak =>
    -- The line ends before the string does
    refine ⟨readFrom .string (c :: rest), rfl, .inr ?_⟩
    rcases eq_of_isLineBreak hbreak with rfl | rfl <;> simp [readFrom, Stopped]
  | case7 c rest hquote hnil hcons hbreak ih =>
    -- Neither a quote nor the end of the line
    have hescape := ne_backslash hnil hcons
    have hline : c ≠ '\n' := by
      rintro rfl
      exact hbreak rfl
    have hclose : c ≠ '"' := hquote
    obtain ⟨later, hread, hlater⟩ := ih
    refine ⟨later, ?_, hlater⟩
    simp [readFrom, hescape, hline, hclose, hread]

/-- The rest of a line comment is read as a comment up to the end of its line. -/
theorem exists_readFrom_lineComment (text : List Char) :
    ∃ later, readFrom .lineComment text =
        (text.take (commentExtent text)).map (fun c => (c, Reading.comment)) ++ later ∧
      Stopped later := by
  induction text with
  | nil => exact ⟨[], rfl, by simp [Stopped]⟩
  | cons c rest ih =>
    -- The comment stops at the line end, whichever it is
    by_cases hbreak : isLineBreak c = true
    · refine ⟨readFrom .lineComment (c :: rest), by simp [commentExtent, hbreak], ?_⟩
      rcases eq_of_isLineBreak hbreak with rfl | rfl <;> simp [readFrom, Stopped]
    · have hline : c ≠ '\n' := by
        rintro rfl
        exact hbreak rfl
      obtain ⟨later, hread, hlater⟩ := ih
      refine ⟨later, ?_, hlater⟩
      have hextent : commentExtent (c :: rest) = commentExtent rest + 1 := by
        simp [commentExtent, hbreak]
      simp [readFrom, hline, hread, hextent]

/-- A raw code ends with an apostrophe or where its line ends, and it keeps to its line. -/
theorem rawCodeExtent_cases (text : List Char) :
    ((text.take (rawCodeExtent text)).getLast? = some '\'' ∨
        (text.drop (rawCodeExtent text)).head? ≠ some '/') ∧
      ∀ c ∈ text.take (rawCodeExtent text), isLineBreak c = false := by
  induction text with
  | nil => simp [rawCodeExtent]
  | cons c rest ih =>
    unfold rawCodeExtent
    split
    · next hc => simp [hc, isLineBreak]
    · split
      · next hbreak =>
        rcases eq_of_isLineBreak hbreak with rfl | rfl <;> simp
      · next hc hbreak =>
        rw [Bool.not_eq_true] at hbreak
        rw [List.take_succ_cons, List.drop_succ_cons, List.getLast?_cons]
        refine ⟨ih.1.imp_left fun hlast => ?_, List.forall_mem_cons.2 ⟨hbreak, ih.2⟩⟩
        rw [hlast]
        rfl

theorem rawCodeExtent_le_length (text : List Char) : rawCodeExtent text ≤ text.length := by
  induction text with
  | nil => exact Nat.le_refl 0
  | cons c rest ih =>
    rw [rawCodeExtent, List.length_cons]
    split
    · omega
    · split <;> omega

/-! ### One token -/

/-- The characters of a token are read as its kind says. -/
inductive ReadsAs : TokenKind → List (Char × Reading) → Prop
  | string {marks : List (Char × Reading)} :
    (∀ mark ∈ marks, mark.2 = .string) → ReadsAs .string marks
  | comment {marks : List (Char × Reading)} :
    (∀ mark ∈ marks, mark.2 = .comment) → ReadsAs .comment (('/', .commentStart) :: marks)
  | other {kind : TokenKind} {marks : List (Char × Reading)} :
    kind ≠ .string → kind ≠ .comment → (∀ mark ∈ marks, mark.2 = .code) → ReadsAs kind marks

/-- A word that is read as one thing throughout. -/
theorem forall_mem_map_reading (word : List Char) (reading : Reading) :
    ∀ mark ∈ word.map (fun c => (c, reading)), mark.2 = reading := by
  simp

/-- The first token of a text is read as its kind says, and then reading goes on behind it, unless
the line is at its end. -/
def ReadsFirst (first : Char) (rest : List Char) : Prop :=
  ∃ marks later, readFrom .code (first :: rest) = marks ++ later ∧
    marks.map Prod.fst = first :: rest.take (extent first rest).2 ∧
    ReadsAs (extent first rest).1 marks ∧
    (later = readFrom .code (rest.drop (extent first rest).2) ∨ Stopped later)

theorem readsFirst_comment {rest : List Char} (hslash : rest.head? = some '/') :
    ReadsFirst '/' rest := by
  obtain ⟨text, rfl⟩ := List.head?_eq_some_iff.1 hslash
  have hextent : extent '/' ('/' :: text) = (.comment, commentExtent text + 1) := by
    simp [extent, commentExtent, isLineBreak]
  obtain ⟨later, hread, hlater⟩ := exists_readFrom_lineComment text
  rw [ReadsFirst, hextent]
  refine ⟨('/', .commentStart) :: ('/', .comment) :: (text.take (commentExtent text)).map
    (fun c => (c, Reading.comment)), later, ?_, ?_, .comment ?_, .inr hlater⟩
  · rw [readFrom, hread]
    rfl
  · simp [Function.comp_def]
  · exact List.forall_mem_cons.2 ⟨rfl, forall_mem_map_reading _ _⟩

theorem readsFirst_string (rest : List Char) : ReadsFirst '"' rest := by
  obtain ⟨later, hread, hlater⟩ := exists_readFrom_string rest
  rw [ReadsFirst, extent_quote]
  refine ⟨('"', .string) :: (rest.take (stringExtent rest)).map (fun c => (c, Reading.string)),
    later, ?_, ?_, .string ?_, hlater⟩
  · rw [readFrom_code (opensComment_cons_eq_false.2 (by simp)), if_pos rfl, if_pos rfl, hread]
    rfl
  · simp [Function.comp_def]
  · exact List.forall_mem_cons.2 ⟨rfl, forall_mem_map_reading _ _⟩

/-- A token of another kind, which holds no opener and makes none with what follows it. -/
structure IsOpenerFree (first : Char) (rest : List Char) : Prop where
  kind : (extent first rest).1 ≠ .string ∧ (extent first rest).1 ≠ .comment
  holdsOpener : holdsOpener (first :: rest.take (extent first rest).2) = false
  last : (first :: rest.take (extent first rest).2).getLast? = some '/' →
    (rest.drop (extent first rest).2).head? ≠ some '/'

theorem IsOpenerFree.readsFirst {first : Char} {rest : List Char} (hfree : IsOpenerFree first rest)
    (h : ∀ mark ∈ readFrom .code (first :: rest), mark.2 ≠ .blockComment) :
    ReadsFirst first rest := by
  have htext : (first :: rest.take (extent first rest).2) ++ rest.drop (extent first rest).2 =
      first :: rest := by
    rw [List.cons_append, List.take_append_drop]
  have hread := readFrom_of_not_holdsOpener hfree.holdsOpener hfree.last (htext.symm ▸ h)
  rw [htext] at hread
  exact ⟨_, _, hread, by simp [Function.comp_def],
    .other hfree.kind.1 hfree.kind.2 (forall_mem_map_reading _ _), .inl rfl⟩

theorem isOpenerFree_rawCode {rest : List Char}
    (hopener : holdsOpener (rest.take (extent '\'' rest).2) = false) :
    IsOpenerFree '\'' rest := by
  have hcases := (rawCodeExtent_cases rest).1
  rw [extent_apostrophe] at hopener
  refine ⟨by simp [extent_apostrophe], ?_, ?_⟩ <;> rw [extent_apostrophe]
  · exact holdsOpener_cons_eq_false.2 ⟨by simp, by simp, hopener⟩
  · -- A raw code that is closed ends with an apostrophe
    intro hlast
    refine hcases.resolve_left fun hclose => ?_
    rw [List.getLast?_cons, hclose] at hlast
    simp at hlast

theorem isOpenerFree_of_inert {first : Char} {rest : List Char} (hquote : first ≠ '"')
    (hraw : first ≠ '\'') (hcomment : ¬(first = '/' ∧ rest.head? = some '/')) :
    IsOpenerFree first rest := by
  obtain ⟨hkind, hslash, hinert⟩ := isInert_extent hquote hraw hcomment
  have hopener := holdsOpener_of_inert hinert
  refine ⟨hkind, holdsOpener_cons_eq_false.2 ⟨hquote, fun heq => ?_, hopener⟩, fun hlast => ?_⟩
  · rw [hslash heq]
    simp
  · -- Only the sign `/` itself ends with a slash
    rcases List.eq_nil_or_concat (rest.take (extent first rest).2) with hnil | ⟨front, c, hconcat⟩
    · rw [hnil, List.getLast?_singleton, Option.some_inj] at hlast
      rw [hslash hlast, List.drop_zero]
      exact fun hhead => hcomment ⟨hlast, hhead⟩
    · rw [List.concat_eq_append] at hconcat
      rw [hconcat, ← List.cons_append, List.getLast?_concat, Option.some_inj] at hlast
      have hc : IsInert c := hinert c (by rw [hconcat]; simp)
      exact absurd hlast hc.2

/-- The characters of a token are read as its kind says, and then reading goes on behind it. For a
raw code it must hold no opener. -/
theorem readsFirst {first : Char} {rest : List Char}
    (hraw : first = '\'' → holdsOpener (rest.take (extent first rest).2) = false)
    (h : ∀ mark ∈ readFrom .code (first :: rest), mark.2 ≠ .blockComment) :
    ReadsFirst first rest := by
  by_cases hcomment : first = '/' ∧ rest.head? = some '/'
  · obtain ⟨rfl, hslash⟩ := hcomment
    exact readsFirst_comment hslash
  by_cases hquote : first = '"'
  · subst hquote
    exact readsFirst_string rest
  -- All other tokens are read as code
  by_cases hapostrophe : first = '\''
  · subst hapostrophe
    exact (isOpenerFree_rawCode (hraw rfl)).readsFirst h
  · exact (isOpenerFree_of_inert hquote hapostrophe hcomment).readsFirst h

end Token

end JassOutline
