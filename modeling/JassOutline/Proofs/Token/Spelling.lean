import JassOutline.Proofs.Token.Label
import JassOutline.Token.Lexer

/-!
# Spelling labels

`Label.spell` writes a list of labels as one line: words are separated by one space, and a sign
follows the word before it without one. `Spells` relates the labels to every line that reads so,
whatever its indentation. The reader of tokens reads the labels back from such a line, wherever the
line stands.

## Key results

- `Token.labels_of_spells`: the tokens of a line that spells words and commas say these labels
- `Token.labels_of_spells_comment`: the tokens of a line that spells a comment are that comment
-/

namespace JassOutline

open Text

/-! ### Names and comments -/

/-- Characters that a name starts with. -/
def isNameStart (c : Char) : Bool := c.isAlpha || c == '_'

/-- Characters that continue a name. -/
def isNameChar (c : Char) : Bool := c.isAlphanum || c == '_'

/-- Texts of the form `[A-Za-z_][A-Za-z0-9_]*`. -/
def isName (text : String) : Bool :=
  match text.toList with
  | [] => false
  | c :: rest => isNameStart c && rest.all isNameChar

theorem exists_of_isName {text : String} (h : isName text = true) :
    ∃ c rest, text.toList = c :: rest ∧ isNameStart c = true ∧
      ∀ d ∈ rest, isNameChar d = true := by
  unfold isName at h
  split at h
  · simp at h
  · next c rest htext =>
    simp only [Bool.and_eq_true, List.all_eq_true] at h
    exact ⟨c, rest, htext, h.1, h.2⟩

/-- ASCII letters by their code points. -/
theorem isAlpha_iff {c : Char} :
    c.isAlpha = true ↔ (65 ≤ c.toNat ∧ c.toNat ≤ 90) ∨ (97 ≤ c.toNat ∧ c.toNat ≤ 122) := by
  show (decide (c.val ≥ 'A'.val ∧ c.val ≤ 'Z'.val) ||
    (decide (c.val ≥ 'a'.val) && decide (c.val ≤ 'z'.val))) = true ↔ _
  simp [UInt32.le_iff_toNat_le]

/-- ASCII digits by their code points. -/
theorem isDigit_iff {c : Char} : c.isDigit = true ↔ 48 ≤ c.toNat ∧ c.toNat ≤ 57 := by
  show (decide (c.val ≥ '0'.val) && decide (c.val ≤ '9'.val)) = true ↔ _
  simp [UInt32.le_iff_toNat_le]

theorem isAlphanum_iff {c : Char} :
    c.isAlphanum = true ↔ c.isAlpha = true ∨ c.isDigit = true :=
  Bool.or_eq_true_iff

theorem toNat_lt_of_isAlphanum {c : Char} (h : c.isAlphanum = true) : c.toNat < 128 := by
  rw [isAlphanum_iff, isAlpha_iff, isDigit_iff] at h
  omega

theorem isIdentifierChar_of_isNameChar {c : Char} (h : isNameChar c = true) :
    Token.isIdentifierChar c = true := by
  simp only [isNameChar, Bool.or_eq_true] at h
  rcases h with h | h
  · have hlt := toNat_lt_of_isAlphanum h
    rw [isAlphanum_iff] at h
    simp [Token.isIdentifierChar, isAlphanumeric, isAlphabetic, isNumeric, hlt, h]
  · simp [Token.isIdentifierChar, h]

theorem isNameChar_of_isNameStart {c : Char} (h : isNameStart c = true) : isNameChar c = true := by
  simp only [isNameStart, isNameChar, Bool.or_eq_true, isAlphanum_iff] at *
  exact h.imp_left .inl

theorem isBlank_of_isNameChar {c : Char} (h : isNameChar c = true) : isBlank c = false := by
  simp only [isNameChar, Bool.or_eq_true, beq_iff_eq] at h
  rcases h with h | rfl
  · rw [isAlphanum_iff, isAlpha_iff, isDigit_iff] at h
    simp only [isBlank, Bool.or_eq_false_iff, Bool.and_eq_false_iff, decide_eq_false_iff_not,
      beq_eq_false_iff_ne]
    omega
  · decide

/-- Line comments, slashes included, that are no directives. -/
def isPlainComment (text : String) : Bool :=
  match text.toList with
  | '/' :: '/' :: rest => rest.head? != some '!' && rest.all (!isLineBreak ·)
  | _ => false

theorem exists_of_isPlainComment {text : String} (h : isPlainComment text = true) :
    ∃ rest, text.toList = '/' :: '/' :: rest ∧ rest.head? ≠ some '!' ∧
      ∀ c ∈ rest, isLineBreak c = false := by
  unfold isPlainComment at h
  split at h
  · next rest htext =>
    simp only [Bool.and_eq_true, bne_iff_ne, List.all_eq_true, Bool.not_eq_true'] at h
    exact ⟨rest, htext, h.1, h.2⟩
  · simp at h

/-! ### Spelling -/

namespace Label

/-- Labels of the words and signs that the header of a declaration consists of. -/
inductive IsPlain : Label → Prop where
  | word {text : String} : isName text = true → IsPlain (word text)
  | comma : IsPlain (sign ",")

/-- A label behind another one: signs follow without a space. -/
def spaced (label : Label) : List Char :=
  if label.kind = .operator then label.text.toList else ' ' :: label.text.toList

/-- The labels as one line. -/
def spell : List Label → List Char
  | [] => []
  | first :: rest => first.text.toList ++ rest.flatMap spaced

@[simp] theorem spaced_word (text : String) : spaced (word text) = ' ' :: text.toList := rfl

@[simp] theorem spaced_comma : spaced (sign ",") = [','] := rfl

end Label

/-- Characters that indent a line. -/
def IsIndent (indent : List Char) : Prop := ∀ c ∈ indent, c = ' ' ∨ c = '\t'

/-- The line reads as the labels do, behind some indentation. -/
def Spells (labels : List Label) (text : List Char) : Prop :=
  ∃ indent, IsIndent indent ∧ text = indent ++ Label.spell labels

theorem spells_spell (labels : List Label) : Spells labels (Label.spell labels) :=
  ⟨[], by simp [IsIndent], rfl⟩

theorem IsIndent.isBlank {indent : List Char} (h : IsIndent indent) {c : Char}
    (hc : c ∈ indent) : isBlank c = true := by
  rcases h c hc with rfl | rfl <;> decide

/-! ### Reading back -/

namespace Token

variable {line column : Nat} {text : String} {labels : List Label}

theorem labels_indent {indent : List Char} (h : IsIndent indent) (rest : List Char) :
    ∃ behind, tokenizeFrom line column (indent ++ rest) = tokenizeFrom line behind rest := by
  induction indent generalizing column with
  | nil => exact ⟨column, rfl⟩
  | cons c indent ih =>
    have hblank := h.isBlank (List.mem_cons_self)
    rw [List.cons_append, tokenizeFrom_blank hblank]
    exact ih fun d hd => h d (List.mem_cons_of_mem c hd)

/-- A letter or an underscore starts an identifier, whatever follows. -/
theorem extent_letter {c : Char} (h : isAlphabetic c = true ∨ c = '_') (rest : List Char) :
    extent c rest = (.identifier, (rest.takeWhile isIdentifierChar).length) := by
  have hne : ∀ {d}, isAlphabetic d = false ∧ d ≠ '_' → c ≠ d := by
    rintro _ ⟨halpha, hother⟩ rfl
    simp [halpha, hother] at h
  have hslash : c ≠ '/' := hne (by decide)
  have hquote : c ≠ '"' := hne (by decide)
  have hraw : c ≠ '\'' := hne (by decide)
  have hdollar : c ≠ '$' := hne (by decide)
  have hdot : c ≠ '.' := hne (by decide)
  have hdigit : c.isDigit = false := by
    refine Bool.eq_false_iff.2 fun hdigit => ?_
    obtain halpha | rfl := h
    · -- Digits and letters have no code point in common
      have hrange := isDigit_iff.1 hdigit
      rw [isAlphabetic, if_pos (by omega), isAlpha_iff] at halpha
      omega
    · cases hdigit
  simp [extent, hslash, hquote, hraw, hdollar, hdot, hdigit, h]

/-- A name is an identifier that ends where no further character can continue it. -/
theorem labels_name (h : isName text = true) {tail : List Char}
    (htail : ∀ c ∈ tail.head?, isIdentifierChar c = false) :
    ∃ behind, (tokenizeFrom line column (text.toList ++ tail)).map label =
      .word text :: (tokenizeFrom line behind tail).map label := by
  obtain ⟨c, rest, htext, hc, hrest⟩ := exists_of_isName h
  have hletter : isAlphabetic c = true ∨ c = '_' := by
    simp only [isNameStart, Bool.or_eq_true, beq_iff_eq] at hc
    refine hc.imp_left fun hc => ?_
    have hlt : c.toNat < 128 := toNat_lt_of_isAlphanum (isAlphanum_iff.2 (.inl hc))
    simp [isAlphabetic, hlt, hc]
  -- The word ends at the tail, because every character of the name continues it
  have hword : (rest ++ tail).takeWhile isIdentifierChar = rest := by
    rw [List.takeWhile_append_of_pos fun d hd => isIdentifierChar_of_isNameChar (hrest d hd)]
    cases tail with
    | nil => simp
    | cons d tail => simp [htail d (by simp)]
  have hblank := isBlank_of_isNameChar (isNameChar_of_isNameStart hc)
  rw [htext, List.cons_append, tokenizeFrom_cons hblank, extent_letter hletter, hword]
  refine ⟨column + byteLength (c :: rest), ?_⟩
  simp [label, Label.word, ← htext]

/-- Signs that no other sign starts with. -/
def separators : List Char := ['(', ',', ')']

/-- A separator is a sign of its own, whatever follows it. -/
theorem labels_separator {c : Char} (h : c ∈ separators) (tail : List Char) :
    ∃ behind, (tokenizeFrom line column (c :: tail)).map label =
      .sign (String.singleton c) :: (tokenizeFrom line behind tail).map label := by
  obtain ⟨hblank, hdigit, halpha, hnone, hpair⟩ : isBlank c = false ∧ c.isDigit = false ∧
      isAlphabetic c = false ∧ c ∉ ['/', '"', '\'', '$', '.', '_'] ∧
      ∀ pair ∈ pairedSigns, pair.1 ≠ c := by
    simp only [separators, List.mem_cons, List.not_mem_nil, or_false] at h
    rcases h with rfl | rfl | rfl <;> decide
  have hextent : extent c tail = (.operator, 0) := by
    have hpaired : ∀ d, (c, d) ∉ pairedSigns := fun d hmem => hpair _ hmem rfl
    simp only [List.mem_cons, List.not_mem_nil, or_false, not_or] at hnone
    cases tail <;> simp [extent, hnone, hdigit, halpha, hpaired]
  rw [tokenizeFrom_cons hblank, hextent]
  exact ⟨_, by simp [label, Label.sign]; rfl⟩

theorem labels_comma (tail : List Char) :
    ∃ behind, (tokenizeFrom line column (',' :: tail)).map label =
      .sign "," :: (tokenizeFrom line behind tail).map label :=
  labels_separator (by decide) tail

/-- Behind a name, what the further labels are written with continues no name. -/
theorem head_spaced (h : ∀ l ∈ labels, l.IsPlain) :
    ∀ c ∈ (labels.flatMap Label.spaced ++ ['\n']).head?, isIdentifierChar c = false := by
  cases labels with
  | nil => simp; decide
  | cons l rest =>
    cases h l List.mem_cons_self with
    | word => simp; decide
    | comma => simp; decide

theorem labels_spaced (h : ∀ l ∈ labels, l.IsPlain) :
    (tokenizeFrom line column (labels.flatMap Label.spaced ++ ['\n'])).map label = labels := by
  -- The column varies: each label is read from where the one before it ends
  induction labels generalizing column with
  | nil => simp [tokenizeFrom_blank (c := '\n') (by decide)]
  | cons l rest ih =>
    have hrest : ∀ l ∈ rest, l.IsPlain := fun l hl => h l (List.mem_cons_of_mem _ hl)
    cases h l List.mem_cons_self with
    | word hname =>
      rw [List.flatMap_cons, Label.spaced_word, List.append_assoc, List.cons_append,
        tokenizeFrom_blank (by decide)]
      obtain ⟨behind, hbehind⟩ := labels_name hname (head_spaced hrest)
      rw [hbehind, ih hrest]
    | comma =>
      rw [List.flatMap_cons, Label.spaced_comma, List.append_assoc, List.singleton_append]
      obtain ⟨behind, hbehind⟩ := labels_comma (rest.flatMap Label.spaced ++ ['\n'])
      rw [hbehind, ih hrest]

/-- The tokens of a line that spells words and commas say these labels. -/
theorem labels_of_spells {spelled : List Char} (hspells : Spells labels spelled)
    (h : ∀ l ∈ labels, l.IsPlain) :
    (tokenizeFrom line column (spelled ++ ['\n'])).map label = labels := by
  obtain ⟨indent, hindent, rfl⟩ := hspells
  rw [List.append_assoc]
  obtain ⟨behind, hbehind⟩ := labels_indent hindent (Label.spell labels ++ ['\n'])
  rw [hbehind]
  cases labels with
  | nil => exact labels_spaced h
  | cons l rest =>
    have hrest : ∀ l ∈ rest, l.IsPlain := fun l hl => h l (List.mem_cons_of_mem _ hl)
    rw [Label.spell, List.append_assoc]
    cases h l List.mem_cons_self with
    | word hname =>
      obtain ⟨behind, hbehind⟩ := labels_name hname (head_spaced hrest)
      rw [Label.text_word, hbehind, labels_spaced hrest]
    | comma =>
      obtain ⟨behind, hbehind⟩ := labels_comma (rest.flatMap Label.spaced ++ ['\n'])
      exact hbehind.trans (by rw [labels_spaced hrest])

/-! ### Comments -/

/-- A comment reaches to the end of its line. -/
theorem labels_of_spells_comment {spelled : List Char} (hspells : Spells [.comment text] spelled)
    (h : isPlainComment text = true) :
    (tokenizeFrom line column (spelled ++ ['\n'])).map label = [.comment text] := by
  obtain ⟨indent, hindent, rfl⟩ := hspells
  obtain ⟨rest, htext, -, hrest⟩ := exists_of_isPlainComment h
  obtain ⟨behind, hbehind⟩ := labels_indent hindent (text.toList ++ ['\n'])
  have hextent : extent '/' ('/' :: rest ++ ['\n']) = (.comment, rest.length + 1) := by
    have hslash : isLineBreak '/' = false := by decide
    have hend : isLineBreak '\n' = true := by decide
    have hall : ∀ c ∈ rest, (!isLineBreak c) = true := fun c hc => by simp [hrest c hc]
    simp [extent, commentExtent, hslash, List.takeWhile_append_of_pos hall, hend]
  rw [Label.spell, List.flatMap_nil, List.append_nil, Label.comment, List.append_assoc, hbehind,
    htext, List.cons_append, tokenizeFrom_cons (by decide), hextent]
  simp [label, tokenizeFrom_blank (c := '\n') (by decide), ← htext]

end Token

end JassOutline
