import JassOutline.Token

/-!
# Labels of tokens

A `Label` is what a token says apart from where it stands: its kind and its text. Everything that is
read off tokens and is no position depends on their labels alone, so that a token list is known as
far as its labels are.

## Key results

- `Token.isKeyword_of_word`, `Token.isOperator_of_sign`: words and signs by their labels
- `Token.after?_of_labels`, `Token.takeWhile_of_labels`: cutting a token list at a label
-/

namespace JassOutline

/-- What a token says apart from its place. -/
structure Label where
  kind : TokenKind
  text : String
  deriving DecidableEq, Repr

namespace Label

/-- The label of a word. -/
def word (text : String) : Label := ⟨.identifier, text⟩

/-- The label of a sign. -/
def sign (text : String) : Label := ⟨.operator, text⟩

/-- The label of a comment. -/
def comment (text : String) : Label := ⟨.comment, text⟩

@[simp] theorem word_inj {a b : String} : word a = word b ↔ a = b := by
  simp [word]

@[simp] theorem sign_inj {a b : String} : sign a = sign b ↔ a = b := by
  simp [sign]

@[simp] theorem word_ne_sign {a b : String} : word a ≠ sign b := by
  simp [word, sign]

@[simp] theorem sign_ne_word {a b : String} : sign a ≠ word b := by
  simp [word, sign]

@[simp] theorem text_word (text : String) : (word text).text = text := rfl

@[simp] theorem mem_map_word {text : String} {words : List String} :
    word text ∈ words.map word ↔ text ∈ words := by
  simp

end Label

namespace Token

/-- What the token says. -/
def label (token : Token) : Label := ⟨token.kind, token.text⟩

variable {token : Token} {tokens : List Token} {text : String}

/-! ### Tests of a single token -/

theorem kind_of_label_eq {token' : Token} (h : token'.label = token.label) :
    token'.kind = token.kind :=
  congrArg Label.kind h

theorem text_of_label_eq {token' : Token} (h : token'.label = token.label) :
    token'.text = token.text :=
  congrArg Label.text h

theorem isIdentifier_eq : token.isIdentifier = (token.label.kind == .identifier) := rfl

theorem isKeyword_eq (word : String) : token.isKeyword word = (token.label == .word word) := by
  rw [Bool.eq_iff_iff]
  simp [isKeyword, label, Label.word]

theorem isOperator_eq (sign : String) : token.isOperator sign = (token.label == .sign sign) := by
  rw [Bool.eq_iff_iff]
  simp [isOperator, label, Label.sign]

theorem isKeyword_of_not_mem {word : String} {labels : List Label} (h : .word word ∉ labels)
    (htoken : token.label ∈ labels) : token.isKeyword word = false := by
  rw [isKeyword_eq, beq_eq_false_iff_ne]
  rintro hword
  exact h (hword ▸ htoken)

theorem isKeyword_of_eq {word : String} (h : token.label = .word word) :
    token.isKeyword word = true := by
  rw [isKeyword_eq, h, beq_self_eq_true]

theorem text_of_word (h : token.label = .word text) : token.text = text :=
  congrArg Label.text h

theorem isIdentifier_of_word (h : token.label = .word text) : token.isIdentifier = true := by
  rw [isIdentifier_eq, h]
  rfl

theorem isKeyword_of_word (h : token.label = .word text) (word : String) :
    token.isKeyword word = (text == word) := by
  rw [isKeyword_eq, h, Bool.eq_iff_iff]
  simp

theorem isKeywordOf_of_word (h : token.label = .word text) (words : List String) :
    token.isKeywordOf words = words.contains text := by
  have hkind : token.kind = .identifier := congrArg Label.kind h
  rw [isKeywordOf, hkind, text_of_word h]
  rfl

theorem isKeywordOf_of_not_mem {words : List String} {labels : List Label}
    (h : ∀ word ∈ words, .word word ∉ labels) (htoken : token.label ∈ labels) :
    token.isKeywordOf words = false := by
  refine Bool.eq_false_iff.2 fun hkeyword => ?_
  simp only [isKeywordOf, Bool.and_eq_true, beq_iff_eq, List.contains_iff_mem] at hkeyword
  have hlabel : token.label = .word token.text := by simp [label, Label.word, hkeyword.1]
  exact h token.text hkeyword.2 (hlabel ▸ htoken)

theorem isOperator_of_word (h : token.label = .word text) (sign : String) :
    token.isOperator sign = false := by
  rw [isOperator_eq, h]
  simp

theorem isOperator_of_sign (h : token.label = .sign text) (sign : String) :
    token.isOperator sign = (text == sign) := by
  rw [isOperator_eq, h, Bool.eq_iff_iff]
  simp

/-- Signs are no words. -/
theorem isIdentifier_of_isOperator (h : token.isOperator text = true) :
    token.isIdentifier = false := by
  rw [isOperator_eq, beq_iff_eq] at h
  rw [isIdentifier_eq, h]
  rfl

theorem isOperator_of_isIdentifier (h : token.isIdentifier = true) (sign : String) :
    token.isOperator sign = false :=
  Bool.eq_false_iff.2 fun hsign => by
    rw [isIdentifier_of_isOperator hsign] at h
    cases h

/-! ### Token lists with known labels -/

/-- A token list that says a label first starts with a token that says it. -/
theorem labels_eq_cons {first : Label} {rest : List Label} :
    tokens.map label = first :: rest ↔
      ∃ token later, tokens = token :: later ∧ token.label = first ∧ later.map label = rest :=
  List.map_eq_cons_iff

/-- A token list that says one list of labels after another consists of two parts. -/
theorem labels_eq_append {front back : List Label} :
    tokens.map label = front ++ back ↔
      ∃ before behind, tokens = before ++ behind ∧ before.map label = front ∧
        behind.map label = back :=
  List.map_eq_append_iff

theorem label_mem {labels : List Label} (h : tokens.map label = labels) (hmem : token ∈ tokens) :
    token.label ∈ labels :=
  h ▸ List.mem_map_of_mem hmem

/-- The texts of a row of words. -/
theorem texts_of_words {words : List String} (h : tokens.map label = words.map .word) :
    tokens.map Token.text = words := by
  have htexts := congrArg (List.map Label.text) h
  simpa [Function.comp_def, label] using htexts

theorem isIdentifier_of_mem_words {words : List String} (h : tokens.map label = words.map .word)
    (hmem : token ∈ tokens) : token.isIdentifier = true := by
  obtain ⟨word, -, hlabel⟩ := List.mem_map.1 (label_mem h hmem)
  exact isIdentifier_of_word hlabel.symm

theorem leadingIdentifier?_of_labels {rest : List Label}
    (h : tokens.map label = .word text :: rest) : leadingIdentifier? tokens = some text := by
  obtain ⟨token, later, rfl, htoken, -⟩ := labels_eq_cons.1 h
  simp [leadingIdentifier?, isIdentifier_of_word htoken, text_of_word htoken]

/-- Tokens in front that fail a test do not matter to what follows the first one that satisfies
it. -/
theorem after?_append {p : Token → Bool} {front : List Token}
    (h : ∀ token ∈ front, p token = false) (rest : List Token) :
    after? p (front ++ rest) = after? p rest := by
  induction front with
  | nil => rfl
  | cons token front ih =>
    rw [List.cons_append, after?, h token List.mem_cons_self]
    exact ih fun token hmem => h token (List.mem_cons_of_mem _ hmem)

theorem after?_eq_none {p : Token → Bool} (h : ∀ token ∈ tokens, p token = false) :
    after? p tokens = none := by
  rw [← List.append_nil tokens, after?_append h, after?]

/-- What follows the first token that satisfies a test, if its label is known. -/
theorem after?_of_labels {p : Token → Bool} {front rest : List Label} {found : Label}
    (h : tokens.map label = front ++ found :: rest)
    (hfront : ∀ token : Token, token.label ∈ front → p token = false)
    (hfound : ∀ token : Token, token.label = found → p token = true) :
    ∃ later, after? p tokens = some later ∧ later.map label = rest := by
  obtain ⟨before, behind, rfl, hbefore, hbehind⟩ := labels_eq_append.1 h
  obtain ⟨token, later, rfl, htoken, hlater⟩ := labels_eq_cons.1 hbehind
  refine ⟨later, ?_, hlater⟩
  rw [after?_append fun token hmem => hfront token (label_mem hbefore hmem), after?,
    hfound token htoken, if_pos rfl]

/-- A token list parted by a test that holds of the labels in front and fails at the label behind
them, if there is one. -/
theorem span_of_labels {p : Token → Bool} {front rest : List Label}
    (h : tokens.map label = front ++ rest)
    (hfront : ∀ token : Token, token.label ∈ front → p token = true)
    (hrest : ∀ token : Token, token.label ∈ rest.head? → p token = false) :
    (tokens.takeWhile p).map label = front ∧ (tokens.dropWhile p).map label = rest := by
  obtain ⟨before, behind, rfl, hbefore, hbehind⟩ := labels_eq_append.1 h
  have hp : ∀ token ∈ before, p token = true := fun token hmem =>
    hfront token (label_mem hbefore hmem)
  rw [List.takeWhile_append_of_pos hp, List.dropWhile_append_of_pos hp]
  cases behind with
  | nil => simp [hbefore, ← hbehind]
  | cons token later =>
    have hp := hrest token (by simp [← hbehind])
    simpa [hp] using ⟨hbefore, hbehind⟩

end Token

end JassOutline
