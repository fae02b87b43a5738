import JassOutline.Proofs.Token.Respacing
import JassOutline.Proofs.Token.Spelling
import JassOutline.Proofs.Token.Tiling

/-!
# Reading a line piece by piece

`IsRead` says what the reader of tokens takes a piece of a line for, if a given text follows it.
Pieces that are read one after the other are put together with `IsRead.append`. Blanks, identifiers,
separators and string literals are pieces, and so is a list of them. An identifier needs a text
behind it that does not continue it, and a literal may hold anything but what ends or escapes it.

## Key results

- `isIdentifierText_iff`: the identifiers that are read anywhere are read alone
- `IsIdentifierText.isRead`, `isRead_quoted`: identifiers and literals as pieces of a line
- `isRead_commaList`, `isRead_applied`: lists, and names with lists behind them
-/

namespace JassOutline

open Text

namespace Token

/-! ### Pieces -/

/-- In front of the tail, the piece is read as the labels, wherever it stands. -/
def IsRead (piece : List Char) (labels : List Label) (tail : List Char) : Prop :=
  ∀ line column, ∃ behind, (tokenizeFrom line column (piece ++ tail)).map label =
    labels ++ (tokenizeFrom line behind tail).map label

/-- No identifier goes on in the tail. -/
def EndsIdentifier (tail : List Char) : Prop :=
  ∀ c ∈ tail.head?, isIdentifierChar c = false

/-- The first character of the tail tells. -/
theorem endsIdentifier_cons {c : Char} (h : isIdentifierChar c = false) (rest : List Char) :
    EndsIdentifier (c :: rest) := by
  simpa [EndsIdentifier] using h

variable {name : String} {piece later tail : List Char} {labels laterLabels : List Label} {c : Char}

namespace IsRead

theorem nil (tail : List Char) : IsRead [] [] tail := fun _ column => ⟨column, rfl⟩

theorem append (h : IsRead piece labels (later ++ tail)) (hlater : IsRead later laterLabels tail) :
    IsRead (piece ++ later) (labels ++ laterLabels) tail := by
  intro line column
  obtain ⟨middle, hpiece⟩ := h line column
  obtain ⟨behind, hlater⟩ := hlater line middle
  exact ⟨behind, by rw [List.append_assoc, hpiece, hlater, List.append_assoc]⟩

theorem blanks (h : ∀ c ∈ piece, isBlank c = true) (tail : List Char) : IsRead piece [] tail := by
  induction piece with
  | nil => exact nil tail
  | cons c piece ih =>
    obtain ⟨hc, hpiece⟩ := List.forall_mem_cons.1 h
    intro line column
    rw [List.cons_append, tokenizeFrom_blank hc]
    exact ih hpiece line _

theorem space (h : IsRead later laterLabels tail) : IsRead (' ' :: later) laterLabels tail :=
  (blanks (List.forall_mem_singleton.2 (by decide)) (later ++ tail)).append h

/-- A separator is read alone. -/
theorem separator (hc : c ∈ separators) (h : IsRead later laterLabels tail) :
    IsRead (c :: later) (.sign (String.singleton c) :: laterLabels) tail := by
  intro line column
  obtain ⟨middle, hfirst⟩ := labels_separator hc (later ++ tail)
  obtain ⟨behind, hlater⟩ := h line middle
  exact ⟨behind, by rw [List.cons_append, hfirst, hlater, List.cons_append]⟩

end IsRead

/-! ### Identifiers -/

/-- Read alone, the text is one identifier. -/
def IsIdentifierText (name : String) : Prop :=
  (tokenize 0 name.toList).map label = [.word name]

instance (name : String) : Decidable (IsIdentifierText name) :=
  inferInstanceAs (Decidable (_ = _))

/-- What is read as an identifier anywhere is read so alone. -/
theorem isIdentifierText_iff :
    IsIdentifierText name ↔ ∃ line column text, ∃ token ∈ tokenizeFrom line column text,
      token.label = .word name := by
  constructor
  · intro h
    obtain ⟨token, _, htokens, hlabel, -⟩ := labels_eq_cons.1 h
    rw [tokenize] at htokens
    exact ⟨0, 0, name.toList, token, htokens ▸ List.mem_cons_self, hlabel⟩
  · rintro ⟨line, column, text, token, hmem, hlabel⟩
    have halone := labels_of_mem line column 0 0 text token hmem
    rwa [hlabel, text_of_word hlabel] at halone

/-- A dollar sign starts an identifier as well, unless it starts a number. -/
theorem extent_dollar_word {rest : List Char} (h : isDollarNumber rest = false) :
    extent '$' rest = (.identifier, (rest.takeWhile isIdentifierChar).length) := by
  rw [extent_dollar, dollarExtent_eq, h]
  rfl

/-- What starts an identifier. -/
def StartsIdentifier (c : Char) (rest : List Char) : Prop :=
  (c = '$' ∧ isDollarNumber rest = false) ∨ isAlphabetic c = true ∨ c = '_'

theorem StartsIdentifier.extent_eq {rest : List Char} (h : StartsIdentifier c rest) :
    extent c rest = (.identifier, (rest.takeWhile isIdentifierChar).length) := by
  obtain ⟨rfl, hnumber⟩ | hletter := h
  · exact extent_dollar_word hnumber
  · exact extent_letter hletter rest

theorem startsIdentifier_of_kind {rest : List Char} (h : (extent c rest).1 = .identifier) :
    StartsIdentifier c rest := by
  by_cases hdollar : c = '$'
  · subst hdollar
    refine .inl ⟨rfl, Bool.eq_false_iff.2 fun hnumber => ?_⟩
    rw [extent_dollar, dollarExtent_eq, if_pos hnumber] at h
    cases h
  · -- No other kind of token is an identifier
    unfold extent at h
    rw [if_neg hdollar] at h
    split_ifs at h with _ _ _ _ hletter
    exact .inr hletter

/-- An identifier as the reader sees it: what starts it, and the characters that continue it. -/
theorem IsIdentifierText.exists_eq_cons (h : IsIdentifierText name) :
    ∃ c rest, name.toList = c :: rest ∧ isBlank c = false ∧ StartsIdentifier c rest ∧
      ∀ d ∈ rest, isIdentifierChar d = true := by
  obtain ⟨token, _, htokens, hlabel, -⟩ := labels_eq_cons.1 h
  rw [tokenize] at htokens
  have hmem : token ∈ tokenizeFrom 0 0 name.toList := htokens ▸ List.mem_cons_self
  obtain ⟨-, c, -, rest, -, hblank, -, hname⟩ := exists_first_char hmem
  rw [text_of_word hlabel] at hname
  rw [IsIdentifierText, tokenize, hname, tokenizeFrom_cons hblank] at h
  have hfirst := (List.cons.inj h).1
  have hstarts : StartsIdentifier c rest := startsIdentifier_of_kind (congrArg Label.kind hfirst)
  have htext : String.ofList (c :: rest.take (extent c rest).2) = name :=
    congrArg Label.text hfirst
  have hword : c :: rest.take (extent c rest).2 = c :: rest := by
    rw [← hname, ← htext, String.toList_ofList]
  -- The token is the whole text, so every further character continues it
  rw [hstarts.extent_eq, take_length_takeWhile] at hword
  exact ⟨c, rest, hname, hblank, hstarts,
    List.takeWhile_eq_self_iff.1 (List.cons.inj hword).2⟩

/-- An identifier ends where nothing continues it. -/
theorem IsIdentifierText.isRead (h : IsIdentifierText name) (htail : EndsIdentifier tail) :
    IsRead name.toList [.word name] tail := by
  intro line column
  obtain ⟨c, rest, hname, hblank, hstarts, hrest⟩ := h.exists_eq_cons
  -- The tail neither makes a number of what starts with a dollar sign nor continues the word
  have hstarts' : StartsIdentifier c (rest ++ tail) := by
    refine hstarts.imp_left fun ⟨hdollar, hnumber⟩ => ⟨hdollar, ?_⟩
    rw [isDollarNumber_append rest (show EndsIdentifier [] by simp [EndsIdentifier]) htail,
      List.append_nil, hnumber]
  have hword : (rest ++ tail).takeWhile isIdentifierChar = rest := by
    rw [List.takeWhile_append_of_pos hrest]
    cases tail with
    | nil => exact List.append_nil _
    | cons c tail => simp [htail c rfl]
  have hextent : extent c (rest ++ tail) = (.identifier, rest.length) := by
    rw [hstarts'.extent_eq, hword]
  refine ⟨column + byteLength (c :: rest), ?_⟩
  rw [hname, List.cons_append, tokenizeFrom_cons hblank, hextent]
  simp [label, Label.word, ← hname]

/-- An identifier with something behind it. -/
theorem IsIdentifierText.isRead_append (h : IsIdentifierText name)
    (htail : EndsIdentifier (later ++ tail)) (hlater : IsRead later laterLabels tail) :
    IsRead (name.toList ++ later) (.word name :: laterLabels) tail :=
  (h.isRead htail).append hlater

/-- A word, and the rest behind a space. -/
def spaced (word : String) (rest : List Char) : List Char :=
  word.toList ++ ' ' :: rest

theorem IsIdentifierText.isRead_spaced (h : IsIdentifierText name)
    (hlater : IsRead later laterLabels tail) :
    IsRead (spaced name later) (.word name :: laterLabels) tail :=
  h.isRead_append (endsIdentifier_cons (by decide) _) hlater.space

/-- An identifier stands on one line. -/
theorem IsIdentifierText.feed_not_mem (h : IsIdentifierText name) : '\n' ∉ name.toList := by
  obtain ⟨c, rest, hname, hblank, -, hrest⟩ := h.exists_eq_cons
  rw [hname]
  intro hmem
  obtain rfl | hmem := List.mem_cons.1 hmem
  · cases hblank
  · exact absurd (hrest _ hmem) (by decide)

theorem feed_not_mem_spaced (hname : '\n' ∉ name.toList) (hlater : '\n' ∉ later) :
    '\n' ∉ spaced name later := by
  simp [spaced, hname, hlater]

/-! ### String literals -/

/-- The text may stand in a string literal as it is. -/
def IsLiteralText (text : String) : Prop :=
  ∀ c ∈ text.toList, c ∉ ['"', '\\', '\r', '\n']

instance (text : String) : Decidable (IsLiteralText text) :=
  List.decidableBAll (fun c => c ∉ ['"', '\\', '\r', '\n']) text.toList

/-- The text as a string literal. -/
def quoted (text : String) : String :=
  String.ofList ('"' :: (text.toList ++ ['"']))

theorem stringExtent_quoted {text : List Char} (h : ∀ c ∈ text, c ∉ ['"', '\\', '\r', '\n'])
    (tail : List Char) : stringExtent (text ++ '"' :: tail) = text.length + 1 := by
  induction text with
  | nil => rfl
  | cons c text ih =>
    obtain ⟨hc, htext⟩ := List.forall_mem_cons.1 h
    simp only [List.mem_cons, List.not_mem_nil, or_false, not_or] at hc
    have hbreak : isLineBreak c = false := by simp [isLineBreak, hc]
    rw [List.cons_append, stringExtent_cons hc.1 hc.2.1 hbreak, ih htext, List.length_cons]

theorem isRead_quoted {text : String} (h : IsLiteralText text) (tail : List Char) :
    IsRead (quoted text).toList [⟨.string, quoted text⟩] tail := by
  intro line column
  have hextent : extent '"' (text.toList ++ '"' :: tail) = (.string, text.toList.length + 1) := by
    rw [extent_quote, stringExtent_quoted h]
  refine ⟨column + byteLength ('"' :: (text.toList ++ ['"'])), ?_⟩
  rw [quoted, String.toList_ofList, List.cons_append, List.append_assoc, List.singleton_append,
    tokenizeFrom_cons (by decide), hextent]
  have hinside : ∀ inside : List Char,
      (inside ++ '"' :: tail).drop (inside.length + 1) = tail ∧
        (inside ++ '"' :: tail).take (inside.length + 1) = inside ++ ['"'] := fun inside => by
    simp [List.take_append]
  rw [(hinside _).1, (hinside _).2]
  rfl

theorem feed_not_mem_quoted {text : String} (h : IsLiteralText text) :
    '\n' ∉ (quoted text).toList := by
  have htext : '\n' ∉ text.toList := fun hmem => h _ hmem (by simp)
  simp [quoted, htext]

/-! ### Lists -/

/-- The texts with a comma and a space between them. -/
def commaList (items : List String) : List Char :=
  [',', ' '].intercalate (items.map String.toList)

theorem commaList_cons_cons (item next : String) (items : List String) :
    commaList (item :: next :: items) = item.toList ++ ',' :: ' ' :: commaList (next :: items) := by
  simp [commaList, List.intercalate]

/-- In front of what continues no identifier, the text of the label is read as the label. -/
def IsItem (item : Label) : Prop :=
  ∀ {tail}, EndsIdentifier tail → IsRead item.text.toList [item] tail

/-- The labels of a list. -/
def separated (items : List Label) : List Label :=
  items.intersperse (.sign ",")

/-- Items are read in a list as well. -/
theorem isRead_commaList {items : List Label} (hitems : ∀ item ∈ items, IsItem item)
    (htail : EndsIdentifier tail) :
    IsRead (commaList (items.map Label.text)) (separated items) tail := by
  induction items with
  | nil => exact IsRead.nil tail
  | cons item items ih =>
    obtain ⟨hitem, hitems⟩ := List.forall_mem_cons.1 hitems
    cases items with
    | nil => simpa [commaList, separated] using hitem htail
    | cons next items =>
      rw [List.map_cons, List.map_cons, commaList_cons_cons]
      refine IsRead.append (hitem ?_) ?_
      · exact endsIdentifier_cons (by decide) _
      · exact .separator (by decide) (ih hitems).space

theorem feed_not_mem_commaList {items : List String} (h : ∀ item ∈ items, '\n' ∉ item.toList) :
    '\n' ∉ commaList items := by
  induction items with
  | nil => exact List.not_mem_nil
  | cons item items ih =>
    obtain ⟨hitem, hitems⟩ := List.forall_mem_cons.1 h
    cases items with
    | nil => simpa [commaList] using hitem
    | cons next items =>
      rw [commaList_cons_cons]
      simp [hitem, ih hitems]

/-! ### Lists in parentheses -/

/-- A name with a list in parentheses. -/
def applied (name : String) (items : List String) : List Char :=
  name.toList ++ '(' :: (commaList items ++ [')'])

/-- The labels of a name with a list in parentheses. -/
def appliedLabels (name : String) (items : List Label) : List Label :=
  .word name :: .sign "(" :: (separated items ++ [.sign ")"])

theorem exists_of_applied {items behind : List Label} {tokens : List Token}
    (h : tokens.map label = appliedLabels name items ++ behind) :
    ∃ named opening list rest, tokens = named :: opening :: (list ++ rest) ∧
      named.label = .word name ∧ opening.label = .sign "(" ∧ list.map label = separated items ∧
      rest.map label = .sign ")" :: behind := by
  rw [appliedLabels, List.cons_append, List.cons_append, List.append_assoc] at h
  obtain ⟨named, later, rfl, hnamed, hlater⟩ := labels_eq_cons.1 h
  obtain ⟨opening, inside, rfl, hopening, hinside⟩ := labels_eq_cons.1 hlater
  obtain ⟨list, rest, rfl, hlist, hrest⟩ := labels_eq_append.1 hinside
  exact ⟨named, opening, list, rest, rfl, hnamed, hopening, hlist, hrest⟩

theorem isRead_applied {items : List Label} (hname : IsIdentifierText name)
    (hitems : ∀ item ∈ items, IsItem item) (tail : List Char) :
    IsRead (applied name (items.map Label.text)) (appliedLabels name items) tail := by
  have hlist : IsRead (commaList (items.map Label.text)) (separated items) ([')'] ++ tail) :=
    isRead_commaList hitems (endsIdentifier_cons (by decide) tail)
  exact hname.isRead_append (endsIdentifier_cons (by decide) _) (.separator (by decide)
    (hlist.append (.separator (by decide) (.nil tail))))

theorem feed_not_mem_applied {items : List String} (hname : IsIdentifierText name)
    (hitems : ∀ item ∈ items, '\n' ∉ item.toList) : '\n' ∉ applied name items := by
  simp [applied, hname.feed_not_mem, feed_not_mem_commaList hitems]

end Token

end JassOutline
