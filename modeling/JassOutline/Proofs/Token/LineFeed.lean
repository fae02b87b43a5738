import JassOutline.Proofs.LineEnd.Token

/-!
# Tokens in front of a line feed and behind it

A line feed belongs to no token, and the reader of tokens does not look beyond one. So a text with a
line feed is read line by line: what a line holds, closed or not, has no effect on the next line.

## Key results

- `extent_append_feed`: a token in front of a line feed and any further text
- `tokenize_append_feed`: the tokens of both lines, and that none holds a line feed
-/

namespace JassOutline.Token

open Text

/-- The same token further to the right. -/
def shift (size : Nat) (token : Token) : Token :=
  { token with
    startColumn := token.startColumn + size
    stopColumn := token.stopColumn + size }

theorem commentExtent_append_feed (text behind : List Char) :
    commentExtent (text ++ '\n' :: behind) = commentExtent text := by
  induction text with
  | nil => rfl
  | cons c rest ih =>
    rw [commentExtent] at ih ⊢
    by_cases hbreak : isLineBreak c = true
    · simp [commentExtent, hbreak]
    · simp [commentExtent, hbreak, ih]

/-- The line feed that ends a text is no part of its last token. -/
theorem extent_append_feed_nil (first : Char) (text : List Char) :
    extent first (text ++ ['\n']) = extent first text := by
  by_cases hcomment : first = '/' ∧ text.head? = some '/'
  · obtain ⟨rfl, hslash⟩ := hcomment
    have hslash' : (text ++ ['\n']).head? = some '/' := by
      rw [List.head?_append, hslash]
      rfl
    rw [extent_slashes hslash', extent_slashes hslash, commentExtent_append_feed]
  · have hkind : (extent first text).1 ≠ .comment := mt kind_extent_eq_comment.1 hcomment
    have hfeed : LineEnd.feed = .absent ∨ LineEnd.feed = .feed ∨
        isClosedWord (first :: text.take (extent first text).2) = true := .inr (.inl rfl)
    exact extent_append hkind hfeed

/-- A token in front of a line feed is the same whatever follows that. -/
theorem extent_append_feed (first : Char) (text behind : List Char) :
    extent first (text ++ '\n' :: behind) = extent first text := by
  have hsize := size_extent_le first text
  have hnil := extent_append_feed_nil first text
  -- The token ends at the line feed at the latest, and so both texts go on with the same character
  have hstart : SameStart ((text ++ ['\n']).drop (extent first (text ++ ['\n'])).2)
      (text.drop (extent first text).2 ++ '\n' :: behind) := by
    rw [hnil, List.drop_append_of_le_length hsize]
    refine .inl ?_
    rw [List.head?_append, List.head?_append]
    rfl
  have hresume := extent_resume hstart
  rwa [hnil, List.take_append_of_le_length hsize, ← List.append_assoc, List.take_append_drop]
    at hresume

/-- No token holds a line feed. -/
theorem not_mem_take_extent (first : Char) (text : List Char) :
    '\n' ∉ text.take (extent first text).2 := by
  intro hmem
  obtain ⟨front, back, rfl, hfront⟩ := List.eq_append_cons_of_mem (List.mem_of_mem_take hmem)
  rw [extent_append_feed, List.take_append_of_le_length (size_extent_le first front)] at hmem
  exact hfront (List.mem_of_mem_take hmem)

theorem not_mem_text (line column : Nat) (text : List Char) :
    ∀ token ∈ tokenizeFrom line column text, '\n' ∉ token.text.toList := by
  induction text using readingInduction generalizing column with
  | nil => simp
  | blank c rest hblank ih =>
    rw [tokenizeFrom_blank hblank]
    exact ih _
  | token c rest hblank ih =>
    rw [tokenizeFrom_cons hblank]
    refine List.forall_mem_cons.2 ⟨?_, ih _⟩
    rw [String.toList_ofList, List.mem_cons, not_or]
    refine ⟨?_, not_mem_take_extent c rest⟩
    rintro rfl
    exact absurd hblank (by decide)

/-- The columns of tokens are counted from where their text starts. -/
theorem tokenizeFrom_add (line column size : Nat) (text : List Char) :
    tokenizeFrom line (column + size) text = (tokenizeFrom line column text).map (shift size) := by
  induction text using readingInduction generalizing column with
  | nil => rw [tokenizeFrom_nil, tokenizeFrom_nil, List.map_nil]
  | blank c rest hblank ih =>
    rw [tokenizeFrom_blank hblank, tokenizeFrom_blank hblank, ← ih, Nat.add_right_comm]
  | token c rest hblank ih =>
    rw [tokenizeFrom_cons hblank, tokenizeFrom_cons hblank, List.map_cons, ← ih,
      Nat.add_right_comm]
    rfl

/-- A text is read line by line. -/
theorem tokenizeFrom_append_feed (line column : Nat) (text behind : List Char) :
    tokenizeFrom line column (text ++ '\n' :: behind) =
      tokenizeFrom line column text ++
        tokenizeFrom line (column + (byteLength text + 1)) behind := by
  induction text using readingInduction generalizing column with
  | nil => rw [List.nil_append, tokenizeFrom_blank (by decide), tokenizeFrom_nil]; rfl
  | blank c rest hblank ih =>
    rw [List.cons_append, tokenizeFrom_blank hblank, tokenizeFrom_blank hblank, ih,
      byteLength_cons]
    simp only [Nat.add_assoc]
  | token c rest hblank ih =>
    have hsize := size_extent_le c rest
    have hlength : byteLength (c :: rest.take (extent c rest).2) +
        byteLength (rest.drop (extent c rest).2) = byteLength (c :: rest) := by
      rw [← byteLength_append, List.cons_append, List.take_append_drop]
    rw [List.cons_append, tokenizeFrom_cons hblank, tokenizeFrom_cons hblank, extent_append_feed,
      List.take_append_of_le_length hsize, List.drop_append_of_le_length hsize, ih,
      List.cons_append, ← hlength]
    simp only [Nat.add_assoc]

/-- The tokens of two lines are those of the first line and those of the second one, whose columns
go on behind the line feed; and no token of any text holds a line feed. -/
theorem tokenize_append_feed (line : Nat) (first second : List Char) :
    tokenize line (first ++ '\n' :: second) =
      tokenize line (first ++ ['\n']) ++ (tokenize line second).map (shift (byteLength first + 1)) ∧
    ∀ text, ∀ token ∈ tokenize line text, '\n' ∉ token.text.toList := by
  refine ⟨?_, not_mem_text line 0⟩
  rw [tokenize, tokenize, tokenize, tokenizeFrom_append_feed, tokenizeFrom_append_feed,
    tokenizeFrom_nil, List.append_nil, tokenizeFrom_add]

-- The backslash at the end of the first line does not take the line feed into the string
example : (tokenize 0 "\"a\\\n'b".toList).map Token.text = ["\"a\\", "'b"] := by
  decide +kernel

end JassOutline.Token
