import JassOutline.Declaration
import JassOutline.Proofs.Token.Label
import JassOutline.Proofs.Token.Resumption

/-!
# Comments at the end of a line

`cutComments` takes the comments at the end of a line away, and keeps the blanks in front of them
and what ends the line. The tokens of the line are then the same without those comments. `TrimsTo`
relates the two token lists by what they say, and the functions that read tokens keep to it: for
them a comment at the end is the end.

## Key results

- `trimsTo_cutComments`: the tokens of a line without the comments at its end
- `TrimsTo.dropWhile`, `TrimsTo.after?_cases`: cutting both token lists at the same place
-/

namespace JassOutline.Token

open Text

/-- The text without the comments that it ends with. Only blanks may stand behind each of them. -/
def cutComments (text : List Char) : List Char :=
  match text with
  | [] => []
  | c :: rest =>
    if isBlank c then c :: cutComments rest
    else
      let (kind, size) := extent c rest
      let behind := cutComments (rest.drop size)
      if kind = .comment ∧ behind.all isBlank then behind
      else c :: (rest.take size ++ behind)
termination_by text.length
decreasing_by
  · simp
  · simp only [List.length_drop, List.length_cons]; omega

theorem cutComments_blank {c : Char} (h : isBlank c = true) (rest : List Char) :
    cutComments (c :: rest) = c :: cutComments rest := by
  rw [cutComments, if_pos h]

theorem cutComments_cons {c : Char} (h : isBlank c = false) (rest : List Char) :
    cutComments (c :: rest) =
      if (extent c rest).1 = .comment ∧
          (cutComments (rest.drop (extent c rest).2)).all isBlank then
        cutComments (rest.drop (extent c rest).2)
      else c :: (rest.take (extent c rest).2 ++ cutComments (rest.drop (extent c rest).2)) := by
  rw [cutComments, if_neg (by simp [h])]

/-! ### The tokens of a line without its comments -/

/-- A text is read blank by blank and token by token. -/
@[elab_as_elim]
theorem readingInduction {motive : List Char → Prop} (nil : motive [])
    (blank : ∀ c rest, isBlank c = true → motive rest → motive (c :: rest))
    (token : ∀ c rest, isBlank c = false → motive (rest.drop (extent c rest).2) →
      motive (c :: rest)) (text : List Char) : motive text := by
  induction hlength : text.length using Nat.strongRecOn generalizing text with
  | _ n ih =>
    cases text with
    | nil => exact nil
    | cons c rest =>
      rw [List.length_cons] at hlength
      by_cases hblank : isBlank c = true
      · exact blank c rest hblank (ih rest.length (by omega) rest rfl)
      · have hdrop : (rest.drop (extent c rest).2).length ≤ rest.length := by
          rw [List.length_drop]
          omega
        exact token c rest (by simpa using hblank) (ih _ (by omega) _ rfl)

/-- The second token list says what the first one says, apart from comments at its end. -/
inductive TrimsTo : List Token → List Token → Prop
  | nil : TrimsTo [] []
  | comment {token : Token} {rest : List Token} : token.isComment = true →
    Visibility.ofWord? token.text = none → TrimsTo rest [] → TrimsTo (token :: rest) []
  | cons {token token' : Token} {rest rest' : List Token} : token'.label = token.label →
    TrimsTo rest rest' → TrimsTo (token :: rest) (token' :: rest')

/-- Only two slashes start a comment. -/
theorem kind_extent_eq_comment {first : Char} {rest : List Char} :
    (extent first rest).1 = .comment ↔ first = '/' ∧ rest.head? = some '/' := by
  constructor
  · intro hkind
    by_contra hcomment
    by_cases hquote : first = '"'
    · simp [extent, hquote] at hkind
    by_cases hraw : first = '\''
    · simp [extent, hraw] at hkind
    · exact (isInert_extent hquote hraw hcomment).1.2 hkind
  · intro hcomment
    rw [extent, if_pos hcomment]

/-- No visibility starts with a slash. -/
theorem ofWord?_slash (rest : List Char) :
    Visibility.ofWord? (String.ofList ('/' :: rest)) = none := by
  unfold Visibility.ofWord?
  split
  · next h => simp [String.ext_iff] at h
  · next h => simp [String.ext_iff] at h
  · rfl

theorem cutComments_nil : cutComments [] = [] := by
  rw [cutComments]

/-- A comment ends where its line ends. -/
theorem head?_drop_commentExtent (rest : List Char) :
    ∀ c ∈ (rest.drop (commentExtent rest)).head?, isLineBreak c = true := by
  intro c hc
  rw [commentExtent, drop_length_takeWhile] at hc
  have hbreak := List.head?_dropWhile_not (fun c => !isLineBreak c) rest
  simp_all

theorem head?_cutComments_of_isLineBreak {text : List Char}
    (h : ∀ c ∈ text.head?, isLineBreak c = true) : (cutComments text).head? = text.head? := by
  cases text with
  | nil => rw [cutComments_nil]
  | cons c rest => rw [cutComments_blank (isBlank_of_isLineBreak (h c rfl))]; rfl

theorem sameStart_cutComments (text : List Char) : SameStart text (cutComments text) := by
  cases text with
  | nil => exact .inl (by rw [cutComments_nil])
  | cons c rest =>
    by_cases hblank : isBlank c = true
    · rw [cutComments_blank hblank]
      exact .inl rfl
    rw [Bool.not_eq_true] at hblank
    rw [cutComments_cons hblank]
    split
    · next hcut =>
      have hcomment := kind_extent_eq_comment.1 hcut.1
      have hextent : extent c rest = (.comment, commentExtent rest) := if_pos hcomment
      have hbreak := head?_drop_commentExtent rest
      refine .inr ⟨congrArg some hcomment.1, fun d hd => hbreak d ?_⟩
      rwa [hextent, head?_cutComments_of_isLineBreak hbreak] at hd
    · exact .inl rfl

theorem tokenizeFrom_eq_nil_iff (line column : Nat) (text : List Char) :
    tokenizeFrom line column text = [] ↔ text.all isBlank = true := by
  induction text generalizing column with
  | nil => simp
  | cons c rest ih =>
    by_cases hblank : isBlank c = true
    · rw [tokenizeFrom_blank hblank, ih, List.all_cons, hblank, Bool.true_and]
    · rw [Bool.not_eq_true] at hblank
      rw [tokenizeFrom_cons hblank, List.all_cons, hblank]
      simp

/-- A text that is replaced from some character on. -/
theorem take_drop_cutComments (text : List Char) (n : Nat) :
    (text.take n ++ cutComments (text.drop n)).take n = text.take n ∧
      (text.take n ++ cutComments (text.drop n)).drop n = cutComments (text.drop n) := by
  by_cases hle : n ≤ text.length
  · have hlength : (text.take n).length = n := List.length_take_of_le hle
    exact ⟨List.take_left' hlength, List.drop_left' hlength⟩
  · have hlength : text.length ≤ n := by omega
    rw [List.drop_of_length_le hlength, cutComments_nil, List.append_nil,
      List.take_of_length_le hlength]
    exact ⟨List.take_of_length_le hlength, List.drop_of_length_le hlength⟩

/-- A token is the same in front of a text without the comments at its end. -/
theorem extent_cutComments (c : Char) (rest : List Char) :
    extent c (rest.take (extent c rest).2 ++ cutComments (rest.drop (extent c rest).2)) =
      extent c rest :=
  extent_resume (sameStart_cutComments (rest.drop (extent c rest).2))

theorem trimsTo_cutComments (line column line' column' : Nat) (text : List Char) :
    TrimsTo (tokenizeFrom line column text) (tokenizeFrom line' column' (cutComments text)) := by
  -- Both readers go on behind the same token
  induction text using readingInduction generalizing column column' with
  | nil =>
    rw [cutComments_nil, tokenizeFrom_nil, tokenizeFrom_nil]
    exact .nil
  | blank c rest hblank ih =>
    rw [cutComments_blank hblank, tokenizeFrom_blank hblank, tokenizeFrom_blank hblank]
    exact ih _ _
  | token c rest hblank ih =>
    rw [tokenizeFrom_cons hblank, cutComments_cons hblank]
    by_cases hcut : (extent c rest).1 = .comment ∧
        (cutComments (rest.drop (extent c rest).2)).all isBlank = true
    · -- Nothing but comments is left of the text
      have hnil := (tokenizeFrom_eq_nil_iff line' column' _).2 hcut.2
      obtain ⟨rfl, -⟩ := kind_extent_eq_comment.1 hcut.1
      rw [if_pos hcut, hnil]
      refine .comment ?_ (ofWord?_slash _) (hnil ▸ ih _ column')
      simp [isComment, hcut.1]
    · obtain ⟨htake, hdrop⟩ := take_drop_cutComments rest (extent c rest).2
      rw [if_neg hcut, tokenizeFrom_cons hblank, extent_cutComments, htake, hdrop]
      exact .cons rfl (ih _ _)

/-- The same text says the same wherever it stands. -/
theorem trimsTo_tokenizeFrom (line column line' column' : Nat) (text : List Char) :
    TrimsTo (tokenizeFrom line column text) (tokenizeFrom line' column' text) := by
  induction text using readingInduction generalizing column column' with
  | nil =>
    rw [tokenizeFrom_nil, tokenizeFrom_nil]
    exact .nil
  | blank c rest hblank ih =>
    rw [tokenizeFrom_blank hblank, tokenizeFrom_blank hblank]
    exact ih _ _
  | token c rest hblank ih =>
    rw [tokenizeFrom_cons hblank, tokenizeFrom_cons hblank]
    exact .cons rfl (ih _ _)

/-! ### Tests of tokens -/

/-- A test that looks at what a token says, and that no comment passes. -/
structure IsCodeTest (p : Token → Bool) : Prop where
  label : ∀ {token token' : Token}, token'.label = token.label → p token' = p token
  comment : ∀ {token : Token}, token.isComment = true → p token = false

theorem IsCodeTest.not_label {p : Token → Bool} (hp : IsCodeTest p) {token token' : Token}
    (h : token'.label = token.label) : (!p token') = !p token := by
  rw [hp.label h]

theorem isCodeTest_isIdentifier : IsCodeTest isIdentifier where
  label h := by rw [isIdentifier_eq, h, isIdentifier_eq]
  comment h := by simp_all [isComment, isIdentifier]

theorem isCodeTest_isKeyword (word : String) : IsCodeTest (·.isKeyword word) where
  label h := by rw [isKeyword_eq, h, isKeyword_eq]
  comment h := by simp_all [isComment, isKeyword]

theorem isCodeTest_isKeywordOf (words : List String) : IsCodeTest (·.isKeywordOf words) where
  label h := by rw [isKeywordOf, kind_of_label_eq h, text_of_label_eq h, isKeywordOf]
  comment h := by simp_all [isComment, isKeywordOf]

theorem isCodeTest_isOperator (sign : String) : IsCodeTest (·.isOperator sign) where
  label h := by rw [isOperator_eq, h, isOperator_eq]
  comment h := by simp_all [isComment, isOperator]

/-! ### Reading both lists -/

namespace TrimsTo

variable {tokens tokens' : List Token} {p : Token → Bool}

theorem any (h : TrimsTo tokens tokens') (hp : IsCodeTest p) : tokens'.any p = tokens.any p := by
  induction h with
  | nil => rfl
  | comment hcomment _ _ ih => rw [List.any_cons, hp.comment hcomment, Bool.false_or, ih]
  | cons hlabel _ ih => rw [List.any_cons, List.any_cons, hp.label hlabel, ih]

theorem takeWhile (h : TrimsTo tokens tokens')
    (hp : ∀ {token token' : Token}, token'.label = token.label → p token' = p token) :
    TrimsTo (tokens.takeWhile p) (tokens'.takeWhile p) := by
  induction h with
  | nil => exact .nil
  | @comment token rest hcomment hword _ ih =>
    by_cases htoken : p token = true
    · simpa [htoken] using .comment hcomment hword ih
    · simpa [htoken] using .nil
  | @cons token token' rest rest' hlabel _ ih =>
    by_cases htoken : p token = true
    · simpa [htoken, hp hlabel] using .cons hlabel ih
    · simpa [htoken, hp hlabel] using .nil

theorem dropWhile (h : TrimsTo tokens tokens')
    (hp : ∀ {token token' : Token}, token'.label = token.label → p token' = p token) :
    TrimsTo (tokens.dropWhile p) (tokens'.dropWhile p) := by
  induction h with
  | nil => exact .nil
  | @comment token rest hcomment hword hrest ih =>
    by_cases htoken : p token = true
    · simpa [htoken] using ih
    · simpa [htoken] using .comment hcomment hword hrest
  | @cons token token' rest rest' hlabel hrest ih =>
    by_cases htoken : p token = true
    · simpa [htoken, hp hlabel] using ih
    · simpa [htoken, hp hlabel] using .cons hlabel hrest

/-- The first token that passes a test is found in both lists or in neither. -/
theorem dropWhile_not_cases (h : TrimsTo tokens tokens') (hp : IsCodeTest p) :
    (tokens.dropWhile (!p ·) = [] ∧ tokens'.dropWhile (!p ·) = []) ∨
      ∃ token token' rest rest', tokens.dropWhile (!p ·) = token :: rest ∧
        tokens'.dropWhile (!p ·) = token' :: rest' ∧ TrimsTo rest rest' := by
  induction h with
  | nil => exact .inl ⟨rfl, rfl⟩
  | comment hcomment _ _ ih => simpa [hp.comment hcomment] using ih
  | @cons token token' rest rest' hlabel hrest ih =>
    by_cases htoken : p token = true
    · exact .inr ⟨token, token', rest, rest', by simp [htoken], by simp [htoken, hp.label hlabel],
        hrest⟩
    · simpa [htoken, hp.label hlabel] using ih

theorem after?_cases (h : TrimsTo tokens tokens') (hp : IsCodeTest p) :
    (after? p tokens = none ∧ after? p tokens' = none) ∨
      ∃ rest rest', after? p tokens = some rest ∧ after? p tokens' = some rest' ∧
        TrimsTo rest rest' := by
  induction h with
  | nil => exact .inl ⟨rfl, rfl⟩
  | comment hcomment _ _ ih => simpa [after?, hp.comment hcomment] using ih
  | @cons token token' rest rest' hlabel hrest ih =>
    by_cases htoken : p token = true
    · exact .inr ⟨rest, rest', if_pos htoken, if_pos ((hp.label hlabel).trans htoken), hrest⟩
    · simpa [after?, htoken, hp.label hlabel] using ih

theorem texts_filter (h : TrimsTo tokens tokens') (hp : IsCodeTest p) :
    (tokens'.filter p).map Token.text = (tokens.filter p).map Token.text := by
  induction h with
  | nil => rfl
  | comment hcomment _ _ ih =>
    rw [List.filter_cons_of_neg (by simp [hp.comment hcomment])]
    exact ih
  | @cons token token' rest rest' hlabel _ ih =>
    have htext := text_of_label_eq hlabel
    by_cases htoken : p token = true
    · simp [htoken, hp.label hlabel, htext, ih]
    · simp [htoken, hp.label hlabel, ih]

theorem leadingIdentifier?_eq (h : TrimsTo tokens tokens') :
    leadingIdentifier? tokens' = leadingIdentifier? tokens := by
  cases h with
  | nil => rfl
  | comment hcomment _ _ =>
    simp [leadingIdentifier?, isCodeTest_isIdentifier.comment hcomment]
  | cons hlabel _ =>
    simp [leadingIdentifier?, isCodeTest_isIdentifier.label hlabel, text_of_label_eq hlabel]

theorem any_isComment_head? (h : TrimsTo tokens tokens')
    (hhead : tokens.head?.any isComment = false) : tokens'.head?.any isComment = false := by
  cases h with
  | nil => rfl
  | comment hcomment _ _ => simp [hcomment] at hhead
  | cons hlabel _ =>
    have hkind := kind_of_label_eq hlabel
    simpa [isComment, hkind] using hhead

theorem tail (h : TrimsTo tokens tokens') : TrimsTo tokens.tail tokens'.tail := by
  cases h with
  | nil => exact .nil
  | comment _ _ hrest => exact hrest
  | cons _ hrest => exact hrest

theorem dropKeyword (h : TrimsTo tokens tokens') (word : String) :
    (Token.dropKeyword word tokens').1 = (Token.dropKeyword word tokens).1 ∧
      TrimsTo (Token.dropKeyword word tokens).2 (Token.dropKeyword word tokens').2 := by
  have hp := isCodeTest_isKeyword word
  cases h with
  | nil => exact ⟨rfl, .nil⟩
  | comment hcomment hword hrest =>
    simpa [Token.dropKeyword, hp.comment hcomment] using .comment hcomment hword hrest
  | @cons token token' rest rest' hlabel hrest =>
    rw [Token.dropKeyword, Token.dropKeyword, hp.label hlabel]
    by_cases htoken : token.isKeyword word = true
    · rw [if_pos htoken, if_pos htoken]
      exact ⟨rfl, hrest⟩
    · rw [if_neg htoken, if_neg htoken]
      exact ⟨rfl, .cons hlabel hrest⟩

end TrimsTo

end JassOutline.Token
