import JassOutline.Proofs.Declaration.Attachment
import JassOutline.Proofs.Declaration.Trailing
import JassOutline.Proofs.LineEnd.Token
import JassOutline.Proofs.Outline.Uncommented
import JassOutline.TextMacro.Invocation

/-!
# Lines that differ in their ends

`SourceLine.Alike` relates a line that ends with a line feed to the same line with a carriage return
in front of that line feed. Both lines are the same directive, open and close the same block,
invoke the same macro and declare the same. Their tokens are the same as well, but for the blank
that the carriage return leaves behind a comment if the line ends inside of a block comment.

## Key results

- `Directive.ofChars?_append`, `Directive.unmark_append`: directives in front of a line end
- `Alike.tokens_eq`, `Alike.directiveTokens_eq`: the tokens of both lines
- `Alike.role`, `Alike.comment`, `Alike.exists_trimsTo`: what both lines mean and declare
- `Alike.signature?`, `Alike.invocation`: what both lines say about macros
-/

namespace JassOutline

open Text Token

/-! ### Directives in front of a line end -/

section

variable (ending : LineEnd) (text : List Char)

theorem Text.trimStart_append :
    trimStart (text ++ ending.chars) =
      if (trimStart text).isEmpty then [] else trimStart text ++ ending.chars := by
  have hchars : ending.chars.dropWhile isBlank = [] :=
    List.dropWhile_eq_nil_iff.2 (List.all_eq_true.1 ending.isBlank_chars)
  rw [trimStart, List.dropWhile_append, hchars, trimStart]

theorem Text.dropLeading?_append_chars {opening : List Char}
    (h : ∀ a ∈ opening, isBlank a = false) :
    dropLeading? opening (text ++ ending.chars) =
      (dropLeading? opening text).map (· ++ ending.chars) := by
  induction opening generalizing text with
  | nil => rfl
  | cons a opening ih =>
    obtain ⟨ha, hopening⟩ := List.forall_mem_cons.1 h
    cases text with
    | nil =>
      -- The line end starts with a blank, and so not with the opening
      cases hchars : ending.chars with
      | nil => rfl
      | cons c rest =>
        have hc : isBlank c = true :=
          List.all_eq_true.1 ending.isBlank_chars c (hchars ▸ List.mem_cons_self)
        have hne : a ≠ c := fun heq => by simp [heq, hc] at ha
        rw [List.nil_append, dropLeading?, dropLeading?, if_neg hne, Option.map_none]
    | cons c text =>
      rw [List.cons_append, dropLeading?, dropLeading?]
      split
      · exact ih text hopening
      · rfl

theorem Text.startsWith_trimStart_append {a : Char} {opening : List Char}
    (h : ∀ c ∈ a :: opening, isBlank c = false) :
    startsWith (a :: opening) (trimStart (text ++ ending.chars)) =
      startsWith (a :: opening) (trimStart text) := by
  rw [trimStart_append]
  split
  · next hempty => rw [List.isEmpty_iff.1 hempty]
  · rw [startsWith, dropLeading?_append_chars _ _ h, Option.isSome_map, startsWith]

theorem excludes_isWordChar : LineEnd.Excludes isWordChar := by decide

theorem Text.leadingWord_append :
    leadingWord (trimStart (text ++ ending.chars)) = leadingWord (trimStart text) := by
  rw [trimStart_append]
  split
  · next hempty => rw [List.isEmpty_iff.1 hempty]
  · exact ending.takeWhile_append excludes_isWordChar _

namespace Directive

theorem isMarked_append : isMarked (text ++ ending.chars) = isMarked text :=
  startsWith_trimStart_append ending text (by simp [isBlank])

/-- A directive is the same in front of any line end. -/
theorem ofChars?_append : ofChars? (text ++ ending.chars) = ofChars? text := by
  rw [ofChars?, ofChars?, trimStart_append]
  split_ifs with hempty
  · rw [List.isEmpty_iff.1 hempty]
  rw [dropLeading?_append_chars ending _ (by simp [marker, isBlank])]
  cases dropLeading? marker (trimStart text) with
  | none => rfl
  | some rest =>
    simp only [Option.map_some, leadingWord_append]
    cases rest with
    | nil =>
      -- Behind a marker alone there is no word
      have hnone : ofWord? (String.ofList (leadingWord (trimStart []))) = none := rfl
      rw [hnone, ite_self, ite_self]
    | cons c rest => rfl

theorem unmark_append : unmark (text ++ ending.chars) = unmark text ++ ending.chars := by
  have hchars : unmark ending.chars = ending.chars := by cases ending <;> rfl
  fun_induction unmark text with
  | case1 => exact hchars
  | case2 rest => rfl
  | case3 c rest hmarker ih =>
    rw [List.cons_append, unmark, ih, List.cons_append]
    -- The line end does not complete a marker
    rintro behind rfl hbehind
    match rest with
    | [] => cases ending <;> simp [LineEnd.chars] at hbehind
    | [d] => cases ending <;> simp [LineEnd.chars] at hbehind
    | d :: e :: rest => simp_all

theorem mem_unmark {c : Char} (h : c ∈ unmark text) : c = ' ' ∨ c ∈ text := by
  fun_induction unmark text with
  | case1 => cases h
  | case2 rest =>
    simp only [List.mem_cons] at h ⊢
    grind
  | case3 d rest hmarker ih =>
    rcases List.mem_cons.1 h with rfl | h
    · exact .inr List.mem_cons_self
    · exact (ih h).imp_right (List.mem_cons_of_mem _)

/-- A directive stands on one line without its marker as well. -/
theorem isLineBreak_unmark {text : List Char} (h : ∀ c ∈ text, isLineBreak c = false) :
    ∀ c ∈ unmark text, isLineBreak c = false := fun c hc => by
  obtain rfl | hc := mem_unmark text hc
  · rfl
  · exact h c hc

end Directive

end

/-! ### Lines that differ in their ends -/

/-- How a line ends, and how it ends with a carriage return in front of the line feed. The flag
tells whether the line ends inside of a block comment. -/
inductive LineEnd.Answers : Bool → LineEnd → LineEnd → Prop where
  | absent : Answers false .absent .absent
  | outside : Answers false .feed .returnAndFeed
  | inside : Answers true .feed .blankAndFeed

/-- The token with one more blank at its end, if it is a comment and its line is among the given
ones. -/
def Token.pad (isOpen : Nat → Bool) (token : Token) : Token :=
  if isOpen token.line then token.withBlank else token

/-- The comment with one more blank at its end, if its line is among the given ones. -/
def CommentLine.pad (isOpen : Nat → Bool) (comment : CommentLine) : CommentLine :=
  if isOpen comment.region.start.line then
    { text := comment.text ++ " "
      region := comment.region.withStop
        ⟨comment.region.stop.line, comment.region.stop.column + 1⟩ }
  else comment

/-- The second line is the first one with a carriage return in front of its line feed, or with a
blank if the line is among the given ones. -/
structure SourceLine.Alike (isOpen : Nat → Bool) (record record' : SourceLine) : Prop where
  line_eq : record'.line = record.line
  exists_body : ∃ body ending ending', LineEnd.Answers (isOpen record.line) ending ending' ∧
    (∀ c ∈ body, isLineBreak c = false) ∧
    record.text.toList = body ++ ending.chars ∧ record'.text.toList = body ++ ending'.chars

section

variable {isOpen : Nat → Bool}

theorem LineEnd.Answers.absent_or_feed {flag : Bool} {ending ending' : LineEnd}
    (h : Answers flag ending ending') : ending = .absent ∨ ending = .feed := by
  cases h with
  | absent => exact .inl rfl
  | outside => exact .inr rfl
  | inside => exact .inr rfl

theorem LineEnd.Answers.stretch_left {flag : Bool} {ending ending' : LineEnd}
    (h : Answers flag ending ending') (token : Token) : ending.stretch token = token := by
  cases h <;> rfl

/-- The line end of the first line adds nothing to its tokens. -/
theorem LineEnd.Answers.tokenize_left {flag : Bool} {ending ending' : LineEnd}
    (h : Answers flag ending ending') {line : Nat} {body : List Char}
    (hbreak : ∀ c ∈ body, isLineBreak c = false) :
    tokenize line (body ++ ending.chars) = tokenize line body := by
  rw [tokenize, tokenizeFrom_append hbreak (h.absent_or_feed.imp_right .inl)]
  exact List.map_id'' h.stretch_left _

theorem LineEnd.Answers.stretch_right {ending ending' : LineEnd} {token : Token}
    (h : Answers (isOpen token.line) ending ending') :
    ending'.stretch token = token.pad isOpen := by
  rw [Token.pad]
  generalize isOpen token.line = flag at h
  cases h <;> rfl

namespace Token

@[simp] theorem kind_withBlank (token : Token) : token.withBlank.kind = token.kind := by
  rw [withBlank]
  split <;> rfl

@[simp] theorem kind_pad (token : Token) : (token.pad isOpen).kind = token.kind := by
  rw [pad]
  split
  · exact token.kind_withBlank
  · rfl

@[simp] theorem isComment_pad (token : Token) : (token.pad isOpen).isComment = token.isComment := by
  rw [isComment, kind_pad, isComment]

theorem pad_of_not_isComment {token : Token} (h : token.isComment = false) :
    token.pad isOpen = token := by
  rw [pad, withBlank_of_not_isComment h, ite_self]

/-- A test that no comment passes does not see what a comment says. -/
theorem IsCodeTest.pad {p : Token → Bool} (hp : IsCodeTest p) (token : Token) :
    p (token.pad isOpen) = p token := by
  cases hcomment : token.isComment with
  | false => rw [pad_of_not_isComment hcomment]
  | true =>
    rw [hp.comment hcomment, hp.comment]
    rw [isComment_pad, hcomment]

/-- A comment and its text grow together. -/
theorem commentLine_pad {token : Token} (h : token.isComment = true) :
    (⟨(token.pad isOpen).text, (token.pad isOpen).region⟩ : CommentLine) =
      CommentLine.pad isOpen ⟨token.text, token.region⟩ := by
  rw [pad, CommentLine.pad, withBlank, if_pos h]
  change _ = if isOpen token.line = true then _ else _
  split <;> rfl

/-- The tokens of a line whose literals are closed, in front of either end. -/
theorem tokenize_of_answers {line : Nat} {ending ending' : LineEnd} {body : List Char}
    (h : LineEnd.Answers (isOpen line) ending ending')
    (hbreak : ∀ c ∈ body, isLineBreak c = false)
    (hclosed : ∀ token ∈ tokenize line (body ++ ending.chars), token.isClosed = true) :
    tokenize line (body ++ ending'.chars) =
      (tokenize line (body ++ ending.chars)).map (Token.pad isOpen) := by
  rw [h.tokenize_left hbreak] at hclosed ⊢
  rw [tokenize, tokenizeFrom_append hbreak (.inr (.inr hclosed))]
  refine List.map_congr_left fun token htoken => ?_
  rw [← line_of_mem_tokenizeFrom htoken] at h
  exact h.stretch_right

end Token

namespace SourceLine.Alike

variable {record record' : SourceLine}

theorem directive (h : Alike isOpen record record') :
    Directive.ofLine? record' = Directive.ofLine? record := by
  obtain ⟨body, ending, ending', -, -, htext, htext'⟩ := h.exists_body
  rw [Directive.ofLine?, Directive.ofLine?, htext, htext', Directive.ofChars?_append,
    Directive.ofChars?_append]

theorem tokens_eq (h : Alike isOpen record record')
    (hclosed : ∀ token ∈ record.tokens, token.isClosed = true) :
    record'.tokens = record.tokens.map (Token.pad isOpen) := by
  obtain ⟨body, ending, ending', hends, hbreak, htext, htext'⟩ := h.exists_body
  rw [tokens, htext] at hclosed
  rw [tokens, tokens, h.line_eq, htext, htext']
  exact tokenize_of_answers hends hbreak hclosed

theorem directiveTokens_eq (h : Alike isOpen record record')
    (hclosed : ∀ token ∈ TextMacro.directiveTokens record, token.isClosed = true) :
    TextMacro.directiveTokens record' =
      (TextMacro.directiveTokens record).map (Token.pad isOpen) := by
  obtain ⟨body, ending, ending', hends, hbreak, htext, htext'⟩ := h.exists_body
  rw [TextMacro.directiveTokens, htext, Directive.unmark_append] at hclosed
  rw [TextMacro.directiveTokens, TextMacro.directiveTokens, h.line_eq, htext, htext',
    Directive.unmark_append, Directive.unmark_append]
  exact tokenize_of_answers hends (Directive.isLineBreak_unmark hbreak) hclosed

/-- Both lines say the same as some line without a comment. -/
theorem exists_trimsTo (h : Alike isOpen record record')
    (hclosed : ∀ token ∈ record.tokens, token.isClosed = true) :
    ∃ bare : SourceLine, TrimsTo record.tokens bare.tokens ∧
      TrimsTo record'.tokens bare.tokens := by
  obtain ⟨body, ending, ending', hends, hbreak, htext, htext'⟩ := h.exists_body
  have htokens : record.tokens = (tokenize record.line body).map ending.stretch := by
    rw [tokens, htext]
    exact tokenizeFrom_append hbreak (hends.absent_or_feed.imp_right .inl)
  rw [tokens, htext, hends.tokenize_left hbreak] at hclosed
  have htokens' : record'.tokens = (tokenize record.line body).map ending'.stretch := by
    rw [tokens, h.line_eq, htext']
    exact tokenizeFrom_append hbreak (.inr (.inr hclosed))
  refine ⟨record.withText (cutComments body), ?_, ?_⟩
  · rw [htokens, tokens, line_withText, withText, String.toList_ofList]
    exact trimsTo_map_stretch ending hbreak
  · rw [htokens', tokens, line_withText, withText, String.toList_ofList]
    exact trimsTo_map_stretch ending' hbreak

theorem role (h : Alike isOpen record record')
    (hclosed : ∀ token ∈ record.tokens, token.isClosed = true) :
    LineRole.ofLine record' = LineRole.ofLine record := by
  -- The words of both lines are those of the same line without a comment
  obtain ⟨bare, hbare, hbare'⟩ := h.exists_trimsTo hclosed
  obtain ⟨body, ending, ending', -, -, htext, htext'⟩ := h.exists_body
  have hslashes : ∀ c ∈ ['/', '/'], isBlank c = false := by simp [isBlank]
  rw [LineRole.ofLine, LineRole.ofLine, htext, htext', startsWith_trimStart_append _ _ hslashes,
    startsWith_trimStart_append _ _ hslashes, Directive.isMarked_append, Directive.isMarked_append,
    ← LineRole.ofTokens_trimsTo hbare, ← LineRole.ofTokens_trimsTo hbare']

/-- The comment of a line takes the blank with it. -/
theorem comment (h : Alike isOpen record record')
    (hclosed : ∀ token ∈ record.tokens, token.isClosed = true)
    (hrole : LineRole.ofLine record = .comment) :
    CommentLine.ofLine record' = (CommentLine.ofLine record).pad isOpen := by
  obtain ⟨token, rest, htokens, hcomment⟩ := exists_tokens_of_comment hrole
  have htokens' := h.tokens_eq hclosed
  rw [htokens, List.map_cons] at htokens'
  have hfind : record.tokens.find? isComment = some token := by
    rw [htokens, List.find?_cons_of_pos hcomment]
  have hfind' : record'.tokens.find? isComment = some (token.pad isOpen) := by
    rw [htokens', List.find?_cons_of_pos (by simpa using hcomment)]
  rw [CommentLine.ofLine, CommentLine.ofLine, hfind, hfind']
  exact commentLine_pad hcomment

end SourceLine.Alike

/-! ### Definitions and invocations of macros -/

theorem Token.isCodeTest_isString : IsCodeTest isString where
  label h := by rw [isString, kind_of_label_eq h, isString]
  comment h := by simp_all [isComment, isString]

/-- A token that passes a test that no comment passes has no blank to take. -/
theorem Token.pad_of_passes {p : Token → Bool} (hp : IsCodeTest p) {token : Token}
    (h : p token = true) : token.pad isOpen = token := by
  refine pad_of_not_isComment ?_
  by_contra hcomment
  rw [hp.comment (by simpa using hcomment)] at h
  cases h

namespace TextMacro

theorem listItems_map_pad {accept : Token → Bool} (hp : IsCodeTest accept) (expecting : Bool)
    (tokens : List Token) :
    listItems accept expecting (tokens.map (Token.pad isOpen)) =
      listItems accept expecting tokens := by
  induction tokens generalizing expecting with
  | nil => rfl
  | cons token rest ih =>
    rw [List.map_cons, listItems, listItems, (isCodeTest_isOperator ")").pad,
      (isCodeTest_isOperator ",").pad, hp.pad, ih, ih, ih]
    by_cases haccept : accept token = true
    · rw [pad_of_passes hp haccept]
    · simp only [haccept, Bool.false_eq_true, if_false]

theorem parametersOf_map_pad (tokens : List Token) :
    parametersOf (tokens.map (Token.pad isOpen)) = parametersOf tokens := by
  cases tokens with
  | nil => rfl
  | cons token rest =>
    rw [List.map_cons, parametersOf, parametersOf, (isCodeTest_isOperator "(").pad,
      (isCodeTest_isKeyword "takes").pad, listItems_map_pad isCodeTest_isIdentifier]

end TextMacro

namespace Invocation

theorem argumentsOf_map_pad (tokens : List Token) :
    argumentsOf (tokens.map (Token.pad isOpen)) = argumentsOf tokens := by
  cases tokens with
  | nil => rfl
  | cons token rest =>
    rw [List.map_cons, argumentsOf, argumentsOf, (isCodeTest_isOperator "(").pad,
      TextMacro.listItems_map_pad isCodeTest_isString]

theorem target_map_pad (tokens : List Token) :
    target (tokens.map (Token.pad isOpen)) = target tokens := by
  cases tokens with
  | nil => rfl
  | cons token rest =>
    rw [List.map_cons, target, target, isCodeTest_isIdentifier.pad, argumentsOf_map_pad]
    split
    · next hname => rw [pad_of_passes isCodeTest_isIdentifier hname]
    · rfl

end Invocation

theorem Token.dropKeyword_map_pad (word : String) (tokens : List Token) :
    dropKeyword word (tokens.map (Token.pad isOpen)) =
      ((dropKeyword word tokens).1, (dropKeyword word tokens).2.map (Token.pad isOpen)) := by
  cases tokens with
  | nil => rfl
  | cons token rest =>
    rw [List.map_cons, dropKeyword, dropKeyword, (isCodeTest_isKeyword word).pad]
    split <;> rfl

namespace SourceLine.Alike

variable {record record' : SourceLine}

/-- Both lines open a definition of the same name and parameters. -/
theorem signature? (h : Alike isOpen record record')
    (hclosed : ∀ token ∈ TextMacro.directiveTokens record, token.isClosed = true) :
    TextMacro.signature? record' = TextMacro.signature? record := by
  rw [TextMacro.signature?, TextMacro.signature?, h.directiveTokens_eq hclosed]
  match TextMacro.directiveTokens record with
  | [] => rfl
  | [_] => rfl
  | first :: name :: rest =>
    simp only [List.map_cons, isCodeTest_isIdentifier.pad, TextMacro.parametersOf_map_pad]
    split
    · next hname => rw [pad_of_passes isCodeTest_isIdentifier hname]
    · rfl

/-- Both lines make the same request. -/
theorem invocation (h : Alike isOpen record record')
    (hclosed : ∀ token ∈ TextMacro.directiveTokens record, token.isClosed = true) :
    Invocation.ofLine record' = { Invocation.ofLine record with site := record' } := by
  simp only [Invocation.ofLine, h.directiveTokens_eq hclosed, Token.dropKeyword_map_pad,
    Invocation.target_map_pad]

end SourceLine.Alike

end

end JassOutline
