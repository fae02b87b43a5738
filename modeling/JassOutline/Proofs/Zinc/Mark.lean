import JassOutline.Proofs.Token.Label
import JassOutline.Proofs.Writing.Bare
import JassOutline.Proofs.Zinc.Loop

/-!
# Marks of lexemes

A `Mark` is what a lexeme says apart from where it stands: the label of its token and the texts of
the comments in front of it. The reader of lexemes finds the marks in every token list that says
their labels one after the other.

## Key results

- `Lexeme.mark_ofTokens`: the lexemes of a token list that says marks have these marks
- `commaSeparated_single`, `commaSeparated_cons`: one step of a list with commas
-/

namespace JassOutline.Zinc

/-- What a lexeme says apart from its place. -/
structure Mark where
  label : Label
  comments : List String
  deriving DecidableEq, Repr

namespace Mark

/-- A lexeme without comments. -/
def plain (label : Label) : Mark := ⟨label, []⟩

/-- The labels in a row, the first of them below the comments. -/
def below (comments : List CommentLine) : List Label → List Mark
  | [] => []
  | first :: rest => ⟨first, comments.map CommentLine.text⟩ :: rest.map plain

/-- The labels of the tokens that a lexeme is made of: its comments and its token. -/
def labels (mark : Mark) : List Label :=
  mark.comments.map .comment ++ [mark.label]

@[simp] theorem label_below (comments : List CommentLine) (labels : List Label) :
    (below comments labels).map label = labels := by
  cases labels with
  | nil => rfl
  | cons first rest => simp [below, plain, Function.comp_def]

end Mark

namespace Lexeme

/-- What the lexeme says. -/
def mark (lexeme : Lexeme) : Mark :=
  ⟨lexeme.token.label, lexeme.comments.map CommentLine.text⟩

/-- What the token of the lexeme says. -/
def label (lexeme : Lexeme) : Label := lexeme.token.label

variable {lexemes : List Lexeme}

theorem label_of_mark {marks : List Mark} (h : lexemes.map mark = marks) :
    lexemes.map label = marks.map Mark.label := by
  rw [← h, List.map_map]
  rfl

theorem marks_eq_append {front back : List Mark} :
    lexemes.map mark = front ++ back ↔
      ∃ before behind, lexemes = before ++ behind ∧ before.map mark = front ∧
        behind.map mark = back :=
  List.map_eq_append_iff

theorem labels_eq_append {front back : List Label} :
    lexemes.map label = front ++ back ↔
      ∃ before behind, lexemes = before ++ behind ∧ before.map label = front ∧
        behind.map label = back :=
  List.map_eq_append_iff

theorem labels_eq_cons {first : Label} {rest : List Label} :
    lexemes.map label = first :: rest ↔
      ∃ lexeme later, lexemes = lexeme :: later ∧ lexeme.token.label = first ∧
        later.map label = rest :=
  List.map_eq_cons_iff

/-- The comments of a row stand in front of its first lexeme. -/
theorem comments_of_below {comments : List CommentLine} {labels : List Label} {first : Lexeme}
    {rest : List Lexeme} (h : (first :: rest).map mark = Mark.below comments labels) :
    first.comments.map CommentLine.text = comments.map CommentLine.text := by
  cases labels with
  | nil => cases h
  | cons => exact congrArg Mark.comments (List.cons.inj h).1

/-- Comments in front of a token are gathered. -/
theorem ofTokensAfter_comments {comments : List String} {tokens : List Token}
    (h : tokens.map Token.label = comments.map .comment) (given : List CommentLine)
    (rest : List Token) :
    ∃ gathered, gathered.map CommentLine.text = given.map CommentLine.text ++ comments ∧
      ofTokensAfter given (tokens ++ rest) = ofTokensAfter gathered rest := by
  induction comments generalizing tokens given with
  | nil =>
    obtain rfl : tokens = [] := by simpa using h
    exact ⟨given, by simp, rfl⟩
  | cons comment comments ih =>
    obtain ⟨token, later, rfl, htoken, hlater⟩ := Token.labels_eq_cons.1 h
    have hcomment : token.isComment = true := by
      rw [Token.isComment, show token.kind = .comment from congrArg Label.kind htoken]
      rfl
    have htext : (commentOf token).text = comment := congrArg Label.text htoken
    obtain ⟨gathered, htexts, hread⟩ := ih hlater (given ++ [commentOf token])
    refine ⟨gathered, ?_, ?_⟩
    · rw [htexts]
      simp [htext]
    · rw [List.cons_append, ofTokensAfter, if_pos hcomment, hread]

/-- The lexemes of a token list that says marks have these marks. -/
theorem mark_ofTokens {marks : List Mark} {tokens : List Token}
    (h : tokens.map Token.label = marks.flatMap Mark.labels)
    (hmarks : ∀ m ∈ marks, m.label.kind ≠ .comment) :
    (ofTokens tokens).map mark = marks := by
  induction marks generalizing tokens with
  | nil =>
    obtain rfl : tokens = [] := by simpa using h
    rfl
  | cons m marks ih =>
    -- Each mark is a run of comments with the token behind them
    obtain ⟨front, behind, rfl, hfront, hbehind⟩ := Token.labels_eq_append.1 h
    obtain ⟨comments, last, rfl, hcomments, hlast⟩ := Token.labels_eq_append.1 hfront
    obtain ⟨token, later, rfl, htoken, hlater⟩ := Token.labels_eq_cons.1 hlast
    obtain rfl : later = [] := by simpa using hlater
    obtain ⟨gathered, htexts, hread⟩ :=
      ofTokensAfter_comments hcomments [] (token :: behind)
    have hkind : token.isComment = false := by
      have hne := hmarks m List.mem_cons_self
      rw [← htoken] at hne
      exact beq_eq_false_iff_ne.2 hne
    have hrest := ih hbehind fun n hn => hmarks n (List.mem_cons_of_mem _ hn)
    have hmark : mark ⟨token, gathered⟩ = m := by
      rw [mark, htoken, htexts]
      rfl
    rw [ofTokens, List.append_assoc, List.singleton_append, hread, ofTokensAfter, hkind,
      if_neg Bool.false_ne_true, List.map_cons, hmark]
    exact congrArg (m :: ·) hrest

end Lexeme

/-- Comments with the same texts are the same up to their places. -/
theorem bare_of_text {given comments : List CommentLine}
    (h : given.map CommentLine.text = comments.map CommentLine.text) :
    given.map CommentLine.bare = comments.map CommentLine.bare := by
  have hbare : ∀ comments : List CommentLine, comments.map CommentLine.bare =
      (comments.map CommentLine.text).map fun text => ⟨text, .empty⟩ := by
    simp [CommentLine.bare, Function.comp_def]
  rw [hbare, hbare, h]

/-! ### Single lexemes -/

variable {lexeme : Lexeme} {front more : List Lexeme} {text : String}

theorem startsWithSign_of_sign (h : lexeme.token.label = .sign text) (wanted : String) :
    startsWithSign wanted (lexeme :: more) = (text == wanted) :=
  Token.isOperator_of_sign h wanted

theorem startsWithSign_of_word (h : lexeme.token.label = .word text) (wanted : String) :
    startsWithSign wanted (lexeme :: more) = false :=
  Token.isOperator_of_word h wanted

theorem acceptKeyword_of_word (h : lexeme.token.label = .word text) (words : List String) :
    acceptKeyword words (lexeme :: more) =
      if words.contains text then (true, more) else (false, lexeme :: more) := by
  rw [acceptKeyword, Token.isKeywordOf_of_word h]

theorem acceptKeyword_of_sign (h : lexeme.token.label = .sign text) (words : List String) :
    acceptKeyword words (lexeme :: more) = (false, lexeme :: more) := by
  have hkind : lexeme.token.kind = .operator := congrArg Label.kind h
  simp [acceptKeyword, Token.isKeywordOf, hkind]

theorem identifier_of_word (h : lexeme.token.label = .word text) (expected : Expected) :
    identifier expected (lexeme :: more) = .ok (lexeme.token, more) := by
  rw [identifier, if_pos (Token.isIdentifier_of_word h)]

theorem sign_of_sign (h : lexeme.token.label = .sign text) :
    sign text (lexeme :: more) = .ok (lexeme.token, more) := by
  simp [sign, Token.isOperator_of_sign h]

/-! ### Lists -/

variable {α : Type} {item : List Lexeme → Reading α} {hitem : Consumes item} {value : α}

/-- A list ends behind an item that no comma follows. -/
theorem commaSeparated_single {lexemes rest : List Lexeme} (h : item lexemes = .ok (value, rest))
    (hcomma : startsWithSign "," rest = false) :
    commaSeparated item hitem lexemes = .ok ([value], rest) := by
  rw [commaSeparated_eq_bind, h]
  exact if_neg (by simp [hcomma])

/-- A list goes on behind an item that a comma follows. -/
theorem commaSeparated_cons {lexemes rest behind : List Lexeme} {values : List α}
    (h : item lexemes = .ok (value, lexeme :: rest)) (hcomma : lexeme.token.label = .sign ",")
    (hrest : commaSeparated item hitem rest = .ok (values, behind)) :
    commaSeparated item hitem lexemes = .ok (value :: values, behind) := by
  rw [commaSeparated_eq_bind, h]
  simp [startsWithSign_of_sign hcomma, hrest, Except.bind]

end JassOutline.Zinc
