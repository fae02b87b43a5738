import JassOutline.Proofs.Bounds.Fault
import JassOutline.Zinc.Reading

/-!
# A cursor over a token list

The readers of the grammar take lexemes from a list, and what they leave is the rest of the list. A
`Cursor` is the same reader by positions: it stands at a position of the token list, keeps the
comments it has passed since the last token it took, and knows where that token ended. A `Step`
moves the cursor. Besides failing with an error of the grammar, it can fault: it can look outside
of the token list, count below zero or go round in a loop without taking a token.

`Mirrors` relates a step to a reader: with the same lexemes ahead both do the same, and so the step
has no fault.

## Key results

- `Ahead.left_lt`: where fewer lexemes are ahead, the cursor has moved on
- `Agrees.bind`: one step after another
- `agrees_loop_of`: a loop whose rounds agree with a reader
-/

namespace JassOutline.Zinc

/-- A position in a token list. -/
structure Cursor where
  tokens : List Token
  pos : Nat
  /-- The comments passed since a token was taken, unless they were asked for. -/
  comments : List CommentLine
  /-- The end of the token that was taken last. -/
  lastStop : Position

/-- Why a step is not made. -/
inductive Stop where
  | fault (fault : Fault)
  | error (error : ZincError)

/-- A step of a cursor. -/
abbrev Step := Checked Cursor Stop

namespace Cursor

/-- The cursor in front of all tokens. -/
def start (tokens : List Token) : Cursor := ⟨tokens, 0, [], .origin⟩

/-- The number of tokens that the cursor has not passed. -/
def left (cursor : Cursor) : Nat :=
  cursor.tokens.length - cursor.pos

/-- The comments directly ahead. -/
def commentsAhead (cursor : Cursor) : List Token :=
  (cursor.tokens.drop cursor.pos).takeWhile Token.isComment

/-- Passes the comments directly ahead. -/
def passComments (cursor : Cursor) : Cursor :=
  { cursor with
    pos := cursor.pos + cursor.commentsAhead.length
    comments := cursor.comments ++ cursor.commentsAhead.map Lexeme.commentOf }

end Cursor

namespace Step

/-- The step that a cut or a count below zero makes impossible. -/
def ofChecked (checked : Except Fault α) : Step α := fun cursor =>
  match checked with
  | .ok value => .ok (value, cursor)
  | .error fault => .error (.fault fault)

/-- Fails with an error of the grammar. -/
def fail (error : ZincError) : Step α := fun _ => .error (.error error)

/-- The next token, which stays ahead. -/
def peek : Step (Option Token) := fun cursor =>
  let cursor := cursor.passComments
  .ok (cursor.tokens[cursor.pos]?, cursor)

/-- The token ahead with the given number among those that are no comments. -/
def peekNth (n : Nat) : Step (Option Token) := fun cursor =>
  let cursor := cursor.passComments
  match Fault.behind cursor.tokens cursor.pos with
  | .ok ahead => .ok ((ahead.filter (!·.isComment))[n]?, cursor)
  | .error fault => .error (.fault fault)

/-- Takes the next token, if there is one. -/
def advance : Step (Option Token) := fun cursor =>
  let cursor := cursor.passComments
  match cursor.tokens[cursor.pos]? with
  | none => .ok (none, cursor)
  | some token =>
    .ok (some token, { cursor with pos := cursor.pos + 1, comments := [], lastStop := token.stop })

/-- The comments since the last token that was taken. -/
def takeComments : Step (List CommentLine) := fun cursor =>
  let cursor := cursor.passComments
  .ok (cursor.comments, { cursor with comments := [] })

/-- Where the last token ended that was taken. -/
def lastStop : Step Position := fun cursor => .ok (cursor.lastStop, cursor)

/-- Whether no token is ahead. -/
def atEnd : Step Bool := return (← peek).isNone

/-- Whether the next token passes the test. -/
def peekIs (p : Token → Bool) : Step Bool := return (← peek).any p

/-- Takes the next token if it passes the test, and tells whether it does. -/
def eat (p : Token → Bool) : Step Bool := do
  if ← peekIs p then
    let _ ← advance
    return true
  else return false

/-- Takes the next token, which has to exist. -/
def need (expected : Expected) : Step Token := do
  match ← advance with
  | some token => return token
  | none => fail (.endOfCode expected)

/-- Takes the next token, which has to pass the test. -/
def expect (p : Token → Bool) (expected : Expected) : Step Token := do
  let token ← need expected
  if p token then return token else fail (.unexpected token expected)

/-- Takes the next token, which has to be the sign. -/
def expectSign (text : String) : Step Token := expect (·.isOperator text) (.sign text)

/-- Takes the next token, which has to be an identifier. -/
def expectIdentifier (expected : Expected) : Step Token := expect Token.isIdentifier expected

/-- Goes round after round. A round that starts another one without having taken a token faults. -/
def loop (round : (σ → Step β) → σ → Step β) (s : σ) : Step β :=
  Checked.loop (.fault .stuck) Cursor.left round s

theorem loop_eq (round : (σ → Step β) → σ → Step β) (s : σ) (cursor : Cursor) :
    loop round s cursor =
      round (fun later after =>
        if after.left < cursor.left then loop round later after else .error (.fault .stuck))
        s cursor :=
  Checked.loop_eq ..

end Step

/-! ### What is ahead of a cursor -/

namespace Cursor

/-- The lexemes are ahead of the cursor, at most `bound` of them. Comments that were asked for are
lost, so the first lexeme may lack some. Where there are fewer lexemes than `bound` it has them
all. -/
structure Ahead (cursor : Cursor) (tokens : List Token) (bound : Nat) (lexemes : List Lexeme) :
    Prop where
  tokens_eq : cursor.tokens = tokens
  pos_le : cursor.pos ≤ tokens.length
  length_le : lexemes.length ≤ bound
  lexemes_eq : ∃ given, Lexeme.ofTokensAfter given (tokens.drop cursor.pos) = lexemes ∧
    (lexemes.length < bound → given = cursor.comments)

variable {tokens : List Token} {bound bound' : Nat} {cursor after : Cursor}
  {lexemes rest : List Lexeme}

theorem ahead_start (h : (Lexeme.ofTokens tokens).length ≤ bound) :
    (start tokens).Ahead tokens bound (Lexeme.ofTokens tokens) :=
  ⟨rfl, Nat.zero_le _, h, [], by simp [start, Lexeme.ofTokens], fun _ => rfl⟩

/-- Where the first lexeme has all of its comments, they are not lost later either. -/
theorem Ahead.renew (h : cursor.Ahead tokens bound lexemes) (hlength : lexemes.length < bound)
    (hbound : bound ≤ bound') : cursor.Ahead tokens bound' lexemes := by
  obtain ⟨htokens, hpos, -, given, heq, hgiven⟩ := h
  exact ⟨htokens, hpos, by omega, given, heq, fun _ => hgiven hlength⟩

theorem length_lexemes (given : List CommentLine) (tokens : List Token) :
    (Lexeme.ofTokensAfter given tokens).length = tokens.countP (!·.isComment) := by
  rw [← List.length_map (f := Lexeme.token), Lexeme.token_ofTokensAfter,
    List.countP_eq_length_filter]

/-- Where fewer lexemes are ahead, the cursor has moved on. -/
theorem Ahead.left_lt (h : cursor.Ahead tokens bound lexemes)
    (hafter : after.Ahead tokens bound' rest) (hlength : rest.length < lexemes.length) :
    after.left < cursor.left := by
  obtain ⟨htokens, hpos, -, given, rfl, -⟩ := h
  obtain ⟨htokens', hpos', -, given', rfl, -⟩ := hafter
  rw [length_lexemes, length_lexemes] at hlength
  -- A cursor further back would have at least as many lexemes ahead
  have hlt : cursor.pos < after.pos := by
    refine Nat.lt_of_not_le fun hle => ?_
    have hcount := (List.drop_sublist_drop_left tokens hle).countP_le
      (p := (!·.isComment))
    omega
  rw [left, left, htokens, htokens']
  omega

/-! ### Comments ahead -/

/-- Comments in front of a token may be counted among those that were passed before it. -/
theorem ofTokensAfter_takeWhile (given : List CommentLine) (tokens : List Token) :
    Lexeme.ofTokensAfter given tokens =
      Lexeme.ofTokensAfter (given ++ (tokens.takeWhile Token.isComment).map Lexeme.commentOf)
        (tokens.dropWhile Token.isComment) := by
  induction tokens generalizing given with
  | nil => simp [Lexeme.ofTokensAfter]
  | cons token rest ih =>
    by_cases hcomment : token.isComment = true
    · rw [Lexeme.ofTokensAfter, if_pos hcomment, ih]
      simp [hcomment]
    · simp [hcomment]

theorem drop_passComments (cursor : Cursor) :
    cursor.passComments.tokens.drop cursor.passComments.pos =
      (cursor.tokens.drop cursor.pos).dropWhile Token.isComment := by
  show cursor.tokens.drop (cursor.pos + cursor.commentsAhead.length) = _
  rw [← List.drop_drop, commentsAhead]
  generalize cursor.tokens.drop cursor.pos = tokens
  induction tokens with
  | nil => rfl
  | cons token rest ih => by_cases hcomment : token.isComment = true <;> simp [hcomment, ih]

/-- The cursor stands in front of the first of the lexemes, and all comments are passed. -/
structure Faces (cursor : Cursor) (tokens : List Token) (bound : Nat) (lexemes : List Lexeme) :
    Prop extends cursor.Ahead tokens bound lexemes where
  drop_eq : tokens.drop cursor.pos = [] ∧ lexemes = [] ∨
    ∃ lexeme rest behind, lexemes = lexeme :: rest ∧
      tokens.drop cursor.pos = lexeme.token :: behind ∧ Lexeme.ofTokensAfter [] behind = rest ∧
      (lexemes.length < bound → lexeme.comments = cursor.comments)

/-- Behind comments the cursor stands in front of a lexeme. -/
theorem Ahead.passComments (h : cursor.Ahead tokens bound lexemes) :
    cursor.passComments.Faces tokens bound lexemes := by
  obtain ⟨rfl, hpos, hbound, given, rfl, hgiven⟩ := h
  have hle : cursor.passComments.pos ≤ cursor.tokens.length := by
    have hlength :=
      (List.takeWhile_prefix Token.isComment (l := cursor.tokens.drop cursor.pos)).length_le
    rw [List.length_drop] at hlength
    show cursor.pos + cursor.commentsAhead.length ≤ cursor.tokens.length
    rw [commentsAhead]
    omega
  have hdrop := drop_passComments cursor
  rw [show cursor.passComments.tokens = cursor.tokens from rfl] at hdrop
  have hlexemes := ofTokensAfter_takeWhile given (cursor.tokens.drop cursor.pos)
  rw [← hdrop] at hlexemes
  refine ⟨⟨rfl, hle, hbound, _, hlexemes.symm, fun h => ?_⟩, ?_⟩
  · rw [hgiven h]
    rfl
  -- What is left starts with no comment, so its first token is that of the first lexeme
  rw [hlexemes] at hgiven ⊢
  have hnot := List.head?_dropWhile_not Token.isComment (cursor.tokens.drop cursor.pos)
  rw [← hdrop] at hnot
  cases htokens : cursor.tokens.drop cursor.passComments.pos with
  | nil => exact .inl ⟨rfl, rfl⟩
  | cons token behind =>
    rw [htokens] at hnot hgiven
    have hcomment : token.isComment = false := by simpa using hnot
    simp only [Lexeme.ofTokensAfter, hcomment, Bool.false_eq_true, if_false] at hgiven ⊢
    refine .inr ⟨_, _, behind, rfl, rfl, rfl, fun h => ?_⟩
    rw [hgiven h]
    rfl

theorem Faces.getElem? (h : cursor.Faces tokens bound lexemes) :
    cursor.tokens[cursor.pos]? = lexemes.head?.map Lexeme.token := by
  rw [← List.head?_drop, h.tokens_eq]
  obtain ⟨hdrop, rfl⟩ | ⟨lexeme, rest, behind, rfl, hdrop, -⟩ := h.drop_eq
  · rw [hdrop]
    rfl
  · rw [hdrop]
    rfl

/-- At the end of the lexemes the cursor is at the end of the tokens. -/
theorem Faces.pos_eq (h : cursor.Faces tokens bound []) : cursor.pos = tokens.length := by
  obtain ⟨hdrop, -⟩ | ⟨lexeme, rest, behind, hnil, -⟩ := h.drop_eq
  · exact Nat.le_antisymm h.pos_le (List.drop_eq_nil_iff.1 hdrop)
  · cases hnil

/-- Behind the first lexeme. -/
theorem Faces.taken {lexeme : Lexeme} (h : cursor.Faces tokens bound (lexeme :: rest))
    (stop : Position) :
    { cursor with pos := cursor.pos + 1, comments := [], lastStop := stop : Cursor }.Ahead
      tokens bound rest := by
  obtain ⟨-, hnil⟩ | ⟨_, _, behind, hcons, hdrop, hrest, -⟩ := h.drop_eq
  · cases hnil
  obtain ⟨rfl, rfl⟩ := List.cons.inj hcons
  have hdrop' : tokens.drop (cursor.pos + 1) = behind := by
    rw [← List.drop_drop, hdrop]
    rfl
  have hlength := congrArg List.length hdrop
  rw [List.length_drop, List.length_cons] at hlength
  refine ⟨h.tokens_eq, ?_, Nat.le_of_succ_le h.length_le, [], ?_, fun _ => rfl⟩
  · show cursor.pos + 1 ≤ tokens.length
    omega
  · show Lexeme.ofTokensAfter [] (tokens.drop (cursor.pos + 1)) = rest
    rw [hdrop', hrest]

end Cursor

/-! ### Steps and readers -/

/-- The outcome of a step is what the reading says. -/
def Agrees (tokens : List Token) (bound : Nat) (reading : Reading α)
    (outcome : Except Stop (α × Cursor)) : Prop :=
  match reading with
  | .error e => outcome = .error (.error e)
  | .ok (value, rest) => ∃ after, outcome = .ok (value, after) ∧ after.Ahead tokens bound rest

/-- With the same lexemes ahead the step does what the reader does. -/
def Mirrors (step : Step α) (reader : List Lexeme → Reading α) : Prop :=
  ∀ ⦃tokens bound cursor lexemes⦄, cursor.Ahead tokens bound lexemes →
    Agrees tokens bound (reader lexemes) (step cursor)

/-- The reading with its value changed. -/
def onValue (f : α → β) (reading : Reading α) : Reading β :=
  reading.map fun read => (f read.1, read.2)

theorem onValue_id (reading : Reading α) : onValue (fun value => value) reading = reading := by
  cases reading <;> rfl

theorem onValue_bind (f : β → γ) (reading : Reading α) (later : α × List Lexeme → Reading β) :
    onValue f (reading.bind later) = reading.bind fun read => onValue f (later read) := by
  cases reading <;> rfl

theorem onValue_do (f : β → γ) (reading : Reading α) (later : α × List Lexeme → Reading β) :
    onValue f (Bind.bind (m := Except ZincError) reading later) =
      reading.bind fun read => onValue f (later read) :=
  onValue_bind f reading later

theorem onValue_ite (f : α → β) (c : Prop) [Decidable c] (yes no : Reading α) :
    onValue f (if c then yes else no) = if c then onValue f yes else onValue f no := by
  split <;> rfl

/-- An item in front of the others may be counted among those found before. -/
theorem onValue_append_cons (found : List α) (value : α) (reading : Reading (List α)) :
    onValue (found ++ ·) (reading.bind fun others => .ok (value :: others.1, others.2)) =
      onValue (found ++ [value] ++ ·) reading := by
  cases reading <;> simp [onValue, Except.bind, Except.map]

/-- What a reader of items reads, with the items in front that were found before. A step collects
its items in a list, where the reader puts each in front of those behind it. -/
def readBehind (reader : List Lexeme → Reading (List α)) (found : List α) (lexemes : List Lexeme) :
    Reading (List α) :=
  onValue (found ++ ·) (reader lexemes)

theorem readBehind_nil (reader : List Lexeme → Reading (List α)) (lexemes : List Lexeme) :
    readBehind reader [] lexemes = reader lexemes := onValue_id _

/-- Whether the first lexeme passes the test. -/
def startsWith (p : Token → Bool) (lexemes : List Lexeme) : Bool :=
  lexemes.head?.any (p ·.token)

/-- The first token, which has to pass the test. -/
def passing (p : Token → Bool) (expected : Expected) : List Lexeme → Reading Token
  | [] => .error (.endOfCode expected)
  | lexeme :: rest =>
    if p lexeme.token then .ok (lexeme.token, rest) else .error (.unexpected lexeme.token expected)

theorem startsWithSign_eq (text : String) (lexemes : List Lexeme) :
    startsWithSign text lexemes = startsWith (·.isOperator text) lexemes := by
  cases lexemes <;> rfl

theorem acceptKeyword_eq (words : List String) (lexemes : List Lexeme) :
    acceptKeyword words lexemes =
      if startsWith (·.isKeywordOf words) lexemes then (true, lexemes.tail)
      else (false, lexemes) := by
  cases lexemes <;> rfl

theorem identifier_eq (expected : Expected) :
    identifier expected = passing Token.isIdentifier expected := by
  funext lexemes
  cases lexemes <;> rfl

theorem sign_eq (text : String) : sign text = passing (·.isOperator text) (.sign text) := by
  funext lexemes
  cases lexemes <;> rfl

section

variable {tokens : List Token} {bound bound' : Nat} {cursor : Cursor} {lexeme : Lexeme}
  {lexemes rest : List Lexeme}

namespace Agrees

theorem ok {outcome : Except Stop (α × Cursor)} {value : α} {after : Cursor}
    (houtcome : outcome = .ok (value, after)) (h : after.Ahead tokens bound lexemes) :
    Agrees tokens bound (.ok (value, lexemes)) outcome :=
  ⟨after, houtcome, h⟩

theorem pure (value : α) (h : cursor.Ahead tokens bound lexemes) :
    Agrees tokens bound (.ok (value, lexemes)) ((Pure.pure value : Step α) cursor) :=
  .ok rfl h

/-- Behind a step that fails nothing is done. -/
theorem failed {step : Step α} {next : α → Step β} {e : ZincError}
    (h : Agrees tokens bound (.error e : Reading α) (step cursor)) :
    Agrees tokens bound' (.error e : Reading β) ((step >>= next) cursor) :=
  Checked.bind_of_error h next

/-- A step that gives a part of what the reader gives, and another one after it. -/
theorem bind_onValue {step : Step β} {next : β → Step γ} {reading : Reading α} {part : α → β}
    {later : α × List Lexeme → Reading γ}
    (h : Agrees tokens bound (onValue part reading) (step cursor))
    (hnext : ∀ value rest after, reading = .ok (value, rest) → after.Ahead tokens bound rest →
      Agrees tokens bound' (later (value, rest)) (next (part value) after)) :
    Agrees tokens bound' (reading.bind later) ((step >>= next) cursor) := by
  cases reading with
  | error e => exact Checked.bind_of_error h next
  | ok pair =>
    obtain ⟨value, rest⟩ := pair
    obtain ⟨after, houtcome, hafter⟩ := h
    rw [Checked.bind_of_eq houtcome]
    exact hnext value rest after rfl hafter

/-- One step after another. -/
theorem bind {step : Step α} {next : α → Step β} {reading : Reading α}
    {later : α × List Lexeme → Reading β} (h : Agrees tokens bound reading (step cursor))
    (hnext : ∀ value rest after, reading = .ok (value, rest) → after.Ahead tokens bound rest →
      Agrees tokens bound' (later (value, rest)) (next value after)) :
    Agrees tokens bound' (reading.bind later) ((step >>= next) cursor) := by
  have hvalue : Agrees tokens bound (onValue (fun value => value) reading) (step cursor) := by
    rwa [onValue_id]
  exact hvalue.bind_onValue hnext

/-- A step that cannot fail, and another one after it. -/
theorem before {step : Step α} {next : α → Step β} {value : α} {reading : Reading β}
    (h : Agrees tokens bound (.ok (value, rest)) (step cursor))
    (hnext : ∀ after : Cursor, after.Ahead tokens bound rest →
      Agrees tokens bound' reading (next value after)) :
    Agrees tokens bound' reading ((step >>= next) cursor) := by
  have hbind : Agrees tokens bound' ((Except.ok (value, rest)).bind fun _ => reading)
      ((step >>= next) cursor) := h.bind fun _ _ after heq hafter => by
    cases heq
    exact hnext after hafter
  exact hbind

theorem ite {c : Prop} [Decidable c] {yes no : Reading α} {step other : Step α}
    (hyes : c → Agrees tokens bound yes (step cursor))
    (hno : ¬c → Agrees tokens bound no (other cursor)) :
    Agrees tokens bound (if c then yes else no) ((if c then step else other) cursor) := by
  split
  · next hc => exact hyes hc
  · next hc => exact hno hc

end Agrees

/-! ### Single tokens -/

theorem mirrors_peek : Mirrors Step.peek fun lexemes =>
    .ok (lexemes.head?.map Lexeme.token, lexemes) := fun _ _ _ _ h => by
  refine .ok ?_ h.passComments.toAhead
  show Except.ok (_, _) = _
  rw [h.passComments.getElem?]

theorem mirrors_peekIs (p : Token → Bool) :
    Mirrors (Step.peekIs p) fun lexemes => .ok (startsWith p lexemes, lexemes) :=
  fun _ _ _ lexemes h => .before (mirrors_peek h) fun _ hafter => by
    have hany : (lexemes.head?.map Lexeme.token).any p = startsWith p lexemes := by
      cases lexemes <;> rfl
    rw [hany]
    exact .pure _ hafter

theorem mirrors_atEnd : Mirrors Step.atEnd fun lexemes => .ok (lexemes.isEmpty, lexemes) :=
  fun _ _ _ lexemes h => .before (mirrors_peek h) fun _ hafter => by
    have hnone : (lexemes.head?.map Lexeme.token).isNone = lexemes.isEmpty := by
      cases lexemes <;> rfl
    rw [hnone]
    exact .pure _ hafter

/-- Behind a token that was taken no comment is lost. -/
theorem advance_eq (h : cursor.Ahead tokens bound (lexeme :: rest)) :
    ∃ after, Step.advance cursor = .ok (some lexeme.token, after) ∧
      after.Ahead tokens bound rest ∧ after.lastStop = lexeme.token.stop := by
  have hfaces := h.passComments
  refine ⟨_, ?_, hfaces.taken lexeme.token.stop, rfl⟩
  rw [Step.advance, hfaces.getElem?]
  rfl

theorem Agrees.advance (h : cursor.Ahead tokens bound (lexeme :: rest)) :
    Agrees tokens bound (.ok (some lexeme.token, rest)) (Step.advance cursor) := by
  obtain ⟨after, houtcome, hafter, -⟩ := advance_eq h
  exact .ok houtcome hafter

theorem need_eq (expected : Expected) (h : cursor.Ahead tokens bound (lexeme :: rest)) :
    ∃ after, Step.need expected cursor = .ok (lexeme.token, after) ∧
      after.Ahead tokens bound rest ∧ after.lastStop = lexeme.token.stop := by
  obtain ⟨after, houtcome, hafter⟩ := advance_eq h
  exact ⟨after, Checked.bind_of_eq houtcome _, hafter⟩

theorem Agrees.need (expected : Expected) (h : cursor.Ahead tokens bound (lexeme :: rest)) :
    Agrees tokens bound (.ok (lexeme.token, rest)) (Step.need expected cursor) := by
  obtain ⟨after, houtcome, hafter, -⟩ := need_eq expected h
  exact .ok houtcome hafter

theorem advance_nil (h : cursor.Ahead tokens bound []) :
    Step.advance cursor = .ok (none, cursor.passComments) := by
  rw [Step.advance, h.passComments.getElem?]
  rfl

theorem need_nil (expected : Expected) (h : cursor.Ahead tokens bound []) :
    Step.need expected cursor = .error (.error (.endOfCode expected)) := by
  exact Checked.bind_of_eq (advance_nil h) _

theorem mirrors_expect (p : Token → Bool) (expected : Expected) :
    Mirrors (Step.expect p expected) (passing p expected) := fun _ _ _ lexemes h => by
  cases lexemes with
  | nil => exact Checked.bind_of_error (need_nil expected h) _
  | cons lexeme rest =>
    refine .before (.need expected h) fun after hafter => ?_
    rw [passing]
    cases p lexeme.token with
    | true => exact .pure _ hafter
    | false => rfl

theorem mirrors_expectSign (text : String) : Mirrors (Step.expectSign text) (sign text) := by
  rw [sign_eq]
  exact mirrors_expect _ _

theorem mirrors_expectIdentifier (expected : Expected) :
    Mirrors (Step.expectIdentifier expected) (identifier expected) := by
  rw [identifier_eq]
  exact mirrors_expect _ _

/-! ### Tokens that may be missing -/

theorem eat_eq {p : Token → Bool} (h : cursor.Ahead tokens bound (lexeme :: rest))
    (hp : p lexeme.token = true) :
    ∃ after, Step.eat p cursor = .ok (true, after) ∧
      after.Ahead tokens bound rest ∧ after.lastStop = lexeme.token.stop := by
  obtain ⟨ahead, hpeek, hahead⟩ := mirrors_peekIs p h
  obtain ⟨after, houtcome, hafter⟩ := advance_eq hahead
  refine ⟨after, ?_, hafter⟩
  rw [Step.eat, Checked.bind_of_eq hpeek, show startsWith p (lexeme :: rest) = true from hp]
  exact Checked.bind_of_eq houtcome _

theorem mirrors_eat (p : Token → Bool) : Mirrors (Step.eat p) fun lexemes =>
    .ok (startsWith p lexemes, if startsWith p lexemes then lexemes.tail else lexemes) :=
  fun _ _ _ lexemes h => by
    by_cases hstarts : startsWith p lexemes = true
    · cases lexemes with
      | nil => cases hstarts
      | cons lexeme rest =>
        obtain ⟨after, houtcome, hafter, -⟩ := eat_eq h hstarts
        simp only [hstarts, if_true]
        exact .ok houtcome hafter
    · simp only [hstarts]
      refine .before (mirrors_peekIs p h) fun _ hafter => ?_
      rw [if_neg hstarts]
      exact .pure false hafter

theorem mirrors_eatSign (text : String) : Mirrors (Step.eat (·.isOperator text)) fun lexemes =>
    .ok (startsWithSign text lexemes, acceptSign text lexemes) := by
  have hreader : ∀ lexemes, acceptSign text lexemes =
      if startsWith (·.isOperator text) lexemes then lexemes.tail else lexemes := fun lexemes => by
    rw [acceptSign, startsWithSign_eq]
  simp only [hreader, startsWithSign_eq]
  exact mirrors_eat _

/-- What is done behind a sign, and what without it. -/
theorem Agrees.eatSign {text : String} {yes no : Reading α} {step other : Step α}
    (h : cursor.Ahead tokens bound lexemes)
    (hyes : ∀ after : Cursor, startsWithSign text lexemes = true →
      after.Ahead tokens bound lexemes.tail → Agrees tokens bound yes (step after))
    (hno : ∀ after : Cursor, after.Ahead tokens bound lexemes →
      Agrees tokens bound no (other after)) :
    Agrees tokens bound (if startsWithSign text lexemes then yes else no)
      ((Step.eat (·.isOperator text) >>= fun found => if found then step else other) cursor) := by
  refine .before (mirrors_eatSign text h) fun after hafter => .ite (fun hfound => ?_) fun hnot => ?_
  · rw [acceptSign, if_pos hfound] at hafter
    exact hyes after hfound hafter
  · rw [acceptSign, if_neg hnot] at hafter
    exact hno after hafter

theorem mirrors_eatKeyword (words : List String) :
    Mirrors (Step.eat (·.isKeywordOf words)) fun lexemes =>
      .ok ((acceptKeyword words lexemes).1, (acceptKeyword words lexemes).2) := by
  have hreader : ∀ lexemes, acceptKeyword words lexemes =
      (startsWith (·.isKeywordOf words) lexemes,
        if startsWith (·.isKeywordOf words) lexemes then lexemes.tail else lexemes) :=
    fun lexemes => by
      rw [acceptKeyword_eq]
      split <;> simp [*]
  simp only [hreader]
  exact mirrors_eat _

/-! ### Comments -/

/-- The comments of the first lexeme can be asked for once. -/
theorem takeComments_eq (h : cursor.Ahead tokens bound lexemes) :
    ∃ comments after, Step.takeComments cursor = .ok (comments, after) ∧
      after.Ahead tokens lexemes.length lexemes ∧
      (lexemes.length < bound → ∀ lexeme ∈ lexemes.head?, comments = lexeme.comments) := by
  have hfaces := h.passComments
  obtain ⟨given, hgiven, -⟩ := hfaces.lexemes_eq
  refine ⟨_, _, rfl, ⟨hfaces.tokens_eq, hfaces.pos_le, Nat.le_refl _, given, hgiven,
    fun hlt => absurd hlt (Nat.lt_irrefl _)⟩, fun hbound lexeme hlexeme => ?_⟩
  obtain ⟨-, rfl⟩ | ⟨first, rest, behind, rfl, -, -, hcomments⟩ := hfaces.drop_eq
  · cases hlexeme
  · cases hlexeme
    exact (hcomments hbound).symm

/-! ### Loops -/

/-- A loop does what a reader does if each of its rounds does so where the rounds that it starts
do. Those have fewer lexemes ahead, so no round starts another one without having moved on. -/
theorem agrees_loop_of {round : (σ → Step α) → σ → Step α} (reader : σ → List Lexeme → Reading α)
    (good : σ → Prop) {most : Nat}
    (hround : ∀ (again : σ → Step α) (state : σ) (cursor : Cursor) (lexemes : List Lexeme),
      good state → lexemes.length ≤ most → cursor.Ahead tokens bound lexemes →
      (∀ later after rest, good later → rest.length < lexemes.length →
        Cursor.Ahead after tokens bound rest →
        Agrees tokens bound (reader later rest) (again later after)) →
      Agrees tokens bound (reader state lexemes) (round again state cursor))
    (state : σ) (hgood : good state) (hmost : lexemes.length ≤ most)
    (h : cursor.Ahead tokens bound lexemes) :
    Agrees tokens bound (reader state lexemes) (Step.loop round state cursor) := by
  -- The induction is on the lexemes ahead, of which a round leaves fewer to those it starts
  induction hn : lexemes.length using Nat.strongRecOn generalizing state cursor lexemes with
  | ind n ih =>
    subst hn
    rw [Step.loop_eq]
    refine hround _ state cursor lexemes hgood hmost h
      fun later after rest hgood hlength hafter => ?_
    show Agrees _ _ _ (if after.left < cursor.left then _ else _)
    rw [if_pos (h.left_lt hafter hlength)]
    exact ih rest.length hlength later hgood (by omega) hafter rfl

/-- A loop whose rounds may start in any state. -/
theorem agrees_loop {round : (σ → Step α) → σ → Step α} (reader : σ → List Lexeme → Reading α)
    (hround : ∀ (again : σ → Step α) (state : σ) (cursor : Cursor) (lexemes : List Lexeme),
      cursor.Ahead tokens bound lexemes →
      (∀ later after rest, rest.length < lexemes.length → Cursor.Ahead after tokens bound rest →
        Agrees tokens bound (reader later rest) (again later after)) →
      Agrees tokens bound (reader state lexemes) (round again state cursor))
    (state : σ) (h : cursor.Ahead tokens bound lexemes) :
    Agrees tokens bound (reader state lexemes) (Step.loop round state cursor) :=
  agrees_loop_of reader (fun _ => True)
    (fun again state cursor lexemes _ _ h hagain =>
      hround again state cursor lexemes h fun later after rest => hagain later after rest trivial)
    state trivial (Nat.le_refl _) h

end

end JassOutline.Zinc
