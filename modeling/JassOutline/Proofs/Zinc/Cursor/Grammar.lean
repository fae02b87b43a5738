import JassOutline.Proofs.Zinc.Cursor.Routine
import JassOutline.Zinc.Grammar

/-!
# Whole programs by a cursor

A section inside a container is the loop over its items again, with another visibility: what it
finds goes to the same container, and its closing brace is taken behind it. The readers keep a
stack of the sections that are open instead. `IsLevel` is what one section contributes, and with it
both read the same.

## Key results

- `agrees_items`: the items of a container and the sections in it
- `agrees_struct`, `agrees_library`
- `run_takes_all`: the cursor over a whole token list
-/

namespace JassOutline.Zinc

namespace Step

/-! ### Steps over items -/

/-- Takes a visibility, if there is one. -/
def visibilityPrefix : Step (Option Visibility) := do
  match (← peek).bind (Visibility.ofWord? ·.text) with
  | some visibility =>
    let _ ← advance
    return some visibility
  | none => return none

/-- Takes a visibility and the brace behind it that opens a section, if both are there. -/
def sectionStart : Step (Option Visibility) := do
  match (← peek).bind (Visibility.ofWord? ·.text) with
  | some visibility =>
    if (← peekNth 1).any (·.isOperator "\x7b") then
      let _ ← advance
      let _ ← advance
      return some visibility
    else return none
  | none => return none

/-- Takes a section with its braces or an item, and goes on. -/
def sectionOrItem (item : Visibility → List CommentLine → Step Declarations)
    (again : Declarations × Visibility → Step Declarations) (found : Declarations)
    (visibility : Visibility) (comments : List CommentLine) : Step Declarations := do
  match ← sectionStart with
  | some inner =>
    let found ← again (found, inner)
    let _ ← expectSign "\x7d"
    again (found, visibility)
  | none =>
    let declared ← item visibility comments
    again (found ++ declared, visibility)

/-- A round of the loop over the items of a section. -/
def itemsRound (item : Visibility → List CommentLine → Step Declarations)
    (again : Declarations × Visibility → Step Declarations) (state : Declarations × Visibility) :
    Step Declarations := do
  if ← peekIs (·.isOperator "\x7d") then return state.1
  else if ← atEnd then fail (.endOfCode (.sign "\x7d"))
  else sectionOrItem item again state.1 state.2 (← takeComments)

/-- Takes the items of a section up to its closing brace. -/
def items (item : Visibility → List CommentLine → Step Declarations) (visibility : Visibility) :
    Step Declarations :=
  loop (itemsRound item) (.none, visibility)

/-! ### Steps over structs -/

/-- Takes the name of a parent with its size. -/
def parent : Step String := do
  let name ← expectIdentifier .parentName
  let _ ← skipSize
  return name.text

/-- Takes the parents of a struct, if it has any. -/
def parents : Step (List String) := do
  if ← eat (·.isKeywordOf ["extends"]) then commaSeparated parent else return []

/-- Takes a binding, if there is one. -/
def binding : Step Binding := do
  if ← eat (·.isKeywordOf ["static"]) then return .static
  else if ← eat (·.isKeywordOf ["stub"]) then return .stub
  else return .ordinary

/-- Takes an item of a struct. -/
def structItem (visibility : Visibility) (comments : List CommentLine) : Step Declarations := do
  let visibility := (← visibilityPrefix).getD visibility
  let binding ← binding
  match ← peek with
  | none => fail (.endOfCode .structMember)
  | some token =>
    if token.isKeyword "method" then
      let declared ← method visibility binding comments
      return { Declarations.none with methods := [declared] }
    else if token.isOperator ";" then
      let _ ← advance
      return .none
    else if skippedWords.contains token.text then
      skipDeclaration
      return .none
    else
      let declared ← variableDeclaration
      return { Declarations.none with
        members := Variable.declare (·.toMember visibility binding ·) comments declared }

/-- Takes a struct. -/
def struct (visibility : Visibility) (comments : List CommentLine) : Step Struct := do
  let keyword ← need (.sign "struct")
  let name ← expectIdentifier .structName
  let _ ← skipSize
  let parents ← parents
  let _ ← expectSign "\x7b"
  let inner ← items structItem .unmarked
  let closing ← expectSign "\x7d"
  let _ ← eat (·.isOperator ";")
  return { name := some name.text
           comments
           region := ⟨keyword.start, closing.stop⟩
           visibility
           parents
           members := inner.members
           methods := inner.methods }

/-! ### Steps over libraries and programs -/

/-- Takes an item behind its visibility. What is done at the word of a library is given. -/
def itemWith (atLibrary : Token → Step Declarations) (visibility : Visibility)
    (comments : List CommentLine) : Step Declarations := do
  match ← peek with
  | none => fail (.endOfCode .declaration)
  | some token =>
    if token.isOperator ";" then
      let _ ← advance
      return .none
    else if !token.isIdentifier then fail (.unexpected token .declaration)
    else if libraryWords.contains token.text then atLibrary token
    else if token.isKeyword "struct" then
      let declared ← struct visibility comments
      return { Declarations.none with structs := [declared] }
    else if token.isKeyword "function" then
      let declared ← function visibility comments
      return { Declarations.none with functions := [declared] }
    else if skippedWords.contains token.text then
      skipDeclaration
      return .none
    else
      let declared ← variableDeclaration
      return { Declarations.none with
        globals := Variable.declare (·.toGlobal visibility ·) comments declared }

/-- Takes an item of a library. -/
def libraryItem (visibility : Visibility) (comments : List CommentLine) : Step Declarations := do
  let visibility := (← visibilityPrefix).getD visibility
  itemWith (fun token => fail (.unexpected token .libraryMember)) visibility comments

/-- Takes the name of a library that another one needs. -/
def requirement : Step String := do
  let _ ← eat (·.isKeywordOf ["optional"])
  let name ← expectIdentifier .libraryName
  return name.text

/-- Takes the names of the libraries that a library needs, if it needs any. -/
def requirements : Step (List String) := do
  if ← eat (·.isKeywordOf ["requires", "needs", "uses"]) then commaSeparated requirement
  else return []

/-- Takes a library. -/
def library (comments : List CommentLine) : Step Library := do
  let keyword ← need (.sign "library")
  let name ← expectIdentifier .libraryName
  let requirements ← requirements
  let _ ← expectSign "\x7b"
  let inner ← items libraryItem .hidden
  let closing ← expectSign "\x7d"
  return { name := some name.text
           comments
           region := ⟨keyword.start, closing.stop⟩
           setUp := setUpOf inner.functions
           requirements
           globals := inner.globals
           functions := inner.functions
           structs := inner.structs }

/-- Takes an item of a program. -/
def topItem (comments : List CommentLine) : Step Declarations := do
  let visibility := (← visibilityPrefix).getD .unmarked
  let atLibrary (_ : Token) : Step Declarations := do
    let declared ← library comments
    return { Declarations.none with libraries := [declared] }
  itemWith atLibrary visibility comments

/-- A round of the loop over the items of a program. -/
def programRound (again : Declarations → Step Declarations) (found : Declarations) :
    Step Declarations := do
  if ← atEnd then return found
  else
    let comments ← takeComments
    let declared ← topItem comments
    again (found ++ declared)

/-- Takes a whole program. -/
def program : Step Declarations := loop programRound .none

end Step

/-- The program that the tokens declare, and the cursor behind it. -/
def run (tokens : List Token) : Except Stop (Program × Cursor) := do
  let (declared, after) ← Step.program (.start tokens)
  .ok (.ofDeclarations 0 declared, after)

variable {tokens : List Token} {bound : Nat} {cursor : Cursor} {lexeme : Lexeme}
  {lexemes rest : List Lexeme}

/-! ### Visibilities -/

theorem mirrors_visibilityPrefix : Mirrors Step.visibilityPrefix fun lexemes =>
    .ok ((acceptVisibility lexemes).1, (acceptVisibility lexemes).2) := by
  intro tokens bound cursor lexemes h
  refine .before (mirrors_peek h) fun after hafter => ?_
  cases lexemes with
  | nil => exact .pure none hafter
  | cons lexeme rest =>
    dsimp only
    rw [acceptVisibility.eq_def]
    dsimp only [List.head?_cons, Option.map_some, Option.bind_some]
    cases Visibility.ofWord? lexeme.token.text with
    | none => exact .pure none hafter
    | some visibility =>
      exact .before (.advance hafter) fun _ htaken => .pure (some visibility) htaken

/-- The tokens ahead that are no comments are those of the lexemes. -/
theorem agrees_peekNth (n : Nat) (h : cursor.Ahead tokens bound lexemes) :
    Agrees tokens bound (.ok ((lexemes.map Lexeme.token)[n]?, lexemes))
      (Step.peekNth n cursor) := by
  obtain ⟨htokens, hpos, -, given, hlexemes, -⟩ := h.passComments.toAhead
  refine .ok ?_ h.passComments.toAhead
  rw [Step.peekNth, htokens, Fault.behind_of_le hpos, ← hlexemes, Lexeme.token_ofTokensAfter]

theorem agrees_sectionStart (h : cursor.Ahead tokens bound lexemes) :
    Agrees tokens bound
      (match sectionStart? lexemes with
      | some (inner, inside) => .ok (some inner, inside)
      | none => .ok (none, lexemes))
      (Step.sectionStart cursor) := by
  refine .before (mirrors_peek h) fun ahead hahead => ?_
  -- A section takes its visibility and its brace, so two lexemes are looked at
  match lexemes with
  | [] => exact .pure none hahead
  | [first] =>
    dsimp only [List.head?_cons, Option.map_some, Option.bind_some, sectionStart?]
    cases Visibility.ofWord? first.token.text with
    | none => exact .pure none hahead
    | some visibility =>
      exact .before (agrees_peekNth 1 hahead) fun _ hafter => .pure none hafter
  | first :: brace :: inside =>
    dsimp only [List.head?_cons, Option.map_some, Option.bind_some, sectionStart?]
    cases Visibility.ofWord? first.token.text with
    | none =>
      simp only [Option.map_none, ite_self]
      exact .pure none hahead
    | some visibility =>
      refine .before (agrees_peekNth 1 hahead) fun after hafter => ?_
      have hbrace : ((first :: brace :: inside).map Lexeme.token)[1]?.any (·.isOperator "\x7b") =
        brace.token.isOperator "\x7b" := rfl
      rw [hbrace]
      cases brace.token.isOperator "\x7b" with
      | false => exact .pure none hafter
      | true =>
        exact .before (.advance hafter) fun _ hword =>
          .before (.advance hword) fun _ hinside => .pure (some visibility) hinside

/-- At the start of a section its visibility and its brace are taken. -/
theorem agrees_opened {inner : Visibility} {inside : List Lexeme}
    (h : cursor.Ahead tokens bound lexemes)
    (hsection : sectionStart? lexemes = some (inner, inside)) :
    Agrees tokens bound (.ok (some inner, inside)) (Step.sectionStart cursor) := by
  have hstart := agrees_sectionStart h
  rwa [hsection] at hstart

/-- Where no section starts nothing is taken. -/
theorem agrees_unopened (h : cursor.Ahead tokens bound lexemes)
    (hsection : sectionStart? lexemes = none) :
    Agrees tokens bound (.ok (none, lexemes)) (Step.sectionStart cursor) := by
  have hstart := agrees_sectionStart h
  rwa [hsection] at hstart

/-! ### Items in sections -/

section

variable {item : Visibility → List CommentLine → List Lexeme → Reading Declarations}
  {hitem : ∀ visibility comments, Consumes (item visibility comments)}
  {step : Visibility → List CommentLine → Step Declarations}

/-- What is read of the items behind those that were found. -/
def behindItems (own : Declarations) (others : Reading (Declarations × Token)) :
    Reading (Declarations × Token) :=
  onValue (fun others => (own ++ others.1, others.2)) others

/-- The reading is what one section contributes: it comes first, whatever sections are around. -/
structure IsLevel (hitem : ∀ visibility comments, Consumes (item visibility comments))
    (visibility : Visibility) (lexemes : List Lexeme) (reading : Reading Declarations) : Prop where
  items_eq : ∀ outer, items item hitem visibility outer lexemes =
    reading.bind fun own => behindItems own.1 (items item hitem visibility outer own.2)
  atBrace : ∀ own rest, reading = .ok (own, rest) →
    startsWithSign "\x7d" rest = true ∧ rest.length ≤ lexemes.length

theorem behindItems_none (others : Reading (Declarations × Token)) :
    behindItems .none others = others := by
  cases others <;> rfl

theorem behindItems_bind (own : Declarations) (reading : Reading Declarations)
    (later : List Lexeme → Reading (Declarations × Token)) :
    behindItems own (reading.bind fun read => behindItems read.1 (later read.2)) =
      (onValue (own ++ ·) reading).bind fun read => behindItems read.1 (later read.2) := by
  cases reading with
  | error e => rfl
  | ok pair =>
    obtain ⟨value, rest⟩ := pair
    show behindItems own (behindItems value (later rest)) = behindItems (own ++ value) (later rest)
    cases later rest with
    | error e => rfl
    | ok pair =>
      show Except.ok ((own ++ (value ++ pair.1.1), pair.1.2), pair.2) = _
      rw [← Declarations.append_assoc]
      rfl

theorem IsLevel.error {visibility : Visibility} {e : ZincError}
    (h : ∀ outer, items item hitem visibility outer lexemes = .error e) :
    IsLevel hitem visibility lexemes (.error e) :=
  ⟨h, nofun⟩

theorem IsLevel.closing (visibility : Visibility)
    (hbrace : lexeme.token.isOperator "\x7d" = true) :
    IsLevel hitem visibility (lexeme :: rest) (.ok (.none, lexeme :: rest)) where
  items_eq outer := (behindItems_none _).symm
  atBrace own behind h := by
    cases h
    exact ⟨hbrace, Nat.le_refl _⟩

/-- Behind a section the one around it goes on. -/
theorem IsLevel.nested {visibility inner : Visibility} {inside behind : List Lexeme}
    {brace : Lexeme} {own : Declarations} {reading : Reading Declarations}
    (hword : lexeme.token.isOperator "\x7d" = false)
    (hsection : sectionStart? (lexeme :: rest) = some (inner, inside))
    (hinner : IsLevel hitem inner inside (.ok (own, brace :: behind)))
    (houter : IsLevel hitem visibility behind reading) :
    IsLevel hitem visibility (lexeme :: rest) (onValue (own ++ ·) reading) where
  items_eq outer := by
    have hbrace := (hinner.atBrace _ _ rfl).1
    rw [items_eq_section hitem outer hword hsection, hinner.items_eq]
    show behindItems own (items item hitem inner (visibility :: outer) (brace :: behind)) = _
    rw [items_eq_closing hitem _ hbrace]
    show behindItems own (items item hitem visibility outer behind) = _
    rw [houter.items_eq, behindItems_bind]
  atBrace declared later h := by
    have hlength := length_of_sectionStart? hsection
    have hle := (hinner.atBrace _ _ rfl).2
    cases reading with
    | error e => cases h
    | ok pair =>
      obtain ⟨value, rest⟩ := pair
      cases h
      obtain ⟨hbrace, hrest⟩ := houter.atBrace _ _ rfl
      refine ⟨hbrace, ?_⟩
      simp only [List.length_cons] at hle hlength ⊢
      omega

/-- Behind an item the section goes on. -/
theorem IsLevel.behindItem {visibility : Visibility} {behind : List Lexeme}
    {declared : Declarations} {reading : Reading Declarations}
    (hword : lexeme.token.isOperator "\x7d" = false)
    (hsection : sectionStart? (lexeme :: rest) = none)
    (hread : item visibility lexeme.comments (lexeme :: rest) = .ok (declared, behind))
    (hothers : IsLevel hitem visibility behind reading) :
    IsLevel hitem visibility (lexeme :: rest) (onValue (declared ++ ·) reading) where
  items_eq outer := by
    rw [items_eq_bind hitem outer hword hsection, hread, ← behindItems_bind, ← hothers.items_eq]
    rfl
  atBrace own later h := by
    have hlength := hitem _ _ _ _ _ hread
    cases reading with
    | error e => cases h
    | ok pair =>
      obtain ⟨value, rest⟩ := pair
      cases h
      obtain ⟨hbrace, hrest⟩ := hothers.atBrace _ _ rfl
      exact ⟨hbrace, Nat.le_trans hrest (Nat.le_of_lt hlength)⟩

/-- A round that starts another one has moved on. -/
theorem agrees_again {round : (σ → Step α) → σ → Step α} {reading : Reading α} {later : σ}
    {after : Cursor} (h : cursor.Ahead tokens bound lexemes)
    (hafter : after.Ahead tokens bound rest) (hlength : rest.length < lexemes.length)
    (hlater : Agrees tokens bound reading (Step.loop round later after)) :
    Agrees tokens bound reading (if after.left < cursor.left then Step.loop round later after
      else .error (.fault .stuck)) := by
  rwa [if_pos (h.left_lt hafter hlength)]

theorem agrees_sign {text : String} (h : cursor.Ahead tokens bound (lexeme :: rest))
    (hsign : startsWithSign text (lexeme :: rest) = true) :
    Agrees tokens bound (.ok (lexeme.token, rest)) (Step.expectSign text cursor) := by
  have hread := mirrors_expectSign text h
  rwa [sign, if_pos (show lexeme.token.isOperator text = true from hsign)] at hread

theorem onValue_append (found own : Declarations) (reading : Reading Declarations) :
    onValue (found ++ ·) (onValue (own ++ ·) reading) = onValue (found ++ own ++ ·) reading := by
  cases reading with
  | error e => rfl
  | ok pair =>
    show Except.ok (found ++ (own ++ pair.1), pair.2) = _
    rw [← Declarations.append_assoc]
    rfl

/-- In front of an item or a section the comments are asked for. -/
theorem agrees_itemsRound {again : Declarations × Visibility → Step Declarations}
    {found : Declarations} {visibility : Visibility} {reading : Reading Declarations}
    (h : cursor.Ahead tokens bound (lexeme :: rest)) (hbound : rest.length + 1 < bound)
    (hword : lexeme.token.isOperator "\x7d" = false)
    (hnext : ∀ asked, Cursor.Ahead asked tokens (rest.length + 1) (lexeme :: rest) →
      Agrees tokens bound reading
        (Step.sectionOrItem step again found visibility lexeme.comments asked)) :
    Agrees tokens bound reading (Step.itemsRound step again (found, visibility) cursor) := by
  refine .before (mirrors_peekIs _ h) fun _ hpeek => ?_
  rw [show startsWith (·.isOperator "\x7d") (lexeme :: rest) = false from hword]
  refine .before (mirrors_atEnd hpeek) fun _ hahead => ?_
  obtain ⟨comments, asked, htake, hasked, hcomments⟩ := takeComments_eq hahead
  have hlexeme := hcomments hbound lexeme rfl
  subst hlexeme
  show Agrees _ _ _ ((Step.takeComments >>= _) _)
  rw [Checked.bind_of_eq htake]
  exact hnext asked hasked

/-- The loop over the items of a section does what the reader does, whatever sections are
around. -/
def HasLevel (hitem : ∀ visibility comments, Consumes (item visibility comments))
    (step : Visibility → List CommentLine → Step Declarations) (tokens : List Token) (bound : Nat)
    (visibility : Visibility) (lexemes : List Lexeme) : Prop :=
  ∃ reading, IsLevel hitem visibility lexemes reading ∧
    ∀ found cursor, Cursor.Ahead cursor tokens bound lexemes →
      Agrees tokens bound (onValue (found ++ ·) reading)
        (Step.loop (Step.itemsRound step) (found, visibility) cursor)

theorem hasLevel_nil (visibility : Visibility) :
    HasLevel hitem step tokens bound visibility [] := by
  refine ⟨_, .error fun outer => by rw [items], fun found cursor h => ?_⟩
  rw [Step.loop_eq]
  refine .before (mirrors_peekIs _ h) fun ahead hahead => ?_
  exact .before (mirrors_atEnd hahead) fun _ _ => rfl

theorem hasLevel_closing (visibility : Visibility)
    (hbrace : lexeme.token.isOperator "\x7d" = true) :
    HasLevel hitem step tokens bound visibility (lexeme :: rest) := by
  refine ⟨_, .closing visibility hbrace, fun found cursor h => ?_⟩
  rw [Step.loop_eq]
  refine .before (mirrors_peekIs _ h) fun ahead hahead => ?_
  rw [show startsWith (·.isOperator "\x7d") (lexeme :: rest) = true from hbrace]
  show Agrees _ _ (.ok (found ++ Declarations.none, _)) _
  rw [Declarations.append_none]
  exact .pure found hahead

section

variable {visibility : Visibility} (hbound : rest.length + 1 < bound)
  (hword : lexeme.token.isOperator "\x7d" = false)
  (hlater : ∀ behind : List Lexeme, behind.length ≤ rest.length →
    HasLevel hitem step tokens bound visibility behind)

include hbound hword hlater

theorem hasLevel_section {inner : Visibility} {inside : List Lexeme}
    (hsection : sectionStart? (lexeme :: rest) = some (inner, inside))
    (hinner : HasLevel hitem step tokens bound inner inside) :
    HasLevel hitem step tokens bound visibility (lexeme :: rest) := by
  have hinside := length_of_sectionStart? hsection
  obtain ⟨first, hfirst, hagrees⟩ := hinner
  cases first with
  | error e =>
    -- An error inside of the section is one of the container
    refine ⟨.error e, .error fun outer => ?_, fun found cursor h => ?_⟩
    · rw [items_eq_section hitem outer hword hsection, hfirst.items_eq]
      rfl
    rw [Step.loop_eq]
    refine agrees_itemsRound h hbound hword fun asked hasked => ?_
    refine .before (agrees_opened hasked hsection) fun after hafter => ?_
    have hafter := hafter.renew hinside (Nat.le_of_lt hbound)
    exact .failed (agrees_again h hafter hinside (hagrees found after hafter))
  | ok pair =>
    obtain ⟨own, closed⟩ := pair
    obtain ⟨hbrace, hle⟩ := hfirst.atBrace _ _ rfl
    cases closed with
    | nil => cases hbrace
    | cons brace behind =>
      have hbehind : behind.length ≤ rest.length := by
        simp only [List.length_cons] at hle hinside
        omega
      obtain ⟨others, hothers, hagrees'⟩ := hlater behind hbehind
      refine ⟨_, .nested hword hsection hfirst hothers, fun found cursor h => ?_⟩
      rw [Step.loop_eq]
      -- The loop goes on inside of the section, and behind its brace as before
      refine agrees_itemsRound h hbound hword fun asked hasked => ?_
      refine .before (agrees_opened hasked hsection) fun after hafter => ?_
      have hafter := hafter.renew hinside (Nat.le_of_lt hbound)
      refine .before (agrees_again h hafter hinside (hagrees found after hafter)) fun closed
        hclosed => ?_
      refine .before (agrees_sign hclosed hbrace) fun outside houtside => ?_
      rw [onValue_append]
      exact agrees_again h houtside (Nat.lt_succ_of_le hbehind)
        (hagrees' (found ++ own) outside houtside)

theorem hasLevel_item (hsection : sectionStart? (lexeme :: rest) = none)
    (hstep : ∀ visibility comments,
      Mirrors (step visibility comments) (item visibility comments)) :
    HasLevel hitem step tokens bound visibility (lexeme :: rest) := by
  -- The reading of the item decides whether the level goes on behind it
  cases hread : item visibility lexeme.comments (lexeme :: rest) with
  | error e =>
    refine ⟨.error e, .error fun outer => ?_, fun found cursor h => ?_⟩
    · rw [items_eq_bind hitem outer hword hsection, hread]
      rfl
    rw [Step.loop_eq]
    refine agrees_itemsRound h hbound hword fun asked hasked => ?_
    refine .before (agrees_unopened hasked hsection) fun after hafter => ?_
    have hitems := hstep visibility lexeme.comments hafter
    rw [hread] at hitems
    exact .failed hitems
  | ok pair =>
    obtain ⟨declared, behind⟩ := pair
    have hbehind := hitem _ _ _ _ _ hread
    obtain ⟨others, hothers, hagrees⟩ := hlater behind (Nat.le_of_lt_succ hbehind)
    refine ⟨_, .behindItem hword hsection hread hothers, fun found cursor h => ?_⟩
    -- Behind the item both sides go on with the same lexemes and with what was found before
    rw [Step.loop_eq]
    refine agrees_itemsRound h hbound hword fun asked hasked => ?_
    refine .before (agrees_unopened hasked hsection) fun after hafter => ?_
    have hitems := hstep visibility lexeme.comments hafter
    rw [hread] at hitems
    refine .before hitems fun taken htaken => ?_
    have htaken := htaken.renew hbehind (Nat.le_of_lt hbound)
    rw [onValue_append]
    exact agrees_again h htaken hbehind (hagrees (found ++ declared) taken htaken)

end

theorem hasLevel (hstep : ∀ visibility comments,
      Mirrors (step visibility comments) (item visibility comments))
    (visibility : Visibility) (hbound : lexemes.length < bound) :
    HasLevel hitem step tokens bound visibility lexemes := by
  -- The induction is on the lexemes ahead, for all visibilities: each section is a level
  induction hn : lexemes.length using Nat.strongRecOn generalizing visibility lexemes with
  | ind n ih =>
    cases lexemes with
    | nil => exact hasLevel_nil visibility
    | cons lexeme rest =>
      have hlater : ∀ visibility (behind : List Lexeme), behind.length ≤ rest.length →
          HasLevel hitem step tokens bound visibility behind := fun visibility behind hlength => by
        rw [List.length_cons] at hn hbound
        exact ih behind.length (by omega) visibility (by omega) rfl
      cases hword : lexeme.token.isOperator "\x7d" with
      | true => exact hasLevel_closing visibility hword
      | false =>
        cases hsection : sectionStart? (lexeme :: rest) with
        | none => exact hasLevel_item hbound hword (hlater visibility) hsection hstep
        | some opened =>
          have hinside := Nat.le_of_lt_succ (length_of_sectionStart? hsection)
          exact hasLevel_section hbound hword (hlater visibility) hsection (hlater _ _ hinside)

/-- The items of a container and the brace behind them. -/
theorem agrees_items (hstep : ∀ visibility comments,
      Mirrors (step visibility comments) (item visibility comments))
    (visibility : Visibility) (h : cursor.Ahead tokens bound lexemes)
    (hbound : lexemes.length < bound) {next : Declarations → Token → Step α}
    {later : (Declarations × Token) × List Lexeme → Reading α}
    (hnext : ∀ inner closing rest after, Cursor.Ahead after tokens bound rest →
      Agrees tokens bound (later ((inner, closing), rest)) (next inner closing after)) :
    Agrees tokens bound ((items item hitem visibility [] lexemes).bind later)
      ((do let inner ← Step.items step visibility
           let closing ← Step.expectSign "\x7d"
           next inner closing) cursor) := by
  have hlevels : HasLevel hitem step tokens bound visibility lexemes :=
    hasLevel hstep visibility hbound
  obtain ⟨reading, hlevel, hagrees⟩ := hlevels
  have hitems := hagrees .none cursor h
  rw [hlevel.items_eq]
  cases reading with
  -- The level fails as the items do
  | error e => exact .failed hitems
  | ok pair =>
    obtain ⟨own, closed⟩ := pair
    obtain ⟨hbrace, -⟩ := hlevel.atBrace _ _ rfl
    cases closed with
    | nil => cases hbrace
    | cons brace behind =>
      -- The level stops in front of its brace, which both sides then take
      refine .before hitems fun after hafter => ?_
      refine .before (agrees_sign hafter hbrace) fun outside houtside => ?_
      show Agrees tokens bound
        ((behindItems own (items item hitem visibility [] (brace :: behind))).bind later) _
      rw [items_eq_closing hitem _ hbrace]
      show Agrees tokens bound (later ((own ++ Declarations.none, brace.token), behind))
        (next own brace.token outside)
      rw [Declarations.append_none]
      exact hnext own brace.token behind outside houtside

end

/-! ### Structs -/

theorem mirrors_parent : Mirrors Step.parent parent := fun _ _ _ _ h =>
  (mirrors_expectIdentifier .parentName h).bind fun _ _ _ _ hname =>
    (mirrors_skipSize hname).bind fun _ _ _ _ hsize => .pure _ hsize

theorem mirrors_parents : Mirrors Step.parents parents := by
  intro tokens bound cursor lexemes h
  refine .before (mirrors_eatKeyword ["extends"] h) fun after hafter => ?_
  rw [parents]
  generalize acceptKeyword ["extends"] lexemes = accepted at hafter ⊢
  obtain ⟨_ | _, rest⟩ := accepted
  · exact .pure [] hafter
  · exact mirrors_commaSeparated consumes_parent mirrors_parent hafter

theorem mirrors_binding : Mirrors Step.binding fun lexemes =>
    .ok ((acceptBinding lexemes).1, (acceptBinding lexemes).2) := by
  intro tokens bound cursor lexemes h
  refine .before (mirrors_eatKeyword ["static"] h) fun after hafter => ?_
  dsimp only
  rw [acceptBinding]
  generalize acceptKeyword ["static"] lexemes = accepted at hafter ⊢
  obtain ⟨_ | _, rest⟩ := accepted
  · refine .before (mirrors_eatKeyword ["stub"] hafter) fun later hlater => ?_
    dsimp only
    generalize acceptKeyword ["stub"] rest = accepted at hlater ⊢
    obtain ⟨_ | _, rest⟩ := accepted
    · exact .pure _ hlater
    · exact .pure _ hlater
  · exact .pure _ hafter

theorem mirrors_structItem (visibility : Visibility) (comments : List CommentLine) :
    Mirrors (Step.structItem visibility comments) (structItem visibility comments) := by
  intro tokens bound cursor lexemes h
  refine .before (mirrors_visibilityPrefix h) fun own hown => ?_
  refine .before (mirrors_binding hown) fun bound hbound => ?_
  refine .before (mirrors_peek hbound) fun after hafter => ?_
  rw [structItem]
  dsimp only
  generalize (acceptBinding (acceptVisibility lexemes).2).2 = behind at hafter ⊢
  cases behind with
  | nil => rfl
  | cons lexeme rest =>
    rw [structItemBody]
    refine .ite (fun _ => ?_) fun _ => ?_
    · exact (agrees_method _ _ comments hafter).bind fun _ _ _ _ hmethod => .pure _ hmethod
    refine .ite (fun _ => .before (.advance hafter) fun _ htaken => .pure _ htaken) fun _ => ?_
    refine .ite (fun _ => ?_) fun _ => ?_
    · exact (mirrors_skipDeclaration hafter).bind fun _ _ _ _ hskipped => .pure _ hskipped
    · exact (mirrors_variableDeclaration hafter).bind fun _ _ _ _ hdeclared => .pure _ hdeclared

theorem agrees_struct (visibility : Visibility) (comments : List CommentLine)
    (h : cursor.Ahead tokens bound (lexeme :: rest)) :
    Agrees tokens bound (struct visibility comments lexeme.token rest)
      (Step.struct visibility comments cursor) := by
  refine .before (.need _ h) fun _ hkeyword => ?_
  refine (mirrors_expectIdentifier .structName hkeyword).bind fun _ _ _ _ hname => ?_
  refine (mirrors_skipSize hname).bind fun _ _ _ _ hsize => ?_
  refine (mirrors_parents hsize).bind fun _ _ _ _ hparents => ?_
  refine (mirrors_expectSign "\x7b" hparents).bind fun _ _ _ hsign hinside => ?_
  have hbound := Nat.lt_of_lt_of_le (consumes_sign _ _ _ _ hsign) hparents.length_le
  refine agrees_items mirrors_structItem .unmarked hinside hbound fun _ _ _ _ hclosed => ?_
  exact .before (mirrors_eatSign ";" hclosed) fun _ hsemicolon => .pure _ hsemicolon

/-! ### Libraries and programs -/

theorem isKeywordOf_libraryWords {token : Token} (h : token.isKeywordOf libraryWords = true) :
    token.isOperator ";" = false ∧ token.isIdentifier = true ∧
      libraryWords.contains token.text = true := by
  simp only [Token.isKeywordOf, Bool.and_eq_true, beq_iff_eq] at h
  exact ⟨by simp [Token.isOperator, h.1], by simp [Token.isIdentifier, h.1], h.2⟩

/-- At a word that opens a library the given step is made, and any other item is plain. -/
theorem agrees_itemWith {atLibrary : Token → Step Declarations} {visibility : Visibility}
    {comments : List CommentLine} {reading : Reading Declarations}
    (h : cursor.Ahead tokens bound lexemes)
    (hlibrary : ∀ lexeme rest after, lexemes = lexeme :: rest →
      lexeme.token.isKeywordOf libraryWords = true →
      Cursor.Ahead after tokens bound (lexeme :: rest) →
      Agrees tokens bound reading (atLibrary lexeme.token after))
    (hplain : (∀ lexeme ∈ lexemes.head?, ¬lexeme.token.isKeywordOf libraryWords = true) →
      reading = plainItem visibility comments lexemes) :
    Agrees tokens bound reading (Step.itemWith atLibrary visibility comments cursor) := by
  refine .before (mirrors_peek h) fun after hafter => ?_
  cases lexemes with
  | nil =>
    rw [hplain nofun]
    rfl
  | cons lexeme rest =>
    by_cases hword : lexeme.token.isKeywordOf libraryWords = true
    · -- A word that opens a library is no operator, so the first two tests fail
      obtain ⟨hoperator, hidentifier, hcontains⟩ := isKeywordOf_libraryWords hword
      dsimp only [List.head?_cons, Option.map_some]
      simp only [hoperator, hidentifier, hcontains, Bool.false_eq_true, Bool.not_true, if_true,
        if_false]
      exact hlibrary lexeme rest after rfl hword hafter
    · -- Both sides make the same tests in the same order from here on
      rw [hplain (by simpa using hword), plainItem]
      refine .ite (fun _ => .before (.advance hafter) fun _ htaken => .pure _ htaken) fun _ => ?_
      refine .ite (fun _ => rfl) fun hidentifier => ?_
      have hcontains : ¬libraryWords.contains lexeme.token.text = true := by
        simp only [Bool.not_eq_true, Bool.not_eq_false'] at hidentifier
        simpa [Token.isKeywordOf, show lexeme.token.kind = .identifier by
          simpa [Token.isIdentifier] using hidentifier] using hword
      rw [if_neg hcontains, if_neg hcontains]
      refine .ite (fun _ => ?_) fun _ => .ite (fun _ => ?_) fun _ => .ite (fun _ => ?_) fun _ => ?_
      · exact (agrees_struct visibility comments hafter).bind fun _ _ _ _ hstruct => .pure _ hstruct
      · exact (agrees_function visibility comments hafter).bind fun _ _ _ _ hfunction =>
          .pure _ hfunction
      · exact (mirrors_skipDeclaration hafter).bind fun _ _ _ _ hskipped => .pure _ hskipped
      · exact (mirrors_variableDeclaration hafter).bind fun _ _ _ _ hdeclared => .pure _ hdeclared

theorem mirrors_libraryItem (visibility : Visibility) (comments : List CommentLine) :
    Mirrors (Step.libraryItem visibility comments) (libraryItem visibility comments) := by
  intro tokens bound cursor lexemes h
  refine .before (mirrors_visibilityPrefix h) fun own hown => ?_
  refine agrees_itemWith hown (fun lexeme rest after hcons hword hafter => ?_) fun _ => rfl
  obtain ⟨hoperator, hidentifier, hcontains⟩ := isKeywordOf_libraryWords hword
  rw [libraryItem, hcons, plainItem, hoperator, hidentifier, hcontains]
  rfl

theorem mirrors_requirement : Mirrors Step.requirement requirement := fun _ _ _ _ h =>
  .before (mirrors_eatKeyword ["optional"] h) fun _ hoptional =>
    (mirrors_expectIdentifier .libraryName hoptional).bind fun _ _ _ _ hname => .pure _ hname

theorem mirrors_requirements : Mirrors Step.requirements requirements := by
  intro tokens bound cursor lexemes h
  refine .before (mirrors_eatKeyword ["requires", "needs", "uses"] h) fun after hafter => ?_
  rw [requirements]
  generalize acceptKeyword ["requires", "needs", "uses"] lexemes = accepted at hafter ⊢
  obtain ⟨_ | _, rest⟩ := accepted
  · exact .pure [] hafter
  · exact mirrors_commaSeparated consumes_requirement mirrors_requirement hafter

theorem agrees_library (comments : List CommentLine)
    (h : cursor.Ahead tokens bound (lexeme :: rest)) :
    Agrees tokens bound (library comments lexeme.token rest) (Step.library comments cursor) := by
  refine .before (.need _ h) fun _ hkeyword => ?_
  refine (mirrors_expectIdentifier .libraryName hkeyword).bind fun _ _ _ _ hname => ?_
  refine (mirrors_requirements hname).bind fun _ _ _ _ hrequirements => ?_
  refine (mirrors_expectSign "\x7b" hrequirements).bind fun _ _ _ hsign hinside => ?_
  have hbound := Nat.lt_of_lt_of_le (consumes_sign _ _ _ _ hsign) hrequirements.length_le
  exact agrees_items mirrors_libraryItem .hidden hinside hbound fun _ _ _ _ hclosed =>
    .pure _ hclosed

theorem mirrors_topItem (comments : List CommentLine) :
    Mirrors (Step.topItem comments) (topItem comments) := by
  intro tokens bound cursor lexemes h
  refine .before (mirrors_visibilityPrefix h) fun own hown => ?_
  rw [topItem]
  refine agrees_itemWith hown (fun lexeme rest after hcons hword hafter => ?_) fun hplain => ?_
  · rw [hcons, topItemBody, if_pos hword]
    exact (agrees_library comments hafter).bind fun _ _ _ _ hlibrary => .pure _ hlibrary
  · generalize (acceptVisibility lexemes).2 = behind at hplain ⊢
    cases behind with
    | nil => rfl
    | cons lexeme rest => rw [topItemBody, if_neg (hplain lexeme rfl)]

/-- What the loop over the items of a program comes to: an error, or declarations and the end of the
tokens. -/
def EndsWith (tokens : List Token) (reading : Except ZincError Declarations)
    (outcome : Except Stop (Declarations × Cursor)) : Prop :=
  match reading with
  | .error e => outcome = .error (.error e)
  | .ok declared => ∃ after, outcome = .ok (declared, after) ∧ after.tokens = tokens ∧
      after.pos = tokens.length

theorem atEnd_nil (h : cursor.Ahead tokens bound []) :
    Step.atEnd cursor = .ok (true, cursor.passComments) := by
  have hpeek : Step.peek cursor = .ok (none, cursor.passComments) := by
    rw [Step.peek, h.passComments.getElem?]
    rfl
  exact Checked.bind_of_eq hpeek _

theorem endsWith_loop (h : cursor.Ahead tokens bound lexemes) (hbound : lexemes.length < bound)
    (found : Declarations) :
    EndsWith tokens ((declarations lexemes).map (found ++ ·))
      (Step.loop Step.programRound found cursor) := by
  -- The induction is on the lexemes ahead, with whatever declarations have been found before
  induction hn : lexemes.length using Nat.strongRecOn generalizing found cursor lexemes with
  | ind n ih =>
    subst hn
    rw [Step.loop_eq]
    cases lexemes with
    | nil =>
      -- Without another lexeme the cursor passes the comments that are left, and is at the end
      rw [declarations, Step.programRound, Checked.bind_of_eq (atEnd_nil h)]
      refine ⟨cursor.passComments, ?_, h.passComments.tokens_eq, h.passComments.pos_eq⟩
      show Except.ok _ = Except.ok (found ++ Declarations.none, _)
      rw [Declarations.append_none]
    | cons lexeme rest =>
      obtain ⟨ahead, hatEnd, hahead⟩ := mirrors_atEnd h
      obtain ⟨comments, asked, htake, hasked, hcomments⟩ := takeComments_eq hahead
      rw [Step.programRound, Checked.bind_of_eq hatEnd]
      show EndsWith _ _ ((Step.takeComments >>= _) _)
      rw [Checked.bind_of_eq htake, hcomments hbound lexeme rfl, declarations_eq_bind]
      have hitem := mirrors_topItem lexeme.comments hasked
      cases hread : topItem lexeme.comments (lexeme :: rest) with
      | error e =>
        rw [hread] at hitem
        exact Checked.bind_of_error hitem _
      | ok pair =>
        obtain ⟨declared, behind⟩ := pair
        rw [hread] at hitem
        obtain ⟨after, htaken, hafter⟩ := hitem
        -- The item has taken a lexeme, so the cursor has moved on and the loop goes round
        have hbehind := consumes_topItem _ _ _ _ hread
        have hafter := hafter.renew hbehind (Nat.le_of_lt hbound)
        rw [Checked.bind_of_eq htaken]
        show EndsWith _ (((declarations behind).map (declared ++ ·)).map (found ++ ·))
          (if after.left < cursor.left then _ else _)
        rw [if_pos (h.left_lt hafter hbehind)]
        have hothers := ih behind.length hbehind hafter (Nat.lt_trans hbehind hbound)
          (found ++ declared) rfl
        cases hrest : declarations behind with
        | error e => rwa [hrest] at hothers
        | ok others =>
          rw [hrest] at hothers
          show EndsWith _ (.ok (found ++ (declared ++ others))) _
          rwa [← Declarations.append_assoc]

/-- The step over a whole program fails as the reader does, or it declares the same and stands at
the end of the tokens. -/
theorem endsWith_program (tokens : List Token) :
    EndsWith tokens (declarations (Lexeme.ofTokens tokens)) (Step.program (.start tokens)) := by
  have hstart : (Cursor.start tokens).Ahead tokens _ (Lexeme.ofTokens tokens) :=
    Cursor.ahead_start (Nat.le_succ _)
  have hloop := endsWith_loop hstart (Nat.lt_succ_self _) .none
  cases hread : declarations (Lexeme.ofTokens tokens) with
  | error e => rwa [hread] at hloop
  | ok declared => rwa [hread] at hloop

theorem run_cases (tokens : List Token) :
    (∃ e, parse tokens = .error e ∧ run tokens = .error (.error e)) ∨
      ∃ program after, parse tokens = .ok program ∧ run tokens = .ok (program, after) ∧
        after.tokens = tokens ∧ after.pos = tokens.length := by
  have hprogram := endsWith_program tokens
  rw [parse, run]
  cases hread : declarations (Lexeme.ofTokens tokens) with
  | error e =>
    rw [hread] at hprogram
    rw [show Step.program _ = _ from hprogram]
    exact .inl ⟨e, rfl, rfl⟩
  | ok declared =>
    rw [hread] at hprogram
    obtain ⟨after, hafter, hend⟩ := hprogram
    rw [hafter]
    exact .inr ⟨_, after, rfl, rfl, hend⟩

/-- The cursor comes to an end on every token list, comments, marks of the end and signs that no
text has included. No round of a loop starts another one without having taken a token, so none is
stuck: it takes one, or it is the last one of its loop, or it fails. What comes out is what the
readers make of the lexemes. And where that is a program, the cursor stands behind the last of the
tokens. -/
theorem run_takes_all (tokens : List Token) :
    run tokens ≠ .error (.fault .stuck) ∧
    (∀ e, run tokens = .error (.error e) ↔ parse tokens = .error e) ∧
    (∀ program, (∃ after, run tokens = .ok (program, after)) ↔ parse tokens = .ok program) ∧
    ∀ program after, run tokens = .ok (program, after) →
      after.tokens = tokens ∧ after.pos = tokens.length := by
  obtain ⟨e, hparse, hrun⟩ | ⟨program, after, hparse, hrun, hend⟩ := run_cases tokens
  · rw [hparse, hrun]
    exact ⟨nofun, by simp, by simp, nofun⟩
  · rw [hparse, hrun]
    refine ⟨nofun, by simp, fun other => ?_, fun other last h => ?_⟩
    · simp
    · cases h
      exact hend

end JassOutline.Zinc
