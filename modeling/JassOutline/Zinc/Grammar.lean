import JassOutline.Program.Declarations
import JassOutline.Zinc.Routine

/-!
# The grammar of the zinc dialect

`Zinc.parse` reads the declarations of a token list: libraries, structs, functions and variables.
Libraries and structs hold sections, `public { … }` and `private { … }`, which nest and set the
visibility of what they hold. The loops over the items of a container keep a stack of the
visibilities of the open sections.

Bridge lemmas: each reader here has a lemma that says how many lexemes it leaves.
-/

namespace JassOutline.Zinc

/-- The words that open a declaration without a place in a program. -/
def skippedWords : List String :=
  ["interface", "module", "type", "hook", "implement", "delegate", "optional"]

/-- The words that open a library. -/
def libraryWords : List String := ["library", "library_once"]

/-- The visibility at the start of the lexemes, if there is one, and the lexemes without it. -/
def acceptVisibility : List Lexeme → Option Visibility × List Lexeme
  | [] => (none, [])
  | lexeme :: rest =>
    match Visibility.ofWord? lexeme.token.text with
    | some visibility => (some visibility, rest)
    | none => (none, lexeme :: rest)

theorem length_acceptVisibility_le (lexemes : List Lexeme) :
    (acceptVisibility lexemes).2.length ≤ lexemes.length := by
  unfold acceptVisibility
  split
  · simp
  · split <;> simp

/-- The visibility of a section that opens with the lexemes, and the lexemes inside of it. -/
def sectionStart? : List Lexeme → Option (Visibility × List Lexeme)
  | first :: brace :: rest =>
    if brace.token.isOperator "\x7b" then
      (Visibility.ofWord? first.token.text).map fun visibility => (visibility, rest)
    else none
  | _ => none

theorem length_of_sectionStart? {lexemes rest : List Lexeme} {visibility : Visibility}
    (h : sectionStart? lexemes = some (visibility, rest)) : rest.length < lexemes.length := by
  unfold sectionStart? at h
  split at h
  · split at h
    · obtain ⟨_, _, hpair⟩ := Option.map_eq_some_iff.1 h
      cases hpair
      simp only [List.length_cons]
      omega
    · simp at h
  · simp at h

/-! ### Structs -/

/-- Reads the name of a parent with its size. -/
def parent (lexemes : List Lexeme) : Except ZincError (String × List Lexeme) := do
  let (name, rest) ← identifier .parentName lexemes
  let (_, rest) ← skipSize rest
  .ok (name.text, rest)

theorem consumes_parent : Consumes parent := by
  intro lexemes
  refine Leaves.bind (consumes_identifier _ _) fun _ _ hname => ?_
  refine Leaves.bind (leaves_skipSize _) fun _ _ hsize => .ok ?_
  omega

/-- Reads the parents of a struct, if it has any. -/
def parents (lexemes : List Lexeme) : Reading (List String) :=
  match acceptKeyword ["extends"] lexemes with
  | (true, rest) => commaSeparated parent consumes_parent rest
  | (false, rest) => .ok ([], rest)

theorem leaves_parents (lexemes : List Lexeme) :
    Leaves (lexemes.length + 1) (parents lexemes) := by
  have hle := length_acceptKeyword_le ["extends"] lexemes
  unfold parents
  split
  · next rest hrest =>
    rw [hrest] at hle
    exact (consumes_commaSeparated consumes_parent rest).mono (Nat.le_succ_of_le hle)
  · next rest hrest =>
    rw [hrest] at hle
    exact .ok (Nat.lt_succ_of_le hle)

/-- The binding at the start of the lexemes, and the lexemes without it. -/
def acceptBinding (lexemes : List Lexeme) : Binding × List Lexeme :=
  match acceptKeyword ["static"] lexemes with
  | (true, rest) => (.static, rest)
  | (false, rest) =>
    match acceptKeyword ["stub"] rest with
    | (true, rest) => (.stub, rest)
    | (false, rest) => (.ordinary, rest)

theorem length_acceptBinding_le (lexemes : List Lexeme) :
    (acceptBinding lexemes).2.length ≤ lexemes.length := by
  have hstatic := length_acceptKeyword_le ["static"] lexemes
  unfold acceptBinding
  split
  · next rest hrest => rwa [hrest] at hstatic
  · next rest hrest =>
    rw [hrest] at hstatic
    have hstub := length_acceptKeyword_le ["stub"] rest
    split
    · next hrest => rw [hrest] at hstub; exact Nat.le_trans hstub hstatic
    · next hrest => rw [hrest] at hstub; exact Nat.le_trans hstub hstatic

/-- Reads one item of a struct behind its visibility and its binding. -/
def structItemBody (visibility : Visibility) (binding : Binding) (comments : List CommentLine) :
    List Lexeme → Except ZincError (Declarations × List Lexeme)
  | [] => .error (.endOfCode .structMember)
  | lexeme :: rest =>
    if lexeme.token.isKeyword "method" then do
      let (declared, rest) ← method visibility binding comments lexeme.token rest
      .ok ({ Declarations.none with methods := [declared] }, rest)
    else if lexeme.token.isOperator ";" then .ok (.none, rest)
    else if skippedWords.contains lexeme.token.text then do
      let (_, rest) ← skipDeclaration 0 (lexeme :: rest)
      .ok (.none, rest)
    else do
      let (declared, rest) ← variableDeclaration (lexeme :: rest)
      let members := Variable.declare (·.toMember visibility binding ·) comments declared
      .ok ({ Declarations.none with members }, rest)

theorem isOperator_of_skippedWords {token : Token}
    (h : skippedWords.contains token.text = true) : token.isOperator "\x7d" = false := by
  cases hbrace : token.isOperator "\x7d" with
  | false => rfl
  | true =>
    simp only [Token.isOperator, Bool.and_eq_true, beq_iff_eq] at hbrace
    rw [hbrace.2] at h
    exact absurd h (by decide)

theorem consumes_structItemBody (visibility : Visibility) (binding : Binding)
    (comments : List CommentLine) : Consumes (structItemBody visibility binding comments) := by
  intro lexemes
  unfold structItemBody
  split
  · exact .error
  · next lexeme rest =>
    split
    · refine Leaves.bind (consumes_method _ _ _ _ _) fun _ _ hrest => .ok ?_
      exact Nat.lt_succ_of_lt hrest
    · split
      · exact .ok (by simp)
      · split
        · next hskipped =>
          exact Leaves.bind
            (leaves_skipDeclaration_cons (isOperator_of_skippedWords hskipped) rest)
            fun _ _ hrest => .ok hrest
        · exact Leaves.bind (consumes_variableDeclaration _) fun _ _ hrest => .ok hrest

/-- Reads one item of a struct. -/
def structItem (visibility : Visibility) (comments : List CommentLine) (lexemes : List Lexeme) :
    Reading Declarations :=
  let own := acceptVisibility lexemes
  let bound := acceptBinding own.2
  structItemBody (own.1.getD visibility) bound.1 comments bound.2

theorem consumes_structItem (visibility : Visibility) (comments : List CommentLine) :
    Consumes (structItem visibility comments) := fun lexemes =>
  (consumes_structItemBody _ _ _ _).mono
    (Nat.le_trans (length_acceptBinding_le _) (length_acceptVisibility_le lexemes))

/-! ### Items in sections -/

/-- Reads the items of a container through the brace that closes it. `visibility` is that of the
innermost open section and `outer` those of what is open around it. -/
def items (item : Visibility → List CommentLine → List Lexeme → Reading Declarations)
    (hitem : ∀ visibility comments, Consumes (item visibility comments))
    (visibility : Visibility) (outer : List Visibility) (lexemes : List Lexeme) :
    Except ZincError ((Declarations × Token) × List Lexeme) :=
  match lexemes with
  | [] => .error (.endOfCode (.sign "\x7d"))
  | lexeme :: rest =>
    if lexeme.token.isOperator "\x7d" then
      match outer with
      | [] => .ok ((.none, lexeme.token), rest)
      -- The brace closes a section, and the one around it goes on
      | visibility :: outer => items item hitem visibility outer rest
    else
      match _hsection : sectionStart? (lexeme :: rest) with
      | some (inner, rest) => items item hitem inner (visibility :: outer) rest
      | none =>
        match _hread : item visibility lexeme.comments (lexeme :: rest) with
        | .error e => .error e
        | .ok (declared, rest) => do
          let ((more, closing), rest) ← items item hitem visibility outer rest
          .ok ((declared ++ more, closing), rest)
termination_by lexemes.length
decreasing_by
  · simp
  · exact length_of_sectionStart? _hsection
  · exact hitem _ _ _ _ _ _hread

theorem consumes_items {item : Visibility → List CommentLine → List Lexeme → Reading Declarations}
    (hitem : ∀ visibility comments, Consumes (item visibility comments))
    (visibility : Visibility) (outer : List Visibility) :
    Consumes (items item hitem visibility outer) := by
  intro lexemes
  fun_induction items item hitem visibility outer lexemes with
  | case1 => exact .error
  | case2 => exact .ok (by simp)
  | case3 _ _ _ _ _ _ ih => exact ih.mono (by simp)
  | case4 _ _ _ _ _ _ _ hsection ih =>
    exact ih.mono (Nat.le_of_lt (length_of_sectionStart? hsection))
  | case5 => exact .error
  | case6 _ _ _ _ _ _ _ _ hread ih =>
    have := hitem _ _ _ _ _ hread
    refine Leaves.bind ih fun _ _ hrest => .ok ?_
    omega

/-- Reads a struct, from its keyword on. -/
def struct (visibility : Visibility) (comments : List CommentLine) (keyword : Token)
    (lexemes : List Lexeme) : Except ZincError (Struct × List Lexeme) := do
  let (name, rest) ← identifier .structName lexemes
  let (_, rest) ← skipSize rest
  let (parents, rest) ← parents rest
  let (_, rest) ← sign "\x7b" rest
  let ((inner, closing), rest) ← items structItem consumes_structItem .unmarked [] rest
  .ok ({ name := some name.text
         comments
         region := ⟨keyword.start, closing.stop⟩
         visibility
         parents
         members := inner.members
         methods := inner.methods }, acceptSign ";" rest)

theorem consumes_struct (visibility : Visibility) (comments : List CommentLine)
    (keyword : Token) : Consumes (struct visibility comments keyword) := by
  intro lexemes
  refine Leaves.bind (consumes_identifier _ _) fun _ _ hname => ?_
  refine Leaves.bind (leaves_skipSize _) fun _ _ hsize => ?_
  refine Leaves.bind (leaves_parents _) fun _ _ hparents => ?_
  refine Leaves.bind (consumes_sign _ _) fun _ _ hsign => ?_
  refine Leaves.bind (consumes_items consumes_structItem _ _ _) fun _ rest hitems => .ok ?_
  have := length_acceptSign_le ";" rest
  omega

/-! ### Libraries and whole programs -/

/-- Reads an item other than a library, behind its visibility. -/
def plainItem (visibility : Visibility) (comments : List CommentLine) :
    List Lexeme → Except ZincError (Declarations × List Lexeme)
  | [] => .error (.endOfCode .declaration)
  | lexeme :: rest =>
    if lexeme.token.isOperator ";" then .ok (.none, rest)
    else if !lexeme.token.isIdentifier then .error (.unexpected lexeme.token .declaration)
    else if libraryWords.contains lexeme.token.text then
      .error (.unexpected lexeme.token .libraryMember)
    else if lexeme.token.isKeyword "struct" then do
      let (declared, rest) ← struct visibility comments lexeme.token rest
      .ok ({ Declarations.none with structs := [declared] }, rest)
    else if lexeme.token.isKeyword "function" then do
      let (declared, rest) ← function visibility comments lexeme.token rest
      .ok ({ Declarations.none with functions := [declared] }, rest)
    else if skippedWords.contains lexeme.token.text then do
      let (_, rest) ← skipDeclaration 0 (lexeme :: rest)
      .ok (.none, rest)
    else do
      let (declared, rest) ← variableDeclaration (lexeme :: rest)
      let globals := Variable.declare (·.toGlobal visibility ·) comments declared
      .ok ({ Declarations.none with globals }, rest)

theorem consumes_plainItem (visibility : Visibility) (comments : List CommentLine) :
    Consumes (plainItem visibility comments) := by
  intro lexemes
  unfold plainItem
  split
  · exact .error
  · next lexeme rest =>
    split
    · exact .ok (by simp)
    split
    · exact .error
    split
    · exact .error
    split
    · refine Leaves.bind (consumes_struct _ _ _ _) fun _ _ hrest => .ok ?_
      exact Nat.lt_succ_of_lt hrest
    split
    · refine Leaves.bind (consumes_function _ _ _ _) fun _ _ hrest => .ok ?_
      exact Nat.lt_succ_of_lt hrest
    split
    · next hskipped =>
      exact Leaves.bind (leaves_skipDeclaration_cons (isOperator_of_skippedWords hskipped) rest)
        fun _ _ hrest => .ok hrest
    · exact Leaves.bind (consumes_variableDeclaration _) fun _ _ hrest => .ok hrest

/-- Reads an item of a library. -/
def libraryItem (visibility : Visibility) (comments : List CommentLine) (lexemes : List Lexeme) :
    Reading Declarations :=
  let own := acceptVisibility lexemes
  plainItem (own.1.getD visibility) comments own.2

theorem consumes_libraryItem (visibility : Visibility) (comments : List CommentLine) :
    Consumes (libraryItem visibility comments) := fun lexemes =>
  (consumes_plainItem _ _ _).mono (length_acceptVisibility_le lexemes)

/-- Reads the name of a library that another one needs. -/
def requirement (lexemes : List Lexeme) : Except ZincError (String × List Lexeme) := do
  let (name, rest) ← identifier .libraryName (acceptKeyword ["optional"] lexemes).2
  .ok (name.text, rest)

theorem consumes_requirement : Consumes requirement := by
  intro lexemes
  refine Leaves.bind (consumes_identifier _ _) fun _ _ hname => .ok ?_
  exact Nat.lt_of_lt_of_le hname (length_acceptKeyword_le _ _)

/-- Reads the names of the libraries that a library needs, if it needs any. -/
def requirements (lexemes : List Lexeme) : Reading (List String) :=
  match acceptKeyword ["requires", "needs", "uses"] lexemes with
  | (true, rest) => commaSeparated requirement consumes_requirement rest
  | (false, rest) => .ok ([], rest)

theorem leaves_requirements (lexemes : List Lexeme) :
    Leaves (lexemes.length + 1) (requirements lexemes) := by
  have hle := length_acceptKeyword_le ["requires", "needs", "uses"] lexemes
  unfold requirements
  split
  · next rest hrest =>
    rw [hrest] at hle
    exact (consumes_commaSeparated consumes_requirement rest).mono (Nat.le_succ_of_le hle)
  · next rest hrest =>
    rw [hrest] at hle
    exact .ok (Nat.lt_succ_of_le hle)

/-- The function that sets a library up, if it has one: there is no other way to name it. -/
def setUpOf (functions : List Function) : Option String :=
  if functions.any (·.name == some "onInit") then some "onInit" else none

/-- Reads a library, from its keyword on. Its items are private unless they say otherwise. -/
def library (comments : List CommentLine) (keyword : Token) (lexemes : List Lexeme) :
    Except ZincError (Library × List Lexeme) := do
  let (name, rest) ← identifier .libraryName lexemes
  let (requirements, rest) ← requirements rest
  let (_, rest) ← sign "\x7b" rest
  let ((inner, closing), rest) ← items libraryItem consumes_libraryItem .hidden [] rest
  .ok ({ name := some name.text
         comments
         region := ⟨keyword.start, closing.stop⟩
         setUp := setUpOf inner.functions
         requirements
         globals := inner.globals
         functions := inner.functions
         structs := inner.structs }, rest)

theorem consumes_library (comments : List CommentLine) (keyword : Token) :
    Consumes (library comments keyword) := by
  intro lexemes
  refine Leaves.bind (consumes_identifier _ _) fun _ _ hname => ?_
  refine Leaves.bind (leaves_requirements _) fun _ _ hrequirements => ?_
  refine Leaves.bind (consumes_sign _ _) fun _ _ hsign => ?_
  refine Leaves.bind (consumes_items consumes_libraryItem _ _ _) fun _ _ hitems => .ok ?_
  omega

/-- Reads an item of a program, behind its visibility. -/
def topItemBody (visibility : Visibility) (comments : List CommentLine) :
    List Lexeme → Except ZincError (Declarations × List Lexeme)
  | [] => plainItem visibility comments []
  | lexeme :: rest =>
    if lexeme.token.isKeywordOf libraryWords then do
      let (declared, rest) ← library comments lexeme.token rest
      .ok ({ Declarations.none with libraries := [declared] }, rest)
    else plainItem visibility comments (lexeme :: rest)

theorem consumes_topItemBody (visibility : Visibility) (comments : List CommentLine) :
    Consumes (topItemBody visibility comments) := by
  intro lexemes
  unfold topItemBody
  split
  · exact consumes_plainItem _ _ _
  · split
    · refine Leaves.bind (consumes_library _ _ _) fun _ _ hrest => .ok ?_
      exact Nat.lt_succ_of_lt hrest
    · exact consumes_plainItem _ _ _

/-- Reads an item of a program. -/
def topItem (comments : List CommentLine) (lexemes : List Lexeme) : Reading Declarations :=
  let own := acceptVisibility lexemes
  topItemBody (own.1.getD .unmarked) comments own.2

theorem consumes_topItem (comments : List CommentLine) : Consumes (topItem comments) :=
  fun lexemes => (consumes_topItemBody _ _ _).mono (length_acceptVisibility_le lexemes)

/-- The declarations of a whole list of lexemes. -/
def declarations (lexemes : List Lexeme) : Except ZincError Declarations :=
  match lexemes with
  | [] => .ok .none
  | lexeme :: rest =>
    match _hread : topItem lexeme.comments (lexeme :: rest) with
    | .error e => .error e
    | .ok (declared, rest) => do
      let more ← declarations rest
      .ok (declared ++ more)
termination_by lexemes.length
decreasing_by exact consumes_topItem _ _ _ _ _hread

/-- The program that a token list declares. -/
def parse (tokens : List Token) : Except ZincError Program := do
  let declared ← declarations (Lexeme.ofTokens tokens)
  .ok (.ofDeclarations 0 declared)

end JassOutline.Zinc
