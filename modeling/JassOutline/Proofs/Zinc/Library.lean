import JassOutline.Proofs.Zinc.Struct

/-!
# Reading written libraries

Variables, functions and structs are read behind their visibility, whether they stand in a library
or not, and so are the libraries around them and the whole program.

## Key results

- `readsItems_libraryItem`: the items of a library
- `library_of_writes`: a library through the brace that closes it
- `declarations_of_writes`: a whole program
-/

namespace JassOutline.Zinc

open Lexeme

variable {front more : List Lexeme} {labels : List Label}

/-! ### Items other than libraries -/

/-- Written items start with two words. -/
theorem itemsStartWithWords_plainItem : ItemsStartWithWords PlainItemWrites := by
  intro outer marks declared h
  cases h with
  | globalVariable =>
    rw [Mark.label_below]
    exact (startsWithWords_variableLabels _ _).words_append _
  | function | struct =>
    rw [List.map_append, List.map_append, Mark.label_below, List.append_assoc, List.append_assoc]
    exact StartsWithWords.words_append _ ⟨_, _, _, rfl⟩

/-- A global variable is read through its semicolon. -/
theorem plainItem_globalVariable {v : GlobalVariable} {given : List CommentLine}
    (hshape : v.shape.isWritable isFree = true)
    (h : front.map label = variableLabels v.isConstant v.shape)
    (hgiven : given.map CommentLine.text = v.comments.map CommentLine.text)
    (more : List Lexeme) :
    ∃ read : Declarations,
      plainItem v.visibility given (front ++ more) = .ok (read, more) ∧
        read.bare = { Declarations.none with globals := [v] }.bare := by
  obtain ⟨declared, hread, hconstant, hparts⟩ := variableDeclaration_of_labels h hshape more
  -- The first word of the declaration is none of those that the reader asks for
  obtain ⟨word, later, hlabels, hword⟩ :
      StartsWithOther (libraryWords ++ ["struct", "function"] ++ skippedWords)
        (variableLabels v.isConstant v.shape) :=
    startsWithOther_variableLabels hshape (by decide)
  obtain ⟨first, rest, rfl, hfirst, -⟩ := labels_eq_cons.1 (h.trans hlabels)
  simp only [List.mem_append, List.mem_cons, List.not_mem_nil, or_false, not_or] at hword
  obtain ⟨⟨hlibrary, hstruct, hfunction⟩, hskipped⟩ := hword
  let read : GlobalVariable := declared.toGlobal v.visibility given
  refine ⟨{ Declarations.none with globals := [read] }, ?_, ?_⟩
  · rw [List.cons_append] at hread ⊢
    simp [plainItem, Token.isOperator_of_word hfirst, Token.isIdentifier_of_word hfirst,
      Token.text_of_word hfirst, hlibrary, Token.isKeyword_of_word hfirst, hstruct, hfunction,
      hskipped, hread, Variable.declare, read, bind, Except.bind]
  · obtain ⟨htype, harray, hname⟩ :
        some declared.type = v.type ∧ declared.isArray = v.isArray ∧
          some declared.name = v.name := by
      simpa [GlobalVariable.shape] using hparts
    have hbare : read.bare = v.bare := by
      simp only [read, Variable.toGlobal, GlobalVariable.bare, Heading.bare, htype, harray, hname,
        hconstant, bare_of_text hgiven]
    simp [Declarations.bare, Declarations.none, hbare]

/-- A function is read through the brace behind its body. -/
theorem plainItem_function {function : Function} {inner : List Mark} {inside : List Lexeme}
    {close : Lexeme} {given : List CommentLine}
    (head : RoutineHead "function" [nameLabel function.name] function.signature)
    (hsignature : function.signature.isWritable isFree = true)
    (hconstant : function.isConstant = false) (hglobals : function.globals = [])
    (hbody : BodyWrites inner function.locals) (hinside : inside.map mark = inner)
    (hclose : close.token.label = .sign "\x7d")
    (hgiven : given.map CommentLine.text = function.comments.map CommentLine.text)
    (more : List Lexeme) :
    ∃ read : Declarations,
      plainItem function.visibility given (head.first :: head.before (inside ++ close :: more)) =
          .ok (read, more) ∧
        read.bare = { Declarations.none with functions := [function] }.bare := by
  obtain ⟨read, hread, hbare⟩ := function_of_writes head hsignature hconstant hglobals hbody
    hinside hclose hgiven more
  have hkeyword : head.first.token.label = .word "function" := head.label_first
  refine ⟨{ Declarations.none with functions := [read] }, ?_, ?_⟩
  · simp [plainItem, Token.isOperator_of_word hkeyword, Token.isIdentifier_of_word hkeyword,
      Token.text_of_word hkeyword, libraryWords, Token.isKeyword_of_word hkeyword, hread, bind,
      Except.bind]
  · simp [Declarations.bare, Declarations.none, hbare]

/-- A struct is read through the brace that closes it, if no semicolon follows. -/
theorem plainItem_struct {struct : Struct} {inner : List Mark} {inside : List Lexeme}
    {close : Lexeme} {given : List CommentLine} (hname : struct.name.any isFree = true)
    (hparents : struct.parents.all isFree = true)
    (hitems : ItemsWrite StructItemWrites .unmarked inner
      { Declarations.none with members := struct.members, methods := struct.methods })
    (h : front.map label = structLabels struct) (hinside : inside.map mark = inner)
    (hclose : close.token.label = .sign "\x7d")
    (hgiven : given.map CommentLine.text = struct.comments.map CommentLine.text)
    (hmore : startsWithSign ";" more = false) :
    ∃ read : Declarations,
      plainItem struct.visibility given (front ++ (inside ++ close :: more)) = .ok (read, more) ∧
        read.bare = { Declarations.none with structs := [struct] }.bare := by
  obtain ⟨keyword, rest, rfl, hkeyword, hrest⟩ := labels_eq_cons.1 h
  obtain ⟨read, hread, hbare⟩ := struct_of_writes hname hparents hitems hrest hinside hclose
    hgiven keyword.token hmore
  refine ⟨{ Declarations.none with structs := [read] }, ?_, ?_⟩
  · rw [List.cons_append]
    simp [plainItem, Token.isOperator_of_word hkeyword, Token.isIdentifier_of_word hkeyword,
      Token.text_of_word hkeyword, libraryWords, Token.isKeyword_of_word hkeyword, hread, bind,
      Except.bind]
  · simp [Declarations.bare, Declarations.none, hbare]

/-- An item is read behind its visibility, and its first word opens no library. -/
theorem plainItem_of_writes {outer : Visibility} {marks : List Mark} {declared : Declarations}
    {first : Lexeme} (h : PlainItemWrites outer marks declared)
    (hfront : (first :: front).map mark = marks) (hmore : startsWithSign ";" more = false) :
    ∃ own lexeme rest word read,
      acceptVisibility (first :: (front ++ more)) = (own, lexeme :: rest) ∧
        lexeme.token.label = .word word ∧ word ∉ libraryWords ∧
        plainItem (own.getD outer) first.comments (lexeme :: rest) = .ok (read, more) ∧
        read.bare = declared.bare := by
  cases h with
  | @globalVariable v words hshows hshape =>
    -- The visibility is taken first, and it is the one that was written or the one the section
    -- gives
    have hlabels := (label_of_mark hfront).trans (Mark.label_below ..)
    obtain ⟨own, rest, hown, hrest, hvisibility⟩ := acceptVisibility_of_shows hshows hlabels
      (startsWithOther_variableLabels hshape (by decide)) more
    obtain ⟨word, later, hword, hlibrary⟩ : StartsWithOther libraryWords
        (variableLabels v.isConstant v.shape) :=
      startsWithOther_variableLabels hshape (by decide)
    obtain ⟨read, hread, hbare⟩ := plainItem_globalVariable hshape hrest
      (comments_of_below hfront) more
    obtain ⟨lexeme, rest, rfl, hlexeme, -⟩ := labels_eq_cons.1 (hrest.trans hword)
    rw [← hvisibility] at hread
    exact ⟨own, lexeme, rest ++ more, word, read, hown, hlexeme, hlibrary, hread, hbare⟩
  | @function function words body hshows hsignature hconstant hglobals hbody =>
    -- The marks are those of the header, of what is inside, and of the brace that closes it
    obtain ⟨later, inside, close, rfl, hhead, hinside, hclose, hgiven⟩ :=
      block_of_marks hfront (by simp [routineLabels])
    obtain ⟨own, rest, hown, hrest, hvisibility⟩ :=
      acceptVisibility_of_shows hshows hhead ⟨"function", _, rfl, by decide⟩
        (inside ++ close :: more)
    obtain ⟨head, hsplit⟩ := RoutineHead.exists_eq hrest
    obtain ⟨read, hread, hbare⟩ := plainItem_function head hsignature hconstant hglobals hbody
      hinside hclose hgiven more
    -- Behind its visibility, the item starts with the first word of the routine
    rw [← hvisibility] at hread
    refine ⟨own, head.first, head.before (inside ++ close :: more), "function", read, ?_,
      head.label_first, by decide, hread, hbare⟩
    rw [← hsplit]
    simpa using hown
  | @struct struct words inner hshows hname hparents hitems =>
    -- A struct is cut in the same way, and its first word is the keyword
    obtain ⟨later, inside, close, rfl, hhead, hinside, hclose, hgiven⟩ :=
      block_of_marks hfront (by simp [structLabels])
    obtain ⟨own, rest, hown, hrest, hvisibility⟩ :=
      acceptVisibility_of_shows hshows hhead ⟨"struct", _, rfl, by decide⟩
        (inside ++ close :: more)
    obtain ⟨read, hread, hbare⟩ := plainItem_struct hname hparents hitems hrest hinside hclose
      hgiven hmore
    obtain ⟨keyword, rest, rfl, hkeyword, -⟩ := labels_eq_cons.1 hrest
    rw [← hvisibility] at hread
    exact ⟨own, keyword, rest ++ (inside ++ close :: more), "struct", read, by simpa using hown,
      hkeyword, by decide, hread, hbare⟩

/-- Variables, functions and structs are read in a library as they are written. -/
theorem readsItems_libraryItem : ReadsItems PlainItemWrites libraryItem := by
  intro outer marks declared h first front hfront more hmore
  obtain ⟨own, lexeme, rest, word, read, hown, -, -, hread, hbare⟩ :=
    plainItem_of_writes h hfront hmore
  exact ⟨read, by simp [libraryItem, hown, hread], hbare⟩

/-- Outside of libraries, they are read as they are written too. -/
theorem topItem_of_writes {marks : List Mark} {declared : Declarations} {first : Lexeme}
    (h : PlainItemWrites .unmarked marks declared) (hfront : (first :: front).map mark = marks)
    (hmore : startsWithSign ";" more = false) :
    ∃ read : Declarations,
      topItem first.comments (first :: (front ++ more)) = .ok (read, more) ∧
        read.bare = declared.bare := by
  obtain ⟨own, lexeme, rest, word, read, hown, hlexeme, hlibrary, hread, hbare⟩ :=
    plainItem_of_writes h hfront hmore
  refine ⟨read, ?_, hbare⟩
  simp [topItem, hown, topItemBody, Token.isKeywordOf_of_word hlexeme, hlibrary, hread]

/-! ### Libraries -/

theorem readsNames_requirement : ReadsNames requirement := by
  intro lexeme text hlexeme htext more _
  have hoptional : text ≠ "optional" := ne_of_isFree htext (by decide)
  simp [requirement, acceptKeyword_of_word hlexeme, hoptional, identifier_of_word hlexeme,
    Token.text_of_word hlexeme, bind, Except.bind]

/-- What sets a library up depends on the names of its functions alone. -/
theorem setUpOf_bare (functions : List Function) :
    setUpOf (functions.map Function.bare) = setUpOf functions := by
  simp [setUpOf, Function.bare, Heading.bare, List.any_map, Function.comp_def]

/-- A library is read through the brace that closes it. -/
theorem library_of_writes {library : Library} {inner : List Mark} {inside : List Lexeme}
    {close : Lexeme} {given : List CommentLine} (hname : library.name.any isFree = true)
    (hrequirements : library.requirements.all isFree = true)
    (hsetUp : library.setUp = setUpOf library.functions)
    (hitems : ItemsWrite PlainItemWrites .hidden inner
      { Declarations.none with
        globals := library.globals, functions := library.functions, structs := library.structs })
    (h : front.map label =
      nameLabel library.name :: (listClause "requires" library.requirements ++ [.sign "\x7b"]))
    (hinside : inside.map mark = inner) (hclose : close.token.label = .sign "\x7d")
    (hgiven : given.map CommentLine.text = library.comments.map CommentLine.text)
    (keyword : Token) (more : List Lexeme) :
    ∃ read, Zinc.library given keyword (front ++ (inside ++ close :: more)) = .ok (read, more) ∧
      read.bare = library.bare := by
  obtain ⟨text, name, clause, brace, hfront, htext, hlabel, hclause, hbrace⟩ :=
    head_of_labels hname h
  let behind := inside ++ close :: more
  have hnames : requirements (clause ++ brace :: behind) =
      .ok (library.requirements, brace :: behind) :=
    names_of_listClause readsNames_requirement (by decide) (List.all_eq_true.1 hrequirements)
      hclause hbrace behind
  obtain ⟨declared, hdeclared, hread⟩ := items_of_writes_closing consumes_libraryItem
    readsItems_libraryItem itemsStartWithWords_plainItem hitems hinside hclose more
  let read : Library :=
    { name := some name.token.text, comments := given
      region := ⟨keyword.start, close.token.stop⟩, setUp := setUpOf declared.functions
      requirements := library.requirements, globals := declared.globals
      functions := declared.functions, structs := declared.structs }
  refine ⟨read, ?_, ?_⟩
  · rw [hfront]
    simp [Zinc.library, identifier_of_word hlabel, hnames, sign_of_sign hbrace, behind, hread,
      read, bind, Except.bind]
  · have hglobals := congrArg Declarations.globals hdeclared
    have hfunctions := congrArg Declarations.functions hdeclared
    have hstructs := congrArg Declarations.structs hdeclared
    simp only [Declarations.bare] at hglobals hfunctions hstructs
    have hnameRead : some name.token.text = library.name := by
      rw [Token.text_of_word hlabel]
      exact htext.symm
    -- The function that sets the library up is looked for among the functions that were read
    have hsetUpRead : setUpOf declared.functions = library.setUp := by
      rw [hsetUp, ← setUpOf_bare declared.functions, hfunctions, setUpOf_bare]
    simp only [read, Library.bare, Heading.bare, hnameRead, bare_of_text hgiven, hsetUpRead,
      hglobals, hfunctions, hstructs]

/-! ### Whole programs -/

theorem declarations_cons {first : Lexeme} {read : Declarations} {rest : List Lexeme}
    (h : topItem first.comments (first :: front) = .ok (read, rest)) :
    declarations (first :: front) = (declarations rest).map (read ++ ·) := by
  rw [declarations_eq_bind, h]
  rfl

/-- A written program does not start with a semicolon. -/
theorem startsWithSign_of_writes {marks : List Mark} {declared : Declarations}
    (h : Writes marks declared) (hfront : front.map mark = marks) :
    startsWithSign ";" front = false := by
  cases h with
  | nil =>
    obtain rfl : front = [] := by simpa using hfront
    rfl
  | item hitem _ =>
    obtain ⟨before, behind, rfl, hbefore, -⟩ := marks_eq_append.1 hfront
    obtain ⟨firstText, secondText, labels, hlabels⟩ := itemsStartWithWords_plainItem _ _ _ hitem
    obtain ⟨first, rest, rfl, hfirst, -⟩ := labels_eq_cons.1 ((label_of_mark hbefore).trans hlabels)
    exact startsWithSign_of_word hfirst ";"
  | library =>
    obtain ⟨first, rest, rfl, hfirst, -⟩ := List.map_eq_cons_iff.1 hfront
    exact startsWithSign_of_word (congrArg Mark.label hfirst) ";"

/-- A written program is read as it is written. -/
theorem declarations_of_writes {marks : List Mark} {declared : Declarations}
    (h : Writes marks declared) (hfront : front.map mark = marks) :
    ∃ read, declarations front = .ok read ∧ read.bare = declared.bare := by
  induction h generalizing front with
  | nil =>
    obtain rfl : front = [] := by simpa using hfront
    exact ⟨.none, by rw [declarations], rfl⟩
  | item hitem hrest ih =>
    obtain ⟨before, behind, rfl, hbefore, hbehind⟩ := marks_eq_append.1 hfront
    obtain ⟨others, hothers, hbareOthers⟩ := ih hbehind
    obtain ⟨firstText, secondText, labels, hlabels⟩ := itemsStartWithWords_plainItem _ _ _ hitem
    obtain ⟨first, rest, rfl, -, -⟩ := labels_eq_cons.1 ((label_of_mark hbefore).trans hlabels)
    obtain ⟨read, hread, hbare⟩ := topItem_of_writes hitem hbefore
      (startsWithSign_of_writes hrest hbehind)
    refine ⟨read ++ others, ?_, by
      rw [Declarations.bare_append, hbare, hbareOthers, Declarations.bare_append]⟩
    rw [List.cons_append, declarations_cons hread, hothers]
    rfl
  | @library library inner rest more hname hrequirements hsetUp hitems _ ih =>
    -- The library is one block and the rest of the program stands behind its brace
    have hparts : front.map mark =
        (Mark.below library.comments (libraryLabels library) ++ inner ++ [closing]) ++ rest := by
      rw [hfront]
      simp
    obtain ⟨before, behind, rfl, hbefore, hbehind⟩ := marks_eq_append.1 hparts
    obtain ⟨others, hothers, hbareOthers⟩ := ih hbehind
    obtain ⟨first, tail, rfl, -, -⟩ : ∃ first tail, before = first :: tail ∧ _ ∧ _ :=
      List.map_eq_cons_iff.1 hbefore
    obtain ⟨later, inside, close, rfl, hhead, hinside, hclose, hgiven⟩ :=
      block_of_marks hbefore (by simp [libraryLabels])
    have hkeyword : first.token.label = .word "library" := (List.cons.inj hhead).1
    obtain ⟨read, hread, hbare⟩ := library_of_writes hname hrequirements hsetUp hitems
      (List.cons.inj hhead).2 hinside hclose hgiven first.token behind
    refine ⟨{ Declarations.none with libraries := [read] } ++ others, ?_, ?_⟩
    · have hitem : topItem first.comments
          (first :: (later ++ (inside ++ [close]) ++ behind)) =
          .ok ({ Declarations.none with libraries := [read] }, behind) := by
        simp [topItem, acceptVisibility, Token.text_of_word hkeyword, Visibility.ofWord?,
          topItemBody, Token.isKeywordOf_of_word hkeyword, libraryWords, hread, bind, Except.bind]
      rw [List.cons_append, declarations_cons hitem, hothers]
      rfl
    · rw [Declarations.bare_append, hbareOthers, Declarations.bare_append]
      simp [Declarations.bare, Declarations.none, hbare]

end JassOutline.Zinc
