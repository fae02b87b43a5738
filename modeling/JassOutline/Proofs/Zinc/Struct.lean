import JassOutline.Proofs.Zinc.Items

/-!
# Reading written structs

The items of a struct are read one by one, and the struct around them with its parents.

## Key results

- `readsItems_structItem`: members and methods
- `struct_of_writes`: a struct through the brace that closes it
-/

namespace JassOutline.Zinc

open Lexeme

variable {front more : List Lexeme} {labels : List Label}

/-! ### Items of structs -/

/-- Written items of a struct start with two words. -/
theorem itemsStartWithWords_structItem : ItemsStartWithWords StructItemWrites := by
  intro outer marks declared h
  cases h with
  | member =>
    rw [Mark.label_below]
    exact (startsWithWords_variableLabels _ _).words_append _
  | method _ _ _ hname =>
    rw [List.map_append, List.map_append, Mark.label_below, List.append_assoc, List.append_assoc]
    apply StartsWithWords.words_append
    cases hname with
    | word => exact ⟨"method", _, _, rfl⟩
    | operator => exact ⟨"method", "operator", _, rfl⟩

/-- The visibility and the binding of an item are taken from the front. -/
theorem structItem_of_shows {outer visibility : Visibility} {binding : Binding}
    {words : List String} (hshows : Shows outer visibility words)
    (h : front.map label = (words ++ binding.words).map .word ++ labels)
    (hlabels : StartsWithOther ["private", "public", "static", "stub"] labels)
    (comments : List CommentLine) (more : List Lexeme) :
    ∃ rest, rest.map label = labels ∧
      structItem outer comments (front ++ more) =
        structItemBody visibility binding comments (rest ++ more) := by
  rw [List.map_append, List.append_assoc] at h
  -- What follows the visibility cannot be taken for one, whether the item has a binding or not
  have hbinding : StartsWithOther ["private", "public"] (binding.words.map .word ++ labels) := by
    apply StartsWithOther.words_append (by cases binding <;> decide)
    obtain ⟨word, rest, heq, hword⟩ := hlabels
    exact ⟨word, rest, heq, fun hmem => hword (List.mem_append_left ["static", "stub"] hmem)⟩
  obtain ⟨own, bound, hown, hbound, hvisibility⟩ :=
    acceptVisibility_of_shows hshows h hbinding more
  have hothers : StartsWithOther ["static", "stub"] labels := by
    obtain ⟨word, rest, heq, hword⟩ := hlabels
    exact ⟨word, rest, heq, fun hmem => hword (List.mem_append_right ["private", "public"] hmem)⟩
  obtain ⟨rest, hbinds, hrest⟩ := acceptBinding_of_words hbound hothers more
  refine ⟨rest, hrest, ?_⟩
  simp [structItem, hown, hbinds, hvisibility]

/-- A member is read through its semicolon. -/
theorem structItemBody_member {v : Member} {given : List CommentLine}
    (hshape : v.shape.isWritable isFree = true) (hreadonly : v.isReadonly = false)
    (h : front.map label = variableLabels v.isConstant v.shape)
    (hgiven : given.map CommentLine.text = v.comments.map CommentLine.text)
    (more : List Lexeme) :
    ∃ read : Declarations,
      structItemBody v.visibility v.binding given (front ++ more) = .ok (read, more) ∧
        read.bare = { Declarations.none with members := [v] }.bare := by
  obtain ⟨declared, hread, hconstant, hparts⟩ := variableDeclaration_of_labels h hshape more
  obtain ⟨word, later, hlabels, hword⟩ : StartsWithOther ("method" :: skippedWords)
      (variableLabels v.isConstant v.shape) :=
    startsWithOther_variableLabels hshape (by decide)
  obtain ⟨first, rest, rfl, hfirst, -⟩ := labels_eq_cons.1 (h.trans hlabels)
  rw [List.mem_cons, not_or] at hword
  obtain ⟨hmethod, hskipped⟩ := hword
  let read : Member := declared.toMember v.visibility v.binding given
  refine ⟨{ Declarations.none with members := [read] }, ?_, ?_⟩
  · rw [List.cons_append] at hread ⊢
    simp [structItemBody, Token.isKeyword_of_word hfirst, hmethod,
      Token.isOperator_of_word hfirst, Token.text_of_word hfirst, hskipped, hread,
      Variable.declare, read, bind, Except.bind]
  · obtain ⟨htype, harray, hname⟩ :
        some declared.type = v.type ∧ declared.isArray = v.isArray ∧
          some declared.name = v.name := by
      simpa [Member.shape] using hparts
    have hbare : read.bare = v.bare := by
      simp only [read, Variable.toMember, Member.bare, Heading.bare, htype, harray, hname,
        hconstant, hreadonly, bare_of_text hgiven]
    simp [Declarations.bare, Declarations.none, hbare]

/-- Members and methods are read as they are written. -/
theorem readsItems_structItem : ReadsItems StructItemWrites structItem := by
  intro outer marks declared h first front hfront more _
  cases h with
  | @member v words hshows hshape hreadonly =>
    -- A member has a mark for each label, and its comments stand at the first one
    have hlabels := (label_of_mark hfront).trans (Mark.label_below ..)
    obtain ⟨rest, hrest, hread⟩ := structItem_of_shows hshows hlabels
      (startsWithOther_variableLabels hshape (by decide)) first.comments more
    rw [List.cons_append] at hread
    rw [hread]
    exact structItemBody_member hshape hreadonly hrest (comments_of_below hfront) more
  | @method method words text name body hshows hsignature hname hnameLabels hglobals hbody =>
    -- A method has marks of a header, of its body, and of the brace that closes it
    obtain ⟨later, inside, close, rfl, hhead, hinside, hclose, hgiven⟩ :=
      block_of_marks hfront (by simp [routineLabels])
    have hmethod : StartsWithOther ["private", "public", "static", "stub"]
        (routineLabels "method" name method.signature) := ⟨"method", _, rfl, by decide⟩
    obtain ⟨rest, hrest, hitem⟩ := structItem_of_shows hshows hhead hmethod first.comments
      (inside ++ close :: more)
    obtain ⟨routine, hroutine⟩ := RoutineHead.exists_eq hrest
    obtain ⟨read, hread, hbare⟩ := method_of_writes routine hsignature hname hnameLabels
      hglobals hbody hinside hclose hgiven more
    refine ⟨{ Declarations.none with methods := [read] }, ?_, ?_⟩
    · have hall : first :: (later ++ (inside ++ [close]) ++ more) =
          first :: later ++ (inside ++ close :: more) := by simp
      rw [hall, hitem, hroutine, structItemBody]
      simp [Token.isKeyword_of_word routine.label_first, hread, bind, Except.bind]
    · simp [Declarations.bare, Declarations.none, hbare]

/-! ### Lists of names -/

section

variable {item : List Lexeme → Reading String} {hitem : Consumes item} {brace : Lexeme}

/-- A free name without a size is read for what it says. -/
def ReadsNames (item : List Lexeme → Reading String) : Prop :=
  ∀ (lexeme : Lexeme) (text : String), lexeme.token.label = .word text → isFree text = true →
    ∀ more, startsWithSign "[" more = false → item (lexeme :: more) = .ok (text, more)

/-- A list of names is read up to the brace behind it. -/
theorem commaSeparated_of_names (hreads : ReadsNames item) {names : List String}
    (hnonempty : names ≠ []) (hnames : ∀ name ∈ names, isFree name = true)
    (h : front.map label = listed (names.map fun name => [.word name]))
    (hbrace : brace.token.label = .sign "\x7b") (more : List Lexeme) :
    commaSeparated item hitem (front ++ brace :: more) = .ok (names, brace :: more) := by
  induction names generalizing front with
  | nil => exact absurd rfl hnonempty
  | cons name names ih =>
    have hname : isFree name = true := hnames _ List.mem_cons_self
    -- The labels start with the name, whether others follow or not
    obtain ⟨first, rest, rfl, hfirst, hrest⟩ :
        ∃ first rest, front = first :: rest ∧ first.token.label = .word name ∧
          rest.map label =
            (listed ((name :: names).map fun name => [.word name])).tail := by
      cases names <;>
      · obtain ⟨first, rest, rfl, hfirst, hrest⟩ := labels_eq_cons.1 h
        exact ⟨first, rest, rfl, hfirst, hrest⟩
    cases names with
    | nil =>
      obtain rfl : rest = [] := by simpa [listed] using hrest
      apply commaSeparated_single
      · exact hreads first name hfirst hname _ (startsWithSign_of_sign hbrace "[")
      · exact startsWithSign_of_sign hbrace ","
    | cons next names =>
      obtain ⟨comma, later, rfl, hcomma, hlater⟩ := labels_eq_cons.1 hrest
      apply commaSeparated_cons
      · exact hreads first name hfirst hname _ (startsWithSign_of_sign hcomma "[")
      · exact hcomma
      · exact ih (by simp) (fun name hmem => hnames name (List.mem_cons_of_mem _ hmem)) hlater

/-- A clause with a list of names is read up to the brace behind it, and so is a clause that is
left out. -/
theorem names_of_listClause (hreads : ReadsNames item) {keyword : String}
    {words names : List String} (hkeyword : keyword ∈ words)
    (hnames : ∀ name ∈ names, isFree name = true) (h : front.map label = listClause keyword names)
    (hbrace : brace.token.label = .sign "\x7b") (more : List Lexeme) :
    (match acceptKeyword words (front ++ brace :: more) with
      | (true, rest) => commaSeparated item hitem rest
      | (false, rest) => .ok ([], rest)) = .ok (names, brace :: more) := by
  cases names with
  | nil =>
    obtain rfl : front = [] := by simpa [listClause] using h
    simp [acceptKeyword_of_sign hbrace]
  | cons name names =>
    obtain ⟨first, rest, rfl, hfirst, hrest⟩ := labels_eq_cons.1 h
    have hread : commaSeparated item hitem (rest ++ brace :: more) =
        .ok (name :: names, brace :: more) :=
      commaSeparated_of_names hreads (by simp) hnames hrest hbrace more
    simp [acceptKeyword_of_word hfirst, hkeyword, hread]

theorem readsNames_parent : ReadsNames parent := by
  intro lexeme text hlexeme _ more hmore
  simp [parent, identifier_of_word hlexeme, skipSize, hmore, Token.text_of_word hlexeme, bind,
    Except.bind]

end

/-- The lexemes from the name of a struct or a library to the brace of its items. -/
theorem head_of_labels {name? : Option String} (hname : name?.any isFree = true)
    (h : front.map label = nameLabel name? :: (labels ++ [.sign "\x7b"])) :
    ∃ text name clause brace, (∀ more, front ++ more = name :: (clause ++ brace :: more)) ∧
      name? = some text ∧ name.token.label = .word text ∧ clause.map label = labels ∧
      brace.token.label = .sign "\x7b" := by
  obtain ⟨text, rfl, -⟩ := (Option.any_eq_true ..).1 hname
  obtain ⟨name, rest, rfl, hlabel, hrest⟩ := labels_eq_cons.1 h
  obtain ⟨clause, last, rfl, hclause, hlast⟩ := labels_eq_append.1 hrest
  obtain ⟨brace, rest, rfl, hbrace, hnone⟩ := labels_eq_cons.1 hlast
  obtain rfl : rest = [] := by simpa using hnone
  exact ⟨text, name, clause, brace, by simp, rfl, hlabel, hclause, hbrace⟩

/-! ### Structs -/

/-- A struct is read through the brace that closes it, if no semicolon follows. -/
theorem struct_of_writes {struct : Struct} {inner : List Mark} {inside : List Lexeme}
    {close : Lexeme} {given : List CommentLine} (hname : struct.name.any isFree = true)
    (hparents : struct.parents.all isFree = true)
    (hitems : ItemsWrite StructItemWrites .unmarked inner
      { Declarations.none with members := struct.members, methods := struct.methods })
    (h : front.map label =
      nameLabel struct.name :: (listClause "extends" struct.parents ++ [.sign "\x7b"]))
    (hinside : inside.map mark = inner) (hclose : close.token.label = .sign "\x7d")
    (hgiven : given.map CommentLine.text = struct.comments.map CommentLine.text)
    (keyword : Token) (hmore : startsWithSign ";" more = false) :
    ∃ read, Zinc.struct struct.visibility given keyword (front ++ (inside ++ close :: more)) =
        .ok (read, more) ∧ read.bare = struct.bare := by
  obtain ⟨text, name, clause, brace, hfront, htext, hlabel, hclause, hbrace⟩ :=
    head_of_labels hname h
  let behind := inside ++ close :: more
  -- The name has no size, for a word or the brace follows it
  have hsize : startsWithSign "[" (clause ++ brace :: behind) = false := by
    cases hnames : struct.parents with
    | nil =>
      obtain rfl : clause = [] := by simpa [hnames, listClause] using hclause
      exact startsWithSign_of_sign hbrace "["
    | cons =>
      rw [hnames] at hclause
      obtain ⟨first, rest, rfl, hfirst, -⟩ := labels_eq_cons.1 hclause
      exact startsWithSign_of_word hfirst "["
  have hparentsRead : parents (clause ++ brace :: behind) = .ok (struct.parents, brace :: behind) :=
    names_of_listClause readsNames_parent (by decide) (List.all_eq_true.1 hparents) hclause hbrace
      behind
  obtain ⟨declared, hdeclared, hread⟩ := items_of_writes_closing consumes_structItem
    readsItems_structItem itemsStartWithWords_structItem hitems hinside hclose more
  let read : Struct :=
    { name := some name.token.text, comments := given
      region := ⟨keyword.start, close.token.stop⟩, visibility := struct.visibility
      parents := struct.parents, members := declared.members, methods := declared.methods }
  refine ⟨read, ?_, ?_⟩
  · rw [hfront]
    simp [Zinc.struct, identifier_of_word hlabel, skipSize, hsize, hparentsRead,
      sign_of_sign hbrace, behind, hread, acceptSign, hmore, read, bind, Except.bind]
  · -- Of what the items declare, a struct keeps members and methods
    have hmembers := congrArg Declarations.members hdeclared
    have hmethods := congrArg Declarations.methods hdeclared
    have hnameRead : some name.token.text = struct.name := by
      rw [Token.text_of_word hlabel]
      exact htext.symm
    simp only [Declarations.bare] at hmembers hmethods
    simp only [read, Struct.bare, Heading.bare, hnameRead, bare_of_text hgiven, hmembers, hmethods]

end JassOutline.Zinc
