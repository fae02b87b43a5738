import JassOutline.Proofs.Zinc.Edit.Routine
import JassOutline.Zinc.Grammar

/-!
# Edited programs

The items of structs, libraries and programs are read of edited lexemes as they are read of the
lexemes themselves. At the end of an item the only lexeme that is looked for is a semicolon, and in
a program a semicolon alone is an item that declares nothing.

## Key results

- `follows_items`: the items of a container, in open sections
- `follows_topItem`: one item of a program
- `declarations_apply`: the declarations of edited lexemes
-/

namespace JassOutline.Zinc

variable (edit : Edit)

/-! ### What may stand before an item -/

/-- Whether a visibility is there is seen from the first lexeme. -/
theorem acceptVisibility_cons_cases (lexeme : Lexeme) (rest : List Lexeme) :
    ∃ visibility later, later <:+ lexeme :: rest ∧
      acceptVisibility (lexeme :: rest) = (visibility, later) ∧
      acceptVisibility (edit.apply (lexeme :: rest)) = (visibility, edit.apply later) := by
  rw [acceptVisibility, Edit.apply_cons, acceptVisibility, Edit.token_lexeme]
  cases Visibility.ofWord? lexeme.token.text with
  | some visibility => exact ⟨some visibility, rest, List.suffix_cons .., rfl, rfl⟩
  | none => exact ⟨none, lexeme :: rest, List.suffix_refl _, rfl, rfl⟩

/-- Whether a binding is there is seen from the first lexeme. -/
theorem acceptBinding_cons_cases (lexeme : Lexeme) (rest : List Lexeme) :
    ∃ binding later, later <:+ lexeme :: rest ∧
      acceptBinding (lexeme :: rest) = (binding, later) ∧
      acceptBinding (edit.apply (lexeme :: rest)) = (binding, edit.apply later) := by
  by_cases hstatic : lexeme.token.isKeywordOf ["static"] = true
  · refine ⟨.static, rest, List.suffix_cons .., ?_, ?_⟩ <;>
      simp [acceptBinding, acceptKeyword, hstatic]
  by_cases hstub : lexeme.token.isKeywordOf ["stub"] = true
  · refine ⟨.stub, rest, List.suffix_cons .., ?_, ?_⟩ <;>
      simp [acceptBinding, acceptKeyword, hstatic, hstub]
  · refine ⟨.ordinary, lexeme :: rest, List.suffix_refl _, ?_, ?_⟩ <;>
      simp [acceptBinding, acceptKeyword, hstatic, hstub]

/-! ### Structs -/

theorem follows_parent (lexemes : List Lexeme) :
    Follows edit id .loose lexemes (parent lexemes) (parent (edit.apply lexemes)) := by
  refine (follows_identifier edit .parentName lexemes).bind fun name rest _ => ?_
  exact (follows_skipSize edit rest).map fun _ => ⟨_, fun _ => ⟨rfl, rfl⟩⟩

theorem follows_parents (lexemes : List Lexeme) :
    Follows edit id .loose lexemes (parents lexemes) (parents (edit.apply lexemes)) := by
  cases lexemes with
  | nil => exact fun hbehind => by rw [Edit.apply_nil, hbehind]; rfl
  | cons lexeme rest =>
    obtain ⟨isFirst, later, hlater, hextends, hextends'⟩ :=
      acceptKeyword_cons_cases edit ["extends"] lexeme rest
    rw [parents, parents, hextends, hextends']
    cases isFirst with
    | true =>
      exact (follows_commaSeparated edit consumes_parent (follows_parent edit) later).mono hlater
    | false => exact .ok hlater

theorem follows_structItemBody (visibility : Visibility) (binding : Binding)
    (comments : List CommentLine) (lexemes : List Lexeme) :
    Follows edit (Declarations.mapComments edit.comments) .semicolon lexemes
      (structItemBody visibility binding comments lexemes)
      (structItemBody visibility binding (edit.comments comments) (edit.apply lexemes)) := by
  cases lexemes with
  | nil => exact .of_nil rfl rfl
  | cons lexeme rest =>
    refine .ite .rfl (fun _ => ?_) fun _ => ?_
    · -- A method leaves the semicolon behind its body, which is an item of its own
      have hmethod := follows_method edit visibility binding comments lexeme.token rest
      have hdeclared := hmethod.mono (List.suffix_cons lexeme rest)
      exact hdeclared.of_tight.map fun _ => ⟨_, fun _ => ⟨rfl, rfl⟩⟩
    refine .ite .rfl (fun _ => .ok (List.suffix_cons ..)) fun _ => ?_
    refine .ite .rfl (fun _ => ?_) fun _ => ?_
    · exact (follows_skipDeclaration edit 0 _).map fun _ => ⟨_, fun _ => ⟨rfl, rfl⟩⟩
    · have hdeclared := follows_variableDeclaration edit (lexeme :: rest)
      refine hdeclared.of_tight.map fun declared => ⟨_, fun rest => ⟨rfl, ?_⟩⟩
      dsimp only [id]
      rw [declare_toMember]
      rfl

/-- What stands before an item is no item. -/
theorem structItem_visibility (visibility : Visibility) (comments : List CommentLine)
    {lexeme : Lexeme} {own : Visibility} (h : Visibility.ofWord? lexeme.token.text = some own) :
    structItem visibility comments [lexeme] = .error (.endOfCode .structMember) := by
  rw [structItem, acceptVisibility, h]
  rfl

theorem follows_structItem (visibility : Visibility) (comments : List CommentLine)
    (lexemes : List Lexeme) :
    Follows edit (Declarations.mapComments edit.comments) .semicolon lexemes
      (structItem visibility comments lexemes)
      (structItem visibility (edit.comments comments) (edit.apply lexemes)) := by
  cases lexemes with
  | nil => exact .of_nil rfl rfl
  | cons lexeme rest =>
    obtain ⟨own, later, hlater, hown, hown'⟩ := acceptVisibility_cons_cases edit lexeme rest
    rw [structItem, structItem, hown, hown']
    dsimp only
    cases later with
    | nil => exact .endOfCode fun hbehind => by rw [Edit.apply_nil, hbehind]; rfl
    | cons first rest =>
      obtain ⟨binding, last, hlast, hbinding, hbinding'⟩ := acceptBinding_cons_cases edit first rest
      rw [hbinding, hbinding']
      exact (follows_structItemBody edit _ binding comments last).mono (hlast.trans hlater)

/-! ### Items in sections -/

/-- The brace behind a visibility opens a section. It is looked for behind the first lexeme. -/
theorem sectionStart?_apply (lexeme : Lexeme) (rest : List Lexeme)
    (h : edit.behind = [] ∨ rest ≠ [] ∨ Visibility.ofWord? lexeme.token.text = none) :
    sectionStart? (edit.lexeme lexeme :: edit.apply rest) =
      (sectionStart? (lexeme :: rest)).map (Prod.map id edit.apply) := by
  cases rest with
  | cons brace rest =>
    simp only [sectionStart?, Edit.apply_cons, Edit.token_lexeme]
    by_cases hbrace : brace.token.isOperator "\x7b" = true
    · simp [hbrace, Function.comp_def]
    · simp [hbrace]
  | nil =>
    rw [Edit.apply_nil]
    cases hbehind : edit.behind with
    | nil => rfl
    | cons brace behind =>
      have hword : Visibility.ofWord? lexeme.token.text = none := by simpa [hbehind] using h
      simp [sectionStart?, hword]

theorem suffix_of_sectionStart? {lexemes inside : List Lexeme} {visibility : Visibility}
    (h : sectionStart? lexemes = some (visibility, inside)) : inside <:+ lexemes := by
  unfold sectionStart? at h
  split at h
  · split at h
    · obtain ⟨_, _, hpair⟩ := Option.map_eq_some_iff.1 h
      cases hpair
      exact (List.suffix_cons ..).trans (List.suffix_cons ..)
    · simp at h
  · simp at h

section

variable {item : Visibility → List CommentLine → List Lexeme → Reading Declarations}
  (hitem : ∀ visibility comments, Consumes (item visibility comments))

theorem follows_items
    (h : ∀ visibility comments lexemes, Follows edit (Declarations.mapComments edit.comments) .loose
      lexemes (item visibility comments lexemes)
      (item visibility (edit.comments comments) (edit.apply lexemes)))
    {missing : Expected}
    (hword : ∀ visibility comments lexeme own, Visibility.ofWord? lexeme.token.text = some own →
      item visibility comments [lexeme] = .error (.endOfCode missing))
    (visibility : Visibility) (outer : List Visibility) (lexemes : List Lexeme) :
    Follows edit (Prod.map (Declarations.mapComments edit.comments) id) .tight lexemes
      (items item hitem visibility outer lexemes)
      (items item hitem visibility outer (edit.apply lexemes)) := by
  -- Sections and items both leave fewer lexemes to the rest of the loop
  induction hlength : lexemes.length using Nat.strongRecOn
    generalizing visibility outer lexemes with
  | _ n ih =>
    cases lexemes with
    | nil =>
      rw [items]
      exact .endOfCode fun hbehind => by rw [Edit.apply_nil, hbehind, items]
    | cons lexeme rest =>
      cases hbrace : lexeme.token.isOperator "\x7d" with
      | true =>
        rw [List.length_cons] at hlength
        have hbrace' : (edit.lexeme lexeme).token.isOperator "\x7d" = true := hbrace
        rw [items_eq_closing hitem outer hbrace, Edit.apply_cons,
          items_eq_closing hitem outer hbrace']
        cases outer with
        | nil => exact .ok (List.suffix_cons ..)
        | cons around outer =>
          exact (ih rest.length (by omega) around outer rest rfl).mono (List.suffix_cons ..)
      | false =>
        by_cases hlook :
            edit.behind = [] ∨ rest ≠ [] ∨ Visibility.ofWord? lexeme.token.text = none
        · have hsections := sectionStart?_apply edit lexeme rest hlook
          have hbrace' : (edit.lexeme lexeme).token.isOperator "\x7d" = false := hbrace
          cases hsection : sectionStart? (lexeme :: rest) with
          | some opened =>
            -- The section is opened by two lexemes, both of which are there
            obtain ⟨inner, inside⟩ := opened
            rw [hsection] at hsections
            rw [items_eq_section hitem outer hbrace hsection, Edit.apply_cons,
              items_eq_section hitem outer hbrace' hsections]
            have hless := length_of_sectionStart? hsection
            have hinside := ih inside.length (by omega) inner (visibility :: outer) inside rfl
            exact hinside.mono (suffix_of_sectionStart? hsection)
          | none =>
            -- An item, which may read on if nothing is left behind it, and the other items
            rw [hsection] at hsections
            rw [items_eq_bind hitem outer hbrace hsection, Edit.apply_cons,
              items_eq_bind hitem outer hbrace' hsections]
            refine (h visibility lexeme.comments (lexeme :: rest)).bind_of_leaves
              (fun declared behind hread => ?_)
              fun _ => (consumes_items hitem visibility outer []).zero_bind
            have hless := hitem _ _ _ _ _ hread
            have hothers := ih behind.length (by omega) visibility outer behind rfl
            refine hothers.map fun others => ⟨(declared ++ others.1, others.2), fun _ => ⟨rfl, ?_⟩⟩
            simp [Declarations.mapComments_append]
        · -- A visibility without an item, and nothing behind it
          simp only [not_or, ne_eq, Classical.not_not] at hlook
          obtain ⟨hbehind, rfl, hvisibility⟩ := hlook
          obtain ⟨own, hown⟩ := Option.ne_none_iff_exists'.1 hvisibility
          rw [items_eq_bind hitem outer hbrace rfl, hword _ _ _ _ hown]
          exact .endOfCode fun hnil => absurd hnil hbehind

end

theorem follows_struct (visibility : Visibility) (comments : List CommentLine) (keyword : Token)
    (lexemes : List Lexeme) :
    Follows edit (Struct.mapComments edit.comments) .semicolon lexemes
      (struct visibility comments keyword lexemes)
      (struct visibility (edit.comments comments) keyword (edit.apply lexemes)) := by
  refine (follows_identifier edit .structName lexemes).bind fun name rest _ => ?_
  -- Where the lexemes end in the header, the opening brace is still missing
  refine (follows_skipSize edit rest).bind_of_leaves (fun _ rest _ => ?_) fun _ => .error
  refine (follows_parents edit rest).bind_of_leaves (fun parents rest _ => ?_) fun _ => .error
  refine (follows_sign edit "\x7b" rest).bind fun _ rest _ => ?_
  have hinner := follows_items edit consumes_structItem
    (fun visibility comments lexemes =>
      (follows_structItem edit visibility comments lexemes).toLoose)
    (fun visibility comments _ _ => structItem_visibility visibility comments) .unmarked [] rest
  refine hinner.bind fun inner rest _ => ?_
  exact .ok_acceptSign (List.suffix_refl _)

/-! ### Libraries -/

theorem follows_requirement (lexemes : List Lexeme) :
    Follows edit id .loose lexemes (requirement lexemes) (requirement (edit.apply lexemes)) := by
  cases lexemes with
  | nil => exact .of_nil rfl rfl
  | cons lexeme rest =>
    obtain ⟨isFirst, later, hlater, hoptional, hoptional'⟩ :=
      acceptKeyword_cons_cases edit ["optional"] lexeme rest
    rw [requirement, requirement, hoptional, hoptional']
    have hname := (follows_identifier edit .libraryName later).mono hlater
    exact hname.of_tight.map fun _ => ⟨_, fun _ => ⟨rfl, rfl⟩⟩

theorem follows_requirements (lexemes : List Lexeme) :
    Follows edit id .loose lexemes (requirements lexemes)
      (requirements (edit.apply lexemes)) := by
  cases lexemes with
  | nil => exact fun hbehind => by rw [Edit.apply_nil, hbehind]; rfl
  | cons lexeme rest =>
    obtain ⟨isFirst, later, hlater, hneeds, hneeds'⟩ :=
      acceptKeyword_cons_cases edit ["requires", "needs", "uses"] lexeme rest
    rw [requirements, requirements, hneeds, hneeds']
    cases isFirst with
    | true =>
      have hnames := follows_commaSeparated edit consumes_requirement (follows_requirement edit)
      exact (hnames later).mono hlater
    | false => exact .ok hlater

theorem follows_plainItem (visibility : Visibility) (comments : List CommentLine)
    (lexemes : List Lexeme) :
    Follows edit (Declarations.mapComments edit.comments) .semicolon lexemes
      (plainItem visibility comments lexemes)
      (plainItem visibility (edit.comments comments) (edit.apply lexemes)) := by
  cases lexemes with
  | nil => exact .of_nil rfl rfl
  | cons lexeme rest =>
    -- In each branch the reader looks at the first lexeme, which both texts have
    refine .ite .rfl (fun _ => .ok (List.suffix_cons ..)) fun _ => ?_
    refine .ite .rfl (fun _ => .unexpected List.mem_cons_self) fun _ => ?_
    refine .ite .rfl (fun _ => .unexpected List.mem_cons_self) fun _ => ?_
    refine .ite .rfl (fun _ => ?_) fun _ => ?_
    · -- A struct takes a semicolon behind it along, and a function does not
      have hstruct := follows_struct edit visibility comments lexeme.token rest
      have hdeclared := hstruct.mono (List.suffix_cons lexeme rest)
      exact hdeclared.map fun _ => ⟨_, fun _ => ⟨rfl, rfl⟩⟩
    refine .ite .rfl (fun _ => ?_) fun _ => ?_
    · have hfunction := follows_function edit visibility comments lexeme.token rest
      have hdeclared := hfunction.mono (List.suffix_cons lexeme rest)
      exact hdeclared.of_tight.map fun _ => ⟨_, fun _ => ⟨rfl, rfl⟩⟩
    refine .ite .rfl (fun _ => ?_) fun _ => ?_
    · exact (follows_skipDeclaration edit 0 _).map fun _ => ⟨_, fun _ => ⟨rfl, rfl⟩⟩
    · have hdeclared := follows_variableDeclaration edit (lexeme :: rest)
      refine hdeclared.of_tight.map fun declared => ⟨_, fun rest => ⟨rfl, ?_⟩⟩
      dsimp only [id]
      rw [declare_toGlobal]
      rfl

/-- What stands before an item is no item. -/
theorem libraryItem_visibility (visibility : Visibility) (comments : List CommentLine)
    {lexeme : Lexeme} {own : Visibility} (h : Visibility.ofWord? lexeme.token.text = some own) :
    libraryItem visibility comments [lexeme] = .error (.endOfCode .declaration) := by
  rw [libraryItem, acceptVisibility, h]
  rfl

theorem follows_libraryItem (visibility : Visibility) (comments : List CommentLine)
    (lexemes : List Lexeme) :
    Follows edit (Declarations.mapComments edit.comments) .semicolon lexemes
      (libraryItem visibility comments lexemes)
      (libraryItem visibility (edit.comments comments) (edit.apply lexemes)) := by
  cases lexemes with
  | nil => exact .of_nil rfl rfl
  | cons lexeme rest =>
    obtain ⟨own, later, hlater, hown, hown'⟩ := acceptVisibility_cons_cases edit lexeme rest
    rw [libraryItem, libraryItem, hown, hown']
    exact (follows_plainItem edit _ comments later).mono hlater

theorem setUpOf_mapComments (f : List CommentLine → List CommentLine) (functions : List Function) :
    setUpOf (functions.map (Function.mapComments f)) = setUpOf functions := by
  simp only [setUpOf, List.any_map]
  rfl

theorem follows_library (comments : List CommentLine) (keyword : Token) (lexemes : List Lexeme) :
    Follows edit (Library.mapComments edit.comments) .tight lexemes
      (library comments keyword lexemes)
      (library (edit.comments comments) keyword (edit.apply lexemes)) := by
  refine (follows_identifier edit .libraryName lexemes).bind fun name rest _ => ?_
  refine (follows_requirements edit rest).bind_of_leaves (fun needs rest _ => ?_) fun _ => .error
  refine (follows_sign edit "\x7b" rest).bind fun _ rest _ => ?_
  have hinner := follows_items edit consumes_libraryItem
    (fun visibility comments lexemes =>
      (follows_libraryItem edit visibility comments lexemes).toLoose)
    (fun visibility comments _ _ => libraryItem_visibility visibility comments) .hidden [] rest
  refine hinner.map fun inner => ⟨_, fun _ => ⟨rfl, ?_⟩⟩
  simp [Library.mapComments, Declarations.mapComments, Heading.mapComments, setUpOf_mapComments]

/-! ### Whole programs -/

theorem follows_topItemBody (visibility : Visibility) (comments : List CommentLine)
    (lexemes : List Lexeme) :
    Follows edit (Declarations.mapComments edit.comments) .semicolon lexemes
      (topItemBody visibility comments lexemes)
      (topItemBody visibility (edit.comments comments) (edit.apply lexemes)) := by
  cases lexemes with
  | nil => exact .of_nil rfl rfl
  | cons lexeme rest =>
    refine .ite .rfl (fun _ => ?_) fun _ => ?_
    · have hlibrary := follows_library edit comments lexeme.token rest
      have hdeclared := hlibrary.mono (List.suffix_cons lexeme rest)
      exact hdeclared.of_tight.map fun _ => ⟨_, fun _ => ⟨rfl, rfl⟩⟩
    · exact follows_plainItem edit visibility comments (lexeme :: rest)

theorem follows_topItem (comments : List CommentLine) (lexemes : List Lexeme) :
    Follows edit (Declarations.mapComments edit.comments) .semicolon lexemes
      (topItem comments lexemes) (topItem (edit.comments comments) (edit.apply lexemes)) := by
  cases lexemes with
  | nil => exact .of_nil rfl rfl
  | cons lexeme rest =>
    obtain ⟨own, later, hlater, hown, hown'⟩ := acceptVisibility_cons_cases edit lexeme rest
    rw [topItem, topItem, hown, hown']
    exact (follows_topItemBody edit _ comments later).mono hlater

/-- What lexemes declare and what they declare after the edit: the comments have changed and what is
put behind declares more. An unexpected token is one of the lexemes, and it is the same one after
the edit. -/
def DeclaresAs (edit : Edit) (lexemes : List Lexeme)
    (before after : Except ZincError Declarations) : Prop :=
  match before with
  | .ok declared => after = (declarations edit.behind).map (declared.mapComments edit.comments ++ ·)
  | .error (.unexpected found expected) =>
    found ∈ lexemes.map Lexeme.token ∧ after = .error (.unexpected found expected)
  | .error (.endOfCode expected) => edit.behind = [] → after = .error (.endOfCode expected)

/-- A semicolon alone declares nothing. -/
theorem declarations_acceptSign (lexemes : List Lexeme) :
    declarations (acceptSign ";" lexemes) = declarations lexemes := by
  cases lexemes with
  | nil => rfl
  | cons lexeme rest =>
    by_cases hsign : lexeme.token.isOperator ";" = true
    · have htoken : lexeme.token.kind = .operator ∧ lexeme.token.text = ";" := by
        simpa [Token.isOperator] using hsign
      have hword : Visibility.ofWord? lexeme.token.text = none := by
        rw [htoken.2]
        rfl
      have hitem : topItem lexeme.comments (lexeme :: rest) = .ok (.none, rest) := by
        simp [topItem, acceptVisibility, hword, topItemBody, Token.isKeywordOf, htoken.1, plainItem,
          hsign]
      rw [declarations_eq_bind, hitem,
        show acceptSign ";" (lexeme :: rest) = rest from if_pos hsign]
      show declarations rest = (declarations rest).map _
      cases declarations rest <;> rfl
    · rw [show acceptSign ";" (lexeme :: rest) = lexeme :: rest from if_neg hsign]

/-- The last item. A semicolon that it took along may be one of what was put behind. -/
theorem DeclaresAs.last {lexemes : List Lexeme} {declared : Declarations}
    {after : Reading Declarations}
    (h : Ending.semicolon.Allows edit (declared.mapComments edit.comments) after) :
    DeclaresAs edit lexemes (.ok declared)
      (after.bind fun answer => (declarations answer.2).map (answer.1 ++ ·)) := by
  rcases h with h | h
  · rw [h]
    rfl
  · rw [h]
    show (declarations (acceptSign ";" edit.behind)).map _ = (declarations edit.behind).map _
    rw [declarations_acceptSign]

/-- One item more in front. -/
theorem DeclaresAs.cons {lexemes rest : List Lexeme} {before after : Except ZincError Declarations}
    (h : DeclaresAs edit rest before after) (hrest : rest <:+ lexemes) (declared : Declarations) :
    DeclaresAs edit lexemes (before.map (declared ++ ·))
      (after.map (declared.mapComments edit.comments ++ ·)) := by
  unfold DeclaresAs at h
  split at h
  · rw [h]
    show Except.map _ (Except.map _ (declarations edit.behind)) = Except.map _ _
    cases declarations edit.behind with
    | error e => rfl
    | ok others => simp [Except.map, Declarations.mapComments_append, Declarations.append_assoc]
  · rw [h.2]
    exact ⟨(hrest.map _).subset h.1, rfl⟩
  · intro hbehind
    rw [h hbehind]
    rfl

theorem declarations_apply (lexemes : List Lexeme) :
    DeclaresAs edit lexemes (declarations lexemes) (declarations (edit.apply lexemes)) := by
  -- Every item leaves fewer lexemes to the other items
  induction hlength : lexemes.length using Nat.strongRecOn generalizing lexemes with
  | _ n ih =>
    cases lexemes with
    | nil =>
      rw [declarations, Edit.apply_nil]
      show declarations edit.behind = (declarations edit.behind).map _
      cases declarations edit.behind <;> rfl
    | cons lexeme rest =>
      have hitem := follows_topItem edit lexeme.comments (lexeme :: rest)
      rw [declarations_eq_bind, Edit.apply_cons, declarations_eq_bind]
      rw [← Edit.apply_cons, Edit.comments_lexeme]
      cases hread : topItem lexeme.comments (lexeme :: rest) with
      | error e =>
        rw [hread] at hitem
        cases e with
        | unexpected found expected => exact ⟨hitem.1, by rw [hitem.2]; rfl⟩
        | endOfCode expected => exact fun hbehind => by rw [hitem hbehind]; rfl
      | ok answer =>
        obtain ⟨declared, behind⟩ := answer
        have hless := consumes_topItem _ _ _ _ hread
        rw [hread] at hitem
        cases behind with
        | nil =>
          -- The item is the last one, and what was put behind follows it
          have hnone : (declarations []).map (declared ++ ·) = .ok declared := by
            simp [declarations, Except.map]
          show DeclaresAs edit _ ((declarations []).map (declared ++ ·)) _
          rw [hnone]
          exact .last edit hitem
        | cons first later =>
          rw [hitem.2]
          have hothers := ih (first :: later).length (by omega) (first :: later) rfl
          exact hothers.cons edit hitem.1 declared

end JassOutline.Zinc
