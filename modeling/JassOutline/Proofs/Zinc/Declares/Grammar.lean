import JassOutline.Proofs.Zinc.Declares.Routine

/-!
# What containers and programs declare

The readers of items, structs and libraries. An item reads the lexemes that declare it, and a loop
over items reads what is inside of a container.

## Key results

- `reads_items`: the items of a container
- `declares_declarations`: the lexemes of a program declare what is read of them
-/

namespace JassOutline.Zinc

variable {lexemes rest : List Lexeme} {lexeme : Lexeme} {declared more : Declarations}

/-! ### Items of containers -/

theorem eq_append_acceptVisibility (lexemes : List Lexeme) :
    ∃ words, lexemes = words ++ (acceptVisibility lexemes).2 ∧
      ∀ word ∈ words, word.token.text ∈ modifierWords := by
  unfold acceptVisibility
  split
  · exact ⟨[], rfl, by simp⟩
  · next first later =>
    split
    · next visibility hvisibility =>
      refine ⟨[first], rfl, List.forall_mem_singleton.2 ?_⟩
      unfold Visibility.ofWord? at hvisibility
      split at hvisibility
      · next hword => rw [hword]; decide
      · next hword => rw [hword]; decide
      · cases hvisibility
    · exact ⟨[], rfl, by simp⟩

theorem eq_append_acceptBinding (lexemes : List Lexeme) :
    ∃ words, lexemes = words ++ (acceptBinding lexemes).2 ∧
      ∀ word ∈ words, word.token.text ∈ modifierWords := by
  obtain ⟨statics, hstatics, hstatic⟩ := eq_append_acceptKeyword ["static"] lexemes
  have hmodifier : ∀ word ∈ statics, word.token.text ∈ modifierWords := fun word hword =>
    (by decide : ["static"] ⊆ modifierWords) (hstatic word hword)
  unfold acceptBinding
  split
  · next hrest => exact ⟨statics, by rwa [hrest] at hstatics, hmodifier⟩
  · next rest hrest =>
    rw [hrest] at hstatics
    obtain ⟨stubs, hstubs, hstub⟩ := eq_append_acceptKeyword ["stub"] rest
    have hmodifiers : ∀ word ∈ statics ++ stubs, word.token.text ∈ modifierWords :=
      List.forall_mem_append.2 ⟨hmodifier, fun word hword =>
        (by decide : ["stub"] ⊆ modifierWords) (hstub word hword)⟩
    split
    · next hrest =>
      rw [hrest] at hstubs
      exact ⟨statics ++ stubs, by rw [List.append_assoc, ← hstubs, ← hstatics], hmodifiers⟩
    · next hrest =>
      rw [hrest] at hstubs
      exact ⟨statics ++ stubs, by rw [List.append_assoc, ← hstubs, ← hstatics], hmodifiers⟩

/-- A declaration without a place in a program ends an item, or it stops in front of a brace. -/
theorem eq_append_of_skipDeclaration {depth : Nat}
    (h : skipDeclaration depth lexemes = .ok ((), rest)) :
    ∃ stretch, lexemes = stretch ++ rest ∧
      (endsItems stretch = true ∨ startsWithSign "\x7d" rest = true) := by
  -- One more lexeme in front does not change how a stretch ends
  have hcons : ∀ {lexeme : Lexeme} {stretch : List Lexeme},
      (endsItems stretch = true ∨ startsWithSign "\x7d" rest = true) →
      endsItems (lexeme :: stretch) = true ∨ startsWithSign "\x7d" rest = true :=
    fun {lexeme stretch} h => h.imp_left fun hends => by
      cases stretch with
      | nil => cases hends
      | cons second later => exact (endsItems_append_cons [lexeme] second later).trans hends
  fun_induction skipDeclaration depth lexemes with
  | case1 => cases h
  | case2 _ lexeme later hbrace =>
    -- The brace of the container is left to it
    cases h
    exact ⟨[], rfl, .inr hbrace.2⟩
  | case3 _ lexeme _ _ _ ih =>
    -- An opening bracket makes the declaration one deeper
    obtain ⟨stretch, rfl, hends⟩ := ih h
    exact ⟨lexeme :: stretch, rfl, hcons hends⟩
  | case4 _ brace later _ _ _ hbrace =>
    -- The brace of the declaration ends it, with a semicolon behind it or without
    cases h
    have hends : ∀ front, endsItems (front ++ [brace]) = true :=
      endsItems_of_sign hbrace.2 (by decide)
    unfold acceptSign
    split
    · next hsemicolon =>
      obtain ⟨semicolon, hlater, hsign⟩ := eq_cons_of_startsWithSign hsemicolon
      exact ⟨[brace, semicolon], by rw [List.cons_append, List.singleton_append, ← hlater],
        .inl (endsItems_of_sign hsign (by decide) [brace])⟩
    · exact ⟨[brace], rfl, .inl (hends [])⟩
  | case5 _ lexeme _ _ _ _ _ ih =>
    -- A closing bracket inside of it
    obtain ⟨stretch, rfl, hends⟩ := ih h
    exact ⟨lexeme :: stretch, rfl, hcons hends⟩
  | case6 _ semicolon later _ _ _ hsemicolon =>
    -- A semicolon outside of all brackets
    cases h
    exact ⟨[semicolon], rfl, .inl (endsItems_of_sign hsemicolon.2 (by decide) [])⟩
  | case7 _ lexeme _ _ _ _ _ ih =>
    obtain ⟨stretch, rfl, hends⟩ := ih h
    exact ⟨lexeme :: stretch, rfl, hcons hends⟩

theorem reads_skipDeclaration (words : List Lexeme)
    (hword : skippedWords.contains lexeme.token.text = true)
    (h : skipDeclaration 0 (lexeme :: lexemes) = .ok ((), rest)) :
    Reads (words ++ lexeme :: lexemes) .none rest := by
  have hless := leaves_skipDeclaration_cons (isOperator_of_skippedWords hword) lexemes _ _ h
  obtain ⟨stretch, hstretch, hends⟩ := eq_append_of_skipDeclaration h
  cases stretch with
  | nil =>
    rw [← List.nil_append rest, ← hstretch] at hless
    exact absurd hless (by simp)
  | cons first later =>
    refine .of_idle (words ++ first :: later) (by rw [hstretch, List.append_assoc])
      (by simp) ?_
    rwa [endsItems_append_cons]

theorem reads_semicolon (words : List Lexeme) (h : lexeme.token.isOperator ";" = true)
    (rest : List Lexeme) : Reads (words ++ lexeme :: rest) .none rest :=
  .of_idle (words ++ [lexeme]) (by simp) (by simp)
    (.inl (endsItems_of_sign h (by decide) words))

/-- Nothing but members and methods is declared. -/
def HoldsMembers (declared : Declarations) : Prop :=
  declared = { Declarations.none with members := declared.members, methods := declared.methods }

/-- Nothing but global variables, functions and structs is declared. -/
def HoldsGlobals (declared : Declarations) : Prop :=
  declared = { Declarations.none with
    globals := declared.globals, functions := declared.functions, structs := declared.structs }

theorem HoldsMembers.append (h : HoldsMembers declared) (hmore : HoldsMembers more) :
    HoldsMembers (declared ++ more) := by
  rw [HoldsMembers, h, hmore]
  rfl

theorem HoldsGlobals.append (h : HoldsGlobals declared) (hmore : HoldsGlobals more) :
    HoldsGlobals (declared ++ more) := by
  rw [HoldsGlobals, h, hmore]
  rfl

theorem reads_structItemBody {visibility : Visibility} {binding : Binding} {words : List Lexeme}
    (hwords : ∀ word ∈ words, word.token.text ∈ modifierWords)
    (h : structItemBody visibility binding (commentsBefore (words ++ lexemes)) lexemes =
      .ok (declared, rest)) :
    Reads (words ++ lexemes) declared rest ∧ HoldsMembers declared := by
  unfold structItemBody at h
  split at h
  · cases h
  · next lexeme later =>
    -- Only the words in front of the item differ from what is read in the other containers
    split at h
    · next hmethod =>
      obtain ⟨own, _, hread, h⟩ := exists_of_bind h
      cases h
      obtain ⟨hcomments, hcontainer⟩ := readsContainer_method hmethod hread
      simp only [Token.isKeyword, Bool.and_eq_true] at hmethod
      exact ⟨hcontainer.reads hwords hmethod.1 hcomments, rfl⟩
    split at h
    · next hsemicolon =>
      cases h
      exact ⟨reads_semicolon words hsemicolon _, rfl⟩
    split at h
    · next hskipped =>
      obtain ⟨_, _, hread, h⟩ := exists_of_bind h
      cases h
      exact ⟨reads_skipDeclaration words hskipped hread, rfl⟩
    · obtain ⟨vs, _, hread, h⟩ := exists_of_bind h
      cases h
      refine ⟨reads_variableDeclaration hwords hread ?_, rfl⟩
      rw [← map_toHeading_declare (·.toMember visibility binding ·) Member.toHeading
        fun _ _ => rfl]
      exact .members _

theorem reads_structItem {visibility : Visibility}
    (h : structItem visibility (commentsBefore lexemes) lexemes = .ok (declared, rest)) :
    Reads lexemes declared rest ∧ HoldsMembers declared := by
  obtain ⟨own, hown, hvisibility⟩ := eq_append_acceptVisibility lexemes
  obtain ⟨bound, hbound, hbinding⟩ := eq_append_acceptBinding (acceptVisibility lexemes).2
  have hlexemes : lexemes =
      (own ++ bound) ++ (acceptBinding (acceptVisibility lexemes).2).2 := by
    rw [List.append_assoc, ← hbound, ← hown]
  rw [structItem] at h
  generalize (acceptBinding (acceptVisibility lexemes).2).2 = behind at h hlexemes
  subst hlexemes
  exact reads_structItemBody (List.forall_mem_append.2 ⟨hvisibility, hbinding⟩) h

/-- A section starts with its visibility and a brace. -/
theorem eq_append_of_sectionStart? {visibility : Visibility} {inside : List Lexeme}
    (h : sectionStart? lexemes = some (visibility, inside)) :
    ∃ word brace, lexemes = word :: brace :: inside ∧ brace.token.isOperator "\x7b" = true := by
  unfold sectionStart? at h
  split at h
  · next word brace behind =>
    split at h
    · next hbrace =>
      obtain ⟨_, _, hpair⟩ := Option.map_eq_some_iff.1 h
      cases hpair
      exact ⟨word, brace, rfl, hbrace⟩
    · cases h
  · cases h

/-- What the items of a container declare, up to the brace that closes it, is declared by what is
inside of the container. -/
theorem reads_items
    {item : Visibility → List CommentLine → List Lexeme → Reading Declarations}
    {hitem : ∀ visibility comments, Consumes (item visibility comments)}
    {P : Declarations → Prop} (hnone : P .none) (happend : ∀ {a b}, P a → P b → P (a ++ b))
    (hreads : ∀ {visibility lexemes declared rest},
      item visibility (commentsBefore lexemes) lexemes = .ok (declared, rest) →
      Reads lexemes declared rest ∧ P declared)
    {visibility : Visibility} {outer : List Visibility} {closing : Token}
    (h : items item hitem visibility outer lexemes = .ok ((declared, closing), rest)) :
    ∃ inside close, lexemes = inside ++ close :: rest ∧ close.token = closing ∧
      endsItems [close] = true ∧ Declares true inside declared ∧ P declared := by
  -- Each turn of the loop puts what it has read in front of what the later ones declare
  fun_induction items item hitem visibility outer lexemes generalizing declared with
  | case1 => cases h
  | case2 _ close later hbrace =>
    -- The brace of the container closes it
    cases h
    exact ⟨[], close, rfl, rfl, endsItems_of_sign hbrace (by decide) [], .nil, hnone⟩
  | case3 _ brace later hbrace _ _ ih =>
    -- The brace of a section declares nothing
    obtain ⟨inside, close, rfl, hclose, hends, hinside, hP⟩ := ih h
    exact ⟨brace :: inside, close, rfl, hclose, hends, .sign hbrace (by decide) hinside, hP⟩
  | case4 _ _ _ _ _ _ _ hsection ih =>
    -- Neither does the visibility that opens one, with its brace
    obtain ⟨word, brace, heq, hbrace⟩ := eq_append_of_sectionStart? hsection
    obtain ⟨inside, close, rfl, hclose, hends, hinside, hP⟩ := ih h
    exact ⟨word :: brace :: inside, close, heq, hclose, hends,
      .idle (.sign hbrace (by decide) hinside), hP⟩
  | case5 => cases h
  | case6 _ _ lexeme later _ _ first behind hread ih =>
    -- An item, whose declarations stand in front of those behind it
    obtain ⟨⟨others, _⟩, _, hothers, h⟩ := exists_of_bind h
    cases h
    have hitem : Reads (lexeme :: later) first behind ∧ P first := hreads hread
    obtain ⟨⟨front, hfront, hdeclares⟩, hfirst⟩ := hitem
    obtain ⟨inside, close, rfl, hclose, hends, hinside, hP⟩ := ih hothers
    refine ⟨front ++ inside, close, by rw [hfront, List.append_assoc], hclose, hends, ?_,
      happend hfirst hP⟩
    exact hdeclares inside others (List.prefix_append ..) hinside

theorem readsContainer_struct {visibility : Visibility} {comments : List CommentLine}
    {keyword : Token} {declared : Struct} (hkeyword : keyword.isKeyword "struct" = true)
    (h : struct visibility comments keyword lexemes = .ok (declared, rest)) :
    ∃ behind, rest = acceptSign ";" behind ∧ declared.comments = comments ∧
      ReadsContainer keyword lexemes declared.toHeading
        { Declarations.none with members := declared.members, methods := declared.methods }
        { Declarations.none with structs := [declared] } behind := by
  obtain ⟨_, afterName, hname, h⟩ := exists_of_bind h
  obtain ⟨_, afterSize, hsize, h⟩ := exists_of_bind h
  obtain ⟨_, afterParents, hparents, h⟩ := exists_of_bind h
  obtain ⟨_, afterBrace, hsign, h⟩ := exists_of_bind h
  obtain ⟨⟨inner, closing⟩, behind, hitems, h⟩ := exists_of_bind h
  cases h
  -- A name, a size, parents and a brace come in front of the members
  obtain ⟨name, rfl, -, -⟩ := eq_cons_of_identifier hname
  obtain ⟨size, rfl⟩ := (follows_skipSize Edit.uncomment _).suffix hsize
  obtain ⟨parents, rfl⟩ := (follows_parents Edit.uncomment _).suffix hparents
  obtain ⟨brace, rfl, hbrace⟩ := eq_cons_of_sign hsign
  obtain ⟨inside, close, rfl, rfl, hends, hinside, hmembers⟩ :=
    reads_items (P := HoldsMembers) rfl HoldsMembers.append reads_structItem hitems
  refine ⟨behind, rfl, rfl, name :: (size ++ parents) ++ [brace], inside, close, by simp, rfl,
    .struct hkeyword, ?_, hends⟩
  rw [endsItems_of_sign hbrace (by decide)]
  exact hmembers ▸ hinside

/-- A semicolon behind an item belongs to it. -/
theorem Reads.acceptSign (h : Reads lexemes declared rest) :
    Reads lexemes declared (acceptSign ";" rest) := by
  unfold Zinc.acceptSign
  split
  · next hsemicolon =>
    obtain ⟨semicolon, hrest, hsign⟩ := eq_cons_of_startsWithSign hsemicolon
    obtain ⟨front, rfl, hdeclares⟩ := h
    refine ⟨front ++ [semicolon], by rw [List.append_assoc, List.singleton_append, ← hrest],
      fun behind more hbehind hmore => ?_⟩
    have hends : endsItems [semicolon] = true := endsItems_of_sign hsign (by decide) []
    rw [List.append_assoc]
    refine hdeclares (semicolon :: behind) more ?_ (.idle (hends ▸ hmore))
    rw [hrest]
    exact List.cons_prefix_cons.2 ⟨rfl, hbehind⟩
  · exact h

/-! ### Libraries and whole programs -/

theorem reads_plainItem {visibility : Visibility} {words : List Lexeme}
    (hwords : ∀ word ∈ words, word.token.text ∈ modifierWords)
    (h : plainItem visibility (commentsBefore (words ++ lexemes)) lexemes =
      .ok (declared, rest)) :
    Reads (words ++ lexemes) declared rest ∧ HoldsGlobals declared := by
  unfold plainItem at h
  split at h
  · cases h
  · next lexeme later =>
    -- A semicolon alone declares nothing
    split at h
    · next hsemicolon =>
      cases h
      exact ⟨reads_semicolon words hsemicolon _, rfl⟩
    split at h
    · cases h
    split at h
    · cases h
    split at h
    · -- A struct, with a semicolon behind it or without
      next hstruct =>
      obtain ⟨own, _, hread, h⟩ := exists_of_bind h
      cases h
      obtain ⟨behind, rfl, hcomments, hcontainer⟩ := readsContainer_struct hstruct hread
      simp only [Token.isKeyword, Bool.and_eq_true] at hstruct
      exact ⟨(hcontainer.reads hwords hstruct.1 hcomments).acceptSign, rfl⟩
    split at h
    · next hfunction =>
      obtain ⟨own, _, hread, h⟩ := exists_of_bind h
      cases h
      obtain ⟨hcomments, hcontainer⟩ := readsContainer_function hfunction hread
      simp only [Token.isKeyword, Bool.and_eq_true] at hfunction
      exact ⟨hcontainer.reads hwords hfunction.1 hcomments, rfl⟩
    split at h
    · next hskipped =>
      obtain ⟨_, _, hread, h⟩ := exists_of_bind h
      cases h
      exact ⟨reads_skipDeclaration words hskipped hread, rfl⟩
    · -- What starts with none of these words declares variables
      obtain ⟨vs, _, hread, h⟩ := exists_of_bind h
      cases h
      refine ⟨reads_variableDeclaration hwords hread ?_, rfl⟩
      rw [← map_toHeading_declare (·.toGlobal visibility ·) GlobalVariable.toHeading
        fun _ _ => rfl]
      exact .globals _

theorem reads_libraryItem {visibility : Visibility}
    (h : libraryItem visibility (commentsBefore lexemes) lexemes = .ok (declared, rest)) :
    Reads lexemes declared rest ∧ HoldsGlobals declared := by
  obtain ⟨own, hown, hvisibility⟩ := eq_append_acceptVisibility lexemes
  rw [libraryItem] at h
  generalize (acceptVisibility lexemes).2 = behind at h hown
  subst hown
  exact reads_plainItem hvisibility h

theorem readsContainer_library {comments : List CommentLine} {keyword : Token}
    {declared : Library} (hkeyword : keyword.isKeywordOf libraryWords = true)
    (h : library comments keyword lexemes = .ok (declared, rest)) :
    declared.comments = comments ∧
      ReadsContainer keyword lexemes declared.toHeading
        { Declarations.none with
          globals := declared.globals, functions := declared.functions
          structs := declared.structs }
        { Declarations.none with libraries := [declared] } rest := by
  obtain ⟨_, afterName, hname, h⟩ := exists_of_bind h
  obtain ⟨_, afterRequirements, hrequirements, h⟩ := exists_of_bind h
  obtain ⟨_, afterBrace, hsign, h⟩ := exists_of_bind h
  obtain ⟨⟨inner, closing⟩, _, hitems, h⟩ := exists_of_bind h
  cases h
  obtain ⟨name, rfl, -, -⟩ := eq_cons_of_identifier hname
  obtain ⟨requirements, rfl⟩ := (follows_requirements Edit.uncomment _).suffix hrequirements
  obtain ⟨brace, rfl, hbrace⟩ := eq_cons_of_sign hsign
  obtain ⟨inside, close, rfl, rfl, hends, hinside, hglobals⟩ :=
    reads_items (P := HoldsGlobals) rfl HoldsGlobals.append reads_libraryItem hitems
  refine ⟨rfl, name :: requirements ++ [brace], inside, close, by simp, rfl,
    .library hkeyword, ?_, hends⟩
  rw [endsItems_of_sign hbrace (by decide)]
  exact hglobals ▸ hinside

/-- Nothing but libraries and what they may hold is declared. -/
def HoldsLibraries (declared : Declarations) : Prop :=
  declared = { Declarations.none with
    globals := declared.globals, functions := declared.functions, structs := declared.structs
    libraries := declared.libraries }

theorem HoldsLibraries.append (h : HoldsLibraries declared) (hmore : HoldsLibraries more) :
    HoldsLibraries (declared ++ more) := by
  rw [HoldsLibraries, h, hmore]
  rfl

theorem HoldsGlobals.holdsLibraries (h : HoldsGlobals declared) : HoldsLibraries declared := by
  rw [HoldsLibraries, h]

/-- All of it has a place in a program. -/
theorem HoldsLibraries.headings_eq (h : HoldsLibraries declared)
    (source : Nat) : (Program.ofDeclarations source declared).headings = declared.headings := by
  rw [h]
  simp [Program.headings, Program.ofDeclarations, Declarations.headings, Declarations.none]

theorem reads_topItemBody {visibility : Visibility} {words : List Lexeme}
    (hwords : ∀ word ∈ words, word.token.text ∈ modifierWords)
    (h : topItemBody visibility (commentsBefore (words ++ lexemes)) lexemes =
      .ok (declared, rest)) :
    Reads (words ++ lexemes) declared rest ∧ HoldsLibraries declared := by
  have hplain : ∀ {visibility later},
      plainItem visibility (commentsBefore (words ++ later)) later = .ok (declared, rest) →
      Reads (words ++ later) declared rest ∧ HoldsLibraries declared := fun h =>
    (reads_plainItem hwords h).imp_right HoldsGlobals.holdsLibraries
  unfold topItemBody at h
  split at h
  · exact hplain h
  · split at h
    · next hlibrary =>
      obtain ⟨own, _, hread, h⟩ := exists_of_bind h
      cases h
      obtain ⟨hcomments, hcontainer⟩ := readsContainer_library hlibrary hread
      simp only [Token.isKeywordOf, Bool.and_eq_true] at hlibrary
      exact ⟨hcontainer.reads hwords hlibrary.1 hcomments, rfl⟩
    · exact hplain h

theorem reads_topItem
    (h : topItem (commentsBefore lexemes) lexemes = .ok (declared, rest)) :
    Reads lexemes declared rest ∧ HoldsLibraries declared := by
  obtain ⟨own, hown, hvisibility⟩ := eq_append_acceptVisibility lexemes
  rw [topItem] at h
  generalize (acceptVisibility lexemes).2 = behind at h hown
  subst hown
  exact reads_topItemBody hvisibility h

/-- The lexemes of a program declare what is read of them. -/
theorem declares_declarations (h : declarations lexemes = .ok declared) :
    Declares true lexemes declared ∧ HoldsLibraries declared := by
  fun_induction declarations lexemes generalizing declared with
  | case1 =>
    cases h
    exact ⟨.nil, rfl⟩
  | case2 => cases h
  | case3 lexeme later first behind hread ih =>
    cases hmore : declarations behind with
    | error e =>
      rw [hmore] at h
      cases h
    | ok more =>
      rw [hmore] at h
      cases h
      -- One item, and what is declared behind it
      have hitem : Reads (lexeme :: later) first behind ∧ HoldsLibraries first :=
        reads_topItem hread
      obtain ⟨⟨front, hfront, hdeclares⟩, hfirst⟩ := hitem
      obtain ⟨hbehind, hothers⟩ := ih hmore
      refine ⟨?_, hfirst.append hothers⟩
      rw [hfront]
      exact hdeclares behind more (List.prefix_refl _) hbehind

end JassOutline.Zinc
