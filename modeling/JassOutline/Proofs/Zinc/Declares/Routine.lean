import JassOutline.Proofs.Zinc.Declares

/-!
# What variables, functions and methods declare

The readers of variables, bodies, functions and methods, by what they read: the lexemes fall into
the words that modify a declaration, its anchor, its header, what is inside of it and what closes
it.

## Key results

- `reads_variableDeclaration`: variables of one type
- `exists_of_bodyFrom`: the local variables of a body
- `readsContainer_function`, `readsContainer_method`: functions and methods
-/

namespace JassOutline.Zinc

variable {lexemes rest : List Lexeme} {atStart : Bool}

/-! ### Single lexemes -/

/-- Where two readers follow each other, both of them read something. -/
theorem exists_of_bind {reading : Reading α} {next : α × List Lexeme → Except ZincError β}
    {result : β} (h : reading.bind next = .ok result) :
    ∃ value rest, reading = .ok (value, rest) ∧ next (value, rest) = .ok result := by
  cases reading with
  | error e => cases h
  | ok pair => exact ⟨pair.1, pair.2, rfl, h⟩

theorem eq_cons_of_identifier {expected : Expected} {token : Token}
    (h : identifier expected lexemes = .ok (token, rest)) :
    ∃ first, lexemes = first :: rest ∧ first.token = token ∧
      first.token.isIdentifier = true := by
  unfold identifier at h
  split at h
  · cases h
  · next first later =>
    split at h
    · next hword =>
      cases h
      exact ⟨first, rfl, rfl, hword⟩
    · cases h

theorem eq_cons_of_sign {text : String} {token : Token}
    (h : sign text lexemes = .ok (token, rest)) :
    ∃ first, lexemes = first :: rest ∧ first.token.isOperator text = true := by
  unfold sign at h
  split at h
  · cases h
  · next first later =>
    split at h
    · next hsign =>
      cases h
      exact ⟨first, rfl, hsign⟩
    · cases h

theorem eq_cons_of_startsWithSign {text : String} (h : startsWithSign text lexemes = true) :
    ∃ first, lexemes = first :: lexemes.tail ∧ first.token.isOperator text = true := by
  cases lexemes with
  | nil => cases h
  | cons first later => exact ⟨first, rfl, h⟩

/-- The words that are accepted, none or one. -/
theorem eq_append_acceptKeyword (words : List String) (lexemes : List Lexeme) :
    ∃ front, lexemes = front ++ (acceptKeyword words lexemes).2 ∧
      ∀ word ∈ front, word.token.text ∈ words := by
  unfold acceptKeyword
  split
  · next first later =>
    split
    · next hword =>
      simp only [Token.isKeywordOf, Bool.and_eq_true, List.contains_iff_mem] at hword
      exact ⟨[first], rfl, List.forall_mem_singleton.2 hword.2⟩
    · exact ⟨[], rfl, by simp⟩
  · exact ⟨[], rfl, by simp⟩

/-! ### Variables -/

/-- A variable reaches from its type to its name. -/
theorem eq_cons_of_variableNamed {shared : VariableType} {v : Variable}
    (h : variableNamed shared lexemes = .ok (v, rest)) :
    ∃ name later, lexemes = name :: (later ++ rest) ∧
      v.region = ⟨shared.type.start, name.token.stop⟩ := by
  obtain ⟨_, afterName, hname, h⟩ := exists_of_bind h
  obtain ⟨_, afterSize, hsize, h⟩ := exists_of_bind h
  obtain ⟨_, _, hvalue, h⟩ := exists_of_bind h
  cases h
  obtain ⟨name, rfl, rfl, -⟩ := eq_cons_of_identifier hname
  have hsuffix := ((follows_skipValue Edit.uncomment _).suffix hvalue).trans
    ((follows_skipSize Edit.uncomment _).suffix hsize)
  obtain ⟨later, rfl⟩ := hsuffix
  exact ⟨name, later, rfl, rfl⟩

theorem eq_append_of_variables {shared : VariableType} {vs : List Variable}
    (h : commaSeparated (variableNamed shared) (consumes_variableNamed shared) lexemes =
      .ok (vs, rest)) :
    ∃ front, lexemes = front ++ rest ∧ vs ≠ [] ∧
      ∀ v ∈ vs, ∃ name ∈ front, v.region = ⟨shared.type.start, name.token.stop⟩ := by
  fun_induction commaSeparated (variableNamed shared) (consumes_variableNamed shared) lexemes
    generalizing vs with
  | case1 => cases h
  | case2 lexemes v afterName hread hcomma ih =>
    -- A further variable stands behind the comma, and its name among the lexemes of the whole list
    obtain ⟨others, _, hothers, h⟩ := exists_of_bind h
    cases h
    obtain ⟨name, later, rfl, hregion⟩ := eq_cons_of_variableNamed hread
    obtain ⟨comma, hafter, -⟩ := eq_cons_of_startsWithSign hcomma
    obtain ⟨front, hfront, -, hnames⟩ := ih hothers
    refine ⟨name :: (later ++ comma :: front), ?_, by simp, ?_⟩
    · rw [hafter, hfront]
      simp
    · refine List.forall_mem_cons.2 ⟨⟨name, List.mem_cons_self, hregion⟩, fun other hother => ?_⟩
      obtain ⟨otherName, hmem, hother⟩ := hnames other hother
      exact ⟨otherName, by simp [hmem], hother⟩
  | case3 lexemes v afterName hread =>
    cases h
    obtain ⟨name, later, rfl, hregion⟩ := eq_cons_of_variableNamed hread
    exact ⟨name :: later, rfl, by simp,
      List.forall_mem_singleton.2 ⟨name, List.mem_cons_self, hregion⟩⟩

theorem eq_append_of_variableType {shared : VariableType}
    (h : variableType lexemes = .ok (shared, rest)) :
    ∃ words type arrays, lexemes = words ++ type :: (arrays ++ rest) ∧
      (∀ word ∈ words, word.token.text ∈ modifierWords) ∧ type.token.isIdentifier = true ∧
      shared.type = type.token := by
  obtain ⟨_, afterType, htype, h⟩ := exists_of_bind h
  cases h
  obtain ⟨words, hwords, hconstant⟩ := eq_append_acceptKeyword ["constant"] lexemes
  obtain ⟨type, hafter, rfl, hword⟩ := eq_cons_of_identifier htype
  obtain ⟨arrays, harrays, -⟩ := eq_append_acceptKeyword ["array"] afterType
  refine ⟨words, type, arrays, ?_, fun word hmem => ?_, hword, rfl⟩
  · rw [← harrays, ← hafter, ← hwords]
  · exact (by decide : ["constant"] ⊆ modifierWords) (hconstant word hmem)

/-- The variables of a declaration share its type and its modifiers. -/
theorem eq_append_of_variableDeclaration {vs : List Variable}
    (h : variableDeclaration lexemes = .ok (vs, rest)) :
    ∃ words type later, lexemes = words ++ type :: (later ++ rest) ∧
      (∀ word ∈ words, word.token.text ∈ modifierWords) ∧ type.token.isIdentifier = true ∧
      endsItems later = true ∧ vs ≠ [] ∧
      ∀ v ∈ vs, ∃ name ∈ later, v.region = ⟨type.token.start, name.token.stop⟩ := by
  obtain ⟨shared, afterType, htype, h⟩ := exists_of_bind h
  obtain ⟨_, afterNames, hnames, h⟩ := exists_of_bind h
  obtain ⟨_, _, hsign, h⟩ := exists_of_bind h
  cases h
  obtain ⟨words, type, arrays, rfl, hwords, hword, hshared⟩ := eq_append_of_variableType htype
  obtain ⟨front, rfl, hne, hregions⟩ := eq_append_of_variables hnames
  obtain ⟨semicolon, rfl, hsemicolon⟩ := eq_cons_of_sign hsign
  refine ⟨words, type, arrays ++ front ++ [semicolon], by simp, hwords, hword,
    endsItems_of_sign hsemicolon (by decide) _, hne, fun v hv => ?_⟩
  obtain ⟨name, hname, hregion⟩ := hregions v hv
  exact ⟨name, by simp [hname], hshared ▸ hregion⟩

/-- What a variable of any kind has. -/
def Variable.heading (v : Variable) (comments : List CommentLine) : Heading :=
  ⟨some v.name, comments, v.region⟩

theorem map_toHeading_declare (make : Variable → List CommentLine → α) (toHeading : α → Heading)
    (hmake : ∀ v comments, toHeading (make v comments) = v.heading comments)
    (comments : List CommentLine) (vs : List Variable) :
    (Variable.declare make comments vs).map toHeading =
      Variable.declare Variable.heading comments vs := by
  cases vs with
  | nil => rfl
  | cons first others => simp [Variable.declare, hmake]

theorem mem_declare {heading : Heading} {comments : List CommentLine} {vs : List Variable}
    (h : heading ∈ Variable.declare Variable.heading comments vs) :
    ∃ v ∈ vs, heading.region = v.region := by
  cases vs with
  | nil => cases h
  | cons first others =>
    simp only [Variable.declare, List.mem_cons, List.mem_map] at h
    obtain rfl | ⟨v, hv, rfl⟩ := h
    · exact ⟨first, List.mem_cons_self, rfl⟩
    · exact ⟨v, List.mem_cons_of_mem _ hv, rfl⟩

/-- A declaration of variables, behind words that modify it. -/
theorem reads_variableDeclaration {words : List Lexeme} {vs : List Variable}
    {own : Declarations} (hwords : ∀ word ∈ words, word.token.text ∈ modifierWords)
    (hread : variableDeclaration lexemes = .ok (vs, rest))
    (hown : Variables
      (Variable.declare Variable.heading (commentsBefore (words ++ lexemes)) vs) own) :
    Reads (words ++ lexemes) own rest := by
  obtain ⟨constants, type, later, rfl, hconstants, hword, hends, hne, hregions⟩ :=
    eq_append_of_variableDeclaration hread
  -- The first variable takes the comments in front of all words, the others have none
  have hstarts : Starts (words ++ constants) type (Variable.declare Variable.heading
      (commentsBefore (words ++ (constants ++ type :: (later ++ rest)))) vs) := by
    refine ⟨List.forall_mem_append.2 ⟨hwords, hconstants⟩, hword, fun heading hheading => ?_, ?_⟩
    · obtain ⟨v, hv, hregion⟩ := mem_declare hheading
      obtain ⟨name, -, hv⟩ := hregions v hv
      rw [hregion, hv]
    · obtain ⟨first, others, rfl⟩ := List.exists_cons_of_ne_nil hne
      refine ⟨_, _, rfl, ?_, by simp [Variable.heading]⟩
      rw [← List.append_assoc, commentsBefore_append_cons]
      rfl
  refine ⟨words ++ constants ++ type :: later, by simp, fun behind more _ hmore => ?_⟩
  have hdeclares : Declares true (words ++ constants ++ type :: (later ++ behind)) (own ++ more) :=
    .names hstarts hown ?_ (hends ▸ hmore)
  · simpa using hdeclares
  · intro heading hheading
    obtain ⟨v, hv, hregion⟩ := mem_declare hheading
    obtain ⟨name, hname, hv⟩ := hregions v hv
    exact ⟨name, hname, by rw [hregion, hv]⟩

/-! ### Bodies -/

/-- A local variable starts with the first word of its statement and ends with its name. -/
theorem starts_of_localHead (first : Lexeme) (rest : List Lexeme) {v : LocalVariable}
    (h : (localHead first rest).1 = some v) :
    Starts [] first [v.toHeading] ∧
      ∃ name ∈ rest.take (localHead first rest).2, v.region.stop = name.token.stop := by
  have hstarts : ∀ isConstant type name behind, first.token.isIdentifier = true →
      Starts [] first [(localOf first isConstant type name behind).toHeading] :=
    fun _ _ _ _ hword => ⟨by simp, hword, by simp [localOf], ⟨_, _, rfl, rfl, by simp⟩⟩
  revert h
  fun_cases localHead first rest with
  | case4 hfirst type _ _ name more =>
    -- Behind `constant` and the type
    rintro ⟨⟩
    simp only [Bool.and_eq_true] at hfirst
    exact ⟨hstarts _ _ _ _ hfirst.1, name, by simp, rfl⟩
  | case6 hfirst name more =>
    -- Behind the type, which is the first word
    rintro ⟨⟩
    simp only [Bool.and_eq_true] at hfirst
    exact ⟨hstarts _ _ _ _ hfirst.1, name, by simp, rfl⟩
  | _ => rintro ⟨⟩

/-- The statements of a body up to the brace that closes it. -/
theorem exists_of_bodyFrom {depth : Nat} {body : Body}
    (h : bodyFrom depth atStart lexemes = .ok (body, rest)) :
    ∃ inside close, lexemes = inside ++ close :: rest ∧ close.token = body.closing ∧
      close.token.isOperator "\x7d" = true ∧
      Declares atStart inside { Declarations.none with locals := body.locals } := by
  -- The lexemes in front of the brace are collected on the way back
  fun_induction bodyFrom depth atStart lexemes generalizing body with
  | case1 => cases h
  | case2 _ _ brace later hbrace ih =>
    -- The brace of a block inside of the body
    obtain ⟨inside, close, rfl, hclose, hclosing, hinside⟩ := ih h
    exact ⟨brace :: inside, close, rfl, hclose, hclosing, .sign hbrace (by decide) hinside⟩
  | case3 _ close later _ hbrace =>
    -- The brace of the body itself
    cases h
    exact ⟨[], close, rfl, rfl, hbrace, .nil⟩
  | case4 _ brace later _ hbrace _ ih =>
    obtain ⟨inside, close, rfl, hclose, hclosing, hinside⟩ := ih h
    exact ⟨brace :: inside, close, rfl, hclose, hclosing, .sign hbrace (by decide) hinside⟩
  | case5 _ _ semicolon later _ _ hsemicolon ih =>
    -- A semicolon, behind which the next statement starts
    obtain ⟨inside, close, rfl, hclose, hclosing, hinside⟩ := ih h
    exact ⟨semicolon :: inside, close, rfl, hclose, hclosing, .sign hsemicolon (by decide) hinside⟩
  | case6 depth first later _ _ _ v? size hhead ih =>
    -- The start of a statement, which may declare a local variable
    obtain ⟨others, _, hothers, h⟩ := exists_of_bind h
    cases h
    obtain ⟨inside, close, hdrop, hclose, hclosing, hinside⟩ := ih hothers
    have hlater : later = later.take size ++ (inside ++ close :: rest) := by
      rw [← hdrop, List.take_append_drop]
    refine ⟨first :: (later.take size ++ inside), close, by simpa using hlater, hclose, hclosing,
      ?_⟩
    cases v? with
    | none =>
      have hstretch : first :: later.take size ≠ [] := by simp
      exact .idles hstretch hinside.of_inside
    | some v =>
      have hv := starts_of_localHead first later (congrArg Prod.fst hhead)
      rw [hhead] at hv
      exact .names hv.1 (.locals [v]) (List.forall_mem_singleton.2 hv.2) hinside.of_inside
  | case7 _ _ _ _ _ _ _ _ ih =>
    -- In the middle of a statement nothing is declared
    obtain ⟨inside, close, rfl, hclose, hclosing, hinside⟩ := ih h
    exact ⟨_ :: inside, close, rfl, hclose, hclosing, .idle hinside.of_inside⟩

/-! ### Functions and methods -/

theorem IsParameter.mono {front : List Lexeme} {parameter : Parameter}
    (h : IsParameter front parameter) (hfront : front <:+: lexemes) :
    IsParameter lexemes parameter := by
  obtain ⟨type, name, hpair, hregion⟩ := h
  exact ⟨type, name, hpair.trans hfront, hregion⟩

theorem eq_append_of_parametersFrom {parameters : List Parameter}
    (h : parametersFrom lexemes = .ok (parameters, rest)) :
    ∃ front, lexemes = front ++ rest ∧ ∀ parameter ∈ parameters, IsParameter front parameter := by
  fun_induction parametersFrom lexemes generalizing parameters with
  | case3 type later _ hnothing =>
    -- The word `nothing` is no parameter
    cases h
    simp only [Bool.and_eq_true] at hnothing
    obtain ⟨close, hlater, -⟩ := eq_cons_of_startsWithSign hnothing.2
    exact ⟨[type, close], by rw [hlater]; rfl, by simp⟩
  | case8 type _ name separator later =>
    rename_i ih
    -- One parameter, and those behind its comma
    obtain ⟨others, _, hothers, h⟩ := exists_of_bind h
    cases h
    obtain ⟨front, rfl, hfront⟩ := ih hothers
    refine ⟨type :: name :: separator :: front, rfl, List.forall_mem_cons.2 ⟨?_, ?_⟩⟩
    · exact ⟨type, name, (List.prefix_append [type, name] _).isInfix, rfl⟩
    · exact fun parameter hparameter => (hfront parameter hparameter).mono
        (List.suffix_append [type, name, separator] front).isInfix
  | case9 type _ name separator later =>
    -- The last parameter
    cases h
    refine ⟨[type, name, separator], rfl, List.forall_mem_singleton.2 ?_⟩
    exact ⟨type, name, (List.prefix_append [type, name] _).isInfix, rfl⟩
  | _ => cases h

theorem eq_append_of_parameters {parameters : List Parameter}
    (h : Zinc.parameters lexemes = .ok (parameters, rest)) :
    ∃ front, lexemes = front ++ rest ∧ ∀ parameter ∈ parameters, IsParameter front parameter := by
  obtain ⟨_, afterSign, hsign, hlist⟩ := exists_of_bind h
  obtain ⟨opening, rfl, -⟩ := eq_cons_of_sign hsign
  dsimp only at hlist
  split at hlist
  · next hclose =>
    cases hlist
    obtain ⟨close, hafter, -⟩ := eq_cons_of_startsWithSign hclose
    exact ⟨[opening, close], by rw [hafter]; rfl, by simp⟩
  · obtain ⟨front, rfl, hfront⟩ := eq_append_of_parametersFrom hlist
    exact ⟨opening :: front, rfl, fun parameter hparameter =>
      (hfront parameter hparameter).mono (List.suffix_cons opening front).isInfix⟩

/-- What is read behind the keyword of a container: its header, what is inside of it, and what
closes it. -/
def ReadsContainer (keyword : Token) (lexemes : List Lexeme) (heading : Heading)
    (inner own : Declarations) (rest : List Lexeme) : Prop :=
  ∃ header inside close, lexemes = header ++ (inside ++ close :: rest) ∧
    heading.region = ⟨keyword.start, close.token.stop⟩ ∧
    Encloses keyword header heading inner own ∧
    Declares (endsItems header) inside inner ∧ endsItems [close] = true

/-- A container, behind words that modify it. -/
theorem ReadsContainer.reads {words : List Lexeme} {keyword : Lexeme} {heading : Heading}
    {inner own : Declarations}
    (h : ReadsContainer keyword.token lexemes heading inner own rest)
    (hwords : ∀ word ∈ words, word.token.text ∈ modifierWords)
    (hkeyword : keyword.token.isIdentifier = true)
    (hcomments : heading.comments = commentsBefore (words ++ keyword :: lexemes)) :
    Reads (words ++ keyword :: lexemes) own rest := by
  obtain ⟨header, inside, close, rfl, hregion, hencloses, hinside, hclose⟩ := h
  have hstarts : Starts words keyword [heading] := by
    refine ⟨hwords, hkeyword, by simp [hregion], heading, [], rfl, ?_, by simp⟩
    rw [hcomments, commentsBefore_append_cons]
  refine ⟨words ++ keyword :: (header ++ (inside ++ [close])), by simp,
    fun behind more _ hmore => ?_⟩
  have hdeclares := Declares.container hstarts hencloses (by rw [hregion]) hinside
    (hclose ▸ hmore)
  simpa using hdeclares

/-- What is read of a body: its opening brace, if it has one, what is inside of it, and what closes
it. -/
def ReadsBody (lexemes : List Lexeme) (body : Body) (rest : List Lexeme) : Prop :=
  ∃ opening inside close, lexemes = opening ++ (inside ++ close :: rest) ∧
    close.token = body.closing ∧ endsItems [close] = true ∧
    ∀ front, Declares (endsItems (front ++ opening)) inside
      { Declarations.none with locals := body.locals }

theorem readsBody_body {body : Body} (hbody : Zinc.body lexemes = .ok (body, rest)) :
    ReadsBody lexemes body rest := by
  obtain ⟨_, afterBrace, hsign, h⟩ := exists_of_bind hbody
  obtain ⟨inside, close, rfl, hclose, hclosing, hinside⟩ := exists_of_bodyFrom h
  obtain ⟨brace, rfl, hbrace⟩ := eq_cons_of_sign hsign
  refine ⟨[brace], inside, close, rfl, hclose, endsItems_of_sign hclosing (by decide) [],
    fun front => ?_⟩
  rwa [endsItems_of_sign hbrace (by decide)]

theorem readsBody_bodyOrSemicolon {body : Body}
    (h : bodyOrSemicolon lexemes = .ok (body, rest)) : ReadsBody lexemes body rest := by
  unfold bodyOrSemicolon at h
  split at h
  · exact readsBody_body h
  · next semicolon later =>
    split at h
    · next hsemicolon =>
      cases h
      exact ⟨[], [], semicolon, rfl, rfl, endsItems_of_sign hsemicolon (by decide) [],
        fun _ => .nil⟩
    · exact readsBody_body h

theorem readsContainer_function {visibility : Visibility} {comments : List CommentLine}
    {keyword : Token} {declared : Function} (hkeyword : keyword.isKeyword "function" = true)
    (h : function visibility comments keyword lexemes = .ok (declared, rest)) :
    declared.comments = comments ∧
      ReadsContainer keyword lexemes declared.toHeading
        { Declarations.none with locals := declared.locals }
        { Declarations.none with functions := [declared] } rest := by
  obtain ⟨_, afterName, hname, h⟩ := exists_of_bind h
  obtain ⟨parameters, afterParameters, hparameters, h⟩ := exists_of_bind h
  obtain ⟨_, afterResult, hresult, h⟩ := exists_of_bind h
  obtain ⟨body, _, hbody, h⟩ := exists_of_bind h
  cases h
  obtain ⟨name, rfl, -, -⟩ := eq_cons_of_identifier hname
  obtain ⟨list, rfl, hlist⟩ := eq_append_of_parameters hparameters
  obtain ⟨returns, rfl⟩ := (follows_result Edit.uncomment _).suffix hresult
  obtain ⟨opening, inside, close, rfl, hclose, hclosing, hinside⟩ := readsBody_body hbody
  refine ⟨rfl, name :: (list ++ returns) ++ opening, inside, close, by simp, by rw [← hclose],
    .function hkeyword rfl fun parameter hparameter => ?_, hinside _, hclosing⟩
  exact (hlist parameter hparameter).mono ⟨[name], returns ++ opening, by simp⟩

theorem readsContainer_method {visibility : Visibility} {binding : Binding}
    {comments : List CommentLine} {keyword : Token} {declared : Method}
    (hkeyword : keyword.isKeyword "method" = true)
    (h : method visibility binding comments keyword lexemes = .ok (declared, rest)) :
    declared.comments = comments ∧
      ReadsContainer keyword lexemes declared.toHeading
        { Declarations.none with locals := declared.locals }
        { Declarations.none with methods := [declared] } rest := by
  obtain ⟨_, afterName, hname, h⟩ := exists_of_bind h
  obtain ⟨parameters, afterParameters, hparameters, h⟩ := exists_of_bind h
  obtain ⟨_, afterResult, hresult, h⟩ := exists_of_bind h
  obtain ⟨body, _, hbody, h⟩ := exists_of_bind h
  cases h
  obtain ⟨name, rfl⟩ := (follows_methodName Edit.uncomment _).suffix hname
  obtain ⟨list, rfl, hlist⟩ := eq_append_of_parameters hparameters
  obtain ⟨returns, rfl⟩ := (follows_result Edit.uncomment _).suffix hresult
  obtain ⟨opening, inside, close, rfl, hclose, hclosing, hinside⟩ :=
    readsBody_bodyOrSemicolon hbody
  refine ⟨rfl, name ++ (list ++ returns) ++ opening, inside, close, by simp, by rw [← hclose],
    .method hkeyword rfl fun parameter hparameter => ?_, hinside _, hclosing⟩
  exact (hlist parameter hparameter).mono ⟨name, returns ++ opening, by simp⟩

end JassOutline.Zinc
