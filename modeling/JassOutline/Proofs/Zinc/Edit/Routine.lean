import JassOutline.Proofs.Zinc.Edit
import JassOutline.Zinc.Routine

/-!
# Edited variables and routines

What is skipped, declarations of variables, bodies, functions and methods are read of edited lexemes
as they are read of the lexemes themselves.

## Key results

- `follows_skipDeclaration`: what declares nothing, with the semicolon that may end it
- `follows_bodyFrom`: no statement decides on more than its first lexemes
- `follows_variableDeclaration`, `follows_function`, `follows_method`
-/

namespace JassOutline.Zinc

/-- The body with changed comments. -/
def Body.mapComments (f : List CommentLine → List CommentLine) (body : Body) : Body :=
  { body with locals := body.locals.map (LocalVariable.mapComments f) }

variable (edit : Edit)

/-! ### What declares nothing -/

theorem follows_closeGroup (opening closing : String) (depth : Nat) (lexemes : List Lexeme) :
    Follows edit id .tight lexemes (closeGroup opening closing depth lexemes)
      (closeGroup opening closing depth (edit.apply lexemes)) := by
  induction lexemes generalizing depth with
  | nil => exact .of_nil rfl rfl
  | cons lexeme rest ih =>
    have hrest := fun depth => (ih depth).mono (List.suffix_cons lexeme rest)
    refine .ite .rfl (fun _ => hrest _) fun _ => ?_
    refine .ite .rfl (fun _ => ?_) fun _ => hrest _
    cases depth with
    | zero => exact .ok (List.suffix_cons ..)
    | succ depth => exact hrest depth

theorem follows_skipSize (lexemes : List Lexeme) :
    Follows edit id .loose lexemes (skipSize lexemes) (skipSize (edit.apply lexemes)) := by
  cases lexemes with
  | nil => exact fun hbehind => by rw [Edit.apply_nil, hbehind]; rfl
  | cons lexeme rest =>
    refine .ite .rfl (fun _ => ?_) fun _ => .ok (List.suffix_refl _)
    have hgroup := (follows_closeGroup edit "[" "]" 0 rest).mono (List.suffix_cons lexeme rest)
    exact hgroup.toLoose.map fun _ => ⟨_, fun _ => ⟨rfl, rfl⟩⟩

/-- The sign that ends an expression is left, so the end of the lexemes is never reached. -/
theorem follows_skipExpression (depth : Nat) (lexemes : List Lexeme) :
    Follows edit id .tight lexemes (skipExpression depth lexemes)
      (skipExpression depth (edit.apply lexemes)) := by
  induction lexemes generalizing depth with
  | nil => exact .of_nil rfl rfl
  | cons lexeme rest ih =>
    have hrest := fun depth => (ih depth).mono (List.suffix_cons lexeme rest)
    refine .ite .rfl (fun _ => .ok (List.suffix_refl _)) fun _ => ?_
    refine .ite .rfl (fun _ => hrest _) fun _ => ?_
    refine .ite .rfl (fun _ => ?_) fun _ => hrest _
    -- A closing sign that nothing opens is an error at this very lexeme
    cases depth with
    | zero => exact .unexpected List.mem_cons_self
    | succ depth => exact hrest depth

theorem follows_skipValue (lexemes : List Lexeme) :
    Follows edit id .loose lexemes (skipValue lexemes) (skipValue (edit.apply lexemes)) := by
  cases lexemes with
  | nil => exact fun hbehind => by rw [Edit.apply_nil, hbehind]; rfl
  | cons lexeme rest =>
    refine .ite .rfl (fun _ => ?_) fun _ => .ok (List.suffix_refl _)
    exact ((follows_skipExpression edit 0 rest).mono (List.suffix_cons lexeme rest)).toLoose

theorem follows_skipDeclaration (depth : Nat) (lexemes : List Lexeme) :
    Follows edit id .semicolon lexemes (skipDeclaration depth lexemes)
      (skipDeclaration depth (edit.apply lexemes)) := by
  induction lexemes generalizing depth with
  | nil => exact .of_nil rfl rfl
  | cons lexeme rest ih =>
    have hrest := fun depth => (ih depth).mono (List.suffix_cons lexeme rest)
    refine .ite .rfl (fun _ => .ok (List.suffix_refl _)) fun _ => ?_
    refine .ite .rfl (fun _ => hrest _) fun _ => ?_
    refine .ite .rfl (fun _ => ?_) fun _ => ?_
    · -- Behind its brace a declaration takes a semicolon along, if one is there
      refine .ite .rfl (fun _ => ?_) fun _ => hrest _
      exact .ok_acceptSign (List.suffix_cons ..)
    · exact .ite .rfl (fun _ => .ok (List.suffix_cons ..)) fun _ => hrest _

/-! ### Variables -/

theorem follows_variableNamed (shared : VariableType) (lexemes : List Lexeme) :
    Follows edit id .loose lexemes (variableNamed shared lexemes)
      (variableNamed shared (edit.apply lexemes)) := by
  refine (follows_identifier edit .variableName lexemes).bind fun name rest _ => ?_
  refine (follows_skipSize edit rest).bind_loose fun hasSize rest _ => ?_
  exact (follows_skipValue edit rest).map fun _ => ⟨_, fun _ => ⟨rfl, rfl⟩⟩

theorem follows_variableType (lexemes : List Lexeme) :
    Follows edit id .loose lexemes (variableType lexemes)
      (variableType (edit.apply lexemes)) := by
  cases lexemes with
  | nil => exact .of_nil rfl rfl
  | cons lexeme rest =>
    obtain ⟨isConstant, later, hlater, hconstant, hconstant'⟩ :=
      acceptKeyword_cons_cases edit ["constant"] lexeme rest
    rw [variableType, variableType, hconstant, hconstant']
    refine ((follows_identifier edit .typeName later).mono hlater).bind fun type rest _ => ?_
    cases rest with
    | nil => exact fun hbehind => by rw [Edit.apply_nil, hbehind]; rfl
    | cons name rest =>
      obtain ⟨isArray, later, hlater, harray, harray'⟩ :=
        acceptKeyword_cons_cases edit ["array"] name rest
      dsimp only
      rw [harray, harray']
      exact .ok hlater

theorem follows_variableDeclaration (lexemes : List Lexeme) :
    Follows edit id .tight lexemes (variableDeclaration lexemes)
      (variableDeclaration (edit.apply lexemes)) := by
  refine (follows_variableType edit lexemes).bind_of_leaves (fun shared rest _ => ?_)
    fun shared => (consumes_commaSeparated (consumes_variableNamed shared) []).zero_bind
  have hnames := follows_commaSeparated edit (consumes_variableNamed shared)
    (follows_variableNamed edit shared) rest
  refine hnames.bind_of_leaves (fun declared rest _ => ?_) fun _ => (consumes_sign ";" []).zero_bind
  exact (follows_sign edit ";" rest).map fun _ => ⟨_, fun _ => ⟨rfl, rfl⟩⟩

/-- The first variable takes the comments, and the others have none. -/
theorem declare_comments {make : Variable → List CommentLine → α} {change : α → α}
    (hmake : ∀ v comments, make v (edit.comments comments) = change (make v comments))
    (comments : List CommentLine) (declared : List Variable) :
    Variable.declare make (edit.comments comments) declared =
      (Variable.declare make comments declared).map change := by
  cases declared with
  | nil => rfl
  | cons first others =>
    have hothers : ∀ v, make v [] = change (make v []) := by
      intro v
      rw [← hmake, edit.comments_nil]
    simp [Variable.declare, hmake, ← hothers]

theorem declare_toMember (visibility : Visibility) (binding : Binding)
    (comments : List CommentLine) (declared : List Variable) :
    Variable.declare (·.toMember visibility binding ·) (edit.comments comments) declared =
      (Variable.declare (·.toMember visibility binding ·) comments declared).map
        (Member.mapComments edit.comments) := by
  apply declare_comments edit
  intro v comments
  rfl

theorem declare_toGlobal (visibility : Visibility) (comments : List CommentLine)
    (declared : List Variable) :
    Variable.declare (·.toGlobal visibility ·) (edit.comments comments) declared =
      (Variable.declare (·.toGlobal visibility ·) comments declared).map
        (GlobalVariable.mapComments edit.comments) := by
  apply declare_comments edit
  intro v comments
  rfl

/-! ### Bodies -/

theorem localOf_apply (first : Lexeme) (isConstant : Bool) (type name : Token)
    (rest : List Lexeme) (h : edit.behind = [] ∨ 0 < rest.length) :
    localOf (edit.lexeme first) isConstant type name (edit.apply rest) =
      (localOf first isConstant type name rest).mapComments edit.comments := by
  have hsign : startsWithSign "[" (edit.apply rest) = startsWithSign "[" rest := by
    cases rest with
    | nil => rw [Edit.apply_nil, h.resolve_right (Nat.not_lt_zero _)]
    | cons first rest => rfl
  rw [localOf, hsign]
  rfl

/-- To find a local variable, no more is read than the lexemes that are counted and the one behind
them. -/
theorem localHead_apply (first : Lexeme) (rest : List Lexeme)
    (h : edit.behind = [] ∨ (localHead first rest).2 < rest.length) :
    localHead (edit.lexeme first) (edit.apply rest) =
      ((localHead first rest).1.map (LocalVariable.mapComments edit.comments),
        (localHead first rest).2) := by
  revert h
  fun_cases localHead first rest <;> intro h <;> simp_all [localHead]
  -- Where a variable was found, the lexeme behind its name tells whether it is an array
  all_goals exact localOf_apply edit first _ _ _ _ h

theorem drop_apply (lexemes : List Lexeme) (size : Nat)
    (h : edit.behind = [] ∨ size < lexemes.length) :
    (edit.apply lexemes).drop size = edit.apply (lexemes.drop size) := by
  rcases h with h | h
  · simp [Edit.apply, h]
  · simp [Edit.apply, List.drop_append, Nat.sub_eq_zero_of_le (Nat.le_of_lt h)]

/-- The first words of a statement, and after them what is left of the body. -/
theorem follows_statement (depth : Nat) (first : Lexeme) (rest : List Lexeme)
    (hbody : ∀ later, later <:+ rest → Follows edit (Body.mapComments edit.comments) .tight later
      (bodyFrom depth false later) (bodyFrom depth false (edit.apply later))) :
    Follows edit (Body.mapComments edit.comments) .tight rest
      (let head := localHead first rest
       (bodyFrom depth false (rest.drop head.2)).bind fun answer =>
        .ok (⟨head.1.toList ++ answer.1.locals, answer.1.closing⟩, answer.2))
      (let head := localHead (edit.lexeme first) (edit.apply rest)
       (bodyFrom depth false ((edit.apply rest).drop head.2)).bind fun answer =>
        .ok (⟨head.1.toList ++ answer.1.locals, answer.1.closing⟩, answer.2)) := by
  have hsuffix := List.drop_suffix (localHead first rest).2 rest
  by_cases hsize : edit.behind = [] ∨ (localHead first rest).2 < rest.length
  · rw [localHead_apply edit first rest hsize]
    dsimp only
    rw [drop_apply edit rest _ hsize]
    refine ((hbody _ hsuffix).mono hsuffix).map fun body =>
      ⟨⟨(localHead first rest).1.toList ++ body.locals, body.closing⟩, fun _ => ⟨rfl, ?_⟩⟩
    cases (localHead first rest).1 <;> rfl
  · -- All lexemes were looked at, and the brace is still missing
    have hdrop : rest.drop (localHead first rest).2 = [] := by
      apply List.drop_eq_nil_of_le
      omega
    dsimp only
    rw [hdrop, bodyFrom]
    exact .endOfCode fun hbehind => absurd (.inl hbehind) hsize

theorem follows_bodyFrom (depth : Nat) (atStatement : Bool) (lexemes : List Lexeme) :
    Follows edit (Body.mapComments edit.comments) .tight lexemes
      (bodyFrom depth atStatement lexemes) (bodyFrom depth atStatement (edit.apply lexemes)) := by
  -- A statement that declares a variable takes several lexemes at once
  induction hlength : lexemes.length using Nat.strongRecOn
    generalizing depth atStatement lexemes with
  | _ n ih =>
    cases lexemes with
    | nil =>
      rw [bodyFrom]
      exact .endOfCode fun hbehind => by rw [Edit.apply_nil, hbehind, bodyFrom]
    | cons lexeme rest =>
      have hlater : ∀ depth atStatement later, later <:+ rest →
          Follows edit (Body.mapComments edit.comments) .tight later
            (bodyFrom depth atStatement later) (bodyFrom depth atStatement (edit.apply later)) := by
        intro depth atStatement later hlater
        have := hlater.length_le
        rw [List.length_cons] at hlength
        exact ih later.length (by omega) depth atStatement later rfl
      have hrest := fun depth atStatement =>
        (hlater depth atStatement rest (List.suffix_refl _)).mono (List.suffix_cons lexeme rest)
      rw [bodyFrom.eq_def depth atStatement (lexeme :: rest),
        bodyFrom.eq_def depth atStatement (edit.apply (lexeme :: rest))]
      refine .ite .rfl (fun _ => hrest _ _) fun _ => ?_
      refine .ite .rfl (fun _ => ?_) fun _ => ?_
      · -- The brace that closes the body, or else a block inside it
        cases depth with
        | zero => exact .ok (List.suffix_cons ..)
        | succ depth => exact hrest depth true
      refine .ite .rfl (fun _ => hrest _ _) fun _ => ?_
      refine .ite .rfl (fun _ => ?_) fun _ => hrest _ _
      exact (follows_statement edit depth lexeme rest (hlater depth false)).mono
        (List.suffix_cons ..)

theorem follows_body (lexemes : List Lexeme) :
    Follows edit (Body.mapComments edit.comments) .tight lexemes (body lexemes)
      (body (edit.apply lexemes)) :=
  (follows_sign edit "\x7b" lexemes).bind fun _ rest _ => follows_bodyFrom edit 0 true rest

/-! ### Parameters and results -/

theorem follows_parametersFrom (lexemes : List Lexeme) :
    Follows edit id .tight lexemes (parametersFrom lexemes)
      (parametersFrom (edit.apply lexemes)) := by
  induction hlength : lexemes.length using Nat.strongRecOn generalizing lexemes with
  | _ n ih =>
    rw [parametersFrom_eq lexemes, parametersFrom_eq (edit.apply lexemes)]
    refine (follows_identifier edit .parameterType lexemes).bind fun type rest htype => ?_
    have hrest := consumes_identifier _ _ _ _ htype
    cases rest with
    | nil =>
      -- Behind the word `nothing` there may be the sign or a name
      rw [startsWithSign, Bool.and_false]
      exact .endOfCode fun hbehind => by
        rw [Edit.apply_nil, hbehind, startsWithSign, Bool.and_false]
        rfl
    | cons first rest =>
      refine .ite .rfl (fun _ => .ok (List.suffix_cons ..)) fun _ => ?_
      refine (follows_identifier edit .parameterName _).bind fun name later hname => ?_
      have hlater := consumes_identifier _ _ _ _ hname
      cases later with
      | nil => exact .endOfCode fun hbehind => by rw [Edit.apply_nil, hbehind]; rfl
      | cons separator later =>
        refine .ite .rfl (fun _ => ?_) fun _ => ?_
        · simp only [List.length_cons] at hlater hrest
          have hothers := ih later.length (by omega) later rfl
          exact (hothers.mono (List.suffix_cons ..)).map fun _ => ⟨_, fun _ => ⟨rfl, rfl⟩⟩
        · exact (follows_sign edit ")" _).map fun _ => ⟨_, fun _ => ⟨rfl, rfl⟩⟩

theorem follows_parameters (lexemes : List Lexeme) :
    Follows edit id .tight lexemes (parameters lexemes) (parameters (edit.apply lexemes)) := by
  refine (follows_sign edit "(" lexemes).bind fun opening rest _ => ?_
  cases rest with
  | nil => exact .endOfCode fun hbehind => by rw [Edit.apply_nil, hbehind]; rfl
  | cons first rest =>
    refine .ite .rfl (fun _ => .ok (List.suffix_cons ..)) fun _ => ?_
    exact follows_parametersFrom edit (first :: rest)

theorem follows_result (lexemes : List Lexeme) :
    Follows edit id .loose lexemes (result lexemes) (result (edit.apply lexemes)) := by
  cases lexemes with
  | nil => exact fun hbehind => by rw [Edit.apply_nil, hbehind]; rfl
  | cons lexeme rest =>
    refine .ite .rfl (fun _ => ?_) fun _ => .ok (List.suffix_refl _)
    have htype := (follows_identifier edit .returnType rest).mono (List.suffix_cons lexeme rest)
    exact htype.toLoose.map fun _ => ⟨_, fun _ => ⟨rfl, rfl⟩⟩

/-! ### Functions and methods -/

theorem follows_function (visibility : Visibility) (comments : List CommentLine) (keyword : Token)
    (lexemes : List Lexeme) :
    Follows edit (Function.mapComments edit.comments) .tight lexemes
      (function visibility comments keyword lexemes)
      (function visibility (edit.comments comments) keyword (edit.apply lexemes)) := by
  refine (follows_identifier edit .functionName lexemes).bind fun name rest _ => ?_
  refine (follows_parameters edit rest).bind fun parameters rest _ => ?_
  refine (follows_result edit rest).bind_of_leaves (fun returns rest _ => ?_)
    fun _ => (consumes_body []).zero_bind
  exact (follows_body edit rest).map fun _ => ⟨_, fun _ => ⟨rfl, rfl⟩⟩

theorem follows_operatorName (lexemes : List Lexeme) :
    Follows edit id .loose lexemes (.ok (operatorName lexemes))
      (.ok (operatorName (edit.apply lexemes))) := by
  induction lexemes with
  | nil => exact fun hbehind => by rw [Edit.apply_nil, hbehind]; rfl
  | cons lexeme rest ih =>
    rw [operatorName, Edit.apply_cons, operatorName, apply_ite Except.ok, apply_ite Except.ok]
    refine .ite .rfl (fun _ => .ok (List.suffix_refl _)) fun _ => ?_
    let name : String × List Lexeme → Reading String := fun answer =>
      .ok (lexeme.token.text ++ answer.1, answer.2)
    show Follows _ _ _ _ ((Except.ok (operatorName rest)).bind name)
      ((Except.ok (operatorName (edit.apply rest))).bind name)
    exact (ih.mono (List.suffix_cons ..)).map fun _ => ⟨_, fun _ => ⟨rfl, rfl⟩⟩

theorem follows_methodName (lexemes : List Lexeme) :
    Follows edit id .loose lexemes (methodName lexemes) (methodName (edit.apply lexemes)) := by
  cases lexemes with
  | nil => exact .of_nil rfl rfl
  | cons lexeme rest =>
    obtain ⟨isOperator, later, hlater, hoperator, hoperator'⟩ :=
      acceptKeyword_cons_cases edit ["operator"] lexeme rest
    rw [methodName, methodName, hoperator, hoperator']
    cases isOperator with
    | true => exact (follows_operatorName edit later).mono hlater
    | false =>
      have hname := (follows_identifier edit .methodName later).mono hlater
      exact hname.toLoose.map fun _ => ⟨_, fun _ => ⟨rfl, rfl⟩⟩

theorem follows_bodyOrSemicolon (lexemes : List Lexeme) :
    Follows edit (Body.mapComments edit.comments) .tight lexemes (bodyOrSemicolon lexemes)
      (bodyOrSemicolon (edit.apply lexemes)) := by
  cases lexemes with
  | nil => exact .of_nil rfl rfl
  | cons lexeme rest =>
    refine .ite .rfl (fun _ => .ok (List.suffix_cons ..)) fun _ => ?_
    exact follows_body edit (lexeme :: rest)

theorem follows_method (visibility : Visibility) (binding : Binding) (comments : List CommentLine)
    (keyword : Token) (lexemes : List Lexeme) :
    Follows edit (Method.mapComments edit.comments) .tight lexemes
      (method visibility binding comments keyword lexemes)
      (method visibility binding (edit.comments comments) keyword (edit.apply lexemes)) := by
  refine (follows_methodName edit lexemes).bind_of_leaves (fun name rest _ => ?_)
    fun _ => (consumes_parameters []).zero_bind
  refine (follows_parameters edit rest).bind fun parameters rest _ => ?_
  refine (follows_result edit rest).bind_of_leaves (fun returns rest _ => ?_)
    fun _ => (consumes_bodyOrSemicolon []).zero_bind
  exact (follows_bodyOrSemicolon edit rest).map fun _ => ⟨_, fun _ => ⟨rfl, rfl⟩⟩

end JassOutline.Zinc
