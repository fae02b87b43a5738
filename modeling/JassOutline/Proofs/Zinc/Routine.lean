import JassOutline.Proofs.Zinc.Body

/-!
# Reading written routines

Each reader gives back its part of a routine and leaves what stands behind the lexemes that were
written for it, whatever that is.

## Key results

- `bare_parameters`, `result_of_labels`: the parts of a header
- `function_of_writes`, `method_of_writes`: whole routines
-/

namespace JassOutline.Zinc

open Lexeme

variable {front more : List Lexeme}

/-! ### Parameters and results -/

/-- A list of parameters is read through its closing parenthesis. -/
theorem bare_parametersFrom {parameters : List Parameter} (hnonempty : parameters ≠ [])
    (h : front.map label = listed (parameters.map Parameter.labels) ++ [.sign ")"])
    (hparameters : ∀ parameter ∈ parameters, parameter.isWritable isFree = true)
    (more : List Lexeme) :
    ∃ read, parametersFrom (front ++ more) = .ok (read, more) ∧
      read.map Parameter.bare = parameters.map Parameter.bare := by
  induction parameters generalizing front with
  | nil => exact absurd rfl hnonempty
  | cons parameter parameters ih =>
    obtain ⟨type, name?, region⟩ := parameter
    obtain ⟨htype, name, rfl, -⟩ :=
      Parameter.isWritable_iff.1 (hparameters _ List.mem_cons_self)
    have hnothing : type ≠ "nothing" := ne_of_isFree htype (by decide)
    -- The separator behind the parameter is a parenthesis if it is the last one, and else a comma
    cases parameters with
    | nil =>
      obtain ⟨first, rest, rfl, hfirst, hrest⟩ := labels_eq_cons.1 h
      obtain ⟨second, rest, rfl, hsecond, hrest⟩ := labels_eq_cons.1 hrest
      obtain ⟨close, rest, rfl, hclose, hrest⟩ := labels_eq_cons.1 hrest
      obtain rfl : rest = [] := by simpa using hrest
      refine ⟨[⟨type, some name, ⟨first.token.start, second.token.stop⟩⟩], ?_, rfl⟩
      simp [parametersFrom, Token.isIdentifier_of_word hfirst, Token.isKeyword_of_word hfirst,
        hnothing, Token.isIdentifier_of_word hsecond, Token.isOperator_of_sign hclose,
        Token.text_of_word hfirst, Token.text_of_word hsecond]
    | cons next parameters =>
      obtain ⟨first, rest, rfl, hfirst, hrest⟩ := labels_eq_cons.1 h
      obtain ⟨second, rest, rfl, hsecond, hrest⟩ := labels_eq_cons.1 hrest
      obtain ⟨comma, rest, rfl, hcomma, hrest⟩ := labels_eq_cons.1 hrest
      obtain ⟨read, hread, hbare⟩ := ih (by simp) hrest fun p hp =>
        hparameters p (List.mem_cons_of_mem _ hp)
      refine ⟨⟨type, some name, ⟨first.token.start, second.token.stop⟩⟩ :: read, ?_, ?_⟩
      · simp [parametersFrom, Token.isIdentifier_of_word hfirst, Token.isKeyword_of_word hfirst,
          hnothing, Token.isIdentifier_of_word hsecond, Token.isOperator_of_sign hcomma,
          Token.text_of_word hfirst, Token.text_of_word hsecond, hread, bind, Except.bind]
      · rw [List.map_cons, hbare]
        rfl

/-- A parameter list is read with its parentheses. -/
theorem bare_parameters {parameters : List Parameter}
    (h : front.map label = .sign "(" :: (listed (parameters.map Parameter.labels) ++ [.sign ")"]))
    (hparameters : ∀ parameter ∈ parameters, parameter.isWritable isFree = true)
    (more : List Lexeme) :
    ∃ read, Zinc.parameters (front ++ more) = .ok (read, more) ∧
      read.map Parameter.bare = parameters.map Parameter.bare := by
  obtain ⟨opening, rest, rfl, hopening, hrest⟩ := labels_eq_cons.1 h
  cases parameters with
  | nil =>
    obtain ⟨close, rest, rfl, hclose, hrest⟩ := labels_eq_cons.1 hrest
    obtain rfl : rest = [] := by simpa using hrest
    refine ⟨[], ?_, rfl⟩
    simp [Zinc.parameters, sign_of_sign hopening, startsWithSign_of_sign hclose, bind, Except.bind]
  | cons parameter parameters =>
    obtain ⟨read, hread, hbare⟩ := bare_parametersFrom (by simp) hrest hparameters more
    refine ⟨read, ?_, hbare⟩
    -- The list does not close at once, for its first lexeme is the type of a parameter
    have hfirst : startsWithSign ")" (rest ++ more) = false := by
      cases parameters <;>
      · obtain ⟨first, rest, rfl, hfirst, -⟩ := labels_eq_cons.1 hrest
        exact startsWithSign_of_word hfirst ")"
    simp [Zinc.parameters, sign_of_sign hopening, hfirst, hread, bind, Except.bind]

/-- A result is read if it is there and the next lexeme is no arrow otherwise. -/
theorem result_of_labels {returns : Option String} (h : front.map label = resultLabels returns)
    (hmore : startsWithSign "->" more = false) :
    result (front ++ more) = .ok (returns, more) := by
  cases returns with
  | none =>
    obtain rfl : front = [] := by simpa [resultLabels] using h
    simp [result, hmore]
  | some type =>
    obtain ⟨arrow, rest, rfl, harrow, hrest⟩ := labels_eq_cons.1 h
    obtain ⟨word, rest, rfl, hword, hrest⟩ := labels_eq_cons.1 hrest
    obtain rfl : rest = [] := by simpa using hrest
    simp [result, startsWithSign_of_sign harrow, identifier_of_word hword,
      Token.text_of_word hword, bind, Except.bind]

/-! ### Routines -/

/-- The lexemes of a routine from its keyword to the brace of its body, parted as they are read. -/
structure RoutineHead (keyword : String) (nameLabels : List Label) (signature : Signature) where
  first : Lexeme
  name : List Lexeme
  list : List Lexeme
  arrow : List Lexeme
  brace : Lexeme
  label_first : first.token.label = .word keyword
  label_name : name.map label = nameLabels
  label_list : list.map label =
    .sign "(" :: (listed (signature.parameters.map Parameter.labels) ++ [.sign ")"])
  label_arrow : arrow.map label = resultLabels signature.returns
  label_brace : brace.token.label = .sign "\x7b"

namespace RoutineHead

variable {keyword : String} {nameLabels : List Label} {signature : Signature}

/-- The lexemes behind the keyword, in front of the given ones. -/
def before (head : RoutineHead keyword nameLabels signature) (more : List Lexeme) : List Lexeme :=
  head.name ++ (head.list ++ (head.arrow ++ head.brace :: more))

theorem exists_eq (h : front.map label = routineLabels keyword nameLabels signature) :
    ∃ head : RoutineHead keyword nameLabels signature,
      ∀ more, front ++ more = head.first :: head.before more := by
  -- The readers take both parentheses together, so they are one part here
  have hsplit : front.map label = .word keyword :: (nameLabels ++
      ((.sign "(" :: (listed (signature.parameters.map Parameter.labels) ++ [.sign ")"])) ++
        (resultLabels signature.returns ++ [.sign "\x7b"]))) := by
    rw [h, routineLabels]
    simp
  obtain ⟨first, rest, rfl, hfirst, hrest⟩ := labels_eq_cons.1 hsplit
  obtain ⟨name, rest, rfl, hname, hrest⟩ := labels_eq_append.1 hrest
  obtain ⟨list, rest, rfl, hlist, hrest⟩ := labels_eq_append.1 hrest
  obtain ⟨arrow, rest, rfl, harrow, hrest⟩ := labels_eq_append.1 hrest
  obtain ⟨brace, rest, rfl, hbrace, hrest⟩ := labels_eq_cons.1 hrest
  obtain rfl : rest = [] := by simpa using hrest
  exact ⟨⟨first, name, list, arrow, brace, hfirst, hname, hlist, harrow, hbrace⟩, fun more => by
    simp [before]⟩

/-- The parameters are read behind the name. -/
theorem parameters_list (head : RoutineHead keyword nameLabels signature)
    (h : signature.isWritable isFree = true) (more : List Lexeme) :
    ∃ read, Zinc.parameters (head.list ++ more) = .ok (read, more) ∧
      read.map Parameter.bare = signature.parameters.map Parameter.bare :=
  bare_parameters head.label_list (Signature.isWritable_iff.1 h).2.1 more

/-- The result is read in front of the brace. -/
theorem result_arrow (head : RoutineHead keyword nameLabels signature) (more : List Lexeme) :
    result (head.arrow ++ head.brace :: more) = .ok (signature.returns, head.brace :: more) :=
  result_of_labels head.label_arrow (startsWithSign_of_sign head.label_brace "->")

end RoutineHead

/-- A function is read through the brace behind its body. -/
theorem function_of_writes {function : Function} {marks : List Mark} {close : Lexeme}
    {given : List CommentLine}
    (head : RoutineHead "function" [nameLabel function.name] function.signature)
    (hsignature : function.signature.isWritable isFree = true)
    (hconstant : function.isConstant = false) (hglobals : function.globals = [])
    (hbody : BodyWrites marks function.locals) (hfront : front.map mark = marks)
    (hclose : close.token.label = .sign "\x7d")
    (hgiven : given.map CommentLine.text = function.comments.map CommentLine.text)
    (more : List Lexeme) :
    ∃ read, Zinc.function function.visibility given head.first.token
        (head.before (front ++ close :: more)) = .ok (read, more) ∧
      read.bare = function.bare := by
  obtain ⟨⟨text, hname, -⟩, -, -⟩ := Signature.isWritable_iff.1 hsignature
  obtain ⟨name, rest, hnames, hlabel, hrest⟩ := labels_eq_cons.1 head.label_name
  obtain rfl : rest = [] := by simpa using hrest
  have htext : name.token.label = .word text := by
    rw [hlabel, show function.name = some text from hname]
    rfl
  -- Every part is read in front of the parts behind it
  obtain ⟨parameters, hlist, hbareList⟩ := head.parameters_list
    hsignature (head.arrow ++ head.brace :: (front ++ close :: more))
  obtain ⟨locals, hlocals, hbareLocals⟩ :=
    body_of_writes hbody hfront head.label_brace hclose more
  let read : Function :=
    { name := some name.token.text, comments := given
      region := ⟨head.first.token.start, close.token.stop⟩, visibility := function.visibility
      isConstant := false, parameters, returns := function.returns, locals, globals := [] }
  refine ⟨read, ?_, ?_⟩
  · simp only [Zinc.function, RoutineHead.before, hnames, List.singleton_append,
      identifier_of_word htext, hlist, head.result_arrow, hlocals, bind, Except.bind]
    rfl
  · have hread : some name.token.text = function.name := by
      rw [Token.text_of_word htext]
      exact hname.symm
    simp only [read, Function.bare, Heading.bare, hread, bare_of_text hgiven, hconstant, hglobals,
      hbareList, hbareLocals]
    rfl

/-- What makes up the name of an operator is read up to the parenthesis behind it. -/
theorem operatorName_of_labels {labels : List Label} (h : front.map label = labels)
    (hlabels : ∀ l ∈ labels, l ≠ .sign "(" ∧ l.kind ≠ .comment)
    (hmore : startsWithSign "(" more = true) :
    operatorName (front ++ more) = (String.join (labels.map Label.text), more) := by
  induction front generalizing labels with
  | nil =>
    obtain rfl : labels = [] := by simpa using h.symm
    cases more with
    | nil => cases hmore
    | cons paren more => simp [operatorName, show paren.token.isOperator "(" = true from hmore]
  | cons lexeme front ih =>
    obtain rfl : lexeme.token.label :: front.map label = labels := h
    have hlexeme : lexeme.token.isOperator "(" = false := by
      simp [Token.isOperator_eq, (hlabels _ List.mem_cons_self).1]
    rw [List.cons_append, operatorName, hlexeme,
      ih rfl fun l hl => hlabels l (List.mem_cons_of_mem _ hl)]
    simp [Token.label]

/-- The name of a method is read up to the parenthesis behind it. -/
theorem methodName_of_labels {text : String} {labels : List Label} (h : IsMethodName text labels)
    (hfront : front.map label = labels) (htext : isFree text = true)
    (hmore : startsWithSign "(" more = true) :
    methodName (front ++ more) = .ok (text, more) := by
  cases h with
  | word =>
    obtain ⟨name, rest, rfl, hname, hrest⟩ := labels_eq_cons.1 hfront
    obtain rfl : rest = [] := by simpa using hrest
    have hoperator : text ≠ "operator" := ne_of_isFree htext (by decide)
    simp [methodName, acceptKeyword_of_word hname, hoperator, identifier_of_word hname,
      Token.text_of_word hname, bind, Except.bind]
  | operator hlabels =>
    obtain ⟨keyword, rest, rfl, hkeyword, hrest⟩ := labels_eq_cons.1 hfront
    simp [methodName, acceptKeyword_of_word hkeyword, operatorName_of_labels hrest hlabels hmore]

/-- A method is read through the brace behind its body. -/
theorem method_of_writes {method : Method} {text : String} {nameLabels : List Label}
    {marks : List Mark} {close : Lexeme} {given : List CommentLine}
    (head : RoutineHead "method" nameLabels method.signature)
    (hsignature : method.signature.isWritable isFree = true)
    (hname : method.name = some text) (hnameLabels : IsMethodName text nameLabels)
    (hglobals : method.globals = []) (hbody : BodyWrites marks method.locals)
    (hfront : front.map mark = marks) (hclose : close.token.label = .sign "\x7d")
    (hgiven : given.map CommentLine.text = method.comments.map CommentLine.text)
    (more : List Lexeme) :
    ∃ read, Zinc.method method.visibility method.binding given head.first.token
        (head.before (front ++ close :: more)) = .ok (read, more) ∧
      read.bare = method.bare := by
  have hfree : isFree text = true := by
    obtain ⟨⟨found, hfound, hfree⟩, -, -⟩ := Signature.isWritable_iff.1 hsignature
    obtain rfl : text = found := Option.some.inj (hname.symm.trans hfound)
    exact hfree
  let behind := head.arrow ++ head.brace :: (front ++ close :: more)
  obtain ⟨parameters, hlist, hbareList⟩ := head.parameters_list hsignature behind
  obtain ⟨locals, hlocals, hbareLocals⟩ :=
    body_of_writes hbody hfront head.label_brace hclose more
  -- An operator ends at the parenthesis, and a list of parameters starts with one
  have hparen : startsWithSign "(" (head.list ++ behind) = true := by
    obtain ⟨paren, rest, hparts, hparen, -⟩ := labels_eq_cons.1 head.label_list
    rw [hparts]
    exact startsWithSign_of_sign hparen "("
  have hread := methodName_of_labels hnameLabels head.label_name hfree hparen
  have hbodyOrSemicolon : bodyOrSemicolon (head.brace :: (front ++ close :: more)) =
      .ok (⟨locals, close.token⟩, more) := by
    simp [bodyOrSemicolon, Token.isOperator_of_sign head.label_brace, hlocals]
  let read : Method :=
    { name := some text, comments := given
      region := ⟨head.first.token.start, close.token.stop⟩, visibility := method.visibility
      binding := method.binding, parameters, returns := method.returns, locals, globals := [] }
  refine ⟨read, ?_, ?_⟩
  · simp only [Zinc.method, RoutineHead.before, behind, hread, hlist, head.result_arrow,
      hbodyOrSemicolon, bind, Except.bind]
    rfl
  · simp only [read, Method.bare, Heading.bare, ← hname, bare_of_text hgiven, hglobals, hbareList,
      hbareLocals]
    rfl

end JassOutline.Zinc
