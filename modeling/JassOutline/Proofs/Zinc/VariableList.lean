import JassOutline.Proofs.Zinc.Balanced
import JassOutline.Proofs.Zinc.Library

/-!
# Lists of variables

`constant TYPE array NAME[SIZE] = VALUE, NAME[SIZE] = VALUE;` declares one variable for each name,
where it stands in a container. In a body the start of a statement tells what is declared: at most
one variable, whose name is the word behind the type. So the two agree on a declaration of one name
without the word `array`, and on no other one.

## Key results

- `variableDeclaration_of_list`: all names of a declaration are read
- `bodyFrom_of_list`: the first word behind the type is read in a body
- `VariableList.collects_of_labels`: what is collected of a declaration, wherever it stands
-/

namespace JassOutline.Zinc

open Lexeme

variable {front : List Lexeme}

/-! ### Declarations -/

/-- A name in a declaration, with its size and its value. -/
structure Declarator where
  name : String
  size? : Option (List Label)
  value? : Option (List Label)
  deriving DecidableEq, Repr

/-- An equals sign and the value behind it, if there is one. -/
def valueLabels : Option (List Label) → List Label
  | none => []
  | some value => .sign "=" :: value

namespace Declarator

/-- What stands behind the name. -/
def behindName (d : Declarator) : List Label :=
  sizeLabels d.size?.isSome (d.size?.getD []) ++ valueLabels d.value?

/-- `NAME[SIZE] = VALUE`. -/
def labels (d : Declarator) : List Label :=
  .word d.name :: d.behindName

/-- The name is free, the brackets are balanced, and the value ends at a comma or a semicolon. -/
structure IsWritten (d : Declarator) : Prop where
  name : isFree d.name = true
  size : ∀ size ∈ d.size?, Balanced [] size
  value : ∀ value ∈ d.value?, Balanced [.sign ",", .sign ";"] value

theorem IsWritten.balanced {d : Declarator} (h : d.IsWritten) : Balanced [] d.behindName := by
  refine Balanced.append ?_ ?_
  · cases hsize : d.size? with
    | none => exact .nil
    | some size => exact .group (by decide) (h.size size hsize) .nil
  · cases hvalue : d.value? with
    | none => exact .nil
    | some value => exact .cons (by decide) List.not_mem_nil (h.value value hvalue).anywhere

end Declarator

/-- A declaration of variables, as it is written. -/
structure VariableList where
  isConstant : Bool
  type : String
  /-- Whether the word `array` stands behind the type. -/
  isArray : Bool
  first : Declarator
  others : List Declarator
  deriving DecidableEq, Repr

/-- What is collected of a variable, apart from its place, its visibility and its comments. -/
structure Declared where
  isConstant : Bool
  type : Option String
  isArray : Bool
  name : Option String
  deriving DecidableEq, Repr

namespace Declared

def ofVariable (v : Variable) : Declared := ⟨v.isConstant, some v.type, v.isArray, some v.name⟩

def ofGlobal (v : GlobalVariable) : Declared := ⟨v.isConstant, v.type, v.isArray, v.name⟩

def ofMember (v : Member) : Declared := ⟨v.isConstant, v.type, v.isArray, v.name⟩

def ofLocal (v : LocalVariable) : Declared := ⟨v.isConstant, v.type, v.isArray, v.name⟩

end Declared

namespace VariableList

/-- The names with their sizes and values. -/
def declarators (list : VariableList) : List Declarator :=
  list.first :: list.others

/-- `constant TYPE array NAME[SIZE] = VALUE, NAME[SIZE] = VALUE;`. -/
def labels (list : VariableList) : List Label :=
  (flagWords "constant" list.isConstant ++ list.type :: flagWords "array" list.isArray).map .word ++
    (listed (list.declarators.map Declarator.labels) ++ [.sign ";"])

/-- What stands behind the first name. -/
def behindFirst (list : VariableList) : List Label :=
  list.first.behindName ++ list.others.flatMap fun d => .sign "," :: d.labels

/-- The type and the names are free, and what stands behind the names is balanced. -/
structure IsWritten (list : VariableList) : Prop where
  type : isFree list.type = true
  declarators : ∀ d ∈ list.declarators, d.IsWritten

/-- One variable for each name. -/
def declared (list : VariableList) : List Declared :=
  list.declarators.map fun d =>
    ⟨list.isConstant, some list.type, list.isArray || d.size?.isSome, some d.name⟩

/-- The variable that a statement declares, if it starts like the declaration: its name is the word
behind the type. -/
def head (list : VariableList) : Declared :=
  if list.isArray then ⟨list.isConstant, some list.type, false, some "array"⟩
  else ⟨list.isConstant, some list.type, list.first.size?.isSome, some list.first.name⟩

/-- Neither a size nor a value holds a statement. -/
def IsPlain (list : VariableList) : Prop :=
  ∀ d ∈ list.declarators, ∀ l ∈ d.behindName, l ∉ [.sign "\x7b", .sign "\x7d", .sign ";"]

theorem listed_eq (list : VariableList) :
    listed (list.declarators.map Declarator.labels) =
      .word list.first.name :: list.behindFirst := by
  have hlisted : ∀ item rest, listed (item :: rest) = item ++ rest.flatMap (.sign "," :: ·) := by
    intro item rest
    induction rest generalizing item with
    | nil => simp [listed]
    | cons next rest ih => simp [listed, ih]
  rw [declarators, List.map_cons, hlisted, Declarator.labels, behindFirst, List.flatMap_map,
    List.cons_append]

theorem IsWritten.balanced {list : VariableList} (h : list.IsWritten) :
    Balanced [] list.behindFirst := by
  refine (h.declarators _ List.mem_cons_self).balanced.append ?_
  have hothers : ∀ d ∈ list.others, d.IsWritten := fun d hd =>
    h.declarators d (List.mem_cons_of_mem _ hd)
  generalize list.others = others at hothers
  induction others with
  | nil => exact .nil
  | cons d others ih =>
    obtain ⟨hd, hrest⟩ := List.forall_mem_cons.1 hothers
    exact .append (.cons (by decide) List.not_mem_nil
      (.cons (by simp [bracketLabels]) List.not_mem_nil hd.balanced)) (ih hrest)

/-- Plain declarations have no brace and no semicolon behind the first name. -/
theorem IsPlain.behindFirst {list : VariableList} (h : list.IsPlain) :
    ∀ l ∈ list.behindFirst, l ∉ [.sign "\x7b", .sign "\x7d", .sign ";"] := by
  refine List.forall_mem_append.2 ⟨h _ List.mem_cons_self, fun l hl => ?_⟩
  obtain ⟨d, hd, hmem⟩ := List.mem_flatMap.1 hl
  rcases List.mem_cons.1 hmem with rfl | hmem
  · decide
  · rcases List.mem_cons.1 hmem with rfl | hmem
    · simp
    · exact h d (List.mem_cons_of_mem _ hd) l hmem

/-- The first variable is all there is, if and only if the declaration has one name and does not
have the word `array`. -/
theorem head_eq_declared_iff {list : VariableList} (h : list.IsWritten) :
    [list.head] = list.declared ↔ list.others = [] ∧ list.isArray = false := by
  obtain ⟨isConstant, type, isArray, first, others⟩ := list
  have hname : first.name ≠ "array" :=
    ne_of_isFree (h.declarators first List.mem_cons_self).name (by decide)
  cases isArray <;> simp [head, declared, declarators, Ne.symm hname]

end VariableList

/-! ### Names in containers -/

theorem skipSize_of_labels {size? : Option (List Label)} (hsize : ∀ size ∈ size?, Balanced [] size)
    (h : front.map label = sizeLabels size?.isSome (size?.getD [])) {more : List Lexeme}
    (hmore : startsWithSign "[" more = false) :
    skipSize (front ++ more) = .ok (size?.isSome, more) := by
  cases size? with
  | none =>
    obtain rfl : front = [] := by simpa [sizeLabels] using h
    simp [skipSize, hmore]
  | some size =>
    obtain ⟨opening, rest, rfl, hopening, hrest⟩ := labels_eq_cons.1 h
    obtain ⟨inside, behind, rfl, hinside, hbehind⟩ := labels_eq_append.1 hrest
    obtain ⟨close, later, rfl, hclose, hlater⟩ := labels_eq_cons.1 hbehind
    obtain rfl : later = [] := by simpa using hlater
    have hgroup := closeGroup_of_balanced (hsize size rfl) hinside 0 (close :: more)
    simp [skipSize, startsWithSign_of_sign hopening, hgroup, closeGroup,
      Token.isOperator_of_sign hclose, bind, Except.bind]

theorem skipValue_of_labels {value? : Option (List Label)}
    (hvalue : ∀ value ∈ value?, Balanced [.sign ",", .sign ";"] value)
    (h : front.map label = valueLabels value?) {separator : Lexeme} {text : String}
    (hseparator : separator.token.label = .sign text) (htext : text ∈ [",", ";"])
    (more : List Lexeme) :
    skipValue (front ++ separator :: more) = .ok ((), separator :: more) := by
  cases value? with
  | none =>
    obtain rfl : front = [] := by simpa [valueLabels] using h
    have hequals : text ≠ "=" := fun heq => absurd (heq ▸ htext) (by decide)
    simp [skipValue, startsWithSign_of_sign hseparator, hequals]
  | some value =>
    obtain ⟨equals, rest, rfl, hequals, hrest⟩ := labels_eq_cons.1 h
    have hskip := skipExpression_of_balanced (hvalue value rfl) hrest 0 (fun _ => by simp)
      (separator :: more)
    simp [skipValue, startsWithSign_of_sign hequals, hskip, skipExpression,
      isOperatorOf_of_sign hseparator, htext]

/-- A name is read with its size and its value. -/
theorem variableNamed_of_labels {d : Declarator} (hd : d.IsWritten) (shared : VariableType)
    (h : front.map label = d.labels) {separator : Lexeme} {text : String}
    (hseparator : separator.token.label = .sign text) (htext : text ∈ [",", ";"])
    (more : List Lexeme) :
    ∃ v : Variable, variableNamed shared (front ++ separator :: more) =
        .ok (v, separator :: more) ∧
      Declared.ofVariable v = ⟨shared.isConstant, some shared.type.text,
        shared.isArray || d.size?.isSome, some d.name⟩ := by
  obtain ⟨name, rest, rfl, hname, hrest⟩ := labels_eq_cons.1 h
  obtain ⟨size, value, rfl, hsize, hvalue⟩ := labels_eq_append.1 hrest
  -- What stands behind the size is no bracket: the value starts with an equals sign
  have hbracket : startsWithSign "[" (value ++ separator :: more) = false := by
    cases hvalue? : d.value? with
    | none =>
      rw [hvalue?] at hvalue
      obtain rfl : value = [] := by simpa [valueLabels] using hvalue
      have hne : text ≠ "[" := fun heq => absurd (heq ▸ htext) (by decide)
      simp [startsWithSign_of_sign hseparator, hne]
    | some labels =>
      rw [hvalue?] at hvalue
      obtain ⟨equals, later, rfl, hequals, -⟩ := labels_eq_cons.1 hvalue
      exact startsWithSign_of_sign hequals "["
  refine ⟨.ofName shared name.token d.size?.isSome, ?_, ?_⟩
  · simp [variableNamed, identifier_of_word hname, skipSize_of_labels hd.size hsize hbracket,
      skipValue_of_labels hd.value hvalue hseparator htext, bind, Except.bind]
  · simp [Declared.ofVariable, Variable.ofName, Token.text_of_word hname]

/-- Names are read up to the semicolon behind them. -/
theorem commaSeparated_of_declarators {declarators : List Declarator} (shared : VariableType)
    (hnonempty : declarators ≠ []) (hwritten : ∀ d ∈ declarators, d.IsWritten)
    (h : front.map label = listed (declarators.map Declarator.labels)) {semicolon : Lexeme}
    (hsemicolon : semicolon.token.label = .sign ";") (more : List Lexeme) :
    ∃ vs : List Variable,
      commaSeparated (variableNamed shared) (consumes_variableNamed shared)
        (front ++ semicolon :: more) = .ok (vs, semicolon :: more) ∧
      vs.map Declared.ofVariable = declarators.map fun d =>
        ⟨shared.isConstant, some shared.type.text, shared.isArray || d.size?.isSome,
          some d.name⟩ := by
  induction declarators generalizing front with
  | nil => exact absurd rfl hnonempty
  | cons d declarators ih =>
    obtain ⟨hd, hothers⟩ := List.forall_mem_cons.1 hwritten
    cases declarators with
    | nil =>
      obtain ⟨v, hread, hv⟩ := variableNamed_of_labels hd shared h hsemicolon (by simp) more
      refine ⟨[v], commaSeparated_single hread ?_, by rw [List.map_singleton, hv]; rfl⟩
      exact startsWithSign_of_sign hsemicolon ","
    | cons next declarators =>
      obtain ⟨name, behind, rfl, hname, hbehind⟩ := labels_eq_append.1 h
      obtain ⟨comma, rest, rfl, hcomma, hrest⟩ := labels_eq_cons.1 hbehind
      obtain ⟨v, hread, hv⟩ := variableNamed_of_labels hd shared hname hcomma (by simp)
        (rest ++ semicolon :: more)
      obtain ⟨vs, hreads, hvs⟩ := ih (by simp) hothers hrest
      rw [List.append_assoc, List.cons_append]
      exact ⟨v :: vs, commaSeparated_cons hread hcomma hreads, by rw [List.map_cons, hv, hvs]; rfl⟩

/-- All names of a declaration are read. -/
theorem variableDeclaration_of_list {list : VariableList} (hwritten : list.IsWritten)
    (h : front.map label = list.labels) (more : List Lexeme) :
    ∃ vs : List Variable, variableDeclaration (front ++ more) = .ok (vs, more) ∧
      vs.map Declared.ofVariable = list.declared := by
  obtain ⟨words, behind, rfl, hwords, hbehind⟩ := labels_eq_append.1 h
  obtain ⟨names, last, rfl, hnames, hlast⟩ := labels_eq_append.1 hbehind
  obtain ⟨semicolon, rest, rfl, hsemicolon, hrest⟩ := labels_eq_cons.1 hlast
  obtain rfl : rest = [] := by simpa using hrest
  -- The first name tells that no further word belongs to the type
  obtain ⟨name, later, rfl, hname, -⟩ := labels_eq_cons.1 (hnames.trans list.listed_eq)
  have hfirst := (hwritten.declarators list.first List.mem_cons_self).name
  obtain ⟨type, htype, hshared⟩ := variableType_of_words hwords
    (ne_of_isFree hwritten.type (by decide)) hname (ne_of_isFree hfirst (by decide))
    (later ++ semicolon :: more)
  obtain ⟨vs, hreads, hvs⟩ := commaSeparated_of_declarators ⟨list.isConstant, type, list.isArray⟩
    (List.cons_ne_nil _ _) hwritten.declarators hnames hsemicolon more
  refine ⟨vs, ?_, ?_⟩
  · rw [List.append_assoc, List.append_assoc, List.cons_append, List.singleton_append]
    rw [List.cons_append] at hreads
    simp [variableDeclaration, hshared, hreads, sign_of_sign hsemicolon, bind, Except.bind]
  · rw [hvs, VariableList.declared, htype]
    rfl

/-! ### Items -/

/-- A declaration starts with `constant` or with its type. -/
theorem startsWithOther_labels {list : VariableList} (hwritten : list.IsWritten)
    {words : List String} (hwords : ∀ word ∈ words, word ∈ reservedWords ∧ word ≠ "constant") :
    StartsWithOther words list.labels := by
  obtain ⟨isConstant, type, isArray, first, others⟩ := list
  cases isConstant with
  | false => exact ⟨type, _, rfl, fun hmem => ne_of_isFree hwritten.type (hwords type hmem).1 rfl⟩
  | true => exact ⟨"constant", _, rfl, fun hmem => (hwords _ hmem).2 rfl⟩

/-- What is made of the variables of a declaration. -/
theorem map_declare {α : Type} {make : Variable → List CommentLine → α} {facts : α → Declared}
    (h : ∀ v comments, facts (make v comments) = Declared.ofVariable v)
    (comments : List CommentLine) (vs : List Variable) :
    (Variable.declare make comments vs).map facts = vs.map Declared.ofVariable := by
  cases vs with
  | nil => rfl
  | cons v vs => simp [Variable.declare, h]

/-- An item that is no library declares global variables. -/
theorem plainItem_of_list {list : VariableList} (hwritten : list.IsWritten)
    (h : front.map label = list.labels) (visibility : Visibility) (comments : List CommentLine)
    (more : List Lexeme) :
    ∃ globals, plainItem visibility comments (front ++ more) =
        .ok ({ Declarations.none with globals }, more) ∧
      globals.map Declared.ofGlobal = list.declared := by
  obtain ⟨vs, hread, hvs⟩ := variableDeclaration_of_list hwritten h more
  obtain ⟨word, later, hlabels, hword⟩ :
      StartsWithOther (libraryWords ++ ["struct", "function"] ++ skippedWords) list.labels :=
    startsWithOther_labels hwritten (by decide)
  obtain ⟨first, rest, rfl, hfirst, -⟩ := labels_eq_cons.1 (h.trans hlabels)
  simp only [List.mem_append, List.mem_cons, List.not_mem_nil, or_false, not_or] at hword
  obtain ⟨⟨hlibrary, hstruct, hfunction⟩, hskipped⟩ := hword
  refine ⟨Variable.declare (·.toGlobal visibility ·) comments vs, ?_, ?_⟩
  · rw [List.cons_append] at hread ⊢
    simp [plainItem, Token.isOperator_of_word hfirst, Token.isIdentifier_of_word hfirst,
      Token.text_of_word hfirst, hlibrary, Token.isKeyword_of_word hfirst, hstruct, hfunction,
      hskipped, hread, bind, Except.bind]
  · rw [← hvs]
    apply map_declare
    exact fun _ _ => rfl

/-- Without a visibility of its own, an item has that of its section. -/
theorem acceptVisibility_of_list {list : VariableList} (hwritten : list.IsWritten)
    (h : front.map label = list.labels) (visibility : Visibility) (more : List Lexeme) :
    ∃ own rest, acceptVisibility (front ++ more) = (own, rest ++ more) ∧
      rest.map label = list.labels ∧ own.getD visibility = visibility :=
  @acceptVisibility_of_shows _ _ visibility visibility [] .inherited h
    (startsWithOther_labels hwritten (by decide)) more

theorem libraryItem_of_list {list : VariableList} (hwritten : list.IsWritten)
    (h : front.map label = list.labels) (visibility : Visibility) (comments : List CommentLine)
    (more : List Lexeme) :
    ∃ globals, libraryItem visibility comments (front ++ more) =
        .ok ({ Declarations.none with globals }, more) ∧
      globals.map Declared.ofGlobal = list.declared := by
  obtain ⟨own, rest, hown, hrest, hvisibility⟩ :=
    acceptVisibility_of_list hwritten h visibility more
  simp only [libraryItem, hown, hvisibility]
  exact plainItem_of_list hwritten hrest visibility comments more

/-- At the top level, a declaration of variables is not taken for a library. -/
theorem topItem_of_list {list : VariableList} (hwritten : list.IsWritten)
    (h : front.map label = list.labels) (comments : List CommentLine) (more : List Lexeme) :
    ∃ globals, topItem comments (front ++ more) =
        .ok ({ Declarations.none with globals }, more) ∧
      globals.map Declared.ofGlobal = list.declared := by
  obtain ⟨own, rest, hown, hrest, hvisibility⟩ :=
    acceptVisibility_of_list hwritten h .unmarked more
  obtain ⟨globals, hread, hglobals⟩ :=
    plainItem_of_list hwritten hrest .unmarked comments more
  -- The first word is looked at once more, as a library may start here
  obtain ⟨word, later, hlabels, hword⟩ : StartsWithOther libraryWords list.labels :=
    startsWithOther_labels hwritten (by decide)
  obtain ⟨first, rest, rfl, hfirst, -⟩ := labels_eq_cons.1 (hrest.trans hlabels)
  refine ⟨globals, ?_, hglobals⟩
  rw [List.cons_append] at hown hread
  simp [topItem, hown, hvisibility, topItemBody, Token.isKeywordOf_of_word hfirst, hword, hread]

/-- An item of a struct declares members. -/
theorem structItem_of_list {list : VariableList} (hwritten : list.IsWritten)
    (h : front.map label = list.labels) (visibility : Visibility) (comments : List CommentLine)
    (more : List Lexeme) :
    ∃ members, structItem visibility comments (front ++ more) =
        .ok ({ Declarations.none with members }, more) ∧
      members.map Declared.ofMember = list.declared := by
  obtain ⟨front, hfront, hitem⟩ :=
    @structItem_of_shows _ list.labels visibility visibility .ordinary [] .inherited h
      (startsWithOther_labels hwritten (by decide)) comments more
  obtain ⟨vs, hread, hvs⟩ := variableDeclaration_of_list hwritten hfront more
  obtain ⟨word, later, hlabels, hword⟩ : StartsWithOther ("method" :: skippedWords) list.labels :=
    startsWithOther_labels hwritten (by decide)
  obtain ⟨first, rest, rfl, hfirst, -⟩ := labels_eq_cons.1 (hfront.trans hlabels)
  rw [List.mem_cons, not_or] at hword
  obtain ⟨hmethod, hskipped⟩ := hword
  refine ⟨Variable.declare (·.toMember visibility .ordinary ·) comments vs, ?_, ?_⟩
  · rw [hitem]
    rw [List.cons_append] at hread ⊢
    simp [structItemBody, Token.isKeyword_of_word hfirst, hmethod,
      Token.isOperator_of_word hfirst, Token.text_of_word hfirst, hskipped, hread, bind,
      Except.bind]
  · rw [← hvs]
    apply map_declare
    exact fun _ _ => rfl

/-! ### Statements of bodies -/

/-- What stands behind the first name tells whether it has a size. -/
theorem startsWithSign_of_behindFirst {list : VariableList}
    (h : front.map label = list.behindFirst) {semicolon : Lexeme}
    (hsemicolon : semicolon.token.label = .sign ";") :
    startsWithSign "[" (front ++ [semicolon]) = list.first.size?.isSome := by
  obtain ⟨isConstant, type, isArray, ⟨name, size?, value?⟩, others⟩ := list
  cases size? with
  | some size =>
    obtain ⟨opening, rest, rfl, hopening, -⟩ := labels_eq_cons.1 h
    exact startsWithSign_of_sign hopening "["
  | none =>
    cases value? with
    | some value =>
      obtain ⟨equals, rest, rfl, hequals, -⟩ := labels_eq_cons.1 h
      exact startsWithSign_of_sign hequals "["
    | none =>
      cases others with
      | cons d others =>
        obtain ⟨comma, rest, rfl, hcomma, -⟩ := labels_eq_cons.1 h
        exact startsWithSign_of_sign hcomma "["
      | nil =>
        obtain rfl : front = [] := List.map_eq_nil_iff.1 h
        exact startsWithSign_of_sign hsemicolon "["

/-- A statement that starts with a type and a word declares one variable, and those of statements
inside of its braces, up to its semicolon. -/
theorem bodyFrom_of_balanced {isConstant : Bool} {type name : String} {behind : List Label}
    (htype : isFree type = true) (hbehind : Balanced [] behind)
    (h : front.map label = (flagWords "constant" isConstant ++ [type, name]).map .word ++
      (behind ++ [.sign ";"])) :
    ∃ later semicolon found inner, later.map label = behind ∧
      semicolon.token.label = .sign ";" ∧
      Declared.ofLocal found =
        ⟨isConstant, some type, startsWithSign "[" (later ++ [semicolon]), some name⟩ ∧
      ((∀ l ∈ behind, l ∉ [.sign "\x7b", .sign "\x7d", .sign ";"]) → inner = []) ∧
      ∀ depth more, bodyFrom depth true (front ++ more) =
        (bodyFrom depth true more).map (Prod.map (Body.prepend (found :: inner)) id) := by
  obtain ⟨head, tail, rfl, hhead, htail⟩ := labels_eq_append.1 h
  obtain ⟨later, last, rfl, rfl, hlast⟩ := labels_eq_append.1 htail
  obtain ⟨semicolon, rest, rfl, hsemicolon, hrest⟩ := labels_eq_cons.1 hlast
  obtain rfl : rest = [] := by simpa using hrest
  obtain ⟨first, words, typeToken, nameToken, -, htypeText, hnameText, hstart⟩ :=
    bodyFrom_head (not_mem_of_isFree htype) hhead
  -- The rest of the statement is read apart from what it starts with
  have hcloses : closesBraces 0 (later.map label) = true := by
    simpa [closesBraces] using closesBraces_append hbehind 0 []
  obtain ⟨inner, hplain, hinside⟩ := exists_bodyFrom_inside hcloses hsemicolon
  let found := localOf first isConstant typeToken nameToken (later ++ [semicolon])
  refine ⟨later, semicolon, found, inner, rfl, hsemicolon, ?_, hplain, fun depth more => ?_⟩
  · simp [found, Declared.ofLocal, localOf, htypeText, hnameText]
  · -- What follows the semicolon does not tell whether the variable is an array
    have hfound : localOf first isConstant typeToken nameToken (later ++ semicolon :: more) =
        found := by
      simp only [found, localOf, startsWithSign_append_cons "[" later semicolon more]
    rw [List.append_assoc, List.append_assoc, List.singleton_append, hstart, hfound, hinside,
      map_prepend_append, List.singleton_append]

/-- In a body the word behind the type is the name of the only variable, but for variables that
statements inside of braces declare. -/
theorem bodyFrom_of_list {list : VariableList} (hwritten : list.IsWritten)
    (h : front.map label = list.labels) :
    ∃ found inner, Declared.ofLocal found = list.head ∧ (list.IsPlain → inner = []) ∧
      ∀ depth more, bodyFrom depth true (front ++ more) =
        (bodyFrom depth true more).map (Prod.map (Body.prepend (found :: inner)) id) := by
  rw [VariableList.labels, VariableList.listed_eq] at h
  cases harray : list.isArray with
  | false =>
    have hlabels : front.map label =
        (flagWords "constant" list.isConstant ++ [list.type, list.first.name]).map .word ++
          (list.behindFirst ++ [.sign ";"]) := by
      rw [h, harray]
      simp [flagWords]
    obtain ⟨later, semicolon, found, inner, hlater, hsemicolon, hfound, hinner, hread⟩ :=
      bodyFrom_of_balanced hwritten.type hwritten.balanced hlabels
    refine ⟨found, inner, ?_, fun hplain => hinner hplain.behindFirst, hread⟩
    rw [hfound, startsWithSign_of_behindFirst hlater hsemicolon, VariableList.head, harray]
    rfl
  | true =>
    -- The word `array` stands in the place of the name
    have hlabels : front.map label =
        (flagWords "constant" list.isConstant ++ [list.type, "array"]).map .word ++
          (.word list.first.name :: list.behindFirst ++ [.sign ";"]) := by
      rw [h, harray]
      simp [flagWords]
    have hbalanced : Balanced [] (.word list.first.name :: list.behindFirst) :=
      .cons (by simp [bracketLabels]) List.not_mem_nil hwritten.balanced
    obtain ⟨later, semicolon, found, inner, hlater, hsemicolon, hfound, hinner, hread⟩ :=
      bodyFrom_of_balanced hwritten.type hbalanced hlabels
    obtain ⟨name, rest, rfl, hname, -⟩ := labels_eq_cons.1 hlater
    refine ⟨found, inner, ?_, fun hplain => hinner ?_, hread⟩
    · rw [hfound, List.cons_append, startsWithSign_of_word hname, VariableList.head, harray]
      rfl
    · exact List.forall_mem_cons.2 ⟨by simp, hplain.behindFirst⟩

/-! ### Everywhere -/

/-- What is collected of a declaration, wherever it stands. -/
structure VariableList.Collects (list : VariableList) (front : List Lexeme) : Prop where
  /-- At the top level there is one global variable for each name. -/
  topLevel : ∀ comments more, ∃ globals,
    topItem comments (front ++ more) = .ok ({ Declarations.none with globals }, more) ∧
      globals.map Declared.ofGlobal = list.declared
  /-- In a library there is one global variable for each name. -/
  inLibrary : ∀ visibility comments more, ∃ globals,
    libraryItem visibility comments (front ++ more) =
        .ok ({ Declarations.none with globals }, more) ∧
      globals.map Declared.ofGlobal = list.declared
  /-- In a struct there is one member for each name. -/
  inStruct : ∀ visibility comments more, ∃ members,
    structItem visibility comments (front ++ more) =
        .ok ({ Declarations.none with members }, more) ∧
      members.map Declared.ofMember = list.declared
  /-- At the start of a body and of every statement in it there is one local variable. More come
  only from statements inside of a size or a value. -/
  inBody : ∃ found inner, Declared.ofLocal found = list.head ∧ (list.IsPlain → inner = []) ∧
    (∀ brace more, brace.token.label = .sign "\x7b" → body (brace :: (front ++ more)) =
      (bodyFrom 0 true more).map (Prod.map (Body.prepend (found :: inner)) id)) ∧
    ∀ depth more, bodyFrom depth true (front ++ more) =
      (bodyFrom depth true more).map (Prod.map (Body.prepend (found :: inner)) id)
  /-- This is the same if and only if there is one name and no word `array`. -/
  agrees_iff : [list.head] = list.declared ↔ list.others = [] ∧ list.isArray = false

/-- A declaration of free names with balanced sizes and values declares one variable for each name,
in their order, with the type, whether it stands at the top level, in a library or in a struct. Each
of them is an array if the word `array` is there or if it has a size. At the start of a statement of
a body it declares one local variable, apart from those that statements inside of its values
declare, and this is the first of the variables only if the word `array` is not there: otherwise the
word is taken for the name. -/
theorem VariableList.collects_of_labels {list : VariableList} (hwritten : list.IsWritten)
    (h : front.map label = list.labels) : list.Collects front where
  topLevel := topItem_of_list hwritten h
  inLibrary := libraryItem_of_list hwritten h
  inStruct := structItem_of_list hwritten h
  inBody := by
    obtain ⟨found, inner, hfound, hinner, hread⟩ := bodyFrom_of_list hwritten h
    refine ⟨found, inner, hfound, hinner, fun brace more hbrace => ?_, hread⟩
    rw [body, sign_of_sign hbrace]
    exact hread 0 more
  agrees_iff := head_eq_declared_iff hwritten

/-- `constant real x[2] = f(1, y), z;` -/
def constantPair : VariableList where
  isConstant := true
  type := "real"
  isArray := false
  first :=
    ⟨"x", some [⟨.number, "2"⟩],
      some [.word "f", .sign "(", ⟨.number, "1"⟩, .sign ",", .word "y", .sign ")"]⟩
  others := [⟨"z", none, none⟩]

/-- The comma of the call stands inside of brackets. -/
theorem isWritten_constantPair : constantPair.IsWritten where
  type := by decide
  declarators := by
    refine List.forall_mem_cons.2 ⟨⟨by decide, ?_, ?_⟩, List.forall_mem_singleton.2
      ⟨by decide, by simp, by simp⟩⟩
    · rintro _ ⟨⟩
      exact .cons (by decide) List.not_mem_nil .nil
    · rintro _ ⟨⟩
      have hcall : Balanced [] [⟨.number, "1"⟩, .sign ",", .word "y"] :=
        .cons (by decide) List.not_mem_nil (.cons (by decide) List.not_mem_nil
          (.cons (by decide) List.not_mem_nil .nil))
      exact .cons (by decide) (by decide) (.group (by decide) hcall .nil)

theorem collects_constantPair :
    constantPair.IsWritten ∧
    (ofTokens (Token.tokenize 0 "constant real x[2] = f(1, y), z;".toList)).map label =
      constantPair.labels ∧
    constantPair.Collects
      (ofTokens (Token.tokenize 0 "constant real x[2] = f(1, y), z;".toList)) := by
  have hlabels : (ofTokens (Token.tokenize 0 "constant real x[2] = f(1, y), z;".toList)).map label =
      constantPair.labels := by
    decide +kernel
  exact ⟨isWritten_constantPair, hlabels,
    VariableList.collects_of_labels isWritten_constantPair hlabels⟩

/-- All variables of a zinc text. -/
def variablesOf (text : String) : Option (List Declared) :=
  (parse (Token.tokenize 0 text.toList)).toOption.map fun program =>
    program.globals.map Declared.ofGlobal ++
      program.libraries.flatMap (·.globals.map Declared.ofGlobal) ++
      program.structs.flatMap (·.members.map Declared.ofMember) ++
      program.structs.flatMap (·.methods.flatMap (·.locals.map Declared.ofLocal)) ++
      program.functions.flatMap (·.locals.map Declared.ofLocal)

/-- The same declarations declare three variables in a container, and two others in a body. -/
theorem variablesOf_differ :
    (∀ text ∈ ["integer array a; real x, y;", "library l \x7b integer array a; real x, y; \x7d",
        "struct s \x7b integer array a; real x, y; \x7d"],
      variablesOf text = some [⟨false, some "integer", true, some "a"⟩,
        ⟨false, some "real", false, some "x"⟩, ⟨false, some "real", false, some "y"⟩]) ∧
    ∀ text ∈ ["function f() \x7b integer array a; real x, y; \x7d",
        "struct s \x7b method m() \x7b integer array a; real x, y; \x7d \x7d"],
      variablesOf text = some [⟨false, some "integer", false, some "array"⟩,
        ⟨false, some "real", false, some "x"⟩] := by
  decide +kernel

end JassOutline.Zinc
