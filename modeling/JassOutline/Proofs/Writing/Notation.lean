import JassOutline.Declaration.Header
import JassOutline.Program
import JassOutline.Proofs.Token.Spelling

/-!
# How declarations are written

For every kind of declaration, the labels of the line that declares it or that opens its block, and
the condition under which the line can say everything there is to say: names and types are present
and are no words that the readers of lines give a meaning to.

## Key results

- `ne_of_isFree`: a free name is none of the reserved words
- `VariableShape.isFree_of_mem_words`, `Parameter.isFree_of_mem_listLabels`: what the words of
  variables and of parameter lists may be
-/

namespace JassOutline

/-! ### Free names -/

/-- The words that decide the role of a line or that the readers of declarations look for. -/
def reservedWords : List String :=
  ["globals", "endglobals", "endfunction", "endmethod", "endstruct", "endlibrary", "local", "type",
    "function", "method", "struct", "library", "library_once", "native",
    "private", "public", "static", "stub", "constant", "readonly", "array",
    "takes", "returns", "nothing", "extends", "initializer", "requires", "needs", "uses",
    "optional"] ++ statementWords

/-- Names without a meaning to the readers of lines. -/
def isFree (text : String) : Bool :=
  isName text && !reservedWords.contains text

theorem isName_of_isFree {text : String} (h : isFree text = true) : isName text = true :=
  (Bool.and_eq_true_iff.1 h).1

theorem ne_of_isFree {text word : String} (h : isFree text = true) (hword : word ∈ reservedWords) :
    text ≠ word := by
  rintro rfl
  simp [isFree, hword] at h

/-! ### Modifiers -/

/-- The words that mark a visibility. -/
def Visibility.words : Visibility → List String
  | unmarked => []
  | hidden => ["private"]
  | exported => ["public"]

/-- The words that mark a binding. -/
def Binding.words : Binding → List String
  | ordinary => []
  | static => ["static"]
  | stub => ["stub"]

/-- The word of a flag, if the flag is set. -/
def flagWords (word : String) (isSet : Bool) : List String :=
  if isSet then [word] else []

/-! ### Parts of a line -/

/-- Items separated by commas. -/
def listed : List (List Label) → List Label
  | [] => []
  | [item] => item
  | item :: rest => item ++ .sign "," :: listed rest

/-- A keyword and the word behind it, if there is one. -/
def clause (keyword : String) : Option String → List Label
  | none => []
  | some text => [.word keyword, .word text]

/-- A keyword and the names behind it, if there are any. -/
def listClause (keyword : String) : List String → List Label
  | [] => []
  | names => .word keyword :: listed (names.map fun name => [.word name])

/-- The label of a name. -/
def nameLabel (name : Option String) : Label := .word (name.getD "")

/-- The words of a parameter: its type and its name. -/
def Parameter.labels (parameter : Parameter) : List Label :=
  [.word parameter.type, nameLabel parameter.name]

/-- A list of parameters. An empty one is written `nothing`. -/
def Parameter.listLabels : List Parameter → List Label
  | [] => [.word "nothing"]
  | parameters => listed (parameters.map labels)

/-- The header of a native, a function or a method:
`MODIFIERS KEYWORD NAME takes PARAMETERS returns TYPE`. -/
def Signature.labels (keyword : String) (signature : Signature) : List Label :=
  signature.modifiers.map .word ++
    [.word keyword, nameLabel signature.name, .word "takes"] ++
      (Parameter.listLabels signature.parameters ++ clause "returns" signature.returns)

theorem Signature.labels_eq (keyword : String) (signature : Signature) :
    signature.labels keyword =
      signature.modifiers.map .word ++ .word keyword :: nameLabel signature.name ::
        .word "takes" ::
          (Parameter.listLabels signature.parameters ++ clause "returns" signature.returns) := by
  simp [labels]

/-- The words of a variable: `TYPE array NAME` or `TYPE NAME`. -/
def VariableShape.words (shape : VariableShape) : List String :=
  shape.type.getD "" :: (flagWords "array" shape.isArray ++ [shape.name.getD ""])

/-! ### Lines -/

/-- The parts of the header of a native. -/
def Native.signature (native : Native) : Signature where
  name := native.name
  parameters := native.parameters
  returns := native.returns
  modifiers := flagWords "constant" native.isConstant

/-- The parts of the header of a function. -/
def Function.signature (function : Function) : Signature where
  name := function.name
  parameters := function.parameters
  returns := function.returns
  modifiers := function.visibility.words ++ flagWords "constant" function.isConstant

/-- The parts of the header of a method. -/
def Method.signature (method : Method) : Signature where
  name := method.name
  parameters := method.parameters
  returns := method.returns
  modifiers := method.visibility.words ++ method.binding.words

/-- `struct NAME extends NAME, NAME` behind a visibility. -/
def Struct.labels (struct : Struct) : List Label :=
  struct.visibility.words.map .word ++
    [.word "struct", nameLabel struct.name] ++ listClause "extends" struct.parents

/-- `library NAME initializer NAME requires NAME, NAME`. -/
def Library.labels (library : Library) : List Label :=
  [.word "library", nameLabel library.name] ++
    (clause "initializer" library.setUp ++ listClause "requires" library.requirements)

/-- `type NAME extends NAME`. -/
def TypeDeclaration.labels (type : TypeDeclaration) : List Label :=
  [.word "type", nameLabel type.name] ++ clause "extends" type.parent

/-- The type and the name of a global variable. -/
def GlobalVariable.shape (v : GlobalVariable) : VariableShape := ⟨v.type, v.isArray, v.name⟩

/-- The type and the name of a local variable. -/
def LocalVariable.shape (v : LocalVariable) : VariableShape := ⟨v.type, v.isArray, v.name⟩

/-- The type and the name of a member. -/
def Member.shape (v : Member) : VariableShape := ⟨v.type, v.isArray, v.name⟩

/-- `private constant TYPE array NAME`. -/
def GlobalVariable.words (v : GlobalVariable) : List String :=
  v.visibility.words ++ (flagWords "constant" v.isConstant ++ v.shape.words)

/-- `local constant TYPE array NAME`. -/
def LocalVariable.words (v : LocalVariable) : List String :=
  "local" :: (flagWords "constant" v.isConstant ++ v.shape.words)

/-- `private static constant readonly TYPE array NAME`. -/
def Member.words (v : Member) : List String :=
  v.visibility.words ++
    (v.binding.words ++
      (flagWords "constant" v.isConstant ++ (flagWords "readonly" v.isReadonly ++ v.shape.words)))

/-! ### What can be written -/

/-- Whether the name and the comments of a declaration can be written. -/
def Heading.isWritable (heading : Heading) : Bool :=
  heading.name.any isFree && heading.comments.all fun comment => isPlainComment comment.text

/-- Whether the parameter can be written with the given names. -/
def Parameter.isWritable (free : String → Bool) (parameter : Parameter) : Bool :=
  free parameter.type && parameter.name.any free

/-- Whether the parts of the header can be written with the given names. A function may return
`nothing`. -/
def Signature.isWritable (free : String → Bool) (signature : Signature) : Bool :=
  signature.name.any free && signature.parameters.all (Parameter.isWritable free) &&
    signature.returns.all fun type => free type || type == "nothing"

/-- Whether the type and the name of a variable can be written with the given names. -/
def VariableShape.isWritable (free : String → Bool) (shape : VariableShape) : Bool :=
  shape.type.any free && shape.name.any free

/-- Whether the line of the native and the comments above it can be written. -/
def Native.isWritable (native : Native) : Bool :=
  native.toHeading.isWritable && native.signature.isWritable isFree

/-- Whether the line of the type and the comments above it can be written. -/
def TypeDeclaration.isWritable (type : TypeDeclaration) : Bool :=
  type.toHeading.isWritable && type.parent.all isFree

/-- Whether the line of the variable and the comments above it can be written. -/
def GlobalVariable.isWritable (v : GlobalVariable) : Bool :=
  v.toHeading.isWritable && v.shape.isWritable isFree

/-- Whether the line of the variable and the comments above it can be written. -/
def LocalVariable.isWritable (v : LocalVariable) : Bool :=
  v.toHeading.isWritable && v.shape.isWritable isFree

/-- Whether the line of the member and the comments above it can be written. -/
def Member.isWritable (v : Member) : Bool :=
  v.toHeading.isWritable && v.shape.isWritable isFree

/-- Whether the function and everything it declares can be written. -/
def Function.isWritable (function : Function) : Bool :=
  function.toHeading.isWritable && function.signature.isWritable isFree &&
    function.globals.all GlobalVariable.isWritable && function.locals.all LocalVariable.isWritable

/-- Whether the method and everything it declares can be written. -/
def Method.isWritable (method : Method) : Bool :=
  method.toHeading.isWritable && method.signature.isWritable isFree &&
    method.globals.all GlobalVariable.isWritable && method.locals.all LocalVariable.isWritable

/-- Whether the struct and everything it declares can be written. -/
def Struct.isWritable (struct : Struct) : Bool :=
  struct.toHeading.isWritable && struct.parents.all isFree &&
    struct.members.all Member.isWritable && struct.methods.all Method.isWritable

/-- Whether the library and everything it declares can be written. -/
def Library.isWritable (library : Library) : Bool :=
  library.toHeading.isWritable && library.setUp.all isFree && library.requirements.all isFree &&
    library.globals.all GlobalVariable.isWritable && library.functions.all Function.isWritable &&
    library.structs.all Struct.isWritable

/-- Whether everything the program declares can be written. -/
def Program.isWritable (program : Program) : Bool :=
  program.natives.all Native.isWritable && program.types.all TypeDeclaration.isWritable &&
    program.globals.all GlobalVariable.isWritable && program.functions.all Function.isWritable &&
    program.structs.all Struct.isWritable && program.libraries.all Library.isWritable

theorem Parameter.isWritable_iff {free : String → Bool} {parameter : Parameter} :
    parameter.isWritable free = true ↔
      free parameter.type = true ∧ ∃ name, parameter.name = some name ∧ free name = true := by
  simp [isWritable, Option.any_eq_true]

theorem Signature.isWritable_iff {free : String → Bool} {signature : Signature} :
    signature.isWritable free = true ↔
      (∃ name, signature.name = some name ∧ free name = true) ∧
        (∀ parameter ∈ signature.parameters, parameter.isWritable free = true) ∧
        ∀ type, signature.returns = some type → free type = true ∨ type = "nothing" := by
  simp only [isWritable, Bool.and_eq_true, Option.any_eq_true, List.all_eq_true, Option.all_eq_true,
    Bool.or_eq_true, beq_iff_eq, and_assoc]

theorem VariableShape.isWritable_iff {free : String → Bool} {shape : VariableShape} :
    shape.isWritable free = true ↔
      ∃ type name, shape = ⟨some type, shape.isArray, some name⟩ ∧ free type = true ∧
        free name = true := by
  obtain ⟨type, isArray, name⟩ := shape
  constructor
  · intro h
    obtain ⟨htype, hname⟩ := Bool.and_eq_true_iff.1 h
    obtain ⟨type, rfl, htype⟩ := (Option.any_eq_true ..).1 htype
    obtain ⟨name, rfl, hname⟩ := (Option.any_eq_true ..).1 hname
    exact ⟨type, name, rfl, htype, hname⟩
  · rintro ⟨type, name, hshape, htype, hname⟩
    rw [hshape]
    simp [isWritable, htype, hname]

/-! ### The words of written lines -/

theorem mem_flagWords {word flag : String} {isSet : Bool} (h : word ∈ flagWords flag isSet) :
    word = flag := by
  cases isSet with
  | false => cases h
  | true => exact List.mem_singleton.1 h

/-- The words of a variable besides `array` are free. -/
theorem VariableShape.isFree_of_mem_words {shape : VariableShape}
    (h : shape.isWritable isFree = true) {word : String} (hword : word ∈ shape.words) :
    word = "array" ∨ isFree word = true := by
  obtain ⟨type, name, hshape, htype, hname⟩ := isWritable_iff.1 h
  rw [hshape] at hword
  rcases List.mem_cons.1 hword with rfl | hword
  · exact .inr htype
  · rcases List.mem_append.1 hword with hword | hword
    · exact .inl (mem_flagWords hword)
    · obtain rfl := List.mem_singleton.1 hword
      exact .inr hname

section

variable {P : Label → Prop}

/-- What holds of commas and of the labels of the items holds of the labels of a list. -/
theorem forall_mem_listed {items : List (List Label)} (hcomma : P (.sign ","))
    (h : ∀ item ∈ items, ∀ l ∈ item, P l) : ∀ l ∈ listed items, P l := by
  induction items with
  | nil => simp [listed]
  | cons item items ih =>
    have hitem : ∀ l ∈ item, P l := h item List.mem_cons_self
    have hrest : ∀ l ∈ listed items, P l := ih fun i hi => h i (List.mem_cons_of_mem _ hi)
    cases items with
    | nil => exact hitem
    | cons next items =>
      exact List.forall_mem_append.2 ⟨hitem, List.forall_mem_cons.2 ⟨hcomma, hrest⟩⟩

/-- What holds of the keyword, of commas and of the names holds of the labels of a clause. -/
theorem forall_mem_listClause {keyword : String} {names : List String}
    (hkeyword : P (.word keyword)) (hcomma : P (.sign ","))
    (hnames : ∀ name ∈ names, P (.word name)) : ∀ l ∈ listClause keyword names, P l := by
  cases names with
  | nil => simp [listClause]
  | cons name names =>
    refine List.forall_mem_cons.2 ⟨hkeyword, forall_mem_listed hcomma ?_⟩
    intro item hitem l hl
    obtain ⟨found, hfound, rfl⟩ := List.mem_map.1 hitem
    obtain rfl := List.mem_singleton.1 hl
    exact hnames found hfound

end

/-- A list says no word besides those of its items. -/
theorem exists_of_mem_listed {word : String} {items : List (List Label)}
    (h : .word word ∈ listed items) : ∃ item ∈ items, .word word ∈ item := by
  let P (l : Label) : Prop := l = .word word → ∃ item ∈ items, .word word ∈ item
  have hall : ∀ l ∈ listed items, P l :=
    forall_mem_listed (by simp [P]) fun item hitem l hl heq => ⟨item, hitem, heq ▸ hl⟩
  exact hall _ h rfl

/-- The words of a list of parameters besides `nothing` are free. -/
theorem Parameter.isFree_of_mem_listLabels {parameters : List Parameter}
    (h : ∀ parameter ∈ parameters, parameter.isWritable isFree = true) {word : String}
    (hword : .word word ∈ listLabels parameters) : word = "nothing" ∨ isFree word = true := by
  cases parameters with
  | nil => exact .inl (by simpa [listLabels] using hword)
  | cons parameter parameters =>
    obtain ⟨item, hitem, hword⟩ := exists_of_mem_listed hword
    obtain ⟨parameter, hmem, rfl⟩ := List.mem_map.1 hitem
    obtain ⟨htype, name, hname, hfree⟩ := isWritable_iff.1 (h parameter hmem)
    simp only [labels, nameLabel, hname, Option.getD_some, List.mem_cons, Label.word_inj,
      List.not_mem_nil, or_false] at hword
    rcases hword with rfl | rfl
    · exact .inr htype
    · exact .inr hfree

/-- A clause with a list of names says its keyword and the names. -/
theorem mem_listClause {word keyword : String} {names : List String}
    (h : .word word ∈ listClause keyword names) : word = keyword ∨ word ∈ names := by
  let P (l : Label) : Prop := ∀ w, l = .word w → w = keyword ∨ w ∈ names
  have hnames : ∀ name ∈ names, P (.word name) := by
    rintro name hname w heq
    exact .inr (Label.word_inj.1 heq ▸ hname)
  have hall : ∀ l ∈ listClause keyword names, P l :=
    forall_mem_listClause (by simp [P, eq_comm]) (by simp [P]) hnames
  exact hall _ h word rfl

/-- A clause with one name says its keyword and the name. -/
theorem mem_clause {word keyword : String} {text? : Option String}
    (h : .word word ∈ clause keyword text?) : word = keyword ∨ text? = some word := by
  cases text? with
  | none => cases h
  | some text =>
    simp only [clause, List.mem_cons, Label.word_inj, List.not_mem_nil, or_false] at h
    exact h.imp_right fun h => by rw [h]

/-- The name of a declaration is no reserved word. -/
theorem ne_nameLabel {word : String} {name? : Option String} (h : name?.any isFree = true)
    (hword : word ∈ reservedWords) : .word word ≠ nameLabel name? := by
  obtain ⟨name, rfl, hname⟩ := (Option.any_eq_true ..).1 h
  exact fun heq => ne_of_isFree hname hword (Label.word_inj.1 heq).symm

end JassOutline
