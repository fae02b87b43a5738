import JassOutline.Proofs.Writing.Notation
import JassOutline.Proofs.Zinc.Mark

/-!
# How zinc declarations are written

For every kind of declaration the labels it is written with, and the relation between rows of marks
and the declarations that they write. Items may be grouped into nested sections or say their
visibility themselves, as long as this comes to the visibility that they have.

## Key results

- `ne_of_isFree`: a free name is none of the reserved words
-/

namespace JassOutline.Zinc

/-! ### Free names -/

/-- The words that the grammar looks for. -/
def reservedWords : List String :=
  libraryWords ++ skippedWords ++ statementKeywords ++
    ["struct", "extends", "requires", "needs", "uses", "public", "private", "stub", "constant",
      "array", "operator", "nothing"]

/-- Names without a meaning to the grammar. -/
def isFree (text : String) : Bool := !reservedWords.contains text

theorem ne_of_isFree {text word : String} (h : isFree text = true) (hword : word ∈ reservedWords) :
    text ≠ word := by
  rintro rfl
  simp [isFree, hword] at h

/-! ### Labels -/

/-- The type that a routine returns, behind an arrow. -/
def resultLabels : Option String → List Label
  | none => []
  | some type => [.sign "->", .word type]

/-- `KEYWORD NAME(TYPE NAME, TYPE NAME) -> TYPE {`. -/
def routineLabels (keyword : String) (name : List Label) (signature : Signature) : List Label :=
  .word keyword :: (name ++ .sign "(" ::
    (listed (signature.parameters.map Parameter.labels) ++
      .sign ")" :: (resultLabels signature.returns ++ [.sign "\x7b"])))

/-- `constant TYPE array NAME;`. -/
def variableLabels (isConstant : Bool) (shape : VariableShape) : List Label :=
  (flagWords "constant" isConstant ++ shape.words).map .word ++ [.sign ";"]

/-- The size of an array behind its name. -/
def sizeLabels (isArray : Bool) (size : List Label) : List Label :=
  if isArray then .sign "[" :: size ++ [.sign "]"] else []

/-- `constant TYPE NAME[SIZE];`. -/
def localLabels (v : LocalVariable) (size : List Label) : List Label :=
  (flagWords "constant" v.isConstant ++ [v.type.getD "", v.name.getD ""]).map .word ++
    (sizeLabels v.isArray size ++ [.sign ";"])

/-- `struct NAME extends NAME, NAME {`. -/
def structLabels (struct : Struct) : List Label :=
  .word "struct" :: nameLabel struct.name ::
    (listClause "extends" struct.parents ++ [.sign "\x7b"])

/-- `library NAME requires NAME, NAME {`. -/
def libraryLabels (library : Library) : List Label :=
  .word "library" :: nameLabel library.name ::
    (listClause "requires" library.requirements ++ [.sign "\x7b"])

/-- The brace behind a body or behind the items of a container. -/
def closing : Mark := .plain (.sign "\x7d")

/-! ### The relation -/

/-- Under a section of the first visibility, the words give the second one. -/
inductive Shows (outer : Visibility) : Visibility → List String → Prop where
  | inherited : Shows outer outer []
  | own {visibility : Visibility} {word : String} :
    Visibility.ofWord? word = some visibility → Shows outer visibility [word]

/-- Labels that may stand in the size of an array: no braces, no semicolon and no comment. -/
def IsSize (size : List Label) : Prop :=
  ∀ l ∈ size, l ∉ [.sign "\x7b", .sign "\x7d", .sign ";"] ∧ l.kind ≠ .comment

/-- The labels name a method: a single word, or the word `operator` and labels whose texts make up
the name. -/
inductive IsMethodName : String → List Label → Prop where
  | word {name : String} : IsMethodName name [.word name]
  | operator {labels : List Label} :
    (∀ l ∈ labels, l ≠ .sign "(" ∧ l.kind ≠ .comment) →
    IsMethodName (String.join (labels.map Label.text)) (.word "operator" :: labels)

/-- The marks are a body that declares the local variables. -/
inductive BodyWrites : List Mark → List LocalVariable → Prop where
  | nil : BodyWrites [] []
  | cons {v : LocalVariable} {size : List Label} {rest : List Mark} {locals : List LocalVariable} :
    v.shape.isWritable isFree = true → IsSize size → BodyWrites rest locals →
    BodyWrites (Mark.below v.comments (localLabels v size) ++ rest) (v :: locals)

/-- In a section of the visibility, the marks are an item of a struct. -/
inductive StructItemWrites (outer : Visibility) : List Mark → Declarations → Prop where
  | member {v : Member} {words : List String} :
    Shows outer v.visibility words → v.shape.isWritable isFree = true → v.isReadonly = false →
    StructItemWrites outer
      (Mark.below v.comments
        ((words ++ v.binding.words).map .word ++ variableLabels v.isConstant v.shape))
      { Declarations.none with members := [v] }
  | method {method : Method} {words : List String} {text : String} {name : List Label}
      {body : List Mark} :
    Shows outer method.visibility words → method.signature.isWritable isFree = true →
    method.name = some text → IsMethodName text name → method.globals = [] →
    BodyWrites body method.locals →
    StructItemWrites outer
      (Mark.below method.comments
          ((words ++ method.binding.words).map .word ++
            routineLabels "method" name method.signature) ++
        body ++ [closing])
      { Declarations.none with methods := [method] }

/-- In a section of the visibility, the marks are items of a container, some of them grouped into
sections inside. -/
inductive ItemsWrite (item : Visibility → List Mark → Declarations → Prop) :
    Visibility → List Mark → Declarations → Prop where
  | nil {outer : Visibility} : ItemsWrite item outer [] .none
  | item {outer : Visibility} {marks rest : List Mark} {declared more : Declarations} :
    item outer marks declared → ItemsWrite item outer rest more →
    ItemsWrite item outer (marks ++ rest) (declared ++ more)
  | group {outer inner : Visibility} {word : String} {marks rest : List Mark}
      {declared more : Declarations} :
    Visibility.ofWord? word = some inner → ItemsWrite item inner marks declared →
    ItemsWrite item outer rest more →
    ItemsWrite item outer
      (.plain (.word word) :: .plain (.sign "\x7b") :: marks ++ closing :: rest)
      (declared ++ more)

/-- In a section of the visibility, the marks are an item other than a library. -/
inductive PlainItemWrites (outer : Visibility) : List Mark → Declarations → Prop where
  | globalVariable {v : GlobalVariable} {words : List String} :
    Shows outer v.visibility words → v.shape.isWritable isFree = true →
    PlainItemWrites outer
      (Mark.below v.comments (words.map .word ++ variableLabels v.isConstant v.shape))
      { Declarations.none with globals := [v] }
  | function {function : Function} {words : List String} {body : List Mark} :
    Shows outer function.visibility words → function.signature.isWritable isFree = true →
    function.isConstant = false → function.globals = [] → BodyWrites body function.locals →
    PlainItemWrites outer
      (Mark.below function.comments
          (words.map .word ++
            routineLabels "function" [nameLabel function.name] function.signature) ++
        body ++ [closing])
      { Declarations.none with functions := [function] }
  | struct {struct : Struct} {words : List String} {inside : List Mark} :
    Shows outer struct.visibility words → struct.name.any isFree = true →
    struct.parents.all isFree = true →
    ItemsWrite StructItemWrites .unmarked inside
      { Declarations.none with members := struct.members, methods := struct.methods } →
    PlainItemWrites outer
      (Mark.below struct.comments (words.map .word ++ structLabels struct) ++ inside ++ [closing])
      { Declarations.none with structs := [struct] }

/-- The marks are a whole program. The items of a library are private unless they say otherwise,
and it is set up by its function `onInit`, if it has one. -/
inductive Writes : List Mark → Declarations → Prop where
  | nil : Writes [] .none
  | item {marks rest : List Mark} {declared more : Declarations} :
    PlainItemWrites .unmarked marks declared → Writes rest more →
    Writes (marks ++ rest) (declared ++ more)
  | library {library : Library} {inside rest : List Mark} {more : Declarations} :
    library.name.any isFree = true → library.requirements.all isFree = true →
    library.setUp = setUpOf library.functions →
    ItemsWrite PlainItemWrites .hidden inside
      { Declarations.none with
        globals := library.globals, functions := library.functions, structs := library.structs } →
    Writes rest more →
    Writes (Mark.below library.comments (libraryLabels library) ++ inside ++ closing :: rest)
      ({ Declarations.none with libraries := [library] } ++ more)

end JassOutline.Zinc
