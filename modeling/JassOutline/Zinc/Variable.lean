import JassOutline.Zinc.Skip

/-!
# Variables of the zinc dialect

One declaration declares several variables of one type: `constant TYPE array NAME[SIZE] = VALUE,
NAME;`. Sizes and values are skipped.

Bridge lemma: `consumes_variableDeclaration`.
-/

namespace JassOutline.Zinc

/-- What the variables of one declaration share. -/
structure VariableType where
  isConstant : Bool
  /-- The token that names the type. -/
  type : Token
  /-- Whether the word `array` follows the type. -/
  isArray : Bool
  deriving DecidableEq, Repr

/-- A declared variable. -/
structure Variable where
  isConstant : Bool
  type : String
  isArray : Bool
  name : String
  /-- From the type to the name. -/
  region : Region
  deriving DecidableEq, Repr

namespace Variable

/-- The variable of a shared type with the given name. -/
def ofName (shared : VariableType) (name : Token) (hasSize : Bool) : Variable where
  isConstant := shared.isConstant
  type := shared.type.text
  isArray := shared.isArray || hasSize
  name := name.text
  region := ⟨shared.type.start, name.stop⟩

/-- The variable as a global variable. -/
def toGlobal (v : Variable) (visibility : Visibility) (comments : List CommentLine) :
    GlobalVariable :=
  { name := some v.name, comments, region := v.region, visibility, isConstant := v.isConstant
    type := some v.type, isArray := v.isArray }

/-- The variable as a member of a struct. -/
def toMember (v : Variable) (visibility : Visibility) (binding : Binding)
    (comments : List CommentLine) : Member :=
  { name := some v.name, comments, region := v.region, visibility, binding
    isConstant := v.isConstant, isReadonly := false, type := some v.type, isArray := v.isArray }

/-- Makes declarations of variables. The first one takes the comments. -/
def declare (make : Variable → List CommentLine → α) (comments : List CommentLine) :
    List Variable → List α
  | [] => []
  | first :: others => make first comments :: others.map (make · [])

end Variable

/-- Reads a name with its size and its value. -/
def variableNamed (shared : VariableType) (lexemes : List Lexeme) :
    Except ZincError (Variable × List Lexeme) := do
  let (name, rest) ← identifier .variableName lexemes
  let (hasSize, rest) ← skipSize rest
  let (_, rest) ← skipValue rest
  .ok (.ofName shared name hasSize, rest)

theorem consumes_variableNamed (shared : VariableType) : Consumes (variableNamed shared) := by
  intro lexemes
  refine Leaves.bind (consumes_identifier _ _) fun _ _ hname => ?_
  refine Leaves.bind (leaves_skipSize _) fun _ _ hsize => ?_
  refine Leaves.bind (leaves_skipValue _) fun _ _ hvalue => .ok ?_
  omega

/-- Reads what the variables of a declaration share. -/
def variableType (lexemes : List Lexeme) : Except ZincError (VariableType × List Lexeme) := do
  let constant := acceptKeyword ["constant"] lexemes
  let (type, rest) ← identifier .typeName constant.2
  let array := acceptKeyword ["array"] rest
  .ok (⟨constant.1, type, array.1⟩, array.2)

theorem consumes_variableType : Consumes variableType := by
  intro lexemes
  refine Leaves.bind (consumes_identifier _ _) fun _ rest htype => .ok ?_
  have hconstant := length_acceptKeyword_le ["constant"] lexemes
  have harray := length_acceptKeyword_le ["array"] rest
  exact Nat.lt_of_le_of_lt harray (Nat.lt_of_lt_of_le htype hconstant)

/-- Reads a declaration of variables. -/
def variableDeclaration (lexemes : List Lexeme) :
    Except ZincError (List Variable × List Lexeme) := do
  let (shared, rest) ← variableType lexemes
  let (declared, rest) ← commaSeparated (variableNamed shared) (consumes_variableNamed shared) rest
  let (_, rest) ← sign ";" rest
  .ok (declared, rest)

theorem consumes_variableDeclaration : Consumes variableDeclaration := by
  intro lexemes
  refine Leaves.bind (consumes_variableType _) fun shared _ htype => ?_
  refine Leaves.bind (consumes_commaSeparated (consumes_variableNamed shared) _) fun _ _ hnames =>
    ?_
  refine Leaves.bind (consumes_sign _ _) fun _ _ hsign => .ok ?_
  omega

end JassOutline.Zinc
