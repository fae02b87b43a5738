import JassOutline.Position

/-!
# Declarations

What a source text declares: natives, types, global variables, functions, structs with their
members and methods, and libraries. Every declaration has a name, which the text may leave out,
the comment lines above it and the region it takes: these are its `Heading`.
-/

namespace JassOutline

/-- Where a declaration may be used. -/
inductive Visibility where
  /-- The declaration does not say. -/
  | unmarked
  /-- The declaration is marked `private`. -/
  | hidden
  /-- The declaration is marked `public`. -/
  | exported
  deriving DecidableEq, Repr, Inhabited

/-- The visibility that a word stands for. -/
def Visibility.ofWord? (word : String) : Option Visibility :=
  match word with
  | "private" => some .hidden
  | "public" => some .exported
  | _ => none

/-- The words that modify a declaration. -/
inductive Modifier where
  | constant
  | static
  | stub
  deriving DecidableEq, Repr, Inhabited

/-- The modifier that a word stands for. -/
def Modifier.ofWord? (word : String) : Option Modifier :=
  match word with
  | "constant" => some .constant
  | "static" => some .static
  | "stub" => some .stub
  | _ => none

/-- How a member or method belongs to its struct. -/
inductive Binding where
  | ordinary
  | static
  | stub
  deriving DecidableEq, Repr, Inhabited

/-- The binding that a modifier gives a member or method. -/
def Modifier.binding? : Modifier → Option Binding
  | constant => none
  | static => some .static
  | stub => some .stub

/-- A line comment with its slashes. -/
structure CommentLine where
  text : String
  region : Region
  deriving DecidableEq, Repr, Inhabited

/-- A parameter of a native, function or method. -/
structure Parameter where
  type : String
  name : Option String
  region : Region
  deriving DecidableEq, Repr, Inhabited

/-- The parameter as it is written. -/
def Parameter.display (parameter : Parameter) : String :=
  match parameter.name with
  | some name => s!"{parameter.type} {name}"
  | none => parameter.type

/-- What every declaration has. -/
structure Heading where
  name : Option String
  /-- The comment lines directly above the declaration. -/
  comments : List CommentLine
  region : Region
  deriving DecidableEq, Repr, Inhabited

/-- A variable of a `globals` block. -/
structure GlobalVariable extends Heading where
  visibility : Visibility
  isConstant : Bool
  type : Option String
  isArray : Bool
  deriving DecidableEq, Repr, Inhabited

/-- A variable of a function or method. -/
structure LocalVariable extends Heading where
  isConstant : Bool
  type : Option String
  isArray : Bool
  deriving DecidableEq, Repr, Inhabited

/-- A variable of a struct. -/
structure Member extends Heading where
  visibility : Visibility
  binding : Binding
  isConstant : Bool
  isReadonly : Bool
  type : Option String
  isArray : Bool
  deriving DecidableEq, Repr, Inhabited

/-- A function without a body in the source text. -/
structure Native extends Heading where
  isConstant : Bool
  parameters : List Parameter
  returns : Option String
  deriving DecidableEq, Repr, Inhabited

/-- A function with what its body declares. -/
structure Function extends Heading where
  visibility : Visibility
  isConstant : Bool
  parameters : List Parameter
  returns : Option String
  locals : List LocalVariable
  /-- The variables of `globals` blocks inside the body. -/
  globals : List GlobalVariable
  deriving DecidableEq, Repr, Inhabited

/-- A method of a struct with what its body declares. -/
structure Method extends Heading where
  visibility : Visibility
  binding : Binding
  parameters : List Parameter
  returns : Option String
  locals : List LocalVariable
  /-- The variables of `globals` blocks inside the body. -/
  globals : List GlobalVariable
  deriving DecidableEq, Repr, Inhabited

/-- A struct with its members and methods. -/
structure Struct extends Heading where
  visibility : Visibility
  /-- The names of the parents. -/
  parents : List String
  members : List Member
  methods : List Method
  deriving DecidableEq, Repr, Inhabited

/-- A library with what it declares. -/
structure Library extends Heading where
  /-- The function that sets the library up. -/
  setUp : Option String
  /-- The names of the libraries it needs. -/
  requirements : List String
  globals : List GlobalVariable
  functions : List Function
  structs : List Struct
  deriving DecidableEq, Repr, Inhabited

/-- A type that extends another one. -/
structure TypeDeclaration extends Heading where
  parent : Option String
  deriving DecidableEq, Repr, Inhabited

end JassOutline
