import JassOutline.Declaration

/-!
# Programs

A `Program` holds the declarations of a source text, each collection in the order of the text.
Functions, variables and structs also live inside libraries: the functions `all…` list them all,
`…Named` look one up by name, and `functionAt` and `methodAt` find what surrounds a position.

Bridge lemmas: `mem_named` says what a look-up by name holds, and `narrowest?_isSome` when there is
anything around a position.
-/

namespace JassOutline

/-- The declarations of a source text. -/
structure Program where
  natives : List Native
  functions : List Function
  globals : List GlobalVariable
  structs : List Struct
  libraries : List Library
  types : List TypeDeclaration
  /-- The number that the caller gave the source. -/
  source : Nat
  deriving DecidableEq, Repr, Inhabited

namespace Program

/-- The program of a text without declarations. -/
def empty (source : Nat) : Program := ⟨[], [], [], [], [], [], source⟩

/-- Whether nothing is declared. -/
def isEmpty (program : Program) : Bool :=
  program.natives.isEmpty && program.functions.isEmpty && program.globals.isEmpty
    && program.structs.isEmpty && program.libraries.isEmpty && program.types.isEmpty

/-- The declarations of one program followed by those of another. -/
def merge (program other : Program) : Program where
  natives := program.natives ++ other.natives
  functions := program.functions ++ other.functions
  globals := program.globals ++ other.globals
  structs := program.structs ++ other.structs
  libraries := program.libraries ++ other.libraries
  types := program.types ++ other.types
  source := program.source

/-! ### Everything declared, at any depth -/

/-- The functions outside of libraries, then those inside. -/
def allFunctions (program : Program) : List Function :=
  program.functions ++ program.libraries.flatMap Library.functions

/-- The global variables outside of libraries, then those inside, then those of function
bodies. -/
def allGlobals (program : Program) : List GlobalVariable :=
  program.globals ++ program.libraries.flatMap Library.globals
    ++ program.allFunctions.flatMap Function.globals

/-- The structs outside of libraries, then those inside. -/
def allStructs (program : Program) : List Struct :=
  program.structs ++ program.libraries.flatMap Library.structs

/-- The methods of all structs. -/
def allMethods (program : Program) : List Method :=
  program.allStructs.flatMap Struct.methods

/-- The members of all structs. -/
def allMembers (program : Program) : List Member :=
  program.allStructs.flatMap Struct.members

/-! ### Look-up by name -/

/-- The declarations with the name. -/
def named (heading : α → Heading) (name : String) (declarations : List α) : List α :=
  declarations.filter fun declaration => (heading declaration).name == some name

theorem mem_named {heading : α → Heading} {name : String} {declarations : List α}
    {declaration : α} :
    declaration ∈ named heading name declarations ↔
      declaration ∈ declarations ∧ (heading declaration).name = some name := by
  simp [named]

/-- The natives with the name. -/
def nativesNamed (program : Program) (name : String) : List Native :=
  named Native.toHeading name program.natives

/-- The functions with the name. -/
def functionsNamed (program : Program) (name : String) : List Function :=
  named Function.toHeading name program.allFunctions

/-- The global variables with the name. -/
def globalsNamed (program : Program) (name : String) : List GlobalVariable :=
  named GlobalVariable.toHeading name program.allGlobals

/-- The structs with the name. -/
def structsNamed (program : Program) (name : String) : List Struct :=
  named Struct.toHeading name program.allStructs

/-- The libraries with the name. -/
def librariesNamed (program : Program) (name : String) : List Library :=
  named Library.toHeading name program.libraries

/-- The methods with the name. -/
def methodsNamed (program : Program) (name : String) : List Method :=
  named Method.toHeading name program.allMethods

/-- The members with the name. -/
def membersNamed (program : Program) (name : String) : List Member :=
  named Member.toHeading name program.allMembers

/-- The types with the name. -/
def typesNamed (program : Program) (name : String) : List TypeDeclaration :=
  named TypeDeclaration.toHeading name program.types

/-! ### Look-up by position -/

/-- Whether a region crosses fewer line ends than another, or as many and starts no later. -/
def noWider (a b : Region) : Bool :=
  a.lineCount < b.lineCount || (a.lineCount == b.lineCount && a.start ≤ b.start)

/-- The first of the declarations that cross the fewest line ends and then start first. -/
def narrowest? (heading : α → Heading) : List α → Option α
  | [] => none
  | declaration :: rest =>
    match narrowest? heading rest with
    | none => some declaration
    | some other =>
      if noWider (heading declaration).region (heading other).region then some declaration
      else some other

theorem narrowest?_isSome (heading : α → Heading) (declarations : List α) :
    (narrowest? heading declarations).isSome = !declarations.isEmpty := by
  cases declarations with
  | nil => rfl
  | cons declaration rest =>
    simp only [narrowest?]
    split
    · rfl
    · split <;> rfl

/-- The narrowest of the declarations around a position. -/
def around? (heading : α → Heading) (p : Position) (declarations : List α) : Option α :=
  narrowest? heading (declarations.filter fun declaration =>
    (heading declaration).region.contains p)

/-- The innermost function around a position. -/
def functionAt (program : Program) (p : Position) : Option Function :=
  around? Function.toHeading p program.allFunctions

/-- The innermost method around a position. -/
def methodAt (program : Program) (p : Position) : Option Method :=
  around? Method.toHeading p program.allMethods

end Program

end JassOutline
