import JassOutline.Program.Declarations

/-!
# Declarations with other comments

The maps `mapComments` change the comments of a declaration and of all declarations inside it, and
keep everything else. With the function that forgets its argument, they leave what a text declares
apart from its comments.

## Key results

- `Declarations.mapComments_append`: collections are changed part by part
- `Declarations.mapComments_id`: comments that are not changed change nothing
-/

namespace JassOutline

variable (f : List CommentLine → List CommentLine)

/-- The heading with changed comments. -/
def Heading.mapComments (heading : Heading) : Heading :=
  { heading with comments := f heading.comments }

/-- The global variable with changed comments. -/
def GlobalVariable.mapComments (v : GlobalVariable) : GlobalVariable :=
  { v with toHeading := v.toHeading.mapComments f }

/-- The local variable with changed comments. -/
def LocalVariable.mapComments (v : LocalVariable) : LocalVariable :=
  { v with toHeading := v.toHeading.mapComments f }

/-- The member with changed comments. -/
def Member.mapComments (member : Member) : Member :=
  { member with toHeading := member.toHeading.mapComments f }

/-- The native with changed comments. -/
def Native.mapComments (native : Native) : Native :=
  { native with toHeading := native.toHeading.mapComments f }

/-- The type with changed comments. -/
def TypeDeclaration.mapComments (type : TypeDeclaration) : TypeDeclaration :=
  { type with toHeading := type.toHeading.mapComments f }

/-- The function with changed comments, its own and those inside it. -/
def Function.mapComments (function : Function) : Function :=
  { function with
    toHeading := function.toHeading.mapComments f
    locals := function.locals.map (LocalVariable.mapComments f)
    globals := function.globals.map (GlobalVariable.mapComments f) }

/-- The method with changed comments, its own and those inside it. -/
def Method.mapComments (method : Method) : Method :=
  { method with
    toHeading := method.toHeading.mapComments f
    locals := method.locals.map (LocalVariable.mapComments f)
    globals := method.globals.map (GlobalVariable.mapComments f) }

/-- The struct with changed comments, its own and those inside it. -/
def Struct.mapComments (struct : Struct) : Struct :=
  { struct with
    toHeading := struct.toHeading.mapComments f
    members := struct.members.map (Member.mapComments f)
    methods := struct.methods.map (Method.mapComments f) }

/-- The library with changed comments, its own and those inside it. -/
def Library.mapComments (library : Library) : Library :=
  { library with
    toHeading := library.toHeading.mapComments f
    globals := library.globals.map (GlobalVariable.mapComments f)
    functions := library.functions.map (Function.mapComments f)
    structs := library.structs.map (Struct.mapComments f) }

/-- The declarations with changed comments. -/
def Declarations.mapComments (declared : Declarations) : Declarations where
  natives := declared.natives.map (Native.mapComments f)
  types := declared.types.map (TypeDeclaration.mapComments f)
  globals := declared.globals.map (GlobalVariable.mapComments f)
  functions := declared.functions.map (Function.mapComments f)
  structs := declared.structs.map (Struct.mapComments f)
  libraries := declared.libraries.map (Library.mapComments f)
  members := declared.members.map (Member.mapComments f)
  methods := declared.methods.map (Method.mapComments f)
  locals := declared.locals.map (LocalVariable.mapComments f)

/-- The program with changed comments. -/
def Program.mapComments (program : Program) : Program where
  natives := program.natives.map (Native.mapComments f)
  functions := program.functions.map (Function.mapComments f)
  globals := program.globals.map (GlobalVariable.mapComments f)
  structs := program.structs.map (Struct.mapComments f)
  libraries := program.libraries.map (Library.mapComments f)
  types := program.types.map (TypeDeclaration.mapComments f)
  source := program.source

/-- The program without its comments. -/
def Program.withoutComments (program : Program) : Program :=
  program.mapComments fun _ => []

namespace Declarations

@[simp] theorem mapComments_none : mapComments f .none = .none := rfl

theorem mapComments_append (a b : Declarations) :
    (a ++ b).mapComments f = a.mapComments f ++ b.mapComments f := by
  change mapComments f (append a b) = append (mapComments f a) (mapComments f b)
  simp [append, mapComments]

theorem mapComments_ofDeclarations (source : Nat) (declared : Declarations) :
    (Program.ofDeclarations source declared).mapComments f =
      Program.ofDeclarations source (declared.mapComments f) := rfl

end Declarations

/-! ### Comments that are not changed -/

theorem GlobalVariable.mapComments_id : GlobalVariable.mapComments id = id := rfl

theorem LocalVariable.mapComments_id : LocalVariable.mapComments id = id := rfl

theorem Member.mapComments_id : Member.mapComments id = id := rfl

theorem Native.mapComments_id : Native.mapComments id = id := rfl

theorem TypeDeclaration.mapComments_id : TypeDeclaration.mapComments id = id := rfl

theorem Function.mapComments_id : Function.mapComments id = id := by
  funext function
  simp [mapComments, LocalVariable.mapComments_id, GlobalVariable.mapComments_id,
    Heading.mapComments]

theorem Method.mapComments_id : Method.mapComments id = id := by
  funext method
  simp [mapComments, LocalVariable.mapComments_id, GlobalVariable.mapComments_id,
    Heading.mapComments]

theorem Struct.mapComments_id : Struct.mapComments id = id := by
  funext struct
  simp [mapComments, Member.mapComments_id, Method.mapComments_id, Heading.mapComments]

theorem Library.mapComments_id : Library.mapComments id = id := by
  funext library
  simp [mapComments, GlobalVariable.mapComments_id, Function.mapComments_id,
    Struct.mapComments_id, Heading.mapComments]

theorem Declarations.mapComments_id : Declarations.mapComments id = id := by
  funext declared
  simp [mapComments, Native.mapComments_id, TypeDeclaration.mapComments_id,
    GlobalVariable.mapComments_id, Function.mapComments_id, Struct.mapComments_id,
    Library.mapComments_id, Member.mapComments_id, Method.mapComments_id,
    LocalVariable.mapComments_id]

end JassOutline
