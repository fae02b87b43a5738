import JassOutline.Declaration.Header
import JassOutline.Program.Declarations

/-!
# Declarations without their places

The map `bare` forgets where a declaration, its comments and its parameters lie in the text, and
keeps everything else. Two declarations are the same up to their places if their bare forms are.

## Key results

- `Declarations.bare_append`: collections are bared part by part
- `Declarations.related_flatMap`: a relation with rows, from single items to lists of items
-/

namespace JassOutline

/-- The comment without its place. -/
def CommentLine.bare (comment : CommentLine) : CommentLine :=
  { comment with region := .empty }

/-- The parameter without its place. -/
def Parameter.bare (parameter : Parameter) : Parameter :=
  { parameter with region := .empty }

/-- The signature without places. -/
def Signature.bare (signature : Signature) : Signature :=
  { signature with parameters := signature.parameters.map Parameter.bare }

/-- The heading without places. -/
def Heading.bare (heading : Heading) : Heading :=
  { heading with comments := heading.comments.map CommentLine.bare, region := .empty }

/-- The global variable without places. -/
def GlobalVariable.bare (v : GlobalVariable) : GlobalVariable :=
  { v with toHeading := v.toHeading.bare }

/-- The local variable without places. -/
def LocalVariable.bare (v : LocalVariable) : LocalVariable :=
  { v with toHeading := v.toHeading.bare }

/-- The member without places. -/
def Member.bare (member : Member) : Member :=
  { member with toHeading := member.toHeading.bare }

/-- The native without places. -/
def Native.bare (native : Native) : Native :=
  { native with
    toHeading := native.toHeading.bare
    parameters := native.parameters.map Parameter.bare }

/-- The function without places. -/
def Function.bare (function : Function) : Function :=
  { function with
    toHeading := function.toHeading.bare
    parameters := function.parameters.map Parameter.bare
    locals := function.locals.map LocalVariable.bare
    globals := function.globals.map GlobalVariable.bare }

/-- The method without places. -/
def Method.bare (method : Method) : Method :=
  { method with
    toHeading := method.toHeading.bare
    parameters := method.parameters.map Parameter.bare
    locals := method.locals.map LocalVariable.bare
    globals := method.globals.map GlobalVariable.bare }

/-- The struct without places. -/
def Struct.bare (struct : Struct) : Struct :=
  { struct with
    toHeading := struct.toHeading.bare
    members := struct.members.map Member.bare
    methods := struct.methods.map Method.bare }

/-- The library without places. -/
def Library.bare (library : Library) : Library :=
  { library with
    toHeading := library.toHeading.bare
    globals := library.globals.map GlobalVariable.bare
    functions := library.functions.map Function.bare
    structs := library.structs.map Struct.bare }

/-- The type without places. -/
def TypeDeclaration.bare (type : TypeDeclaration) : TypeDeclaration :=
  { type with toHeading := type.toHeading.bare }

/-- The declarations without places. -/
def Declarations.bare (declared : Declarations) : Declarations where
  natives := declared.natives.map Native.bare
  types := declared.types.map TypeDeclaration.bare
  globals := declared.globals.map GlobalVariable.bare
  functions := declared.functions.map Function.bare
  structs := declared.structs.map Struct.bare
  libraries := declared.libraries.map Library.bare
  members := declared.members.map Member.bare
  methods := declared.methods.map Method.bare
  locals := declared.locals.map LocalVariable.bare

/-- The program without places. -/
def Program.bare (program : Program) : Program where
  natives := program.natives.map Native.bare
  functions := program.functions.map Function.bare
  globals := program.globals.map GlobalVariable.bare
  structs := program.structs.map Struct.bare
  libraries := program.libraries.map Library.bare
  types := program.types.map TypeDeclaration.bare
  source := program.source

/-- The declarations of a program as a collection. -/
def Program.declarations (program : Program) : Declarations :=
  { Declarations.none with
    natives := program.natives
    types := program.types
    globals := program.globals
    functions := program.functions
    structs := program.structs
    libraries := program.libraries }

namespace Declarations

theorem append_eq (a b : Declarations) :
    a ++ b =
      ⟨a.natives ++ b.natives, a.types ++ b.types, a.globals ++ b.globals,
        a.functions ++ b.functions, a.structs ++ b.structs, a.libraries ++ b.libraries,
        a.members ++ b.members, a.methods ++ b.methods, a.locals ++ b.locals⟩ := rfl

theorem bare_append (a b : Declarations) : (a ++ b).bare = a.bare ++ b.bare := by
  simp [append_eq, bare]

theorem bare_ofDeclarations (source : Nat) (declared : Declarations) :
    (Program.ofDeclarations source declared).bare =
      Program.ofDeclarations source declared.bare := rfl

/-- What rows tell of single items they tell of a list of items, if rows can be joined. -/
theorem related_flatMap {α β : Type} {R : List β → Declarations → Prop} (hnone : R [] .none)
    (happend : ∀ {row rest declared more}, R row declared → R rest more →
      R (row ++ rest) (declared ++ more))
    {items : List α} {rows : α → List β} (declare : List α → Declarations)
    (hnil : declare [] = .none)
    (hcons : ∀ item items, declare (item :: items) = declare [item] ++ declare items)
    (h : ∀ item ∈ items, R (rows item) (declare [item])) :
    R (items.flatMap rows) (declare items) := by
  induction items with
  | nil =>
    rw [hnil]
    exact hnone
  | cons item items ih =>
    rw [hcons, List.flatMap_cons]
    exact happend (h item List.mem_cons_self) (ih fun i hi => h i (List.mem_cons_of_mem _ hi))

end Declarations

end JassOutline
