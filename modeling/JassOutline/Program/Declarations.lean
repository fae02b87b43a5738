import JassOutline.Program

/-!
# Collections of declarations

`Declarations` holds declarations of every kind, those of libraries and of structs included. What
is read part by part is collected in it, and `Program.ofDeclarations` keeps what a whole text may
declare.
-/

namespace JassOutline

/-- Declarations of every kind. -/
structure Declarations where
  natives : List Native
  types : List TypeDeclaration
  globals : List GlobalVariable
  functions : List Function
  structs : List Struct
  libraries : List Library
  members : List Member
  methods : List Method
  locals : List LocalVariable
  deriving DecidableEq, Repr, Inhabited

namespace Declarations

/-- No declarations. -/
def none : Declarations := ⟨[], [], [], [], [], [], [], [], []⟩

/-- One collection of declarations followed by another. -/
def append (a b : Declarations) : Declarations where
  natives := a.natives ++ b.natives
  types := a.types ++ b.types
  globals := a.globals ++ b.globals
  functions := a.functions ++ b.functions
  structs := a.structs ++ b.structs
  libraries := a.libraries ++ b.libraries
  members := a.members ++ b.members
  methods := a.methods ++ b.methods
  locals := a.locals ++ b.locals

instance : Append Declarations := ⟨append⟩

@[simp] theorem none_append (a : Declarations) : none ++ a = a := rfl

@[simp] theorem append_none (a : Declarations) : a ++ none = a := by
  change append a none = a
  simp [append, none]

theorem append_assoc (a b c : Declarations) : a ++ b ++ c = a ++ (b ++ c) := by
  change append (append a b) c = append a (append b c)
  simp [append]

end Declarations

/-- The program with the declarations of a whole text. -/
def Program.ofDeclarations (source : Nat) (declared : Declarations) : Program where
  natives := declared.natives
  functions := declared.functions
  globals := declared.globals
  structs := declared.structs
  libraries := declared.libraries
  types := declared.types
  source

end JassOutline
