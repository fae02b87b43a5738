import JassOutline.Proofs.Declaration.Nodes
import Mathlib.Data.List.Perm.Basic

/-!
# Where global variables are stored

A program stores global variables at six depths: outside of everything, in a function or in a method
of a struct, and the same three again inside a library. `storedGlobals` goes through all of them,
declaration by declaration. A look-up by name goes through all but the bodies of methods. What is
stored where is settled by the blocks of the outline: `globalsUnder` follows a path of block kinds.

## Key results

- `Program.allGlobals_append_perm`: what is found and what is not, together
- `Program.methodGlobals_ofOutline`: what is not found, read off the outline
-/

namespace JassOutline

/-! ### Storage -/

/-- The global variables in the bodies of the methods of a struct. -/
def Struct.methodGlobals (struct : Struct) : List GlobalVariable :=
  struct.methods.flatMap Method.globals

/-- All global variables that a library stores. -/
def Library.storedGlobals (library : Library) : List GlobalVariable :=
  library.globals ++ library.functions.flatMap Function.globals ++
    library.structs.flatMap Struct.methodGlobals

namespace Program

/-- All global variables that a program stores. -/
def storedGlobals (program : Program) : List GlobalVariable :=
  program.globals ++ program.functions.flatMap Function.globals ++
    program.structs.flatMap Struct.methodGlobals ++
    program.libraries.flatMap Library.storedGlobals

/-- The global variables in the bodies of methods. -/
def methodGlobals (program : Program) : List GlobalVariable :=
  program.allStructs.flatMap Struct.methodGlobals

/-- A look-up goes through what is stored outside of methods. -/
theorem allGlobals_append_perm (program : Program) :
    (program.allGlobals ++ program.methodGlobals).Perm program.storedGlobals := by
  -- What is listed library by library is listed depth by depth
  have hlibraries : (program.libraries.flatMap Library.globals ++
      program.libraries.flatMap (·.functions.flatMap Function.globals) ++
      program.libraries.flatMap (·.structs.flatMap Struct.methodGlobals)).Perm
        (program.libraries.flatMap Library.storedGlobals) :=
    ((List.flatMap_append_perm ..).append_right _).trans (List.flatMap_append_perm ..)
  rw [List.perm_iff_count] at hlibraries ⊢
  intro v
  have hcount := hlibraries v
  simp only [allGlobals, methodGlobals, storedGlobals, allFunctions, allStructs,
    List.flatMap_append, List.flatMap_assoc, List.count_append] at hcount ⊢
  omega

theorem globalsNamed_append_perm (program : Program) (name : String) :
    (program.globalsNamed name ++
      named GlobalVariable.toHeading name program.methodGlobals).Perm
        (named GlobalVariable.toHeading name program.storedGlobals) := by
  rw [globalsNamed, named, named, ← List.filter_append]
  exact program.allGlobals_append_perm.filter _

/-- A look-up finds all that is stored under a name if no method stores anything under it. -/
theorem globalsNamed_perm_iff (program : Program) (name : String) :
    (program.globalsNamed name).Perm (named GlobalVariable.toHeading name program.storedGlobals) ↔
      ∀ v ∈ program.methodGlobals, v.name ≠ some name := by
  have hperm := program.globalsNamed_append_perm name
  have hnone : named GlobalVariable.toHeading name program.methodGlobals = [] ↔
      ∀ v ∈ program.methodGlobals, v.name ≠ some name := by
    simp [named]
  rw [← hnone]
  constructor
  · -- What is found is all there is, so nothing is left for the methods
    intro hall
    have hlength := hperm.length_eq
    rw [List.length_append, hall.length_eq] at hlength
    exact List.length_eq_zero_iff.1 (by omega)
  · intro hnil
    rwa [hnil, List.append_nil] at hperm

/-- A program that stores nothing in methods does not add to what others store there. -/
theorem methodGlobals_merge {program other : Program} (h : other.methodGlobals = []) :
    (program.merge other).methodGlobals = program.methodGlobals := by
  simp only [methodGlobals, allStructs, merge, List.flatMap_append, List.append_eq_nil_iff] at h ⊢
  rw [h.1, h.2, List.append_nil, List.append_nil]

end Program

/-! ### Paths of blocks -/

/-- What the blocks of the kind among the nodes hold, block by block. -/
def Node.inside (kind : BlockKind) : List Node → List (List Node)
  | [] => []
  | .line _ :: rest => inside kind rest
  | .block own _ _ children :: rest =>
    if own = kind then children :: inside kind rest else inside kind rest

/-- The global variables that the nodes at the end of the path of blocks declare. -/
def Node.globalsUnder : List BlockKind → List Node → List GlobalVariable
  | [], nodes => (Declarations.ofNodes .globals false [] nodes).globals
  | kind :: path, nodes => (inside kind nodes).flatMap (globalsUnder path)

namespace Declarations

/-- Variables that only blocks of one kind have are those at the end of the paths that start with
such a block. -/
theorem ofNodes_eq_globalsUnder (kind : BlockKind) {path : List BlockKind} {scope : Scope}
    (found inner : Declarations → List GlobalVariable)
    (hnone : found none = []) (happend : ∀ a b, found (a ++ b) = found a ++ found b)
    (hline : ∀ role comments record, found (ofLine scope role comments record) = [])
    (hblock : ∀ own region header? comments declared,
      found (ofBlock own region header? comments declared) =
        if own = kind then inner declared else [])
    (hinner : ∀ children, inner (ofNodes (.inside kind) kind.hasHeader [] children) =
      Node.globalsUnder path children)
    (atHeader : Bool) (comments : List CommentLine) (nodes : List Node) :
    found (ofNodes scope atHeader comments nodes) =
      if scope.admits kind then Node.globalsUnder (kind :: path) nodes else [] := by
  rw [Node.globalsUnder]
  induction nodes generalizing atHeader comments with
  | nil => simp [ofNodes, hnone, Node.inside]
  | cons node rest ih =>
    cases node with
    | line record =>
      -- A line declares none of them, as a header, as a comment or in its role
      rw [ofNodes, Node.inside]
      split
      · exact ih _ _
      · split
        · exact ih _ _
        · rw [happend, hline, List.nil_append, ih]
    | block own region isClosed children =>
      rw [ofNodes, Node.inside]
      by_cases hown : own = kind
      · -- A block of the kind counts where the scope admits it
        subst hown
        by_cases hadmits : scope.admits own = true <;>
          simp [hadmits, happend, hblock, hinner, ih]
      · -- Any other block is passed by, declaring nothing or not being admitted
        by_cases hadmits : scope.admits own = true <;> simp [hadmits, hown, happend, hblock, ih]

/-- Outside of globals blocks, no line declares a global variable. -/
theorem globals_ofLine {scope : Scope} (hscope : scope ≠ .globals) (role : LineRole)
    (comments : List CommentLine) (record : SourceLine) :
    (ofLine scope role comments record).globals = [] := by
  cases scope <;> cases role <;> simp [ofLine, none] at hscope ⊢
  all_goals split <;> rfl

section

variable (scope : Scope) (atHeader : Bool) (comments : List CommentLine) (nodes : List Node)

theorem globals_ofNodes (hscope : scope ≠ .globals) :
    (ofNodes scope atHeader comments nodes).globals =
      if scope.admits .globals then Node.globalsUnder [.globals] nodes else [] :=
  ofNodes_eq_globalsUnder .globals globals globals rfl (fun _ _ => rfl) (globals_ofLine hscope)
    (fun own _ _ _ _ => by cases own <;> rfl) (fun _ => rfl) atHeader comments nodes

theorem methodGlobals_ofNodes :
    (ofNodes scope atHeader comments nodes).methods.flatMap Method.globals =
      if scope.admits .method then Node.globalsUnder [.method, .globals] nodes else [] :=
  ofNodes_eq_globalsUnder .method (·.methods.flatMap Method.globals) globals rfl
    (fun _ _ => List.flatMap_append)
    (fun role given record => by rw [(blocks_ofLine scope role given record).2.1]; rfl)
    (fun own _ _ _ _ => by cases own <;> simp [ofBlock, none])
    (fun children => globals_ofNodes .body true [] children (by decide)) atHeader comments nodes

theorem structGlobals_ofNodes :
    (ofNodes scope atHeader comments nodes).structs.flatMap Struct.methodGlobals =
      if scope.admits .struct then Node.globalsUnder [.struct, .method, .globals] nodes else [] :=
  ofNodes_eq_globalsUnder .struct (·.structs.flatMap Struct.methodGlobals)
    (·.methods.flatMap Method.globals) rfl (fun _ _ => List.flatMap_append)
    (fun role given record => by rw [(blocks_ofLine scope role given record).2.2.1]; rfl)
    (fun own _ _ _ _ => by cases own <;> simp [ofBlock, none, Struct.methodGlobals])
    (fun children => methodGlobals_ofNodes .struct true [] children) atHeader comments nodes

/-- The libraries of a text store what stands on the paths through library blocks. -/
theorem libraryGlobals_ofNodes :
    (ofNodes scope atHeader comments nodes).libraries.flatMap
        (·.structs.flatMap Struct.methodGlobals) =
      if scope.admits .library then
        Node.globalsUnder [.library, .struct, .method, .globals] nodes
      else [] :=
  ofNodes_eq_globalsUnder .library (·.libraries.flatMap (·.structs.flatMap Struct.methodGlobals))
    (·.structs.flatMap Struct.methodGlobals) rfl (fun _ _ => List.flatMap_append)
    (fun role given record => by rw [(blocks_ofLine scope role given record).2.2.2]; rfl)
    (fun own _ _ _ _ => by cases own <;> simp [ofBlock, none])
    (fun children => structGlobals_ofNodes .library true [] children) atHeader comments nodes

end

end Declarations

namespace Program

/-- The variables of methods are those of the globals blocks in methods. -/
theorem methodGlobals_ofOutline (source : Nat) (outline : Outline) :
    (ofOutline source outline).methodGlobals =
      Node.globalsUnder [.struct, .method, .globals] outline.nodes ++
        Node.globalsUnder [.library, .struct, .method, .globals] outline.nodes := by
  rw [methodGlobals, allStructs, List.flatMap_append, List.flatMap_assoc]
  congr 1
  · exact Declarations.structGlobals_ofNodes .program false [] outline.nodes
  · exact Declarations.libraryGlobals_ofNodes .program false [] outline.nodes

end Program

end JassOutline
