import JassOutline.Declaration.Header
import JassOutline.Outline.Block
import JassOutline.Program.Declarations

/-!
# From outlines to programs

`Program.ofOutline` walks the tree of a text. What a line or block declares depends on the scope
it stands in: each scope admits some roles of lines and some kinds of blocks. Comment lines are
kept until the next node: a declaration takes them, and anything else drops them.
-/

namespace JassOutline

/-- What a part of a tree may declare. -/
inductive Scope where
  /-- Natives, types, globals blocks, functions, structs and libraries. -/
  | program
  /-- Globals blocks, functions and structs. -/
  | library
  /-- Members and methods. -/
  | struct
  /-- Local variables and globals blocks. -/
  | body
  /-- Global variables. -/
  | globals
  deriving DecidableEq, Repr

namespace Scope

/-- Whether blocks of the kind declare something in the scope. -/
def admits : Scope → BlockKind → Bool
  | program, .globals | program, .function | program, .struct | program, .library => true
  | library, .globals | library, .function | library, .struct => true
  | struct, .method => true
  | body, .globals => true
  | _, _ => false

/-- The scope inside of a block of the kind. -/
def inside : BlockKind → Scope
  | .globals => globals
  | .function | .method => body
  | .struct => struct
  | .library => library

end Scope

namespace Declarations

/-- What a line of the given role declares in a scope. -/
def ofLine (scope : Scope) (role : LineRole) (comments : List CommentLine)
    (record : SourceLine) : Declarations :=
  match scope, role with
  | .program, .native => { none with natives := [{ Native.ofLine record with comments }] }
  | .program, .typeDeclaration =>
    { none with types := [{ TypeDeclaration.ofLine record with comments }] }
  | .body, .localVariable => { none with locals := [{ LocalVariable.ofLine record with comments }] }
  | .struct, .other | .struct, .localVariable =>
    if isMemberLine record then { none with members := [{ Member.ofLine record with comments }] }
    else none
  | .globals, .other | .globals, .typeDeclaration | .globals, .localVariable =>
    if isGlobalLine record then
      { none with globals := [{ GlobalVariable.ofLine record with comments }] }
    else none
  | _, _ => none

/-- What a block with the given header and the given declarations inside declares. -/
def ofBlock (kind : BlockKind) (region : Region) (header? : Option SourceLine)
    (comments : List CommentLine) (inner : Declarations) : Declarations :=
  match kind with
  | .globals => { none with globals := inner.globals }
  | .function =>
    let header := header?.elim (Function.ofRegion region) (Function.ofHeader · region)
    { none with
      functions := [{ header with comments, locals := inner.locals, globals := inner.globals }] }
  | .method =>
    let header := header?.elim (Method.ofRegion region) (Method.ofHeader · region)
    { none with
      methods := [{ header with comments, locals := inner.locals, globals := inner.globals }] }
  | .struct =>
    let header := header?.elim (Struct.ofRegion region) (Struct.ofHeader · region)
    { none with
      structs := [{ header with comments, members := inner.members, methods := inner.methods }] }
  | .library =>
    let header := header?.elim (Library.ofRegion region) (Library.ofHeader · region)
    { none with
      libraries := [{ header with
        comments, globals := inner.globals, functions := inner.functions
        structs := inner.structs }] }

/-- What the nodes declare in a scope, below the given comment lines. If the nodes are the
children of a block that keeps its header, a line in front is that header and declares nothing. -/
def ofNodes (scope : Scope) (atHeader : Bool) (comments : List CommentLine) :
    List Node → Declarations
  | [] => none
  | .line record :: rest =>
    if atHeader then ofNodes scope false [] rest
    else
      match LineRole.ofLine record with
      | .comment => ofNodes scope false (comments ++ [.ofLine record]) rest
      -- Any other line uses the comments up, whether it declares something or not
      | role => ofLine scope role comments record ++ ofNodes scope false [] rest
  | .block kind region isClosed children :: rest =>
    if scope.admits kind then
      ofBlock kind region (Block.header? ⟨kind, region, isClosed, children⟩) comments
          (ofNodes (.inside kind) kind.hasHeader [] children) ++
        ofNodes scope false [] rest
    else ofNodes scope false [] rest
termination_by nodes => sizeOf nodes
decreasing_by
  all_goals
    simp only [List.cons.sizeOf_spec, Node.block.sizeOf_spec]
    omega

end Declarations

/-- The program that an outline declares. -/
def Program.ofOutline (source : Nat) (outline : Outline) : Program :=
  .ofDeclarations source (Declarations.ofNodes .program false [] outline.nodes)

end JassOutline
