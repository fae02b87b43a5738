import JassOutline.Proofs.Declaration.Nodes
import JassOutline.Proofs.List
import Mathlib.Data.List.DropRight

/-!
# What each node declares

`Declarations.ofNodes` goes through the nodes with the comments that wait for a declaration. Seen
from a single node, what it declares depends on the node itself, on the scope and on the run of
comment lines that ends in front of it. `Node.sites` lists the nodes with these runs, `declaredAt`
says what stands at a site, and the declarations of nodes are those of their sites.

## Key results

- `Declarations.ofNodes_eq`: what nodes declare, site by site
- `Declarations.declaredAt_block`: a block is one declaration
-/

namespace JassOutline

/-- A declaration of any kind. -/
inductive Declaration where
  | native (native : Native)
  | type (type : TypeDeclaration)
  | global (v : GlobalVariable)
  | function (function : Function)
  | struct (struct : Struct)
  | library (library : Library)
  | member (member : Member)
  | method (method : Method)
  | localVariable (v : LocalVariable)
  deriving DecidableEq, Repr

namespace Declaration

/-- The name, the comments and the region. -/
def heading : Declaration → Heading
  | .native d => d.toHeading
  | .type d => d.toHeading
  | .global d => d.toHeading
  | .function d => d.toHeading
  | .struct d => d.toHeading
  | .library d => d.toHeading
  | .member d => d.toHeading
  | .method d => d.toHeading
  | .localVariable d => d.toHeading

/-- What the declaration holds. -/
def inner : Declaration → Declarations
  | .function d => { Declarations.none with locals := d.locals, globals := d.globals }
  | .method d => { Declarations.none with locals := d.locals, globals := d.globals }
  | .struct d => { Declarations.none with members := d.members, methods := d.methods }
  | .library d =>
    { Declarations.none with globals := d.globals, functions := d.functions, structs := d.structs }
  | _ => .none

/-- The collection of this declaration alone. -/
def alone : Declaration → Declarations
  | .native d => { Declarations.none with natives := [d] }
  | .type d => { Declarations.none with types := [d] }
  | .global d => { Declarations.none with globals := [d] }
  | .function d => { Declarations.none with functions := [d] }
  | .struct d => { Declarations.none with structs := [d] }
  | .library d => { Declarations.none with libraries := [d] }
  | .member d => { Declarations.none with members := [d] }
  | .method d => { Declarations.none with methods := [d] }
  | .localVariable d => { Declarations.none with locals := [d] }

end Declaration

/-- Each of the declarations is put into the collection of its kind. -/
def Declarations.ofList (declarations : List Declaration) : Declarations :=
  declarations.foldr (fun declaration rest => declaration.alone ++ rest) .none

/-! ### Sites -/

namespace Node

/-- The comment of a comment line. -/
def comment? : Node → Option CommentLine
  | .line record => if LineRole.ofLine record = .comment then some (.ofLine record) else none
  | .block .. => none

/-- The comments of the longest run of comment lines at the end of the nodes. -/
def lastComments (nodes : List Node) : List CommentLine :=
  (nodes.rtakeWhile fun node => node.comment?.isSome).filterMap comment?

/-- A node with the comments directly in front of it. -/
structure Site where
  comments : List CommentLine
  node : Node

/-- The nodes, each with the run of comment lines that ends in front of it. -/
def sites (nodes : List Node) : List Site :=
  (nodes.inits.zip nodes).map fun pair => ⟨lastComments pair.1, pair.2⟩

end Node

/-- Whether the line declares something in the scope. -/
def Scope.admitsLine (scope : Scope) (record : SourceLine) : Bool :=
  match scope, LineRole.ofLine record with
  | .program, .native | .program, .typeDeclaration => true
  | .body, .localVariable => true
  | .struct, .other | .struct, .localVariable => isMemberLine record
  | .globals, .other | .globals, .typeDeclaration | .globals, .localVariable => isGlobalLine record
  | _, _ => false

namespace Declaration

/-- The declaration of a line that the scope admits. -/
def ofLine (scope : Scope) (comments : List CommentLine) (record : SourceLine) : Declaration :=
  match scope with
  | .program =>
    if LineRole.ofLine record = .native then .native { Native.ofLine record with comments }
    else .type { TypeDeclaration.ofLine record with comments }
  | .struct => .member { Member.ofLine record with comments }
  | .body => .localVariable { LocalVariable.ofLine record with comments }
  | .globals | .library => .global { GlobalVariable.ofLine record with comments }

/-- What a line declares in the scope. -/
def declaredByLine (scope : Scope) (comments : List CommentLine) (record : SourceLine) :
    List Declaration :=
  if scope.admitsLine record then [ofLine scope comments record] else []

/-- What the lines among the sites declare in the scope. Blocks are passed over. -/
def declaredByLines (scope : Scope) (sites : List Node.Site) : List Declaration :=
  sites.flatMap fun
    | ⟨comments, .line record⟩ => declaredByLine scope comments record
    | ⟨_, .block ..⟩ => []

/-- What a block declares. The lines of a globals block declare variables one by one, and any other
block is one declaration with all that its body declares. -/
def declaredByBlock (comments : List CommentLine) (b : Block) : List Declaration :=
  let inner := Declarations.ofNodes (.inside b.kind) false [] b.body
  match b.kind with
  | .globals => declaredByLines .globals (Node.sites b.body)
  | .function =>
    let header := b.header?.elim (Function.ofRegion b.region) (Function.ofHeader · b.region)
    [.function { header with comments, locals := inner.locals, globals := inner.globals }]
  | .method =>
    let header := b.header?.elim (Method.ofRegion b.region) (Method.ofHeader · b.region)
    [.method { header with comments, locals := inner.locals, globals := inner.globals }]
  | .struct =>
    let header := b.header?.elim (Struct.ofRegion b.region) (Struct.ofHeader · b.region)
    [.struct { header with comments, members := inner.members, methods := inner.methods }]
  | .library =>
    let header := b.header?.elim (Library.ofRegion b.region) (Library.ofHeader · b.region)
    [.library { header with
      comments, globals := inner.globals, functions := inner.functions
      structs := inner.structs }]

/-- What the node at the site declares in the scope. -/
def declaredAt (scope : Scope) : Node.Site → List Declaration
  | ⟨comments, .line record⟩ => declaredByLine scope comments record
  | ⟨comments, .block kind region isClosed children⟩ =>
    if scope.admits kind then declaredByBlock comments ⟨kind, region, isClosed, children⟩ else []

end Declaration

/-! ### What a scope collects -/

/-- Whether declarations of this kind are collected in the scope. -/
def Scope.collects : Scope → Declaration → Bool
  | .program, .native _ | .program, .type _ | .program, .global _ | .program, .function _ => true
  | .program, .struct _ | .program, .library _ => true
  | .library, .global _ | .library, .function _ | .library, .struct _ => true
  | .struct, .member _ | .struct, .method _ => true
  | .body, .localVariable _ | .body, .global _ => true
  | .globals, .global _ => true
  | _, _ => false

/-- The declarations without those that are not collected in the scope. -/
def Declarations.restrict (scope : Scope) (declared : Declarations) : Declarations :=
  match scope with
  | .program => { declared with members := [], methods := [], locals := [] }
  | .library =>
    { none with
      globals := declared.globals, functions := declared.functions, structs := declared.structs }
  | .struct => { none with members := declared.members, methods := declared.methods }
  | .body => { none with locals := declared.locals, globals := declared.globals }
  | .globals => { none with globals := declared.globals }

namespace Node

variable {record : SourceLine} {nodes : List Node}

theorem comment?_line (h : LineRole.ofLine record = .comment) :
    comment? (.line record) = some (.ofLine record) :=
  if_pos h

theorem comment?_line_eq_none (h : LineRole.ofLine record ≠ .comment) :
    comment? (.line record) = none :=
  if_neg h

/-- One more comment line makes the run longer. -/
theorem lastComments_append_comment (h : LineRole.ofLine record = .comment) :
    lastComments (nodes ++ [.line record]) = lastComments nodes ++ [.ofLine record] := by
  rw [lastComments, List.rtakeWhile_concat_pos _ _ _ (by rw [comment?_line h]; rfl),
    List.filterMap_append, List.filterMap_cons, comment?_line h]
  rfl

/-- Any other node ends the run. -/
theorem lastComments_append_other {node : Node} (h : node.comment? = none) :
    lastComments (nodes ++ [node]) = [] := by
  rw [lastComments, List.rtakeWhile_concat_neg _ _ _ (by rw [h]; simp), List.filterMap_nil]

/-- The sites of nodes that stand behind others. -/
def sitesBehind (before nodes : List Node) : List Site :=
  (nodes.inits.zip nodes).map fun pair => ⟨lastComments (before ++ pair.1), pair.2⟩

theorem sitesBehind_cons (before : List Node) (node : Node) (rest : List Node) :
    sitesBehind before (node :: rest) =
      ⟨lastComments before, node⟩ :: sitesBehind (before ++ [node]) rest := by
  simp only [sitesBehind, zip_inits_cons, List.map_cons, List.map_map, Function.comp_def, Prod.map,
    id, List.append_assoc, List.append_nil, List.singleton_append]

end Node

namespace Declarations

open Declaration Node

variable {scope : Scope} {comments : List CommentLine} {record : SourceLine}

theorem ofList_append (a b : List Declaration) : ofList (a ++ b) = ofList a ++ ofList b := by
  induction a with
  | nil => rfl
  | cons declaration rest ih =>
    show declaration.alone ++ ofList (rest ++ b) = declaration.alone ++ ofList rest ++ ofList b
    rw [ih, append_assoc]

theorem ofList_singleton (declaration : Declaration) : ofList [declaration] = declaration.alone :=
  append_none _

theorem memberLine_eq (h : Scope.struct.admitsLine record = isMemberLine record) :
    (if isMemberLine record then { none with members := [{ Member.ofLine record with comments }] }
      else none) = ofList (declaredByLine .struct comments record) := by
  rw [declaredByLine, h]
  split <;> rfl

theorem globalLine_eq (h : Scope.globals.admitsLine record = isGlobalLine record) :
    (if isGlobalLine record then
        { none with globals := [{ GlobalVariable.ofLine record with comments }] }
      else none) = ofList (declaredByLine .globals comments record) := by
  rw [declaredByLine, h]
  split <;> rfl

theorem eq_global_of_collects {declaration : Declaration}
    (h : Scope.globals.collects declaration = true) : ∃ v, declaration = .global v := by
  cases declaration with
  | global v => exact ⟨v, rfl⟩
  | _ => cases h

theorem restrict_append (scope : Scope) (a b : Declarations) :
    (a ++ b).restrict scope = a.restrict scope ++ b.restrict scope := by
  cases scope <;> rfl

theorem restrict_alone {declaration : Declaration} (h : scope.collects declaration = true) :
    declaration.alone.restrict scope = declaration.alone := by
  cases scope <;> cases declaration <;> first | rfl | cases h

theorem restrict_ofList {declarations : List Declaration}
    (h : ∀ declaration ∈ declarations, scope.collects declaration = true) :
    (ofList declarations).restrict scope = ofList declarations := by
  induction declarations with
  | nil => cases scope <;> rfl
  | cons declaration rest ih =>
    obtain ⟨hdeclaration, hrest⟩ := List.forall_mem_cons.1 h
    show (declaration.alone ++ ofList rest).restrict scope = declaration.alone ++ ofList rest
    rw [restrict_append, restrict_alone hdeclaration, ih hrest]

/-! ### Lines -/

/-- A scope collects what the lines that it admits declare. -/
theorem collects_of_mem_declaredByLine {declaration : Declaration}
    (h : declaration ∈ declaredByLine scope comments record) :
    scope.collects declaration = true := by
  unfold declaredByLine at h
  split at h
  · next hadmits =>
    obtain rfl := List.mem_singleton.1 h
    cases scope with
    | program => rw [Declaration.ofLine]; split <;> rfl
    | library => simp [Scope.admitsLine] at hadmits
    | struct => rfl
    | body => rfl
    | globals => rfl
  · cases h

theorem collects_of_mem_declaredByLines {declaration : Declaration} {sites : List Site}
    (h : declaration ∈ declaredByLines scope sites) : scope.collects declaration = true := by
  obtain ⟨⟨comments, node⟩, -, hmem⟩ := List.mem_flatMap.1 h
  cases node with
  | line record => exact collects_of_mem_declaredByLine hmem
  | block => cases hmem

/-- A line declares what it does at its site. -/
theorem ofLine_eq (scope : Scope) (comments : List CommentLine) (record : SourceLine) :
    ofLine scope (LineRole.ofLine record) comments record =
      ofList (declaredByLine scope comments record) := by
  unfold Declarations.ofLine
  split
  · next hrole =>
    simp [declaredByLine, Scope.admitsLine, hrole, Declaration.ofLine, ofList_singleton, alone]
  · next hrole =>
    simp [declaredByLine, Scope.admitsLine, hrole, Declaration.ofLine, ofList_singleton, alone]
  · next hrole =>
    simp [declaredByLine, Scope.admitsLine, hrole, Declaration.ofLine, ofList_singleton, alone]
  -- A line may declare a member or a global variable whatever its first word says
  · next hrole => exact memberLine_eq (by simp [Scope.admitsLine, hrole])
  · next hrole => exact memberLine_eq (by simp [Scope.admitsLine, hrole])
  · next hrole => exact globalLine_eq (by simp [Scope.admitsLine, hrole])
  · next hrole => exact globalLine_eq (by simp [Scope.admitsLine, hrole])
  · next hrole => exact globalLine_eq (by simp [Scope.admitsLine, hrole])
  · rw [declaredByLine, if_neg]
    · rfl
    · unfold Scope.admitsLine
      split <;> simp_all

/-! ### Blocks -/

/-- What a block holds besides its header is what it declares. -/
theorem ofNodes_body (kind : BlockKind) (region : Region) (isClosed : Bool) (children : List Node) :
    ofNodes (.inside kind) kind.hasHeader [] children =
      ofNodes (.inside kind) false [] (Block.body ⟨kind, region, isClosed, children⟩) := by
  cases hheader : kind.hasHeader with
  | false => simp [Block.body, Block.header?, hheader]
  | true =>
    -- The header is passed over, unless a block stands in its place
    cases children with
    | nil => simp [Block.body, Block.header?, hheader, ofNodes]
    | cons first rest =>
      cases first with
      | line record => simp [Block.body, Block.header?, hheader, ofNodes]
      | block => simp [Block.body, Block.header?, hheader, ofNodes]

/-- What nodes declare site by site, if each block that is admitted declares what it does at its
site. -/
theorem ofNodes_sitesBehind (scope : Scope)
    (hblock : ∀ kind region isClosed children comments, scope.admits kind = true →
      ofBlock kind region (Block.header? ⟨kind, region, isClosed, children⟩) comments
        (ofNodes (.inside kind) kind.hasHeader [] children) =
        ofList (declaredByBlock comments ⟨kind, region, isClosed, children⟩))
    (before nodes : List Node) :
    ofNodes scope false (lastComments before) nodes =
      ofList ((sitesBehind before nodes).flatMap (declaredAt scope)) := by
  induction nodes generalizing before with
  | nil => rw [ofNodes]; rfl
  | cons node rest ih =>
    rw [sitesBehind_cons, List.flatMap_cons, ofList_append, ← ih]
    cases node with
    | line record =>
      by_cases hrole : LineRole.ofLine record = .comment
      · have hnone : ofLine scope .comment (lastComments before) record = none := by
          cases scope <;> rfl
        rw [ofNodes_comment hrole, lastComments_append_comment hrole, declaredAt, ← ofLine_eq,
          hrole, hnone, none_append]
      · rw [ofNodes_line rfl hrole, lastComments_append_other (comment?_line_eq_none hrole),
          declaredAt, ofLine_eq]
    | block kind region isClosed children =>
      rw [ofNodes, lastComments_append_other rfl, declaredAt]
      split
      · next hadmits => rw [hblock _ _ _ _ _ hadmits]
      · rfl

/-- Among global variables only lines declare something. -/
theorem flatMap_declaredAt_globals (nodes : List Node) :
    (sites nodes).flatMap (declaredAt .globals) = declaredByLines .globals (sites nodes) := by
  refine List.flatMap_congr fun ⟨comments, node⟩ _ => ?_
  cases node with
  | line record => rfl
  | block kind region isClosed children => cases kind <;> rfl

/-- What a globals block declares. -/
theorem ofNodes_globals (nodes : List Node) :
    ofNodes .globals false [] nodes = ofList (declaredByLines .globals (sites nodes)) := by
  rw [← flatMap_declaredAt_globals]
  exact ofNodes_sitesBehind .globals (by rintro ⟨⟩ <;> simp [Scope.admits]) [] nodes

/-- What a block declares is what it does at its site. -/
theorem ofBlock_eq (comments : List CommentLine) (kind : BlockKind) (region : Region)
    (isClosed : Bool) (children : List Node) :
    ofBlock kind region (Block.header? ⟨kind, region, isClosed, children⟩) comments
      (ofNodes (.inside kind) kind.hasHeader [] children) =
      ofList (declaredByBlock comments ⟨kind, region, isClosed, children⟩) := by
  rw [ofNodes_body kind region isClosed children]
  cases kind with
  | globals =>
    -- The lines of the block declare global variables and nothing else
    have hglobals := ofNodes_globals (Block.body ⟨.globals, region, isClosed, children⟩)
    have honly := restrict_ofList fun declaration =>
      @collects_of_mem_declaredByLines .globals declaration
        (sites (Block.body ⟨.globals, region, isClosed, children⟩))
    rw [← hglobals] at honly
    exact honly.trans hglobals
  | function | method | struct | library => rfl

/-- What nodes declare, site by site. -/
theorem ofNodes_eq (scope : Scope) (nodes : List Node) :
    ofNodes scope false [] nodes = ofList ((sites nodes).flatMap (declaredAt scope)) :=
  ofNodes_sitesBehind scope (fun kind region isClosed children comments _ =>
    ofBlock_eq comments kind region isClosed children) [] nodes

/-- A scope collects what the blocks that it admits declare. -/
theorem collects_of_mem_declaredByBlock {declaration : Declaration} {b : Block}
    (hadmits : scope.admits b.kind = true) (h : declaration ∈ declaredByBlock comments b) :
    scope.collects declaration = true := by
  obtain ⟨kind, region, isClosed, children⟩ := b
  cases kind with
  | globals =>
    obtain ⟨v, rfl⟩ := eq_global_of_collects (collects_of_mem_declaredByLines h)
    cases scope <;> first | rfl | cases hadmits
  | function | method | struct | library =>
    obtain rfl := List.mem_singleton.1 h
    cases scope <;> first | rfl | cases hadmits

/-- A scope collects what the nodes that it admits declare. -/
theorem collects_of_mem_declaredAt {declaration : Declaration} {site : Site}
    (h : declaration ∈ declaredAt scope site) : scope.collects declaration = true := by
  obtain ⟨comments, node⟩ := site
  cases node with
  | line record => exact collects_of_mem_declaredByLine h
  | block kind region isClosed children =>
    rw [declaredAt] at h
    split at h
    · next hadmits => exact collects_of_mem_declaredByBlock hadmits h
    · cases h

/-- Nodes declare nothing that is not collected in their scope. -/
theorem restrict_ofNodes (scope : Scope) (nodes : List Node) :
    (ofNodes scope false [] nodes).restrict scope = ofNodes scope false [] nodes := by
  rw [ofNodes_eq]
  refine restrict_ofList fun declaration hdeclaration => ?_
  obtain ⟨site, -, hmem⟩ := List.mem_flatMap.1 hdeclaration
  exact collects_of_mem_declaredAt hmem

end Declarations

end JassOutline
