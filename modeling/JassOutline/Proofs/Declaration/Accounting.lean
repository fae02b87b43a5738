import JassOutline.Proofs.Declaration.Attachment
import JassOutline.Proofs.Declaration.Sites
import JassOutline.Proofs.Writing.Bare
import Mathlib.Data.List.Perm.Subperm

/-!
# What is declared and what is not

Every node that its scope admits is one declaration, and nothing else is declared. What stands
inside of a block that is not admitted can be taken away without a trace, and a declaration has the
comments directly in front of its node, so that no comment is attached to two declarations.

## Key results

- `Declarations.exists_declaredAt`: an admitted node is one declaration
- `Declarations.ofNodes_pruneAll`: nothing comes from a block that is not admitted
- `Declarations.attached_subperm`: a comment is attached once at most
- `Declarations.ofNodes_accounted`: all of it
-/

namespace JassOutline

namespace Node

/-- What the body of a block declares. -/
def declaredInside : Node → Declarations
  | .line _ => .none
  | .block kind region isClosed children =>
    .ofNodes (.inside kind) false [] (Block.body ⟨kind, region, isClosed, children⟩)

/-- Whether the node is a block of global variables. -/
def isGlobals : Node → Bool
  | .block .globals .. => true
  | _ => false

mutual

/-- The node without what stands inside of blocks that are not admitted where they stand. -/
def prune (scope : Scope) : Node → Node
  | .line record => .line record
  | .block kind region isClosed children =>
    .block kind region isClosed (if scope.admits kind then pruneAll (.inside kind) children else [])

/-- The nodes without what stands inside of blocks that are not admitted where they stand. -/
def pruneAll (scope : Scope) : List Node → List Node
  | [] => []
  | node :: rest => node.prune scope :: pruneAll scope rest

end

/-- The comments of the comment lines among the nodes, at any depth. -/
def commentsOfAll (nodes : List Node) : List CommentLine :=
  ((linesOfAll nodes).filter fun record => LineRole.ofLine record = .comment).map .ofLine

theorem commentsOfAll_line (record : SourceLine) (rest : List Node) :
    commentsOfAll (.line record :: rest) =
      (if LineRole.ofLine record = .comment then [.ofLine record] else []) ++
        commentsOfAll rest := by
  rw [commentsOfAll, linesOfAll, List.filter_append, List.map_append, commentsOfAll]
  by_cases hrole : LineRole.ofLine record = .comment <;> simp [lines, hrole]

theorem commentsOfAll_block (kind : BlockKind) (region : Region) (isClosed : Bool)
    (children rest : List Node) :
    commentsOfAll (.block kind region isClosed children :: rest) =
      commentsOfAll children ++ commentsOfAll rest := by
  rw [commentsOfAll, linesOfAll, List.filter_append, List.map_append]
  rfl

end Node

open Node

/-- Whether the node declares something in the scope. -/
def Scope.admitsNode (scope : Scope) : Node → Bool
  | .line record => scope.admitsLine record
  | .block kind .. => scope.admits kind

/-- The declaration is that of the node at the site: it takes the comments in front of the node,
starts and ends with the node, and holds what the node does. -/
structure Declaration.StandsAt (declaration : Declaration) (site : Site) : Prop where
  comments : declaration.heading.comments = site.comments
  start : declaration.heading.region.start.line = site.node.region.start.line
  stop : declaration.heading.region.stop = site.node.region.stop
  inner : declaration.inner = site.node.declaredInside

namespace Declarations

open Declaration

variable {scope : Scope} {comments : List CommentLine} {record : SourceLine}

/-! ### One declaration for each node -/

theorem standsAt_ofLine (h : scope.admitsLine record = true) :
    (Declaration.ofLine scope comments record).StandsAt ⟨comments, .line record⟩ := by
  cases scope with
  | program =>
    rw [Declaration.ofLine]
    split <;> exact ⟨rfl, rfl, rfl, rfl⟩
  | library => simp [Scope.admitsLine] at h
  | struct =>
    have hends := Member.endsLine_ofLine record
    exact ⟨rfl, hends.line, hends.stop_eq, rfl⟩
  | body =>
    have hends := LocalVariable.endsLine_ofLine record
    exact ⟨rfl, hends.line, hends.stop_eq, rfl⟩
  | globals => exact ⟨rfl, rfl, rfl, rfl⟩

theorem standsAt_ofBlock {declaration : Declaration} {b : Block}
    (hcomments : declaration.heading.comments = comments)
    (hregion : declaration.heading.region = b.region)
    (hinner : declaration.inner = ofNodes (.inside b.kind) false [] b.body) :
    declaration.StandsAt ⟨comments, .ofBlock b⟩ :=
  ⟨hcomments, congrArg (·.start.line) hregion, congrArg Region.stop hregion, hinner⟩

/-- With or without a header, the heading of a block has the region of the block. -/
theorem region_elim {α : Type} (heading : α → Heading) {region : Region}
    {header? : Option SourceLine} {bare : α} {ofHeader : SourceLine → α}
    (hbare : (heading bare).region = region)
    (hheader : ∀ header, (heading (ofHeader header)).region = region) :
    (heading (header?.elim bare ofHeader)).region = region := by
  cases header? with
  | none => exact hbare
  | some header => exact hheader header

/-- A block that is no globals block is one declaration, with all that its body declares. -/
theorem exists_declaredByBlock (comments : List CommentLine) (b : Block)
    (hkind : b.kind ≠ .globals) :
    ∃ declaration, declaredByBlock comments b = [declaration] ∧
      declaration.StandsAt ⟨comments, .ofBlock b⟩ := by
  -- What the declaration keeps of the body is all that the body declares
  have hbody := restrict_ofNodes (.inside b.kind) b.body
  obtain ⟨kind, region, isClosed, children⟩ := b
  cases kind with
  | globals => exact absurd rfl hkind
  | function =>
    refine ⟨_, rfl, standsAt_ofBlock rfl ?_ hbody⟩
    exact region_elim Function.toHeading rfl fun header => rfl
  | method =>
    refine ⟨_, rfl, standsAt_ofBlock rfl ?_ hbody⟩
    exact region_elim Method.toHeading rfl fun header => rfl
  | struct =>
    refine ⟨_, rfl, standsAt_ofBlock rfl ?_ hbody⟩
    exact region_elim Struct.toHeading rfl fun header => rfl
  | library =>
    refine ⟨_, rfl, standsAt_ofBlock rfl ?_ hbody⟩
    exact region_elim Library.toHeading rfl fun header => Library.region_ofHeader header region

/-- A node that is admitted, and no globals block, is one declaration. -/
theorem exists_declaredAt {site : Site} (hadmits : scope.admitsNode site.node = true)
    (hglobals : site.node.isGlobals = false) :
    ∃ declaration, declaredAt scope site = [declaration] ∧ scope.collects declaration = true ∧
      declaration.StandsAt site := by
  obtain ⟨declaration, hdeclared, hstands⟩ : ∃ declaration,
      declaredAt scope site = [declaration] ∧ declaration.StandsAt site := by
    obtain ⟨comments, node⟩ := site
    cases node with
    | line record => exact ⟨_, if_pos hadmits, standsAt_ofLine hadmits⟩
    | block kind region isClosed children =>
      rw [declaredAt, if_pos (show scope.admits kind = true from hadmits)]
      refine exists_declaredByBlock comments ⟨kind, region, isClosed, children⟩ ?_
      rintro rfl
      cases hglobals
  refine ⟨declaration, hdeclared, ?_, hstands⟩
  exact collects_of_mem_declaredAt (hdeclared ▸ List.mem_singleton_self declaration)

/-- A node that is not admitted declares nothing. -/
theorem declaredAt_eq_nil {site : Site} (h : scope.admitsNode site.node = false) :
    declaredAt scope site = [] := by
  obtain ⟨comments, node⟩ := site
  cases node with
  | line record => exact if_neg (by simpa [Scope.admitsNode] using h)
  | block kind region isClosed children => exact if_neg (by simpa [Scope.admitsNode] using h)

/-! ### Blocks that are not admitted -/

/-- Taking something away inside of a block does not touch its header. -/
theorem header?_pruneAll (scope : Scope) (kind : BlockKind) (region : Region) (isClosed : Bool)
    (children : List Node) :
    Block.header? ⟨kind, region, isClosed, pruneAll scope children⟩ =
      Block.header? ⟨kind, region, isClosed, children⟩ := by
  match children with
  | [] => rfl
  | .line record :: rest => rfl
  | .block .. :: rest => rfl

/-- What stands inside of blocks that are not admitted is not declared anywhere. -/
theorem ofNodes_pruneAll (scope : Scope) (atHeader : Bool) (comments : List CommentLine)
    (nodes : List Node) :
    ofNodes scope atHeader comments (pruneAll scope nodes) =
      ofNodes scope atHeader comments nodes := by
  fun_induction ofNodes scope atHeader comments nodes with
  | case1 => rw [pruneAll, ofNodes]
  | case2 scope comments record rest ih => simpa [pruneAll, prune, ofNodes] using ih
  | case3 scope atHeader comments record rest hheader hrole ih =>
    simpa [pruneAll, prune, ofNodes, hheader, hrole] using ih
  | case4 scope atHeader comments record rest hheader hrole ih =>
    obtain rfl : atHeader = false := by simpa using hheader
    rw [pruneAll, prune, ofNodes_line rfl hrole, ih]
  | case5 scope atHeader comments kind region isClosed children rest hadmits ihInside ih =>
    rw [pruneAll, prune, ofNodes, if_pos hadmits, if_pos hadmits, header?_pruneAll, ihInside, ih]
  | case6 scope atHeader comments kind region isClosed children rest hadmits ih =>
    rw [pruneAll, prune, ofNodes, if_neg hadmits, ih]

/-! ### Comments -/

/-- The comments that declarations have, at any depth. -/
def attached (declared : Declarations) : List CommentLine :=
  declared.headings.flatMap Heading.comments

variable (c : CommentLine)

theorem count_attached_append (a b : Declarations) :
    (a ++ b).attached.count c = a.attached.count c + b.attached.count c := by
  change (append a b).attached.count c = _
  simp only [attached, headings, append, List.map_append, List.flatMap_append, List.count_append]
  omega

/-- A declaration has its own comments and those of what it holds. -/
theorem count_attached_alone (declaration : Declaration) :
    declaration.alone.attached.count c =
      declaration.heading.comments.count c + declaration.inner.attached.count c := by
  cases declaration <;>
    simp [alone, heading, Declaration.inner, attached, headings, none, Function.headings,
      Method.headings, Struct.headings, Library.headings, List.count_append] <;>
    omega

/-- What a line declares has the comments once, if it declares something. -/
theorem count_attached_ofLine_le (scope : Scope) (comments : List CommentLine)
    (record : SourceLine) :
    (ofLine scope (LineRole.ofLine record) comments record).attached.count c ≤
      comments.count c := by
  rw [ofLine_eq, declaredByLine]
  split
  · next hadmits =>
    have hstands := @standsAt_ofLine scope comments record hadmits
    rw [ofList_singleton, count_attached_alone, hstands.comments, hstands.inner]
    exact Nat.le_refl _
  · exact Nat.zero_le _

/-- What a block declares has the comments once, and those inside. -/
theorem count_attached_ofBlock_le (comments : List CommentLine) (kind : BlockKind)
    (region : Region) (isClosed : Bool) (children : List Node) :
    (ofBlock kind region (Block.header? ⟨kind, region, isClosed, children⟩) comments
      (ofNodes (.inside kind) kind.hasHeader [] children)).attached.count c ≤
      comments.count c + (ofNodes (.inside kind) kind.hasHeader [] children).attached.count c := by
  by_cases hkind : kind = .globals
  · -- A globals block has no comments of its own
    subst hkind
    show ((ofNodes .globals false [] children).restrict .globals).attached.count c ≤ _
    rw [restrict_ofNodes]
    exact Nat.le_add_left ..
  · obtain ⟨declaration, hdeclared, hstands⟩ :=
      exists_declaredByBlock comments ⟨kind, region, isClosed, children⟩ hkind
    rw [ofBlock_eq, hdeclared, ofList_singleton, count_attached_alone, hstands.comments,
      hstands.inner, ofNodes_body kind region isClosed children]
    exact Nat.le_refl _

/-- What nodes declare has the comments in front of them and those among them once at most. -/
theorem count_attached_ofNodes_le (scope : Scope) (atHeader : Bool) (comments : List CommentLine)
    (nodes : List Node) :
    (ofNodes scope atHeader comments nodes).attached.count c ≤
      comments.count c + (commentsOfAll nodes).count c := by
  fun_induction ofNodes scope atHeader comments nodes with
  | case1 => exact Nat.zero_le _
  | case2 scope comments record rest ih =>
    -- The header of a block, which is passed over
    rw [commentsOfAll_line, List.count_append]
    rw [List.count_nil] at ih
    omega
  | case3 scope atHeader comments record rest hheader hrole ih =>
    rw [commentsOfAll_line, if_pos hrole, List.count_append]
    rw [List.count_append] at ih
    omega
  | case4 scope atHeader comments record rest hheader hrole ih =>
    have hline := count_attached_ofLine_le c scope comments record
    rw [commentsOfAll_line, if_neg hrole, count_attached_append, List.nil_append]
    rw [List.count_nil] at ih
    omega
  | case5 scope atHeader comments kind region isClosed children rest hadmits ihInside ih =>
    have hblock := count_attached_ofBlock_le c comments kind region isClosed children
    rw [commentsOfAll_block, count_attached_append, List.count_append]
    rw [List.count_nil] at ih ihInside
    omega
  | case6 scope atHeader comments kind region isClosed children rest hadmits ih =>
    rw [commentsOfAll_block, List.count_append]
    rw [List.count_nil] at ih
    omega

/-- No comment is attached more often than it occurs. -/
theorem attached_subperm (scope : Scope) (nodes : List Node) :
    (ofNodes scope false [] nodes).attached.Subperm (commentsOfAll nodes) := by
  refine List.subperm_ext_iff.2 fun c _ => ?_
  have hcount := count_attached_ofNodes_le c scope false [] nodes
  rwa [List.count_nil, Nat.zero_add] at hcount

/-! ### All of it -/

/-- What nodes declare in a scope is what they declare one by one, in their order, each with the run
of comment lines that ends in front of it. A node that the scope does not admit declares nothing,
and what stands inside of such a block, at any depth, could be missing. A node that is admitted is
one declaration, which has these comments and holds what the body of the node declares. Only the
lines of a globals block are declarations of their own, with the comments in front of them. No
comment is attached more often than it occurs, and a program keeps all that its outline declares. -/
theorem ofNodes_accounted (scope : Scope) (nodes : List Node) :
    ofNodes scope false [] nodes = ofList ((sites nodes).flatMap (declaredAt scope)) ∧
    (∀ site, scope.admitsNode site.node = false → declaredAt scope site = []) ∧
    (∀ site, scope.admitsNode site.node = true → site.node.isGlobals = false →
      ∃ declaration, declaredAt scope site = [declaration] ∧
        scope.collects declaration = true ∧ declaration.StandsAt site) ∧
    (∀ comments region isClosed children, scope.admits .globals = true →
      declaredAt scope ⟨comments, .block .globals region isClosed children⟩ =
        (sites children).flatMap (declaredAt .globals)) ∧
    ofNodes scope false [] (pruneAll scope nodes) = ofNodes scope false [] nodes ∧
    (ofNodes scope false [] nodes).attached.Subperm (commentsOfAll nodes) ∧
    ∀ source region, (Program.ofOutline source ⟨region, nodes⟩).declarations =
      ofNodes .program false [] nodes := by
  refine ⟨ofNodes_eq scope nodes, fun site => declaredAt_eq_nil, fun site => exists_declaredAt,
    fun comments region isClosed children hadmits => ?_, ofNodes_pruneAll scope false [] nodes,
    attached_subperm scope nodes, fun source region => restrict_ofNodes .program nodes⟩
  rw [declaredAt, if_pos hadmits, flatMap_declaredAt_globals]
  rfl

end Declarations

end JassOutline
