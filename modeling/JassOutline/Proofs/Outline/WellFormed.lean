import JassOutline.Proofs.Outline.Covering

/-!
# What every outline is like

Whatever the stream, its outline keeps to some rules that readers of the outline rely on. A block
knows the line that opened it, no line that opens a block is an ordinary child, no line that would
close a block is an ordinary child of it, and the blocks that nothing closes form one chain down
the right edge of the tree. `Block.IsWellFormed` collects the rules for one block of the tree.

## Key results

- `Block.isWellFormed_of_fillsToEnd`: the rules for a block that holds what its lines leave
- `FillsToEnd.unclosedBlocks_eq`: the chain of the blocks that nothing closes
- `isWellFormed_build`: every outline keeps to the rules
-/

namespace JassOutline

namespace Node

mutual

/-- The open blocks down the right edge of a node, the outermost first. -/
def openEdge : Node → List Block
  | .line _ => []
  | .block kind region isClosed children =>
    if isClosed then [] else ⟨kind, region, isClosed, children⟩ :: openEdgeOfAll children

/-- The open blocks down the right edge of a list of nodes, the outermost first. -/
def openEdgeOfAll : List Node → List Block
  | [] => []
  | [last] => last.openEdge
  | _ :: next :: rest => openEdgeOfAll (next :: rest)

end

/-- The blocks of a list of nodes that nothing closes, each before those inside it. -/
def unclosedBlocks (nodes : List Node) : List Block :=
  (blocksOfAll nodes).filter fun b => !b.isClosed

@[simp] theorem unclosedBlocks_nil : unclosedBlocks [] = [] := rfl

@[simp] theorem unclosedBlocks_append (a b : List Node) :
    unclosedBlocks (a ++ b) = unclosedBlocks a ++ unclosedBlocks b := by
  simp [unclosedBlocks]

@[simp] theorem unclosedBlocks_block_cons (kind : BlockKind) (region : Region) (isClosed : Bool)
    (children rest : List Node) :
    unclosedBlocks (.block kind region isClosed children :: rest) =
      (if isClosed then [] else [⟨kind, region, isClosed, children⟩]) ++
        unclosedBlocks children ++ unclosedBlocks rest := by
  cases isClosed <;> simp [unclosedBlocks, blocksOfAll, blocks]

/-- A child is among the blocks that are listed with it. -/
theorem mem_blocksOfAll_of_mem {b : Block} {nodes : List Node} (h : ofBlock b ∈ nodes) :
    b ∈ blocksOfAll nodes := by
  induction nodes with
  | nil => simp at h
  | cons node rest ih =>
    rcases List.mem_cons.1 h with rfl | hrest
    · simp [blocksOfAll]
    · simp [blocksOfAll, ih hrest]

theorem openEdgeOfAll_cons {node : Node} (h : node.openEdge = []) (rest : List Node) :
    openEdgeOfAll (node :: rest) = openEdgeOfAll rest := by
  cases rest with
  | nil => exact h
  | cons next rest => rfl

theorem openEdgeOfAll_append_singleton (nodes : List Node) (last : Node) :
    openEdgeOfAll (nodes ++ [last]) = last.openEdge := by
  induction nodes with
  | nil => rfl
  | cons first rest ih =>
    cases rest with
    | nil => rfl
    | cons next rest => exact ih

end Node

open Node Outline

namespace Block

/-- The line is the one of the stream that opens the block: the lines behind it are those that the
children of the block stand on. -/
def IsOpenedBy (b : Block) (lines : List SourceLine) (opener : SourceLine) : Prop :=
  LineRole.ofLine opener = .opens b.kind ∧ b.region.start = opener.region.start ∧
    ∃ before inside after children, lines = before ++ (opener :: inside) ++ after ∧
      b.children = headerNodes b.kind opener ++ children ∧ Covers inside children

/-- The rules for a block in the outline of the stream. -/
structure IsWellFormed (b : Block) (lines : List SourceLine) : Prop where
  kind : b.kind ∈ [BlockKind.globals, .function, .method, .struct, .library]
  /-- A block whose kind keeps the line that opens it has that line for a header. -/
  opener : ∃ opener, b.IsOpenedBy lines opener ∧
    (b.kind.hasHeader = true → b.header? = some opener)
  /-- No line besides the header opens anything. -/
  noOpener : ∀ record, .line record ∈ b.body → ∀ kind, LineRole.ofLine record ≠ .opens kind
  noCloser : ∀ record, .line record ∈ b.children → LineRole.ofLine record ≠ .closes b.kind
  /-- Only the last child may be a block that nothing closes. -/
  closedBeforeLast : ∀ inner, .ofBlock inner ∈ b.children.dropLast → inner.isClosed = true
  /-- A block that is closed has no child that nothing closes. -/
  closedInside : b.isClosed = true → ∀ inner, .ofBlock inner ∈ b.children → inner.isClosed = true

/-- The rules do not depend on what surrounds the lines. -/
theorem IsWellFormed.surround {b : Block} {lines : List SourceLine} (h : b.IsWellFormed lines)
    (front back : List SourceLine) : b.IsWellFormed (front ++ lines ++ back) := by
  obtain ⟨opener, ⟨hrole, hstart, before, inside, after, children, rfl, hchildren, hcovers⟩,
    hheader⟩ := h.opener
  refine { h with opener := ⟨opener, ⟨hrole, hstart, ?_⟩, hheader⟩ }
  exact ⟨front ++ before, inside, after ++ back, children, by simp, hchildren, hcovers⟩

end Block

namespace Outline

variable {kind? : Option BlockKind} {lines : List SourceLine} {nodes : List Node}

/-! ### What is among the nodes that lines leave -/

theorem Fills.isContent_of_mem {record : SourceLine} (h : Fills kind? lines nodes)
    (hrecord : .line record ∈ nodes) : IsContent kind? record := by
  induction h with
  | nil => simp at hrecord
  | line hcontent _ ih =>
    rcases List.mem_cons.1 hrecord with heq | hrest
    · exact Node.line.inj heq ▸ hcontent
    · exact ih hrest
  | block _ _ _ _ _ ih =>
    rcases List.mem_cons.1 hrecord with heq | hrest
    · cases heq
    · exact ih hrest

theorem FillsToEnd.isContent_of_mem {record : SourceLine} (h : FillsToEnd kind? lines nodes)
    (hrecord : .line record ∈ nodes) : IsContent kind? record := by
  cases h with
  | filled h => exact h.isContent_of_mem hrecord
  | unclosed hfront =>
    rcases List.mem_append.1 hrecord with hnodes | hlast
    · exact hfront.isContent_of_mem hnodes
    · simp at hlast

theorem eq_of_mem_headerNodes {kind : BlockKind} {opener : SourceLine} {node : Node}
    (h : node ∈ headerNodes kind opener) : node = .line opener := by
  unfold headerNodes at h
  split at h
  · exact List.mem_singleton.1 h
  · cases h

/-- A header is no block. -/
@[simp] theorem blocksOfAll_headerNodes (kind : BlockKind) (opener : SourceLine) :
    blocksOfAll (headerNodes kind opener) = [] := by
  unfold headerNodes
  split <;> rfl

@[simp] theorem unclosedBlocks_headerNodes (kind : BlockKind) (opener : SourceLine) :
    unclosedBlocks (headerNodes kind opener) = [] := by
  simp [unclosedBlocks]

theorem openEdgeOfAll_headerNodes_append (kind : BlockKind) (opener : SourceLine) :
    openEdgeOfAll (headerNodes kind opener ++ nodes) = openEdgeOfAll nodes := by
  unfold headerNodes
  split
  · exact openEdgeOfAll_cons rfl nodes
  · rfl

/-- A child that is not the last one is not the last one without the header either. -/
theorem mem_dropLast_of_headerNodes {kind : BlockKind} {opener : SourceLine} {b : Block}
    (h : .ofBlock b ∈ (headerNodes kind opener ++ nodes).dropLast) :
    .ofBlock b ∈ nodes.dropLast := by
  unfold headerNodes at h
  split at h
  · cases nodes with
    | nil => simp at h
    | cons first rest => simpa [Node.ofBlock] using h
  · exact h

/-- In front of the end of the stream all blocks are closed. -/
theorem Fills.unclosedBlocks_eq_nil (h : Fills kind? lines nodes) :
    unclosedBlocks nodes = [] := by
  induction h with
  | nil => rfl
  | line _ _ ih => exact ih
  | block _ _ _ _ ihInside ihRest => simp [ihInside, ihRest]

theorem Fills.openEdgeOfAll_eq_nil (h : Fills kind? lines nodes) : openEdgeOfAll nodes = [] := by
  induction h with
  | nil => rfl
  | line _ _ ih => rw [openEdgeOfAll_cons rfl, ih]
  | block _ _ _ _ _ ih => rw [openEdgeOfAll_cons rfl, ih]

theorem Fills.isClosed_of_mem {b : Block} (h : Fills kind? lines nodes)
    (hb : .ofBlock b ∈ nodes) : b.isClosed = true := by
  have hclosed := List.filter_eq_nil_iff.1 h.unclosedBlocks_eq_nil b (mem_blocksOfAll_of_mem hb)
  simpa using hclosed

theorem FillsToEnd.isClosed_of_mem_dropLast {b : Block} (h : FillsToEnd kind? lines nodes)
    (hb : .ofBlock b ∈ nodes.dropLast) : b.isClosed = true := by
  cases h with
  | filled h => exact h.isClosed_of_mem (List.dropLast_subset _ hb)
  | unclosed hfront =>
    rw [List.dropLast_concat] at hb
    exact hfront.isClosed_of_mem hb

/-- The blocks that nothing closes are those down the right edge. -/
theorem FillsToEnd.unclosedBlocks_eq (h : FillsToEnd kind? lines nodes) :
    unclosedBlocks nodes = openEdgeOfAll nodes := by
  induction h with
  | filled h => rw [h.unclosedBlocks_eq_nil, h.openEdgeOfAll_eq_nil]
  | unclosed hfront _ _ ih =>
    rw [openEdgeOfAll_append_singleton, unclosedBlocks_append, hfront.unclosedBlocks_eq_nil]
    simp [openEdge, openEdgeOfAll_headerNodes_append, ih]

/-! ### Blocks -/

theorem body_of_headerNodes (kind : BlockKind) (region : Region) (isClosed : Bool)
    (opener : SourceLine) :
    (⟨kind, region, isClosed, headerNodes kind opener ++ nodes⟩ : Block).body = nodes := by
  cases kind <;> rfl

/-- A block that holds what the lines behind its opener leave. -/
theorem isWellFormed_of_fillsToEnd {kind : BlockKind} {region : Region} {isClosed : Bool}
    {opener : SourceLine} {before inside after : List SourceLine} {children : List Node}
    (hopener : LineRole.ofLine opener = .opens kind) (hstart : region.start = opener.region.start)
    (hinside : FillsToEnd (some kind) inside children)
    (hclosed : isClosed = true → Fills (some kind) inside children) :
    (⟨kind, region, isClosed, headerNodes kind opener ++ children⟩ : Block).IsWellFormed
      (before ++ (opener :: inside) ++ after) where
  kind := by cases kind <;> simp
  opener := by
    refine ⟨opener, ⟨hopener, hstart, before, inside, after, children, rfl, rfl, hinside.covers⟩,
      fun hheader => ?_⟩
    exact Block.header?_eq_some.2 ⟨hheader, children, by simp_all [headerNodes]⟩
  noOpener := fun record hrecord other => by
    rw [body_of_headerNodes] at hrecord
    exact (hinside.isContent_of_mem hrecord other).1
  noCloser := fun record hrecord => by
    rcases List.mem_append.1 hrecord with hheader | hchild
    · obtain rfl := Node.line.inj (eq_of_mem_headerNodes hheader)
      simp [hopener]
    · exact (hinside.isContent_of_mem hchild kind).2 rfl
  closedBeforeLast := fun inner hinner =>
    hinside.isClosed_of_mem_dropLast (mem_dropLast_of_headerNodes hinner)
  closedInside := fun hisClosed inner hinner => by
    rcases List.mem_append.1 hinner with hheader | hchild
    · cases eq_of_mem_headerNodes hheader
    · exact (hclosed hisClosed).isClosed_of_mem hchild

/-- The rules for all blocks in front of the end of the stream. -/
theorem Fills.isWellFormed {b : Block} (h : Fills kind? lines nodes) (hb : b ∈ blocksOfAll nodes) :
    b.IsWellFormed lines := by
  induction h generalizing b with
  | nil => simp [blocksOfAll] at hb
  | @line _ record rest nodes _ _ ih =>
    simpa using (ih hb).surround [record] []
  | @block _ kind opener closer inside rest children nodes hopener _ hinside _ ihInside ihRest =>
    simp only [blocksOfAll, Node.blocks, blocksOfAll_append, blocksOfAll_headerNodes,
      List.nil_append, List.cons_append, List.mem_cons, List.mem_append] at hb
    rcases hb with rfl | hchild | hrest
    · -- nothing is in front of the opener of this block
      rw [← List.nil_append (opener :: inside ++ closer :: rest), ← List.append_assoc]
      exact isWellFormed_of_fillsToEnd hopener rfl (.filled hinside) fun _ => hinside
    · exact (ihInside hchild).surround [opener] (closer :: rest)
    · simpa using (ihRest hrest).surround (opener :: inside ++ [closer]) []

/-- The rules for all blocks, those included that the end of the stream leaves open. -/
theorem FillsToEnd.isWellFormed {b : Block} (h : FillsToEnd kind? lines nodes)
    (hb : b ∈ blocksOfAll nodes) : b.IsWellFormed lines := by
  induction h generalizing b with
  | filled h => exact h.isWellFormed hb
  | @unclosed _ kind opener front inside children nodes hfront hopener hinside ih =>
    simp only [blocksOfAll_append, blocksOfAll, Node.blocks, blocksOfAll_headerNodes,
      List.nil_append, List.append_nil, List.mem_cons, List.mem_append] at hb
    rcases hb with hearlier | rfl | hchild
    · simpa using (hfront.isWellFormed hearlier).surround [] (opener :: inside)
    · rw [← List.append_nil (front ++ opener :: inside)]
      exact isWellFormed_of_fillsToEnd hopener rfl hinside (by rintro ⟨⟩)
    · simpa using (ih hchild).surround (front ++ [opener]) []

/-- Every outline keeps to the rules: each block of the tree does, no line outside of every block
opens anything, and the blocks that nothing closes are those that can be reached from the outermost
nodes by going to the last node as long as it is such a block. -/
theorem isWellFormed_build (source : Nat) (lines : List SourceLine) :
    (∀ b ∈ blocksOfAll (build source lines).1.nodes, b.IsWellFormed lines) ∧
    (∀ record, .line record ∈ (build source lines).1.nodes →
      ∀ kind, LineRole.ofLine record ≠ .opens kind) ∧
    (∀ inner, .ofBlock inner ∈ (build source lines).1.nodes.dropLast → inner.isClosed = true) ∧
    unclosedBlocks (build source lines).1.nodes = openEdgeOfAll (build source lines).1.nodes := by
  have hfills := fillsToEnd_build source lines
  refine ⟨fun b hb => hfills.isWellFormed hb, fun record hrecord kind => ?_,
    fun inner hinner => hfills.isClosed_of_mem_dropLast hinner, hfills.unclosedBlocks_eq⟩
  exact (hfills.isContent_of_mem hrecord kind).1

end Outline

end JassOutline
