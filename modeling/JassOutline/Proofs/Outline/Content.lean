import JassOutline.Proofs.Outline.Arrival

/-!
# What the builder holds

The nodes that `Outline.build` has placed lie on its stack and outside of it. `Builder.content`
lists them in the order of the text. A line appends to that list, and closing a block folds the end
of the list into one node. At the end of the stream the blocks that are still open are folded into
one block, `leftOpen`.

## Key results

- `Builder.content_addLine`, `Builder.content_open`, `Builder.content_attach`: the content after
  each step
- `nodes_build`, `warnings_build`: the tree and the warnings in terms of the builder at the end
-/

namespace JassOutline

namespace Node

@[simp] theorem linesOfAll_append (a b : List Node) :
    linesOfAll (a ++ b) = linesOfAll a ++ linesOfAll b := by
  induction a with
  | nil => rfl
  | cons node a ih => simp [linesOfAll, ih]

@[simp] theorem blocksOfAll_append (a b : List Node) :
    blocksOfAll (a ++ b) = blocksOfAll a ++ blocksOfAll b := by
  induction a with
  | nil => rfl
  | cons node a ih => simp [blocksOfAll, ih]

@[simp] theorem lines_ofBlock (b : Block) : (ofBlock b).lines = linesOfAll b.children := rfl

@[simp] theorem blocks_ofBlock (b : Block) :
    (ofBlock b).blocks = b :: blocksOfAll b.children := rfl

/-- The lines of an optional block are those of what it holds. -/
theorem linesOfAll_ofBlock (b : Block) : linesOfAll [ofBlock b] = linesOfAll b.children := by
  simp [linesOfAll]

/-- The blocks of a single block are itself and those it holds. -/
theorem blocksOfAll_ofBlock (b : Block) :
    blocksOfAll [ofBlock b] = b :: blocksOfAll b.children := by
  simp [blocksOfAll]

end Node

namespace Outline

/-- What a block of the kind holds as soon as the line opens it. -/
def headerNodes (kind : BlockKind) (record : SourceLine) : List Node :=
  if kind.hasHeader then [.line record] else []

theorem OpenBlock.children_ofLine (kind : BlockKind) (record : SourceLine) :
    (OpenBlock.ofLine kind record).children.toList = headerNodes kind record := by
  unfold OpenBlock.ofLine headerNodes
  split <;> rfl

namespace Builder

/-- Everything that has been placed, in the order of the text. -/
def content (builder : Builder) : List Node :=
  builder.top.toList ++ builder.stack.reverse.flatMap fun frame => frame.children.toList

@[simp] theorem content_start : start.content = [] := rfl

@[simp] theorem content_warn (builder : Builder) (warning : Warning) :
    (builder.warn warning).content = builder.content := rfl

/-- The content ends with what the innermost open block holds. -/
theorem content_cons (inner : OpenBlock) (outer : List OpenBlock) (top : Array Node)
    (warnings : Array Warning) :
    content ⟨inner :: outer, top, warnings⟩ =
      content ⟨outer, top, warnings⟩ ++ inner.children.toList := by
  simp [content]

/-- A line is placed behind everything else. -/
theorem content_addLine (builder : Builder) (record : SourceLine) :
    (builder.addLine record).content = builder.content ++ [.line record] := by
  obtain ⟨stack, top, warnings⟩ := builder
  cases stack with
  | nil => simp [addLine, content]
  | cons inner outer =>
    show content ⟨inner.addLine record :: outer, top, warnings⟩ = _
    rw [content_cons, content_cons, List.append_assoc]
    simp [OpenBlock.addLine]

/-- A block is placed behind everything else that the given stack holds. -/
theorem content_attach (builder : Builder) (stack : List OpenBlock) (b : Block) :
    (builder.attach stack b).content =
      { builder with stack := stack }.content ++ [.ofBlock b] := by
  cases stack with
  | nil => simp [attach, content]
  | cons inner outer =>
    show content ⟨inner.addBlock b :: outer, builder.top, builder.warnings⟩ = _
    rw [content_cons, content_cons, List.append_assoc]
    simp [OpenBlock.addBlock]

/-- A block that is opened brings its header. -/
theorem content_open (builder : Builder) (kind : BlockKind) (record : SourceLine) :
    { builder with stack := .ofLine kind record :: builder.stack }.content =
      builder.content ++ headerNodes kind record := by
  rw [content_cons, OpenBlock.children_ofLine]

/-! ### The end of the stream -/

/-- The outermost of the blocks that nothing closes, which holds the others. `inner?` is what the
block inside the given ones was left as. -/
def leftOpen : Option Block → List OpenBlock → Option Block
  | inner?, [] => inner?
  | inner?, frame :: outer =>
    leftOpen (some (inner?.elim frame frame.addBlock).abandon) outer

/-- The warning that nothing closes a block. -/
def neverClosed (source : Nat) (opening : Opening) : Warning :=
  .onLine (.blockNeverClosed opening.kind) opening.opener source

/-- A block that is left open holds what it held, and behind that the block inside it. -/
theorem children_abandon (inner? : Option Block) (frame : OpenBlock) :
    (inner?.elim frame frame.addBlock).abandon.children =
      frame.children.toList ++ inner?.toList.map .ofBlock := by
  cases inner? with
  | none => simp [OpenBlock.abandon]
  | some inner => simp [OpenBlock.abandon, OpenBlock.addBlock]

/-- The end of the stream folds the open blocks into one and warns about each, the innermost
first. -/
theorem abandonAll_eq (source : Nat) (builder : Builder) (inner? : Option Block)
    (frames : List OpenBlock) :
    builder.abandonAll source inner? frames =
      { stack := []
        top := builder.top ++ ((leftOpen inner? frames).toList.map Node.ofBlock).toArray
        warnings := builder.warnings ++
          (frames.map fun frame => neverClosed source frame.opening).toArray } := by
  induction frames generalizing builder inner? with
  | nil => cases inner? <;> simp [abandonAll, attach, leftOpen]
  | cons frame outer ih =>
    rw [abandonAll, ih]
    simp [leftOpen, warn, neverClosed, OpenBlock.opening]

theorem stack_finish (source : Nat) (builder : Builder) : (builder.finish source).stack = [] := by
  rw [finish, abandonAll_eq]

theorem finish_nil {source : Nat} {builder : Builder} (h : builder.stack = []) :
    builder.finish source = builder := by
  obtain ⟨stack, top, warnings⟩ := builder
  obtain rfl : stack = [] := h
  rfl

theorem length_stack_attach (builder : Builder) (stack : List OpenBlock) (b : Block) :
    (builder.attach stack b).stack.length = stack.length := by
  cases stack <;> rfl

/-- At the end of the stream the innermost open block goes to the one around it. -/
theorem finish_cons {source : Nat} {builder : Builder} {frame : OpenBlock}
    {outer : List OpenBlock} (h : builder.stack = frame :: outer) :
    builder.finish source =
      ((builder.warn (neverClosed source frame.opening)).attach outer frame.abandon).finish
        source := by
  rw [finish, finish, abandonAll_eq, abandonAll_eq, h]
  cases outer <;> simp [attach, leftOpen, warn]

end Builder

/-- The tree is what was placed outside of blocks, and behind that what is left open. -/
theorem nodes_build (source : Nat) (lines : List SourceLine) :
    (build source lines).1.nodes =
      (lines.foldl (Builder.feed source) .start).top.toList ++
        (Builder.leftOpen none (lines.foldl (Builder.feed source) .start).stack).toList.map
          .ofBlock := by
  simp [build, Builder.finish, Builder.abandonAll_eq]

/-- The warnings are those recorded line by line, and then one for each block that is left
open. -/
theorem warnings_build (source : Nat) (lines : List SourceLine) :
    (build source lines).2 =
      (lines.foldl (Builder.feed source) .start).warnings.toList ++
        (lines.foldl (Builder.feed source) .start).openings.map (Builder.neverClosed source) := by
  simp [build, Builder.finish, Builder.abandonAll_eq, Builder.openings]

end Outline

end JassOutline
