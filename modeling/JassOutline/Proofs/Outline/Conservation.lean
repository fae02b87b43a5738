import JassOutline.Proofs.Outline.Content

/-!
# Conservation of lines

The leaves of an outline are the lines of the stream in their order. Only two sorts of lines are
missing: those that open a `globals` block, and those that close the innermost open block. Whatever
mixture of openers and closers the stream holds, no other line is lost and none is moved.

## Key results

- `Builder.lines_feed`, `Builder.closed_feed`, `Builder.globals_feed`: what one line adds to the
  leaves, the closed blocks and the `globals` blocks
- `leaves_build`: the leaves of the tree of any stream, and the number of lines that are missing
-/

namespace JassOutline.Outline

open Node

/-! ### The fate of a line by its role -/

theorem Arrival.fate_of_opens {record : SourceLine} {kind : BlockKind}
    (hrole : LineRole.ofLine record = .opens kind) (openings : List Opening) :
    (Arrival.mk record openings).fate = if kind.hasHeader then .leaf else .opener := by
  cases kind <;> simp [Arrival.fate, hrole, BlockKind.hasHeader]

theorem Arrival.fate_of_closes {record : SourceLine} {kind : BlockKind}
    (hrole : LineRole.ofLine record = .closes kind) (openings : List Opening) :
    (Arrival.mk record openings).fate = if isInnermost kind openings then .closer else .leaf := by
  simp [Arrival.fate, hrole]

theorem Arrival.fate_of_other {record : SourceLine}
    (hrole : ∀ kind, LineRole.ofLine record ≠ .opens kind ∧ LineRole.ofLine record ≠ .closes kind)
    (openings : List Opening) : (Arrival.mk record openings).fate = .leaf := by
  unfold Arrival.fate
  split
  · next h => exact absurd h (hrole _).1
  · next h => exact absurd h (hrole _).2
  · rfl

namespace Builder

theorem isInnermost_openings {builder : Builder} {inner : OpenBlock} {outer : List OpenBlock}
    (hstack : builder.stack = inner :: outer) :
    isInnermost inner.kind builder.openings = true := by
  simp [isInnermost, openings, hstack, OpenBlock.opening]

/-- The innermost open block ends the content of the builder. -/
theorem content_of_stack {builder : Builder} {inner : OpenBlock} {outer : List OpenBlock}
    (hstack : builder.stack = inner :: outer) :
    builder.content = { builder with stack := outer }.content ++ inner.children.toList := by
  obtain ⟨stack, top, warnings⟩ := builder
  subst hstack
  exact content_cons inner outer top warnings

/-! ### What one line adds -/

/-- A line adds itself to the leaves, or nothing. -/
theorem lines_feed (source : Nat) (builder : Builder) (record : SourceLine) :
    linesOfAll (builder.feed source record).content =
      linesOfAll builder.content ++
        if (Arrival.mk record builder.openings).fate = .leaf then [record] else [] := by
  obtain ⟨kind, hrole, hfeed⟩ | ⟨inner, outer, hrole, hstack, hfeed⟩ |
    ⟨kind, hrole, hinner, hfeed⟩ | ⟨hrole, hfeed⟩ := feed_cases source builder record
  · -- An opener: its block keeps it as a header, unless it is a `globals` block
    rw [hfeed, content_open, linesOfAll_append, Arrival.fate_of_opens hrole]
    unfold headerNodes
    cases kind.hasHeader <;> simp [linesOfAll, lines]
  · -- The children of the innermost block stay where they are, one level deeper
    rw [hfeed, content_attach, content_of_stack hstack, linesOfAll_append, linesOfAll_append,
      linesOfAll_ofBlock, Arrival.fate_of_closes hrole, isInnermost_openings hstack]
    simp [OpenBlock.close]
  · -- A closer of anything else is kept as an ordinary line
    rw [hfeed, content_addLine, content_warn, linesOfAll_append, Arrival.fate_of_closes hrole,
      hinner]
    simp [linesOfAll, lines]
  · rw [hfeed, content_addLine, linesOfAll_append, Arrival.fate_of_other hrole]
    simp [linesOfAll, lines]

/-- Closing the innermost block puts it in front of the blocks it holds. -/
theorem countP_blocks_close {builder : Builder} {inner : OpenBlock} {outer : List OpenBlock}
    (hstack : builder.stack = inner :: outer) (record : SourceLine) (p : Block → Bool) :
    (blocksOfAll (builder.attach outer (inner.close record)).content).countP p =
      (blocksOfAll builder.content).countP p + if p (inner.close record) then 1 else 0 := by
  rw [content_attach, content_of_stack hstack, blocksOfAll_append, blocksOfAll_append,
    blocksOfAll_ofBlock, List.countP_append, List.countP_append, List.countP_cons, Nat.add_assoc]
  rfl

/-- A line that is added to the content holds no block. -/
theorem blocks_addLine (builder : Builder) (record : SourceLine) :
    blocksOfAll (builder.addLine record).content = blocksOfAll builder.content := by
  simp [content_addLine, blocksOfAll, blocks]

theorem blocks_open (builder : Builder) (kind : BlockKind) (record : SourceLine) :
    blocksOfAll { builder with stack := .ofLine kind record :: builder.stack }.content =
      blocksOfAll builder.content := by
  rw [content_open, blocksOfAll_append, headerNodes]
  cases kind.hasHeader <;> simp [blocksOfAll, blocks]

/-- A line adds a closed block exactly if it closes the innermost open one. -/
theorem closed_feed (source : Nat) (builder : Builder) (record : SourceLine) :
    (blocksOfAll (builder.feed source record).content).countP Block.isClosed =
      (blocksOfAll builder.content).countP Block.isClosed +
        if (Arrival.mk record builder.openings).fate = .closer then 1 else 0 := by
  obtain ⟨kind, hrole, hfeed⟩ | ⟨inner, outer, hrole, hstack, hfeed⟩ |
    ⟨kind, hrole, hinner, hfeed⟩ | ⟨hrole, hfeed⟩ := feed_cases source builder record
  · rw [hfeed, blocks_open, Arrival.fate_of_opens hrole]
    cases kind.hasHeader <;> simp
  · -- Only the closer of the innermost block closes one
    rw [hfeed, countP_blocks_close hstack, Arrival.fate_of_closes hrole,
      isInnermost_openings hstack]
    simp [OpenBlock.close]
  · rw [hfeed, blocks_addLine, content_warn, Arrival.fate_of_closes hrole, hinner]
    simp
  · rw [hfeed, blocks_addLine, Arrival.fate_of_other hrole]
    simp

/-- A line adds a `globals` block, open or closed, exactly if it opens one. -/
theorem globals_feed (source : Nat) (builder : Builder) (record : SourceLine) :
    (blocksOfAll (builder.feed source record).content).countP (·.kind == .globals) +
        (builder.feed source record).openings.countP (·.kind == .globals) =
      (blocksOfAll builder.content).countP (·.kind == .globals) +
        builder.openings.countP (·.kind == .globals) +
          if (Arrival.mk record builder.openings).fate = .opener then 1 else 0 := by
  obtain ⟨kind, hrole, hfeed⟩ | ⟨inner, outer, hrole, hstack, hfeed⟩ |
    ⟨kind, hrole, hinner, hfeed⟩ | ⟨hrole, hfeed⟩ := feed_cases source builder record
  · -- A block that is opened is counted on the stack
    rw [openings_feed, hfeed, blocks_open, Arrival.fate_of_opens hrole, openingsAfter, hrole]
    cases kind <;> simp [BlockKind.hasHeader, Nat.add_assoc]
  · -- A `globals` block that is closed is counted among the blocks instead
    rw [hfeed, countP_blocks_close hstack, Arrival.fate_of_closes hrole,
      isInnermost_openings hstack, openings_attach]
    have hcount : builder.openings.countP (·.kind == .globals) =
        (outer.map OpenBlock.opening).countP (·.kind == .globals) +
          if inner.kind == .globals then 1 else 0 := by
      simp only [openings, hstack, List.map_cons, List.countP_cons, OpenBlock.opening]
    rw [hcount]
    cases h : inner.kind == .globals with
    | true => simp [OpenBlock.close, h]; omega
    | false => simp [OpenBlock.close, h]
  · rw [hfeed, blocks_addLine, content_warn, Arrival.fate_of_closes hrole, hinner,
      openings_addLine]
    simp [openings, warn]
  · rw [hfeed, blocks_addLine, Arrival.fate_of_other hrole, openings_addLine]
    simp

/-! ### What a stream adds -/

/-- A stream adds its leaves in their order. -/
theorem lines_foldl_feed (source : Nat) (builder : Builder) (lines : List SourceLine) :
    linesOfAll (lines.foldl (feed source) builder).content =
      linesOfAll builder.content ++
        ((arrivals builder.openings lines).filter (·.fate = .leaf)).map Arrival.record := by
  induction lines generalizing builder with
  | nil => simp [arrivals]
  | cons record rest ih =>
    rw [List.foldl_cons, ih, lines_feed, openings_feed, arrivals, List.filter_cons]
    by_cases hfate : (Arrival.mk record builder.openings).fate = .leaf <;> simp [hfate]

/-- A stream adds as many closed blocks as it has lines that close one. -/
theorem closed_foldl_feed (source : Nat) (builder : Builder) (lines : List SourceLine) :
    (blocksOfAll (lines.foldl (feed source) builder).content).countP Block.isClosed =
      (blocksOfAll builder.content).countP Block.isClosed +
        (arrivals builder.openings lines).countP (·.fate = .closer) := by
  induction lines generalizing builder with
  | nil => simp [arrivals]
  | cons record rest ih =>
    rw [List.foldl_cons, ih, closed_feed, openings_feed, arrivals, List.countP_cons]
    simp only [decide_eq_true_eq]
    omega

/-- A stream adds as many `globals` blocks as it has lines that open one. -/
theorem globals_foldl_feed (source : Nat) (builder : Builder) (lines : List SourceLine) :
    (blocksOfAll (lines.foldl (feed source) builder).content).countP (·.kind == .globals) +
        (lines.foldl (feed source) builder).openings.countP (·.kind == .globals) =
      (blocksOfAll builder.content).countP (·.kind == .globals) +
        builder.openings.countP (·.kind == .globals) +
          (arrivals builder.openings lines).countP (·.fate = .opener) := by
  induction lines generalizing builder with
  | nil => simp [arrivals]
  | cons record rest ih =>
    rw [List.foldl_cons, ih, globals_feed, openings_feed, arrivals, List.countP_cons]
    simp only [decide_eq_true_eq]
    omega

/-! ### What is left open -/

/-- Folding the open blocks into one moves no line. -/
theorem lines_leftOpen (inner? : Option Block) (frames : List OpenBlock) :
    linesOfAll ((leftOpen inner? frames).toList.map ofBlock) =
      linesOfAll ((frames.reverse.flatMap fun frame => frame.children.toList) ++
        inner?.toList.map ofBlock) := by
  induction frames generalizing inner? with
  | nil => simp [leftOpen]
  | cons frame outer ih =>
    rw [leftOpen, ih, Option.toList_some, List.map_singleton, linesOfAll_append,
      linesOfAll_ofBlock, children_abandon]
    simp

/-- Folding the open blocks into one adds those blocks. A property of them that only depends on
how they were opened can be counted on the stack. -/
theorem countP_blocks_leftOpen {p : Block → Bool} {q : Opening → Bool}
    (hpq : ∀ (inner? : Option Block) (frame : OpenBlock),
      p (inner?.elim frame frame.addBlock).abandon = q frame.opening)
    (inner? : Option Block) (frames : List OpenBlock) :
    (blocksOfAll ((leftOpen inner? frames).toList.map ofBlock)).countP p =
      (blocksOfAll ((frames.reverse.flatMap fun frame => frame.children.toList) ++
        inner?.toList.map ofBlock)).countP p + (frames.map OpenBlock.opening).countP q := by
  -- The block folded so far varies, for every frame puts it among its own children
  induction frames generalizing inner? with
  | nil => simp [leftOpen]
  | cons frame outer ih =>
    rw [leftOpen, ih, Option.toList_some, List.map_singleton, blocksOfAll_append,
      blocksOfAll_ofBlock, children_abandon, List.map_cons, List.countP_cons]
    simp only [List.countP_append, List.countP_cons, List.reverse_cons, List.flatMap_append,
      List.flatMap_singleton, blocksOfAll_append, hpq]
    omega

end Builder

/-- The leaves of the outline of any stream are its lines in their order without those that open a
`globals` block and those that close the innermost open block. The latter are as many as there are
closed blocks, the former as many as there are `globals` blocks. -/
theorem leaves_build (source : Nat) (lines : List SourceLine) :
    (∀ read : List SourceLine,
      (read.foldl (Builder.feed source) .start).openings = read.foldl openingsAfter []) ∧
    (arrivals [] lines).map Arrival.record = lines ∧
    linesOfAll (build source lines).1.nodes =
      ((arrivals [] lines).filter (·.fate = .leaf)).map Arrival.record ∧
    (blocksOfAll (build source lines).1.nodes).countP Block.isClosed =
      (arrivals [] lines).countP (·.fate = .closer) ∧
    (blocksOfAll (build source lines).1.nodes).countP (·.kind == .globals) =
      (arrivals [] lines).countP (·.fate = .opener) := by
  -- What the stream adds to an empty builder, and what is added when it ends
  have hlines := Builder.lines_foldl_feed source .start lines
  have hclosed := Builder.closed_foldl_feed source .start lines
  have hglobals := Builder.globals_foldl_feed source .start lines
  have hleftClosed := Builder.countP_blocks_leftOpen (p := Block.isClosed) (q := fun _ => false)
    (fun _ _ => rfl) none (lines.foldl (Builder.feed source) .start).stack
  have hleftGlobals := Builder.countP_blocks_leftOpen (p := (·.kind == .globals))
    (q := (·.kind == .globals)) (fun inner? _ => by cases inner? <;> rfl) none
    (lines.foldl (Builder.feed source) .start).stack
  simp only [Builder.content_start, Builder.openings_start, linesOfAll, blocksOfAll,
    List.nil_append, List.countP_nil, Nat.zero_add] at hlines hclosed hglobals
  refine ⟨Builder.openings_foldl_feed source .start, record_arrivals [] lines, ?_, ?_, ?_⟩
  · rw [nodes_build, linesOfAll_append, Builder.lines_leftOpen, ← hlines]
    simp [Builder.content]
  · rw [nodes_build, blocksOfAll_append, List.countP_append, hleftClosed, ← hclosed]
    simp [Builder.content]
  · rw [nodes_build, blocksOfAll_append, List.countP_append, hleftGlobals, ← hglobals]
    simp [Builder.content, Builder.openings, Nat.add_assoc]

end JassOutline.Outline
