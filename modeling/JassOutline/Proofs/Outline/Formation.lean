import JassOutline.Proofs.Outline.Nesting

/-!
# How the outline of any stream is formed

`Nests` says which forest a well-nested stream denotes. A stream that is not well nested has an
outline as well: closing lines that close nothing stay lines, and blocks that nothing closes reach
to the end of the stream. `Fills` says what lines leave in a block that is open or outside of every
block, and `FillsToEnd` what they leave when the stream ends behind them. Both follow the lines one
by one and tell the region of every block.

## Key results

- `Builder.Filled.feed`: one more line, `Builder.Filled.foldl_feed`: any number of lines
- `fillsToEnd_build`: the outline of a stream is what the stream leaves
-/

namespace JassOutline.Outline

/-! ### What lines leave -/

/-- A line in a block of the kind, or outside of every block, that opens nothing and does not close
the block. -/
def IsContent (kind? : Option BlockKind) (record : SourceLine) : Prop :=
  ∀ kind, LineRole.ofLine record ≠ .opens kind ∧
    (kind? = some kind → LineRole.ofLine record ≠ .closes kind)

/-- The end of an open block behind one more node. A line is the new end wherever it stands, and a
block only if it ends later than what is there. -/
def stopBehind (stop : Position) : Node → Position
  | .line record => record.region.stop
  | .block _ region _ _ => max stop region.stop

/-- What the lines leave in a block of the kind that is open, or outside of every block. All blocks
among it are closed. -/
inductive Fills : Option BlockKind → List SourceLine → List Node → Prop where
  | nil {kind? : Option BlockKind} : Fills kind? [] []
  | line {kind? : Option BlockKind} {record : SourceLine} {rest : List SourceLine}
      {nodes : List Node} :
    IsContent kind? record → Fills kind? rest nodes →
    Fills kind? (record :: rest) (.line record :: nodes)
  | block {kind? : Option BlockKind} {kind : BlockKind} {opener closer : SourceLine}
      {inside rest : List SourceLine} {children nodes : List Node} :
    LineRole.ofLine opener = .opens kind → LineRole.ofLine closer = .closes kind →
    Fills (some kind) inside children → Fills kind? rest nodes →
    Fills kind? (opener :: inside ++ closer :: rest)
      (.block kind ⟨opener.region.start, closer.region.stop⟩ true
        (headerNodes kind opener ++ children) :: nodes)

/-- What the lines leave if the stream ends behind them. A last block may be open then, and it holds
what the lines behind its opener leave. -/
inductive FillsToEnd : Option BlockKind → List SourceLine → List Node → Prop where
  | filled {kind? : Option BlockKind} {lines : List SourceLine} {nodes : List Node} :
    Fills kind? lines nodes → FillsToEnd kind? lines nodes
  | unclosed {kind? : Option BlockKind} {kind : BlockKind} {opener : SourceLine}
      {front inside : List SourceLine} {children nodes : List Node} :
    Fills kind? front nodes → LineRole.ofLine opener = .opens kind →
    FillsToEnd (some kind) inside children →
    FillsToEnd kind? (front ++ opener :: inside)
      (nodes ++ [.block kind ⟨opener.region.start, children.foldl stopBehind opener.region.stop⟩
        false (headerNodes kind opener ++ children)])

theorem Fills.append {kind? : Option BlockKind} {lines more : List SourceLine}
    {nodes moreNodes : List Node} (h : Fills kind? lines nodes)
    (hmore : Fills kind? more moreNodes) :
    Fills kind? (lines ++ more) (nodes ++ moreNodes) := by
  induction h with
  | nil => exact hmore
  | line hrecord _ ih => exact .line hrecord (ih hmore)
  | @block _ kind opener closer inside rest children nodes hopener hcloser hinside _ _ ih =>
    have hblock := Fills.block hopener hcloser hinside (ih hmore)
    rw [← List.cons_append, ← List.append_assoc] at hblock
    exact hblock

/-- Lines in front of the end of the stream. -/
theorem Fills.appendToEnd {kind? : Option BlockKind} {lines more : List SourceLine}
    {nodes moreNodes : List Node} (h : Fills kind? lines nodes)
    (hmore : FillsToEnd kind? more moreNodes) :
    FillsToEnd kind? (lines ++ more) (nodes ++ moreNodes) := by
  cases hmore with
  | filled hmore => exact .filled (h.append hmore)
  | unclosed hfront hopener hinside =>
    have hlast := FillsToEnd.unclosed (h.append hfront) hopener hinside
    rwa [List.append_assoc, List.append_assoc] at hlast

/-! ### Open blocks -/

/-- An open block holds its header and what the lines behind its opener leave, and ends with
them. -/
structure OpenBlock.Filled (frame : OpenBlock) (lines : List SourceLine) : Prop where
  role : LineRole.ofLine frame.opener = .opens frame.kind
  holds : ∃ inside children, lines = frame.opener :: inside ∧
    frame.children.toList = headerNodes frame.kind frame.opener ++ children ∧
    Fills (some frame.kind) inside children ∧
    frame.stop = children.foldl stopBehind frame.opener.region.stop

namespace OpenBlock.Filled

variable {frame : OpenBlock} {lines : List SourceLine} {record : SourceLine} {kind : BlockKind}

theorem ofLine (h : LineRole.ofLine record = .opens kind) :
    (OpenBlock.ofLine kind record).Filled [record] where
  role := h
  holds := by
    refine ⟨[], [], rfl, ?_, .nil, rfl⟩
    rw [OpenBlock.children_ofLine, List.append_nil]
    rfl

/-- The block with what is placed in it. -/
theorem grow {grown : OpenBlock} {more : List SourceLine} {nodes : List Node}
    (h : frame.Filled lines) (hnodes : Fills (some frame.kind) more nodes)
    (hopening : grown.opening = frame.opening)
    (hchildren : grown.children.toList = frame.children.toList ++ nodes)
    (hstop : grown.stop = nodes.foldl stopBehind frame.stop) : grown.Filled (lines ++ more) := by
  obtain ⟨hkind, hopener⟩ : grown.kind = frame.kind ∧ grown.opener = frame.opener := by
    simpa [OpenBlock.opening] using hopening
  obtain ⟨hrole, inside, children, rfl, hheld, hfills, hend⟩ := h
  rw [← hkind] at hfills hnodes
  exact {
    role := by rw [hopener, hkind, hrole]
    holds := by
      refine ⟨inside ++ more, children ++ nodes, ?_, ?_, hfills.append hnodes, ?_⟩
      · rw [hopener]
        rfl
      · rw [hchildren, hheld, hkind, hopener, List.append_assoc]
      · rw [hstop, hend, hopener, List.foldl_append] }

/-- A closed block among what is around it. -/
theorem close {kind? : Option BlockKind} (h : frame.Filled lines)
    (hrole : LineRole.ofLine record = .closes frame.kind) :
    Fills kind? (lines ++ [record]) [.ofBlock (frame.close record)] := by
  obtain ⟨hopens, inside, children, rfl, hheld, hfills, -⟩ := h
  have hblock : Fills kind? (frame.opener :: inside ++ record :: []) _ :=
    .block hopens hrole hfills .nil
  rw [← hheld] at hblock
  exact hblock

/-- A block that is left open, with the block that is left open inside it. -/
theorem abandon {kind? : Option BlockKind} {more : List SourceLine} {inner? : Option Block}
    (h : frame.Filled lines)
    (hinner : FillsToEnd (some frame.kind) more (inner?.toList.map .ofBlock)) :
    FillsToEnd kind? (lines ++ more)
      [.ofBlock (inner?.elim frame frame.addBlock).abandon] := by
  obtain ⟨hopens, inside, children, rfl, hheld, hfills, hend⟩ := h
  have hblock : FillsToEnd kind? ([] ++ frame.opener :: (inside ++ more)) _ :=
    .unclosed .nil hopens (hfills.appendToEnd hinner)
  rw [List.foldl_append, ← hend, ← List.append_assoc, ← hheld] at hblock
  rw [Node.ofBlock, Builder.children_abandon]
  cases inner? <;> exact hblock

end OpenBlock.Filled

namespace Builder

/-! ### The builder -/

/-- The open blocks hold what the lines since their openers leave, innermost first, and what lies
outside of every block is what the lines in front of them leave. -/
inductive Filled : List SourceLine → Builder → Prop where
  | outside {lines : List SourceLine} {top : Array Node} {warnings : Array Warning} :
    Fills none lines top.toList → Filled lines ⟨[], top, warnings⟩
  | inside {lines more : List SourceLine} {inner : OpenBlock} {outer : List OpenBlock}
      {top : Array Node} {warnings : Array Warning} :
    Filled lines ⟨outer, top, warnings⟩ → inner.Filled more →
    Filled (lines ++ more) ⟨inner :: outer, top, warnings⟩

namespace Filled

variable {lines more : List SourceLine} {builder : Builder} {record : SourceLine}

theorem warn (h : Filled lines builder) (warning : Warning) :
    Filled lines (builder.warn warning) := by
  obtain ⟨stack, top, warnings⟩ := builder
  show Filled lines ⟨stack, top, warnings.push warning⟩
  generalize warnings.push warning = later
  induction stack generalizing lines with
  | nil =>
    cases h with
    | outside htop => exact .outside htop
  | cons inner outer ih =>
    cases h with
    | inside houter hinner => exact .inside (ih houter) hinner

/-- A line that is no bracket where it stands. -/
theorem addLine (h : Filled lines builder)
    (hrecord : IsContent (builder.stack.head?.map OpenBlock.kind) record) :
    Filled (lines ++ [record]) (builder.addLine record) := by
  cases h with
  | outside htop =>
    refine .outside ?_
    rw [Array.toList_push]
    exact htop.append (.line hrecord .nil)
  | inside houter hinner =>
    rw [List.append_assoc]
    exact .inside houter (hinner.grow (.line hrecord .nil) rfl Array.toList_push rfl)

/-- A block that is closed becomes a child of what is open around it. -/
theorem attach {b : Block} (h : Filled lines builder)
    (hb : ∀ kind?, Fills kind? more [.ofBlock b]) :
    Filled (lines ++ more) (builder.attach builder.stack b) := by
  cases h with
  | outside htop =>
    refine .outside ?_
    rw [Array.toList_push]
    exact htop.append (hb none)
  | inside houter hinner =>
    rw [List.append_assoc]
    exact .inside houter (hinner.grow (hb _) rfl Array.toList_push rfl)

/-- One more line. -/
theorem feed (source : Nat) (h : Filled lines builder) :
    Filled (lines ++ [record]) (builder.feed source record) := by
  obtain ⟨kind, hrole, hfeed⟩ | ⟨inner, outer, hrole, hstack, hfeed⟩ |
    ⟨kind, hrole, hinner, hfeed⟩ | ⟨hrole, hfeed⟩ := feed_cases source builder record
  · rw [hfeed]
    exact .inside h (.ofLine hrole)
  · -- The block and its closing line go to what is open around the block
    obtain ⟨stack, top, warnings⟩ := builder
    subst hstack
    cases h with
    | inside houter hinner =>
      rw [hfeed, List.append_assoc]
      have hfilled := houter.attach fun kind? => hinner.close hrole
      cases outer <;> exact hfilled
  · rw [hfeed]
    refine (h.warn _).addLine fun other => ?_
    -- The innermost open block, if there is one, is of another kind
    refine ⟨by simp [hrole], fun hhead hclosed => ?_⟩
    obtain rfl : kind = other := by simpa [hrole] using hclosed
    rw [isInnermost, openings, List.head?_map, Option.map_map] at hinner
    exact absurd hhead (beq_eq_false_iff_ne.1 hinner)
  · rw [hfeed]
    exact h.addLine fun kind => ⟨(hrole kind).1, fun _ => (hrole kind).2⟩

theorem foldl_feed (source : Nat) (h : Filled lines builder) :
    Filled (lines ++ more) (more.foldl (Builder.feed source) builder) := by
  induction more generalizing lines builder with
  | nil => rwa [List.append_nil]
  | cons record rest ih =>
    have hrest : Filled (lines ++ [record] ++ rest) _ := ih (h.feed source)
    rwa [List.append_assoc] at hrest

/-- At the end of the stream each open block becomes the last child of the one around it. -/
theorem leftOpen {inner? : Option Block} {stack : List OpenBlock} {top : Array Node}
    {warnings : Array Warning} (h : Filled lines ⟨stack, top, warnings⟩)
    (hinner : ∀ kind?, FillsToEnd kind? more (inner?.toList.map .ofBlock)) :
    FillsToEnd none (lines ++ more)
      (top.toList ++ (Builder.leftOpen inner? stack).toList.map .ofBlock) := by
  induction stack generalizing lines more inner? with
  | nil =>
    cases h with
    | outside htop => exact htop.appendToEnd (hinner none)
  | cons frame outer ih =>
    cases h with
    | inside houter hframe =>
      -- With the inner block placed in it, this one is the inner block of what is around it
      rw [List.append_assoc]
      exact ih houter fun kind? => hframe.abandon (hinner _)

end Filled

end Builder

/-- The outline of a stream is what the stream leaves. -/
theorem fillsToEnd_build (source : Nat) (lines : List SourceLine) :
    FillsToEnd none lines (build source lines).1.nodes := by
  have hstart : Builder.Filled [] .start := .outside .nil
  have hfilled : Builder.Filled ([] ++ lines) _ := hstart.foldl_feed source
  rw [nodes_build]
  generalize lines.foldl (Builder.feed source) .start = builder at hfilled ⊢
  have hend : FillsToEnd none (lines ++ [])
      (builder.top.toList ++ (Builder.leftOpen none builder.stack).toList.map .ofBlock) :=
    hfilled.leftOpen fun _ => .filled .nil
  rwa [List.append_nil] at hend

end JassOutline.Outline
