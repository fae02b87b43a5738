import JassOutline.Proofs.Outline.Conservation
import JassOutline.Proofs.Outline.Nesting

/-!
# Warnings about nesting

`Outline.build` warns once about every closing line that it keeps, in the order of the stream, and
then once about every block that nothing closes, the innermost first. There is no warning exactly
if the openers and closers of the stream are balanced, and then the tree is the one forest that
they denote.

## Key results

- `Builder.warnings_foldl_feed`: the warnings recorded while a stream is read
- `unclosed_build`: the blocks that nothing closes are those left on the stack
- `balanced_of_no_warning`: a stream without warnings is balanced
- `warnings_build_iff_balanced`: the warnings of any stream, and when there are none
-/

namespace JassOutline.Outline

open Node

/-- The warning about a closing line, if it is kept. -/
def Arrival.stray? (source : Nat) (arrival : Arrival) : Option Warning :=
  match LineRole.ofLine arrival.record with
  | .closes kind =>
    if arrival.fate = .leaf then
      some (.onLine (Builder.strayProblem kind arrival.openings) arrival.record source)
    else none
  | _ => none

namespace Builder

@[simp] theorem warnings_addLine (builder : Builder) (record : SourceLine) :
    (builder.addLine record).warnings = builder.warnings := by
  unfold addLine
  split <;> rfl

@[simp] theorem warnings_attach (builder : Builder) (stack : List OpenBlock) (b : Block) :
    (builder.attach stack b).warnings = builder.warnings := by
  unfold attach
  split <;> rfl

/-- A line is warned about exactly if it is a closing line that is kept. -/
theorem warnings_feed (source : Nat) (builder : Builder) (record : SourceLine) :
    (builder.feed source record).warnings.toList =
      builder.warnings.toList ++
        ((Arrival.mk record builder.openings).stray? source).toList := by
  obtain ⟨kind, hrole, hfeed⟩ | ⟨inner, outer, hrole, hstack, hfeed⟩ |
    ⟨kind, hrole, hinner, hfeed⟩ | ⟨hrole, hfeed⟩ := feed_cases source builder record
  · simp [hfeed, Arrival.stray?, hrole]
  · simp [hfeed, Arrival.stray?, hrole, Arrival.fate_of_closes hrole,
      isInnermost_openings hstack]
  · simp [hfeed, Arrival.stray?, hrole, Arrival.fate_of_closes hrole, hinner, warn]
  · rw [hfeed, warnings_addLine, Arrival.stray?]
    split
    · next hcloses => exact absurd hcloses (hrole _).2
    · simp

/-- While a stream is read, the closing lines that are kept are warned about in their order. -/
theorem warnings_foldl_feed (source : Nat) (builder : Builder) (lines : List SourceLine) :
    (lines.foldl (feed source) builder).warnings.toList =
      builder.warnings.toList ++
        (arrivals builder.openings lines).filterMap (Arrival.stray? source) := by
  induction lines generalizing builder with
  | nil => simp [arrivals]
  | cons record rest ih =>
    rw [List.foldl_cons, ih, warnings_feed, openings_feed, arrivals, List.filterMap_cons]
    cases (Arrival.mk record builder.openings).stray? source <;> simp

end Builder

/-! ### Blocks that nothing closes -/

/-- Every block is closed. -/
def AllClosed (nodes : List Node) : Prop :=
  ∀ b ∈ blocksOfAll nodes, b.isClosed = true

/-- The blocks of the nodes that nothing closes, each before those inside it. -/
def unclosed (nodes : List Node) : List Block :=
  (blocksOfAll nodes).filter fun b => !b.isClosed

/-- How a block was opened, as far as the block itself shows it. -/
def Opening.ofBlock (b : Block) : BlockKind × Position :=
  (b.kind, b.region.start)

/-- The kind of an open block and the place where it opens. -/
def Opening.mark (opening : Opening) : BlockKind × Position :=
  (opening.kind, opening.opener.region.start)

theorem unclosed_append (a b : List Node) : unclosed (a ++ b) = unclosed a ++ unclosed b := by
  simp [unclosed]

theorem unclosed_eq_nil_iff {nodes : List Node} : unclosed nodes = [] ↔ AllClosed nodes := by
  simp [unclosed, AllClosed]

namespace Builder

/-- While a stream is read, all blocks that have been placed are closed. -/
theorem unclosed_foldl_feed (source : Nat) (lines : List SourceLine) (builder : Builder)
    (h : unclosed builder.content = []) :
    unclosed (lines.foldl (feed source) builder).content = [] := by
  induction lines generalizing builder with
  | nil => exact h
  | cons record rest ih =>
    apply ih _
    obtain ⟨kind, hrole, hfeed⟩ | ⟨inner, outer, hrole, hstack, hfeed⟩ |
      ⟨kind, hrole, hinner, hfeed⟩ | ⟨hrole, hfeed⟩ := feed_cases source builder record
    · rw [hfeed, unclosed, blocks_open]
      exact h
    · -- The block that is closed holds closed blocks only, for they have been placed before
      rw [content_of_stack hstack, unclosed_append, List.append_eq_nil_iff] at h
      rw [hfeed, content_attach, unclosed_append, h.1, List.nil_append, unclosed,
        blocksOfAll_ofBlock, List.filter_cons]
      simpa [OpenBlock.close, unclosed] using h.2
    · rw [hfeed, unclosed, blocks_addLine]
      exact h
    · rw [hfeed, unclosed, blocks_addLine]
      exact h

/-- The open blocks, folded into one, are the blocks that nothing closes, the outermost first. -/
theorem unclosed_leftOpen {frames : List OpenBlock} (inner? : Option Block)
    (h : ∀ frame ∈ frames, unclosed frame.children.toList = []) :
    (unclosed ((leftOpen inner? frames).toList.map Node.ofBlock)).map Opening.ofBlock =
      (frames.reverse.map fun frame => frame.opening.mark) ++
        (unclosed (inner?.toList.map Node.ofBlock)).map Opening.ofBlock := by
  induction frames generalizing inner? with
  | nil => simp [leftOpen]
  | cons frame outer ih =>
    -- The frame, with what was folded so far inside, is the one block that is not closed
    have hframe : unclosed ([frame].map fun _ => Node.ofBlock
        (inner?.elim frame frame.addBlock).abandon) =
        (inner?.elim frame frame.addBlock).abandon ::
          unclosed (inner?.toList.map Node.ofBlock) := by
      rw [List.map_singleton, unclosed, blocksOfAll_ofBlock, List.filter_cons, children_abandon,
        blocksOfAll_append, List.filter_append]
      simpa [OpenBlock.abandon, unclosed] using h frame (by simp)
    have hmark : Opening.ofBlock (inner?.elim frame frame.addBlock).abandon =
        frame.opening.mark := by
      cases inner? <;> rfl
    rw [leftOpen, ih _ fun f hf => h f (by simp [hf])]
    simp only [List.map_singleton] at hframe
    simp [hframe, hmark]

end Builder

/-- The blocks of the tree that nothing closes are those that are open behind the last line. In the
tree the outermost comes first. -/
theorem unclosed_build (source : Nat) (lines : List SourceLine) :
    (unclosed (build source lines).1.nodes).reverse.map Opening.ofBlock =
      (lines.foldl openingsAfter []).map Opening.mark := by
  have hclosed := Builder.unclosed_foldl_feed source lines .start rfl
  have hopenings := Builder.openings_foldl_feed source .start lines
  rw [nodes_build]
  generalize lines.foldl (Builder.feed source) .start = builder at hclosed hopenings ⊢
  rw [Builder.openings_start] at hopenings
  rw [Builder.content, unclosed_append, List.append_eq_nil_iff] at hclosed
  -- What stands inside the open blocks is part of the content
  have hframes : ∀ frame ∈ builder.stack, unclosed frame.children.toList = [] := by
    intro frame hframe
    obtain ⟨before, behind, hstack⟩ := List.append_of_mem hframe
    have h := hclosed.2
    rw [hstack] at h
    simp only [List.reverse_append, List.reverse_cons, List.flatMap_append, List.flatMap_cons,
      List.flatMap_nil, List.append_nil, unclosed_append, List.append_eq_nil_iff] at h
    exact h.1.2
  rw [unclosed_append, hclosed.1, List.nil_append, List.map_reverse,
    Builder.unclosed_leftOpen none hframes, ← hopenings, Builder.openings]
  simp [unclosed, blocksOfAll]

/-! ### Balanced streams -/

/-- The word closes blocks of the given kinds one after the other. -/
inductive Completes : List BlockKind → List Bracket → Prop where
  | balanced {word : List Bracket} : Balanced word → Completes [] word
  | close {kind : BlockKind} {kinds : List BlockKind} {inside rest : List Bracket} :
    Balanced inside → Completes kinds rest →
    Completes (kind :: kinds) (inside ++ .closes kind :: rest)

theorem Completes.opens {kind : BlockKind} {kinds : List BlockKind} {word : List Bracket}
    (h : Completes (kind :: kinds) word) : Completes kinds (.opens kind :: word) := by
  cases h with
  | close hinside hrest =>
    cases hrest with
    | balanced hrest => exact .balanced (.wrap hinside hrest)
    | close hinside' hrest =>
      rw [← List.cons_append, ← List.cons_append, ← List.append_assoc]
      exact .close (.wrap hinside hinside') hrest

/-- A stream that is not warned about and leaves no block open completes the open blocks. -/
theorem completes_of_no_stray (source : Nat) {openings : List Opening} {lines : List SourceLine}
    (hstray : (arrivals openings lines).filterMap (Arrival.stray? source) = [])
    (hopen : lines.foldl openingsAfter openings = []) :
    Completes (openings.map Opening.kind) (brackets lines) := by
  induction lines generalizing openings with
  | nil =>
    rw [List.foldl_nil] at hopen
    rw [hopen]
    exact .balanced .nil
  | cons record rest ih =>
    rw [arrivals, List.filterMap_cons] at hstray
    rw [List.foldl_cons] at hopen
    cases hstray? : (Arrival.mk record openings).stray? source with
    | some warning => simp [hstray?] at hstray
    | none =>
      rw [hstray?] at hstray
      have hrest := ih hstray hopen
      rw [brackets, List.filterMap_cons]
      cases hrole : LineRole.ofLine record with
      | opens kind =>
        -- The rest closes this block first and then the ones around it
        rw [openingsAfter, hrole] at hrest
        exact hrest.opens
      | closes kind =>
        -- A closing line without a warning closes the innermost block
        have hinner : isInnermost kind openings = true := by
          simpa [Arrival.stray?, hrole, Arrival.fate_of_closes hrole] using hstray?
        cases openings with
        | nil => simp [isInnermost] at hinner
        | cons opening outer =>
          obtain rfl : opening.kind = kind := by simpa [isInnermost] using hinner
          rw [openingsAfter, hrole] at hrest
          simp only [hinner, if_true, List.tail_cons] at hrest
          exact .close .nil hrest
      | _ =>
        rw [openingsAfter, hrole] at hrest
        exact hrest

/-- A stream without warnings is balanced. -/
theorem balanced_of_no_warning {source : Nat} {lines : List SourceLine}
    (h : (build source lines).2 = []) : Balanced (brackets lines) := by
  rw [warnings_build, Builder.warnings_foldl_feed, Builder.openings_foldl_feed,
    List.append_eq_nil_iff, List.append_eq_nil_iff, List.map_eq_nil_iff] at h
  obtain ⟨⟨-, hstray⟩, hopen⟩ := h
  cases completes_of_no_stray source hstray hopen with
  | balanced hword => exact hword

/-- The outline of any stream warns about the closing lines that are kept, in their order, and then
about the blocks that nothing closes, the innermost first. There is no warning exactly if the
openers and closers of the stream are balanced. Then every block is closed and the tree is the only
forest that the brackets denote. -/
theorem warnings_build_iff_balanced (source : Nat) (lines : List SourceLine) :
    (build source lines).2 =
      (arrivals [] lines).filterMap (Arrival.stray? source) ++
        (lines.foldl openingsAfter []).map (Builder.neverClosed source) ∧
    (unclosed (build source lines).1.nodes).reverse.map Opening.ofBlock =
      (lines.foldl openingsAfter []).map Opening.mark ∧
    ((build source lines).2 = [] ↔ Balanced (brackets lines)) ∧
    (Balanced (brackets lines) ↔
      Nests lines (build source lines).1.nodes ∧ AllClosed (build source lines).1.nodes) ∧
    ∀ nodes, Nests lines nodes ↔
      Balanced (brackets lines) ∧ nodes = (build source lines).1.nodes := by
  have hwarnings : (build source lines).2 =
      (arrivals [] lines).filterMap (Arrival.stray? source) ++
        (lines.foldl openingsAfter []).map (Builder.neverClosed source) := by
    rw [warnings_build, Builder.warnings_foldl_feed, Builder.openings_foldl_feed]
    rfl
  have hnests : Balanced (brackets lines) → Nests lines (build source lines).1.nodes := by
    intro hbalanced
    obtain ⟨nodes, hnodes⟩ := exists_nests_of_balanced hbalanced rfl
    rwa [(build_of_nests source hnodes).1]
  have hbalanced : ∀ nodes, Nests lines nodes → Balanced (brackets lines) := fun nodes hnodes =>
    balanced_of_no_warning (build_of_nests source hnodes).2
  -- Without a warning no block is open behind the last line
  have hclosed : (build source lines).2 = [] → AllClosed (build source lines).1.nodes := by
    intro hnone
    rw [hwarnings, List.append_eq_nil_iff, List.map_eq_nil_iff] at hnone
    have hunclosed := unclosed_build source lines
    rw [hnone.2, List.map_nil, List.map_eq_nil_iff, List.reverse_eq_nil_iff] at hunclosed
    exact unclosed_eq_nil_iff.1 hunclosed
  refine ⟨hwarnings, unclosed_build source lines, ⟨balanced_of_no_warning, fun h => ?_⟩,
    ⟨fun h => ?_, fun h => hbalanced _ h.1⟩, fun nodes => ⟨fun h => ?_, fun h => ?_⟩⟩
  · exact (build_of_nests source (hnests h)).2
  · exact ⟨hnests h, hclosed (build_of_nests source (hnests h)).2⟩
  · exact ⟨hbalanced nodes h, (build_of_nests source h).1.symm⟩
  · exact h.2 ▸ hnests h.1

end JassOutline.Outline
