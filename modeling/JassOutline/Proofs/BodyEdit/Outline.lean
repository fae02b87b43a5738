import JassOutline.Proofs.Outline.Diagnostics
import JassOutline.Proofs.Outline.Formation
import JassOutline.Proofs.Pairing.Outline

/-!
# Two outlines that differ inside of one block

Two texts start with the same lines. Then each has lines of its own, none of which opens or closes a
block, and behind those their lines are paired. The lines of their own go to the innermost block
that is open in front of them, and nothing else tells the two outlines apart. `Edited` says so about
nodes: it follows the blocks that were open, from the outermost to the innermost.

## Key results

- `Builder.Diverged.couples`: two builders that differ inside of one block keep doing so
- `edited_build`, `problems_edited`: the outlines and their warnings
-/

namespace JassOutline

/-- The line neither opens nor closes a block. -/
def SourceLine.IsInert (record : SourceLine) : Prop :=
  Outline.Bracket.ofRole? (LineRole.ofLine record) = none

instance (record : SourceLine) : Decidable record.IsInert :=
  inferInstanceAs (Decidable (_ = none))

namespace Outline

variable {pairing : Pairing}

/-- The nodes start with the given ones and differ behind them. The frames are blocks that were
open when the difference began, each holding what it held then, the outermost first. If there are
none, the difference consists of inert lines. Otherwise it lies in the first of the blocks, and
everything behind that block is paired. -/
inductive Edited (pairing : Pairing) :
    List Node → List OpenBlock → List Node → List Node → Prop where
  | here {before behind behind' : List Node} {body body' : List SourceLine} :
    (∀ record ∈ body, record.IsInert) → (∀ record ∈ body', record.IsInert) →
    pairing.Nodes behind behind' →
    Edited pairing before [] (before ++ (body.map .line ++ behind))
      (before ++ (body'.map .line ++ behind'))
  | inside {frame : OpenBlock} {frames : List OpenBlock} {stop stop' : Position} {isClosed : Bool}
      {before inside nodes nodes' behind behind' : List Node} :
    frame.children.toList = headerNodes frame.kind frame.opener ++ inside →
    Edited pairing inside frames nodes nodes' → pairing.Nodes behind behind' →
    Edited pairing before (frame :: frames)
      (before ++ .block frame.kind ⟨frame.opener.region.start, stop⟩ isClosed
        (headerNodes frame.kind frame.opener ++ nodes) :: behind)
      (before ++ .block frame.kind ⟨frame.opener.region.start, stop'⟩ isClosed
        (headerNodes frame.kind frame.opener ++ nodes') :: behind')

theorem Edited.append {before nodes nodes' more more' : List Node} {frames : List OpenBlock}
    (h : Edited pairing before frames nodes nodes') (hmore : pairing.Nodes more more') :
    Edited pairing before frames (nodes ++ more) (nodes' ++ more') := by
  cases h with
  | here hbody hbody' hbehind =>
    simp only [List.append_assoc]
    exact .here hbody hbody' (hbehind.append hmore)
  | inside hframe hinside hbehind =>
    simp only [List.append_assoc, List.cons_append]
    exact .inside hframe hinside (hbehind.append hmore)

/-- The nodes differ inside of the first of the frames. -/
theorem Edited.exists_block {before inside nodes nodes' : List Node} {frame : OpenBlock}
    {frames : List OpenBlock} (h : Edited pairing before (frame :: frames) nodes nodes')
    (hinside : frame.children.toList = headerNodes frame.kind frame.opener ++ inside) :
    ∃ stop stop' isClosed held held' behind behind',
      nodes = before ++ .block frame.kind ⟨frame.opener.region.start, stop⟩ isClosed
        (headerNodes frame.kind frame.opener ++ held) :: behind ∧
      nodes' = before ++ .block frame.kind ⟨frame.opener.region.start, stop'⟩ isClosed
        (headerNodes frame.kind frame.opener ++ held') :: behind' ∧
      Edited pairing inside frames held held' ∧ pairing.Nodes behind behind' := by
  cases h with
  | inside hchildren hedited hbehind =>
    -- Behind its header a block holds one list of nodes only
    obtain rfl := List.append_cancel_left (hinside.symm.trans hchildren)
    exact ⟨_, _, _, _, _, _, _, rfl, rfl, hedited, hbehind⟩

/-! ### Open blocks -/

/-- The block holds its header first, if its kind keeps one. -/
def OpenBlock.Headed (frame : OpenBlock) : Prop :=
  ∃ inside, frame.children.toList = headerNodes frame.kind frame.opener ++ inside

/-- What a block that was open when the texts began to differ has become in each of them. Inside of
it, the difference lies in the given frames. -/
structure EditedFrame (pairing : Pairing) (frame : OpenBlock) (frames : List OpenBlock)
    (grown grown' : OpenBlock) : Prop where
  opening : grown.opening = frame.opening
  opening' : grown'.opening = frame.opening
  children : ∃ inside nodes nodes',
    frame.children.toList = headerNodes frame.kind frame.opener ++ inside ∧
    grown.children.toList = headerNodes frame.kind frame.opener ++ nodes ∧
    grown'.children.toList = headerNodes frame.kind frame.opener ++ nodes' ∧
    Edited pairing inside frames nodes nodes'

namespace EditedFrame

variable {frame grown grown' : OpenBlock} {frames : List OpenBlock}

theorem kind_eq (h : EditedFrame pairing frame frames grown grown') : grown'.kind = grown.kind :=
  congrArg Opening.kind (h.opening'.trans h.opening.symm)

/-- Both blocks grow by paired nodes. -/
theorem grow {nodes nodes' : List Node} {larger larger' : OpenBlock}
    (h : EditedFrame pairing frame frames grown grown') (hnodes : pairing.Nodes nodes nodes')
    (hopening : larger.opening = grown.opening)
    (hchildren : larger.children.toList = grown.children.toList ++ nodes)
    (hopening' : larger'.opening = grown'.opening)
    (hchildren' : larger'.children.toList = grown'.children.toList ++ nodes') :
    EditedFrame pairing frame frames larger larger' := by
  obtain ⟨hgrown, hgrown', inside, held, held', hinside, hheld, hheld', hedited⟩ := h
  refine ⟨hopening.trans hgrown, hopening'.trans hgrown', inside, held ++ nodes, held' ++ nodes',
    hinside, ?_, ?_, hedited.append hnodes⟩
  · rw [hchildren, hheld, List.append_assoc]
  · rw [hchildren', hheld', List.append_assoc]

/-- The blocks that the two open blocks become, behind the nodes that were there before. -/
theorem block (h : EditedFrame pairing frame frames grown grown') (stop stop' : Position)
    (isClosed : Bool) (before : List Node) :
    Edited pairing before (frame :: frames)
      (before ++ [.ofBlock (grown.leave stop isClosed)])
      (before ++ [.ofBlock (grown'.leave stop' isClosed)]) := by
  obtain ⟨hgrown, hgrown', inside, nodes, nodes', hinside, hnodes, hnodes', hedited⟩ := h
  obtain ⟨hkind, hopener⟩ : grown.kind = frame.kind ∧ grown.opener = frame.opener := by
    simpa [OpenBlock.opening] using hgrown
  obtain ⟨hkind', hopener'⟩ : grown'.kind = frame.kind ∧ grown'.opener = frame.opener := by
    simpa [OpenBlock.opening] using hgrown'
  rw [Node.ofBlock, Node.ofBlock, OpenBlock.leave, OpenBlock.leave, hnodes, hnodes', hkind, hopener,
    hkind', hopener']
  exact .inside hinside hedited .nil

/-- The block around them, which holds them now. -/
theorem attach {around : OpenBlock} (h : EditedFrame pairing frame frames grown grown')
    (stop stop' : Position) (isClosed : Bool) (haround : around.Headed) :
    EditedFrame pairing around (frame :: frames)
      (around.addBlock (grown.leave stop isClosed))
      (around.addBlock (grown'.leave stop' isClosed)) := by
  obtain ⟨inside, hinside⟩ := haround
  refine ⟨rfl, rfl, inside, inside ++ [.ofBlock (grown.leave stop isClosed)],
    inside ++ [.ofBlock (grown'.leave stop' isClosed)], hinside, ?_, ?_,
    h.block stop stop' isClosed inside⟩
  · simp [OpenBlock.addBlock, hinside]
  · simp [OpenBlock.addBlock, hinside]

end EditedFrame

/-! ### The builder -/

namespace Builder

/-- Inert lines go where the builder is. -/
theorem places_of_inert (source : Nat) {body : List SourceLine}
    (hbody : ∀ record ∈ body, record.IsInert) (builder : Builder) :
    Places (body.map .line) builder (body.foldl (feed source) builder) := by
  have hnests := Nests.nil.plain_append hbody
  rw [List.append_nil, List.append_nil] at hnests
  exact places_of_nests source hnests builder

theorem Filled.headed {lines : List SourceLine} {builder : Builder} (h : Filled lines builder)
    {frame : OpenBlock} (hframe : frame ∈ builder.stack) : frame.Headed := by
  induction h with
  | outside => cases hframe
  | inside _ hinner ih =>
    cases hframe with
    | head =>
      obtain ⟨-, -, children, -, hchildren, -⟩ := hinner
      exact ⟨children, hchildren⟩
    | tail _ hmem => exact ih hmem

/-- Whatever lines have been read, the open blocks hold their headers. -/
theorem headed_foldl_feed (source : Nat) (lines : List SourceLine) :
    ∀ frame ∈ (lines.foldl (feed source) start).stack, frame.Headed := by
  intro frame hframe
  have hstart : Filled [] start := .outside .nil
  have hfilled : Filled ([] ++ lines) _ := hstart.foldl_feed source
  exact hfilled.headed hframe

/-- What two builders hold that were the same at the origin and have been fed different inert lines
since. The frames have been closed since then. -/
inductive EditedContent (pairing : Pairing) (origin : Builder) : Builder → Builder → Prop where
  /-- The difference lies in a block that is still open. -/
  | inside {frame grown grown' : OpenBlock} {frames outer inner inner' : List OpenBlock}
      {warnings warnings' : Array Warning} :
    origin.stack = frames.reverse ++ frame :: outer →
    EditedFrame pairing frame frames grown grown' →
    List.Forall₂ (PairedFrame pairing) inner inner' →
    EditedContent pairing origin ⟨inner ++ grown :: outer, origin.top, warnings⟩
      ⟨inner' ++ grown' :: outer, origin.top, warnings'⟩
  /-- The difference lies outside of the blocks that are open. -/
  | outside {stack stack' : List OpenBlock} {top top' : Array Node}
      {warnings warnings' : Array Warning} :
    Edited pairing origin.top.toList origin.stack.reverse top.toList top'.toList →
    List.Forall₂ (PairedFrame pairing) stack stack' →
    EditedContent pairing origin ⟨stack, top, warnings⟩ ⟨stack', top', warnings'⟩

namespace EditedContent

variable {origin builder builder' : Builder}

theorem kinds (h : EditedContent pairing origin builder builder') :
    builder'.stack.map OpenBlock.kind = builder.stack.map OpenBlock.kind := by
  cases h with
  | inside _ hframe hinner =>
    rw [List.map_append, List.map_append, List.map_cons, List.map_cons, forall₂_kinds hinner,
      hframe.kind_eq]
  | outside _ hstack => exact forall₂_kinds hstack

/-- Warnings do not matter. -/
theorem withWarnings (h : EditedContent pairing origin builder builder')
    (warnings warnings' : Array Warning) :
    EditedContent pairing origin { builder with warnings }
      { builder' with warnings := warnings' } := by
  cases h with
  | inside horigin hframe hinner => exact .inside horigin hframe hinner
  | outside hedited hstack => exact .outside hedited hstack

/-- Both builders open a block. -/
theorem enter {record record' : SourceLine} (h : EditedContent pairing origin builder builder')
    (kind : BlockKind) (hline : pairing.pairs record record') :
    EditedContent pairing origin { builder with stack := .ofLine kind record :: builder.stack }
      { builder' with stack := .ofLine kind record' :: builder'.stack } := by
  have hopened := PairedFrame.ofLine hline kind
  cases h with
  | inside horigin hframe hinner => exact .inside horigin hframe (.cons hopened hinner)
  | outside hedited hstack => exact .outside hedited (.cons hopened hstack)

/-- Both builders place nodes that are paired. -/
theorem place {placed placed' : Builder} {nodes nodes' : List Node}
    (h : EditedContent pairing origin builder builder') (hnodes : pairing.Nodes nodes nodes')
    (hplaced : Places nodes builder placed) (hplaced' : Places nodes' builder' placed') :
    EditedContent pairing origin placed placed' := by
  cases h with
  | inside horigin hframe hinner =>
    -- The nodes go to the innermost block, which may be the one with the difference
    cases hinner with
    | nil =>
      cases hplaced with
      | inside hopening hchildren =>
        cases hplaced' with
        | inside hopening' hchildren' =>
          exact .inside horigin (hframe.grow hnodes hopening hchildren hopening' hchildren') .nil
    | cons hhead hrest =>
      cases hplaced with
      | inside hopening hchildren =>
        cases hplaced' with
        | inside hopening' hchildren' =>
          exact .inside horigin hframe
            (.cons (hhead.grow hnodes hopening hchildren hopening' hchildren') hrest)
  | outside hedited hstack =>
    obtain ⟨hplacedStack, htops⟩ := paired_of_places hstack hnodes hplaced hplaced'
    obtain ⟨_, top, _⟩ := placed
    obtain ⟨_, top', _⟩ := placed'
    refine .outside ?_ hplacedStack
    obtain ⟨rfl, rfl⟩ | ⟨htop, htop'⟩ := htops
    · exact hedited
    · rw [htop, htop']
      exact hedited.append hnodes

/-- A block goes to what is open around it. -/
theorem attach {outer outer' : List OpenBlock} {b b' : Block}
    (h : EditedContent pairing origin { builder with stack := outer }
      { builder' with stack := outer' }) (hb : pairing.Nodes [.ofBlock b] [.ofBlock b']) :
    EditedContent pairing origin (builder.attach outer b) (builder'.attach outer' b') :=
  h.place hb (places_attach builder outer b) (places_attach builder' outer' b')

/-- Both builders close what is innermost, or leave it open. -/
theorem leave {inner inner' : OpenBlock} {outer outer' : List OpenBlock}
    (hheaded : ∀ frame ∈ origin.stack, frame.Headed)
    (h : EditedContent pairing origin builder builder') (hstack : builder.stack = inner :: outer)
    (hstack' : builder'.stack = inner' :: outer') (stop stop' : Position) (isClosed : Bool) :
    EditedContent pairing origin (builder.attach outer (inner.leave stop isClosed))
      (builder'.attach outer' (inner'.leave stop' isClosed)) := by
  cases h with
  | @inside frame _ _ frames around _ _ _ _ horigin hframe hinner =>
    cases hinner with
    | nil =>
      obtain ⟨rfl, rfl⟩ := List.cons.inj hstack
      obtain ⟨rfl, rfl⟩ := List.cons.inj hstack'
      -- The block with the difference goes to what has been open around it from the start
      cases around with
      | nil =>
        refine .outside ?_ .nil
        rw [Array.toList_push, Array.toList_push, horigin, List.reverse_append,
          List.reverse_reverse]
        exact hframe.block stop stop' isClosed _
      | cons next rest =>
        have hnext := hheaded next (by rw [horigin]; simp)
        have horigin' : origin.stack = (frame :: frames).reverse ++ next :: rest := by
          rw [horigin, List.reverse_cons, List.append_assoc, List.singleton_append]
        exact .inside horigin' (hframe.attach stop stop' isClosed hnext) .nil
    | cons hhead hrest =>
      obtain ⟨rfl, rfl⟩ := List.cons.inj hstack
      obtain ⟨rfl, rfl⟩ := List.cons.inj hstack'
      exact attach (.inside horigin hframe hrest) (hhead.block stop stop' isClosed)
  | @outside stack stack' _ _ _ _ hedited hpaired =>
    obtain rfl : stack = inner :: outer := hstack
    obtain rfl : stack' = inner' :: outer' := hstack'
    obtain ⟨hhead, hrest⟩ := List.forall₂_cons.1 hpaired
    exact attach (.outside hedited hrest) (hhead.block stop stop' isClosed)

/-- When no block is open, the difference lies outside of the open blocks. -/
theorem edited (h : EditedContent pairing origin builder builder') (hstack : builder.stack = []) :
    Edited pairing origin.top.toList origin.stack.reverse builder.top.toList
      builder'.top.toList := by
  cases h with
  | inside => simp at hstack
  | outside hedited _ => exact hedited

end EditedContent

/-- The builders differ as two builders do that were fed different inert lines at the origin, and
they have recorded the same problems. -/
structure Diverged (pairing : Pairing) (origin builder builder' : Builder) : Prop where
  content : EditedContent pairing origin builder builder'
  problems : builder'.warnings.toList.map Warning.problem =
    builder.warnings.toList.map Warning.problem

namespace Diverged

variable {origin : Builder}

/-- Builders that differ take the same steps. -/
theorem couples (hheaded : ∀ frame ∈ origin.stack, frame.Headed) :
    Couples pairing (Diverged pairing origin) where
  kinds h := h.content.kinds
  warn h hproblem := ⟨h.content.withWarnings _ _, by simp [Builder.warn, h.problems, hproblem]⟩
  place h hnodes hplaced hplaced' := by
    refine ⟨h.content.place hnodes hplaced hplaced', ?_⟩
    rw [hplaced.warnings_eq, hplaced'.warnings_eq, h.problems]
  enter kind h hline := ⟨h.content.enter kind hline, h.problems⟩
  leave stop stop' isClosed h hstack hstack' := by
    refine ⟨h.content.leave hheaded hstack hstack' stop stop' isClosed, ?_⟩
    rw [warnings_attach, warnings_attach, h.problems]

/-- Inert lines of their own lead two builders apart. -/
theorem of_inert (source : Nat) {frame : OpenBlock} {outer : List OpenBlock}
    {body body' : List SourceLine} (hstack : origin.stack = frame :: outer)
    (hheaded : frame.Headed) (hbody : ∀ record ∈ body, record.IsInert)
    (hbody' : ∀ record ∈ body', record.IsInert) :
    Diverged pairing origin (body.foldl (Builder.feed source) origin)
      (body'.foldl (Builder.feed source) origin) := by
  have hplaces := places_of_inert source hbody origin
  have hplaces' := places_of_inert source hbody' origin
  refine ⟨?_, by rw [hplaces.warnings_eq, hplaces'.warnings_eq]⟩
  generalize body.foldl (Builder.feed source) origin = placed at hplaces ⊢
  generalize body'.foldl (Builder.feed source) origin = placed' at hplaces' ⊢
  obtain ⟨stack, top, warnings⟩ := origin
  obtain rfl : stack = frame :: outer := hstack
  obtain ⟨inside, hinside⟩ := hheaded
  -- Both bodies go to the innermost block, behind what it holds already
  have hedited : Edited pairing inside [] (inside ++ (body.map .line ++ []))
      (inside ++ (body'.map .line ++ [])) := .here hbody hbody' .nil
  rw [List.append_nil, List.append_nil] at hedited
  cases hplaces with
  | inside hopening hchildren =>
    cases hplaces' with
    | inside hopening' hchildren' =>
      rw [hinside, List.append_assoc] at hchildren hchildren'
      have horigin : frame :: outer = ([] : List OpenBlock).reverse ++ frame :: outer := rfl
      exact .inside horigin
        ⟨hopening, hopening', inside, _, _, hinside, hchildren, hchildren', hedited⟩ .nil

end Diverged

end Builder

section Build

variable (source : Nat) {before body body' behind behind' : List SourceLine} {frame : OpenBlock}
  {outer : List OpenBlock}
  (hstack : (before.foldl (Builder.feed source) .start).stack = frame :: outer)
  (hbody : ∀ record ∈ body, record.IsInert) (hbody' : ∀ record ∈ body', record.IsInert)
  (hbehind : pairing.Lines behind behind')

include hstack hbody hbody' hbehind

theorem Builder.Diverged.build :
    Builder.Diverged pairing (before.foldl (Builder.feed source) .start)
      (((before ++ body ++ behind).foldl (Builder.feed source) .start).finish source)
      (((before ++ body' ++ behind').foldl (Builder.feed source) .start).finish source) := by
  have hheaded := Builder.headed_foldl_feed source before
  have hbodies : Builder.Diverged pairing _ _ _ :=
    .of_inert source hstack (hheaded frame (by simp [hstack])) hbody hbody'
  have hcouples : Builder.Couples pairing _ := Builder.Diverged.couples hheaded
  simp only [List.foldl_append]
  exact hcouples.finish source (hcouples.foldl_feed source hbodies hbehind)

/-- The outlines of the two texts differ inside of the block that is innermost in front of the lines
of their own. -/
theorem edited_build :
    Edited pairing (before.foldl (Builder.feed source) .start).top.toList
      (before.foldl (Builder.feed source) .start).stack.reverse
      (build source (before ++ body ++ behind)).1.nodes
      (build source (before ++ body' ++ behind')).1.nodes :=
  (Builder.Diverged.build source hstack hbody hbody' hbehind).content.edited
    (Builder.stack_finish source _)

theorem problems_edited :
    (build source (before ++ body' ++ behind')).2.map Warning.problem =
      (build source (before ++ body ++ behind)).2.map Warning.problem :=
  (Builder.Diverged.build source hstack hbody hbody' hbehind).problems

end Build

end Outline

end JassOutline
