import Mathlib.Data.List.Forall2
import JassOutline.Proofs.Outline.Nesting
import JassOutline.Proofs.Outline.Shape

/-!
# Two outlines built side by side

A `Pairing` says which lines of two texts answer to each other. Lines that do mean the same to the
outline, and the first text may have comments that nothing answers to. Fed with paired lines, two
builders go through the same steps: what they hold is paired, and they record the same problems.

A relation that `Couples` two builders survives every such step. That what they hold is paired is
one such relation.

## Key results

- `Builder.Couples.feed`, `Builder.Couples.foldl_feed`, `Builder.Couples.finish`: what couples two
  builders survives one line, all lines of a text, and its end
- `Builder.Paired.couples`: paired builders stay paired
- `paired_build`, `problems_paired`: the outlines and their warnings
- `Pairing.Nodes.shapes`: the shapes of the outlines
-/

namespace JassOutline

/-- How the lines of two texts answer to each other. -/
structure Pairing where
  /-- The line of the first text has no line that answers to it. -/
  drops : SourceLine → Prop
  pairs : SourceLine → SourceLine → Prop
  /-- Only a comment may be missing. -/
  role_of_drops : ∀ {record}, drops record → LineRole.ofLine record = .comment
  role_eq : ∀ {record record'}, pairs record record' →
    LineRole.ofLine record' = LineRole.ofLine record

/-- The lines of the second text are those that answer to the lines of the first one. -/
inductive Pairing.Lines (pairing : Pairing) : List SourceLine → List SourceLine → Prop where
  | nil : pairing.Lines [] []
  | drop {record : SourceLine} {lines lines' : List SourceLine} :
    pairing.drops record → pairing.Lines lines lines' → pairing.Lines (record :: lines) lines'
  | pair {record record' : SourceLine} {lines lines' : List SourceLine} :
    pairing.pairs record record' → pairing.Lines lines lines' →
    pairing.Lines (record :: lines) (record' :: lines')

variable {pairing : Pairing}

/-- The lines of the nodes are paired, the headers of blocks included, and no block is missing. -/
inductive Pairing.Nodes (pairing : Pairing) : List Node → List Node → Prop where
  | nil : pairing.Nodes [] []
  | comment {record : SourceLine} {nodes nodes' : List Node} :
    pairing.drops record → pairing.Nodes nodes nodes' →
    pairing.Nodes (.line record :: nodes) nodes'
  | line {record record' : SourceLine} {nodes nodes' : List Node} :
    pairing.pairs record record' → pairing.Nodes nodes nodes' →
    pairing.Nodes (.line record :: nodes) (.line record' :: nodes')
  | block {kind : BlockKind} {region region' : Region} {isClosed : Bool}
      {opener opener' : SourceLine} {inside inside' nodes nodes' : List Node} :
    pairing.pairs opener opener' → pairing.Nodes inside inside' → pairing.Nodes nodes nodes' →
    pairing.Nodes
      (.block kind region isClosed (Outline.headerNodes kind opener ++ inside) :: nodes)
      (.block kind region' isClosed (Outline.headerNodes kind opener' ++ inside') :: nodes')

theorem Pairing.Nodes.append {a a' b b' : List Node} (ha : pairing.Nodes a a')
    (hb : pairing.Nodes b b') : pairing.Nodes (a ++ b) (a' ++ b') := by
  induction ha with
  | nil => exact hb
  | comment hrole _ ih => exact .comment hrole ih
  | line hline _ ih => exact .line hline ih
  | block hopener hinside _ _ ih => exact .block hopener hinside ih

namespace Outline

/-! ### Open blocks -/

/-- The block that an open block becomes when it is closed or left open. -/
def OpenBlock.leave (frame : OpenBlock) (stop : Position) (isClosed : Bool) : Block :=
  ⟨frame.kind, ⟨frame.opener.region.start, stop⟩, isClosed, frame.children.toList⟩

/-- Two blocks of the same kind, whose openers and whose nodes are paired. -/
structure PairedFrame (pairing : Pairing) (frame frame' : OpenBlock) : Prop where
  kind : frame'.kind = frame.kind
  opener : pairing.pairs frame.opener frame'.opener
  children : ∃ inside inside',
    frame.children.toList = headerNodes frame.kind frame.opener ++ inside ∧
    frame'.children.toList = headerNodes frame.kind frame'.opener ++ inside' ∧
    pairing.Nodes inside inside'

namespace PairedFrame

variable {frame frame' : OpenBlock} {nodes nodes' : List Node}

theorem ofLine {record record' : SourceLine} (h : pairing.pairs record record') (kind : BlockKind) :
    PairedFrame pairing (.ofLine kind record) (.ofLine kind record') where
  kind := rfl
  opener := h
  children := by
    refine ⟨[], [], ?_, ?_, .nil⟩
    · rw [OpenBlock.children_ofLine, List.append_nil]
      rfl
    · rw [OpenBlock.children_ofLine, List.append_nil]
      rfl

/-- Both blocks grow by the same nodes. -/
theorem grow {grown grown' : OpenBlock} (h : PairedFrame pairing frame frame')
    (hnodes : pairing.Nodes nodes nodes') (hopening : grown.opening = frame.opening)
    (hchildren : grown.children.toList = frame.children.toList ++ nodes)
    (hopening' : grown'.opening = frame'.opening)
    (hchildren' : grown'.children.toList = frame'.children.toList ++ nodes') :
    PairedFrame pairing grown grown' := by
  obtain ⟨hkind, hopener, inside, inside', hinside, hinside', hpaired⟩ := h
  obtain ⟨hkindEq, hopenerEq⟩ : grown.kind = frame.kind ∧ grown.opener = frame.opener := by
    simpa [OpenBlock.opening] using hopening
  obtain ⟨hkindEq', hopenerEq'⟩ : grown'.kind = frame'.kind ∧ grown'.opener = frame'.opener := by
    simpa [OpenBlock.opening] using hopening'
  refine ⟨by rw [hkindEq, hkindEq', hkind], by rwa [hopenerEq, hopenerEq'], inside ++ nodes,
    inside' ++ nodes', ?_, ?_, hpaired.append hnodes⟩
  · rw [hchildren, hinside, hkindEq, hopenerEq, List.append_assoc]
  · rw [hchildren', hinside', hkindEq, hopenerEq', List.append_assoc]

/-- The blocks that the two open blocks become. -/
theorem block (h : PairedFrame pairing frame frame') (stop stop' : Position) (isClosed : Bool) :
    pairing.Nodes [.ofBlock (frame.leave stop isClosed)]
      [.ofBlock (frame'.leave stop' isClosed)] := by
  obtain ⟨hkind, hopener, inside, inside', hinside, hinside', hpaired⟩ := h
  rw [OpenBlock.leave, OpenBlock.leave, Node.ofBlock, Node.ofBlock, hinside, hinside', hkind]
  exact .block hopener hpaired .nil

end PairedFrame

/-- Paired blocks are of the same kinds. -/
theorem forall₂_kinds {frames frames' : List OpenBlock}
    (h : List.Forall₂ (PairedFrame pairing) frames frames') :
    frames'.map OpenBlock.kind = frames.map OpenBlock.kind := by
  induction h with
  | nil => rfl
  | cons hframe _ ih => rw [List.map_cons, List.map_cons, hframe.kind, ih]

/-! ### The builder -/

namespace Builder

/-- A relation between two builders that holds on as long as both take the same steps: they place
nodes that are paired, open blocks at paired lines, close what is innermost, and warn of the same
problem. -/
structure Couples (pairing : Pairing) (R : Builder → Builder → Prop) : Prop where
  kinds : ∀ {builder builder'}, R builder builder' →
    builder'.stack.map OpenBlock.kind = builder.stack.map OpenBlock.kind
  warn : ∀ {builder builder'} {warning warning' : Warning}, R builder builder' →
    warning'.problem = warning.problem → R (builder.warn warning) (builder'.warn warning')
  place : ∀ {builder builder' placed placed' nodes nodes'}, R builder builder' →
    pairing.Nodes nodes nodes' → Places nodes builder placed → Places nodes' builder' placed' →
    R placed placed'
  enter : ∀ {builder builder' record record'} (kind : BlockKind), R builder builder' →
    pairing.pairs record record' →
    R { builder with stack := .ofLine kind record :: builder.stack }
      { builder' with stack := .ofLine kind record' :: builder'.stack }
  leave : ∀ {builder builder' frame frame' outer outer'} (stop stop' : Position)
    (isClosed : Bool), R builder builder' → builder.stack = frame :: outer →
    builder'.stack = frame' :: outer' →
    R (builder.attach outer (frame.leave stop isClosed))
      (builder'.attach outer' (frame'.leave stop' isClosed))

namespace Couples

variable {R : Builder → Builder → Prop} (hcouples : Couples pairing R)
variable {builder builder' : Builder} {record record' : SourceLine}

include hcouples

theorem addLine (h : R builder builder') (hline : pairing.pairs record record') :
    R (builder.addLine record) (builder'.addLine record') :=
  hcouples.place h (.line hline .nil) (places_addLine builder record)
    (places_addLine builder' record')

/-- A closing line that closes nothing. -/
theorem stray (source : Nat) (h : R builder builder') (hline : pairing.pairs record record')
    (problem : Problem) :
    R ((builder.warn (.onLine problem record source)).addLine record)
      ((builder'.warn (.onLine problem record' source)).addLine record') :=
  hcouples.addLine (hcouples.warn h rfl) hline

theorem close (source : Nat) (h : R builder builder') (hline : pairing.pairs record record')
    (kind : BlockKind) :
    R (builder.close source kind record) (builder'.close source kind record') := by
  have hkinds := hcouples.kinds h
  unfold Builder.close
  -- Both stacks are empty, or the innermost blocks are of the same kind
  cases hstack : builder.stack with
  | nil =>
    obtain hstack' : builder'.stack = [] := by simpa [hstack] using hkinds
    simp only [hstack']
    exact hcouples.stray source h hline (.closerUnmatched kind)
  | cons inner outer =>
    rw [hstack, List.map_cons] at hkinds
    obtain ⟨inner', outer', hstack', hinner, -⟩ := List.map_eq_cons_iff.1 hkinds
    simp only [hstack', hinner]
    split
    · exact hcouples.leave _ _ true h hstack hstack'
    · exact hcouples.stray source h hline (.closerMismatched kind inner.kind)

/-- One line for each of the builders. -/
theorem feed (source : Nat) (h : R builder builder') (hline : pairing.pairs record record') :
    R (builder.feed source record) (builder'.feed source record') := by
  unfold Builder.feed
  rw [pairing.role_eq hline]
  -- The role decides, and it is the same for both lines
  cases LineRole.ofLine record with
  | opens kind => exact hcouples.enter kind h hline
  | closes kind => exact hcouples.close source h hline kind
  | _ => exact hcouples.addLine h hline

/-- A comment is a line of the first builder only. -/
theorem feed_comment (source : Nat) (h : R builder builder') (hdrop : pairing.drops record) :
    R (builder.feed source record) builder' := by
  unfold Builder.feed
  rw [pairing.role_of_drops hdrop]
  exact hcouples.place h (.comment hdrop .nil) (places_addLine builder record) (.nil builder')

/-- All lines of two texts. -/
theorem foldl_feed (source : Nat) {lines lines' : List SourceLine} (h : R builder builder')
    (hlines : pairing.Lines lines lines') :
    R (lines.foldl (Builder.feed source) builder)
      (lines'.foldl (Builder.feed source) builder') := by
  induction hlines generalizing builder builder' with
  | nil => exact h
  | drop hdrop _ ih => exact ih (hcouples.feed_comment source h hdrop)
  | pair hline _ ih => exact ih (hcouples.feed source h hline)

/-- The end of both texts. -/
theorem finish (source : Nat) (h : R builder builder') :
    R (builder.finish source) (builder'.finish source) := by
  have hkinds := hcouples.kinds h
  -- Each block that is left open leaves one block less on the stacks
  induction hlength : builder.stack.length generalizing builder builder' with
  | zero =>
    have hstack := List.eq_nil_of_length_eq_zero hlength
    obtain hstack' : builder'.stack = [] := by simpa [hstack] using hkinds
    rwa [finish_nil hstack, finish_nil hstack']
  | succ n ih =>
    obtain ⟨inner, outer, hstack⟩ := List.exists_cons_of_length_eq_add_one hlength
    rw [hstack, List.map_cons] at hkinds
    obtain ⟨inner', outer', hstack', hinner, -⟩ := List.map_eq_cons_iff.1 hkinds
    have hproblem : (neverClosed source inner'.opening).problem =
        (neverClosed source inner.opening).problem := congrArg Problem.blockNeverClosed hinner
    have hleft := hcouples.leave inner.stop inner'.stop false (hcouples.warn h hproblem) hstack
      hstack'
    rw [finish_cons hstack, finish_cons hstack']
    refine ih hleft (hcouples.kinds hleft) ?_
    rw [length_stack_attach]
    simpa [hstack] using hlength

end Couples

/-- Builders whose stacks are paired place paired nodes: both in the innermost of their blocks, or
both outside of all blocks. -/
theorem paired_of_places {builder builder' placed placed' : Builder} {nodes nodes' : List Node}
    (hstack : List.Forall₂ (PairedFrame pairing) builder.stack builder'.stack)
    (hnodes : pairing.Nodes nodes nodes') (hplaced : Places nodes builder placed)
    (hplaced' : Places nodes' builder' placed') :
    List.Forall₂ (PairedFrame pairing) placed.stack placed'.stack ∧
      ((placed.top = builder.top ∧ placed'.top = builder'.top) ∨
        (placed.top.toList = builder.top.toList ++ nodes ∧
          placed'.top.toList = builder'.top.toList ++ nodes')) := by
  cases hplaced with
  | outside htop =>
    cases hplaced' with
    | outside htop' => exact ⟨.nil, .inr ⟨htop, htop'⟩⟩
    | inside => cases hstack
  | inside hopening hchildren =>
    cases hplaced' with
    | outside => cases hstack
    | inside hopening' hchildren' =>
      obtain ⟨hframe, houter⟩ := List.forall₂_cons.1 hstack
      exact ⟨.cons (hframe.grow hnodes hopening hchildren hopening' hchildren') houter,
        .inl ⟨rfl, rfl⟩⟩

/-- What the builders hold is paired, and they have recorded the same problems. -/
structure Paired (pairing : Pairing) (builder builder' : Builder) : Prop where
  stack : List.Forall₂ (PairedFrame pairing) builder.stack builder'.stack
  top : pairing.Nodes builder.top.toList builder'.top.toList
  problems : builder'.warnings.toList.map Warning.problem =
    builder.warnings.toList.map Warning.problem

namespace Paired

variable {builder builder' : Builder} {record record' : SourceLine}

theorem start : Paired pairing .start .start := ⟨.nil, .nil, rfl⟩

/-- Both builders place the same nodes. -/
theorem place {placed placed' : Builder} {nodes nodes' : List Node}
    (h : Paired pairing builder builder') (hnodes : pairing.Nodes nodes nodes')
    (hplaced : Places nodes builder placed) (hplaced' : Places nodes' builder' placed') :
    Paired pairing placed placed' := by
  obtain ⟨hstack, htops⟩ := paired_of_places h.stack hnodes hplaced hplaced'
  refine ⟨hstack, ?_, by rw [hplaced.warnings_eq, hplaced'.warnings_eq, h.problems]⟩
  obtain ⟨htop, htop'⟩ | ⟨htop, htop'⟩ := htops
  · rw [htop, htop']
    exact h.top
  · rw [htop, htop']
    exact h.top.append hnodes

/-- A block goes to what is open around it. -/
theorem attach {outer outer' : List OpenBlock} {b b' : Block} (h : Paired pairing builder builder')
    (houter : List.Forall₂ (PairedFrame pairing) outer outer')
    (hb : pairing.Nodes [.ofBlock b] [.ofBlock b']) :
    Paired pairing (builder.attach outer b) (builder'.attach outer' b') := by
  have hout : Paired pairing { builder with stack := outer } { builder' with stack := outer' } :=
    ⟨houter, h.top, h.problems⟩
  exact hout.place hb (places_attach builder outer b) (places_attach builder' outer' b')

theorem couples : Couples pairing (Paired pairing) where
  kinds h := forall₂_kinds h.stack
  warn h hproblem := ⟨h.stack, h.top, by simp [Builder.warn, h.problems, hproblem]⟩
  place h := h.place
  enter kind h hline := ⟨.cons (.ofLine hline kind) h.stack, h.top, h.problems⟩
  leave stop stop' isClosed h hstack hstack' := by
    have hframes := h.stack
    rw [hstack, hstack'] at hframes
    obtain ⟨hframe, houter⟩ := List.forall₂_cons.1 hframes
    exact h.attach houter (hframe.block stop stop' isClosed)

end Paired

end Builder

section Build

variable (source : Nat) {lines lines' : List SourceLine} (h : pairing.Lines lines lines')

include h

theorem Builder.Paired.build :
    Builder.Paired pairing ((lines.foldl (Builder.feed source) .start).finish source)
      ((lines'.foldl (Builder.feed source) .start).finish source) :=
  couples.finish source (couples.foldl_feed source start h)

/-- Paired lines have outlines that are paired. -/
theorem paired_build :
    pairing.Nodes (build source lines).1.nodes (build source lines').1.nodes :=
  (Builder.Paired.build source h).top

theorem problems_paired :
    (build source lines').2.map Warning.problem = (build source lines).2.map Warning.problem :=
  (Builder.Paired.build source h).problems

end Build

end Outline

/-- The texts of warnings depend on their problems only. -/
theorem Warning.texts_eq {warnings warnings' : List Warning}
    (h : warnings'.map Warning.problem = warnings.map Warning.problem) :
    warnings'.map Warning.message = warnings.map Warning.message ∧
      warnings'.map Warning.notes = warnings.map Warning.notes := by
  have hmessages := congrArg (List.map Problem.message) h
  have hnotes := congrArg (List.map Problem.notes) h
  rw [List.map_map, List.map_map] at hmessages hnotes
  exact ⟨hmessages, hnotes⟩

theorem Pairing.Nodes.shapes {nodes nodes' : List Node} (h : pairing.Nodes nodes nodes') :
    Node.shapes nodes' = Node.shapes nodes := by
  induction h with
  | nil => rfl
  | comment _ _ ih => simpa [Node.shapes, Node.shape?] using ih
  | line _ _ ih => simpa [Node.shapes, Node.shape?] using ih
  | block _ _ _ ihInside ih =>
    simp only [Node.shapes, Node.shape?, Node.shapes_append, Node.shapes_headerNodes, ihInside, ih]

end JassOutline
