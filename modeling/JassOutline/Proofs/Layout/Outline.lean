import JassOutline.Proofs.Layout.Region
import JassOutline.Proofs.List
import JassOutline.Proofs.Outline.WellFormed

/-!
# How the regions of an outline nest

If the lines of a stream follow each other in the source, then so do the regions of its outline: the
children of a block lie within the block, one above the other. The end of an open block is set anew
by each line and each block that is placed in it. `FillsToEnd.foldl_stopBehind` says where that ends
up, which is with the last line behind the opener.

## Key results

- `FillsToEnd.nested`: the regions of what lines leave
- `FillsToEnd.spansLines`: each block reaches from its opener to its closer, or to the last line
-/

namespace JassOutline

/-- The lines follow each other in the source, each with the region of its text. -/
structure SourceLine.InOrder (lines : List SourceLine) : Prop where
  increasing : lines.Pairwise (·.line < ·.line)
  fits : ∀ record ∈ lines, record.FitsText

/-- The region reaches from the start of one of the lines to the end of the same or a later one. -/
def Region.Joins (region : Region) (lines : List SourceLine) : Prop :=
  ∃ first ∈ lines, ∃ last ∈ lines, first.line ≤ last.line ∧
    region = ⟨first.region.start, last.region.stop⟩

/-- The regions of the nodes are one above the other, and so are those of the children of a block,
which lie within the block. -/
inductive Node.Nested : List Node → Prop where
  | nil : Nested []
  | line {record : SourceLine} {rest : List Node} :
    record.FitsText → (∀ node ∈ rest, record.region.Above node.region) → Nested rest →
    Nested (.line record :: rest)
  | block {kind : BlockKind} {region : Region} {isClosed : Bool} {children rest : List Node} :
    region.start ≤ region.stop → (∀ child ∈ children, child.region.Within region) →
    Nested children → (∀ node ∈ rest, region.Above node.region) → Nested rest →
    Nested (.block kind region isClosed children :: rest)

/-- The block reaches from the line that opens it to the line that closes it. If no line does, it
reaches to the last line of the stream. Its children stand on the lines behind the opener. -/
inductive Block.SpansLines : Block → List SourceLine → Prop where
  | closed {kind : BlockKind} {opener closer : SourceLine}
      {before inside after : List SourceLine} {children : List Node} :
    LineRole.ofLine opener = .opens kind → LineRole.ofLine closer = .closes kind →
    Outline.Covers inside children →
    SpansLines ⟨kind, ⟨opener.region.start, closer.region.stop⟩, true,
      Outline.headerNodes kind opener ++ children⟩ (before ++ (opener :: inside ++ closer :: after))
  | unclosed {kind : BlockKind} {opener : SourceLine} {before inside : List SourceLine}
      {children : List Node} :
    LineRole.ofLine opener = .opens kind → Outline.Covers inside children →
    SpansLines ⟨kind, ⟨opener.region.start, (inside.getLastD opener).region.stop⟩, false,
      Outline.headerNodes kind opener ++ children⟩ (before ++ opener :: inside)

namespace SourceLine

variable {first record : SourceLine} {lines some : List SourceLine}

theorem InOrder.sublist (h : InOrder lines) (hsome : some.Sublist lines) : InOrder some where
  increasing := h.increasing.sublist hsome
  fits := fun record hrecord => h.fits record (hsome.subset hrecord)

theorem FitsText.start_le_stop (h : record.FitsText) :
    record.region.start ≤ record.region.stop := by
  rw [h.start_eq, h.stop_eq]
  exact .inr ⟨rfl, Nat.zero_le _⟩

/-- A line that fits its text ends in front of the start of a later line. -/
theorem FitsText.above {other : SourceLine} (h : record.FitsText)
    (hline : record.line < other.line) : record.region.Above other.region := by
  rw [Region.Above, h.stop_eq]
  exact hline

/-- Of lines in order, the last one ends last. -/
theorem InOrder.stop_le (h : InOrder (first :: lines)) (hrecord : record ∈ first :: lines) :
    record.region.stop ≤ (lines.getLastD first).region.stop := by
  induction lines generalizing first record with
  | nil =>
    obtain rfl := List.mem_singleton.1 hrecord
    exact Position.le_refl _
  | cons next rest ih =>
    rw [List.getLastD_cons]
    have hnext := ih (h.sublist (List.sublist_cons_self ..)) List.mem_cons_self
    rcases List.mem_cons.1 hrecord with rfl | hrest
    · have hline : record.line < next.line := (List.pairwise_cons.1 h.increasing).1 next (by simp)
      refine Position.le_trans (.inl ?_) hnext
      rw [(h.fits record (by simp)).stop_eq, (h.fits next (by simp)).stop_eq]
      exact hline
    · exact ih (h.sublist (List.sublist_cons_self ..)) hrest

end SourceLine

namespace Outline

open SourceLine

variable {kind? : Option BlockKind} {first : SourceLine} {lines : List SourceLine}
  {nodes : List Node}

/-! ### Where blocks end -/

theorem max_eq_of_le {p q : Position} (h : p ≤ q) : max p q = q := by
  rw [Position.max_def, if_pos h]

/-- An open block ends with the last line that was placed in it or in a block inside it. -/
theorem Fills.foldl_stopBehind (h : Fills kind? lines nodes) (hlines : InOrder (first :: lines)) :
    nodes.foldl stopBehind first.region.stop = (lines.getLastD first).region.stop := by
  induction h generalizing first with
  | nil => rfl
  | line _ _ ih =>
    rw [List.foldl_cons, List.getLastD_cons]
    exact ih (hlines.sublist (List.sublist_cons_self ..))
  | @block _ kind opener closer inside rest children nodes _ _ _ _ _ ih =>
    -- The closer is later than everything in front of it
    have hfirst : first.region.stop ≤ closer.region.stop := by
      have hle := @InOrder.stop_le first first (opener :: inside ++ [closer])
        (hlines.sublist (by simp)) List.mem_cons_self
      rwa [getLastD_append_cons] at hle
    rw [List.foldl_cons, getLastD_append_cons, stopBehind, max_eq_of_le hfirst]
    refine ih (hlines.sublist (.cons _ ?_))
    exact List.sublist_append_right ..

/-- An open block ends with the last line of the stream, if the stream ends before it is closed. -/
theorem FillsToEnd.foldl_stopBehind (h : FillsToEnd kind? lines nodes)
    (hlines : InOrder (first :: lines)) :
    nodes.foldl stopBehind first.region.stop = (lines.getLastD first).region.stop := by
  induction h generalizing first with
  | filled h => exact h.foldl_stopBehind hlines
  | @unclosed _ kind opener front inside children nodes hfront _ _ ih =>
    have hinside : InOrder (opener :: inside) :=
      hlines.sublist (.cons _ (List.sublist_append_right ..))
    have hearlier : InOrder (first :: front) :=
      hlines.sublist ((List.sublist_append_left ..).cons_cons _)
    -- The lines in front of the opener end before the last one behind it
    have hle : (front.getLastD first).region.stop ≤ (inside.getLastD opener).region.stop := by
      have hmem : front.getLastD first ∈ first :: (front ++ opener :: inside) :=
        ((List.sublist_append_left ..).cons_cons _).subset List.getLastD_mem_cons
      have hle := hlines.stop_le hmem
      rwa [getLastD_append_cons] at hle
    rw [List.foldl_append, hfront.foldl_stopBehind hearlier, List.foldl_cons, List.foldl_nil,
      stopBehind, ih hinside, max_eq_of_le hle, getLastD_append_cons]

/-- A block reaches from its opener to its closer or to the last line. -/
theorem Fills.spansLines {b : Block} (h : Fills kind? lines nodes)
    (hb : b ∈ Node.blocksOfAll nodes) (before after : List SourceLine) :
    b.SpansLines (before ++ (lines ++ after)) := by
  induction h generalizing b before after with
  | nil => simp [Node.blocksOfAll] at hb
  | @line _ record rest nodes _ _ ih =>
    simpa using ih hb (before ++ [record]) after
  | @block _ kind opener closer inside rest children nodes hopener hcloser hinside _ ihInside
      ihRest =>
    simp only [Node.blocksOfAll, Node.blocks, Node.blocksOfAll_append, blocksOfAll_headerNodes,
      List.nil_append, List.cons_append, List.mem_cons, List.mem_append] at hb
    rcases hb with rfl | hchild | hrest
    · simpa using Block.SpansLines.closed hopener hcloser hinside.covers
    · simpa using ihInside hchild (before ++ [opener]) (closer :: rest ++ after)
    · simpa using ihRest hrest (before ++ (opener :: inside ++ [closer])) after

theorem FillsToEnd.spansLines {b : Block} (h : FillsToEnd kind? lines nodes)
    (hlines : InOrder lines) (hb : b ∈ Node.blocksOfAll nodes) (before : List SourceLine) :
    b.SpansLines (before ++ lines) := by
  induction h generalizing b before with
  | filled h => simpa using h.spansLines hb before []
  | @unclosed _ kind opener front inside children nodes hfront hopener hinside ih =>
    simp only [Node.blocksOfAll_append, Node.blocksOfAll, Node.blocks, blocksOfAll_headerNodes,
      List.nil_append, List.append_nil, List.mem_cons, List.mem_append] at hb
    have hopened : InOrder (opener :: inside) := hlines.sublist (List.sublist_append_right ..)
    rcases hb with hearlier | rfl | hchild
    · exact hfront.spansLines hearlier before (opener :: inside)
    · rw [hinside.foldl_stopBehind hopened, ← List.append_assoc]
      exact .unclosed hopener hinside.covers
    · have hspans := ih (hopened.sublist (List.sublist_cons_self ..)) hchild
        (before ++ (front ++ [opener]))
      simpa using hspans

end Outline

/-! ### Regions that join lines -/

/-- A line by itself. -/
theorem Region.joins_line (record : SourceLine) : record.region.Joins [record] :=
  ⟨record, by simp, record, by simp, Nat.le_refl _, rfl⟩

namespace Region.Joins

open SourceLine

variable {region other : Region} {opener : SourceLine} {lines more : List SourceLine}

theorem mono (h : region.Joins lines) (hmore : lines ⊆ more) : region.Joins more := by
  obtain ⟨first, hfirst, last, hlast, hle, rfl⟩ := h
  exact ⟨first, hmore hfirst, last, hmore hlast, hle, rfl⟩

/-- What is made of lines stands above what is made of later lines. -/
theorem above (h : region.Joins lines) (hother : other.Joins more)
    (hlines : InOrder (lines ++ more)) : region.Above other := by
  obtain ⟨-, -, last, hlast, -, rfl⟩ := h
  obtain ⟨first, hfirst, -, -, -, rfl⟩ := hother
  have hline := (List.pairwise_append.1 hlines.increasing).2.2 last hlast first hfirst
  exact (hlines.fits last (List.mem_append_left _ hlast)).above hline

/-- What is made of lines lies in a region from the first of them to behind all of them. -/
theorem within {stop : Position} (h : region.Joins (opener :: lines))
    (hlines : InOrder (opener :: lines))
    (hstop : ∀ record ∈ opener :: lines, record.region.stop ≤ stop) :
    region.Within ⟨opener.region.start, stop⟩ := by
  obtain ⟨first, hfirst, last, hlast, hle, rfl⟩ := h
  have hfits := hlines.fits first hfirst
  constructor
  · rcases List.mem_cons.1 hfirst with rfl | hlater
    · exact Position.le_refl _
    · exact .inl ((List.pairwise_cons.1 hlines.increasing).1 first hlater)
  · rw [hfits.start_eq, (hlines.fits last hlast).stop_eq, Position.le_iff]
    simp only [Nat.zero_le, and_true]
    omega
  · exact hstop last hlast

end Region.Joins

namespace Outline

open SourceLine Node

variable {kind : BlockKind} {kind? : Option BlockKind} {opener : SourceLine}
  {lines inside : List SourceLine} {nodes children : List Node}

/-- A node reaches from one line to another one. -/
theorem Fills.joins (h : Fills kind? lines nodes) (hlines : InOrder lines) :
    ∀ node ∈ nodes, node.region.Joins lines := by
  induction h with
  | nil => simp
  | @line _ record rest nodes _ _ ih =>
    refine List.forall_mem_cons.2 ⟨(Region.joins_line record).mono (by simp), ?_⟩
    intro node hnode
    exact (ih (hlines.sublist (List.sublist_cons_self ..)) node hnode).mono (by simp)
  | @block _ kind opener closer inside rest children nodes _ _ _ _ _ ih =>
    have hline : opener.line < closer.line :=
      (List.pairwise_cons.1 hlines.increasing).1 closer (by simp)
    have hsublist : rest.Sublist (opener :: inside ++ closer :: rest) :=
      (List.sublist_cons_self ..).trans (List.sublist_append_right ..)
    refine List.forall_mem_cons.2 ⟨⟨opener, by simp, closer, by simp, hline.le, rfl⟩, ?_⟩
    intro node hnode
    exact (ih (hlines.sublist hsublist) node hnode).mono hsublist.subset

theorem FillsToEnd.joins (h : FillsToEnd kind? lines nodes) (hlines : InOrder lines) :
    ∀ node ∈ nodes, node.region.Joins lines := by
  cases h with
  | filled h => exact h.joins hlines
  | @unclosed _ kind opener front inside children nodes hfront hopener hinside =>
    have hopened : InOrder (opener :: inside) := hlines.sublist (List.sublist_append_right ..)
    refine List.forall_mem_append.2 ⟨fun node hnode => ?_, List.forall_mem_singleton.2 ?_⟩
    · exact (hfront.joins (hlines.sublist (List.sublist_append_left ..)) node hnode).mono (by simp)
    · -- The last line behind the opener, or the opener itself
      have hlast : inside.getLastD opener ∈ opener :: inside := List.getLastD_mem_cons
      refine ⟨opener, by simp, inside.getLastD opener, List.mem_append_right _ hlast, ?_, ?_⟩
      · rcases List.mem_cons.1 hlast with heq | hlater
        · rw [heq]
        · exact ((List.pairwise_cons.1 hopened.increasing).1 _ hlater).le
      · rw [Node.region, hinside.foldl_stopBehind hopened]

/-- The header of a block stands on the opener. -/
theorem joins_headerNodes (hjoins : ∀ child ∈ children, child.region.Joins inside) :
    ∀ child ∈ headerNodes kind opener ++ children, child.region.Joins (opener :: inside) := by
  refine List.forall_mem_append.2 ⟨fun header hheader => ?_, fun child hchild => ?_⟩
  · obtain rfl := eq_of_mem_headerNodes hheader
    exact (Region.joins_line opener).mono (by simp)
  · exact (hjoins child hchild).mono (by simp)

theorem nested_headerNodes (hlines : InOrder (opener :: inside))
    (hjoins : ∀ child ∈ children, child.region.Joins inside) (hnested : Nested children) :
    Nested (headerNodes kind opener ++ children) := by
  unfold headerNodes
  split
  · refine .line (hlines.fits opener (by simp)) (fun child hchild => ?_) hnested
    exact (Region.joins_line opener).above (hjoins child hchild) hlines
  · exact hnested

/-- A block that ends with the last line that it stands on, which may be a closer. -/
theorem nested_block {isClosed : Bool} {closer : List SourceLine}
    (hlines : InOrder (opener :: (inside ++ closer)))
    (hjoins : ∀ child ∈ children, child.region.Joins inside) (hnested : Nested children) :
    Nested [.block kind ⟨opener.region.start, ((inside ++ closer).getLastD opener).region.stop⟩
      isClosed (headerNodes kind opener ++ children)] := by
  have hopened : InOrder (opener :: inside) :=
    hlines.sublist ((List.sublist_append_left ..).cons_cons _)
  have hstop := fun record => @InOrder.stop_le _ record _ hlines
  refine .block ?_ (fun child hchild => ?_) (nested_headerNodes hopened hjoins hnested) (by simp)
    .nil
  · exact Position.le_trans (hlines.fits opener (by simp)).start_le_stop (hstop opener (by simp))
  · have hchild : child.region.Joins (opener :: (inside ++ closer)) :=
      (joins_headerNodes hjoins child hchild).mono (by simp)
    exact hchild.within hlines hstop

end Outline

theorem Node.Nested.append {a b : List Node} (ha : Nested a) (hb : Nested b)
    (hab : ∀ x ∈ a, ∀ y ∈ b, x.region.Above y.region) : Nested (a ++ b) := by
  induction ha with
  | nil => exact hb
  | @line record rest hfits habove _ ih =>
    rw [List.forall_mem_cons] at hab
    exact .line hfits (List.forall_mem_append.2 ⟨habove, hab.1⟩) (ih hab.2)
  | block horder hwithin hchildren habove _ _ ih =>
    rw [List.forall_mem_cons] at hab
    exact .block horder hwithin hchildren (List.forall_mem_append.2 ⟨habove, hab.1⟩) (ih hab.2)

namespace Outline

open SourceLine Node

variable {kind? : Option BlockKind} {lines : List SourceLine} {nodes : List Node}

/-- The regions of what lines leave in front of the end of the stream. -/
theorem Fills.nested (h : Fills kind? lines nodes) (hlines : InOrder lines) : Nested nodes := by
  induction h with
  | nil => exact .nil
  | @line _ record rest nodes _ hrest ih =>
    have hlater : InOrder rest := hlines.sublist (List.sublist_cons_self ..)
    refine .line (hlines.fits record (by simp)) (fun node hnode => ?_) (ih hlater)
    exact (Region.joins_line record).above (hrest.joins hlater node hnode) hlines
  | @block _ kind opener closer inside rest children nodes hopener hcloser hinside hrest ihInside
      ih =>
    -- The lines of the block come in front of the others, and within it the header comes first and
    -- the closing line last
    have hsplit : opener :: inside ++ closer :: rest = opener :: (inside ++ [closer]) ++ rest := by
      simp
    rw [hsplit] at hlines
    have hlater : InOrder rest := hlines.sublist (List.sublist_append_right ..)
    have hopened : InOrder (opener :: (inside ++ [closer])) :=
      hlines.sublist (List.sublist_append_left ..)
    have hwithin : InOrder inside := hopened.sublist (.cons _ (List.sublist_append_left ..))
    have hblock := @nested_block kind opener inside children true [closer] hopened
      (hinside.joins hwithin) (ihInside hwithin)
    have hfills : Fills (some kind) (opener :: inside ++ [closer]) _ :=
      .block hopener hcloser hinside .nil
    rw [getLastD_append_cons] at hblock
    refine hblock.append (ih hlater) (List.forall_mem_singleton.2 fun node hnode => ?_)
    exact (hfills.joins hopened _ List.mem_cons_self).above (hrest.joins hlater node hnode) hlines

/-- The regions of what lines leave, if the stream ends behind them. -/
theorem FillsToEnd.nested (h : FillsToEnd kind? lines nodes) (hlines : InOrder lines) :
    Nested nodes := by
  induction h with
  | filled h => exact h.nested hlines
  | @unclosed _ kind opener front inside children nodes hfront hopener hinside ih =>
    have hearlier : InOrder front := hlines.sublist (List.sublist_append_left ..)
    have hopened : InOrder (opener :: inside) := hlines.sublist (List.sublist_append_right ..)
    have hwithin : InOrder inside := hopened.sublist (List.sublist_cons_self ..)
    have hblock := @nested_block kind opener inside children false [] (by simpa using hopened)
      (hinside.joins hwithin) (ih hwithin)
    have hlast : FillsToEnd kind? ([] ++ opener :: inside) _ := .unclosed .nil hopener hinside
    rw [List.append_nil, ← hinside.foldl_stopBehind hopened] at hblock
    refine (hfront.nested hearlier).append hblock fun node hnode => List.forall_mem_singleton.2 ?_
    exact (hfront.joins hearlier node hnode).above (hlast.joins hopened _ List.mem_cons_self) hlines

end Outline

namespace Node.Nested

variable {nodes : List Node}

/-! ### Reading off how the regions nest -/

/-- Each of the nodes ends in front of the next one. -/
theorem pairwise (h : Nested nodes) : nodes.Pairwise fun a b => a.region.Above b.region := by
  induction h with
  | nil => exact .nil
  | line _ habove _ ih => exact .cons habove ih
  | block _ _ _ habove _ _ ih => exact .cons habove ih

theorem start_le_stop (h : Nested nodes) :
    ∀ node ∈ nodes, node.region.start ≤ node.region.stop := by
  induction h with
  | nil => simp
  | line hfits _ _ ih => exact List.forall_mem_cons.2 ⟨hfits.start_le_stop, ih⟩
  | block horder _ _ _ _ _ ih => exact List.forall_mem_cons.2 ⟨horder, ih⟩

/-- In each block of the tree the children lie within the block, one above the other. -/
theorem block_children (h : Nested nodes) : ∀ b ∈ blocksOfAll nodes,
    (∀ child ∈ b.children, child.region.Within b.region) ∧
      b.children.Pairwise fun a b => a.region.Above b.region := by
  induction h with
  | nil => simp [blocksOfAll]
  | line _ _ _ ih => exact ih
  | block _ hwithin hchildren _ _ ihChildren ih =>
    rw [blocksOfAll, blocks, List.cons_append, List.forall_mem_cons, List.forall_mem_append]
    exact ⟨⟨hwithin, hchildren.pairwise⟩, ihChildren, ih⟩

/-- The region from the first node to the last one covers all of them. -/
theorem within_regionOfAll (h : Nested nodes) :
    ∀ node ∈ nodes, node.region.Within (Outline.regionOfAll nodes) := by
  intro node hnode
  have hordered := h.start_le_stop
  obtain ⟨first, rest, rfl⟩ := List.exists_cons_of_ne_nil (List.ne_nil_of_mem hnode)
  obtain ⟨front, last, hfront⟩ : ∃ front last, first :: rest = front ++ [last] :=
    ⟨_, _, (List.dropLast_concat_getLast (List.cons_ne_nil _ _)).symm⟩
  have hregion : Outline.regionOfAll (first :: rest) = first.region.hull last.region := by
    have hlast : (first :: rest).getLast? = some last := by rw [hfront, List.getLast?_concat]
    simp only [Outline.regionOfAll, List.head?_cons, hlast]
  obtain ⟨⟨hstart, -⟩, -, hstop⟩ := Region.le_hull first.region last.region
  rw [hregion]
  refine ⟨Position.le_trans hstart ?_, hordered node hnode, Position.le_trans ?_ hstop⟩
  · rcases List.mem_cons.1 hnode with rfl | hrest
    · exact Position.le_refl _
    · have habove := (List.pairwise_cons.1 h.pairwise).1 node hrest
      exact Position.le_trans (hordered first (by simp)) (.inl habove)
  · rw [hfront] at hnode
    rcases List.mem_append.1 hnode with hearlier | hsame
    · have habove := (List.pairwise_append.1 (hfront ▸ h.pairwise)).2.2 node hearlier last (by simp)
      exact Position.le_trans (.inl habove) (hordered last (by simp [hfront]))
    · rw [List.mem_singleton.1 hsame]
      exact Position.le_refl _

end Node.Nested

end JassOutline
