import JassOutline.Proofs.Outline.Content

/-!
# Well-nested streams

The openers and closers of a stream form a word of brackets over the kinds of blocks. `Balanced`
is the language of the words in which the brackets match, and `Nests` relates a stream to the
forest that its brackets denote. Both are stated without the builder.

## Key results

- `exists_nests_of_balanced`: a stream with a balanced word denotes a forest
- `build_of_nests`: the outline of a stream that denotes a forest is that forest, without a warning
-/

namespace JassOutline.Outline

/-- A line that opens or closes a block of a kind. -/
inductive Bracket where
  | opens (kind : BlockKind)
  | closes (kind : BlockKind)
  deriving DecidableEq, Repr

/-- The bracket that a line is by its role. -/
def Bracket.ofRole? : LineRole → Option Bracket
  | .opens kind => some (.opens kind)
  | .closes kind => some (.closes kind)
  | _ => none

/-- The openers and closers of a stream. -/
def brackets (lines : List SourceLine) : List Bracket :=
  lines.filterMap fun record => Bracket.ofRole? (LineRole.ofLine record)

/-- Words in which every opener is matched by a closer of its kind. -/
inductive Balanced : List Bracket → Prop where
  | nil : Balanced []
  | wrap {kind : BlockKind} {inside rest : List Bracket} :
    Balanced inside → Balanced rest → Balanced (.opens kind :: inside ++ .closes kind :: rest)

/-- The brackets of the lines denote the nodes. A block holds its header, if its kind keeps one,
and then what the lines between its opener and its closer denote. -/
inductive Nests : List SourceLine → List Node → Prop where
  | nil : Nests [] []
  | line {record : SourceLine} {rest : List SourceLine} {nodes : List Node} :
    Bracket.ofRole? (LineRole.ofLine record) = none →
    Nests rest nodes → Nests (record :: rest) (.line record :: nodes)
  | block {kind : BlockKind} {opener closer : SourceLine} {inside rest : List SourceLine}
      {children nodes : List Node} :
    LineRole.ofLine opener = .opens kind → LineRole.ofLine closer = .closes kind →
    Nests inside children → Nests rest nodes →
    Nests (opener :: inside ++ closer :: rest)
      (.block kind ⟨opener.region.start, closer.region.stop⟩ true
        (headerNodes kind opener ++ children) :: nodes)

theorem Bracket.ofRole?_eq_opens {role : LineRole} {kind : BlockKind} :
    ofRole? role = some (.opens kind) ↔ role = .opens kind := by
  cases role <;> simp [ofRole?]

theorem Bracket.ofRole?_eq_closes {role : LineRole} {kind : BlockKind} :
    ofRole? role = some (.closes kind) ↔ role = .closes kind := by
  cases role <;> simp [ofRole?]

/-- Lines that are no brackets stand in front of a forest as they are. -/
theorem Nests.plain_append {plain rest : List SourceLine} {nodes : List Node}
    (hplain : ∀ record ∈ plain, Bracket.ofRole? (LineRole.ofLine record) = none)
    (h : Nests rest nodes) : Nests (plain ++ rest) (plain.map .line ++ nodes) := by
  induction plain with
  | nil => exact h
  | cons record plain ih =>
    exact .line (hplain record (by simp)) (ih fun r hr => hplain r (by simp [hr]))

/-- A stream with a balanced word denotes a forest. -/
theorem exists_nests_of_balanced {word : List Bracket} (h : Balanced word)
    {lines : List SourceLine} (hlines : brackets lines = word) : ∃ nodes, Nests lines nodes := by
  induction h generalizing lines with
  | nil =>
    -- None of the lines is a bracket
    have hplain := List.filterMap_eq_nil_iff.1 hlines
    exact ⟨_, by simpa using Nests.nil.plain_append hplain⟩
  | @wrap kind insideWord _ _ _ ihInside ihRest =>
    obtain ⟨front, back, rfl, hfront, hback⟩ := List.filterMap_eq_append_iff.1 hlines
    obtain ⟨plain, opener, inside, rfl, hplain, hopener, hinside⟩ :=
      List.filterMap_eq_cons_iff.1 hfront
    obtain ⟨inside', closer, rest, rfl, hinside', hcloser, hrest⟩ :=
      List.filterMap_eq_cons_iff.1 hback
    -- The lines in front of the closer that are no brackets belong to the inside
    have hall : brackets (inside ++ inside') = insideWord := by
      rw [brackets, List.filterMap_append, hinside, List.filterMap_eq_nil_iff.2 hinside',
        List.append_nil]
    obtain ⟨children, hchildren⟩ := ihInside hall
    obtain ⟨nodes, hnodes⟩ := ihRest hrest
    have hblock := Nests.block (Bracket.ofRole?_eq_opens.1 hopener)
      (Bracket.ofRole?_eq_closes.1 hcloser) hchildren hnodes
    have hnests := hblock.plain_append hplain
    simp only [List.append_assoc, List.cons_append] at hnests ⊢
    exact ⟨_, hnests⟩

/-! ### The outline of a well-nested stream -/

namespace Builder

/-- The second builder is the first one with the nodes placed behind everything else. -/
inductive Places (nodes : List Node) : Builder → Builder → Prop where
  | outside {top top' : Array Node} {warnings : Array Warning} :
    top'.toList = top.toList ++ nodes → Places nodes ⟨[], top, warnings⟩ ⟨[], top', warnings⟩
  | inside {inner inner' : OpenBlock} {outer : List OpenBlock} {top : Array Node}
      {warnings : Array Warning} :
    inner'.opening = inner.opening →
    inner'.children.toList = inner.children.toList ++ nodes →
    Places nodes ⟨inner :: outer, top, warnings⟩ ⟨inner' :: outer, top, warnings⟩

theorem Places.nil (builder : Builder) : Places [] builder builder := by
  obtain ⟨stack, top, warnings⟩ := builder
  cases stack with
  | nil => exact .outside (by simp)
  | cons inner outer => exact .inside rfl (by simp)

theorem Places.append {a b c : Builder} {nodes more : List Node} (hab : Places nodes a b)
    (hbc : Places more b c) : Places (nodes ++ more) a c := by
  cases hab with
  | outside htop =>
    cases hbc with
    | outside htop' => exact .outside (by rw [htop', htop, List.append_assoc])
  | inside hopening hchildren =>
    cases hbc with
    | inside hopening' hchildren' =>
      exact .inside (hopening'.trans hopening)
        (by rw [hchildren', hchildren, List.append_assoc])

theorem Places.warnings_eq {a b : Builder} {nodes : List Node} (h : Places nodes a b) :
    b.warnings = a.warnings := by
  cases h <;> rfl

theorem places_addLine (builder : Builder) (record : SourceLine) :
    Places [.line record] builder (builder.addLine record) := by
  obtain ⟨stack, top, warnings⟩ := builder
  cases stack with
  | nil => exact .outside (by simp)
  | cons inner outer => exact .inside rfl (by simp [OpenBlock.addLine])

theorem places_attach (builder : Builder) (stack : List OpenBlock) (b : Block) :
    Places [.ofBlock b] { builder with stack := stack } (builder.attach stack b) := by
  cases stack with
  | nil => exact .outside (by simp)
  | cons inner outer => exact .inside rfl (by simp [OpenBlock.addBlock])

/-- A block is placed by its opener, what is placed inside of it, and its closer. -/
theorem places_block (source : Nat) {builder filled : Builder} {kind : BlockKind}
    {opener closer : SourceLine} {children : List Node}
    (hopener : LineRole.ofLine opener = .opens kind)
    (hcloser : LineRole.ofLine closer = .closes kind)
    (hfilled : Places children (builder.feed source opener) filled) :
    Places [.block kind ⟨opener.region.start, closer.region.stop⟩ true
      (headerNodes kind opener ++ children)] builder (filled.feed source closer) := by
  obtain ⟨stack, top, warnings⟩ := builder
  -- The opener leaves a block on the stack, and what is placed inside does not replace it
  have hopen : feed source ⟨stack, top, warnings⟩ opener =
      ⟨.ofLine kind opener :: stack, top, warnings⟩ := by
    simp [feed, hopener]
  rw [hopen] at hfilled
  cases hfilled with
  | @inside _ inner' _ _ _ hopening hchildren =>
    obtain ⟨rfl, hopenerEq⟩ : inner'.kind = kind ∧ inner'.opener = opener := by
      simpa [OpenBlock.opening, OpenBlock.ofLine] using hopening
    -- The closer finds a block of its kind
    have hclose : feed source ⟨inner' :: stack, top, warnings⟩ closer =
        attach ⟨stack, top, warnings⟩ stack (inner'.close closer) := by
      simp only [feed, hcloser, close, if_true]
      cases stack <;> rfl
    have hnode : Node.ofBlock (inner'.close closer) =
        .block inner'.kind ⟨opener.region.start, closer.region.stop⟩ true
          (headerNodes inner'.kind opener ++ children) := by
      rw [Node.ofBlock, OpenBlock.close, hchildren, hopenerEq, OpenBlock.children_ofLine]
    rw [hclose, ← hnode]
    exact places_attach ⟨stack, top, warnings⟩ stack (inner'.close closer)

/-- Reading a stream that denotes a forest places the forest. -/
theorem places_of_nests (source : Nat) {lines : List SourceLine} {nodes : List Node}
    (h : Nests lines nodes) (builder : Builder) :
    Places nodes builder (lines.foldl (feed source) builder) := by
  induction h generalizing builder with
  | nil => exact .nil builder
  | @line record rest nodes hrole hrest ih =>
    have hfeed : builder.feed source record = builder.addLine record := by
      unfold feed
      split
      · next hopens => simp [hopens, Bracket.ofRole?] at hrole
      · next hcloses => simp [hcloses, Bracket.ofRole?] at hrole
      · rfl
    rw [List.foldl_cons, hfeed]
    exact (places_addLine builder record).append (ih _)
  | block hopener hcloser _ _ ihInside ihRest =>
    rw [List.foldl_append, List.foldl_cons, List.foldl_cons]
    exact (places_block source hopener hcloser (ihInside _)).append (ihRest _)

end Builder

/-- The outline of a stream that denotes a forest is that forest, and there is no warning. -/
theorem build_of_nests (source : Nat) {lines : List SourceLine} {nodes : List Node}
    (h : Nests lines nodes) :
    (build source lines).1.nodes = nodes ∧ (build source lines).2 = [] := by
  have hplaces := Builder.places_of_nests source h .start
  rw [nodes_build, warnings_build]
  generalize lines.foldl (Builder.feed source) .start = builder at hplaces ⊢
  rw [Builder.start] at hplaces
  -- A builder without open blocks has none behind the last line either
  cases hplaces with
  | outside htop => simp [htop, Builder.leftOpen, Builder.openings]

end JassOutline.Outline
