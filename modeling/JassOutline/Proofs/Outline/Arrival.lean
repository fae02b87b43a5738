import JassOutline.Outline.Build

/-!
# Lines as they arrive

What the outline does with a line depends on the role of the line and on the blocks that are open
when the line arrives. An `Arrival` is a line with those blocks, and its `fate` tells whether the
line becomes a leaf of the tree or only marks where a block opens or closes. The open blocks are
computed from the roles of the lines alone, without the builder.

## Key results

- `Builder.feed_cases`: everything that one line can do to the builder
- `Builder.openings_foldl_feed`: the stack of the builder holds the blocks that are open
-/

namespace JassOutline.Outline

/-- A block that is open, and the line that opened it. -/
structure Opening where
  kind : BlockKind
  opener : SourceLine
  deriving DecidableEq, Repr

/-- Whether the innermost of the open blocks is of the kind. -/
def isInnermost (kind : BlockKind) (openings : List Opening) : Bool :=
  openings.head?.map Opening.kind == some kind

/-- The open blocks behind a line, innermost first, given those in front of it. -/
def openingsAfter (openings : List Opening) (record : SourceLine) : List Opening :=
  match LineRole.ofLine record with
  | .opens kind => ⟨kind, record⟩ :: openings
  | .closes kind => if isInnermost kind openings then openings.tail else openings
  | _ => openings

/-- What becomes of a line. -/
inductive Fate where
  /-- The line is a leaf of the tree. -/
  | leaf
  /-- The line opens a `globals` block and is not kept. -/
  | opener
  /-- The line closes the innermost open block and is not kept. -/
  | closer
  deriving DecidableEq, Repr

/-- A line with the blocks that are open when it arrives, innermost first. -/
structure Arrival where
  record : SourceLine
  openings : List Opening
  deriving DecidableEq, Repr

/-- What becomes of the line that arrives. -/
def Arrival.fate (arrival : Arrival) : Fate :=
  match LineRole.ofLine arrival.record with
  | .opens .globals => .opener
  | .closes kind => if isInnermost kind arrival.openings then .closer else .leaf
  | _ => .leaf

/-- The lines of a stream as they arrive behind the given open blocks. -/
def arrivals : List Opening → List SourceLine → List Arrival
  | _, [] => []
  | openings, record :: rest => ⟨record, openings⟩ :: arrivals (openingsAfter openings record) rest

/-- Every line arrives, and in the order of the stream. -/
theorem record_arrivals (openings : List Opening) (lines : List SourceLine) :
    (arrivals openings lines).map Arrival.record = lines := by
  induction lines generalizing openings with
  | nil => rfl
  | cons record rest ih => simp [arrivals, ih]

/-! ### The builder -/

/-- The opening of a block on the stack. -/
def OpenBlock.opening (frame : OpenBlock) : Opening := ⟨frame.kind, frame.opener⟩

@[simp] theorem OpenBlock.opening_addLine (frame : OpenBlock) (record : SourceLine) :
    (frame.addLine record).opening = frame.opening := rfl

@[simp] theorem OpenBlock.opening_addBlock (frame : OpenBlock) (b : Block) :
    (frame.addBlock b).opening = frame.opening := rfl

namespace Builder

/-- The open blocks of a builder, innermost first. -/
def openings (builder : Builder) : List Opening :=
  builder.stack.map OpenBlock.opening

@[simp] theorem openings_start : start.openings = [] := rfl

@[simp] theorem openings_addLine (builder : Builder) (record : SourceLine) :
    (builder.addLine record).openings = builder.openings := by
  unfold addLine openings
  split
  · next hstack => simp [hstack]
  · next hstack => simp [hstack]

@[simp] theorem openings_attach (builder : Builder) (stack : List OpenBlock) (b : Block) :
    (builder.attach stack b).openings = stack.map OpenBlock.opening := by
  unfold attach openings
  split <;> simp

/-- What is wrong with a closing line of the kind that closes nothing. -/
def strayProblem (kind : BlockKind) : List Opening → Problem
  | [] => .closerUnmatched kind
  | inner :: _ => .closerMismatched kind inner.kind

/-- What one line does to the builder: it opens a block, closes the innermost one, stays behind as
a closing line that closes nothing, or is a line like any other. -/
theorem feed_cases (source : Nat) (builder : Builder) (record : SourceLine) :
    (∃ kind, LineRole.ofLine record = .opens kind ∧
      builder.feed source record =
        { builder with stack := .ofLine kind record :: builder.stack }) ∨
    (∃ inner outer, LineRole.ofLine record = .closes inner.kind ∧
      builder.stack = inner :: outer ∧
      builder.feed source record = builder.attach outer (inner.close record)) ∨
    (∃ kind, LineRole.ofLine record = .closes kind ∧
      isInnermost kind builder.openings = false ∧
      builder.feed source record =
        (builder.warn (.onLine (strayProblem kind builder.openings) record source)).addLine
          record) ∨
    ((∀ kind, LineRole.ofLine record ≠ .opens kind ∧ LineRole.ofLine record ≠ .closes kind) ∧
      builder.feed source record = builder.addLine record) := by
  unfold feed
  split
  · next kind hrole => exact .inl ⟨kind, hrole, rfl⟩
  · next kind hrole =>
    unfold close
    split
    · next hstack =>
      -- No block is open
      refine .inr (.inr (.inl ⟨kind, hrole, ?_, ?_⟩))
      · simp [isInnermost, openings, hstack]
      · simp [strayProblem, openings, hstack]
    · next inner outer hstack =>
      split
      · next hkind => exact .inr (.inl ⟨inner, outer, hkind ▸ hrole, hstack, rfl⟩)
      · next hkind =>
        -- The innermost block is of another kind
        refine .inr (.inr (.inl ⟨kind, hrole, ?_, ?_⟩))
        · simpa [isInnermost, openings, hstack, OpenBlock.opening] using hkind
        · simp [strayProblem, openings, hstack, OpenBlock.opening]
  · next hopens hcloses =>
    exact .inr (.inr (.inr ⟨fun kind => ⟨hopens kind, hcloses kind⟩, rfl⟩))

/-- The open blocks of the builder change as the role of the line says. -/
theorem openings_feed (source : Nat) (builder : Builder) (record : SourceLine) :
    (builder.feed source record).openings = openingsAfter builder.openings record := by
  obtain ⟨kind, hrole, hfeed⟩ | ⟨inner, outer, hrole, hstack, hfeed⟩ |
    ⟨kind, hrole, hinner, hfeed⟩ | ⟨hrole, hfeed⟩ := feed_cases source builder record
  · rw [hfeed, openingsAfter, hrole]
    rfl
  · rw [hfeed, openingsAfter, hrole, openings_attach]
    simp [isInnermost, openings, hstack, OpenBlock.opening]
  · rw [hfeed, openingsAfter, hrole, openings_addLine]
    simp only [hinner, Bool.false_eq_true, if_false]
    rfl
  · rw [hfeed, openings_addLine, openingsAfter]
    split
    · next kind h => exact absurd h (hrole kind).1
    · next kind h => exact absurd h (hrole kind).2
    · rfl

/-- After any stream of lines the stack of the builder holds the blocks that are open. -/
theorem openings_foldl_feed (source : Nat) (builder : Builder) (lines : List SourceLine) :
    (lines.foldl (feed source) builder).openings = lines.foldl openingsAfter builder.openings := by
  induction lines generalizing builder with
  | nil => rfl
  | cons record rest ih => rw [List.foldl_cons, List.foldl_cons, ih, openings_feed]

end Builder

end JassOutline.Outline
