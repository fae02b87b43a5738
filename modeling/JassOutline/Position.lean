/-!
# Positions and regions of a text

A `Position` is a line and a column, both counted from zero, the column in bytes. A `Region` lies
between two positions, and a `ByteSpan` between two byte offsets of the whole text. Positions are
ordered as they are read: by line, then by column.

Bridge lemmas: `Position.le_iff` unfolds the order, `Position.le_antisymm`, `Position.le_trans`
and `Position.le_total` make it a linear order, and `Region.le_hull` says that `Region.hull`
covers both its arguments.
-/

namespace JassOutline

/-- A line and a byte column, both counted from zero. -/
structure Position where
  line : Nat
  column : Nat
  deriving DecidableEq, Repr, Inhabited

/-- Two byte offsets of a text. -/
structure ByteSpan where
  start : Nat
  stop : Nat
  deriving DecidableEq, Repr, Inhabited

namespace Position

/-- The start of every text. -/
def origin : Position := ⟨0, 0⟩

instance : LE Position :=
  ⟨fun p q => p.line < q.line ∨ (p.line = q.line ∧ p.column ≤ q.column)⟩

theorem le_iff {p q : Position} :
    p ≤ q ↔ p.line < q.line ∨ (p.line = q.line ∧ p.column ≤ q.column) := Iff.rfl

instance (p q : Position) : Decidable (p ≤ q) :=
  inferInstanceAs (Decidable (p.line < q.line ∨ (p.line = q.line ∧ p.column ≤ q.column)))

instance : Min Position := minOfLe
instance : Max Position := maxOfLe

theorem le_refl (p : Position) : p ≤ p :=
  Or.inr ⟨rfl, Nat.le_refl _⟩

theorem le_trans {p q r : Position} (hpq : p ≤ q) (hqr : q ≤ r) : p ≤ r := by
  rw [le_iff] at *; omega

theorem le_total (p q : Position) : p ≤ q ∨ q ≤ p := by
  rw [le_iff, le_iff]; omega

theorem le_antisymm {p q : Position} (hpq : p ≤ q) (hqp : q ≤ p) : p = q := by
  rw [le_iff] at *
  cases p; cases q; simp only [mk.injEq] at *; omega

theorem min_def (p q : Position) : min p q = if p ≤ q then p else q := rfl

theorem max_def (p q : Position) : max p q = if p ≤ q then q else p := rfl

/-- Whether the first position is read before, with or after the second. -/
def order (p q : Position) : Ordering :=
  (compare p.line q.line).then (compare p.column q.column)

/-- Readers count lines and columns from one. -/
def display (p : Position) : String :=
  s!"{p.line + 1}:{p.column + 1}"

end Position

/-- The text from one position to another. -/
structure Region where
  start : Position
  stop : Position
  deriving DecidableEq, Repr, Inhabited

namespace Region

/-- The region with nothing in it at the start of the text. -/
def empty : Region := ⟨.origin, .origin⟩

/-- A region within one line. -/
def onLine (line start stop : Nat) : Region :=
  ⟨⟨line, start⟩, ⟨line, stop⟩⟩

/-- Whether the position lies in the region. The end counts, as it does for a cursor that stands
behind the last character. -/
def contains (region : Region) (p : Position) : Bool :=
  region.start ≤ p && p ≤ region.stop

theorem contains_iff {region : Region} {p : Position} :
    region.contains p = true ↔ region.start ≤ p ∧ p ≤ region.stop := by
  simp [contains]

/-- The smallest region that covers both regions. -/
def hull (a b : Region) : Region :=
  ⟨min a.start b.start, max a.stop b.stop⟩

theorem le_hull (a b : Region) :
    ((hull a b).start ≤ a.start ∧ (hull a b).start ≤ b.start) ∧
      a.stop ≤ (hull a b).stop ∧ b.stop ≤ (hull a b).stop := by
  simp only [hull, Position.min_def, Position.max_def]
  refine ⟨⟨?_, ?_⟩, ?_, ?_⟩ <;> split <;>
    first
    | exact Position.le_refl _
    | assumption
    | exact (Position.le_total _ _).resolve_left (by assumption)

/-- The region with another end. -/
def withStop (region : Region) (stop : Position) : Region :=
  { region with stop }

/-- The number of line ends a region crosses. -/
def lineCount (region : Region) : Nat :=
  region.stop.line - region.start.line

end Region

end JassOutline
