/-!
# Sets of characters as ranges of code points

A character class that a standard lists code point by code point is held as the list of its
ranges, lowest first. `CodeRange.covers` asks whether a list holds a character.

Bridge lemma: `covers_iff` states membership as a bounded interval.
-/

namespace JassOutline.Text

/-- The first and the last code point of a range. -/
abbrev CodeRange := Nat × Nat

/-- Whether one of the ranges holds the character. -/
def covers (ranges : List CodeRange) (c : Char) : Bool :=
  ranges.any fun range => range.1 ≤ c.toNat && c.toNat ≤ range.2

theorem covers_iff {ranges : List CodeRange} {c : Char} :
    covers ranges c = true ↔ ∃ range ∈ ranges, range.1 ≤ c.toNat ∧ c.toNat ≤ range.2 := by
  simp [covers]

end JassOutline.Text
