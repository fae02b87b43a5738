/-!
# Digits

The digits of numbers up to base sixteen, in either case.

Bridge lemma: `digitOf?_lt` says that a digit is below its base.
-/

namespace JassOutline.Toml

/-- The digit a character stands for, if it is below the base. -/
def digitOf? (base : Nat) (c : Char) : Option Nat :=
  let value :=
    if c.isDigit then c.toNat - '0'.toNat
    else if 'a' ≤ c ∧ c ≤ 'f' then c.toNat - 'a'.toNat + 10
    else if 'A' ≤ c ∧ c ≤ 'F' then c.toNat - 'A'.toNat + 10
    else base
  if value < base then some value else none

theorem digitOf?_lt {base digit : Nat} {c : Char} (h : digitOf? base c = some digit) :
    digit < base := by
  simp only [digitOf?, Option.ite_none_right_eq_some, Option.some.injEq] at h
  obtain ⟨hlt, rfl⟩ := h
  exact hlt

end JassOutline.Toml
