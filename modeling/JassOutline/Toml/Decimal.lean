/-!
# Decimals and the range of floating numbers

A floating number is written as a `Decimal`. One that lies so far out that it is rounded to infinity
is `isBeyondRange`; whether it does is decided with whole numbers alone.

Main statement: `isBeyondRange_iff` compares a decimal with the end of the range, where a power of
ten below one is moved to the other side.
-/

namespace JassOutline.Toml

/-- The number `digits` times ten to the power of `exponent`. -/
structure Decimal where
  digits : Nat
  exponent : Int
  deriving DecidableEq, Repr

namespace Decimal

/-- The least number that is rounded to infinity. It lies half a step above the largest floating
number of sixty-four bits, whose last bit is one, so that the tie goes up. -/
def rangeEnd : Nat :=
  (Nat.pow 2 54 - 1) * Nat.pow 2 970

/-- Whether the number is rounded to infinity. Where the exponent alone tells, no power of ten is
taken. -/
def isBeyondRange (number : Decimal) : Bool :=
  match number.exponent with
  | .ofNat power =>
    0 < number.digits && (308 < power || rangeEnd ≤ number.digits * Nat.pow 10 power)
  | .negSucc power =>
    power < number.digits.log2 && rangeEnd * Nat.pow 10 (power + 1) ≤ number.digits

theorem rangeEnd_le {power : Nat} (h : 309 ≤ power) : rangeEnd ≤ Nat.pow 10 power := by
  have hend : rangeEnd ≤ Nat.pow 10 309 := by decide +kernel
  refine Nat.le_trans hend ?_
  generalize 309 = least at h ⊢
  exact Nat.pow_le_pow_right (by decide) h

theorem one_le_rangeEnd : 1 ≤ rangeEnd := by
  decide +kernel

/-- A number of `k` bits is below the power of ten with exponent `k`. -/
theorem lt_ten_pow {digits power : Nat} (h : digits.log2 ≤ power) :
    digits < Nat.pow 10 (power + 1) :=
  calc digits
    _ < Nat.pow 2 (digits.log2 + 1) := Nat.lt_log2_self
    _ ≤ Nat.pow 2 (power + 1) := Nat.pow_le_pow_right (by decide) (by omega)
    _ ≤ Nat.pow 10 (power + 1) := Nat.pow_le_pow_left (by decide) _

/-- A number is rounded to infinity if it is not below the end of the range. -/
theorem isBeyondRange_iff (number : Decimal) :
    number.isBeyondRange = true ↔
      rangeEnd * Nat.pow 10 (-number.exponent).toNat ≤
        number.digits * Nat.pow 10 number.exponent.toNat := by
  obtain ⟨digits, power | power⟩ := number
  · -- An integer, whose power of ten alone may pass the end of the range
    have hleft : Nat.pow 10 (-Int.ofNat power).toNat = 1 := by simp
    have hright : (Int.ofNat power).toNat = power := rfl
    have hfar := @rangeEnd_le power
    have hone := one_le_rangeEnd
    simp only [isBeyondRange, hleft, hright, Nat.mul_one, Bool.and_eq_true, Bool.or_eq_true,
      decide_eq_true_eq]
    generalize rangeEnd = limit at hfar hone ⊢
    constructor
    · rintro ⟨hpos, hpower | hle⟩
      · exact Nat.le_trans (hfar hpower) (Nat.le_mul_of_pos_left _ hpos)
      · exact hle
    · intro hle
      refine ⟨Nat.pos_of_ne_zero fun hzero => ?_, .inr hle⟩
      simp only [hzero, Nat.zero_mul] at hle
      omega
  · -- A fraction, whose digits have to make up for the power
    have hleft : (-Int.negSucc power).toNat = power + 1 := rfl
    have hright : Nat.pow 10 (Int.negSucc power).toNat = 1 := rfl
    have hone := one_le_rangeEnd
    simp only [isBeyondRange, hleft, hright, Nat.mul_one, Bool.and_eq_true, decide_eq_true_eq]
    generalize rangeEnd = limit at hone ⊢
    refine ⟨And.right, fun hle => ⟨Nat.lt_of_not_le fun hlog => ?_, hle⟩⟩
    have hbelow := lt_ten_pow hlog
    have hend := Nat.le_mul_of_pos_left (Nat.pow 10 (power + 1)) hone
    omega

end Decimal

end JassOutline.Toml
