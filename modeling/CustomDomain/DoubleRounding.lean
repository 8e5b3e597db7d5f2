import Mathlib.Data.Int.Log
import Mathlib.Algebra.Order.Floor.Ring
import Mathlib.Data.Rat.Floor
import Mathlib.Tactic.Ring
import Mathlib.Tactic.FieldSimp
import Mathlib.Tactic.NormNum
import Mathlib.Tactic.Linarith

/-!
# Rounding to double precision

The values of IEEE 754 doubles as rationals: `toDouble` rounds to the nearest one,
ties to the even significand, with no bound on the exponent from above.  A value
from `2 ^ 1024` on stands for an infinite one.  Integers up to `2 ^ 53` are kept.
-/

namespace DoubleRounding

/-- The nearest integer, the even one of two. -/
def roundEven (value : ℚ) : ℤ :=
  let low := ⌊value⌋
  let rest := value - low
  if rest < 1 / 2 then low
  else if 1 / 2 < rest then low + 1
  else if low % 2 = 0 then low
  else low + 1

/-- The exponent of the unit in the last place. -/
def unitExponent (value : ℚ) : ℤ := max (Int.log 2 |value| - 52) (-1074)

/-- The nearest double. -/
def toDouble (value : ℚ) : ℚ :=
  roundEven (value / 2 ^ unitExponent value) * 2 ^ unitExponent value

def isFinite (value : ℚ) : Bool := |toDouble value| < 2 ^ 1024

/-- Towards zero. -/
def truncate (value : ℚ) : ℤ := if 0 ≤ value then ⌊value⌋ else ⌈value⌉

theorem roundEven_int (value : ℤ) : roundEven value = value := by
  simp [roundEven]

theorem truncate_int (value : ℤ) : truncate value = value := by
  simp [truncate]

/-- A multiple of the unit in the last place is a double. -/
theorem toDouble_of_multiple {value : ℚ} (count : ℤ)
    (multiple : value = count * 2 ^ unitExponent value) : toDouble value = value := by
  have nonzero : (2 : ℚ) ^ unitExponent value ≠ 0 :=
    zpow_ne_zero _ (by norm_num)
  have divided : value / 2 ^ unitExponent value = count := by
    rw [div_eq_iff nonzero]
    exact multiple
  rw [toDouble, divided, roundEven_int]
  exact multiple.symm

theorem unitExponent_int {value : ℤ} (small : |value| < 2 ^ 53) : unitExponent value ≤ 0 := by
  have bits : Nat.log 2 value.natAbs < 53 := by
    refine Nat.log_lt_of_lt_pow' (by decide) ?_
    rw [Int.abs_eq_natAbs] at small
    exact_mod_cast small
  have magnitude : |(value : ℚ)| = (value.natAbs : ℚ) := by
    rw [Nat.cast_natAbs, Int.cast_abs]
  rw [unitExponent, magnitude, Int.log_natCast]
  omega

/-- The integers of at most 53 bits are doubles. -/
theorem toDouble_int {value : ℤ} (small : |value| < 2 ^ 53) : toDouble value = value := by
  obtain ⟨places, exponent⟩ := Int.exists_eq_neg_ofNat (unitExponent_int small)
  refine toDouble_of_multiple (value * 2 ^ places) ?_
  rw [exponent, zpow_neg, zpow_natCast]
  push_cast
  field_simp

theorem isFinite_int {value : ℤ} (small : |value| < 2 ^ 53) : isFinite value = true := by
  rw [isFinite, toDouble_int small, decide_eq_true_iff]
  calc |(value : ℚ)| = ((|value| : ℤ) : ℚ) := (Int.cast_abs).symm
    _ < ((2 ^ 53 : ℤ) : ℚ) := by exact_mod_cast small
    _ = 2 ^ 53 := by norm_num
    _ ≤ 2 ^ 1024 := pow_le_pow_right₀ (by norm_num) (by decide)

end DoubleRounding
