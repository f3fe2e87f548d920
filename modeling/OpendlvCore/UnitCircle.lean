import Mathlib.Algebra.Order.Ring.Abs
import Mathlib.Tactic.Linarith
import Mathlib.Tactic.Ring

/-!
# Sines and cosines with an error

A sine and a cosine that are rounded lie near the unit circle. A turn with them keeps lengths up to
that error.
-/
namespace UnitCircle

variable {α : Type*} [CommRing α] [LinearOrder α] [IsStrictOrderedRing α]

/-- The squares of a sine and a cosine add up to 1 within `ε`. -/
structure Near (ε s c : α) : Prop where
  low : 1 - ε ≤ s ^ 2 + c ^ 2
  high : s ^ 2 + c ^ 2 ≤ 1 + ε

/-- A square `x` is `y` within the error of `n` turns. -/
structure Preserves (ε : α) (n : ℕ) (x y : α) : Prop where
  low : (1 - ε) ^ n * y ≤ x
  high : x ≤ (1 + ε) ^ n * y

section Turns
variable {ε s c s' c' x y z : α} {m n : ℕ}

theorem Near.nonneg (near : Near ε s c) : 0 ≤ ε := by
  have low := near.low
  have high := near.high
  linarith

/-- In a plane. -/
theorem Near.turn (near : Near ε s c) (x y : α) :
    Preserves ε 1 ((x * s - y * c) ^ 2 + (x * c + y * s) ^ 2) (x ^ 2 + y ^ 2) := by
  have same : (x * s - y * c) ^ 2 + (x * c + y * s) ^ 2 = (s ^ 2 + c ^ 2) * (x ^ 2 + y ^ 2) := by
    ring
  have positive : 0 ≤ x ^ 2 + y ^ 2 := add_nonneg (sq_nonneg x) (sq_nonneg y)
  rw [same]
  constructor
  · rw [pow_one]
    exact mul_le_mul_of_nonneg_right near.low positive
  · rw [pow_one]
    exact mul_le_mul_of_nonneg_right near.high positive

/-- What does not take part in a turn. -/
theorem Preserves.add (keeps : Preserves ε 1 x y) (error : 0 ≤ ε) (nonneg : 0 ≤ z) :
    Preserves ε 1 (x + z) (y + z) := by
  have low := keeps.low
  have high := keeps.high
  have less := mul_nonneg error nonneg
  rw [pow_one] at low high
  constructor
  · rw [pow_one]
    linarith
  · rw [pow_one]
    linarith

theorem Preserves.trans (first : Preserves ε m x y) (second : Preserves ε n y z) (error : 0 ≤ ε)
    (small : ε ≤ 1) : Preserves ε (m + n) x z := by
  have below : 0 ≤ (1 - ε) ^ m := pow_nonneg (sub_nonneg.mpr small) m
  have above : 0 ≤ (1 + ε) ^ m := pow_nonneg (add_nonneg zero_le_one error) m
  constructor
  · rw [pow_add, mul_assoc]
    exact (mul_le_mul_of_nonneg_left second.low below).trans first.low
  · rw [pow_add, mul_assoc]
    exact first.high.trans (mul_le_mul_of_nonneg_left second.high above)

/-- A point at the distance `d` under an elevation, beside the axis by `h`, and turned. -/
theorem Near.spherical (angle : Near ε s c) (elevation : Near ε s' c') (small : ε ≤ 1) (d h : α) :
    Preserves ε 2 ((d * c' * s - h * c) ^ 2 + (d * c' * c + h * s) ^ 2 + (d * s') ^ 2)
      (d ^ 2 + h ^ 2) := by
  have error := angle.nonneg
  have turned := (angle.turn (d * c') h).add error (sq_nonneg (d * s'))
  have raised := (elevation.turn d 0).add error (sq_nonneg h)
  have middle : (d * c') ^ 2 + h ^ 2 + (d * s') ^ 2 =
      (d * s' - 0 * c') ^ 2 + (d * c' + 0 * s') ^ 2 + h ^ 2 := by ring
  have whole : d ^ 2 + 0 ^ 2 + h ^ 2 = d ^ 2 + h ^ 2 := by ring
  rw [middle] at turned
  rw [whole] at raised
  exact turned.trans raised error small

end Turns

end UnitCircle
