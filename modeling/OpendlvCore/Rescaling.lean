import Mathlib.Algebra.Order.Field.Basic
import Mathlib.Tactic.FieldSimp
import Mathlib.Tactic.Linarith
import Mathlib.Tactic.Ring

/-!
# Rescaling

One interval is taken to another, end to end. Moving a value by the middle of the one, scaling it by
the quotient of the halves and moving it to the middle of the other comes to the same.
-/
namespace Rescaling

variable {K : Type*} [Field K]

/-- From the interval with ends `a` and `b` to the one with ends `c` and `d`. -/
def rescale (a b c d x : K) : K := c + (x - a) * ((d - c) / (b - a))

section Ends
variable {a b c d x : K}

theorem rescale_left : rescale a b c d a = c := by
  rw [rescale, sub_self, zero_mul, add_zero]

theorem rescale_right (differ : a ≠ b) : rescale a b c d b = d := by
  rw [rescale, mul_div_cancel₀ _ (sub_ne_zero.mpr differ.symm), add_sub_cancel]

/-- An interval of one point. -/
theorem rescale_point : rescale a b c c x = c := by
  rw [rescale, sub_self, zero_div, mul_zero, add_zero]

end Ends

section Ordered
variable [LinearOrder K] [IsStrictOrderedRing K] {a b c d x y : K}

theorem half_eq_zero_iff : b - (a + b) / 2 = 0 ↔ a = b := by
  constructor
  · intro zero
    linarith
  · rintro rfl
    ring

theorem about_middle (differ : a ≠ b) :
    (x - (a + b) / 2) * ((d - (c + d) / 2) / (b - (a + b) / 2)) + (c + d) / 2 =
      rescale a b c d x := by
  have nonzero : b - a ≠ 0 := sub_ne_zero.mpr differ.symm
  have half : b - (a + b) / 2 = (b - a) / 2 := by ring
  rw [rescale, half]
  field_simp
  ring

theorem rescale_mono (ordered : a < b) (ordered' : c ≤ d) (le : x ≤ y) :
    rescale a b c d x ≤ rescale a b c d y := by
  have slope : 0 ≤ (d - c) / (b - a) := div_nonneg (sub_nonneg.mpr ordered') (sub_pos.mpr ordered).le
  exact add_le_add_right (mul_le_mul_of_nonneg_right (sub_le_sub_right le a) slope) c

end Ordered

end Rescaling
