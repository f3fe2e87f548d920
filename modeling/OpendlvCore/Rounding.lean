import Mathlib.Algebra.Order.Floor.Ring
import Mathlib.Tactic.Linarith
import Mathlib.Tactic.Ring

/-!
# Rounding halves away from zero

`round` of the C library on exact numbers, and rounding to equal steps. A rounded value passes a
bound only where the bound itself rounds past it.
-/
namespace Rounding

variable {K : Type*} [Field K] [LinearOrder K] [IsStrictOrderedRing K] [FloorRing K]

/-- The nearest integer, halves away from zero. -/
def roundAway (x : K) : ℤ := if 0 ≤ x then ⌊x + 1 / 2⌋ else -⌊-x + 1 / 2⌋

/-- The nearest multiple of `1 / n`. -/
def inSteps (n x : K) : K := roundAway (n * x) / n

section Integers
variable {x y b : K}

theorem roundAway_zero : roundAway (0 : K) = 0 := by
  rw [roundAway, if_pos (le_refl _), Int.floor_eq_zero_iff]
  constructor <;> norm_num

theorem roundAway_neg (x : K) : roundAway (-x) = -roundAway x := by
  rcases lt_trichotomy x 0 with negative | rfl | positive
  · simp [roundAway, negative.le, not_le.mpr negative]
  · simp [roundAway_zero]
  · simp [roundAway, positive.le, not_le.mpr positive]

theorem roundAway_le (x : K) : (roundAway x : K) ≤ x + 1 / 2 := by
  unfold roundAway
  split
  · exact Int.floor_le _
  · have above := Int.lt_floor_add_one (-x + 1 / 2)
    push_cast
    linarith

theorem le_roundAway (x : K) : x - 1 / 2 ≤ roundAway x := by
  have below := roundAway_le (-x)
  rw [roundAway_neg] at below
  push_cast at below
  linarith

theorem roundAway_nonneg (positive : 0 ≤ x) : 0 ≤ roundAway x := by
  rw [roundAway, if_pos positive]
  apply Int.floor_nonneg.mpr
  linarith

theorem roundAway_mono (le : x ≤ y) : roundAway x ≤ roundAway y := by
  by_cases left : 0 ≤ x
  · rw [roundAway, roundAway, if_pos left, if_pos (left.trans le)]
    apply Int.floor_le_floor
    linarith
  · by_cases right : 0 ≤ y
    · have opposite := roundAway_nonneg (x := -x) (by linarith)
      rw [roundAway_neg] at opposite
      have positive := roundAway_nonneg right
      linarith
    · rw [roundAway, roundAway, if_neg left, if_neg right]
      apply neg_le_neg
      apply Int.floor_le_floor
      linarith

/-- Past a bound there is only what the bound rounds to. -/
theorem roundAway_eq_of_lt (le : x ≤ b) (past : b < roundAway x) : roundAway x = roundAway b := by
  have up := roundAway_le b
  have less : (roundAway b : K) < roundAway x + 1 := by linarith
  have most : roundAway b < roundAway x + 1 := by exact_mod_cast less
  have least := roundAway_mono le
  linarith

theorem roundAway_intCast (n : ℤ) : roundAway (n : K) = n := by
  have up := roundAway_le (n : K)
  have down := le_roundAway (n : K)
  have most : (roundAway (n : K) : K) < n + 1 := by linarith
  have least : (n : K) < roundAway (n : K) + 1 := by linarith
  have most' : roundAway (n : K) < n + 1 := by exact_mod_cast most
  have least' : n < roundAway (n : K) + 1 := by exact_mod_cast least
  linarith

theorem roundAway_sub_one (below : x ≤ 0) : roundAway (x - 1) = roundAway x - 1 := by
  obtain ⟨y, rfl⟩ : ∃ y, x = -y := ⟨-x, (neg_neg x).symm⟩
  have positive : 0 ≤ y := by linarith
  have next : roundAway (y + 1) = roundAway y + 1 := by
    rw [roundAway, roundAway, if_pos (by linarith), if_pos positive, add_right_comm,
      Int.floor_add_one]
  rw [show -y - 1 = -(y + 1) by ring, roundAway_neg, roundAway_neg, next]
  ring

/-- Values that fall by one at most leave out no integer. -/
theorem exists_roundAway {f : ℕ → K} (below : ∀ k, f k ≤ 0) (small : ∀ k, f k - 1 ≤ f (k + 1))
    {n : ℤ} {m : ℕ} (first : n ≤ roundAway (f 0)) (last : roundAway (f m) ≤ n) :
    ∃ k ≤ m, roundAway (f k) = n := by
  induction m with
  | zero => exact ⟨0, Nat.le_refl 0, le_antisymm last first⟩
  | succ m ih =>
    by_cases before : roundAway (f m) ≤ n
    · obtain ⟨k, le, here⟩ := ih before
      exact ⟨k, Nat.le_succ_of_le le, here⟩
    · have fall := roundAway_mono (small m)
      rw [roundAway_sub_one (below m)] at fall
      exact ⟨m + 1, Nat.le_refl _, by omega⟩

end Integers

section Steps
variable {n x y b : K}

theorem inSteps_neg (n x : K) : inSteps n (-x) = -inSteps n x := by
  rw [inSteps, mul_neg, roundAway_neg, Int.cast_neg, neg_div, inSteps]

theorem inSteps_mono (positive : 0 < n) (le : x ≤ y) : inSteps n x ≤ inSteps n y := by
  have scaled := roundAway_mono (mul_le_mul_of_nonneg_left le positive.le)
  apply div_le_div_of_nonneg_right _ positive.le
  exact_mod_cast scaled

/-- A step stays where it is. -/
theorem inSteps_of_mul_eq {k : ℤ} (positive : 0 < n) (step : n * x = k) : inSteps n x = x := by
  rw [inSteps, step, roundAway_intCast, ← step, mul_div_cancel_left₀ _ positive.ne']

theorem inSteps_eq_of_lt (positive : 0 < n) (le : x ≤ b) (past : b < inSteps n x) :
    inSteps n x = inSteps n b := by
  rw [inSteps, lt_div_iff₀ positive, mul_comm] at past
  rw [inSteps, inSteps, roundAway_eq_of_lt (mul_le_mul_of_nonneg_left le positive.le) past]

theorem inSteps_eq_of_gt (positive : 0 < n) (le : b ≤ x) (past : inSteps n x < b) :
    inSteps n x = inSteps n b := by
  have mirrored := inSteps_eq_of_lt positive (neg_le_neg le)
    (by rw [inSteps_neg]; exact neg_lt_neg past)
  rwa [inSteps_neg, inSteps_neg, neg_inj] at mirrored

end Steps

end Rounding
