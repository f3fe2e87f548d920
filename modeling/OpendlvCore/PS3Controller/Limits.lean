import Mathlib.Tactic.FieldSimp
import Mathlib.Tactic.Ring
import OpendlvCore.PS3Controller.Controller

/-!
# The configured limits

The values are mapped to their ranges first and changed afterwards: the steering changes its
sign, both are rounded to steps of 0.25, and the braking half of the right stick starts at 0
instead of its minimum. What is sent lies within the limits only when these allow for all that.
-/
namespace OpendlvCore.PS3Controller
open Rounding

/-- The minima and maxima are in order; the deceleration counts downwards. -/
structure Controller.Ordered (c : Controller) : Prop where
  steering : c.steeringMin ≤ c.steeringMax
  acceleration : c.accelerationMin ≤ c.accelerationMax
  deceleration : c.decelerationMax ≤ c.decelerationMin

section Within
variable (c : Controller)

def AllowedSteering (x : ℚ) : Prop := x = 0 ∨ c.steeringMin ≤ x ∧ x ≤ c.steeringMax

def AllowedAcceleration (x : ℚ) : Prop :=
  x = 0 ∨ (c.accelerationMin ≤ x ∧ x ≤ c.accelerationMax) ∨
    (c.decelerationMax ≤ x ∧ x ≤ c.decelerationMin)

/-- Every request of every run keeps to the limits. -/
def StaysWithinLimits : Prop :=
  ∀ cycles, ∀ r ∈ requests c cycles, AllowedAcceleration c r.acceleration ∧ AllowedSteering c r.steering

/-- The limits, rounded to steps of 0.25, allow for what happens to a value behind its mapping. -/
structure LimitsFit : Prop where
  /-- The two ends of the left stick, where a limit has changed its sign. -/
  left : AllowedSteering c (inSteps 4 (-c.steeringMin))
  right : AllowedSteering c (inSteps 4 (-c.steeringMax))
  /-- The most and the least acceleration. -/
  full : AllowedAcceleration c (inSteps 4 c.accelerationMax)
  least : AllowedAcceleration c
    (inSteps 4 (c.accelerationMin + (c.accelerationMax - c.accelerationMin) / 65535))
  /-- All positions of the braking half. -/
  braking : ∀ k < 32768, AllowedAcceleration c
    (inSteps 4 ((2 * k + 1 : ℕ) / 65535 * (c.decelerationMax - c.decelerationMin)))

end Within

section Positions
variable {c : Controller} {value : Int16}

/-- A multiple of 0.25 is either 0 or not small. -/
theorem inQuarters_eq (x : ℚ) : inQuarters x = inSteps 4 x := by
  simp only [inQuarters]
  split
  · rename_i small
    have low : (-1 : ℚ) < roundAway (4 * x) := by linarith [small.2]
    have high : (roundAway (4 * x) : ℚ) < 1 := by linarith [small.1]
    have low' : -1 < roundAway (4 * x) := by exact_mod_cast low
    have high' : roundAway (4 * x) < 1 := by exact_mod_cast high
    have zero : roundAway (4 * x) = 0 := by omega
    simp [inSteps, zero]
  · rfl

/-- How far the stick is from its lower end. -/
def position (value : Int16) : ℚ := (value.toInt + 32768 : ℤ) / 65535

theorem percent_eq (value : Int16) : percent value = position value * 100 := by
  simp [percent, position, MIN_AXES_VALUE, MAX_AXES_VALUE]

theorem position_nonneg (value : Int16) : 0 ≤ position value := by
  have low := value.le_toInt
  apply div_nonneg _ (by norm_num)
  exact_mod_cast (by omega : 0 ≤ value.toInt + 32768)

theorem position_le (value : Int16) : position value ≤ 1 := by
  have high := value.toInt_lt
  have top : ((value.toInt + 32768 : ℤ) : ℚ) ≤ 65535 := by
    exact_mod_cast (by omega : value.toInt + 32768 ≤ 65535)
  rw [position, div_le_one (by norm_num)]
  exact top

theorem leftStick_eq (c : Controller) (value : Int16) : leftStick c value =
    inSteps 4 (-(position value * (c.steeringMax - c.steeringMin) + c.steeringMin)) := by
  have share : percent value / 100 = position value := by
    rw [percent_eq]
    ring
  rw [leftStick, inQuarters_eq, share, mul_neg_one]

/-- The accelerating half: from the least share, 1 of 65535, to all. -/
theorem rightStick_accelerates (negative : value < 0) : rightStick c value =
    inSteps 4 ((1 - 2 * position value) * (c.accelerationMax - c.accelerationMin) +
      c.accelerationMin) := by
  have share : (100 - 2 * percent value) / 100 = 1 - 2 * position value := by
    rw [percent_eq]
    ring
  simp only [rightStick, if_pos negative, inQuarters_eq, share]

theorem rightStick_brakes (positive : ¬ value < 0) : rightStick c value =
    inSteps 4 ((2 * position value - 1) * (c.decelerationMax - c.decelerationMin)) := by
  have share : (2 * percent value - 100) / 100 = 2 * position value - 1 := by
    rw [percent_eq]
    ring
  simp only [rightStick, if_neg positive, inQuarters_eq, share]

theorem position_accelerating (negative : value < 0) : 1 / 65535 ≤ 1 - 2 * position value := by
  have high : value.toInt < 0 := Int16.lt_iff_toInt_lt.mp negative
  have odd : (1 : ℚ) ≤ -2 * value.toInt - 1 := by
    exact_mod_cast (by omega : (1 : ℤ) ≤ -2 * value.toInt - 1)
  have share : 1 - 2 * position value = (-2 * value.toInt - 1) / 65535 := by
    simp only [position]
    push_cast
    ring
  rw [share]
  linarith

theorem position_braking {k : ℕ} (here : value.toInt = k) :
    2 * position value - 1 = (2 * k + 1 : ℕ) / 65535 := by
  simp only [position, here]
  push_cast
  ring

end Positions

section Limits
variable {c : Controller}

/-- Between two allowed values, unless these lie on the wrong side of 0. -/
theorem allowedSteering_between {low x high : ℚ} (below : AllowedSteering c low)
    (above : AllowedSteering c high) (le : low ≤ x) (ge : x ≤ high)
    (positive : 0 < c.steeringMin → high ≤ 0) (negative : c.steeringMax < 0 → 0 ≤ low) :
    AllowedSteering c x := by
  by_cases right : 0 < c.steeringMin
  · have top := positive right
    rcases below with rfl | ⟨least, _⟩
    · exact .inl (by linarith)
    · linarith
  · by_cases left : c.steeringMax < 0
    · have bottom := negative left
      rcases above with rfl | ⟨_, most⟩
      · exact .inl (by linarith)
      · linarith
    · right
      constructor
      · rcases below with rfl | ⟨least, _⟩ <;> linarith
      · rcases above with rfl | ⟨_, most⟩ <;> linarith

/-- Between the ends of the left stick the steering is between their values. -/
theorem leftStick_allowed (ordered : c.Ordered) (fit : LimitsFit c) (value : Int16) :
    AllowedSteering c (leftStick c value) := by
  have order := ordered.steering
  have width : 0 ≤ position value * (c.steeringMax - c.steeringMin) :=
    mul_nonneg (position_nonneg value) (by linarith)
  have part : position value * (c.steeringMax - c.steeringMin) ≤ c.steeringMax - c.steeringMin :=
    mul_le_of_le_one_left (by linarith) (position_le value)
  have zero : inSteps 4 (0 : ℚ) = 0 := by simp [inSteps, roundAway_zero]
  rw [leftStick_eq]
  apply allowedSteering_between fit.right fit.left
  · apply inSteps_mono (by norm_num)
    linarith
  · apply inSteps_mono (by norm_num)
    linarith
  · intro positive
    rw [← zero]
    apply inSteps_mono (by norm_num)
    linarith
  · intro negative
    rw [← zero]
    apply inSteps_mono (by norm_num)
    linarith

/-- Between its least and its most value the acceleration leaves its range only to what one of
these two rounds to. -/
theorem accelerates_allowed (ordered : c.Ordered) (fit : LimitsFit c) {value : Int16}
    (negative : value < 0) : AllowedAcceleration c (rightStick c value) := by
  have order := ordered.acceleration
  have share := position_accelerating negative
  have part : 1 - 2 * position value ≤ 1 := by linarith [position_nonneg value]
  have width : 0 ≤ c.accelerationMax - c.accelerationMin := by linarith
  have least : (c.accelerationMax - c.accelerationMin) / 65535 ≤
      (1 - 2 * position value) * (c.accelerationMax - c.accelerationMin) := by
    have scaled := mul_le_mul_of_nonneg_right share width
    rwa [one_div_mul_eq_div] at scaled
  have most : (1 - 2 * position value) * (c.accelerationMax - c.accelerationMin) ≤
      c.accelerationMax - c.accelerationMin := mul_le_of_le_one_left width part
  have start : 0 ≤ (c.accelerationMax - c.accelerationMin) / 65535 := div_nonneg width (by norm_num)
  rw [rightStick_accelerates negative]
  generalize (1 - 2 * position value) * (c.accelerationMax - c.accelerationMin) = x at least most
  by_cases above : c.accelerationMax < inSteps 4 (x + c.accelerationMin)
  · rw [inSteps_eq_of_lt (by norm_num) (by linarith) above]
    exact fit.full
  · by_cases under : inSteps 4 (x + c.accelerationMin) < c.accelerationMin
    · have same := inSteps_eq_of_gt (b := c.accelerationMin +
        (c.accelerationMax - c.accelerationMin) / 65535) (by norm_num) (by linarith)
        (by linarith : inSteps 4 (x + c.accelerationMin) < _)
      rw [same]
      exact fit.least
    · exact .inr (.inl ⟨not_lt.mp under, not_lt.mp above⟩)

theorem rightStick_allowed (ordered : c.Ordered) (fit : LimitsFit c) (value : Int16) :
    AllowedAcceleration c (rightStick c value) := by
  by_cases negative : value < 0
  · exact accelerates_allowed ordered fit negative
  · have low : 0 ≤ value.toInt := by
      rw [Int16.lt_iff_toInt_lt] at negative
      exact not_lt.mp negative
    have high := value.toInt_lt
    obtain ⟨k, here⟩ := Int.eq_ofNat_of_zero_le low
    rw [rightStick_brakes negative, position_braking here]
    exact fit.braking k (by omega)

/-- The ends of both halves are stick positions. -/
theorem limitsFit_of_sticks (right : ∀ value, AllowedAcceleration c (rightStick c value))
    (left : ∀ value, AllowedSteering c (leftStick c value)) : LimitsFit c where
  left := by
    have bottom := left (-32768)
    have start : position (-32768) = 0 := by
      rw [position, show (-32768 : Int16).toInt = -32768 from by decide]
      norm_num
    rwa [leftStick_eq, start, zero_mul, zero_add] at bottom
  right := by
    have top := left 32767
    have finish : position 32767 = 1 := by
      rw [position, show (32767 : Int16).toInt = 32767 from by decide]
      norm_num
    rwa [leftStick_eq, finish, one_mul, sub_add_cancel] at top
  full := by
    have top := right (-32768)
    have start : position (-32768) = 0 := by
      rw [position, show (-32768 : Int16).toInt = -32768 from by decide]
      norm_num
    rwa [rightStick_accelerates (by decide), start, mul_zero, sub_zero, one_mul,
      sub_add_cancel] at top
  least := by
    have bottom := right (-1)
    have share : 1 - 2 * position (-1) = 1 / 65535 := by
      rw [position, show (-1 : Int16).toInt = -1 from by decide]
      norm_num
    rwa [rightStick_accelerates (by decide), share, one_div_mul_eq_div, add_comm] at bottom
  braking := by
    intro k small
    have here : (Int16.ofInt k).toInt = k := Int16.toInt_ofInt_of_le (by omega) (by omega)
    have positive : ¬ Int16.ofInt k < 0 := by
      rw [Int16.lt_iff_toInt_lt, here]
      exact not_lt.mpr (Int.natCast_nonneg k)
    have brakes := right (Int16.ofInt k)
    rwa [rightStick_brakes positive, position_braking here] at brakes

theorem braking_share {k : ℕ} (small : k < 32768) :
    1 / 65535 ≤ ((2 * k + 1 : ℕ) : ℚ) / 65535 ∧ ((2 * k + 1 : ℕ) : ℚ) / 65535 ≤ 1 := by
  constructor
  · apply div_le_div_of_nonneg_right _ (by norm_num)
    exact_mod_cast (by omega : 1 ≤ 2 * k + 1)
  · rw [div_le_one (by norm_num)]
    exact_mod_cast (by omega : 2 * k + 1 ≤ 65535)

/-- Without a minimum the full brake decides. -/
theorem braking_of_zero (zero : c.decelerationMin = 0) (negative : c.decelerationMax ≤ 0)
    (full : AllowedAcceleration c (inSteps 4 c.decelerationMax)) {k : ℕ} (small : k < 32768) :
    AllowedAcceleration c
      (inSteps 4 ((2 * k + 1 : ℕ) / 65535 * (c.decelerationMax - c.decelerationMin))) := by
  have share := (braking_share small).2
  have start : 0 ≤ ((2 * k + 1 : ℕ) : ℚ) / 65535 := by positivity
  rw [zero, sub_zero]
  have least : c.decelerationMax ≤ ((2 * k + 1 : ℕ) : ℚ) / 65535 * c.decelerationMax := by
    have scaled := mul_le_mul_of_nonpos_right share negative
    rwa [one_mul] at scaled
  have most : ((2 * k + 1 : ℕ) : ℚ) / 65535 * c.decelerationMax ≤ 0 :=
    mul_nonpos_of_nonneg_of_nonpos start negative
  by_cases under : inSteps 4 (((2 * k + 1 : ℕ) : ℚ) / 65535 * c.decelerationMax) < c.decelerationMax
  · rw [inSteps_eq_of_gt (by norm_num) least under]
    exact full
  · have rounded := inSteps_mono (n := (4 : ℚ)) (by norm_num) most
    rw [show inSteps 4 (0 : ℚ) = 0 by simp [inSteps, roundAway_zero]] at rounded
    exact .inr (.inr ⟨not_lt.mp under, by rwa [zero]⟩)

/-- Where the range is narrow enough, the braking half reaches all steps of 0.25 between its ends. -/
theorem braking_iff_steps (order : c.decelerationMax ≤ c.decelerationMin)
    (narrow : 8 * (c.decelerationMin - c.decelerationMax) ≤ 65535) :
    (∀ k < 32768, AllowedAcceleration c
      (inSteps 4 ((2 * k + 1 : ℕ) / 65535 * (c.decelerationMax - c.decelerationMin)))) ↔
    ∀ n : ℤ, inSteps 4 (c.decelerationMax - c.decelerationMin) ≤ n / 4 →
      n / 4 ≤ inSteps 4 ((c.decelerationMax - c.decelerationMin) / 65535) →
      AllowedAcceleration c (n / 4) := by
  have negative : c.decelerationMax - c.decelerationMin ≤ 0 := by linarith
  have width : -65535 ≤ 8 * (c.decelerationMax - c.decelerationMin) := by linarith
  generalize c.decelerationMax - c.decelerationMin = range at negative width
  constructor
  · intro braking n last first
    have below : ∀ k : ℕ, 4 * ((2 * k + 1 : ℕ) / 65535 * range) ≤ 0 := fun k =>
      mul_nonpos_of_nonneg_of_nonpos (by norm_num)
        (mul_nonpos_of_nonneg_of_nonpos (by positivity) negative)
    have small : ∀ k : ℕ, 4 * ((2 * k + 1 : ℕ) / 65535 * range) - 1 ≤
        4 * ((2 * (k + 1) + 1 : ℕ) / 65535 * range) := by
      intro k
      push_cast
      linarith
    obtain ⟨k, le, here⟩ := exists_roundAway below small (n := n) (m := 32767)
      (by
        rw [inSteps, div_le_div_iff_of_pos_right (by norm_num)] at first
        rw [Nat.mul_zero, Nat.zero_add, Nat.cast_one, one_div_mul_eq_div]
        exact_mod_cast first)
      (by
        rw [inSteps, div_le_div_iff_of_pos_right (by norm_num)] at last
        rw [show ((2 * 32767 + 1 : ℕ) : ℚ) / 65535 = 1 by norm_num, one_mul]
        exact_mod_cast last)
    rw [← here]
    exact braking k (by omega)
  · intro steps k small
    obtain ⟨start, share⟩ := braking_share small
    apply steps (roundAway (4 * ((2 * k + 1 : ℕ) / 65535 * range)))
    · apply inSteps_mono (by norm_num)
      have scaled := mul_le_mul_of_nonpos_right share negative
      rwa [one_mul] at scaled
    · apply inSteps_mono (by norm_num)
      have scaled := mul_le_mul_of_nonpos_right start negative
      rwa [one_div_mul_eq_div] at scaled

/-- Whatever the events are, the requests keep to the limits exactly when the limits fit. -/
theorem requests_stay_within_iff (ordered : c.Ordered) : StaysWithinLimits c ↔ LimitsFit c := by
  rw [StaysWithinLimits, requests_hold_iff (P := AllowedAcceleration c) (Q := AllowedSteering c)
    (.inl rfl) (.inl rfl)]
  constructor
  · exact fun sticks => limitsFit_of_sticks sticks.1 sticks.2
  · exact fun fit => ⟨rightStick_allowed ordered fit, leftStick_allowed ordered fit⟩

end Limits

/-- The limits of `demo-ps3controller`. -/
def demoLimits : Controller :=
  { accelerationMax := 50, decelerationMax := -10, steeringMin := -10, steeringMax := 10 }

theorem requests_stay_within_iff_demo : StaysWithinLimits demoLimits := by
  have ordered : demoLimits.Ordered := ⟨by decide, by decide, by decide⟩
  have ten : inSteps 4 (10 : ℚ) = 10 := inSteps_of_mul_eq (k := 40) (by norm_num) (by norm_num)
  have fifty : inSteps 4 (50 : ℚ) = 50 := inSteps_of_mul_eq (k := 200) (by norm_num) (by norm_num)
  have brake : inSteps 4 (-10 : ℚ) = -10 := by rw [inSteps_neg, ten]
  apply (requests_stay_within_iff ordered).mpr
  refine ⟨?_, ?_, ?_, ?_, ?_⟩
  · right
    simp [demoLimits, ten]
  · right
    simp [demoLimits, brake]
  · right
    simp [demoLimits, fifty]
  · left
    have zero : roundAway (4 * (50 / 65535) : ℚ) = 0 := by decide +kernel
    simp [demoLimits, inSteps, zero]
  · intro k small
    apply braking_of_zero rfl (by decide) _ small
    right
    right
    simp [demoLimits, brake]

/-- Limits of different size to the left and to the right: at its right end the stick sends -10. -/
theorem steering_leaves_limits : ¬ ∀ c : Controller, c.Ordered → StaysWithinLimits c := by
  intro always
  have within := always { demoLimits with steeringMin := -5 } ⟨by decide, by decide, by decide⟩
  have sent := (within _ _ (leftStick_sent 32767)).2
  have value : leftStick { demoLimits with steeringMin := -5 } 32767 = -10 := by decide +kernel
  rw [value] at sent
  revert sent
  unfold AllowedSteering
  decide

end OpendlvCore.PS3Controller
