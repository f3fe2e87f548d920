import OpendlvCore.LastWrites
import OpendlvCore.PS3Controller.Limits
import Mathlib.Data.List.Forall2

/-!
# The requests of a run

A request says what the last stick or button event says that moves one of its two values. Two runs
with the same buttons are compared by their sticks: mirrored sticks steer to the other side, and a
stick pushed further never gives less.
-/
namespace OpendlvCore.PS3Controller
open LastWrites Rounding

/-! ## The last events -/

/-- The two values of a request. -/
inductive Target where
  | acceleration
  | steering
  deriving DecidableEq, Repr

def Values.get (v : Values) : Target → ℚ
  | .acceleration => v.acceleration
  | .steering => v.steering

def Values.put (v : Values) : Target → ℚ → Values
  | .acceleration, x => { v with acceleration := x }
  | .steering, x => { v with steering := x }

section Definitions
variable (c : Controller)

/-- What an event moves, and where to: the sticks set a value, the four buttons kill it. -/
def writeOf (js : JsEvent) : Option (Target × ℚ) :=
  if js.type &&& ~~~JS_EVENT_INIT = JS_EVENT_AXIS then
    if js.number = 0 then some (.steering, leftStick c js.value)
    else if js.number = 3 then some (.acceleration, rightStick c js.value)
    else if js.number = 16 ∨ js.number = 18 then some (.steering, 0)
    else if js.number = 17 ∨ js.number = 19 then some (.acceleration, 0)
    else none
  else none

/-- What is sent behind these events. -/
def requestAfter (events : List JsEvent) : ActuationRequest where
  acceleration := (lastValue .acceleration (events.filterMap (writeOf c))).getD 0
  steering := (lastValue .steering (events.filterMap (writeOf c))).getD 0
  isValid := true

/-- The cycles in which the joystick can be read. -/
def readable (cycles : List Cycle) : List Cycle := cycles.takeWhile Cycle.again

end Definitions

section LastEvents
variable {c : Controller} {v : Values}

theorem event_eq (v : Values) (js : JsEvent) :
    event c v js = ((writeOf c js).map fun write => v.put write.1 write.2).getD v := by
  rw [event, writeOf]
  split
  · obtain ⟨value, type, number⟩ := js
    by_cases left : number = 0
    · subst left
      simp [axisEvent, Values.put]
    by_cases right : number = 3
    · subst right
      simp [axisEvent, Values.put]
    by_cases triangle : number = 16
    · subst triangle
      simp [axisEvent, Values.put]
    by_cases circle : number = 17
    · subst circle
      simp [axisEvent, Values.put]
    by_cases cross : number = 18
    · subst cross
      simp [axisEvent, Values.put]
    by_cases square : number = 19
    · subst square
      simp [axisEvent, Values.put]
    · simp [axisEvent, left, right, triangle, circle, cross, square]
  · rfl

theorem get_put (v : Values) (target other : Target) (x : ℚ) :
    (v.put target x).get other = if target = other then x else v.get other := by
  cases target <;> cases other <;> rfl

/-- The last event that moves a value decides. -/
theorem get_events (events : List JsEvent) (target : Target) :
    (events.foldl (event c) v).get target =
      (lastValue target (events.filterMap (writeOf c))).getD (v.get target) := by
  induction events using List.reverseRecOn with
  | nil => rfl
  | append_singleton events js ih =>
    rw [List.foldl_append, List.filterMap_append, List.foldl_cons, List.foldl_nil, event_eq]
    cases write : writeOf c js with
    | none =>
      rw [List.filterMap_cons_none write, List.filterMap_nil, List.append_nil]
      exact ih
    | some moved =>
      rw [List.filterMap_cons_some write, List.filterMap_nil, lastValue_append]
      simp only [Option.map_some, Option.getD_some, get_put]
      split
      · rfl
      · exact ih

theorem body_sent (before : List JsEvent) (cycles : List Cycle) :
    (body c (before.foldl (event c) {}) cycles).1 =
      (List.range (readable cycles).length).map fun k =>
        requestAfter c (before ++ (cycles.take (k + 1)).flatMap Cycle.events) := by
  induction cycles generalizing before with
  | nil => rfl
  | cons cycle rest ih =>
    rw [body, readable, List.takeWhile_cons]
    split
    · have later := ih (before ++ cycle.events)
      rw [List.foldl_append] at later
      have first := get_events (c := c) (v := {}) (before ++ cycle.events)
      rw [List.foldl_append] at first
      simp only [later, List.length_cons, List.range_succ_eq_map, List.map_cons,
        List.map_map]
      congr 1
      · rw [List.take_succ_cons, List.take_zero, List.flatMap_singleton, requestAfter,
          ActuationRequest.mk.injEq]
        exact ⟨first .acceleration, first .steering, rfl⟩
      · refine List.map_congr_left fun k _ => ?_
        rw [Function.comp_apply, List.take_succ_cons, List.flatMap_cons, List.append_assoc]
    · rfl

theorem body_okay (cycles : List Cycle) :
    (body c v cycles).2 = .OKAY ↔ (readable cycles).length = cycles.length := by
  induction cycles generalizing v with
  | nil => exact iff_of_true rfl rfl
  | cons cycle rest ih =>
    rw [body, readable, List.takeWhile_cons]
    split
    · rw [List.length_cons, List.length_cons, Nat.add_right_cancel_iff]
      exact ih
    · exact iff_of_false (by simp) (by simp)

/-- In every run each cycle up to the first one in which the joystick cannot be read sends what the
last events say, and nothing but zeros comes behind them. -/
theorem requests_last (c : Controller) (cycles : List Cycle) :
    requests c cycles =
        ((List.range (readable cycles).length).map fun k =>
          requestAfter c ((cycles.take (k + 1)).flatMap Cycle.events)) ++ [tearDown] ∧
      ((body c {} cycles).2 = .OKAY ↔ (readable cycles).length = cycles.length) :=
  ⟨congrArg (· ++ [tearDown]) (body_sent [] cycles), body_okay cycles⟩

end LastEvents

/-! ## Two runs -/

section Comparison
variable (left right : Int16 → Int16 → Prop)

/-- The same stick or button, at positions that are related for the axes of the two sticks. -/
structure JsEvent.Related (js js' : JsEvent) : Prop where
  type : js'.type = js.type
  number : js'.number = js.number
  leftStick : js.type &&& ~~~JS_EVENT_INIT = JS_EVENT_AXIS → js.number = 0 → left js.value js'.value
  rightStick : js.type &&& ~~~JS_EVENT_INIT = JS_EVENT_AXIS → js.number = 3 →
    right js.value js'.value

/-- The joystick is read in the same cycles. -/
structure Cycle.Related (cycle cycle' : Cycle) : Prop where
  events : List.Forall₂ (JsEvent.Related left right) cycle.events cycle'.events
  again : cycle'.again = cycle.again

variable (acceleration steering : ℚ → ℚ → Prop)

structure Values.Related (v v' : Values) : Prop where
  acceleration : acceleration v.acceleration v'.acceleration
  steering : steering v.steering v'.steering

structure ActuationRequest.Related (r r' : ActuationRequest) : Prop where
  acceleration : acceleration r.acceleration r'.acceleration
  steering : steering r.steering r'.steering
  isValid : r'.isValid = r.isValid

/-- What related stick positions are sent as is related. -/
structure Controller.Relates (c : Controller) : Prop where
  leftStick : ∀ value value', left value value' → steering (leftStick c value) (leftStick c value')
  rightStick : ∀ value value', right value value' →
    acceleration (rightStick c value) (rightStick c value')
  noAcceleration : acceleration 0 0
  noSteering : steering 0 0

variable {left right} {acceleration steering} {c : Controller} {v v' : Values} {js js' : JsEvent}

theorem Controller.Relates.event (relates : c.Relates left right acceleration steering)
    (events : js.Related left right js') (values : v.Related acceleration steering v') :
    (event c v js).Related acceleration steering (event c v' js') := by
  rw [event_eq, event_eq, writeOf, writeOf, events.type, events.number]
  split
  · case isTrue axis =>
    split
    · case isTrue stick =>
      exact ⟨values.acceleration, relates.leftStick _ _ (events.leftStick axis stick)⟩
    split
    · case isTrue stick =>
      exact ⟨relates.rightStick _ _ (events.rightStick axis stick), values.steering⟩
    split
    · exact ⟨values.acceleration, relates.noSteering⟩
    split
    · exact ⟨relates.noAcceleration, values.steering⟩
    · exact values
  · exact values

theorem Controller.Relates.events (relates : c.Relates left right acceleration steering)
    {events events' : List JsEvent} (same : List.Forall₂ (JsEvent.Related left right) events events')
    (values : v.Related acceleration steering v') :
    (events.foldl (PS3Controller.event c) v).Related acceleration steering
      (events'.foldl (PS3Controller.event c) v') := by
  induction same generalizing v v' with
  | nil => exact values
  | cons first _ ih => exact ih (relates.event first values)

theorem Controller.Relates.body (relates : c.Relates left right acceleration steering)
    {cycles cycles' : List Cycle} (same : List.Forall₂ (Cycle.Related left right) cycles cycles')
    (values : v.Related acceleration steering v') :
    List.Forall₂ (ActuationRequest.Related acceleration steering) (body c v cycles).1
      (body c v' cycles').1 := by
  induction same generalizing v v' with
  | nil => exact .nil
  | cons first _ ih =>
    have after := relates.events first.events values
    rw [PS3Controller.body, PS3Controller.body, first.again]
    split
    · exact .cons ⟨after.acceleration, after.steering, rfl⟩ (ih after)
    · exact .nil

theorem Controller.Relates.requests (relates : c.Relates left right acceleration steering)
    {cycles cycles' : List Cycle} (same : List.Forall₂ (Cycle.Related left right) cycles cycles') :
    List.Forall₂ (ActuationRequest.Related acceleration steering) (requests c cycles)
      (requests c cycles') :=
  List.rel_append (relates.body same ⟨relates.noAcceleration, relates.noSteering⟩)
    (.cons ⟨relates.noAcceleration, relates.noSteering, rfl⟩ .nil)

end Comparison

section Sticks
variable {c : Controller} {value value' : Int16}

/-- The other side of the stick: -1 is the mirror image of 0. -/
theorem position_not (value : Int16) : position (~~~value) = 1 - position value := by
  have low := value.le_toInt
  have high := value.toInt_lt
  have mirrored : (~~~value).toInt = -value.toInt - 1 := by
    rw [Int16.toInt_not]
    exact Int.bmod_eq_of_le (by omega) (by omega)
  rw [position, position, mirrored]
  push_cast
  ring

theorem leftStick_not (symmetric : c.steeringMin = -c.steeringMax) (value : Int16) :
    leftStick c (~~~value) = -leftStick c value := by
  rw [leftStick_eq, leftStick_eq, ← inSteps_neg, position_not, symmetric]
  congr 1
  ring

theorem position_mono (le : value ≤ value') : position value ≤ position value' := by
  have order : value.toInt ≤ value'.toInt := Int16.le_iff_toInt_le.mp le
  rw [position, position]
  apply div_le_div_of_nonneg_right _ (by norm_num)
  exact_mod_cast (by omega : value.toInt + 32768 ≤ value'.toInt + 32768)

theorem leftStick_antitone (order : c.steeringMin ≤ c.steeringMax) (le : value ≤ value') :
    leftStick c value' ≤ leftStick c value := by
  have further := mul_le_mul_of_nonneg_right (position_mono le) (sub_nonneg.mpr order)
  rw [leftStick_eq, leftStick_eq]
  exact inSteps_mono (by norm_num) (by linarith)

/-- From full acceleration to full braking. -/
theorem rightStick_antitone (ordered : c.Ordered) (forward : 0 ≤ c.accelerationMin)
    (le : value ≤ value') : rightStick c value' ≤ rightStick c value := by
  have further := position_mono le
  by_cases accelerates : value' < 0
  · have both : value < 0 := Int16.lt_of_le_of_lt le accelerates
    have less := mul_le_mul_of_nonneg_right further (sub_nonneg.mpr ordered.acceleration)
    rw [rightStick_accelerates accelerates, rightStick_accelerates both]
    exact inSteps_mono (by norm_num) (by linarith)
  · have brakes : ∀ {value : Int16}, ¬ value < 0 → 0 ≤ 2 * position value - 1 := by
      intro value positive
      have low : 0 ≤ value.toInt := by
        rw [Int16.lt_iff_toInt_lt] at positive
        exact not_lt.mp positive
      obtain ⟨k, here⟩ := Int.eq_ofNat_of_zero_le low
      rw [position_braking here]
      positivity
    have range : c.decelerationMax - c.decelerationMin ≤ 0 := sub_nonpos.mpr ordered.deceleration
    rw [rightStick_brakes accelerates]
    by_cases negative : value < 0
    · have share := position_accelerating negative
      have width : 0 ≤ c.accelerationMax - c.accelerationMin := sub_nonneg.mpr ordered.acceleration
      have up := mul_nonneg (by linarith : 0 ≤ 1 - 2 * position value) width
      have down := mul_nonpos_of_nonneg_of_nonpos (brakes accelerates) range
      rw [rightStick_accelerates negative]
      exact inSteps_mono (by norm_num) (by linarith)
    · have more := mul_le_mul_of_nonpos_right further range
      rw [rightStick_brakes negative]
      exact inSteps_mono (by norm_num) (by linarith)

/-- The mirror image of a position of the left stick, or the same one where it steers straight on. -/
def Mirrored (c : Controller) (value value' : Int16) : Prop :=
  value' = ~~~value ∨ value' = value ∧ leftStick c value = 0

/-- With symmetric limits, a run with the left stick mirrored steers to the other side in every
request and accelerates as before. -/
theorem requests_mirrored (symmetric : c.steeringMin = -c.steeringMax) {cycles cycles' : List Cycle}
    (mirrored : List.Forall₂ (Cycle.Related (Mirrored c) (fun value value' => value' = value))
      cycles cycles') :
    List.Forall₂ (ActuationRequest.Related (fun x x' => x' = x) (fun x x' => x' = -x))
      (requests c cycles) (requests c cycles') := by
  have relates : c.Relates (Mirrored c) (fun value value' => value' = value)
      (fun x x' => x' = x) fun x x' => x' = -x := by
    refine ⟨?_, fun _ _ same => congrArg (rightStick c) same, rfl, neg_zero.symm⟩
    rintro value value' (rfl | ⟨rfl, straight⟩)
    · exact leftStick_not symmetric value
    · rw [straight, neg_zero]
  exact relates.requests mirrored

/-- From rest a quarter to the left, with half of the acceleration and a button pressed. -/
theorem requests_mirrored_demo :
    List.Forall₂ (ActuationRequest.Related (fun x x' => x' = x) (fun x x' => x' = -x))
      (requests demoLimits [⟨[⟨0, 1, 0⟩, ⟨0, JS_EVENT_AXIS ||| JS_EVENT_INIT, 0⟩], true⟩,
        ⟨[⟨-16384, JS_EVENT_AXIS, 0⟩, ⟨-16384, JS_EVENT_AXIS, 3⟩], true⟩])
      (requests demoLimits [⟨[⟨0, 1, 0⟩, ⟨0, JS_EVENT_AXIS ||| JS_EVENT_INIT, 0⟩], true⟩,
        ⟨[⟨16383, JS_EVENT_AXIS, 0⟩, ⟨-16384, JS_EVENT_AXIS, 3⟩], true⟩]) := by
  have rest : Mirrored demoLimits 0 0 := .inr ⟨rfl, by decide +kernel⟩
  have button : JsEvent.Related (Mirrored demoLimits) (fun value value' => value' = value)
      ⟨0, 1, 0⟩ ⟨0, 1, 0⟩ :=
    ⟨rfl, rfl, fun axis => absurd axis (by decide), fun axis => absurd axis (by decide)⟩
  exact requests_mirrored rfl
    (.cons ⟨.cons button (.cons ⟨rfl, rfl, fun _ _ => rest, by decide⟩ .nil), rfl⟩
      (.cons ⟨.cons ⟨rfl, rfl, fun _ _ => .inl rfl, by decide⟩
        (.cons ⟨rfl, rfl, fun _ right => absurd right (by decide), fun _ _ => rfl⟩ .nil), rfl⟩ .nil))

/-- In every request, a stick further to the right never steers further to the left, and one further
down never accelerates more. -/
theorem requests_antitone (ordered : c.Ordered) (forward : 0 ≤ c.accelerationMin)
    {cycles cycles' : List Cycle}
    (further : List.Forall₂ (Cycle.Related (· ≤ ·) (· ≤ ·)) cycles cycles') :
    List.Forall₂ (ActuationRequest.Related (fun x x' => x' ≤ x) (fun x x' => x' ≤ x))
      (requests c cycles) (requests c cycles') := by
  have relates : c.Relates (· ≤ ·) (· ≤ ·) (fun x x' => x' ≤ x) fun x x' => x' ≤ x :=
    ⟨fun _ _ => leftStick_antitone ordered.steering, fun _ _ => rightStick_antitone ordered forward,
      le_refl 0, le_refl 0⟩
  exact relates.requests further

/-- From left to right, and from half of the acceleration to half of the brakes. -/
theorem requests_antitone_demo :
    List.Forall₂ (ActuationRequest.Related (fun x x' => x' ≤ x) (fun x x' => x' ≤ x))
      (requests demoLimits [⟨[⟨-16384, JS_EVENT_AXIS, 0⟩, ⟨-16384, JS_EVENT_AXIS, 3⟩], true⟩])
      (requests demoLimits [⟨[⟨16383, JS_EVENT_AXIS, 0⟩, ⟨16383, JS_EVENT_AXIS, 3⟩], true⟩]) :=
  requests_antitone ⟨by decide, by decide, by decide⟩ (by decide)
    (.cons ⟨.cons ⟨rfl, rfl, fun _ _ => by decide, by decide⟩
      (.cons ⟨rfl, rfl, by decide, fun _ _ => by decide⟩ .nil), rfl⟩ .nil)

end Sticks

end OpendlvCore.PS3Controller
