import Mathlib.Data.Rat.Floor
import OpendlvCore.Rounding

/-!
# The PS3 controller

`PS3Controller::body` and `tearDown` (`PS3Controller.cpp:109-281`): joystick events move the two
values that every cycle sends. Numbers are exact. The array `m_axes`, which is written but
never read, the log and the device handle are left out.
-/
namespace OpendlvCore.PS3Controller
open Rounding

/-- `MIN_AXES_VALUE` and `MAX_AXES_VALUE`, the range of `short`. -/
def MIN_AXES_VALUE : ℤ := -32768
def MAX_AXES_VALUE : ℤ := 32767

/-- The members that `setUp` reads from the configuration. -/
structure Controller where
  accelerationMin : ℚ := 0
  accelerationMax : ℚ := 0
  decelerationMin : ℚ := 0
  decelerationMax : ℚ := 0
  steeringMin : ℚ := 0
  steeringMax : ℚ := 0
  deriving DecidableEq, Repr

/-- `struct js_event` without its time stamp. -/
structure JsEvent where
  value : Int16
  type : UInt8
  number : UInt8
  deriving DecidableEq, Repr

def JS_EVENT_AXIS : UInt8 := 0x02
def JS_EVENT_INIT : UInt8 := 0x80

structure ActuationRequest where
  acceleration : ℚ
  steering : ℚ
  isValid : Bool
  deriving DecidableEq, Repr

inductive ModuleExitCode where
  | OKAY | SERIOUS_ERROR
  deriving DecidableEq, Repr

/-- The local variables of `body` that persist over its cycles. -/
structure Values where
  acceleration : ℚ := 0
  steering : ℚ := 0
  deriving DecidableEq, Repr

/-- One pass of the outer loop: what `read` returns, and whether it then sets `errno` to
`EAGAIN`. -/
structure Cycle where
  events : List JsEvent
  again : Bool
  deriving DecidableEq, Repr

/-- "This will return a percent value over the whole range." -/
def percent (value : Int16) : ℚ :=
  ((value.toInt - MIN_AXES_VALUE : ℤ) : ℚ) / ((MAX_AXES_VALUE - MIN_AXES_VALUE : ℤ) : ℚ) * 100

/-- Lines 178-182 and 205-209: "modify in steps of 0.25" and no "-0". -/
def inQuarters (x : ℚ) : ℚ :=
  let x := (roundAway (4 * x) : ℚ) / 4
  if x < 1 / 1000 ∧ x > -(1 / 1000) then 0 else x

section Events
variable (c : Controller)

/-- Lines 162-182: the left analog stick. -/
def leftStick (value : Int16) : ℚ :=
  let percent := percent value
  let steering := percent / 100 * (c.steeringMax - c.steeringMin) + c.steeringMin
  let steering := steering * -1
  inQuarters steering

/-- Lines 188-209: the right analog stick. Only the accelerating half adds its minimum. -/
def rightStick (value : Int16) : ℚ :=
  let percent := percent value
  let acceleration :=
    if value < 0 then
      (100 - 2 * percent) / 100 * (c.accelerationMax - c.accelerationMin) + c.accelerationMin
    else (2 * percent - 100) / 100 * (c.decelerationMax - c.decelerationMin)
  inQuarters acceleration

/-- Lines 160-246: "no else-if as many of these events can occur simultaneously". -/
def axisEvent (v : Values) (js : JsEvent) : Values :=
  let v := if js.number = 0 then { v with steering := leftStick c js.value } else v
  let v := if js.number = 3 then { v with acceleration := rightStick c js.value } else v
  let v := if js.number = 18 then { v with steering := 0 } else v
  let v := if js.number = 17 then { v with acceleration := 0 } else v
  let v := if js.number = 19 then { v with acceleration := 0 } else v
  if js.number = 16 then { v with steering := 0 } else v

/-- The `switch` of line 155; its other cases do nothing. -/
def event (v : Values) (js : JsEvent) : Values :=
  if js.type &&& ~~~JS_EVENT_INIT = JS_EVENT_AXIS then axisEvent c v js else v

/-- The loop of `body` over the cycles in which the module is running, and what it sends. -/
def body (v : Values) : List Cycle → List ActuationRequest × ModuleExitCode
  | [] => ([], .OKAY)
  | cycle :: rest =>
    let v := cycle.events.foldl (event c) v
    if cycle.again then
      let (sent, code) := body v rest
      ({ acceleration := v.acceleration, steering := v.steering, isValid := true } :: sent, code)
    else ([], .SERIOUS_ERROR)

/-- "Send 0.0 for acceleration and steering." -/
def tearDown : ActuationRequest := { acceleration := 0, steering := 0, isValid := true }

/-- Everything the module sends. -/
def requests (cycles : List Cycle) : List ActuationRequest := (body c {} cycles).1 ++ [tearDown]

end Events

/-! ## What a run can send -/

section Runs
variable {c : Controller} {P : ℚ → Prop} {Q : ℚ → Prop} {v : Values}

/-- Both values are of an allowed kind. -/
def Values.Holds (P Q : ℚ → Prop) (v : Values) : Prop := P v.acceleration ∧ Q v.steering

theorem axisEvent_holds (acceleration : ∀ value, P (rightStick c value))
    (steering : ∀ value, Q (leftStick c value)) (noAcceleration : P 0) (noSteering : Q 0)
    (js : JsEvent) (holds : v.Holds P Q) : (axisEvent c v js).Holds P Q := by
  unfold axisEvent
  split_ifs <;> simp_all [Values.Holds]

theorem event_holds (acceleration : ∀ value, P (rightStick c value))
    (steering : ∀ value, Q (leftStick c value)) (noAcceleration : P 0) (noSteering : Q 0)
    (js : JsEvent) (holds : v.Holds P Q) : (event c v js).Holds P Q := by
  unfold event
  split
  · exact axisEvent_holds acceleration steering noAcceleration noSteering js holds
  · exact holds

theorem events_hold (acceleration : ∀ value, P (rightStick c value))
    (steering : ∀ value, Q (leftStick c value)) (noAcceleration : P 0) (noSteering : Q 0)
    (events : List JsEvent) (holds : v.Holds P Q) : (events.foldl (event c) v).Holds P Q := by
  induction events generalizing v with
  | nil => exact holds
  | cons js events ih =>
    exact ih (event_holds acceleration steering noAcceleration noSteering js holds)

/-- A cycle with one event of an analog stick. -/
theorem leftStick_sent (value : Int16) :
    { acceleration := 0, steering := leftStick c value, isValid := true } ∈
      requests c [⟨[⟨value, JS_EVENT_AXIS, 0⟩], true⟩] := by
  have axis : JS_EVENT_AXIS &&& ~~~JS_EVENT_INIT = JS_EVENT_AXIS := by decide
  simp [requests, body, event, axisEvent, axis]

theorem rightStick_sent (value : Int16) :
    { acceleration := rightStick c value, steering := 0, isValid := true } ∈
      requests c [⟨[⟨value, JS_EVENT_AXIS, 3⟩], true⟩] := by
  have axis : JS_EVENT_AXIS &&& ~~~JS_EVENT_INIT = JS_EVENT_AXIS := by decide
  simp [requests, body, event, axisEvent, axis]

/-- What holds of all stick positions and of 0 holds of everything `body` sends. -/
theorem body_sends (acceleration : ∀ value, P (rightStick c value))
    (steering : ∀ value, Q (leftStick c value)) (noAcceleration : P 0) (noSteering : Q 0)
    (cycles : List Cycle) (holds : v.Holds P Q) :
    ∀ r ∈ (body c v cycles).1, P r.acceleration ∧ Q r.steering := by
  induction cycles generalizing v with
  | nil => simp [body]
  | cons cycle rest ih =>
    have after := events_hold acceleration steering noAcceleration noSteering cycle.events holds
    unfold body
    split
    · intro r sent
      rcases List.mem_cons.mp sent with rfl | later
      · exact after
      · exact ih after r later
    · simp

theorem requests_hold_iff (noAcceleration : P 0) (noSteering : Q 0) :
    (∀ cycles, ∀ r ∈ requests c cycles, P r.acceleration ∧ Q r.steering) ↔
      (∀ value, P (rightStick c value)) ∧ ∀ value, Q (leftStick c value) := by
  constructor
  · intro always
    constructor
    · exact fun value => (always _ _ (rightStick_sent value)).1
    · exact fun value => (always _ _ (leftStick_sent value)).2
  · rintro ⟨acceleration, steering⟩ cycles r sent
    rcases List.mem_append.mp sent with fromBody | last
    · exact body_sends acceleration steering noAcceleration noSteering cycles
        ⟨noAcceleration, noSteering⟩ r fromBody
    · rw [List.mem_singleton.mp last]
      exact ⟨noAcceleration, noSteering⟩

end Runs

end OpendlvCore.PS3Controller
