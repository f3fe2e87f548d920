import Mathlib.Algebra.Order.Field.Basic
import Mathlib.Algebra.Order.Ring.Rat
import Mathlib.Data.List.Induction
import Mathlib.Order.Bounds.Basic
import Mathlib.Tactic.Linarith
import Mathlib.Tactic.NormNum
import Mathlib.Tactic.Ring

/-!
# The calibration of the IMU

`PololuAltImu10Device::initCalibration`, `CalibrateAccelerometer` and `CalibrateMagnetometer`
(`Pololualtimu10device.cpp:120-141, 403-417, 540-555`). Numbers are exact, so that the quotient
by zero, which is infinite in the code and makes the value a NaN, has no value here. The
gyroscope, the calibration file and the mounting rotation are left out.
-/
namespace OpendlvCore.Imu

/-! ## Collecting the extremes of a set -/

section Extremes
variable {α : Type*} [LinearOrder α] {s : Set α} {least greatest : α}

/-- What a pair of running extremes has to be to the values collected so far. -/
structure Spans (least greatest : α) (s : Set α) : Prop where
  isLeast : IsLeast s least
  isGreatest : IsGreatest s greatest

theorem Spans.singleton (a : α) : Spans a a {a} := ⟨isLeast_singleton, isGreatest_singleton⟩

theorem Spans.insert (h : Spans least greatest s) (a : α) :
    Spans (min a least) (max a greatest) (insert a s) :=
  ⟨h.isLeast.insert a, h.isGreatest.insert a⟩

theorem Spans.le (h : Spans least greatest s) : least ≤ greatest := h.isLeast.2 h.isGreatest.1

/-- The extremes differ as soon as one value differs from another one. -/
theorem Spans.ne_iff (h : Spans least greatest s) {first : α} (member : first ∈ s) :
    least ≠ greatest ↔ ∃ a ∈ s, a ≠ first := by
  constructor
  · intro differ
    by_contra! same
    exact differ ((same least h.isLeast.1).trans (same greatest h.isGreatest.1).symm)
  · rintro ⟨a, inside, differ⟩ rfl
    have low : ∀ b ∈ s, b = least := fun b hb => le_antisymm (h.isGreatest.2 hb) (h.isLeast.2 hb)
    exact differ ((low a inside).trans (low first member).symm)

end Extremes

/-! ## The device -/

/-- Entry `i` of the two tables of one sensor, as `m_accelerometerMinVal[i]` and
`m_accelerometerMaxVal[i]`. -/
structure Extremes where
  minVal : ℚ := 0
  maxVal : ℚ := 0
  deriving DecidableEq, Repr

/-- A `std::vector<float>` of three components. -/
abbrev Reading := Fin 3 → ℚ

/-- The members that the calibration uses. -/
structure PololuAltImu10Device where
  lockCalibration : Bool
  accelerometer : Fin 3 → Extremes := fun _ => {}
  magnetometer : Fin 3 → Extremes := fun _ => {}

namespace Extremes

/-- Lines 405-411 and 542-548. -/
def collect (e : Extremes) (value : ℚ) : Extremes :=
  if value > e.maxVal then { e with maxVal := value }
  else if value < e.minVal then { e with minVal := value }
  else e

def offset (e : Extremes) : ℚ := (e.minVal + e.maxVal) / 2

/-- What 9.82 and 1.0 are divided by. -/
def divisor (e : Extremes) : ℚ := e.maxVal - e.offset

/-- "Hard iron calibration centering the value around 0". -/
def centre (span : ℚ) (e : Extremes) (value : ℚ) : Option ℚ :=
  if e.divisor = 0 then none else some ((value - e.offset) * (span / e.divisor))

end Extremes

/-- The loop of both functions, whose three passes touch one axis each. -/
def calibrate (lock : Bool) (span : ℚ) (tables : Fin 3 → Extremes) (val : Reading) :
    (Fin 3 → Extremes) × (Fin 3 → Option ℚ) :=
  let tables := if lock then tables else fun i => (tables i).collect (val i)
  (tables, fun i => (tables i).centre span (val i))

namespace PololuAltImu10Device
variable (d : PololuAltImu10Device)

/-- The first reading of a sensor is both extremes of each axis. -/
def initCalibration (accelerationReading magneticReading : Reading) : PololuAltImu10Device :=
  { d with
    accelerometer := fun i => { minVal := accelerationReading i, maxVal := accelerationReading i }
    magnetometer := fun i => { minVal := magneticReading i, maxVal := magneticReading i } }

def calibrateAccelerometer (val : Reading) : PololuAltImu10Device × (Fin 3 → Option ℚ) :=
  let (tables, val) := calibrate d.lockCalibration (982 / 100) d.accelerometer val
  ({ d with accelerometer := tables }, val)

def calibrateMagnetometer (val : Reading) : PololuAltImu10Device × (Fin 3 → Option ℚ) :=
  let (tables, val) := calibrate d.lockCalibration 1 d.magnetometer val
  ({ d with magnetometer := tables }, val)

end PololuAltImu10Device

inductive Sensor where
  | accelerometer | magnetometer
  deriving DecidableEq, Repr

/-- The largest value that a calibrated component is to have. -/
def Sensor.span : Sensor → ℚ
  | .accelerometer => 982 / 100
  | .magnetometer => 1

namespace PololuAltImu10Device

/-- `ReadAccelerometer` or `ReadMagnetometer`, from the raw reading to the calibrated one. -/
def read (d : PololuAltImu10Device) : Sensor × Reading → PololuAltImu10Device × (Fin 3 → Option ℚ)
  | (.accelerometer, val) => d.calibrateAccelerometer val
  | (.magnetometer, val) => d.calibrateMagnetometer val

def tables (d : PololuAltImu10Device) : Sensor → Fin 3 → Extremes
  | .accelerometer => d.accelerometer
  | .magnetometer => d.magnetometer

/-- The device after a sequence of readings of both sensors. -/
def after (d : PololuAltImu10Device) (calls : List (Sensor × Reading)) : PololuAltImu10Device :=
  calls.foldl (fun d call => (d.read call).1) d

end PololuAltImu10Device

/-! ## One use of the calibration -/

namespace Extremes
variable {e : Extremes} {s : Set ℚ} {value span : ℚ}

/-- The `else if` loses nothing: the extremes are ordered, so that no value passes both. -/
theorem collect_spans (h : Spans e.minVal e.maxVal s) (value : ℚ) :
    Spans (e.collect value).minVal (e.collect value).maxVal (insert value s) := by
  have ordered := h.le
  have inserted := h.insert value
  unfold collect
  split
  · case isTrue above =>
      simpa [min_eq_right (ordered.trans above.le), max_eq_left above.le] using inserted
  · case isFalse below =>
      have below := not_lt.1 below
      split
      · case isTrue under =>
          simpa [min_eq_left under.le, max_eq_right below] using inserted
      · case isFalse between =>
          simpa [min_eq_right (not_lt.1 between), max_eq_right below] using inserted

theorem divisor_eq (e : Extremes) : e.divisor = (e.maxVal - e.minVal) / 2 := by
  unfold divisor offset
  ring

theorem divisor_ne_zero_iff : e.divisor ≠ 0 ↔ e.minVal ≠ e.maxVal := by
  rw [divisor_eq, ne_eq, ne_eq, div_eq_zero_iff, sub_eq_zero]
  simp [eq_comm]

/-- The offset is no farther from a value between the extremes than from the maximum. -/
theorem centre_bounded (ordered : e.minVal < e.maxVal) (low : e.minVal ≤ value)
    (high : value ≤ e.maxVal) (span_nonneg : 0 ≤ span) :
    ∃ x, e.centre span value = some x ∧ -span ≤ x ∧ x ≤ span := by
  have positive : 0 < e.divisor := by
    rw [divisor_eq]
    linarith
  have distance : |value - e.offset| ≤ e.divisor := by
    rw [abs_le, divisor_eq, offset]
    constructor <;> linarith
  refine ⟨(value - e.offset) * (span / e.divisor), by simp [centre, positive.ne'], ?_⟩
  rw [← abs_le, abs_mul, abs_of_nonneg (div_nonneg span_nonneg positive.le)]
  calc |value - e.offset| * (span / e.divisor)
      ≤ e.divisor * (span / e.divisor) :=
        mul_le_mul_of_nonneg_right distance (div_nonneg span_nonneg positive.le)
    _ = span := mul_div_cancel₀ span positive.ne'

end Extremes

/-- What one use of the calibration owes one axis of its reading. -/
structure Calibrates (span : ℚ) (before after : Extremes) (value : ℚ) (result : Option ℚ) :
    Prop where
  divides : after.divisor ≠ 0
  inside : after.minVal ≤ value ∧ value ≤ after.maxVal
  min_le : after.minVal ≤ before.minVal
  le_max : before.maxVal ≤ after.maxVal
  bounded : ∃ x, result = some x ∧ -span ≤ x ∧ x ≤ span

/-- Everything but the division is right on every axis; the division is right as soon as two
values on the axis differ. -/
theorem collect_calibrates_iff {e : Extremes} {s : Set ℚ} {first span : ℚ}
    (h : Spans e.minVal e.maxVal s) (member : first ∈ s) (span_nonneg : 0 ≤ span) (value : ℚ) :
    Calibrates span e (e.collect value) value ((e.collect value).centre span value) ↔
      ∃ x ∈ insert value s, x ≠ first := by
  have collected := e.collect_spans h value
  have differ := collected.ne_iff (Set.mem_insert_of_mem value member)
  rw [← differ, ← Extremes.divisor_ne_zero_iff]
  refine ⟨Calibrates.divides, fun divides => ?_⟩
  have inside : (e.collect value).minVal ≤ value ∧ value ≤ (e.collect value).maxVal :=
    ⟨collected.isLeast.2 (Set.mem_insert value s), collected.isGreatest.2 (Set.mem_insert value s)⟩
  have strict := lt_of_le_of_ne collected.le (Extremes.divisor_ne_zero_iff.1 divides)
  exact {
    divides := divides
    inside := inside
    min_le := collected.isLeast.2 (Set.mem_insert_of_mem value h.isLeast.1)
    le_max := collected.isGreatest.2 (Set.mem_insert_of_mem value h.isGreatest.1)
    bounded := Extremes.centre_bounded strict inside.1 inside.2 span_nonneg }

/-! ## Runs -/

namespace PololuAltImu10Device
variable (d : PololuAltImu10Device)

@[simp] theorem read_lockCalibration (call : Sensor × Reading) :
    (d.read call).1.lockCalibration = d.lockCalibration := by
  obtain ⟨_ | _, val⟩ := call <;> rfl

/-- In unlocked mode a reading is collected in the tables of its own sensor only. -/
theorem read_tables (unlocked : d.lockCalibration = false) (call : Sensor × Reading)
    (sensor : Sensor) (i : Fin 3) :
    (d.read call).1.tables sensor i =
      if call.1 = sensor then (d.tables sensor i).collect (call.2 i) else d.tables sensor i := by
  obtain ⟨_ | _, val⟩ := call <;> cases sensor <;>
    simp [read, tables, calibrateAccelerometer, calibrateMagnetometer, calibrate, unlocked]

theorem read_result (call : Sensor × Reading) (i : Fin 3) :
    (d.read call).2 i =
      ((d.read call).1.tables call.1 i).centre call.1.span (call.2 i) := by
  obtain ⟨_ | _, val⟩ := call <;> rfl

theorem after_append (calls : List (Sensor × Reading)) (call : Sensor × Reading) :
    d.after (calls ++ [call]) = ((d.after calls).read call).1 := by
  simp [after]

@[simp] theorem after_lockCalibration (calls : List (Sensor × Reading)) :
    (d.after calls).lockCalibration = d.lockCalibration := by
  induction calls using List.reverseRecOn with
  | nil => rfl
  | append_singleton calls call ih => rw [after_append, read_lockCalibration, ih]

end PololuAltImu10Device

/-- The values on one axis of a sensor: its first reading and those that followed. -/
def seen (first : Sensor → Reading) (calls : List (Sensor × Reading)) (sensor : Sensor)
    (i : Fin 3) : Set ℚ :=
  {x | x = first sensor i ∨ ∃ call ∈ calls, call.1 = sensor ∧ call.2 i = x}

/-- The device whose first readings are these. -/
def PololuAltImu10Device.initialised (d : PololuAltImu10Device) (first : Sensor → Reading) :
    PololuAltImu10Device :=
  d.initCalibration (first .accelerometer) (first .magnetometer)

section Run
variable {d : PololuAltImu10Device} (first : Sensor → Reading)

theorem seen_append (calls : List (Sensor × Reading)) (call : Sensor × Reading) (sensor : Sensor)
    (i : Fin 3) :
    seen first (calls ++ [call]) sensor i =
      if call.1 = sensor then insert (call.2 i) (seen first calls sensor i)
      else seen first calls sensor i := by
  ext x
  by_cases same : call.1 = sensor
  · simp only [seen, same, List.mem_append, List.mem_singleton, or_and_right, exists_or,
      exists_eq_left, if_pos, true_and, Set.mem_insert_iff, Set.mem_ofPred_eq]
    rw [← or_assoc, or_comm, eq_comm]
  · simp [seen, same, or_and_right, exists_or]

/-- The tables hold the extremes of all the values seen. -/
theorem run_spans (unlocked : d.lockCalibration = false) (calls : List (Sensor × Reading))
    (sensor : Sensor) (i : Fin 3) :
    Spans (((d.initialised first).after calls).tables sensor i).minVal
      (((d.initialised first).after calls).tables sensor i).maxVal (seen first calls sensor i) := by
  induction calls using List.reverseRecOn with
  | nil =>
    have alone : seen first [] sensor i = {first sensor i} := by
      ext x
      simp [seen]
    rw [alone]
    cases sensor <;> exact Spans.singleton _
  | append_singleton calls call ih =>
    have still : ((d.initialised first).after calls).lockCalibration = false := by
      rw [PololuAltImu10Device.after_lockCalibration]
      exact unlocked
    rw [PololuAltImu10Device.after_append, PololuAltImu10Device.read_tables _ still, seen_append]
    split
    · exact Extremes.collect_spans ih (call.2 i)
    · exact ih

/-- After any first reading and any later readings, one more use of the calibration is well
defined and bounded on an axis exactly when the sensor's readings on this axis, the one at hand
included, are not all equal to the first. -/
theorem readings_calibrated_iff (unlocked : d.lockCalibration = false)
    (calls : List (Sensor × Reading)) (call : Sensor × Reading) (i : Fin 3) :
    let before := (d.initialised first).after calls
    Calibrates call.1.span (before.tables call.1 i) ((before.read call).1.tables call.1 i)
        (call.2 i) ((before.read call).2 i) ↔
      ∃ value ∈ seen first (calls ++ [call]) call.1 i, value ≠ first call.1 i := by
  intro before
  have still : before.lockCalibration = false := by
    rw [PololuAltImu10Device.after_lockCalibration]
    exact unlocked
  have spans := run_spans first unlocked calls call.1 i
  have member : first call.1 i ∈ seen first calls call.1 i := Or.inl rfl
  have span_nonneg : 0 ≤ call.1.span := by cases call.1 <;> norm_num [Sensor.span]
  rw [PololuAltImu10Device.read_result, before.read_tables still, if_pos rfl,
    collect_calibrates_iff spans member span_nonneg, seen_append, if_pos rfl]

end Run

/-- A sensor that lies still divides by zero at its next reading. -/
theorem still_reading_divides_by_zero :
    ¬ ∀ (d : PololuAltImu10Device) (first : Sensor → Reading) (calls : List (Sensor × Reading))
      (call : Sensor × Reading) (i : Fin 3), d.lockCalibration = false →
      let before := (d.initialised first).after calls
      Calibrates call.1.span (before.tables call.1 i) ((before.read call).1.tables call.1 i)
        (call.2 i) ((before.read call).2 i) := by
  intro always
  have calibrates := always { lockCalibration := false } (fun _ _ => 0) []
    (.accelerometer, fun _ => 0) 0 rfl
  exact Extremes.divisor_ne_zero_iff.1 calibrates.divides (by decide)

/-- The two readings of the accelerometer differ, and the second one becomes the span. -/
theorem readings_calibrated_moving :
    Calibrates (982 / 100) { minVal := 0, maxVal := 0 } { minVal := 0, maxVal := 1 } 1
      (some (982 / 100)) := by
  have moved := (readings_calibrated_iff (fun _ _ => 0) (d := { lockCalibration := false }) rfl []
    (.accelerometer, fun _ => 1) 0).2 ⟨1, Or.inr ⟨(.accelerometer, fun _ => 1), by simp⟩, by simp⟩
  norm_num [PololuAltImu10Device.after, PololuAltImu10Device.read, Extremes.centre, calibrate,
    Extremes.divisor, Extremes.offset, Extremes.collect, PololuAltImu10Device.tables,
    PololuAltImu10Device.calibrateAccelerometer, PololuAltImu10Device.initialised,
    PololuAltImu10Device.initCalibration, Sensor.span] at moved ⊢
  exact moved

end OpendlvCore.Imu
