import OpendlvCore.Imu.Sessions
import OpendlvCore.UnitCircle

/-!
# What the proxy publishes

The calibration keeps each component of a reading within its span, and the mounting rotation keeps
lengths up to the error of its sines and cosines, so that no published vector is longer than the
diagonal of the cube the components span by more than that.
-/
namespace OpendlvCore.Imu
open CBytes CText SignificantDigits Matrix UnitCircle

/-! ## The mounting rotation -/

/-- The error of the sine and the cosine, which are rounded. -/
def Trigonometry.Near (t : Trigonometry) (ε : ℚ) : Prop :=
  ∀ x, UnitCircle.Near ε (t.sin x) (t.cos x)

section Rotation
variable {t : Trigonometry}

theorem norm_of_three (v : Reading) : v ⬝ᵥ v = v 0 ^ 2 + v 1 ^ 2 + v 2 ^ 2 := by
  rw [dotProduct, Fin.sum_univ_three]
  ring

/-- A turn about one axis keeps lengths, whichever axis it is. -/
theorem norm_turned {ε c s : ℚ} (near : UnitCircle.Near ε s c) (v : Reading) :
    Preserves ε 1 ((!![1, 0, 0; 0, c, -s; 0, s, c] *ᵥ v) ⬝ᵥ (!![1, 0, 0; 0, c, -s; 0, s, c] *ᵥ v))
        (v ⬝ᵥ v) ∧
      Preserves ε 1 ((!![c, 0, s; 0, 1, 0; -s, 0, c] *ᵥ v) ⬝ᵥ (!![c, 0, s; 0, 1, 0; -s, 0, c] *ᵥ v))
        (v ⬝ᵥ v) ∧
      Preserves ε 1 ((!![c, -s, 0; s, c, 0; 0, 0, 1] *ᵥ v) ⬝ᵥ (!![c, -s, 0; s, c, 0; 0, 0, 1] *ᵥ v))
        (v ⬝ᵥ v) := by
  have turned : ∀ x y z : ℚ,
      Preserves ε 1 ((x * s - y * c) ^ 2 + (x * c + y * s) ^ 2 + z ^ 2) (x ^ 2 + y ^ 2 + z ^ 2) :=
    fun x y z => (near.turn x y).add near.nonneg (sq_nonneg z)
  simp only [mulVec, dotProduct, Fin.sum_univ_three, of_apply, cons_val', cons_val_zero,
    cons_val_one, cons_val, cons_val_fin_one]
  refine ⟨?_, ?_, ?_⟩
  · convert turned (v 2) (v 1) (v 0) using 1 <;> ring
  · convert turned (v 0) (v 2) (v 1) using 1 <;> ring
  · convert turned (v 1) (v 0) (v 2) using 1 <;> ring

theorem norm_rotated {ε : ℚ} (near : t.Near ε) (small : ε ≤ 1) (roll pitch yaw : ℚ) (v : Reading) :
    Preserves ε 3 ((rotationMatrix t roll pitch yaw *ᵥ v) ⬝ᵥ (rotationMatrix t roll pitch yaw *ᵥ v))
      (v ⬝ᵥ v) := by
  have error := (near roll).nonneg
  rw [rotationMatrix, ← mulVec_mulVec, ← mulVec_mulVec]
  have last := (norm_turned (near yaw) v).2.2
  have middle := (norm_turned (near pitch) _).2.1.trans last error small
  exact (norm_turned (near roll) _).1.trans middle error small

/-- A vector has a value exactly when its three components have. -/
theorem rotate_eq_some_iff {v : Fin 3 → Option ℚ} {m : Matrix (Fin 3) (Fin 3) ℚ} {w : Reading} :
    rotate v m = some w ↔ ∃ u : Reading, (∀ i, v i = some (u i)) ∧ w = m *ᵥ u := by
  rw [rotate, Option.dite_none_right_eq_some]
  constructor
  · rintro ⟨value, turned⟩
    exact ⟨_, fun i => (Option.some_get (value i)).symm, (Option.some.inj turned).symm⟩
  · rintro ⟨u, components, rfl⟩
    refine ⟨fun i => by rw [components i, Option.isSome_some], ?_⟩
    simp only [components, Option.get_some]

end Rotation

/-! ## Readings -/

/-- Some two of the values differ. -/
def Varies (values : Set ℚ) : Prop := ∃ x ∈ values, ∃ y ∈ values, x ≠ y

section Reading
variable {e : Extremes} {values : Set ℚ} {value span : ℚ}

theorem Spans.varies_iff (spans : Spans e.minVal e.maxVal values) :
    Varies values ↔ e.minVal ≠ e.maxVal := by
  rw [spans.ne_iff spans.isLeast.1]
  constructor
  · rintro ⟨x, inside, y, inside', differ⟩
    by_cases same : x = e.minVal
    · exact ⟨y, inside', fun least => differ (same.trans least.symm)⟩
    · exact ⟨x, inside, same⟩
  · rintro ⟨x, inside, differ⟩
    exact ⟨x, inside, e.minVal, spans.isLeast.1, differ⟩

/-- A component has a value exactly when the values known differ, and then it is within the
span. -/
theorem centre_of_spans (spans : Spans e.minVal e.maxVal values) (inside : value ∈ values)
    (span_nonneg : 0 ≤ span) :
    ((e.centre span value).isSome ↔ Varies values) ∧
      ∀ x, e.centre span value = some x → x ^ 2 ≤ span ^ 2 := by
  rw [spans.varies_iff, ← Extremes.divisor_ne_zero_iff]
  constructor
  · unfold Extremes.centre
    split
    · case isTrue zero => simp [zero]
    · case isFalse divides => simp [divides]
  · intro x centred
    have divides : e.divisor ≠ 0 := by
      intro zero
      rw [Extremes.centre, if_pos zero] at centred
      cases centred
    have strict := lt_of_le_of_ne spans.le (Extremes.divisor_ne_zero_iff.mp divides)
    obtain ⟨y, same, low, high⟩ := Extremes.centre_bounded strict (spans.isLeast.2 inside)
      (spans.isGreatest.2 inside) span_nonneg
    obtain rfl : x = y := Option.some.inj (centred.symm.trans same)
    exact sq_le_sq' low high

end Reading

/-! ## Runs -/

/-- The vector of a sensor whose readings are calibrated. -/
def Sent.of (p : Sent) : Sensor → Option Reading
  | .accelerometer => p.acceleration
  | .magnetometer => p.magneticField

/-- The values that are known of an axis when the time slice `k` of a run is published. -/
def Session.knownAt (s : Session) (m : Option Memory) (k : ℕ) (sensor : Sensor) (i : Fin 3) : Set ℚ :=
  s.known m sensor i ∪ valuesOf (callsOf (s.slices.take (k + 1))) sensor i

/-- The calls of the calibration in a time slice up to the one of the sensor. -/
def callsTo (slice : Slice) : Sensor → List (Sensor × Reading)
  | .accelerometer => []
  | .magnetometer => [(.accelerometer, getAcceleration slice.accelerometer)]

def callOf (slice : Slice) : Sensor → Reading
  | .accelerometer => getAcceleration slice.accelerometer
  | .magnetometer => getMagneticField slice.magnetometer

section Runs
variable {split : Bytes → UInt8 → List Bytes} {t : Trigonometry} {files : FileSystem}
  {m : Option Memory} {s : Session} {d : Device} {slices : List Slice} {slice : Slice} {p : Sent}
  {k : ℕ}

theorem pass_of (d : Device) (slice : Slice) (sensor : Sensor) :
    (d.pass slice).2.of sensor =
      rotate ((d.toPololuAltImu10Device.after (callsTo slice sensor)).read
        (sensor, callOf slice sensor)).2 d.rotationMatrix := by
  cases sensor <;> rfl

/-- What is published in a time slice, from the device in front of it. -/
theorem body_snd (there : (d.body slices).2[k]? = some p) :
    ∃ slice, slices[k]? = some slice ∧ p = ((d.body (slices.take k)).1.pass slice).2 := by
  induction slices generalizing d k with
  | nil => cases there
  | cons slice slices ih =>
    cases k with
    | zero => exact ⟨slice, rfl, (Option.some.inj there).symm⟩
    | succ k => exact ih there

/-- The values that the sensor's own call comes behind. -/
theorem valuesOf_slice (calls : List (Sensor × Reading)) (slice : Slice) (sensor : Sensor)
    (i : Fin 3) :
    valuesOf (calls ++ callsOf [slice]) sensor i =
      valuesOf (calls ++ callsTo slice sensor ++ [(sensor, callOf slice sensor)]) sensor i := by
  have both : calls ++ callsOf [slice] =
      calls ++ [(.accelerometer, getAcceleration slice.accelerometer)] ++
        [(.magnetometer, getMagneticField slice.magnetometer)] := by
    rw [List.append_assoc]
    rfl
  rw [both]
  cases sensor with
  | accelerometer =>
    rw [valuesOf_append, if_neg (by simp)]
    exact congrArg (fun calls => valuesOf calls _ i) (by simp [callsTo, callOf])
  | magnetometer => rfl

theorem Session.Starts.publishes (starts : s.Starts m t d) (unlocked : s.lockCalibration = false)
    (there : (d.body s.slices).2[k]? = some p) (sensor : Sensor) :
    ∃ components : Fin 3 → Option ℚ,
      p.of sensor = rotate components d.rotationMatrix ∧
      ∀ i, ((components i).isSome ↔ Varies (s.knownAt m k sensor i)) ∧
        ∀ x, components i = some x → x ^ 2 ≤ sensor.span ^ 2 := by
  obtain ⟨slice, here, rfl⟩ := body_snd there
  have span_nonneg : 0 ≤ sensor.span := by cases sensor <;> norm_num [Sensor.span]
  have values : callsOf (s.slices.take (k + 1)) = callsOf (s.slices.take k) ++ callsOf [slice] := by
    rw [List.take_add_one, here, callsOf, List.flatMap_append]
    rfl
  have joined : ((d.toPololuAltImu10Device.after (callsOf (s.slices.take k))).after
      (callsTo slice sensor)) =
        d.toPololuAltImu10Device.after (callsOf (s.slices.take k) ++ callsTo slice sensor) := by
    rw [PololuAltImu10Device.after, PololuAltImu10Device.after, PololuAltImu10Device.after,
      List.foldl_append]
  refine ⟨((d.toPololuAltImu10Device.after (callsOf (s.slices.take k) ++
    callsTo slice sensor)).read (sensor, callOf slice sensor)).2, ?_, fun i => ?_⟩
  · rw [pass_of, Device.body_fst, ← joined]
  have spans := after_spans (starts.lockCalibration.trans unlocked) starts.spans
    (callsOf (s.slices.take k) ++ callsTo slice sensor ++ [(sensor, callOf slice sensor)]) sensor i
  rw [← valuesOf_slice, ← values, PololuAltImu10Device.after_append] at spans
  rw [PololuAltImu10Device.read_result]
  apply centre_of_spans spans _ span_nonneg
  refine .inr ?_
  rw [values, valuesOf_slice]
  exact ⟨_, List.mem_append_right _ (List.mem_singleton_self _), rfl, rfl⟩

theorem length_body (d : Device) (slices : List Slice) :
    (d.body slices).2.length = slices.length := by
  induction slices generalizing d with
  | nil => rfl
  | cons slice slices ih => exact congrArg (· + 1) (ih _)

theorem runAll_concat {sessions : List Session} {before after : FileSystem}
    {sent : List (List Sent)} {mine : List Sent}
    (ran : runAll split t sessions files = some (before, sent))
    (last : s.run split t before = some (after, mine)) :
    runAll split t (sessions ++ [s]) files = some (after, sent ++ [mine]) := by
  induction sessions generalizing files sent with
  | nil =>
    cases ran
    simp [runAll, last]
  | cons first sessions ih =>
    simp only [runAll, Option.bind_eq_bind, Option.bind_eq_some_iff, Option.some.injEq] at ran
    obtain ⟨⟨between, own⟩, here, ⟨_, later⟩, rest, same⟩ := ran
    cases same
    simp only [List.cons_append, runAll, here, Option.bind_eq_bind, Option.bind_some, ih rest]

theorem norm_le {v : Reading} {m : Matrix (Fin 3) (Fin 3) ℚ} {components : Fin 3 → Option ℚ}
    {ε span : ℚ} (error : 0 ≤ ε) (keeps : ∀ u : Reading, Preserves ε 3 ((m *ᵥ u) ⬝ᵥ (m *ᵥ u)) (u ⬝ᵥ u))
    (within : ∀ i x, components i = some x → x ^ 2 ≤ span ^ 2)
    (turned : rotate components m = some v) : v ⬝ᵥ v ≤ (1 + ε) ^ 3 * (3 * span ^ 2) := by
  obtain ⟨u, values, rfl⟩ := rotate_eq_some_iff.mp turned
  have first := within 0 (u 0) (values 0)
  have second := within 1 (u 1) (values 1)
  have third := within 2 (u 2) (values 2)
  have cube : u ⬝ᵥ u ≤ 3 * span ^ 2 := by
    rw [norm_of_three]
    linarith
  have factor : 0 ≤ (1 + ε) ^ 3 := pow_nonneg (add_nonneg zero_le_one error) 3
  exact (keeps u).high.trans (mul_le_mul_of_nonneg_left cube factor)

theorem isSome_rotate {components : Fin 3 → Option ℚ} {m : Matrix (Fin 3) (Fin 3) ℚ} :
    (rotate components m).isSome ↔ ∀ i, (components i).isSome := by
  simp only [Option.isSome_iff_exists, rotate_eq_some_iff]
  constructor
  · rintro ⟨_, u, values, _⟩ i
    exact ⟨u i, values i⟩
  · intro all
    choose u values using all
    exact ⟨_, u, values, rfl⟩

/-- After any runs of the module on calibration files that were not there before, an unlocked run
publishes the vector of a sensor exactly when on each axis two of the values known by then differ,
and, where it could open the bus, none that is longer than the diagonal of the cube by more than the
error of three turns. -/
theorem published_bounded (splits : Splits split) {ε : ℚ} (near : t.Near ε) (small : ε ≤ 1)
    (sessions : List Session) (s : Session) (unlocked : s.lockCalibration = false)
    (enough : ∀ r ∈ sessions ++ [s], r.samples ≠ [])
    (new : ∀ r ∈ sessions ++ [s], files r.calibrationFile = none) :
    ∃ files' sent mine, runAll split t (sessions ++ [s]) files = some (files', sent ++ [mine]) ∧
      mine.length = s.slices.length ∧
      ∀ k p, mine[k]? = some p → ∀ sensor,
        ((p.of sensor).isSome ↔ ∀ i,
          Varies (s.knownAt (s.found (remembered sessions s.calibrationFile none)) k sensor i)) ∧
        (s.opened = true → ∀ v, p.of sensor = some v →
          v ⬝ᵥ v ≤ (1 + ε) ^ 3 * (3 * sensor.span ^ 2)) := by
  obtain ⟨before, sent, d, ran, built, starts⟩ := runAll_starts splits t sessions s enough new
  have mine : s.run split t before =
      some ((d.body s.slices).1.saveCalibrationFile s.writes before, (d.body s.slices).2) := by
    rw [Session.run, built]
    rfl
  refine ⟨_, sent, _, runAll_concat ran mine, length_body d s.slices, fun k p there sensor => ?_⟩
  obtain ⟨components, published, each⟩ := starts.publishes unlocked there sensor
  rw [published]
  refine ⟨isSome_rotate.trans (forall_congr' fun i => (each i).1), fun isOpen v turned => ?_⟩
  rw [starts.rotationMatrix isOpen] at turned
  exact norm_le (near 0).nonneg (norm_rotated near small s.roll s.pitch s.yaw)
    (fun i => (each i).2) turned

end Runs

/-- A cosine that is one millionth too large, for a board mounted straight. -/
def nearlyStraight : Trigonometry := ⟨fun _ => 1000001 / 1000000, fun _ => 0⟩

/-- A run behind another one. -/
theorem published_bounded_turned :
    ∃ files' sent mine,
      runAll splitEverywhere nearlyStraight ([turned] ++ [turned]) (fun _ => none) =
        some (files', sent ++ [mine]) ∧
      mine.length = turned.slices.length ∧
      ∀ k p, mine[k]? = some p → ∀ sensor,
        ((p.of sensor).isSome ↔ ∀ i, Varies (turned.knownAt
          (turned.found (remembered [turned] turned.calibrationFile none)) k sensor i)) ∧
        (turned.opened = true → ∀ v, p.of sensor = some v →
          v ⬝ᵥ v ≤ (1 + 3 / 1000000) ^ 3 * (3 * sensor.span ^ 2)) := by
  have near : nearlyStraight.Near (3 / 1000000) := fun _ =>
    ⟨by norm_num [nearlyStraight], by norm_num [nearlyStraight]⟩
  exact published_bounded splits_splitEverywhere near (by norm_num) [turned] turned rfl
    (by simp [turned]) fun _ _ => rfl

end OpendlvCore.Imu
