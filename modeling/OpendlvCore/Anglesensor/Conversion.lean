import OpendlvCore.Anglesensor.Calibration
import OpendlvCore.Rescaling

/-!
# From raw readings to angles

The conversion rescales the pair of raw readings to the pair of angles, about the middle of both.
It divides by half the spread of the raw readings, so the pair must not be a single value, and it
falls when the pair is the wrong way round.
-/
namespace OpendlvCore.Anglesensor
open CBytes CText RunningExtremes Rescaling

/-! ## Saving and loading -/

section File
variable {split : Bytes → UInt8 → List Bytes} {d : ProxyAnglesensor}

theorem blank_not_mem_decimal (n : Nat) : blank ∉ decimal n := by
  intro member
  obtain ⟨digit, same⟩ := mem_decimal member
  revert digit
  decide

theorem truncate_natCast (n : Nat) : truncate (n : ℚ) = n := by
  have whole := truncate_add n 0 (le_refl 0) one_pos
  rwa [add_zero] at whole

/-- A 16-bit number survives its text and the `float` that is read from it. -/
theorem toUInt16_decimal (x : UInt16) : (stof (decimal x.toNat)).bind toUInt16 = some x := by
  have small := x.toNat_lt
  have value : stof (decimal x.toNat) = some (x.toNat : ℚ) := by
    rw [stof, stod_decimal_nat, Option.join_some]
  rw [value, Option.bind_some, toUInt16, truncate_natCast, if_pos (by omega), ofInt_toNat]

theorem getlines_saved (min max : UInt16) :
    getlines newline (savedLine min max ++ [newline]) = [savedLine min max] := by
  have free : newline ∉ savedLine min max := by
    simp only [savedLine, List.mem_append, List.mem_cons, not_or]
    exact ⟨by decide, by decide, newline_not_mem_decimal _, by decide, newline_not_mem_decimal _⟩
  rw [getlines_append free, getlines]

theorem split_saved (splits : Splits split) (min max : UInt16) :
    split (savedLine min max) blank =
      [rawReadingMinMaxName, decimal min.toNat, decimal max.toNat] := by
  rw [savedLine, splits.cons (by decide) (by simp),
    splits.pair (blank_not_mem_decimal _) (blank_not_mem_decimal _)]

/-- A sensor loads the pair that was saved. -/
theorem loadCalibration_saved (splits : Splits split) {saved : ProxyAnglesensor}
    {min max : UInt16} {more : List UInt16} {files files' : FileSystem}
    (pair : saved.rawReadingMinMax = min :: max :: more)
    (named : d.calibrationFile ≠ "") (same : saved.calibrationFile = d.calibrationFile)
    (save : saved.saveCalibration true files = some files') :
    d.loadCalibration split files' = some (false, { d with
      rawReadingMinMax := d.rawReadingMinMax ++ [min, max] }) := by
  have written : files' d.calibrationFile = some (savedLine min max ++ [newline]) := by
    simp only [ProxyAnglesensor.saveCalibration, same, named, pair, false_or, Bool.true_eq_false,
      if_false, List.getElem?_cons_zero, List.getElem?_cons_succ, Option.bind_eq_bind,
      Option.bind_some, Option.some.injEq] at save
    rw [← save, Function.update_self]
  have line : d.loadLine split (savedLine min max) =
      some { d with rawReadingMinMax := d.rawReadingMinMax ++ [min, max] } := by
    simp [ProxyAnglesensor.loadLine, split_saved splits, toUInt16_decimal]
  rw [ProxyAnglesensor.loadCalibration, if_neg named, written]
  simp [getlines_saved, line]

end File

/-! ## Converting -/

/-- `Analogue2Radians` with the constants that `body` computes. -/
def ProxyAnglesensor.convert (d : ProxyAnglesensor) (a_val : UInt16) : Option ℚ := do
  (← d.computeConstants).analogue2Radians a_val

/-- A conversion with a value everywhere between two raw readings: it takes the lower one to the
smaller angle, the higher one to the larger angle, and falls nowhere between them. -/
structure Converts (angle : UInt16 → Option ℚ) (lowest highest : UInt16) (smaller larger : ℚ) :
    Prop where
  at_lowest : angle lowest = some smaller
  at_highest : angle highest = some larger
  between : ∀ v w, lowest ≤ v → v ≤ w → w ≤ highest →
    ∃ x y, angle v = some x ∧ angle w = some y ∧ smaller ≤ x ∧ x ≤ y ∧ y ≤ larger

/-- The conversion is right for the pair of raw readings at hand, whichever of the two is the
smaller one. -/
def ProxyAnglesensor.ConvertsRight (d : ProxyAnglesensor) (smaller larger : ℚ) : Prop :=
  ∃ a b, d.rawReadingMinMax = [a, b] ∧ Converts d.convert (min a b) (max a b) smaller larger

section Convert
variable {d : ProxyAnglesensor} {a b : UInt16} {smaller larger : ℚ}

theorem toNat_lt_cast (lt : a < b) : (a.toNat : ℚ) < b.toNat := by
  exact_mod_cast UInt16.lt_iff_toNat_lt.mp lt

theorem toNat_ne_cast (differ : a ≠ b) : (a.toNat : ℚ) ≠ b.toNat := by
  intro same
  exact differ (UInt16.toNat_inj.mp (by exact_mod_cast same))

theorem convert_of_eq (raw : d.rawReadingMinMax = [a, a]) (v : UInt16) : d.convert v = none := by
  have stops : d.computeConstants = none := by
    simp [ProxyAnglesensor.computeConstants, raw]
  rw [ProxyAnglesensor.convert, stops]
  rfl

theorem convert_of_ne (raw : d.rawReadingMinMax = [a, b]) (angles : d.anglesMinMax = [smaller, larger])
    (fresh : d.convertConstants = []) (differ : a ≠ b) (v : UInt16) :
    d.convert v = some (rescale a.toNat b.toNat smaller larger v.toNat : ℚ) := by
  have nonzero : (b.toNat - (a.toNat + b.toNat) / 2 : ℚ) ≠ 0 :=
    half_eq_zero_iff.not.mpr (toNat_ne_cast differ)
  rw [← about_middle (toNat_ne_cast differ)]
  simp [ProxyAnglesensor.convert, ProxyAnglesensor.computeConstants,
    ProxyAnglesensor.analogue2Radians, raw, angles, fresh, nonzero]

/-- A pair in order is rescaled to the angles in order. -/
theorem converts_of_lt (raw : d.rawReadingMinMax = [a, b])
    (angles : d.anglesMinMax = [smaller, larger]) (fresh : d.convertConstants = [])
    (ordered : smaller ≤ larger) (lt : a < b) : Converts d.convert a b smaller larger := by
  have value := convert_of_ne raw angles fresh (Std.ne_of_lt lt)
  have left : rescale (a.toNat : ℚ) b.toNat smaller larger a.toNat = smaller := rescale_left
  have right := rescale_right (c := smaller) (d := larger) (toNat_ne_cast (Std.ne_of_lt lt))
  have mono : ∀ {v w : UInt16}, v ≤ w → rescale (a.toNat : ℚ) b.toNat smaller larger v.toNat ≤
      rescale (a.toNat : ℚ) b.toNat smaller larger w.toNat := fun le =>
    rescale_mono (toNat_lt_cast lt) ordered (by exact_mod_cast UInt16.le_iff_toNat_le.mp le)
  refine ⟨by rw [value, left], by rw [value, right], fun v w low le high => ?_⟩
  exact ⟨_, _, value v, value w, left.ge.trans (mono low), mono le, (mono high).trans right.le⟩

/-- A pair the wrong way round has its ends exchanged, which only equal angles hide. -/
theorem converts_of_gt_iff (raw : d.rawReadingMinMax = [a, b])
    (angles : d.anglesMinMax = [smaller, larger]) (fresh : d.convertConstants = []) (gt : b < a) :
    Converts d.convert b a smaller larger ↔ smaller = larger := by
  have differ : a ≠ b := (Std.ne_of_lt gt).symm
  have value := convert_of_ne raw angles fresh differ
  constructor
  · intro converts
    have low := converts.at_lowest
    rw [value, rescale_right (toNat_ne_cast differ), Option.some.injEq] at low
    exact low.symm
  · rintro rfl
    have point : ∀ v, d.convert v = some smaller := by
      intro v
      rw [value, rescale_point]
    exact ⟨point b, point a, fun v w _ _ _ =>
      ⟨_, _, point v, point w, le_refl _, le_refl _, le_refl _⟩⟩

/-- The conversion is right exactly when the pair is in order, or reversed with equal angles. -/
theorem convertsRight_iff (raw : d.rawReadingMinMax = [a, b])
    (angles : d.anglesMinMax = [smaller, larger]) (fresh : d.convertConstants = [])
    (ordered : smaller ≤ larger) :
    d.ConvertsRight smaller larger ↔ a < b ∨ smaller = larger ∧ b < a := by
  have pair : d.ConvertsRight smaller larger ↔
      Converts d.convert (min a b) (max a b) smaller larger := by
    simp only [ProxyAnglesensor.ConvertsRight, raw, List.cons.injEq, and_true]
    constructor
    · rintro ⟨a', b', ⟨rfl, rfl⟩, converts⟩
      exact converts
    · exact fun converts => ⟨a, b, ⟨rfl, rfl⟩, converts⟩
  have low : min a b = if a ≤ b then a else b := rfl
  have high : max a b = if a ≤ b then b else a := rfl
  rw [pair, low, high]
  rcases Nat.lt_trichotomy a.toNat b.toNat with lt | same | gt
  · have lt := UInt16.lt_iff_toNat_lt.mpr lt
    rw [if_pos (Std.le_of_lt lt), if_pos (Std.le_of_lt lt)]
    exact ⟨fun _ => .inl lt, fun _ => converts_of_lt raw angles fresh ordered lt⟩
  · obtain rfl := UInt16.toNat_inj.mp same
    rw [if_pos (Std.le_refl a)]
    constructor
    · intro converts
      have nothing := converts.at_lowest
      rw [convert_of_eq raw] at nothing
      cases nothing
    · rintro (lt | ⟨_, lt⟩) <;> exact absurd lt Std.lt_irrefl
  · have gt := UInt16.lt_iff_toNat_lt.mpr gt
    rw [if_neg (Std.not_le.mpr gt), if_neg (Std.not_le.mpr gt), converts_of_gt_iff raw angles fresh gt]
    constructor
    · exact fun equal => .inr ⟨equal, gt⟩
    · rintro (lt | ⟨equal, _⟩)
      · exact absurd (Std.lt_trans lt gt) Std.lt_irrefl
      · exact equal

theorem loadCalibration_asks {split : Bytes → UInt8 → List Bytes} {files : FileSystem}
    {asking : ProxyAnglesensor} (load : d.loadCalibration split files = some (true, asking)) :
    asking = d := by
  unfold ProxyAnglesensor.loadCalibration at load
  split at load
  · simpa using load.symm
  · split at load
    · simpa using load.symm
    · simp only [Option.bind_eq_bind, Option.bind_eq_some_iff] at load
      obtain ⟨loaded, _, load⟩ := load
      split at load <;> simp at load

theorem computeConstants_pin {computed : ProxyAnglesensor}
    (constants : d.computeConstants = some computed) : computed.pin = d.pin := by
  simp only [ProxyAnglesensor.computeConstants, Option.bind_eq_bind, Option.bind_eq_some_iff] at constants
  obtain ⟨_, _, _, _, _, _, _, _, constants⟩ := constants
  split at constants
  · cases constants
  · cases constants
    rfl

/-- The pin is all that a reading depends on. -/
theorem getRawReading_of_pin {other : ProxyAnglesensor} (same : other.pin = d.pin)
    (files : FileSystem) : other.getRawReading files = d.getRawReading files := by
  simp only [ProxyAnglesensor.getRawReading, same]

/-- `body` converts what it reads, with the pair that a calibration or the file left. -/
theorem body_converts {split : Bytes → UInt8 → List Bytes} {setUpCalibration : Int32}
    {files first second : FileSystem} {slices voltages : List FileSystem} {last : ProxyAnglesensor}
    {angles : List ℚ}
    (sent : d.body split setUpCalibration files first second slices voltages = some (last, angles)) :
    ∃ source, (d.calibrate first second slices = some source ∨
        d.loadCalibration split files = some (false, source)) ∧
      List.Forall₂ (fun files angle => ∃ v, source.getRawReading files = some v ∧
        source.convert v = some angle) voltages angles := by
  simp only [ProxyAnglesensor.body, Option.bind_eq_bind, Option.bind_eq_some_iff, Option.pure_def,
    Option.some.injEq, Prod.mk.injEq] at sent
  obtain ⟨source, prepared, computed, constants, _, mapped, rfl, rfl⟩ := sent
  refine ⟨source, ?_, (CLoop.forall₂_of_mapM mapped).imp fun files angle send => ?_⟩
  · unfold ProxyAnglesensor.prepare at prepared
    split at prepared
    · exact .inl prepared
    · split at prepared
      · cases prepared
      · case _ asking load =>
          rw [loadCalibration_asks load] at prepared
          exact .inl prepared
      · case _ loaded load =>
          cases prepared
          exact .inr load
  · simp only [ProxyAnglesensor.sendReading, Option.bind_eq_bind, Option.bind_eq_some_iff] at send
    obtain ⟨v, read, converted⟩ := send
    refine ⟨v, ?_, ?_⟩
    · rwa [getRawReading_of_pin (computeConstants_pin constants)] at read
    · rw [ProxyAnglesensor.convert, constants]
      exact converted

end Convert

/-! ## From the configuration and a calibration to the conversion -/

/-- The two angle limits of a configuration, in degrees and in either order. -/
structure Limits (split : Bytes → UInt8 → List Bytes) (kv : Configuration) (x y : ℚ) : Prop where
  first : (split kv.anglesminmax comma)[0]?.bind stof = some x
  second : (split kv.anglesminmax comma)[1]?.bind stof = some y

section SetUp
variable {split : Bytes → UInt8 → List Bytes} {kv : Configuration} {d : ProxyAnglesensor} {x y : ℚ}

theorem radians_lt_iff : radians x < radians y ↔ x < y := by
  unfold radians M_PI
  constructor <;> intro lt <;> linarith

theorem radians_inj : radians x = radians y ↔ x = y := by
  unfold radians M_PI
  constructor <;> intro same <;> linarith

/-- The limits in order, and nothing calibrated yet. -/
theorem setUp_eq (up : setUp split kv = some d) (limits : Limits split kv x y) :
    d.anglesMinMax = [radians (min x y), radians (max x y)] ∧ d.rawReadingMinMax = [] ∧
      d.convertConstants = [] := by
  simp only [setUp, limits.first, limits.second, Option.bind_eq_bind, Option.bind_some,
    Option.bind_eq_some_iff, Option.some.injEq] at up
  obtain ⟨pin, _, rfl⟩ := up
  refine ⟨?_, rfl, rfl⟩
  simp only [radians_lt_iff]
  split
  · case isTrue falls => rw [min_eq_right falls.le, max_eq_left falls.le]; rfl
  · case isFalse rises =>
      have rises := not_lt.mp rises
      rw [min_eq_left rises, max_eq_right rises]

/-- Whatever appended the pair. -/
theorem appended_convertsRight_iff (up : setUp split kv = some d) (limits : Limits split kv x y)
    (a b : UInt16) :
    { d with rawReadingMinMax := d.rawReadingMinMax ++ [a, b] }.ConvertsRight
        (radians (min x y)) (radians (max x y)) ↔ a < b ∨ x = y ∧ b < a := by
  obtain ⟨angles, none, fresh⟩ := setUp_eq up limits
  have raw : d.rawReadingMinMax ++ [a, b] = [a, b] := by rw [none, List.nil_append]
  have ordered : radians (min x y) ≤ radians (max x y) := by
    rw [← not_lt, radians_lt_iff, not_lt]
    exact min_le_max
  have equal : radians (min x y) = radians (max x y) ↔ x = y := by
    rw [radians_inj]
    exact inf_eq_sup
  rw [← equal]
  exact convertsRight_iff (d := { d with rawReadingMinMax := d.rawReadingMinMax ++ [a, b] })
    raw angles fresh ordered

/-- After `setUp`, the conversion is right exactly when a calibration's readings make the pair
come apart in order, or keep it apart and reversed while the limits are equal; and for the pair of
a saved file likewise. -/
theorem conversion_right_iff (splits : Splits split) (up : setUp split kv = some d)
    (limits : Limits split kv x y) :
    (∀ first second slices initial next further,
      Readings d first second slices initial next further →
      ∃ calibrated, d.calibrate first second slices = some calibrated ∧
        (calibrated.ConvertsRight (radians (min x y)) (radians (max x y)) ↔
          Rises initial next further ∨ x = y ∧ Falls initial next further)) ∧
    ∀ (saved : ProxyAnglesensor) (rawMin rawMax : UInt16) (more : List UInt16)
      (files files' : FileSystem), saved.rawReadingMinMax = rawMin :: rawMax :: more →
      d.calibrationFile ≠ "" → saved.calibrationFile = d.calibrationFile →
      saved.saveCalibration true files = some files' →
      ∃ loaded, d.loadCalibration split files' = some (false, loaded) ∧
        (loaded.ConvertsRight (radians (min x y)) (radians (max x y)) ↔
          rawMin < rawMax ∨ x = y ∧ rawMax < rawMin) := by
  constructor
  · intro first second slices initial next further read
    refine ⟨_, read.calibrate, ?_⟩
    rw [appended_convertsRight_iff up limits, rises_iff, falls_iff]
  · intro saved rawMin rawMax more files files' pair named same save
    exact ⟨_, loadCalibration_saved splits pair named same save,
      appended_convertsRight_iff up limits rawMin rawMax⟩

end SetUp

/-- Limits from 60 degrees down to -60, and a calibration file. -/
def sixtyDegrees : Configuration where
  pin := [0x30]
  anglesminmax := [0x36, 0x30, 0x2C, 0x2D, 0x36, 0x30]
  setUpCalibration := 0
  calibrationfile := "calibration"
  debug := 0

/-- What `setUp` makes of them. -/
def sixtySensor : ProxyAnglesensor where
  pin := 0
  anglesMinMax := [radians (-60), radians 60]
  calibrationFile := "calibration"
  debug := false

theorem limits_sixtyDegrees : Limits splitEverywhere sixtyDegrees 60 (-60) where
  first := by decide +kernel
  second := by decide +kernel

theorem setUp_sixtyDegrees : setUp splitEverywhere sixtyDegrees = some sixtySensor := by
  decide +kernel

/-- A sensor at rest is calibrated to a single value, and the conversion divides by zero. -/
theorem resting_sensor_divides_by_zero :
    ¬ ∀ (split : Bytes → UInt8 → List Bytes) (kv : Configuration) (d : ProxyAnglesensor) (x y : ℚ),
      Splits split → setUp split kv = some d → Limits split kv x y →
      (∀ first second slices initial next further,
        Readings d first second slices initial next further →
        ∃ calibrated, d.calibrate first second slices = some calibrated ∧
          calibrated.ConvertsRight (radians (min x y)) (radians (max x y))) ∧
      ∀ (saved : ProxyAnglesensor) (rawMin rawMax : UInt16) (more : List UInt16)
        (files files' : FileSystem), saved.rawReadingMinMax = rawMin :: rawMax :: more →
        d.calibrationFile ≠ "" → saved.calibrationFile = d.calibrationFile →
        saved.saveCalibration true files = some files' →
        ∃ loaded, d.loadCalibration split files' = some (false, loaded) ∧
          loaded.ConvertsRight (radians (min x y)) (radians (max x y)) := by
  intro always
  have read := readings_reads sixtySensor 5 5 [] (Nat.zero_le _)
  obtain ⟨calibrated, same, right⟩ := (always _ _ _ _ _ splits_splitEverywhere setUp_sixtyDegrees
    limits_sixtyDegrees).1 _ _ _ _ _ _ read
  rw [read.calibrate, Option.some.injEq] at same
  rw [← same] at right
  have ordered := (appended_convertsRight_iff setUp_sixtyDegrees limits_sixtyDegrees _ _).mp right
  revert ordered
  decide

/-- Readings from 2 to 3 that begin with 2 and 1, and a saved pair. -/
theorem conversion_right_sixtyDegrees :
    (∃ calibrated, sixtySensor.calibrate (reads 2) (reads 1) [reads 3] = some calibrated ∧
      calibrated.ConvertsRight (radians (-60)) (radians 60)) ∧
    ∃ files' loaded, { sixtySensor with rawReadingMinMax := [1, 3] }.saveCalibration true
        (fun _ => none) = some files' ∧
      sixtySensor.loadCalibration splitEverywhere files' = some (false, loaded) ∧
      loaded.ConvertsRight (radians (-60)) (radians 60) := by
  have converts := conversion_right_iff splits_splitEverywhere setUp_sixtyDegrees limits_sixtyDegrees
  rw [min_eq_right (by norm_num), max_eq_left (by norm_num)] at converts
  constructor
  · obtain ⟨calibrated, same, right⟩ := converts.1 _ _ _ _ _ _
      (readings_reads sixtySensor 2 1 [3] (by decide))
    refine ⟨calibrated, same, right.mpr (.inl ⟨2, by decide, .inr ⟨3, ?_, by decide⟩⟩)⟩
    exact climbs_of_le (by decide) (by decide)
  · obtain ⟨loaded, same, right⟩ := converts.2 { sixtySensor with rawReadingMinMax := [1, 3] } 1 3 []
      (fun _ => none) _ rfl (by decide) rfl rfl
    exact ⟨_, loaded, rfl, same, right.mpr (.inl (by decide))⟩

end OpendlvCore.Anglesensor
