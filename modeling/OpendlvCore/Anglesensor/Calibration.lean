import OpendlvCore.Anglesensor.Proxy

/-!
# What a calibration finds

The first reading seeds the minimum and the second one the maximum. When the first is the larger
one, a reading that is not below the minimum is the maximum's only chance, and only a reading
that is no larger than the second one puts the minimum right.
-/
namespace OpendlvCore.Anglesensor
open CBytes CText RunningExtremes

/-- What `GetRawReading` returns during a calibration: the first readings and the further ones. -/
structure Readings (d : ProxyAnglesensor) (first second : FileSystem) (slices : List FileSystem)
    (initial next : UInt16) (further : List UInt16) : Prop where
  initial : d.getRawReading first = some initial
  next : d.getRawReading second = some next
  further : List.Forall₂ (fun files reading => d.getRawReading files = some reading)
    (slices.take calibrationIterations) further

section Calibrate
variable {d : ProxyAnglesensor} {first second : FileSystem} {slices : List FileSystem}
  {initial next : UInt16} {further : List UInt16}

theorem Readings.calibrate (read : Readings d first second slices initial next further) :
    d.calibrate first second slices = some { d with
      rawReadingMinMax := d.rawReadingMinMax ++
        [((Extremes.mk initial next).collectAll further).least,
          ((Extremes.mk initial next).collectAll further).greatest] } := by
  have collected := CLoop.foldlM_of_forall₂ (g := Extremes.collect) read.further ⟨initial, next⟩
  rw [ProxyAnglesensor.calibrate, read.initial, read.next]
  change Option.bind (List.foldlM _ _ _) _ = _
  rw [collected]
  rfl

/-- What a calibration owes: it appends the extremes of these readings. -/
def FindsExtremes (d : ProxyAnglesensor) (first second : FileSystem) (slices : List FileSystem)
    (readings : List UInt16) : Prop :=
  ∃ min max, d.calibrate first second slices =
      some { d with rawReadingMinMax := d.rawReadingMinMax ++ [min, max] } ∧
    IsLeast {reading | reading ∈ readings} min ∧ IsGreatest {reading | reading ∈ readings} max

theorem Readings.findsExtremes_iff {readings : List UInt16}
    (read : Readings d first second slices initial next further) :
    FindsExtremes d first second slices readings ↔
      IsLeast {reading | reading ∈ readings} ((Extremes.mk initial next).collectAll further).least ∧
        IsGreatest {reading | reading ∈ readings}
          ((Extremes.mk initial next).collectAll further).greatest := by
  rw [FindsExtremes, read.calibrate]
  constructor
  · rintro ⟨min, max, same, least, greatest⟩
    simp only [Option.some.injEq, ProxyAnglesensor.mk.injEq, List.append_cancel_left_eq,
      List.cons.injEq, and_true, true_and] at same
    rw [same.1, same.2]
    exact ⟨least, greatest⟩
  · rintro ⟨least, greatest⟩
    exact ⟨_, _, rfl, least, greatest⟩

/-- The pair that a calibration appends consists of the extremes of all its readings exactly when
the first reading is no larger than the second one, or else some further reading is no larger than
the second one and some is no smaller than the first. -/
theorem calibration_finds_extremes_iff
    (read : Readings d first second slices initial next further) :
    FindsExtremes d first second slices (initial :: next :: further) ↔
      initial ≤ next ∨
        (∃ reading ∈ further, reading ≤ next) ∧ ∃ reading ∈ further, initial ≤ reading := by
  rw [read.findsExtremes_iff, spans_iff]

end Calibrate

theorem ofInt_toNat (x : UInt16) : UInt16.ofInt x.toNat = x := by
  have small := x.toNat_lt
  have same : ((x.toNat : ℤ) % 2 ^ 16).toNat = x.toNat := by omega
  rw [UInt16.ofInt, same, UInt16.ofNat_toNat]

theorem newline_not_mem_decimal (n : Nat) : newline ∉ decimal n := by
  intro member
  obtain ⟨digit, same⟩ := mem_decimal member
  revert digit
  decide

/-- Every file holds this number. -/
def reads (reading : UInt16) : FileSystem := fun _ => some (decimal reading.toNat ++ [newline])

theorem getRawReading_reads (d : ProxyAnglesensor) (reading : UInt16) :
    d.getRawReading (reads reading) = some reading := by
  have small := reading.toNat_lt
  have line : getlines newline (decimal reading.toNat ++ [newline]) = [decimal reading.toNat] := by
    rw [getlines_append (newline_not_mem_decimal _), getlines]
  simp only [ProxyAnglesensor.getRawReading, reads, line, List.headD_cons]
  rw [stoi_decimal (by omega), Option.map_some, ofInt_toNat]

/-- A sensor that is read from files with these numbers. -/
theorem readings_reads (d : ProxyAnglesensor) (initial next : UInt16) (further : List UInt16)
    (few : further.length ≤ calibrationIterations) :
    Readings d (reads initial) (reads next) (further.map reads) initial next further where
  initial := getRawReading_reads d initial
  next := getRawReading_reads d next
  further := by
    rw [List.take_of_length_le (by simpa using few), List.forall₂_map_left_iff]
    exact List.forall₂_same.mpr fun reading _ => getRawReading_reads d reading

/-- A sensor on pin 0, without a calibration file. -/
def pinZero : ProxyAnglesensor :=
  { pin := 0, anglesMinMax := [0, 1], calibrationFile := "", debug := false }

/-- Two readings that fall are taken for a minimum above a maximum. -/
theorem falling_readings_reversed :
    ¬ ∀ (d : ProxyAnglesensor) (first second : FileSystem) (slices : List FileSystem)
      (initial next : UInt16) (further : List UInt16),
      Readings d first second slices initial next further →
      FindsExtremes d first second slices (initial :: next :: further) := by
  intro always
  have read : Readings pinZero (reads 2) (reads 1) [] 2 1 [] :=
    readings_reads pinZero 2 1 [] (Nat.zero_le _)
  have finds := always _ _ _ _ _ _ _ read
  rw [read.findsExtremes_iff, spans_iff] at finds
  revert finds
  decide

/-- A third reading puts both extremes right. -/
theorem calibration_finds_extremes_third :
    FindsExtremes pinZero (reads 2) (reads 1) [reads 0, reads 3] [2, 1, 0, 3] :=
  (calibration_finds_extremes_iff (readings_reads pinZero 2 1 [0, 3] (by decide))).mpr (by decide)

end OpendlvCore.Anglesensor
