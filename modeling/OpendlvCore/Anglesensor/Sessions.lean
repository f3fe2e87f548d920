import Mathlib.Data.Option.Basic
import OpendlvCore.Anglesensor.Conversion

/-!
# The angle sensor's proxy, one run after the other

Every run leaves the pair of raw readings that it converts with in its calibration file, and the next
one takes it from there. The runs on files are compared with a machine that remembers the pairs.
-/
namespace OpendlvCore.Anglesensor
open CBytes CText RunningExtremes Rescaling

/-! ## Runs on files -/

/-- A run of the module: whether its calibration file can be opened for writing, and the files with
the voltages, those of a calibration and those of each time slice behind it. -/
structure Session where
  kv : Configuration
  writes : Bool := true
  first : FileSystem
  second : FileSystem
  slices : List FileSystem
  voltages : List FileSystem

section Runs
variable (split : Bytes → UInt8 → List Bytes)

/-- `setUp`, `body` and `tearDown`. -/
def Session.run (s : Session) (files : FileSystem) : Option (FileSystem × List ℚ) := do
  let d ← setUp split s.kv
  let (d, angles) ← d.body split s.kv.setUpCalibration files s.first s.second s.slices s.voltages
  let files ← d.saveCalibration s.writes files
  some (files, angles)

def runAll : List Session → FileSystem → Option (FileSystem × List (List ℚ))
  | [], files => some (files, [])
  | s :: sessions, files => do
    let (files, angles) ← s.run split files
    let (files, later) ← runAll sessions files
    some (files, angles :: later)

/-! ## Runs with a memory -/

/-- The pair that was last saved under a name. -/
abbrev Memory := String → Option (Extremes UInt16)

namespace Session
variable (s : Session)

/-- The pair that a calibration finds. -/
def found (d : ProxyAnglesensor) : Option (Extremes UInt16) := do
  let initial ← d.getRawReading s.first
  let next ← d.getRawReading s.second
  let further ← (s.slices.take calibrationIterations).mapM d.getRawReading
  some ((Extremes.mk initial next).collectAll further)

/-- The pair that a run converts with. -/
def pair (d : ProxyAnglesensor) (remembered : Option (Extremes UInt16)) :
    Option (Extremes UInt16) :=
  if s.kv.setUpCalibration = 1 then s.found d else remembered.or (s.found d)

def remember (e : Extremes UInt16) (memory : Memory) : Memory :=
  if s.kv.calibrationfile = "" ∨ s.writes = false then memory
  else Function.update memory s.kv.calibrationfile (some e)

/-- The pair of readings is rescaled to the pair of angles, unless it is a single reading. -/
def runOnMemory (memory : Memory) : Option (Memory × List ℚ) := do
  let d ← setUp split s.kv
  let e ← s.pair d (memory s.kv.calibrationfile)
  let readings ← s.voltages.mapM d.getRawReading
  match d.anglesMinMax with
  | [smaller, larger] =>
    if e.least = e.greatest then none
    else
      some (s.remember e memory,
        readings.map fun v => rescale e.least.toNat e.greatest.toNat smaller larger v.toNat)
  | _ => none

end Session

def runAllOnMemory : List Session → Memory → Option (Memory × List (List ℚ))
  | [], memory => some (memory, [])
  | s :: sessions, memory => do
    let (memory, angles) ← s.runOnMemory split memory
    let (memory, later) ← runAllOnMemory sessions memory
    some (memory, angles :: later)

/-- The files of some names hold the pairs remembered under them. -/
structure Represents (Named : String → Prop) (memory : Memory) (files : FileSystem) : Prop where
  unnamed : memory "" = none
  content : ∀ file, Named file → file ≠ "" →
    files file = (memory file).map fun e => savedLine e.least e.greatest ++ [newline]

end Runs

/-! ## The files are the memory -/

section Refinement
variable {split : Bytes → UInt8 → List Bytes} {Named : String → Prop} {memory : Memory}
  {files : FileSystem} {s : Session} {d : ProxyAnglesensor}

theorem setUp_spec {kv : Configuration} (up : setUp split kv = some d) :
    (∃ smaller larger, d.anglesMinMax = [smaller, larger]) ∧ d.rawReadingMinMax = [] ∧
      d.convertConstants = [] ∧ d.calibrationFile = kv.calibrationfile := by
  simp only [setUp, Option.bind_eq_bind, Option.bind_eq_some_iff, Option.some.injEq] at up
  obtain ⟨_, _, first, _, second, _, rfl⟩ := up
  refine ⟨?_, rfl, rfl, rfl⟩
  dsimp only
  split
  · exact ⟨_, _, rfl⟩
  · exact ⟨_, _, rfl⟩

theorem calibrate_eq (d : ProxyAnglesensor) (s : Session) :
    d.calibrate s.first s.second s.slices = (s.found d).map fun e =>
      { d with rawReadingMinMax := d.rawReadingMinMax ++ [e.least, e.greatest] } := by
  rw [ProxyAnglesensor.calibrate, Session.found]
  cases d.getRawReading s.first with
  | none => rfl
  | some initial =>
    cases d.getRawReading s.second with
    | none => rfl
    | some next =>
      have loop := CLoop.foldlM_eq_mapM (f := d.getRawReading) Extremes.collect
        (s.slices.take calibrationIterations) (Extremes.mk initial next)
      change Option.bind (List.foldlM _ _ _) _ = _
      rw [loop]
      change _ = Option.map _ (Option.bind (List.mapM _ _) _)
      cases (s.slices.take calibrationIterations).mapM d.getRawReading <;> rfl

/-- A file that was saved is loaded, one that is not there asks for a calibration. -/
theorem loadCalibration_represents (splits : Splits split) (represents : Represents Named memory files)
    (named : Named d.calibrationFile) :
    d.loadCalibration split files = match memory d.calibrationFile with
      | some e => some (false, { d with
          rawReadingMinMax := d.rawReadingMinMax ++ [e.least, e.greatest] })
      | none => some (true, d) := by
  by_cases empty : d.calibrationFile = ""
  · rw [ProxyAnglesensor.loadCalibration, if_pos empty, empty, represents.unnamed]
  have content := represents.content _ named empty
  cases remembered : memory d.calibrationFile with
  | none =>
    rw [remembered, Option.map_none] at content
    rw [ProxyAnglesensor.loadCalibration, if_neg empty, content]
  | some e =>
    rw [remembered, Option.map_some] at content
    let saved := { d with rawReadingMinMax := [e.least, e.greatest] }
    have save : saved.saveCalibration true files = some files := by
      simp [saved, ProxyAnglesensor.saveCalibration, empty, ← content]
    have pair : saved.rawReadingMinMax = [e.least, e.greatest] := rfl
    exact loadCalibration_saved splits pair empty rfl save

theorem prepare_eq (splits : Splits split) (represents : Represents Named memory files)
    (up : setUp split s.kv = some d) (named : Named s.kv.calibrationfile) :
    d.prepare split s.kv.setUpCalibration files s.first s.second s.slices =
      (s.pair d (memory s.kv.calibrationfile)).map fun e =>
        { d with rawReadingMinMax := [e.least, e.greatest] } := by
  obtain ⟨-, none, -, file⟩ := setUp_spec up
  have calibrated := calibrate_eq d s
  have loaded := loadCalibration_represents splits represents (file ▸ named)
  simp only [none, List.nil_append] at calibrated loaded
  rw [ProxyAnglesensor.prepare, Session.pair, ← file]
  split
  · exact calibrated
  · rw [loaded]
    cases memory d.calibrationFile with
    | none => exact calibrated
    | some e => rfl

theorem computeConstants_frame {computed : ProxyAnglesensor}
    (constants : d.computeConstants = some computed) :
    computed.rawReadingMinMax = d.rawReadingMinMax ∧ computed.calibrationFile = d.calibrationFile := by
  simp only [ProxyAnglesensor.computeConstants, Option.bind_eq_bind, Option.bind_eq_some_iff] at constants
  obtain ⟨_, _, _, _, _, _, _, _, constants⟩ := constants
  split at constants
  · cases constants
  · cases constants
    exact ⟨rfl, rfl⟩

/-- What is sent is what is read, rescaled. -/
theorem angles_eq {a b : UInt16} {smaller larger : ℚ} (raw : d.rawReadingMinMax = [a, b])
    (angles : d.anglesMinMax = [smaller, larger]) (fresh : d.convertConstants = []) (differ : a ≠ b)
    (voltages : List FileSystem) :
    ∃ computed, d.computeConstants = some computed ∧
      voltages.mapM computed.sendReading = (voltages.mapM d.getRawReading).map
        (List.map fun v => (rescale a.toNat b.toNat smaller larger v.toNat : ℚ)) := by
  have converts := convert_of_ne raw angles fresh differ
  cases constants : d.computeConstants with
  | none =>
    have value := converts 0
    rw [ProxyAnglesensor.convert, constants] at value
    cases value
  | some computed =>
    refine ⟨computed, rfl, ?_⟩
    rw [← CLoop.mapM_map]
    congr 1
    funext files
    rw [ProxyAnglesensor.sendReading, getRawReading_of_pin (computeConstants_pin constants)]
    cases d.getRawReading files with
    | none => rfl
    | some v =>
      have value := converts v
      rw [ProxyAnglesensor.convert, constants] at value
      exact value

/-- The pair is saved under the name of the file. -/
theorem Represents.saved (represents : Represents Named memory files) {e : Extremes UInt16}
    (raw : d.rawReadingMinMax = [e.least, e.greatest])
    (file : d.calibrationFile = s.kv.calibrationfile) :
    ∃ files', d.saveCalibration s.writes files = some files' ∧
      Represents Named (s.remember e memory) files' := by
  by_cases off : s.kv.calibrationfile = "" ∨ s.writes = false
  · refine ⟨files, ?_, ?_⟩
    · rw [ProxyAnglesensor.saveCalibration, file, if_pos off]
    · rwa [Session.remember, if_pos off]
  · refine ⟨Function.update files s.kv.calibrationfile
      (some (savedLine e.least e.greatest ++ [newline])), ?_, ?_⟩
    · rw [ProxyAnglesensor.saveCalibration, file, if_neg off, raw]
      rfl
    · rw [Session.remember, if_neg off]
      constructor
      · rw [Function.update_of_ne (Ne.symm (not_or.mp off).1)]
        exact represents.unnamed
      · intro other named content
        by_cases same : other = s.kv.calibrationfile
        · rw [same, Function.update_self, Function.update_self]
          rfl
        · rw [Function.update_of_ne same, Function.update_of_ne same]
          exact represents.content other named content

/-- One run: it gets through on the file exactly when it does on the memory, and sends the same. -/
theorem run_onMemory (splits : Splits split) (represents : Represents Named memory files)
    (named : Named s.kv.calibrationfile) :
    Option.Rel (fun x y => Represents Named y.1 x.1 ∧ x.2 = y.2) (s.run split files)
      (s.runOnMemory split memory) := by
  rw [Session.run, Session.runOnMemory]
  cases up : setUp split s.kv with
  | none => exact .none
  | some d =>
    obtain ⟨⟨smaller, larger, limits⟩, -, fresh, file⟩ := setUp_spec up
    simp only [Option.bind_eq_bind, Option.bind_some, ProxyAnglesensor.body,
      prepare_eq splits represents up named]
    cases s.pair d (memory s.kv.calibrationfile) with
    | none => exact .none
    | some e =>
      simp only [Option.map_some, Option.bind_some]
      let source := { d with rawReadingMinMax := [e.least, e.greatest] }
      have raw : source.rawReadingMinMax = [e.least, e.greatest] := rfl
      have read : source.getRawReading = d.getRawReading := rfl
      have angles : source.anglesMinMax = [smaller, larger] := limits
      replace fresh : source.convertConstants = [] := fresh
      replace file : source.calibrationFile = s.kv.calibrationfile := file
      change Option.Rel _ ((source.computeConstants.bind fun d =>
        (s.voltages.mapM d.sendReading).bind fun angles => some (d, angles)).bind _) _
      clear_value source
      by_cases same : e.least = e.greatest
      · have stops : source.computeConstants = none := by
          simp [ProxyAnglesensor.computeConstants, raw, same]
        simp only [stops, Option.bind_none, limits, if_pos same]
        cases s.voltages.mapM d.getRawReading <;> exact .none
      · obtain ⟨computed, constants, mapped⟩ := angles_eq raw angles fresh same s.voltages
        simp only [constants, Option.bind_some, mapped, read, limits, if_neg same]
        cases s.voltages.mapM d.getRawReading with
        | none => exact .none
        | some readings =>
          obtain ⟨raw', file'⟩ := computeConstants_frame constants
          obtain ⟨files', save, represents'⟩ :=
            represents.saved (s := s) (raw'.trans raw) (file'.trans file)
          simp only [Option.map_some, Option.bind_some, save]
          exact .some ⟨represents', rfl⟩

theorem runAll_onMemory (splits : Splits split) (sessions : List Session)
    (represents : Represents Named memory files) (named : ∀ s ∈ sessions, Named s.kv.calibrationfile) :
    Option.Rel (fun x y => Represents Named y.1 x.1 ∧ x.2 = y.2) (runAll split sessions files)
      (runAllOnMemory split sessions memory) := by
  induction sessions generalizing memory files with
  | nil => exact .some ⟨represents, rfl⟩
  | cons s sessions ih =>
    have one := run_onMemory splits represents (named s List.mem_cons_self)
    rw [runAll, runAllOnMemory]
    generalize s.run split files = here at one ⊢
    generalize s.runOnMemory split memory = there at one ⊢
    cases one with
    | none => exact .none
    | @some x y related =>
      obtain ⟨files', angles⟩ := x
      obtain ⟨memory', angles'⟩ := y
      obtain ⟨represents', rfl⟩ := related
      have rest := ih represents' fun other there => named other (List.mem_cons_of_mem _ there)
      change Option.Rel _ ((runAll split sessions files').bind _)
        ((runAllOnMemory split sessions memory').bind _)
      generalize runAll split sessions files' = here at rest ⊢
      generalize runAllOnMemory split sessions memory' = there at rest ⊢
      cases rest with
      | none => exact .none
      | some related => exact .some ⟨related.1, congrArg (angles :: ·) related.2⟩

/-- Runs on calibration files that were not there before get through exactly when the runs with a
memory do, and send the same angles: no pair is changed or lost on its way through a file. -/
theorem sessions_remembered (splits : Splits split) (sessions : List Session)
    (new : ∀ s ∈ sessions, files s.kv.calibrationfile = none) :
    (runAll split sessions files).map Prod.snd =
      (runAllOnMemory split sessions fun _ => none).map Prod.snd := by
  have represents : Represents (fun file => files file = none) (fun _ => none) files :=
    ⟨rfl, fun _ absent _ => absent⟩
  have same := runAll_onMemory splits sessions represents new
  generalize runAll split sessions files = here at same ⊢
  generalize (runAllOnMemory split sessions fun _ => none) = there at same ⊢
  cases same with
  | none => rfl
  | some related => exact congrArg some related.2

end Refinement

/-- A voltage file with one digit. -/
def voltage (digit : UInt8) : FileSystem := fun _ => some [digit, newline]

/-- A run that finds readings from 1 to 3, and one behind it that finds nothing new. -/
def turnedThenRead : List Session :=
  [{ kv := sixtyDegrees, first := voltage 0x31, second := voltage 0x32, slices := [voltage 0x33],
     voltages := [voltage 0x32] },
    { kv := sixtyDegrees, first := voltage 0x32, second := voltage 0x32, slices := [],
      voltages := [voltage 0x33, voltage 0x31] }]

theorem sessions_remembered_turned :
    (runAll splitEverywhere turnedThenRead fun _ => none).map Prod.snd =
      some [[0], [radians 60, radians (-60)]] :=
  (sessions_remembered splits_splitEverywhere turnedThenRead fun _ _ => rfl).trans (by decide +kernel)

end OpendlvCore.Anglesensor
