import OpendlvCore.Imu.Device

/-!
# What the calibration file remembers

The file that one run of the module leaves is what the next one starts from. Rounding to six
digits is monotone and happens once, so that after any number of runs the extremes in the file are
the rounded extremes of everything that was read since the file was begun.
-/
namespace OpendlvCore.Imu
open CBytes CLoop CText SignificantDigits

/-! ## The lines of the file -/

section Lines
variable {split : Bytes → UInt8 → List Bytes} {name : String} {val : Reading} {d saved : Device}

/-- A name that may begin a line. -/
structure IsName (name : String) : Prop where
  content : ascii name ≠ []
  noBlank : blank ∉ ascii name
  noNewline : newline ∉ ascii name

theorem isName_tags : IsName "m_magnetometerMaxVal" ∧ IsName "m_magnetometerMinVal" ∧
    IsName "m_accelerometerMaxVal" ∧ IsName "m_accelerometerMinVal" ∧
    IsName "m_gyroscopeAvgVal" := by
  refine ⟨⟨?_, ?_, ?_⟩, ⟨?_, ?_, ?_⟩, ⟨?_, ?_, ?_⟩, ⟨?_, ?_, ?_⟩, ⟨?_, ?_, ?_⟩⟩ <;> decide +kernel

theorem newline_not_mem_savedLine (isName : IsName name) (val : Reading) :
    newline ∉ savedLine name val := by
  have free : ∀ x, newline ∉ general 5 x := not_mem_general (by decide) 5
  simp only [savedLine, List.mem_append, List.mem_flatMap, List.mem_cons, not_or, not_exists,
    not_and]
  exact ⟨isName.noNewline, fun x _ => ⟨by decide, free x⟩⟩

theorem savedLine_eq (name : String) (val : Reading) :
    savedLine name val = ascii name ++ blank :: (general 5 (val 0) ++ blank :: (general 5 (val 1) ++
      blank :: general 5 (val 2))) := by
  simp [savedLine, List.ofFn_succ]

theorem split_savedLine (splits : Splits split) (isName : IsName name) (val : Reading) :
    split (savedLine name val) blank =
      [ascii name, general 5 (val 0), general 5 (val 1), general 5 (val 2)] := by
  have free : ∀ x, blank ∉ general 5 x := not_mem_general (by decide) 5
  rw [savedLine_eq, splits.cons isName.noBlank (by simp [general_ne_nil]),
    splits.cons (free _) (by simp [general_ne_nil]),
    splits.cons (free _) (general_ne_nil 5 _), splits.single (general_ne_nil 5 _) (free _)]

/-- A reading as it comes out of the file. -/
def rounded (val : Reading) : Reading := fun i => significant 5 (val i)

theorem readValues_saved (first : Bytes) (val : Reading) :
    readValues [first, general 5 (val 0), general 5 (val 1), general 5 (val 2)] =
      some (rounded val) := by
  have read : ∀ x, stof (general 5 x) = some (significant 5 x) := by
    intro x
    rw [stof, stod_general]
    rfl
  have whole : ![significant 5 (val 0), significant 5 (val 1), significant 5 (val 2)] =
      rounded val := by
    funext i
    fin_cases i <;> rfl
  simp only [readValues, List.getElem?_cons_succ, List.getElem?_cons_zero, Option.bind_some, read]
  exact congrArg some whole

/-- The entries of a line that was saved. -/
theorem loadLine_saved (splits : Splits split) (isName : IsName name) (val : Reading) (d : Device) :
    d.loadLine split (savedLine name val) =
      if ascii name = ascii "m_magnetometerMaxVal" then
        some { d with magnetometer := fun i => { d.magnetometer i with maxVal := rounded val i } }
      else if ascii name = ascii "m_magnetometerMinVal" then
        some { d with magnetometer := fun i => { d.magnetometer i with minVal := rounded val i } }
      else if ascii name = ascii "m_accelerometerMaxVal" then
        some { d with accelerometer := fun i => { d.accelerometer i with maxVal := rounded val i } }
      else if ascii name = ascii "m_accelerometerMinVal" then
        some { d with accelerometer := fun i => { d.accelerometer i with minVal := rounded val i } }
      else if ascii name = ascii "m_gyroscopeAvgVal" then
        some { d with gyroscopeAvgVal := rounded val }
      else some d := by
  have printed : ∀ xs : List Bytes, xs.length < 256 → forIndex 256 xs (fun _ _ => ()) () = some () :=
    fun xs short => forIndex_eq_foldl short
  rw [Device.loadLine, split_savedLine splits isName, printed _ (by simp)]
  simp only [List.getElem?_cons_zero, readValues_saved, Option.bind_eq_bind, Option.bind_some]

/-- The extremes as they come out of the file. -/
def Extremes.rounded (e : Extremes) : Extremes where
  minVal := significant 5 e.minVal
  maxVal := significant 5 e.maxVal

/-- The device `d` with what it finds in the file that `saved` left. -/
def Device.loaded (d saved : Device) : Device :=
  { d with
    accelerometer := fun i => (saved.accelerometer i).rounded
    magnetometer := fun i => (saved.magnetometer i).rounded
    gyroscopeAvgVal := rounded saved.gyroscopeAvgVal }

theorem loadLines_saved (splits : Splits split) (d saved : Device) :
    saved.fileLines.foldlM (fun d line => d.loadLine split line) d = some (d.loaded saved) := by
  obtain ⟨magnetMax, magnetMin, accelMax, accelMin, gyroscope⟩ := isName_tags
  have differ : ascii "m_magnetometerMinVal" ≠ ascii "m_magnetometerMaxVal" ∧
      ascii "m_accelerometerMaxVal" ≠ ascii "m_magnetometerMaxVal" ∧
      ascii "m_accelerometerMaxVal" ≠ ascii "m_magnetometerMinVal" ∧
      ascii "m_accelerometerMinVal" ≠ ascii "m_magnetometerMaxVal" ∧
      ascii "m_accelerometerMinVal" ≠ ascii "m_magnetometerMinVal" ∧
      ascii "m_accelerometerMinVal" ≠ ascii "m_accelerometerMaxVal" ∧
      ascii "m_gyroscopeAvgVal" ≠ ascii "m_magnetometerMaxVal" ∧
      ascii "m_gyroscopeAvgVal" ≠ ascii "m_magnetometerMinVal" ∧
      ascii "m_gyroscopeAvgVal" ≠ ascii "m_accelerometerMaxVal" ∧
      ascii "m_gyroscopeAvgVal" ≠ ascii "m_accelerometerMinVal" := by
    decide +kernel
  simp only [Device.fileLines, List.foldlM_cons, List.foldlM_nil, loadLine_saved splits magnetMax,
    loadLine_saved splits magnetMin, loadLine_saved splits accelMax,
    loadLine_saved splits accelMin, loadLine_saved splits gyroscope, differ, if_true, if_false,
    Option.bind_eq_bind, Option.bind_some]
  rfl

theorem getlines_saved (saved : Device) :
    getlines newline (saved.fileLines.flatMap fun line => line ++ [newline]) = saved.fileLines := by
  obtain ⟨magnetMax, magnetMin, accelMax, accelMin, gyroscope⟩ := isName_tags
  have ended : ∀ lines : List Bytes, (∀ line ∈ lines, newline ∉ line) →
      getlines newline (lines.flatMap fun line => line ++ [newline]) = lines := by
    intro lines free
    induction lines with
    | nil => rfl
    | cons line lines ih =>
      rw [List.flatMap_cons, List.append_assoc, List.singleton_append,
        getlines_append (free line List.mem_cons_self),
        ih fun line there => free line (List.mem_cons_of_mem _ there)]
  apply ended
  intro line there
  simp only [Device.fileLines, List.mem_cons, List.not_mem_nil, or_false] at there
  rcases there with rfl | rfl | rfl | rfl | rfl
  · exact newline_not_mem_savedLine magnetMax _
  · exact newline_not_mem_savedLine magnetMin _
  · exact newline_not_mem_savedLine accelMax _
  · exact newline_not_mem_savedLine accelMin _
  · exact newline_not_mem_savedLine gyroscope _

/-- What a device saves, the next one loads, rounded. -/
theorem loadCalibrationFile_saved (splits : Splits split) (saved : Device) {files : FileSystem}
    (named : d.calibrationFile ≠ "")
    (content : files d.calibrationFile =
      some (saved.fileLines.flatMap fun line => line ++ [newline])) :
    d.loadCalibrationFile split true files = some (false, d.loaded saved) := by
  rw [Device.loadCalibrationFile, if_neg named, if_pos rfl, content]
  simp only [getlines_saved, loadLines_saved splits, Option.bind_eq_bind, Option.bind_some]

end Lines

/-! ## One run of the module -/

section Spanning
variable {α β : Type*} [LinearOrder α] [LinearOrder β] {s : Set α} {least greatest : α}

theorem Spans.image {f : α → β} (mono : Monotone f) (spans : Spans least greatest s) :
    Spans (f least) (f greatest) (f '' s) :=
  ⟨mono.map_isLeast spans.isLeast, mono.map_isGreatest spans.isGreatest⟩

end Spanning

/-- The calls of the calibration in a sequence of time slices. -/
def callsOf (slices : List Slice) : List (Sensor × Reading) :=
  slices.flatMap fun s =>
    [(.accelerometer, getAcceleration s.accelerometer), (.magnetometer, getMagneticField s.magnetometer)]

/-- The values of one axis in a sequence of calls. -/
def valuesOf (calls : List (Sensor × Reading)) (sensor : Sensor) (i : Fin 3) : Set ℚ :=
  {x | ∃ call ∈ calls, call.1 = sensor ∧ call.2 i = x}

theorem valuesOf_append (calls : List (Sensor × Reading)) (call : Sensor × Reading)
    (sensor : Sensor) (i : Fin 3) :
    valuesOf (calls ++ [call]) sensor i =
      if call.1 = sensor then insert (call.2 i) (valuesOf calls sensor i)
      else valuesOf calls sensor i := by
  ext x
  by_cases same : call.1 = sensor
  · rw [if_pos same]
    simp only [valuesOf, List.mem_append, List.mem_singleton, or_and_right, exists_or,
      exists_eq_left, same, true_and, Set.mem_insert_iff, Set.mem_ofPred_eq]
    rw [or_comm, eq_comm]
  · rw [if_neg same]
    simp [valuesOf, same, or_and_right, exists_or]

/-- Whatever the tables hold at the beginning, the readings are added to it. -/
theorem after_spans {d : PololuAltImu10Device} (unlocked : d.lockCalibration = false)
    {known : Sensor → Fin 3 → Set ℚ}
    (spans : ∀ sensor i, Spans (d.tables sensor i).minVal (d.tables sensor i).maxVal (known sensor i))
    (calls : List (Sensor × Reading)) (sensor : Sensor) (i : Fin 3) :
    Spans ((d.after calls).tables sensor i).minVal ((d.after calls).tables sensor i).maxVal
      (known sensor i ∪ valuesOf calls sensor i) := by
  induction calls using List.reverseRecOn with
  | nil =>
    have none : valuesOf [] sensor i = ∅ := by
      ext x
      simp [valuesOf]
    rw [none, Set.union_empty]
    exact spans sensor i
  | append_singleton calls call ih =>
    have still : (d.after calls).lockCalibration = false := by
      rw [PololuAltImu10Device.after_lockCalibration]
      exact unlocked
    rw [PololuAltImu10Device.after_append, PololuAltImu10Device.read_tables _ still,
      valuesOf_append]
    split
    · rw [Set.union_insert]
      exact Extremes.collect_spans ih (call.2 i)
    · exact ih

section Body
variable (d : Device)

/-- Time slices change nothing but the extremes. -/
theorem Device.body_fst (slices : List Slice) :
    (d.body slices).1 =
      { d with toPololuAltImu10Device := d.toPololuAltImu10Device.after (callsOf slices) } := by
  induction slices generalizing d with
  | nil => rfl
  | cons s slices ih =>
    change ((d.pass s).1.body slices).1 = _
    rw [ih]
    rfl

end Body

/-! ## What a file stands for -/

/-- The values seen on every axis, and the mean of the samples of the gyroscope. -/
structure Memory where
  seen : Sensor → Fin 3 → Set ℚ
  mean : Reading

namespace Session
variable (s : Session)

/-- The values that the tables begin with where no file is read: those of the first readings, or 0
where the bus is not open. -/
def first (sensor : Sensor) : Reading :=
  if s.opened then
    match sensor with
    | .accelerometer => getAcceleration s.acceleration
    | .magnetometer => getMagneticField s.magnetic
  else 0

def mean : Reading :=
  if s.opened then
    fun i => (s.samples.map fun r => getAngularVelocity r i).sum / s.samples.length
  else 0

/-- What the constructor finds of what the file stands for. -/
def found (m : Option Memory) : Option Memory := if s.opened ∧ s.reads then m else none

/-- What is known when the run begins. -/
def begins : Option Memory → Memory
  | some m => m
  | none => { seen := fun sensor i => {s.first sensor i}, mean := s.mean }

/-- The values that the tables of the device span when the run begins. -/
def known : Option Memory → Sensor → Fin 3 → Set ℚ
  | some m => fun sensor i => significant 5 '' m.seen sensor i
  | none => fun sensor i => {s.first sensor i}

/-- The offset of the gyroscope when the run begins. -/
def offset : Option Memory → Reading
  | some m => rounded m.mean
  | none => s.mean

/-- What the file stands for after the run. -/
def remember (m : Option Memory) : Option Memory :=
  if s.calibrationFile = "" ∨ s.lockCalibration ∨ s.writes = false then m
  else
    let begun := s.begins (s.found m)
    some { begun with
      seen := fun sensor i => begun.seen sensor i ∪ valuesOf (callsOf s.slices) sensor i }

end Session

/-- What a file stands for after runs of the module on this file and on others. -/
def remembered (sessions : List Session) (name : String) (m : Option Memory) : Option Memory :=
  (sessions.filter fun s => s.calibrationFile = name).foldl (fun m s => s.remember m) m

/-- What the device saves stands for this memory. -/
structure Device.Knows (d : Device) (m : Memory) : Prop where
  spans : ∀ sensor i, Spans (d.tables sensor i).rounded.minVal (d.tables sensor i).rounded.maxVal
    (significant 5 '' m.seen sensor i)
  mean : rounded d.gyroscopeAvgVal = rounded m.mean

/-- There is no file, or it is one that was saved. -/
inductive Holds (files : FileSystem) (name : String) : Option Memory → Prop
  | missing : (name ≠ "" → files name = none) → Holds files name none
  | saved (d : Device) (m : Memory) : name ≠ "" → d.Knows m →
      files name = some (d.fileLines.flatMap fun line => line ++ [newline]) → Holds files name (some m)

section Runs
variable {split : Bytes → UInt8 → List Bytes} {t : Trigonometry} {files : FileSystem}
  {m : Option Memory} {s : Session}

theorem rounded_rounded (val : Reading) : rounded (rounded val) = rounded val :=
  funext fun i => significant_idempotent 5 (val i)

/-- Rounding makes no difference between what the tables span and what was seen. -/
theorem Session.image_known (s : Session) (m : Option Memory) (sensor : Sensor) (i : Fin 3) :
    significant 5 '' s.known m sensor i = significant 5 '' (s.begins m).seen sensor i := by
  cases m with
  | none => rfl
  | some m =>
    rw [Session.known, Session.begins, Set.image_image]
    simp only [significant_idempotent]

theorem Session.rounded_offset (s : Session) (m : Option Memory) :
    rounded (s.offset m) = rounded (s.begins m).mean := by
  cases m with
  | none => rfl
  | some m => exact rounded_rounded m.mean

/-- The device at the beginning of a run. -/
structure Session.Starts (s : Session) (m : Option Memory) (t : Trigonometry) (d : Device) :
    Prop where
  lockCalibration : d.lockCalibration = s.lockCalibration
  calibrationFile : d.calibrationFile = s.calibrationFile
  rotationMatrix : s.opened = true → d.rotationMatrix = Imu.rotationMatrix t s.roll s.pitch s.yaw
  spans : ∀ sensor i,
    Spans (d.tables sensor i).minVal (d.tables sensor i).maxVal (s.known m sensor i)
  offset : d.gyroscopeAvgVal = s.offset m

theorem Device.Knows.loaded {d saved : Device} {m : Memory} (knows : saved.Knows m) (sensor : Sensor)
    (i : Fin 3) :
    Spans ((d.loaded saved).tables sensor i).minVal ((d.loaded saved).tables sensor i).maxVal
      (significant 5 '' m.seen sensor i) := by
  cases sensor with
  | accelerometer => exact knows.spans .accelerometer i
  | magnetometer => exact knows.spans .magnetometer i

/-- Without a bus everything begins at 0. -/
theorem Session.starts_unopened (closed : ¬ s.opened = true) :
    ∃ d, s.device split t files = some d ∧ s.Starts (s.found m) t d := by
  have missing : s.found m = none := if_neg fun both => closed both.1
  refine ⟨s.fresh t, if_neg closed, rfl, rfl, fun isOpen => absurd isOpen closed, ?_, ?_⟩
  · rw [missing]
    intro sensor i
    simp only [Session.known, Session.first, if_neg closed]
    cases sensor <;> exact Spans.singleton _
  · rw [missing, Session.offset, Session.mean, if_neg closed]
    rfl

/-- A file that was saved is loaded. -/
theorem Session.starts_loaded (splits : Splits split) (isOpen : s.opened = true)
    (reads : s.reads = true) {memory : Memory}
    (holds : Holds files s.calibrationFile (some memory)) :
    ∃ d, s.device split t files = some d ∧ s.Starts (some memory) t d := by
  cases holds with
  | saved saved _ named knows content =>
    have load := loadCalibrationFile_saved (d := s.fresh t) splits saved named content
    refine ⟨(s.fresh t).loaded saved, ?_, rfl, rfl, fun _ => if_pos isOpen, knows.loaded, knows.mean⟩
    rw [Session.device, if_pos isOpen, reads, load]
    rfl

/-- Where nothing can be read, the first readings are taken. -/
theorem Session.starts_calibrated (enough : s.samples ≠ []) (isOpen : s.opened = true)
    (missing : s.found m = none) (holds : Holds files s.calibrationFile m) :
    ∃ d, s.device split t files = some d ∧ s.Starts none t d := by
  have asks : (s.fresh t).loadCalibrationFile split s.reads files = some (true, s.fresh t) := by
    rw [Device.loadCalibrationFile]
    by_cases named : s.calibrationFile = ""
    · exact if_pos named
    have closed : (if s.reads then files (s.fresh t).calibrationFile else none) = none := by
      split
      · case isTrue reads =>
        rw [Session.found, if_pos ⟨isOpen, reads⟩] at missing
        subst missing
        cases holds with
        | missing none => exact none named
      · rfl
    rw [if_neg (show ¬ (s.fresh t).calibrationFile = "" from named), closed]
  refine ⟨{ s.fresh t with
    toPololuAltImu10Device := (s.fresh t).toPololuAltImu10Device.initCalibration
      (getAcceleration s.acceleration) (getMagneticField s.magnetic)
    gyroscopeAvgVal := s.mean }, ?_, rfl, rfl, fun _ => if_pos isOpen, ?_, rfl⟩
  · rw [Session.device, if_pos isOpen, asks]
    simp only [Option.bind_eq_bind, Option.bind_some, if_true, Device.initCalibration,
      if_neg enough, Session.mean, if_pos isOpen]
  · intro sensor i
    simp only [Session.known, Session.first, if_pos isOpen]
    cases sensor <;> exact Spans.singleton _

/-- A run finds what the file stands for, or begins with its own first readings. -/
theorem Session.device_starts (splits : Splits split) (enough : s.samples ≠ [])
    (holds : Holds files s.calibrationFile m) :
    ∃ d, s.device split t files = some d ∧ s.Starts (s.found m) t d := by
  by_cases isOpen : s.opened = true
  · cases found : s.found m with
    | none => exact Session.starts_calibrated enough isOpen found holds
    | some memory =>
      rw [Session.found] at found
      split at found
      · case isTrue both =>
        subst found
        exact Session.starts_loaded splits isOpen both.2 holds
      · cases found
  · exact Session.starts_unopened isOpen

/-- What the device saves at the end of a run. -/
theorem Session.Starts.knows {d : Device} (starts : s.Starts m t d)
    (unlocked : s.lockCalibration = false) :
    (d.body s.slices).1.Knows { (s.begins m) with
      seen := fun sensor i => (s.begins m).seen sensor i ∪ valuesOf (callsOf s.slices) sensor i } := by
  rw [Device.body_fst]
  constructor
  · intro sensor i
    have spans := after_spans (starts.lockCalibration.trans unlocked) starts.spans
      (callsOf s.slices) sensor i
    have image := spans.image (significant_mono (p := 5))
    rw [Set.image_union, s.image_known, ← Set.image_union] at image
    exact image
  · change rounded d.gyroscopeAvgVal = _
    rw [starts.offset, s.rounded_offset]

/-- A run on a file of which it is known what it stands for, among other files. -/
theorem Session.run_holds (splits : Splits split) (enough : s.samples ≠ [])
    {memory : String → Option Memory} {ours : String → Prop} (mine : ours s.calibrationFile)
    (holds : ∀ name, ours name → Holds files name (memory name)) :
    ∃ files' sent, s.run split t files = some (files', sent) ∧
      ∀ name, ours name → Holds files' name
        (if s.calibrationFile = name then s.remember (memory name) else memory name) := by
  obtain ⟨d, built, starts⟩ := s.device_starts (t := t) splits enough (holds _ mine)
  refine ⟨_, _, by rw [Session.run, built]; rfl, fun name our => ?_⟩
  have same : (d.body s.slices).1.calibrationFile = s.calibrationFile ∧
      (d.body s.slices).1.lockCalibration = s.lockCalibration := by
    rw [Device.body_fst]
    refine ⟨starts.calibrationFile, ?_⟩
    exact (PololuAltImu10Device.after_lockCalibration _ _).trans starts.lockCalibration
  rw [Device.saveCalibrationFile, same.1, same.2, Session.remember]
  by_cases kept : s.calibrationFile = "" ∨ s.lockCalibration ∨ s.writes = false
  · rw [if_pos kept, if_pos kept, ite_self]
    exact holds name our
  · rw [if_neg kept, if_neg kept]
    rw [not_or, not_or] at kept
    obtain ⟨named, unlocked, -⟩ := kept
    by_cases here : s.calibrationFile = name
    · subst here
      rw [if_pos rfl]
      exact .saved _ _ named (starts.knows (by simpa using unlocked)) (Function.update_self ..)
    · have other : ∀ content, Function.update files s.calibrationFile content name = files name :=
        fun content => Function.update_of_ne (Ne.symm here) ..
      rw [if_neg here]
      cases known : memory name with
      | none =>
        cases known ▸ holds name our with
        | missing none => exact .missing fun named => (other _).trans (none named)
      | some m =>
        cases known ▸ holds name our with
        | saved d _ named knows content => exact .saved d m named knows ((other _).trans content)

theorem runAll_holds (splits : Splits split) (memory : String → Option Memory)
    (ours : String → Prop) (sessions : List Session)
    (enough : ∀ s ∈ sessions, s.samples ≠ []) (mine : ∀ s ∈ sessions, ours s.calibrationFile)
    (holds : ∀ name, ours name → Holds files name (memory name)) :
    ∃ files' sent, runAll split t sessions files = some (files', sent) ∧
      ∀ name, ours name → Holds files' name (remembered sessions name (memory name)) := by
  induction sessions generalizing files memory with
  | nil => exact ⟨files, [], rfl, holds⟩
  | cons s sessions ih =>
    obtain ⟨files', sent, ran, holds'⟩ := s.run_holds (t := t) splits (enough s List.mem_cons_self)
      (mine s List.mem_cons_self) holds
    obtain ⟨files'', later, rest, holds''⟩ := ih _
      (fun s there => enough s (List.mem_cons_of_mem _ there))
      (fun s there => mine s (List.mem_cons_of_mem _ there)) holds'
    refine ⟨files'', sent :: later, ?_, fun name our => ?_⟩
    · rw [runAll, ran]
      simp only [Option.bind_eq_bind, Option.bind_some, rest]
    · have last := holds'' name our
      rw [remembered, List.filter_cons]
      by_cases here : s.calibrationFile = name
      · rw [if_pos here] at last
        rw [if_pos (decide_eq_true here), List.foldl_cons]
        exact last
      · rw [if_neg here] at last
        rw [if_neg (by simpa using here)]
        exact last

/-- The next run on a file, after any runs on files that were not there before. -/
theorem runAll_starts (splits : Splits split) (t : Trigonometry) (sessions : List Session)
    (next : Session) (enough : ∀ s ∈ sessions ++ [next], s.samples ≠ [])
    (new : ∀ s ∈ sessions ++ [next], files s.calibrationFile = none) :
    ∃ files' sent d, runAll split t sessions files = some (files', sent) ∧
      next.device split t files' = some d ∧
      next.Starts (next.found (remembered sessions next.calibrationFile none)) t d := by
  obtain ⟨files', sent, ran, holds⟩ := runAll_holds (t := t) splits (fun _ => none)
    (fun name => files name = none) sessions
    (fun s there => enough s (List.mem_append_left _ there))
    (fun s there => new s (List.mem_append_left _ there)) fun name none => .missing fun _ => none
  have last : next ∈ sessions ++ [next] := List.mem_append_right _ (List.mem_singleton_self next)
  obtain ⟨d, built, starts⟩ := next.device_starts (t := t) splits (enough next last)
    (holds _ (new next last))
  exact ⟨files', sent, d, ran, built, starts⟩

/-- After any runs of the module, on any calibration files that were not there before, the next one
starts from the extremes of the rounded values of all unlocked runs on its file, and from the
rounded mean of the first of them. -/
theorem calibration_survives (splits : Splits split) (t : Trigonometry) (sessions : List Session)
    (next : Session) (enough : ∀ s ∈ sessions ++ [next], s.samples ≠ [])
    (new : ∀ s ∈ sessions ++ [next], files s.calibrationFile = none) :
    ∃ files' sent d, runAll split t sessions files = some (files', sent) ∧
      next.device split t files' = some d ∧
      let memory := next.found (remembered sessions next.calibrationFile none)
      (∀ sensor i,
        Spans (d.tables sensor i).minVal (d.tables sensor i).maxVal (next.known memory sensor i)) ∧
      d.gyroscopeAvgVal = next.offset memory := by
  obtain ⟨files', sent, d, ran, built, starts⟩ := runAll_starts splits t sessions next enough new
  exact ⟨files', sent, d, ran, built, starts.spans, starts.offset⟩

end Runs

/-- A run in which every sensor moves once. -/
def turned : Session where
  calibrationFile := "imu"
  lockCalibration := false
  acceleration _ := 0
  magnetic _ := 0
  samples := [fun _ => 0]
  slices := [⟨fun _ => 1, fun _ => 1, fun _ => 1⟩]

/-- Two runs and what a third one starts from. -/
theorem calibration_survives_turned :
    ∃ files' sent d, runAll splitEverywhere ⟨fun _ => 1, fun _ => 0⟩ [turned, turned] (fun _ => none) =
        some (files', sent) ∧
      turned.device splitEverywhere ⟨fun _ => 1, fun _ => 0⟩ files' = some d ∧
      let memory := turned.found (remembered [turned, turned] turned.calibrationFile none)
      (∀ sensor i,
        Spans (d.tables sensor i).minVal (d.tables sensor i).maxVal (turned.known memory sensor i)) ∧
      d.gyroscopeAvgVal = turned.offset memory :=
  calibration_survives splits_splitEverywhere ⟨fun _ => 1, fun _ => 0⟩ [turned, turned] turned
    (by simp [turned]) fun _ _ => rfl

end OpendlvCore.Imu
