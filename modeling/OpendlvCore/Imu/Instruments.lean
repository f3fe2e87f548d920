import OpendlvCore.Imu.Bus
import OpendlvCore.Imu.Sessions

/-!
# The instruments on the bus

Whatever the system calls deliver, a run on the bus is the run on the registers that `outBuffer`
holds, and its calls are those of a fixed plan. Both tests of the address type are for inequality,
so that "high" gives the addresses of low pins and every other text those of high pins.
-/
namespace OpendlvCore.Imu
open CBytes CText

section Definitions
variable (place : Instrument → UInt8) (pow : ℚ → ℚ → ℚ)

/-- The bytes of six registers. -/
def Transfer.registers (x : Transfer) : Registers := fun k => x.outBuffer k

/-- The registers of a time slice. -/
def BusSlice.slice (s : BusSlice) : Slice where
  gyroscope := s.gyroscope.registers
  accelerometer := s.accelerometer.registers
  magnetometer := s.magnetometer.registers

def BusSlice.atmosphere (s : BusSlice) : Atmosphere where
  altitude := if s.altimeter.status = 1 then altitudeOf pow s.altimeter.outBuffer else 0
  temperature := if s.thermometer.status = 1 then temperatureOf s.thermometer.outBuffer else 0

/-- The same run on registers. -/
def BusSession.session (s : BusSession) : Session where
  roll := s.roll
  pitch := s.pitch
  yaw := s.yaw
  calibrationFile := s.calibrationFile
  lockCalibration := s.lockCalibration
  opened := s.opened
  unfilled := s.unfilled
  reads := s.reads
  writes := s.writes
  acceleration := s.acceleration.registers
  magnetic := s.magnetic.registers
  samples := s.samples.map Transfer.registers
  slices := s.slices.map BusSlice.slice

/-! ## The plan of the calls -/

/-- Six bytes are read whether the number of the register arrived or not. -/
def sixBytes (i : Instrument) (register : UInt8) : Bus :=
  [.ioctl (place i), .write [register], .read 6]

/-- Behind a number that did not arrive nothing is read. -/
def bytesBehind (x : Transfer) (register : UInt8) (count : Nat) : Bus :=
  [.ioctl (place .LPS25), .write [register]] ++ if x.status = 1 then [.read count] else []

def BusSlice.calls (s : BusSlice) : Bus :=
  sixBytes place .LSM6 0x22 ++ sixBytes place .LSM6 0x28 ++ sixBytes place .LIS3 0xA8 ++
    bytesBehind place s.altimeter 0xA8 3 ++ bytesBehind place s.thermometer 0xAB 2

/-- What the constructor writes to the instruments. -/
def settings : Bus :=
  [.ioctl (place .LSM6), .write [0x10, 0x43], .write [0x11, 0x40], .write [0x12, 0x04],
    .ioctl (place .LIS3), .write [0x20, 0x70], .write [0x21, 0x00], .write [0x22, 0x00],
    .write [0x23, 0x0C], .ioctl (place .LPS25), .write [0x20, 0xB0]]

/-- The readings of a calibration. -/
def firstReadings (samples : List Transfer) : Bus :=
  sixBytes place .LSM6 0x28 ++ sixBytes place .LIS3 0xA8 ++
    samples.flatMap fun _ => sixBytes place .LSM6 0x22

/-- Where the instruments are looked for. -/
def BusSession.reached (s : BusSession) (i : Instrument) : UInt8 :=
  if s.opened then if s.addressType = "high" then i.low else i.high else 0

/-- The calls of the constructor, with a calibration or without. -/
def BusSession.construction (s : BusSession) (asks : Bool) : Bus :=
  (if s.opened then settings s.reached else []) ++
    if asks then firstReadings s.reached s.samples else []

def BusSession.calls (s : BusSession) (asks : Bool) : Bus :=
  s.construction asks ++ s.slices.flatMap (BusSlice.calls s.reached)

/-- What a run on the bus sends and calls, where the run on registers sends `sent`. -/
def BusSession.outcome (run : BusSession × Bool) (sent : List Sent) : List (Sent × Atmosphere) × Bus :=
  (sent.zip (run.1.slices.map (BusSlice.atmosphere pow)), run.1.calls run.2)

variable (split : Bytes → UInt8 → List Bytes) (t : Trigonometry)

/-- Whether a run calibrates: where no file could be read. -/
def Session.asks (s : Session) (files : FileSystem) : Bool :=
  s.opened && ((s.fresh t).loadCalibrationFile split s.reads files).any Prod.fst

/-- Which of the runs calibrate. -/
def asked : List Session → FileSystem → List Bool
  | [], _ => []
  | s :: sessions, files =>
    s.asks split t files :: ((s.run split t files).elim [] fun run => asked sessions run.1)

end Definitions

/-! ## Readings -/

section Readings
variable (adress : Instrument → UInt8) (pow : ℚ → ℚ → ℚ) (b : Bus)

@[simp] theorem readFrom_eq (i : Instrument) (register : UInt8) (x : Transfer) :
    b.readFrom adress i register x = (x.registers, b ++ sixBytes adress i register) := by
  simp only [Bus.readFrom, Bus.access, sixBytes, List.append_assoc, List.cons_append, List.nil_append]
  rfl

@[simp] theorem getAltitude_eq (s : BusSlice) :
    getAltitude adress pow s.altimeter b =
      ((s.atmosphere pow).altitude, b ++ bytesBehind adress s.altimeter 0xA8 3) := by
  by_cases arrived : s.altimeter.status = 1 <;>
    simp [getAltitude, BusSlice.atmosphere, bytesBehind, Bus.access, arrived]

@[simp] theorem getTemperature_eq (s : BusSlice) :
    getTemperature adress s.thermometer b =
      ((s.atmosphere pow).temperature, b ++ bytesBehind adress s.thermometer 0xAB 2) := by
  by_cases arrived : s.thermometer.status = 1 <;>
    simp [getTemperature, BusSlice.atmosphere, bytesBehind, Bus.access, arrived]

/-- One time slice. -/
theorem busPass_eq (d : Device) (s : BusSlice) :
    d.busPass adress pow s b =
      ((d.pass s.slice).1, ((d.pass s.slice).2, s.atmosphere pow), b ++ s.calls adress) := by
  simp only [Device.busPass, gyroscopeRegisters, accelerometerRegisters, magnetometerRegisters,
    readFrom_eq, getAltitude_eq, getTemperature_eq adress pow, BusSlice.calls, List.append_assoc]
  rfl

theorem busBody_eq (d : Device) (slices : List BusSlice) :
    d.busBody adress pow slices b =
      ((d.body (slices.map BusSlice.slice)).1,
        (d.body (slices.map BusSlice.slice)).2.zip (slices.map (BusSlice.atmosphere pow)),
        b ++ slices.flatMap (BusSlice.calls adress)) := by
  induction slices generalizing d b with
  | nil => exact congrArg (fun b => (d, [], b)) (List.append_nil b).symm
  | cons s slices ih =>
    rw [Device.busBody, busPass_eq]
    simp only [ih, List.map_cons, Device.body, List.zip_cons_cons, List.flatMap_cons,
      List.append_assoc]

theorem gyroscopeSamples_eq (samples : List Transfer) :
    gyroscopeSamples adress samples b =
      (samples.map Transfer.registers, b ++ samples.flatMap fun _ => sixBytes adress .LSM6 0x22) := by
  induction samples generalizing b with
  | nil => exact congrArg (fun b => ([], b)) (List.append_nil b).symm
  | cons x samples ih =>
    rw [gyroscopeSamples, gyroscopeRegisters, readFrom_eq]
    simp only [ih, List.map_cons, List.flatMap_cons, List.append_assoc]

/-- The constructor sets the instruments up. -/
theorem init_eq :
    ((Bus.initLSM6 adress []).initLIS3 adress).initLPS25 adress = settings adress := rfl

end Readings

/-! ## Runs -/

section Runs
variable (split : Bytes → UInt8 → List Bytes) (t : Trigonometry) (pow : ℚ → ℚ → ℚ)

/-- No address type gives the addresses it names. -/
theorem BusSession.adress_eq (s : BusSession) : s.adress = s.reached := by
  funext i
  rw [BusSession.adress, BusSession.reached]
  cases s.opened with
  | false => rfl
  | true =>
    simp only [if_true, instrumentAdress]
    by_cases high : s.addressType = "high"
    · have notLow : s.addressType ≠ "low" := by
        rw [high]
        decide
      rw [if_neg (not_not.2 high), if_pos notLow, if_pos high]
    · rw [if_pos high, if_neg high]

/-- The constructor on the bus and on registers. -/
theorem device_on_bus (s : BusSession) (files : FileSystem) :
    s.device split t files = (s.session.device split t files).map fun d =>
      (d, s.construction (s.session.asks split t files)) := by
  have same : s.session.fresh t = s.fresh t := rfl
  have opened : s.session.opened = s.opened := rfl
  rw [BusSession.device, Session.device, Session.asks, BusSession.construction, same, opened]
  cases s.opened with
  | false => rfl
  | true =>
    simp only [if_true, Bool.true_and, init_eq, s.adress_eq]
    change ((s.fresh t).loadCalibrationFile split s.reads files).bind _ =
      Option.map _ (((s.fresh t).loadCalibrationFile split s.reads files).bind _)
    rw [show s.session.reads = s.reads from rfl]
    cases (s.fresh t).loadCalibrationFile split s.reads files with
    | none => rfl
    | some loaded =>
      obtain ⟨asks, d⟩ := loaded
      cases asks with
      | false => simp
      | true =>
        simp only [Option.bind_some, if_true, BusSession.initCalibration, s.adress_eq,
          accelerometerRegisters, magnetometerRegisters, readFrom_eq, gyroscopeSamples_eq,
          Option.any_some, firstReadings, List.append_assoc]
        rfl

/-- A run on the bus and on registers. -/
theorem run_on_bus (s : BusSession) (pololu : s.type = "pololu.altimu10") (files : FileSystem) :
    s.run split t pow files = (s.session.run split t files).map fun r =>
      (r.1, BusSession.outcome pow (s, s.session.asks split t files) r.2) := by
  have valid : s.addressType ≠ "high" ∨ s.addressType ≠ "low" := by
    by_cases high : s.addressType = "high"
    · exact .inr (by rw [high]; decide)
    · exact .inl high
  rw [BusSession.run, if_pos ⟨pololu, valid⟩, device_on_bus, Session.run]
  cases s.session.device split t files with
  | none => rfl
  | some d =>
    simp only [Option.map_some, Option.bind_eq_bind, Option.bind_some, busBody_eq, s.adress_eq]
    rfl

/-- Whatever the calls deliver, runs on the bus are runs on registers, and their calls are those of
the plan. -/
theorem sessions_on_bus (sessions : List BusSession)
    (pololu : ∀ s ∈ sessions, s.type = "pololu.altimu10") (files : FileSystem) :
    runAllOnBus split t pow sessions files =
      (runAll split t (sessions.map BusSession.session) files).map fun r =>
        (r.1, List.zipWith (BusSession.outcome pow)
          (sessions.zip (asked split t (sessions.map BusSession.session) files)) r.2) := by
  induction sessions generalizing files with
  | nil => rfl
  | cons s sessions ih =>
    have first := run_on_bus split t pow s (pololu s List.mem_cons_self) files
    have later := ih fun s there => pololu s (List.mem_cons_of_mem _ there)
    rw [List.map_cons, runAllOnBus, runAll, asked, first]
    cases s.session.run split t files with
    | none => rfl
    | some run =>
      simp only [Option.map_some, Option.bind_eq_bind, Option.bind_some, later, Option.elim_some]
      cases runAll split t (sessions.map BusSession.session) run.1 with
      | none => rfl
      | some rest => rfl

end Runs

/-- A run in which the barometer does not answer. -/
def asking (addressType : String) (opened : Bool) : BusSession where
  type := "pololu.altimu10"
  addressType := addressType
  calibrationFile := "imu"
  lockCalibration := false
  opened := opened
  acceleration := ⟨1, fun _ => 1⟩
  magnetic := ⟨1, fun _ => 1⟩
  samples := [⟨1, fun _ => 1⟩]
  slices := [⟨⟨1, fun _ => 2⟩, ⟨1, fun _ => 2⟩, ⟨1, fun _ => 2⟩, ⟨255, fun _ => 0⟩, ⟨255, fun _ => 0⟩⟩]

/-- Two runs that ask for different pins, and one whose bus cannot be opened. -/
theorem sessions_on_bus_asking :
    runAllOnBus splitEverywhere ⟨fun _ => 1, fun _ => 0⟩ (fun x _ => x)
        [asking "low" true, asking "high" true, asking "high" false] (fun _ => none) =
      (runAll splitEverywhere ⟨fun _ => 1, fun _ => 0⟩
        ([asking "low" true, asking "high" true, asking "high" false].map BusSession.session)
          fun _ => none).map
        fun r => (r.1, List.zipWith (BusSession.outcome fun x _ => x)
          ([asking "low" true, asking "high" true, asking "high" false].zip
            (asked splitEverywhere ⟨fun _ => 1, fun _ => 0⟩
              ([asking "low" true, asking "high" true, asking "high" false].map BusSession.session)
                fun _ => none)) r.2) :=
  sessions_on_bus _ _ _ [asking "low" true, asking "high" true, asking "high" false]
    (by simp [asking]) _

end OpendlvCore.Imu
