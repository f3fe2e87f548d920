import Mathlib.LinearAlgebra.Matrix.Notation
import OpendlvCore.Imu.Calibration
import OpendlvCore.Loops
import OpendlvCore.SignificantDigits

/-!
# The IMU and its calibration file

`Pololualtimu10device.cpp` and `ProxyIMU.cpp`: the constructor with the calibration file, the three
sensors whose readings are calibrated and turned, and `tearDown`. Numbers are exact, and a quotient
by zero has no value. `none` is also an exception, an element read past the end of a vector, and a
loop that never ends. The bus, the altimeter, the thermometer and all output are left out.
-/
namespace OpendlvCore.Imu
open CBytes CLoop CText SignificantDigits Matrix

/-! ## The sensors -/

/-- The output registers of a sensor, for each axis the lower byte first. -/
abbrev Registers := Fin 6 → UInt8

/-- `int16_t x = high; x = (x << 8) | low;` -/
def word (low high : UInt8) : ℤ := (Int16.ofNat (high.toNat <<< 8 ||| low.toNat)).toInt

def words (r : Registers) : Fin 3 → ℤ := ![word (r 0) (r 1), word (r 2) (r 3), word (r 4) (r 5)]

/-- The `double` nearest to pi. -/
def M_PI : ℚ := 884279719003555 / 2 ^ 48

/-- FS = ±2, 0.061 mg/LSB -/
def getAcceleration (r : Registers) : Reading := fun i => 61 / 1000 * words r i / 1000 * (-982 / 100)

/-- FS = ±4 gauss, 6842 LSB/gauss -/
def getMagneticField (r : Registers) : Reading := fun i => words r i / 6842

/-- FS = ±245, 8.75 mdps/LSB -/
def getAngularVelocity (r : Registers) : Reading :=
  fun i => 875 / 100 * words r i / 1000 / 180 * M_PI

/-! ## The device -/

structure Trigonometry where
  cos : ℚ → ℚ
  sin : ℚ → ℚ

def rotationMatrix (t : Trigonometry) (roll pitch yaw : ℚ) : Matrix (Fin 3) (Fin 3) ℚ :=
  let rX := !![1, 0, 0;
               0, t.cos roll, -t.sin roll;
               0, t.sin roll, t.cos roll]
  let rY := !![t.cos pitch, 0, t.sin pitch;
               0, 1, 0;
               -t.sin pitch, 0, t.cos pitch]
  let rZ := !![t.cos yaw, -t.sin yaw, 0;
               t.sin yaw, t.cos yaw, 0;
               0, 0, 1]
  rX * rY * rZ

/-- A vector one of whose components has no value is turned into one without any. -/
def rotate (v : Fin 3 → Option ℚ) (m : Matrix (Fin 3) (Fin 3) ℚ) : Option Reading :=
  if value : ∀ i, (v i).isSome then some (m *ᵥ fun i => (v i).get (value i)) else none

/-- What the files hold that can be opened for reading. -/
abbrev FileSystem := String → Option Bytes

structure Device extends PololuAltImu10Device where
  calibrationFile : String
  rotationMatrix : Matrix (Fin 3) (Fin 3) ℚ
  gyroscopeAvgVal : Reading := fun _ => 0

def ascii (name : String) : Bytes := name.toList.map fun c => UInt8.ofNat c.toNat

def newline : UInt8 := 0x0A
def blank : UInt8 := 0x20

def stof (text : Bytes) : Option ℚ := (stod text).join

/-- `val[i] = std::stof(strList[i+1])` -/
def readValues (strList : List Bytes) : Option Reading := do
  let x ← strList[1]?.bind stof
  let y ← strList[2]?.bind stof
  let z ← strList[3]?.bind stof
  some ![x, y, z]

/-- A line that `saveCalibrationFile` writes, without its end. -/
def savedLine (name : String) (val : Reading) : Bytes :=
  ascii name ++ (List.ofFn val).flatMap fun x => blank :: general 5 x

namespace Device
variable (d : Device)

/-! ### The calibration file -/

section Load
variable (split : Bytes → UInt8 → List Bytes)

def loadLine (line : Bytes) : Option Device := do
  let strList := split line blank
  -- the loop that prints the entries is counted by a `uint8_t`
  forIndex 256 strList (fun _ _ => ()) ()
  let name ← strList[0]?
  if name = ascii "m_magnetometerMaxVal" then
    let val ← readValues strList
    some { d with magnetometer := fun i => { d.magnetometer i with maxVal := val i } }
  else if name = ascii "m_magnetometerMinVal" then
    let val ← readValues strList
    some { d with magnetometer := fun i => { d.magnetometer i with minVal := val i } }
  else if name = ascii "m_accelerometerMaxVal" then
    let val ← readValues strList
    some { d with accelerometer := fun i => { d.accelerometer i with maxVal := val i } }
  else if name = ascii "m_accelerometerMinVal" then
    let val ← readValues strList
    some { d with accelerometer := fun i => { d.accelerometer i with minVal := val i } }
  else if name = ascii "m_gyroscopeAvgVal" then
    let val ← readValues strList
    some { d with gyroscopeAvgVal := val }
  else some d

/-- `true` asks for a calibration. `opens` tells whether a file that is there can be opened. -/
def loadCalibrationFile (opens : Bool) (files : FileSystem) : Option (Bool × Device) :=
  if d.calibrationFile = "" then some (true, d)
  else
    match if opens then files d.calibrationFile else none with
    | none => some (true, d)
    | some content => do
      let loaded ← (getlines newline content).foldlM (fun d line => d.loadLine split line) d
      some (false, loaded)

end Load

def fileLines : List Bytes :=
  [savedLine "m_magnetometerMaxVal" fun i => (d.magnetometer i).maxVal,
    savedLine "m_magnetometerMinVal" fun i => (d.magnetometer i).minVal,
    savedLine "m_accelerometerMaxVal" fun i => (d.accelerometer i).maxVal,
    savedLine "m_accelerometerMinVal" fun i => (d.accelerometer i).minVal,
    savedLine "m_gyroscopeAvgVal" d.gyroscopeAvgVal]

/-- `opens` tells whether the file can be opened for writing. -/
def saveCalibrationFile (opens : Bool) (files : FileSystem) : FileSystem :=
  if d.calibrationFile = "" ∨ d.lockCalibration ∨ opens = false then files
  else
    Function.update files d.calibrationFile
      (some (d.fileLines.flatMap fun line => line ++ [newline]))

/-! ### Readings -/

/-- The first readings, and the mean of the samples of the gyroscope, of which there must be one. -/
def initCalibration (acceleration magnetic : Registers) (samples : List Registers) :
    Option Device :=
  if samples = [] then none
  else
    some { d with
      toPololuAltImu10Device :=
        d.toPololuAltImu10Device.initCalibration (getAcceleration acceleration)
          (getMagneticField magnetic)
      gyroscopeAvgVal := fun i =>
        (samples.map fun r => getAngularVelocity r i).sum / samples.length }

/-- `CalibrateGyroscope` takes the mean off. -/
def readGyroscope (r : Registers) : Reading :=
  d.rotationMatrix *ᵥ fun i => getAngularVelocity r i - d.gyroscopeAvgVal i

def readAccelerometer (r : Registers) : Device × Option Reading :=
  let (device, val) := d.toPololuAltImu10Device.calibrateAccelerometer (getAcceleration r)
  ({ d with toPololuAltImu10Device := device }, rotate val d.rotationMatrix)

def readMagnetometer (r : Registers) : Device × Option Reading :=
  let (device, val) := d.toPololuAltImu10Device.calibrateMagnetometer (getMagneticField r)
  ({ d with toPololuAltImu10Device := device }, rotate val d.rotationMatrix)

end Device

/-! ## The proxy -/

/-- The registers in one time slice. -/
structure Slice where
  gyroscope : Registers
  accelerometer : Registers
  magnetometer : Registers

/-- The containers of one time slice. -/
structure Sent where
  angularVelocity : Reading
  acceleration : Option Reading
  magneticField : Option Reading

/-- One pass of the loop of `ProxyIMU::body`. -/
def Device.pass (d : Device) (s : Slice) : Device × Sent :=
  let angularVelocity := d.readGyroscope s.gyroscope
  let (d, acceleration) := d.readAccelerometer s.accelerometer
  let (d, magneticField) := d.readMagnetometer s.magnetometer
  (d, { angularVelocity, acceleration, magneticField })

def Device.body (d : Device) : List Slice → Device × List Sent
  | [] => (d, [])
  | s :: slices =>
    let (d, sent) := d.pass s
    let (d, later) := d.body slices
    (d, sent :: later)

/-- A run of the module: its configuration with the angles in radians, whether the bus can be
opened and its calibration file for reading and for writing, and what the sensors deliver. -/
structure Session where
  roll : ℚ := 0
  pitch : ℚ := 0
  yaw : ℚ := 0
  calibrationFile : String
  lockCalibration : Bool
  opened : Bool := true
  /-- What the matrix holds that no constructor has filled. -/
  unfilled : Matrix (Fin 3) (Fin 3) ℚ := 0
  reads : Bool := true
  writes : Bool := true
  acceleration : Registers
  magnetic : Registers
  samples : List Registers
  slices : List Slice

section Run
variable (split : Bytes → UInt8 → List Bytes) (t : Trigonometry)

namespace Session
variable (s : Session) (files : FileSystem)

/-- The device before its calibration. -/
def fresh : Device where
  lockCalibration := s.lockCalibration
  calibrationFile := s.calibrationFile
  rotationMatrix := if s.opened then rotationMatrix t s.roll s.pitch s.yaw else s.unfilled

/-- The constructor. It returns at once where the bus cannot be opened, and the module goes on. -/
def device : Option Device :=
  if s.opened then do
    let (asks, d) ← (s.fresh t).loadCalibrationFile split s.reads files
    if asks then d.initCalibration s.acceleration s.magnetic s.samples else some d
  else some (s.fresh t)

/-- `setUp`, `body` and `tearDown`. -/
def run : Option (FileSystem × List Sent) := do
  let d ← s.device split t files
  let (d, sent) := d.body s.slices
  some (d.saveCalibrationFile s.writes files, sent)

end Session

/-- One run of the module after the other. -/
def runAll : List Session → FileSystem → Option (FileSystem × List (List Sent))
  | [], files => some (files, [])
  | s :: sessions, files => do
    let (files, sent) ← s.run split t files
    let (files, later) ← runAll sessions files
    some (files, sent :: later)

end Run

end OpendlvCore.Imu
