import OpendlvCore.Loops
import OpendlvCore.RunningExtremes
import OpendlvCore.Text

/-!
# The angle sensor

`ProxyAnglesensor.cpp`. Numbers are exact: a `float` that is infinite or not a number has no value
here, and neither has a quotient by zero. `none` is also an exception, an element read past the end
of a vector and a conversion out of the range of its target. Output is left out, except for the
elements that it reads.
-/
namespace OpendlvCore.Anglesensor
open CBytes CText RunningExtremes

/-- What the files hold that can be opened for reading. -/
abbrev FileSystem := String → Option Bytes

/-- The values of `proxy-anglesensor.…` in the configuration. -/
structure Configuration where
  pin : Bytes
  anglesminmax : Bytes
  setUpCalibration : Int32
  calibrationfile : String
  debug : Int32

structure ProxyAnglesensor where
  pin : UInt16
  convertConstants : List ℚ := []
  rawReadingMinMax : List UInt16 := []
  anglesMinMax : List ℚ
  calibrationFile : String
  debug : Bool
  deriving DecidableEq, Repr

def newline : UInt8 := 0x0A
def blank : UInt8 := 0x20
def comma : UInt8 := 0x2C

/-- `"m_rawReadingMinMax"` -/
def rawReadingMinMaxName : Bytes :=
  [0x6D, 0x5F, 0x72, 0x61, 0x77, 0x52, 0x65, 0x61, 0x64, 0x69, 0x6E, 0x67, 0x4D, 0x69, 0x6E, 0x4D,
    0x61, 0x78]

/-- The line that `SaveCalibration` writes of two readings. -/
def savedLine (first second : UInt16) : Bytes :=
  rawReadingMinMaxName ++ blank :: (decimal first.toNat ++ blank :: decimal second.toNat)

def stof (text : Bytes) : Option ℚ := (stod text).join

/-- A `float` assigned to a `uint16_t`. -/
def toUInt16 (x : ℚ) : Option UInt16 :=
  if 0 ≤ truncate x ∧ truncate x < 2 ^ 16 then some (UInt16.ofInt (truncate x)) else none

/-- `static_cast<float>(M_PI)` -/
def M_PI : ℚ := 13176795 / 2 ^ 22

def radians (degrees : ℚ) : ℚ := degrees * M_PI / 180

def voltageFile (pin : UInt16) : String :=
  "/sys/bus/iio/devices/iio:device0/in_voltage" ++ toString pin.toNat ++ "_raw"

def calibrationIterations : Nat := 400

section SetUp
variable (split : Bytes → UInt8 → List Bytes)

def setUp (kv : Configuration) : Option ProxyAnglesensor := do
  let pin ← stoi kv.pin
  let anglesMinMax := split kv.anglesminmax comma
  let first ← anglesMinMax[0]?.bind stof
  let second ← anglesMinMax[1]?.bind stof
  let angles := [radians first, radians second]
  some {
    pin := UInt16.ofInt pin
    -- `push_back` of the first element, then `pop_front`
    anglesMinMax := if radians second < radians first then (angles ++ [radians first]).tail else angles
    calibrationFile := kv.calibrationfile
    debug := kv.debug = 1 }

end SetUp

namespace ProxyAnglesensor
variable (split : Bytes → UInt8 → List Bytes) (d : ProxyAnglesensor)

/-- A file that cannot be opened reads as `std::numeric_limits<int>::quiet_NaN()`, which is 0. -/
def getRawReading (files : FileSystem) : Option UInt16 :=
  match files (voltageFile d.pin) with
  | some content => (stoi ((getlines newline content).headD [])).map UInt16.ofInt
  | none => some 0

/-- The files are those at the two first readings and those in each time slice until the module
is no longer running. -/
def calibrate (first second : FileSystem) (slices : List FileSystem) : Option ProxyAnglesensor := do
  let min ← d.getRawReading first
  let max ← d.getRawReading second
  let m ← (slices.take calibrationIterations).foldlM
    (fun m files => do return m.collect (← d.getRawReading files)) (Extremes.mk min max)
  return { d with rawReadingMinMax := d.rawReadingMinMax ++ [m.least, m.greatest] }

def loadLine (line : Bytes) : Option ProxyAnglesensor :=
  match split line blank with
  | [] => none
  | name :: values =>
    if name = rawReadingMinMaxName then do
      let first ← values[0]?.bind fun text => (stof text).bind toUInt16
      let second ← values[1]?.bind fun text => (stof text).bind toUInt16
      some { d with rawReadingMinMax := d.rawReadingMinMax ++ [first, second] }
    else some d

/-- `true` asks for a calibration. -/
def loadCalibration (files : FileSystem) : Option (Bool × ProxyAnglesensor) :=
  if d.calibrationFile = "" then some (true, d)
  else
    match files d.calibrationFile with
    | none => some (true, d)
    | some content => do
      let loaded ← (getlines newline content).foldlM (fun d line => d.loadLine split line) d
      if loaded.debug && loaded.rawReadingMinMax.length < 2 then none else some (false, loaded)

/-- `opens` tells whether the file can be opened for writing. -/
def saveCalibration (opens : Bool) (files : FileSystem) : Option FileSystem :=
  if d.calibrationFile = "" ∨ opens = false then some files
  else do
    let first ← d.rawReadingMinMax[0]?
    let second ← d.rawReadingMinMax[1]?
    some (Function.update files d.calibrationFile (some (savedLine first second ++ [newline])))

/-- The three constants that `body` appends. -/
def computeConstants : Option ProxyAnglesensor := do
  let rawMin ← d.rawReadingMinMax[0]?
  let rawMax ← d.rawReadingMinMax[1]?
  let angleMin ← d.anglesMinMax[0]?
  let angleMax ← d.anglesMinMax[1]?
  let rawMiddle : ℚ := (rawMin.toNat + rawMax.toNat) / 2
  let angleMiddle : ℚ := (angleMin + angleMax) / 2
  if rawMax.toNat - rawMiddle = 0 then none
  else
    some { d with
      convertConstants := d.convertConstants ++
        [rawMiddle, (angleMax - angleMiddle) / (rawMax.toNat - rawMiddle), angleMiddle] }

def analogue2Radians (a_val : UInt16) : Option ℚ := do
  let rawMiddle ← d.convertConstants[0]?
  let slope ← d.convertConstants[1]?
  let angleMiddle ← d.convertConstants[2]?
  some ((a_val.toNat - rawMiddle) * slope + angleMiddle)

/-- `if(setUpCalibration || LoadCalibration()) { Calibrate(); }` -/
def prepare (setUpCalibration : Int32) (files first second : FileSystem)
    (slices : List FileSystem) : Option ProxyAnglesensor :=
  if setUpCalibration = 1 then d.calibrate first second slices
  else
    match d.loadCalibration split files with
    | none => none
    | some (true, d) => d.calibrate first second slices
    | some (false, d) => some d

/-- The angle that is sent in one time slice. -/
def sendReading (files : FileSystem) : Option ℚ := do
  d.analogue2Radians (← d.getRawReading files)

/-- The files are those when `body` starts, those of the calibration and those of each time slice
behind it. -/
def body (setUpCalibration : Int32) (files first second : FileSystem)
    (slices voltages : List FileSystem) : Option (ProxyAnglesensor × List ℚ) := do
  let prepared ← d.prepare split setUpCalibration files first second slices
  let d ← prepared.computeConstants
  let angles ← voltages.mapM d.sendReading
  return (d, angles)

end ProxyAnglesensor

end OpendlvCore.Anglesensor
