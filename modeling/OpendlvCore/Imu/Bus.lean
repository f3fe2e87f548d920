import OpendlvCore.Imu.Device

/-!
# The bus of the IMU

`PololuAltImu10Device` reaches its three instruments over a bus: it selects an address, writes the
number of a register, and reads the bytes from there on. What the system calls deliver is given, and
may be anything; the calls themselves are noted one behind the other. Most results are printed
only, and then the values are computed from whatever `outBuffer` holds.
-/
namespace OpendlvCore.Imu
open CBytes

/-! ## Transfers -/

/-- The magnetometer, the barometer, and the accelerometer with the gyroscope. -/
inductive Instrument where
  | LIS3
  | LPS25
  | LSM6
  deriving DecidableEq, Repr

namespace Instrument

/-- The addresses with the address pins high. -/
def high : Instrument → UInt8
  | LIS3 => 0x1e
  | LPS25 => 0x5d
  | LSM6 => 0x6b

/-- The addresses with the address pins low. -/
def low : Instrument → UInt8
  | LIS3 => 0x1c
  | LPS25 => 0x5c
  | LSM6 => 0x6a

end Instrument

/-- A call of the operating system on the device file. -/
inductive Syscall where
  | ioctl (address : UInt8)
  | write (buffer : Bytes)
  | read (count : Nat)
  deriving DecidableEq, Repr

/-- What one reading delivers: the result of `write`, and what `outBuffer` holds behind `read`. -/
structure Transfer where
  status : UInt8
  outBuffer : Nat → UInt8

/-- The calls made so far. -/
abbrev Bus := List Syscall

/-- `m_instrumentAdress`, in the constructor; `compare` is 0 for equal strings. -/
def instrumentAdress (addressType : String) (i : Instrument) : UInt8 :=
  if addressType ≠ "high" then i.high
  else if addressType ≠ "low" then i.low
  else 0

section Transfers

namespace Bus

/-- `ioctl(m_deviceFile, I2C_SLAVE, address)` -/
def access (address : UInt8) (b : Bus) : Bus := b ++ [.ioctl address]

def i2cWriteRegister (register value : UInt8) (b : Bus) : Bus := b ++ [.write [register, value]]

variable (adress : Instrument → UInt8)

def initLSM6 (b : Bus) : Bus :=
  let b := b.access (adress .LSM6)
  let b := b.i2cWriteRegister 0x10 0x43
  let b := b.i2cWriteRegister 0x11 0x40
  b.i2cWriteRegister 0x12 0x04

def initLIS3 (b : Bus) : Bus :=
  let b := b.access (adress .LIS3)
  let b := b.i2cWriteRegister 0x20 0x70
  let b := b.i2cWriteRegister 0x21 0x00
  let b := b.i2cWriteRegister 0x22 0x00
  b.i2cWriteRegister 0x23 0x0C

def initLPS25 (b : Bus) : Bus :=
  let b := b.access (adress .LPS25)
  b.i2cWriteRegister 0x20 0xB0

/-- What the readings of six bytes have in common; the results are printed only. -/
def readFrom (i : Instrument) (register : UInt8) (x : Transfer) (b : Bus) : Registers × Bus :=
  let b := b.access (adress i)
  let b := b ++ [.write [register]]
  (fun k => x.outBuffer k, b ++ [.read 6])

end Bus

variable (adress : Instrument → UInt8)

/-- `lsm6RegAddr::OUTX_L_G` -/
def gyroscopeRegisters (x : Transfer) (b : Bus) : Registers × Bus :=
  b.readFrom adress .LSM6 0x22 x

/-- `lsm6RegAddr::OUTX_L_XL` -/
def accelerometerRegisters (x : Transfer) (b : Bus) : Registers × Bus :=
  b.readFrom adress .LSM6 0x28 x

/-- `lis3RegAddr::OUT_X_L | 0x80` -/
def magnetometerRegisters (x : Transfer) (b : Bus) : Registers × Bus :=
  b.readFrom adress .LIS3 0xA8 x

/-- The altitude for the three bytes of the pressure. -/
def altitudeOf (pow : ℚ → ℚ → ℚ) (bytes : Nat → UInt8) : ℚ :=
  let pressure_raw := (bytes 2).toNat <<< 16 ||| (bytes 1).toNat <<< 8 ||| (bytes 0).toNat
  let pressure_bar : ℚ := pressure_raw / 4096
  (1 - pow (pressure_bar / (101325 / 100)) (190263 / 1000000)) * (443308 / 10)

/-- `lps25RegAddr::PRESS_OUT_XL | (1 << 7)` -/
def getAltitude (pow : ℚ → ℚ → ℚ) (x : Transfer) (b : Bus) : ℚ × Bus :=
  let b := b.access (adress .LPS25)
  let b := b ++ [.write [0xA8]]
  if x.status ≠ 1 then (0, b) else (altitudeOf pow x.outBuffer, b ++ [.read 3])

def temperatureOf (bytes : Nat → UInt8) : ℚ := 425 / 10 + word (bytes 0) (bytes 1) / 480

/-- `lps25RegAddr::TEMP_OUT_L | (1 << 7)` -/
def getTemperature (x : Transfer) (b : Bus) : ℚ × Bus :=
  let b := b.access (adress .LPS25)
  let b := b ++ [.write [0xAB]]
  if x.status ≠ 1 then (0, b) else (temperatureOf x.outBuffer, b ++ [.read 2])

/-! ## The proxy on the bus -/

/-- The readings of one time slice. -/
structure BusSlice where
  gyroscope : Transfer
  accelerometer : Transfer
  magnetometer : Transfer
  altimeter : Transfer
  thermometer : Transfer

/-- What is sent beside the vectors. -/
structure Atmosphere where
  altitude : ℚ
  temperature : ℚ

namespace Device
variable (pow : ℚ → ℚ → ℚ)

/-- One pass of the loop of `ProxyIMU::body`. -/
def busPass (d : Device) (s : BusSlice) (b : Bus) : Device × (Sent × Atmosphere) × Bus :=
  let (r, b) := gyroscopeRegisters adress s.gyroscope b
  let angularVelocity := d.readGyroscope r
  let (r, b) := accelerometerRegisters adress s.accelerometer b
  let (d, acceleration) := d.readAccelerometer r
  let (r, b) := magnetometerRegisters adress s.magnetometer b
  let (d, magneticField) := d.readMagnetometer r
  let (altitude, b) := getAltitude adress pow s.altimeter b
  let (temperature, b) := getTemperature adress s.thermometer b
  (d, ({ angularVelocity, acceleration, magneticField }, { altitude, temperature }), b)

def busBody (d : Device) : List BusSlice → Bus → Device × List (Sent × Atmosphere) × Bus
  | [], b => (d, [], b)
  | s :: slices, b =>
    let (d, sent, b) := d.busPass adress pow s b
    let (d, later, b) := d.busBody slices b
    (d, sent :: later, b)

end Device

/-- The samples of the gyroscope. -/
def gyroscopeSamples : List Transfer → Bus → List Registers × Bus
  | [], b => ([], b)
  | x :: rest, b =>
    let (r, b) := gyroscopeRegisters adress x b
    let (later, b) := gyroscopeSamples rest b
    (r :: later, b)

end Transfers

/-- A run of the module as configured, with all the readings it makes. -/
structure BusSession where
  type : String
  addressType : String
  roll : ℚ := 0
  pitch : ℚ := 0
  yaw : ℚ := 0
  calibrationFile : String
  lockCalibration : Bool
  reads : Bool := true
  writes : Bool := true
  /-- Whether the bus can be opened. -/
  opened : Bool := true
  /-- What the matrix holds that no constructor has filled. -/
  unfilled : Matrix (Fin 3) (Fin 3) ℚ := 0
  acceleration : Transfer
  magnetic : Transfer
  samples : List Transfer
  slices : List BusSlice

section Run
variable (split : Bytes → UInt8 → List Bytes) (t : Trigonometry) (pow : ℚ → ℚ → ℚ)

namespace BusSession
variable (s : BusSession) (files : FileSystem)

/-- `m_instrumentAdress` -/
def adress : Instrument → UInt8 := if s.opened then instrumentAdress s.addressType else fun _ => 0

def fresh : Device where
  lockCalibration := s.lockCalibration
  calibrationFile := s.calibrationFile
  rotationMatrix := if s.opened then rotationMatrix t s.roll s.pitch s.yaw else s.unfilled

def initCalibration (d : Device) (b : Bus) : Option (Device × Bus) :=
  let (acceleration, b) := accelerometerRegisters s.adress s.acceleration b
  let (magnetic, b) := magnetometerRegisters s.adress s.magnetic b
  let (samples, b) := gyroscopeSamples s.adress s.samples b
  (d.initCalibration acceleration magnetic samples).map fun d => (d, b)

/-- The constructor. It returns at once where the bus cannot be opened, and the module goes on. -/
def device : Option (Device × Bus) :=
  if s.opened then do
    let b := Bus.initLSM6 s.adress []
    let b := b.initLIS3 s.adress
    let b := b.initLPS25 s.adress
    let (asks, d) ← (s.fresh t).loadCalibrationFile split s.reads files
    if asks then s.initCalibration d b else some (d, b)
  else some (s.fresh t, [])

/-- `setUp`, `body` and `tearDown`; without a device driver they call through a null pointer. The
test of the address type holds of every string. -/
def run : Option (FileSystem × List (Sent × Atmosphere) × Bus) :=
  if s.type = "pololu.altimu10" ∧ (s.addressType ≠ "high" ∨ s.addressType ≠ "low") then do
    let (d, b) ← s.device split t files
    let (d, sent, b) := d.busBody s.adress pow s.slices b
    some (d.saveCalibrationFile s.writes files, sent, b)
  else none

end BusSession

/-- One run after the other: what each has sent, and the calls that it has made. -/
def runAllOnBus : List BusSession → FileSystem →
    Option (FileSystem × List (List (Sent × Atmosphere) × Bus))
  | [], files => some (files, [])
  | s :: sessions, files => do
    let (files, run) ← s.run split t pow files
    let (files, later) ← runAllOnBus sessions files
    some (files, run :: later)

end Run

end OpendlvCore.Imu
