import OpendlvCore.Bytes
import OpendlvCore.Velodyne.Sensors
import OpendlvCore.Velodyne.SharedMemory
import Mathlib.Logic.Function.Basic

/-!
# `Velodyne16Decoder` and `Velodyne32Decoder`

The two decoders are one program up to a few constants and the azimuth
interpolation of the VLP-16, whose blocks hold two firings of 16 sensors. `float`
is exact; `sin`, `cos` and the factor `toRadian` are parameters.
-/
namespace OpendlvCore.Velodyne
open CBytes

structure Maths where
  sin : ℚ → ℚ
  cos : ℚ → ℚ
  toRadian : ℚ

/-- The sine and the cosine of 0. -/
def Maths.atZero : Maths where
  sin _ := 0
  cos _ := 1
  toRadian := 314159265 / 18000000000

/-- What distinguishes the two sensors. -/
structure Device where
  sensors : Nat
  MAX_POINT_SIZE : Nat
  /-- The second firing of a block has an interpolated azimuth. -/
  interpolates : Bool
  /-- Entries per azimuth of the compact point clouds that make up one scan. -/
  entriesPerAzimuth : List Nat
  /-- The string stream that a layer is written to. -/
  part : Nat → Nat

def VLP16 : Device where
  sensors := 16
  MAX_POINT_SIZE := 30000
  interpolates := true
  entriesPerAzimuth := [16]
  part _ := 0

def HDL32E : Device where
  sensors := 32
  MAX_POINT_SIZE := 70000
  interpolates := false
  entriesPerAzimuth := [12, 11, 9]
  part index :=
    if index = 0 ∨ index % 3 = 1 then 0
    else if index = 2 ∨ index % 3 = 0 then 1
    else 2

/-- The members that do not change after construction. -/
structure Settings where
  SPCOption : Nat
  CPCIntensityOption : Nat
  numberOfBitsForIntensity : Nat
  intensityPlacement : Nat
  mask : Nat
  distanceEncoding : Nat
  withSPC : Bool
  withCPC : Bool
  verticalAngle : Nat → ℚ
  sensorOrderIndex : List Nat
  /-- `m_velodyneSharedMemory->isValid()` -/
  isValid : Bool

structure CompactPointCloud where
  startAzimuth : ℚ
  endAzimuth : ℚ
  entriesPerAzimuth : Nat
  distances : Bytes
  numberOfBitsForIntensity : Nat
  intensityPlacement : Nat
  distanceEncoding : Nat
  deriving DecidableEq, Repr

/-- The width and the shared memory of a shared point cloud. -/
structure SharedPointCloud where
  width : Nat
  memory : Nat → ℚ

/-- The containers of one `sendPointCloud`, in the order in which they are sent. -/
structure Scan where
  shared : Option SharedPointCloud
  noIntensity : List CompactPointCloud
  withIntensity : List CompactPointCloud

/-- The members of the compact point cloud. A string stream is its content. -/
structure Compact where
  pointIndex : Nat := 0
  startAzimuth : ℚ := 0
  distanceStringStreamNoIntensity : Nat → Bytes := fun _ => []
  distanceStringStreamWithIntensity : Nat → Bytes := fun _ => []
  sensorsNoIntensity : Nat → Nat := fun _ => 0
  sensorsWithIntensity : Nat → Nat := fun _ => 0

structure Decoder where
  previousAzimuth : ℚ := 0
  currentAzimuth : ℚ := 0
  nextAzimuth : ℚ := 0
  deltaAzimuth : ℚ := 0
  spc : Segment ℚ
  cpc : Compact := {}
  sent : List Scan := []

/-! ## Construction -/

/-- `setupIntensityMaskCPC`, on the mask so far. -/
def setupIntensityMaskCPC (numberOfBitsForIntensity intensityPlacement mask : Nat) : Nat :=
  if numberOfBitsForIntensity ≠ 0 then
    if intensityPlacement = 0 then 0xFFFF >>> numberOfBitsForIntensity
    else (0xFFFF <<< numberOfBitsForIntensity) % 2 ^ 16
  else mask

/-- The constructor with a shared memory. -/
def withSharedMemory (m : Device) (isValid : Bool) (verticalAngle : Nat → ℚ) (withCPC : Bool)
    (SPCOption CPCIntensityOption numberOfBitsForIntensity intensityPlacement
      distanceEncoding : Nat) : Settings where
  SPCOption
  CPCIntensityOption
  numberOfBitsForIntensity
  intensityPlacement
  mask :=
    if withCPC ∧ numberOfBitsForIntensity > 0 then
      setupIntensityMaskCPC numberOfBitsForIntensity intensityPlacement 0
    else 0
  distanceEncoding
  withSPC := true
  withCPC
  verticalAngle
  sensorOrderIndex := indexSensorIDs m.sensors verticalAngle
  isValid

/-- The constructor without one. -/
def compactOnly (m : Device) (verticalAngle : Nat → ℚ)
    (CPCIntensityOption numberOfBitsForIntensity intensityPlacement distanceEncoding : Nat) :
    Settings where
  SPCOption := 0
  CPCIntensityOption
  numberOfBitsForIntensity
  intensityPlacement
  mask := setupIntensityMaskCPC numberOfBitsForIntensity intensityPlacement 0
  distanceEncoding
  withSPC := false
  withCPC := true
  verticalAngle
  sensorOrderIndex := indexSensorIDs m.sensors verticalAngle
  isValid := false

/-- The values of the key-value configuration, read as `uint16_t`. -/
structure Configuration where
  pointCloudOption : Nat
  SPCOption : Nat
  CPCIntensityOption : Nat
  numberOfBitsForIntensity : Nat
  intensityPlacement : Nat
  distanceEncoding : Nat

/-- `ProxyVelodyne16::setUp` and `ProxyVelodyne32::setUp`: the members are of type `uint8_t`. -/
def setUp (m : Device) (c : Configuration) (isValid : Bool) (verticalAngle : Nat → ℚ) :
    Except String Settings :=
  let pointCloudOption := c.pointCloudOption % 256
  let SPCOption := c.SPCOption % 256
  let CPCIntensityOption := c.CPCIntensityOption % 256
  let numberOfBitsForIntensity := c.numberOfBitsForIntensity % 256
  let intensityPlacement := c.intensityPlacement % 256
  let distanceEncoding := c.distanceEncoding % 256
  if pointCloudOption ≠ 0 ∧ pointCloudOption ≠ 1 ∧ pointCloudOption ≠ 2 then
    .error "Invalid point cloud option! 0: shared point cloud (SPC) only; 1: compact point cloud (CPC) only; 2: both SPC and CPC"
  else if SPCOption ≠ 0 ∧ SPCOption ≠ 1 then
    .error "Invalid SPC option! 0: cartesian; 1: polar"
  else if CPCIntensityOption ≠ 0 ∧ CPCIntensityOption ≠ 1 ∧ CPCIntensityOption ≠ 2 then
    .error "Invalid CPC intensity option! 0: without intensity; 1: with intensity; 2: both"
  else if numberOfBitsForIntensity > 7 then
    .error "Number of bits for intensity must be lower than 8!"
  else if intensityPlacement ≠ 0 ∧ intensityPlacement ≠ 1 then
    .error "Invalid intensity placement! 0: higher bits; 1: lower bits"
  else if distanceEncoding ≠ 0 ∧ distanceEncoding ≠ 1 then
    .error "Invalid distance encoding! 0: cm; 1: 2mm"
  else if pointCloudOption = 0 then
    .ok (withSharedMemory m isValid verticalAngle false SPCOption CPCIntensityOption
      numberOfBitsForIntensity intensityPlacement distanceEncoding)
  else if pointCloudOption = 2 then
    .ok (withSharedMemory m isValid verticalAngle true SPCOption CPCIntensityOption
      numberOfBitsForIntensity intensityPlacement distanceEncoding)
  else
    .ok (compactOnly m verticalAngle CPCIntensityOption numberOfBitsForIntensity
      intensityPlacement distanceEncoding)

/-- The decoder before the first packet. `malloc` leaves the memory as it is. -/
def fresh (memory : Nat → ℚ) : Decoder := { spc := { memory } }

/-! ## Sending -/

section Sending
variable (m : Device) (g : Settings)

/-- The compact point clouds of one scan. -/
def compactPointClouds (d : Decoder) (distances : Nat → Bytes) (numberOfBitsForIntensity : Nat) :
    List CompactPointCloud :=
  m.entriesPerAzimuth.mapIdx fun i entries =>
    { startAzimuth := d.cpc.startAzimuth
      endAzimuth := d.previousAzimuth
      entriesPerAzimuth := entries
      distances := distances i
      numberOfBitsForIntensity
      intensityPlacement := g.intensityPlacement
      distanceEncoding := g.distanceEncoding }

def scanOf (d : Decoder) : Scan where
  shared :=
    if g.withSPC ∧ g.isValid then some { width := d.spc.pointIndex, memory := d.spc.memory }
    else none
  noIntensity :=
    if g.withCPC ∧ g.CPCIntensityOption ≠ 1 then
      compactPointClouds m g d d.cpc.distanceStringStreamNoIntensity 0
    else []
  withIntensity :=
    if g.withCPC ∧ g.CPCIntensityOption ≠ 0 then
      compactPointClouds m g d d.cpc.distanceStringStreamWithIntensity g.numberOfBitsForIntensity
    else []

/-- Update the shared or compact point cloud when a complete scan is completed. -/
def sendPointCloud (d : Decoder) : Decoder :=
  { d with
    spc := if g.withSPC then d.spc.restart else d.spc
    cpc :=
      if g.withCPC then
        { d.cpc with
          pointIndex := 0
          startAzimuth := d.currentAzimuth
          distanceStringStreamNoIntensity := fun _ => []
          distanceStringStreamWithIntensity := fun _ => [] }
      else d.cpc
    sent := d.sent ++ [scanOf m g d] }

end Sending

/-! ## One return -/

/-- `ntohs` and `htons` on a little-endian machine. -/
def ntohs (x : Nat) : Nat := x % 256 * 256 + x / 256 % 256

/-- The three bytes of a return. -/
structure Return where
  firstByte : UInt8
  secondByte : UInt8
  thirdByte : UInt8
  deriving DecidableEq, Repr

/-- The distance with a resolution of 2 mm. -/
def Return.raw (r : Return) : Nat := ntohs (r.firstByte.toNat * 256 + r.secondByte.toNat)

/-- The distance as encoded in a compact point cloud: with a resolution of 1 cm or 2 mm. -/
def Return.distance (r : Return) (distanceEncoding : Nat) : Nat :=
  if distanceEncoding = 0 then r.raw / 5 else r.raw

section Returns
variable (maths : Maths) (m : Device) (g : Settings)

/-- What is stored for a return in the shared point cloud: nothing up to 1 m. -/
def pointOf (azimuth : ℚ) (sensorID : Nat) (r : Return) : Option (Point ℚ) :=
  let distance : ℚ := r.raw / 500
  if distance > 1 then
    if g.SPCOption = 0 then
      let xyDistance := distance * maths.cos (g.verticalAngle sensorID * maths.toRadian)
      some {
        first := xyDistance * maths.sin (azimuth * maths.toRadian)
        second := xyDistance * maths.cos (azimuth * maths.toRadian)
        third := distance * maths.sin (g.verticalAngle sensorID * maths.toRadian)
        intensity := r.thirdByte.toNat }
    else
      some {
        first := distance
        second := azimuth
        third := g.verticalAngle sensorID
        intensity := r.thirdByte.toNat }
  else none

def storeSPC (azimuth : ℚ) (sensorID : Nat) (r : Return) (spc : Segment ℚ) : Segment ℚ :=
  if g.withSPC then spc.store m.MAX_POINT_SIZE (pointOf maths g azimuth sensorID r) else spc

/-- The loop over `index`: swaps the bytes of each sensor's value in place and writes them. -/
def writeColumn : List (Nat × Nat) → (Nat → Nat) → (Nat → Bytes) → (Nat → Nat) × (Nat → Bytes)
  | [], values, streams => (values, streams)
  | (sensorID, index) :: rest, values, streams =>
    let values := Function.update values sensorID (ntohs (values sensorID))
    let streams :=
      Function.update streams (m.part index) (streams (m.part index) ++ toLE 2 (values sensorID))
    writeColumn rest values streams

/-- A sensor's value, and after the last sensor the whole column. -/
def storeValue (sensorID value : Nat) (values : Nat → Nat) (streams : Nat → Bytes) :
    (Nat → Nat) × (Nat → Bytes) :=
  let values := Function.update values sensorID value
  if sensorID = m.sensors - 1 then writeColumn m g.sensorOrderIndex.zipIdx values streams
  else (values, streams)

/-- Distance and intensity in 16 bits. -/
def combined (r : Return) : Nat :=
  let distance := r.distance g.distanceEncoding
  let intensityLevel := r.thirdByte.toNat >>> (8 - g.numberOfBitsForIntensity)
  if g.intensityPlacement = 0 then
    if distance ≤ g.mask then
      ((intensityLevel <<< (16 - g.numberOfBitsForIntensity)) + (distance &&& g.mask)) % 2 ^ 16
    else 0
  else ((distance &&& g.mask) + intensityLevel) % 2 ^ 16

def storeNoIntensity (sensorID : Nat) (r : Return) (cpc : Compact) : Compact :=
  let (values, streams) := storeValue m g sensorID (r.distance g.distanceEncoding)
    cpc.sensorsNoIntensity cpc.distanceStringStreamNoIntensity
  { cpc with
    pointIndex := cpc.pointIndex + 1
    sensorsNoIntensity := values
    distanceStringStreamNoIntensity := streams }

def storeWithIntensity (sensorID : Nat) (r : Return) (cpc : Compact) : Compact :=
  let (values, streams) := storeValue m g sensorID (combined g r)
    cpc.sensorsWithIntensity cpc.distanceStringStreamWithIntensity
  { cpc with
    pointIndex := if g.CPCIntensityOption = 1 then cpc.pointIndex + 1 else cpc.pointIndex
    sensorsWithIntensity := values
    distanceStringStreamWithIntensity := streams }

def storeCPC (sensorID : Nat) (r : Return) (cpc : Compact) : Compact :=
  if g.withCPC ∧ cpc.pointIndex < m.MAX_POINT_SIZE then
    let cpc :=
      if g.CPCIntensityOption = 0 ∨ g.CPCIntensityOption = 2 then storeNoIntensity m g sensorID r cpc
      else cpc
    if g.CPCIntensityOption = 1 ∨ g.CPCIntensityOption = 2 then storeWithIntensity m g sensorID r cpc
    else cpc
  else cpc

def sensorOf (counter : Nat) : Nat :=
  if m.interpolates ∧ counter > 15 then counter - 16 else counter

def storeReturn (sensorID : Nat) (r : Return) (d : Decoder) : Decoder :=
  { d with
    spc := storeSPC maths m g d.currentAzimuth sensorID r d.spc
    cpc := storeCPC m g sensorID r d.cpc }

/-- The condition of the `break`. -/
def full (d : Decoder) : Bool :=
  (g.withCPC && m.MAX_POINT_SIZE ≤ d.cpc.pointIndex) ||
    (!g.withCPC && m.MAX_POINT_SIZE ≤ d.spc.pointIndex)

end Returns

/-! ## Blocks and packets -/

/-- Two bytes of an azimuth, in degrees. -/
def azimuthOf (firstByte secondByte : UInt8) : ℚ :=
  (ntohs (firstByte.toNat * 256 + secondByte.toNat) : ℚ) / 100

section Packets
variable (maths : Maths) (m : Device) (g : Settings)

/-- The azimuth at the head of a block: what the block itself says, where that is read, or
what was read in the block before. -/
def headOf (azimuth : Option ℚ) (nextAzimuth : ℚ) : ℚ :=
  match azimuth with
  | some azimuth => azimuth
  | none => if nextAzimuth > 360 then nextAzimuth - 360 else nextAzimuth

/-- The head of a block, and the scan that it may complete. -/
def startBlock (azimuth : Option ℚ) (d : Decoder) : Decoder :=
  let d := { d with currentAzimuth := headOf azimuth d.nextAzimuth }
  let d := if d.currentAzimuth < d.previousAzimuth then sendPointCloud m g d else d
  { d with previousAzimuth := d.currentAzimuth }

/-- Half way to the azimuth of the next block. In the last block there is no next one, and the
last difference is used again. -/
def halfWay (next : Option ℚ) (d : Decoder) : Decoder :=
  match next with
  | some next =>
    let nextAzimuth := if next < d.currentAzimuth then next + 360 else next
    let deltaAzimuth := (nextAzimuth - d.currentAzimuth) / 2
    { d with nextAzimuth, deltaAzimuth, currentAzimuth := d.currentAzimuth + deltaAzimuth }
  | none => { d with currentAzimuth := d.currentAzimuth + d.deltaAzimuth }

/-- The azimuth of the second firing, and the scan that it may complete. -/
def interpolate (next : Option ℚ) (d : Decoder) : Decoder :=
  let d := halfWay next d
  let d :=
    if d.currentAzimuth > 360 then
      sendPointCloud m g { d with currentAzimuth := d.currentAzimuth - 360 }
    else d
  { d with previousAzimuth := d.currentAzimuth }

/-- Reading an azimuth; `at` throws behind the end of the payload. -/
def azimuthAt (payload : Bytes) (position : Nat) : Option ℚ := do
  let firstByte ← payload[position]?
  let secondByte ← payload[position + 1]?
  return azimuthOf firstByte secondByte

def returnAt (payload : Bytes) (position : Nat) : Option Return := do
  let firstByte ← payload[position]?
  let secondByte ← payload[position + 1]?
  let thirdByte ← payload[position + 2]?
  return { firstByte, secondByte, thirdByte }

/-- One pass of the loop over the 32 returns, up to the test for the `break`. -/
def decodeReturn (payload : Bytes) (blockID counter position : Nat) (d : Decoder) :
    Option Decoder := do
  let d ←
    if m.interpolates ∧ counter = 16 then
      if blockID < 11 then do
        let next ← azimuthAt payload (position + 50)
        pure (interpolate m g (some next) d)
      else pure (interpolate m g none d)
    else pure d
  let r ← returnAt payload position
  return storeReturn maths m g (sensorOf m counter) r d

/-- The loop over the returns; also the position behind it. -/
def decodeReturns (payload : Bytes) (blockID : Nat) :
    List Nat → Nat → Decoder → Option (Nat × Decoder)
  | [], position, d => some (position, d)
  | counter :: rest, position, d => do
    let d ← decodeReturn maths m g payload blockID counter position d
    let position := position + 3
    if full m g d then return (position + 3 * (31 - counter), d)
    else decodeReturns payload blockID rest position d

def decodeBlock (payload : Bytes) (blockID position : Nat) (d : Decoder) :
    Option (Nat × Decoder) := do
  let position := position + 2
  let d ←
    if m.interpolates ∧ blockID ≠ 0 then pure (startBlock m g none d)
    else do
      let azimuth ← azimuthAt payload position
      pure (startBlock m g (some azimuth) d)
  let position := position + 2
  if d.spc.pointIndex < m.MAX_POINT_SIZE ∨ d.cpc.pointIndex < m.MAX_POINT_SIZE then
    decodeReturns maths m g payload blockID (List.range 32) position d
  else return (position + 96, d)

def decodeBlocks (payload : Bytes) : List Nat → Nat → Decoder → Option (Nat × Decoder)
  | [], position, d => some (position, d)
  | blockID :: rest, position, d => do
    let (position, d) ← decodeBlock maths m g payload blockID position d
    decodeBlocks payload rest position d

def nextString (payload : Bytes) (d : Decoder) : Option Decoder :=
  if payload.length = 1206 then
    (decodeBlocks maths m g payload (List.range 12) 0 d).map Prod.snd
  else some d

/-- One packet after the other; `none` when an exception is thrown. -/
def run (d : Decoder) : List Bytes → Option Decoder
  | [] => some d
  | payload :: payloads => (nextString maths m g payload d).bind fun d => run d payloads

end Packets

end OpendlvCore.Velodyne
