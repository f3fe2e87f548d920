import OpendlvCore.StreamReader
import OpendlvCore.Applanix.Messages

/-!
# Readers of the Applanix groups

`ApplanixStringDecoder.cpp:65-470`, on a little-endian host, where `le16toh` and
`le32toh` are the identity. Numeric locals start at zero and a short read leaves
their upper octets zero. `char` arrays and reserved vector storage start with
whatever is in memory; `mem` stands for that content.
-/
namespace OpendlvCore.Applanix
open CStream CBytes

/-- Uninitialised storage of `n` bytes. -/
def storage (mem : Nat → UInt8) (n : Nat) : Bytes := (List.range n).map mem

@[simp] theorem length_storage (mem : Nat → UInt8) (n : Nat) : (storage mem n).length = n := by
  simp [storage]

/-- `buffer.read((char *)(&(x)), sizeof(x))` into an integer local set to zero. -/
def readLE (size : Nat) : Reader Nat := do
  let octets ← readInto (zeros size)
  return ofLE octets

def readU8 : Reader UInt8 := do return UInt8.ofNat (← readLE 1)
def readU16 : Reader UInt16 := do return UInt16.ofNat (← readLE 2)
def readU32 : Reader UInt32 := do return UInt32.ofNat (← readLE 4)
def readU64 : Reader UInt64 := do return UInt64.ofNat (← readLE 8)

def getTimeDistance : Reader TimeDistance :=
  ifGood {} do
    let time1 ← readU64
    let time2 ← readU64
    let distanceTag ← readU64
    let timeTypes ← readU8
    let distanceType ← readU8
    return {
      time1, time2, distanceTag
      time1Type := timeTypes &&& 0x0F
      time2Type := timeTypes &&& 0xF0
      distanceType }

def getGRP1 : Reader Grp1Data :=
  ifGood {} do
    let timeDistance ← getTimeDistance
    let lat ← readU64
    let lon ← readU64
    let alt ← readU64
    let velNorth ← readU32
    let velEast ← readU32
    let velDown ← readU32
    let roll ← readU64
    let pitch ← readU64
    let heading ← readU64
    let wander ← readU64
    let track ← readU32
    let speed ← readU32
    let arateLon ← readU32
    let arateTrans ← readU32
    let arateDown ← readU32
    let accelLon ← readU32
    let accelTrans ← readU32
    let accelDown ← readU32
    let alignment ← readU8
    let _pad ← readU8
    return {
      timeDistance, lat, lon, alt, velNorth, velEast, velDown, roll, pitch, heading, wander
      track, speed, arateLon, arateTrans, arateDown, accelLon, accelTrans, accelDown, alignment }

def getGRP2 : Reader Grp2Data :=
  ifGood {} do
    let timeDistance ← getTimeDistance
    let northposrms ← readU32
    let eastposrms ← readU32
    let downposrms ← readU32
    let northvelrms ← readU32
    let eastvelrms ← readU32
    let downvelrms ← readU32
    let rollrms ← readU32
    let pitchrms ← readU32
    let headingrms ← readU32
    let ellipsoidmajor ← readU32
    let ellipsoidminor ← readU32
    let ellipsoidorientation ← readU32
    let _pad ← readU16
    return {
      timeDistance, northposrms, eastposrms, downposrms, northvelrms, eastvelrms, downvelrms
      rollrms, pitchrms, headingrms, ellipsoidmajor, ellipsoidminor, ellipsoidorientation }

def getGNSSReceiverChannelStatus : Reader GNSSReceiverChannelStatus :=
  ifGood {} do
    let svPRN ← readU16
    let channelTrackingStatus ← readU16
    let svAzimuth ← readU32
    let svElevation ← readU32
    let svL1SNR ← readU32
    let svL2SNR ← readU32
    return { svPRN, channelTrackingStatus, svAzimuth, svElevation, svL1SNR, svL2SNR }

/-- The body of the channel loop: read one entry and append it. -/
def addChannelStatus (list : List GNSSReceiverChannelStatus) :
    Reader (List GNSSReceiverChannelStatus) := do
  let gnss ← getGNSSReceiverChannelStatus
  return list ++ [gnss]

def SIZE_OF_GNSS : Nat := 20

def getGRP3 : Reader Grp3Data :=
  ifGood {} do
    let timeDistance ← getTimeDistance
    let navigationSolutionStatus ← readU8
    let numberSvTracked ← readU8
    let channelStatusByteCount ← readU16
    let channelStatus ←
      forU8 (channelStatusByteCount.toNat / SIZE_OF_GNSS) addChannelStatus []
    let hdop ← readU32
    let vdop ← readU32
    let dgpsCorrectionLatency ← readU32
    let dgpsReferenceID ← readU16
    let utcWeekNumber ← readU32
    let utcTimeOffset ← readU64
    let gnssNavigationLatency ← readU32
    let geoidalSeparation ← readU32
    let gnssReceiverType ← readU16
    let gnssStatus ← readU32
    let _pad ← readU16
    return {
      timeDistance, navigationSolutionStatus := navigationSolutionStatus.toInt8
      numberSvTracked, channelStatusByteCount, channelStatus, hdop, vdop
      dgpsCorrectionLatency, dgpsReferenceID, utcWeekNumber, utcTimeOffset
      gnssNavigationLatency, geoidalSeparation, gnssReceiverType, gnssStatus }

def TIME_DISTANCE_FIELD_SIZE : Nat := 26
def GRP_HEADER_SIZE : Nat := 8
def GRP_FOOTER_SIZE : Nat := 4
def LENGTH_IMUDATA : Nat := 24
def LENGTH_IMUHEADER : Nat := 6

def getGRP4 (mem : Nat → UInt8) : Reader Grp4Data :=
  ifGood {} do
    let timeDistance ← getTimeDistance
    let imudata ← readInto (storage mem LENGTH_IMUDATA)
    let datastatus ← readU8
    let imutype ← readU8
    let imurate ← readU8
    let imustatus ← readU16
    let _pad ← readU8
    return { timeDistance, imudata, datastatus, imutype, imurate, imustatus }

/-- The loop bound of `getGRP10001`: 32-bit up to the first `sizeof`, 64-bit from there. -/
def paddingGRP10001 (payloadSize byteCount : Nat) : Nat :=
  sub64 (sub64 (sub64 (sub64 (sub64 (sub32 payloadSize TIME_DISTANCE_FIELD_SIZE) 2) 4) 2) byteCount)
    GRP_FOOTER_SIZE

def paddingGRP10002 (payloadSize byteCount : Nat) : Nat :=
  sub64 (sub64 (sub64 (sub64
    (sub32 (sub32 payloadSize TIME_DISTANCE_FIELD_SIZE) LENGTH_IMUHEADER) 2) byteCount) 2)
    GRP_FOOTER_SIZE

/-- The body of both padding loops. -/
def readPadding (_ : Unit) : Reader Unit := do
  let _pad ← readU8
  return ()

def getGRP10001 (mem : Nat → UInt8) (payloadSize : Nat) : Reader Grp10001Data :=
  ifGood {} do
    let timeDistance ← getTimeDistance
    let gnssReceiverType ← readU16
    let _reserved ← readU32
    let byteCount ← readU16
    let gnssReceiverRawData ← readInto (storage mem byteCount.toNat)
    forU8 (paddingGRP10001 payloadSize byteCount.toNat) readPadding ()
    return { timeDistance, gnssReceiverType, gnssReceiverRawData }

def getGRP10002 (mem : Nat → UInt8) (payloadSize : Nat) : Reader Grp10002Data :=
  ifGood {} do
    let timeDistance ← getTimeDistance
    let imuheader ← readInto (storage mem LENGTH_IMUHEADER)
    let byteCount ← readU16
    let imuRawData ← readInto (storage mem byteCount.toNat)
    let datachecksum ← readU16
    forU8 (paddingGRP10002 payloadSize byteCount.toNat) readPadding ()
    return { timeDistance, imuheader, imuRawData, datachecksum }

def getGRP10003 : Reader Grp10003Data :=
  ifGood {} do
    let timeDistance ← getTimeDistance
    let pulsecount ← readU32
    let _pad ← readU16
    return { timeDistance, pulsecount }

/-- Reads a GRP10001 message and copies its fields. -/
def getGRP10009 (mem : Nat → UInt8) (payloadSize : Nat) : Reader Grp10009Data := do
  let g10001Data ← getGRP10001 mem payloadSize
  return {
    timeDistance := g10001Data.timeDistance
    gnssReceiverType := g10001Data.gnssReceiverType
    gnssReceiverRawData := g10001Data.gnssReceiverRawData }

/-- `nextString:501-563`: the reader of the pending group and the containers it sends. -/
def readGroup (mem : Nat → UInt8) (group : Group) (payloadSize : Nat) : Reader (List Container) :=
  match group with
  | .grp1 => do
    let g1Data ← getGRP1
    return [.grp1 g1Data, .wgs84 g1Data.lat g1Data.lon]
  | .grp2 => do return [.grp2 (← getGRP2)]
  | .grp3 => do return [.grp3 (← getGRP3)]
  | .grp4 => do return [.grp4 (← getGRP4 mem)]
  | .grp10001 => do return [.grp10001 (← getGRP10001 mem payloadSize)]
  | .grp10002 => do return [.grp10002 (← getGRP10002 mem payloadSize)]
  | .grp10003 => do return [.grp10003 (← getGRP10003)]
  | .grp10009 => do return [.grp10009 (← getGRP10009 mem payloadSize)]

section Locality
variable (mem : Nat → UInt8) (payloadSize : Nat)

instance (size : Nat) : Local (readLE size) := by unfold readLE; infer_instance
instance : Local readU8 := by unfold readU8; infer_instance
instance : Local readU16 := by unfold readU16; infer_instance
instance : Local readU32 := by unfold readU32; infer_instance
instance : Local readU64 := by unfold readU64; infer_instance
instance : Local getTimeDistance := by unfold getTimeDistance; infer_instance
instance : Local getGRP1 := by unfold getGRP1; infer_instance
instance : Local getGRP2 := by unfold getGRP2; infer_instance
instance : Local getGNSSReceiverChannelStatus := by
  unfold getGNSSReceiverChannelStatus; infer_instance
instance (list : List GNSSReceiverChannelStatus) : Local (addChannelStatus list) := by
  unfold addChannelStatus; infer_instance
instance : Local getGRP3 := by unfold getGRP3; infer_instance
instance : Local (getGRP4 mem) := by unfold getGRP4; infer_instance
instance (u : Unit) : Local (readPadding u) := by unfold readPadding; infer_instance
instance : Local (getGRP10001 mem payloadSize) := by unfold getGRP10001; infer_instance
instance : Local (getGRP10002 mem payloadSize) := by unfold getGRP10002; infer_instance
instance : Local getGRP10003 := by unfold getGRP10003; infer_instance
instance : Local (getGRP10009 mem payloadSize) := by unfold getGRP10009; infer_instance

/-- A group's containers depend on the bytes its reader consumes and on nothing else. -/
instance readGroup_local (group : Group) : Local (readGroup mem group payloadSize) := by
  cases group <;> unfold readGroup <;> infer_instance

end Locality

end OpendlvCore.Applanix
