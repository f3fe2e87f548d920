import Mathlib.Algebra.Group.Nat.Defs
import Mathlib.Tactic.Common

/-!
# Messages of the Applanix unit

`resources/odvd/ODVDApplanix.odvd`. A `float` or `double` field holds the raw bit
pattern, and a field of an enumeration the integer that was cast to it. A default
constructed message has every field zero or empty.
-/
namespace OpendlvCore.Applanix

structure TimeDistance where
  time1 : UInt64 := 0
  time2 : UInt64 := 0
  distanceTag : UInt64 := 0
  time1Type : UInt8 := 0
  time2Type : UInt8 := 0
  distanceType : UInt8 := 0
  deriving DecidableEq, Repr

structure Grp1Data where
  timeDistance : TimeDistance := {}
  lat : UInt64 := 0
  lon : UInt64 := 0
  alt : UInt64 := 0
  velNorth : UInt32 := 0
  velEast : UInt32 := 0
  velDown : UInt32 := 0
  roll : UInt64 := 0
  pitch : UInt64 := 0
  heading : UInt64 := 0
  wander : UInt64 := 0
  track : UInt32 := 0
  speed : UInt32 := 0
  arateLon : UInt32 := 0
  arateTrans : UInt32 := 0
  arateDown : UInt32 := 0
  accelLon : UInt32 := 0
  accelTrans : UInt32 := 0
  accelDown : UInt32 := 0
  alignment : UInt8 := 0
  deriving DecidableEq, Repr

structure Grp2Data where
  timeDistance : TimeDistance := {}
  northposrms : UInt32 := 0
  eastposrms : UInt32 := 0
  downposrms : UInt32 := 0
  northvelrms : UInt32 := 0
  eastvelrms : UInt32 := 0
  downvelrms : UInt32 := 0
  rollrms : UInt32 := 0
  pitchrms : UInt32 := 0
  headingrms : UInt32 := 0
  ellipsoidmajor : UInt32 := 0
  ellipsoidminor : UInt32 := 0
  ellipsoidorientation : UInt32 := 0
  deriving DecidableEq, Repr

structure GNSSReceiverChannelStatus where
  svPRN : UInt16 := 0
  channelTrackingStatus : UInt16 := 0
  svAzimuth : UInt32 := 0
  svElevation : UInt32 := 0
  svL1SNR : UInt32 := 0
  svL2SNR : UInt32 := 0
  deriving DecidableEq, Repr

structure Grp3Data where
  timeDistance : TimeDistance := {}
  navigationSolutionStatus : Int8 := 0
  numberSvTracked : UInt8 := 0
  channelStatusByteCount : UInt16 := 0
  channelStatus : List GNSSReceiverChannelStatus := []
  hdop : UInt32 := 0
  vdop : UInt32 := 0
  dgpsCorrectionLatency : UInt32 := 0
  dgpsReferenceID : UInt16 := 0
  utcWeekNumber : UInt32 := 0
  utcTimeOffset : UInt64 := 0
  gnssNavigationLatency : UInt32 := 0
  geoidalSeparation : UInt32 := 0
  gnssReceiverType : UInt16 := 0
  gnssStatus : UInt32 := 0
  deriving DecidableEq, Repr

structure Grp4Data where
  timeDistance : TimeDistance := {}
  imudata : List UInt8 := []
  datastatus : UInt8 := 0
  imutype : UInt8 := 0
  imurate : UInt8 := 0
  imustatus : UInt16 := 0
  deriving DecidableEq, Repr

structure Grp10001Data where
  timeDistance : TimeDistance := {}
  gnssReceiverType : UInt16 := 0
  gnssReceiverRawData : List UInt8 := []
  deriving DecidableEq, Repr

structure Grp10002Data where
  timeDistance : TimeDistance := {}
  imuheader : List UInt8 := []
  imuRawData : List UInt8 := []
  datachecksum : UInt16 := 0
  deriving DecidableEq, Repr

structure Grp10003Data where
  timeDistance : TimeDistance := {}
  pulsecount : UInt32 := 0
  deriving DecidableEq, Repr

structure Grp10009Data where
  timeDistance : TimeDistance := {}
  gnssReceiverType : UInt16 := 0
  gnssReceiverRawData : List UInt8 := []
  deriving DecidableEq, Repr

/-- What the decoder hands to `m_conference.send`; time stamps are left out. -/
inductive Container where
  | grp1 (data : Grp1Data)
  | grp2 (data : Grp2Data)
  | grp3 (data : Grp3Data)
  | grp4 (data : Grp4Data)
  | grp10001 (data : Grp10001Data)
  | grp10002 (data : Grp10002Data)
  | grp10003 (data : Grp10003Data)
  | grp10009 (data : Grp10009Data)
  | wgs84 (latitude longitude : UInt64)
  deriving DecidableEq, Repr

/-- `ApplanixMessages` without `UNKNOWN`, which the decoder uses for "none". -/
inductive Group where
  | grp1 | grp2 | grp3 | grp4 | grp10001 | grp10002 | grp10003 | grp10009
  deriving DecidableEq, Repr

/-- The group number on the wire. -/
def Group.number : Group → Nat
  | .grp1 => 1
  | .grp2 => 2
  | .grp3 => 3
  | .grp4 => 4
  | .grp10001 => 10001
  | .grp10002 => 10002
  | .grp10003 => 10003
  | .grp10009 => 10009

/-- The comparisons of `hdr.getGroupnum()`, in the order of the source. -/
def Group.ofNumber (groupnum : Nat) : Option Group :=
  if groupnum = 1 then some .grp1
  else if groupnum = 2 then some .grp2
  else if groupnum = 3 then some .grp3
  else if groupnum = 4 then some .grp4
  else if groupnum = 10001 then some .grp10001
  else if groupnum = 10002 then some .grp10002
  else if groupnum = 10003 then some .grp10003
  else if groupnum = 10009 then some .grp10009
  else none

@[simp] theorem Group.ofNumber_number (g : Group) : Group.ofNumber g.number = some g := by
  cases g <;> decide

theorem Group.number_lt (g : Group) : g.number < 256 ^ 2 := by
  cases g <;> decide

end OpendlvCore.Applanix
