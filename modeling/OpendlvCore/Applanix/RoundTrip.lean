import OpendlvCore.Applanix.Payload

/-!
# Payloads of the eight groups

What a unit writes for a message, field by field, and what the readers make of it. They get
every field back but one: the second time type stays in the high nibble. The channels of
a GRP3 are counted with 8 bits.
-/
namespace OpendlvCore.Applanix
open CStream CBytes

/-! ## Writing -/

def le8 (x : UInt8) : Bytes := toLE 1 x.toNat
def le16 (x : UInt16) : Bytes := toLE 2 x.toNat
def le32 (x : UInt32) : Bytes := toLE 4 x.toNat
def le64 (x : UInt64) : Bytes := toLE 8 x.toNat

/-- The first time type is in the low nibble, the second one in the high nibble. -/
def writeTimeDistance (t : TimeDistance) : Bytes :=
  [le64 t.time1, le64 t.time2, le64 t.distanceTag, le8 (t.time1Type ||| t.time2Type <<< 4),
    le8 t.distanceType].flatten

def writeGRP1 (d : Grp1Data) (pad : UInt8) : Bytes :=
  [writeTimeDistance d.timeDistance, le64 d.lat, le64 d.lon, le64 d.alt, le32 d.velNorth,
    le32 d.velEast, le32 d.velDown, le64 d.roll, le64 d.pitch, le64 d.heading, le64 d.wander,
    le32 d.track, le32 d.speed, le32 d.arateLon, le32 d.arateTrans, le32 d.arateDown,
    le32 d.accelLon, le32 d.accelTrans, le32 d.accelDown, le8 d.alignment, le8 pad].flatten

def writeGRP2 (d : Grp2Data) (pad : UInt16) : Bytes :=
  [writeTimeDistance d.timeDistance, le32 d.northposrms, le32 d.eastposrms, le32 d.downposrms,
    le32 d.northvelrms, le32 d.eastvelrms, le32 d.downvelrms, le32 d.rollrms, le32 d.pitchrms,
    le32 d.headingrms, le32 d.ellipsoidmajor, le32 d.ellipsoidminor, le32 d.ellipsoidorientation,
    le16 pad].flatten

def writeGNSSReceiverChannelStatus (c : GNSSReceiverChannelStatus) : Bytes :=
  [le16 c.svPRN, le16 c.channelTrackingStatus, le32 c.svAzimuth, le32 c.svElevation, le32 c.svL1SNR,
    le32 c.svL2SNR].flatten

def writeGRP3 (d : Grp3Data) (pad : UInt16) : Bytes :=
  [writeTimeDistance d.timeDistance, le8 d.navigationSolutionStatus.toUInt8, le8 d.numberSvTracked,
    le16 d.channelStatusByteCount, d.channelStatus.flatMap writeGNSSReceiverChannelStatus,
    le32 d.hdop, le32 d.vdop, le32 d.dgpsCorrectionLatency, le16 d.dgpsReferenceID,
    le32 d.utcWeekNumber, le64 d.utcTimeOffset, le32 d.gnssNavigationLatency,
    le32 d.geoidalSeparation, le16 d.gnssReceiverType, le32 d.gnssStatus, le16 pad].flatten

def writeGRP4 (d : Grp4Data) (pad : UInt8) : Bytes :=
  [writeTimeDistance d.timeDistance, d.imudata, le8 d.datastatus, le8 d.imutype, le8 d.imurate,
    le16 d.imustatus, le8 pad].flatten

def writeGRP10001 (d : Grp10001Data) (reserved : UInt32) (pad : Bytes) : Bytes :=
  [writeTimeDistance d.timeDistance, le16 d.gnssReceiverType, le32 reserved,
    toLE 2 d.gnssReceiverRawData.length, d.gnssReceiverRawData, pad].flatten

def writeGRP10002 (d : Grp10002Data) (pad : Bytes) : Bytes :=
  [writeTimeDistance d.timeDistance, d.imuheader, toLE 2 d.imuRawData.length, d.imuRawData,
    le16 d.datachecksum, pad].flatten

def writeGRP10003 (d : Grp10003Data) (pad : UInt16) : Bytes :=
  [writeTimeDistance d.timeDistance, le32 d.pulsecount, le16 pad].flatten

/-- The payload of a GRP10009 is laid out like the one of a GRP10001. -/
def writeGRP10009 (d : Grp10009Data) (reserved : UInt32) (pad : Bytes) : Bytes :=
  writeGRP10001
    { timeDistance := d.timeDistance
      gnssReceiverType := d.gnssReceiverType
      gnssReceiverRawData := d.gnssReceiverRawData } reserved pad

/-! ## Reading -/

/-- What the decoder makes of the time types. -/
def TimeDistance.received (t : TimeDistance) : TimeDistance :=
  { t with time2Type := t.time2Type <<< 4 }

/-- Both time types fit into their nibbles. -/
def TimeDistance.Fits (t : TimeDistance) : Prop := t.time1Type < 16 ∧ t.time2Type < 16

section Fields
variable {α : Type} {cs : Bytes} {b : α}

theorem consumes_readLE {size : Nat} {bs : Bytes} (length : bs.length = size) :
    Consumes (readLE size) bs (ofLE bs) := by
  have read : Consumes (readInto (zeros size)) bs bs :=
    .readInto (by rw [length, length_zeros])
  have both := read.bind (f := fun octets => pure (ofLE octets)) (Consumes.pure (ofLE bs))
  rwa [List.append_nil] at both

/-- A field that is read as a word. -/
theorem consumes_word {β : Type} {width n : Nat} (ofNat : Nat → β) (small : n < 256 ^ width) :
    Consumes (readLE width >>= fun n => pure (ofNat n)) (toLE width n) (ofNat n) := by
  have both := (consumes_readLE (length_toLE width n)).bind
    (f := fun n => pure (ofNat n)) (Consumes.pure _)
  rwa [List.append_nil, ofLE_toLE_of_lt small] at both

theorem consumes_readU8 (x : UInt8) : Consumes readU8 (le8 x) x := by
  have read : Consumes readU8 (toLE 1 x.toNat) _ := consumes_word UInt8.ofNat x.toNat_lt
  rwa [UInt8.ofNat_toNat] at read

theorem consumes_readU16 (x : UInt16) : Consumes readU16 (le16 x) x := by
  have read : Consumes readU16 (toLE 2 x.toNat) _ := consumes_word UInt16.ofNat x.toNat_lt
  rwa [UInt16.ofNat_toNat] at read

theorem consumes_readU32 (x : UInt32) : Consumes readU32 (le32 x) x := by
  have read : Consumes readU32 (toLE 4 x.toNat) _ := consumes_word UInt32.ofNat x.toNat_lt
  rwa [UInt32.ofNat_toNat] at read

theorem consumes_readU64 (x : UInt64) : Consumes readU64 (le64 x) x := by
  have read : Consumes readU64 (toLE 8 x.toNat) _ := consumes_word UInt64.ofNat x.toNat_lt
  rwa [UInt64.ofNat_toNat] at read

/-- A counted loop that reads one item after the other. -/
theorem consumes_each {β : Type} {body : List β → Reader (List β)} {write : β → Bytes}
    (one : ∀ list item, Consumes (body list) (write item) (list ++ [item])) (items list : List β) :
    Consumes (CStream.repeated body items.length list) (items.flatMap write) (list ++ items) := by
  induction items generalizing list with
  | nil =>
    rw [List.append_nil]
    exact .pure list
  | cons item items ih =>
    have rest := ih (list ++ [item])
    rw [List.append_assoc] at rest
    exact (one list item).bind rest

end Fields

theorem le8_toNat (x : UInt8) : le8 x = [x] := by
  rw [le8, toLE, toLE, Nat.mod_eq_of_lt x.toNat_lt, UInt8.ofNat_toNat]

theorem consumes_padding (pad : Bytes) : Consumes (CStream.repeated readPadding pad.length ()) pad () := by
  induction pad with
  | nil => exact .pure ()
  | cons b pad ih =>
    have one : Consumes (readPadding ()) [b] () := by
      have read := (consumes_readU8 b).bind (f := fun _ => (pure () : Reader Unit)) (.pure ())
      rwa [List.append_nil, le8_toNat] at read
    exact one.bind ih

section TimeTypes
variable {t : TimeDistance}

/-- A nibble as a number. -/
theorem nibble_cases {P : UInt8 → Prop} (all : ∀ n : Fin 16, P (UInt8.ofNat n)) (x : UInt8)
    (small : x < 16) : P x := by
  have low : x.toNat < 16 := UInt8.lt_iff_toNat_lt.mp small
  have here := all ⟨x.toNat, low⟩
  rwa [UInt8.ofNat_toNat] at here

theorem low_nibble {a b : UInt8} (low : a < 16) (high : b < 16) : (a ||| b <<< 4) &&& 0x0F = a := by
  revert b
  revert a
  apply nibble_cases (P := fun a => ∀ b : UInt8, b < 16 → (a ||| b <<< 4) &&& 0x0F = a)
  intro n
  apply nibble_cases
  revert n
  decide

theorem high_nibble {a b : UInt8} (low : a < 16) (high : b < 16) :
    (a ||| b <<< 4) &&& (0xF0 : UInt8) = b <<< 4 := by
  revert b
  revert a
  apply nibble_cases (P := fun a => ∀ b : UInt8, b < 16 → (a ||| b <<< 4) &&& (0xF0 : UInt8) = b <<< 4)
  intro n
  apply nibble_cases
  revert n
  decide

theorem shifted_nibble {b : UInt8} (high : b < 16) : b <<< 4 = b ↔ b = 0 := by
  revert b
  apply nibble_cases
  decide

theorem received_eq_iff (fits : t.Fits) : t.received = t ↔ t.time2Type = 0 := by
  rw [← shifted_nibble fits.2]
  constructor
  · intro same
    exact congrArg TimeDistance.time2Type same
  · intro same
    rw [TimeDistance.received, same]

theorem consumes_getTimeDistance (fits : t.Fits) :
    Consumes getTimeDistance (writeTimeDistance t) t.received := by
  have low := low_nibble fits.1 fits.2
  have high := high_nibble fits.1 fits.2
  have value : t.received = { t with
      time1Type := (t.time1Type ||| t.time2Type <<< 4) &&& 0x0F
      time2Type := (t.time1Type ||| t.time2Type <<< 4) &&& 0xF0 } := by
    rw [low, high]
    rfl
  rw [value]
  apply Consumes.ifGood
  iterate 3 apply (consumes_readU64 _).bind
  iterate 2 apply (consumes_readU8 _).bind
  exact .pure _

end TimeTypes

section Groups

theorem consumes_getGRP1 (d : Grp1Data) (pad : UInt8) (fits : d.timeDistance.Fits) :
    Consumes getGRP1 (writeGRP1 d pad) { d with timeDistance := d.timeDistance.received } := by
  apply Consumes.ifGood
  apply (consumes_getTimeDistance fits).bind
  iterate 3 apply (consumes_readU64 _).bind
  iterate 3 apply (consumes_readU32 _).bind
  iterate 4 apply (consumes_readU64 _).bind
  iterate 8 apply (consumes_readU32 _).bind
  iterate 2 apply (consumes_readU8 _).bind
  exact .pure _

theorem consumes_getGRP2 (d : Grp2Data) (pad : UInt16) (fits : d.timeDistance.Fits) :
    Consumes getGRP2 (writeGRP2 d pad) { d with timeDistance := d.timeDistance.received } := by
  apply Consumes.ifGood
  apply (consumes_getTimeDistance fits).bind
  iterate 12 apply (consumes_readU32 _).bind
  apply (consumes_readU16 _).bind
  exact .pure _

theorem consumes_getGNSSReceiverChannelStatus (c : GNSSReceiverChannelStatus) :
    Consumes getGNSSReceiverChannelStatus (writeGNSSReceiverChannelStatus c) c := by
  apply Consumes.ifGood
  iterate 2 apply (consumes_readU16 _).bind
  iterate 4 apply (consumes_readU32 _).bind
  exact .pure _

theorem consumes_addChannelStatus (list : List GNSSReceiverChannelStatus)
    (c : GNSSReceiverChannelStatus) :
    Consumes (addChannelStatus list) (writeGNSSReceiverChannelStatus c) (list ++ [c]) := by
  have read := (consumes_getGNSSReceiverChannelStatus c).bind
    (f := fun gnss => (pure (list ++ [gnss]) : Reader _)) (.pure _)
  rwa [List.append_nil] at read

theorem consumes_getGRP3 (d : Grp3Data) (pad : UInt16) (fits : d.timeDistance.Fits)
    (counted : d.channelStatusByteCount.toNat = SIZE_OF_GNSS * d.channelStatus.length)
    (few : d.channelStatus.length ≤ 255) :
    Consumes getGRP3 (writeGRP3 d pad) { d with timeDistance := d.timeDistance.received } := by
  have channels : Consumes
      (forU8 (d.channelStatusByteCount.toNat / SIZE_OF_GNSS) addChannelStatus [])
      (d.channelStatus.flatMap writeGNSSReceiverChannelStatus) d.channelStatus := by
    rw [counted, Nat.mul_div_cancel_left _ (by decide), forU8_of_le _ _ few]
    exact consumes_each consumes_addChannelStatus d.channelStatus []
  apply Consumes.ifGood
  apply (consumes_getTimeDistance fits).bind
  iterate 2 apply (consumes_readU8 _).bind
  apply (consumes_readU16 _).bind
  apply channels.bind
  iterate 3 apply (consumes_readU32 _).bind
  apply (consumes_readU16 _).bind
  apply (consumes_readU32 _).bind
  apply (consumes_readU64 _).bind
  iterate 2 apply (consumes_readU32 _).bind
  apply (consumes_readU16 _).bind
  apply (consumes_readU32 _).bind
  apply (consumes_readU16 _).bind
  exact .pure _

variable (mem : Nat → UInt8)

/-- An array or vector of the right size, whatever it held. -/
theorem consumes_storage (bs : Bytes) : Consumes (readInto (storage mem bs.length)) bs bs :=
  .readInto (length_storage mem bs.length).symm

/-- A 16-bit count in front of raw data. -/
theorem consumes_count {count : Nat} (small : count < 2 ^ 16) :
    Consumes readU16 (toLE 2 count) (UInt16.ofNat count) :=
  consumes_word UInt16.ofNat small

/-- As many bytes as were counted. -/
theorem consumes_raw {bs : Bytes} (small : bs.length < 2 ^ 16) :
    Consumes (readInto (storage mem (UInt16.ofNat bs.length).toNat)) bs bs := by
  rw [UInt16.toNat_ofNat_of_lt' small]
  exact consumes_storage mem bs

theorem consumes_getGRP4 (d : Grp4Data) (pad : UInt8) (fits : d.timeDistance.Fits)
    (length : d.imudata.length = LENGTH_IMUDATA) :
    Consumes (getGRP4 mem) (writeGRP4 d pad)
      { d with timeDistance := d.timeDistance.received } := by
  have imudata := consumes_storage mem d.imudata
  rw [length] at imudata
  apply Consumes.ifGood
  apply (consumes_getTimeDistance fits).bind
  apply imudata.bind
  iterate 3 apply (consumes_readU8 _).bind
  apply (consumes_readU16 _).bind
  apply (consumes_readU8 _).bind
  exact .pure _

theorem consumes_getGRP10001 (d : Grp10001Data) (reserved : UInt32) (pad : Bytes)
    (fits : d.timeDistance.Fits) (small : 38 + d.gnssReceiverRawData.length + pad.length < 2 ^ 16)
    (short : pad.length ≤ 3) :
    Consumes (getGRP10001 mem (38 + d.gnssReceiverRawData.length + pad.length))
      (writeGRP10001 d reserved pad) { d with timeDistance := d.timeDistance.received } := by
  have count : (UInt16.ofNat d.gnssReceiverRawData.length).toNat = d.gnssReceiverRawData.length :=
    UInt16.toNat_ofNat_of_lt' (show _ < 2 ^ 16 by omega)
  have padding : Consumes (forU8 (paddingGRP10001 (38 + d.gnssReceiverRawData.length + pad.length)
      (UInt16.ofNat d.gnssReceiverRawData.length).toNat) readPadding ()) pad () := by
    rw [count, paddingGRP10001_of_le small (Nat.le_add_right _ _), Nat.add_sub_cancel_left,
      forU8_of_le _ _ (by omega)]
    exact consumes_padding pad
  apply Consumes.ifGood
  apply (consumes_getTimeDistance fits).bind
  apply (consumes_readU16 _).bind
  apply (consumes_readU32 _).bind
  apply (consumes_count (by omega)).bind
  apply (consumes_raw mem (by omega)).bind
  apply padding.bind
  exact .pure _

theorem consumes_getGRP10009 (d : Grp10009Data) (reserved : UInt32) (pad : Bytes)
    (fits : d.timeDistance.Fits) (small : 38 + d.gnssReceiverRawData.length + pad.length < 2 ^ 16)
    (short : pad.length ≤ 3) :
    Consumes (getGRP10009 mem (38 + d.gnssReceiverRawData.length + pad.length))
      (writeGRP10009 d reserved pad) { d with timeDistance := d.timeDistance.received } := by
  have read := (consumes_getGRP10001 mem
    { timeDistance := d.timeDistance
      gnssReceiverType := d.gnssReceiverType
      gnssReceiverRawData := d.gnssReceiverRawData } reserved pad fits small short).bind
    (f := fun g => (pure
      { timeDistance := g.timeDistance
        gnssReceiverType := g.gnssReceiverType
        gnssReceiverRawData := g.gnssReceiverRawData } : Reader Grp10009Data)) (.pure _)
  rwa [List.append_nil] at read

theorem consumes_getGRP10002 (d : Grp10002Data) (pad : Bytes) (fits : d.timeDistance.Fits)
    (length : d.imuheader.length = LENGTH_IMUHEADER)
    (small : 40 + d.imuRawData.length + pad.length < 2 ^ 16) (short : pad.length ≤ 3) :
    Consumes (getGRP10002 mem (40 + d.imuRawData.length + pad.length))
      (writeGRP10002 d pad) { d with timeDistance := d.timeDistance.received } := by
  have count : (UInt16.ofNat d.imuRawData.length).toNat = d.imuRawData.length :=
    UInt16.toNat_ofNat_of_lt' (show _ < 2 ^ 16 by omega)
  have imuheader := consumes_storage mem d.imuheader
  rw [length] at imuheader
  have padding : Consumes (forU8 (paddingGRP10002 (40 + d.imuRawData.length + pad.length)
      (UInt16.ofNat d.imuRawData.length).toNat) readPadding ()) pad () := by
    rw [count, paddingGRP10002_of_le small (Nat.le_add_right _ _), Nat.add_sub_cancel_left,
      forU8_of_le _ _ (by omega)]
    exact consumes_padding pad
  apply Consumes.ifGood
  apply (consumes_getTimeDistance fits).bind
  apply imuheader.bind
  apply (consumes_count (by omega)).bind
  apply (consumes_raw mem (by omega)).bind
  apply (consumes_readU16 _).bind
  apply padding.bind
  exact .pure _

theorem consumes_getGRP10003 (d : Grp10003Data) (pad : UInt16) (fits : d.timeDistance.Fits) :
    Consumes getGRP10003 (writeGRP10003 d pad)
      { d with timeDistance := d.timeDistance.received } := by
  apply Consumes.ifGood
  apply (consumes_getTimeDistance fits).bind
  apply (consumes_readU32 _).bind
  apply (consumes_readU16 _).bind
  exact .pure _

end Groups

/-! ## Records -/

/-- A message with the bytes of its payload that no field of it has. -/
inductive GroupRecord where
  | grp1 (data : Grp1Data) (pad : UInt8)
  | grp2 (data : Grp2Data) (pad : UInt16)
  | grp3 (data : Grp3Data) (pad : UInt16)
  | grp4 (data : Grp4Data) (pad : UInt8)
  | grp10001 (data : Grp10001Data) (reserved : UInt32) (pad : Bytes)
  | grp10002 (data : Grp10002Data) (pad : Bytes)
  | grp10003 (data : Grp10003Data) (pad : UInt16)
  | grp10009 (data : Grp10009Data) (reserved : UInt32) (pad : Bytes)
  deriving DecidableEq, Repr

namespace GroupRecord

def timeDistance : GroupRecord → TimeDistance
  | grp1 data _ => data.timeDistance
  | grp2 data _ => data.timeDistance
  | grp3 data _ => data.timeDistance
  | grp4 data _ => data.timeDistance
  | grp10001 data _ _ => data.timeDistance
  | grp10002 data _ => data.timeDistance
  | grp10003 data _ => data.timeDistance
  | grp10009 data _ _ => data.timeDistance

/-- The channel entries of a GRP3. -/
def channels : GroupRecord → Nat
  | grp3 data _ => data.channelStatus.length
  | _ => 0

def payload : GroupRecord → Bytes
  | grp1 data pad => writeGRP1 data pad
  | grp2 data pad => writeGRP2 data pad
  | grp3 data pad => writeGRP3 data pad
  | grp4 data pad => writeGRP4 data pad
  | grp10001 data reserved pad => writeGRP10001 data reserved pad
  | grp10002 data pad => writeGRP10002 data pad
  | grp10003 data pad => writeGRP10003 data pad
  | grp10009 data reserved pad => writeGRP10009 data reserved pad

/-- The byte count of the record: the payload and its footer. -/
def byteCount (r : GroupRecord) : Nat := r.payload.length + GRP_FOOTER_SIZE

def message : GroupRecord → Container
  | grp1 data _ => .grp1 data
  | grp2 data _ => .grp2 data
  | grp3 data _ => .grp3 data
  | grp4 data _ => .grp4 data
  | grp10001 data _ _ => .grp10001 data
  | grp10002 data _ => .grp10002 data
  | grp10003 data _ => .grp10003 data
  | grp10009 data _ _ => .grp10009 data

/-- The arrays have their sizes and the counts fit into 16 bits. -/
def WellFormed (r : GroupRecord) : Prop :=
  r.timeDistance.Fits ∧
    match r with
    | grp3 data _ => data.channelStatusByteCount.toNat = SIZE_OF_GNSS * data.channelStatus.length
    | grp4 data _ => data.imudata.length = LENGTH_IMUDATA
    | grp10001 _ _ pad | grp10009 _ _ pad => pad.length ≤ 3 ∧ r.byteCount < 2 ^ 16
    | grp10002 data pad =>
      data.imuheader.length = LENGTH_IMUHEADER ∧ pad.length ≤ 3 ∧ r.byteCount < 2 ^ 16
    | _ => True

/-- The reader of the record's group, with `m_payloadSize` set to its byte count. -/
def read (mem : Nat → UInt8) (r : GroupRecord) : Reader Container :=
  match r with
  | grp1 .. => do return .grp1 (← getGRP1)
  | grp2 .. => do return .grp2 (← getGRP2)
  | grp3 .. => do return .grp3 (← getGRP3)
  | grp4 .. => do return .grp4 (← getGRP4 mem)
  | grp10001 .. => do return .grp10001 (← getGRP10001 mem r.byteCount)
  | grp10002 .. => do return .grp10002 (← getGRP10002 mem r.byteCount)
  | grp10003 .. => do return .grp10003 (← getGRP10003)
  | grp10009 .. => do return .grp10009 (← getGRP10009 mem r.byteCount)

end GroupRecord

section Records
variable {mem : Nat → UInt8} {t : TimeDistance}

/-- A message is read as it was written if its time types are. -/
theorem consumes_message_iff {α : Type} {m : Reader α} {bs : Bytes} (value : TimeDistance → α)
    (make : α → Container) (injective : ∀ t t', make (value t) = make (value t') → t = t')
    (fits : t.Fits) (read : Consumes m bs (value t.received)) :
    Consumes (m >>= fun a => pure (make a)) bs (make (value t)) ↔ t.time2Type = 0 := by
  have received : Consumes (m >>= fun a => pure (make a)) bs (make (value t.received)) := by
    have both := read.bind (f := fun a => pure (make a)) (.pure (make (value t.received)))
    rwa [List.append_nil] at both
  rw [← received_eq_iff fits]
  constructor
  · intro faithful
    exact (injective _ _ (faithful.value_unique received)).symm
  · intro same
    rwa [same] at received

theorem length_writeTimeDistance (t : TimeDistance) : (writeTimeDistance t).length = 26 := by
  simp [writeTimeDistance, le64, le8]

theorem length_writeGRP10001 (d : Grp10001Data) (reserved : UInt32) (pad : Bytes) :
    (writeGRP10001 d reserved pad).length + GRP_FOOTER_SIZE =
      38 + d.gnssReceiverRawData.length + pad.length := by
  simp only [writeGRP10001, le16, le32, List.flatten_cons, List.flatten_nil, List.length_append,
    List.length_nil, length_writeTimeDistance, length_toLE, GRP_FOOTER_SIZE]
  omega

theorem length_writeGRP10002 (d : Grp10002Data) (pad : Bytes)
    (length : d.imuheader.length = LENGTH_IMUHEADER) :
    (writeGRP10002 d pad).length + GRP_FOOTER_SIZE = 40 + d.imuRawData.length + pad.length := by
  simp only [writeGRP10002, le16, List.flatten_cons, List.flatten_nil, List.length_append,
    List.length_nil, length_writeTimeDistance, length_toLE, GRP_FOOTER_SIZE, length,
    LENGTH_IMUHEADER]
  omega

/-- The bound of the channel loop. -/
theorem channelCount_writeGRP3 (d : Grp3Data) (pad : UInt16) :
    channelCount (writeGRP3 d pad) = d.channelStatusByteCount.toNat / SIZE_OF_GNSS := by
  obtain ⟨rest, split⟩ : ∃ rest, writeGRP3 d pad =
      (writeTimeDistance d.timeDistance ++ (le8 d.navigationSolutionStatus.toUInt8 ++
        le8 d.numberSvTracked)) ++ (le16 d.channelStatusByteCount ++ rest) := by
    rw [writeGRP3, List.flatten_cons, List.flatten_cons, List.flatten_cons, List.flatten_cons]
    exact ⟨_, by rw [List.append_assoc, List.append_assoc]⟩
  have head : (writeTimeDistance d.timeDistance ++ (le8 d.navigationSolutionStatus.toUInt8 ++
      le8 d.numberSvTracked)).length = 28 := by
    simp only [List.length_append, length_writeTimeDistance, le8, length_toLE]
  have count : (le16 d.channelStatusByteCount).length = 2 := length_toLE _ _
  rw [channelCount, split, List.drop_left' head, List.take_left' count, le16,
    ofLE_toLE_of_lt d.channelStatusByteCount.toNat_lt]

/-- More than 255 channels are never read to their end. -/
theorem getGRP3_hangs (d : Grp3Data) (pad : UInt16)
    (counted : d.channelStatusByteCount.toNat = SIZE_OF_GNSS * d.channelStatus.length)
    (many : 255 < d.channelStatus.length) :
    getGRP3 { data := writeGRP3 d pad } = none := by
  have loops := getGRP3_loops (s := { data := writeGRP3 d pad }) rfl
  apply loops.hangs
  change 256 ≤ channelCount (writeGRP3 d pad)
  rw [channelCount_writeGRP3, counted, Nat.mul_div_cancel_left _ (by decide)]
  exact many

end Records

/-- The readers return what was written, and stop at the footer, exactly when the second time type
is 0 and a GRP3 has at most 255 channels. -/
theorem read_faithful_iff (mem : Nat → UInt8) (r : GroupRecord) (wellFormed : r.WellFormed) :
    Consumes (r.read mem) r.payload r.message ↔
      r.timeDistance.time2Type = 0 ∧ r.channels ≤ 255 := by
  obtain ⟨fits, sizes⟩ := wellFormed
  cases r with
  | grp1 d pad =>
    have read := consumes_message_iff (fun t => { d with timeDistance := t }) .grp1
      (by rintro t t' ⟨⟩; rfl) fits (consumes_getGRP1 d pad fits)
    exact read.trans (and_iff_left (Nat.zero_le 255)).symm
  | grp2 d pad =>
    have read := consumes_message_iff (fun t => { d with timeDistance := t }) .grp2
      (by rintro t t' ⟨⟩; rfl) fits (consumes_getGRP2 d pad fits)
    exact read.trans (and_iff_left (Nat.zero_le 255)).symm
  | grp3 d pad =>
    by_cases few : d.channelStatus.length ≤ 255
    · have read := consumes_message_iff (fun t => { d with timeDistance := t }) .grp3
        (by rintro t t' ⟨⟩; rfl) fits (consumes_getGRP3 d pad fits sizes few)
      exact read.trans (and_iff_left few).symm
    · constructor
      · intro faithful
        have hangs := getGRP3_hangs d pad sizes (Nat.lt_of_not_le few)
        have returns := faithful { data := writeGRP3 d pad } [] rfl (List.append_nil _).symm
        rw [GroupRecord.read, hangs_map _ hangs] at returns
        cases returns
      · exact fun both => absurd both.2 few
  | grp4 d pad =>
    have read := consumes_message_iff (fun t => { d with timeDistance := t }) .grp4
      (by rintro t t' ⟨⟩; rfl) fits (consumes_getGRP4 mem d pad fits sizes)
    exact read.trans (and_iff_left (Nat.zero_le 255)).symm
  | grp10001 d reserved pad =>
    have count : (GroupRecord.grp10001 d reserved pad).byteCount = _ :=
      length_writeGRP10001 d reserved pad
    obtain ⟨short, small⟩ := sizes
    rw [count] at small
    rw [GroupRecord.read, count]
    have read := consumes_message_iff (fun t => { d with timeDistance := t }) .grp10001
      (by rintro t t' ⟨⟩; rfl) fits (consumes_getGRP10001 mem d reserved pad fits small short)
    exact read.trans (and_iff_left (Nat.zero_le 255)).symm
  | grp10002 d pad =>
    obtain ⟨length, short, small⟩ := sizes
    have count : (GroupRecord.grp10002 d pad).byteCount = _ := length_writeGRP10002 d pad length
    rw [count] at small
    rw [GroupRecord.read, count]
    have read := consumes_message_iff (fun t => { d with timeDistance := t }) .grp10002
      (by rintro t t' ⟨⟩; rfl) fits (consumes_getGRP10002 mem d pad fits length small short)
    exact read.trans (and_iff_left (Nat.zero_le 255)).symm
  | grp10003 d pad =>
    have read := consumes_message_iff (fun t => { d with timeDistance := t }) .grp10003
      (by rintro t t' ⟨⟩; rfl) fits (consumes_getGRP10003 d pad fits)
    exact read.trans (and_iff_left (Nat.zero_le 255)).symm
  | grp10009 d reserved pad =>
    have count : (GroupRecord.grp10009 d reserved pad).byteCount = _ :=
      length_writeGRP10001 _ reserved pad
    obtain ⟨short, small⟩ := sizes
    rw [count] at small
    rw [GroupRecord.read, count]
    have read := consumes_message_iff (fun t => { d with timeDistance := t }) .grp10009
      (by rintro t t' ⟨⟩; rfl) fits (consumes_getGRP10009 mem d reserved pad fits small short)
    exact read.trans (and_iff_left (Nat.zero_le 255)).symm

/-- A GRP10003 with the second time type 0 is read back. -/
theorem read_faithful_iff_pulses :
    Consumes
      (GroupRecord.read (fun _ => 0) (.grp10003 { timeDistance := { time1Type := 1 }, pulsecount := 5 } 0))
      (GroupRecord.payload (.grp10003 { timeDistance := { time1Type := 1 }, pulsecount := 5 } 0))
      (.grp10003 { timeDistance := { time1Type := 1 }, pulsecount := 5 }) := by
  have record : GroupRecord.WellFormed
      (.grp10003 { timeDistance := { time1Type := 1 }, pulsecount := 5 } 0) :=
    ⟨⟨by decide, by decide⟩, trivial⟩
  exact (read_faithful_iff (fun _ => 0) _ record).mpr (by decide)

/-- A GRP10003 whose second time type is 1 comes back with the type 16. -/
theorem read_not_faithful :
    ¬ ∀ (mem : Nat → UInt8) (r : GroupRecord), r.WellFormed →
      Consumes (r.read mem) r.payload r.message := by
  intro faithful
  have fits : TimeDistance.Fits { time2Type := 1 } := ⟨by decide, by decide⟩
  have same := faithful (fun _ => 0) (.grp10003 { timeDistance := { time2Type := 1 } } 0)
    ⟨fits, trivial⟩
  have zero := (consumes_message_iff (fun t => ({ timeDistance := t } : Grp10003Data)) .grp10003
    (by rintro t t' ⟨⟩; rfl) fits (consumes_getGRP10003 _ 0 fits)).mp same
  exact absurd zero (by decide)

end OpendlvCore.Applanix
