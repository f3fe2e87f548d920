import OpendlvCore.Columns
import OpendlvCore.Velodyne.Decoder64

/-!
# The format of a packet

A payload of 1206 bytes is 12 blocks of a flag, an azimuth and 32 returns, and six bytes
at the end. The decoders see the azimuths and the returns, and the `Velodyne64Decoder`
whether the flag is that of a lower block.
-/
namespace OpendlvCore.Velodyne
open CBytes Columns

/-- The 100 bytes of a block. The azimuth is in hundredths of a degree. -/
structure DataBlock where
  flag : UInt16
  azimuth : UInt16
  returns : List Return
  whole : returns.length = 32

/-- The last six bytes are a timestamp and two factory bytes. -/
structure Packet where
  blocks : List DataBlock
  whole : blocks.length = 12
  tail : Bytes
  six : tail.length = 6

/-! ## Writing -/

def Return.bytes (r : Return) : Bytes := [r.firstByte, r.secondByte, r.thirdByte]

def DataBlock.bytes (b : DataBlock) : Bytes :=
  toLE 2 b.flag.toNat ++ (toLE 2 b.azimuth.toNat ++ b.returns.flatMap Return.bytes)

def Packet.payload (p : Packet) : Bytes := p.blocks.flatMap DataBlock.bytes ++ p.tail

/-! ## Reading -/

def returnOf (bytes : Bytes) : Return where
  firstByte := byteAt bytes 0
  secondByte := byteAt bytes 1
  thirdByte := byteAt bytes 2

def dataBlockOf (bytes : Bytes) : DataBlock where
  flag := UInt16.ofNat (ofLE (bytes.take 2))
  azimuth := UInt16.ofNat (ofLE ((bytes.drop 2).take 2))
  returns := (List.range 32).map fun counter => returnOf (record 3 counter (bytes.drop 4))
  whole := by rw [List.length_map, List.length_range]

def packetIn (payload : Bytes) (length : payload.length = 1206) : Packet where
  blocks := (List.range 12).map fun blockID => dataBlockOf (record 100 blockID payload)
  whole := by rw [List.length_map, List.length_range]
  tail := payload.drop 1200
  six := by rw [List.length_drop, length]

/-! ## What the decoders see -/

def DataBlock.degrees (b : DataBlock) : ℚ := (b.azimuth.toNat : ℚ) / 100

/-- The blocks of a packet for a `Velodyne16Decoder` or a `Velodyne32Decoder`. -/
def Packet.blocksFor (m : Device) (p : Packet) : List Block :=
  p.blocks.mapIdx fun blockID b =>
    if m.interpolates then
      { azimuth := if blockID = 0 then some b.degrees else none
        first := b.returns.take 16
        second := some (p.blocks[blockID + 1]?.map DataBlock.degrees, b.returns.drop 16) }
    else { azimuth := some b.degrees, first := b.returns, second := none }

/-- The blocks of a packet for a `Velodyne64Decoder`. -/
def Packet.blocksFor64 (p : Packet) : List HDL64E.Block :=
  p.blocks.map fun b =>
    { upperBlock := b.flag.toNat != 0xddff, azimuth := b.degrees, returns := b.returns }

/-- The azimuths and the returns of a packet. -/
def Packet.readings (p : Packet) : List (UInt16 × List Return) :=
  p.blocks.map fun b => (b.azimuth, b.returns)

/-- And to which lasers the returns belong. -/
def Packet.readings64 (p : Packet) : List (Bool × UInt16 × List Return) :=
  p.blocks.map fun b => (b.flag.toNat != 0xddff, b.azimuth, b.returns)

section Format

theorem length_bytes (b : DataBlock) : b.bytes.length = 100 := by
  have returns : (b.returns.flatMap Return.bytes).length = 3 * b.returns.length :=
    length_flatMap_records Return.bytes b.returns fun _ _ => rfl
  rw [DataBlock.bytes, List.length_append, List.length_append, length_toLE, length_toLE, returns,
    b.whole]

theorem length_payload (p : Packet) : p.payload.length = 1206 := by
  have blocks := length_flatMap_records DataBlock.bytes p.blocks fun b _ => length_bytes b
  rw [Packet.payload, List.length_append, blocks, p.whole, p.six]

/-- Two bytes are a number of 16 bits. -/
theorem toLE_ofLE_two (bytes : Bytes) (two : bytes.length = 2) :
    toLE 2 (UInt16.ofNat (ofLE bytes)).toNat = bytes := by
  obtain ⟨low, high, rfl⟩ := List.length_eq_two.mp two
  have first := low.toNat_lt
  have second := high.toNat_lt
  have value : (UInt16.ofNat (ofLE [low, high])).toNat = low.toNat + 256 * high.toNat := by
    rw [UInt16.toNat_ofNat', ofLE, ofLE, ofLE]
    omega
  have lower : (low.toNat + 256 * high.toNat) % 256 = low.toNat := by omega
  have upper : (low.toNat + 256 * high.toNat) / 256 % 256 = high.toNat := by omega
  rw [value, toLE, toLE, toLE, lower, upper, UInt8.ofNat_toNat, UInt8.ofNat_toNat]

theorem ofNat_ofLE_two (n : UInt16) : UInt16.ofNat (ofLE (toLE 2 n.toNat)) = n := by
  rw [ofLE_toLE_of_lt n.toNat_lt, UInt16.ofNat_toNat]

theorem bytes_returnOf (bytes : Bytes) (three : bytes.length = 3) :
    (returnOf bytes).bytes = bytes := by
  obtain ⟨first, second, third, rfl⟩ := List.length_eq_three.mp three
  rfl

theorem bytes_dataBlockOf (bytes : Bytes) (length : bytes.length = 100) :
    (dataBlockOf bytes).bytes = bytes := by
  have flag := toLE_ofLE_two (bytes.take 2) (by rw [List.length_take, length]; rfl)
  have azimuth := toLE_ofLE_two ((bytes.drop 2).take 2)
    (by rw [List.length_take, List.length_drop, length]; rfl)
  have rest : (bytes.drop 4).length = 3 * 32 := by rw [List.length_drop, length]
  have returns : (dataBlockOf bytes).returns.flatMap Return.bytes = bytes.drop 4 := by
    rw [dataBlockOf, List.flatMap_map, ← flatMap_record 32 (bytes.drop 4) rest]
    apply List.flatMap_congr
    intro counter there
    rw [List.mem_range] at there
    rw [flatMap_record 32 (bytes.drop 4) rest]
    apply bytes_returnOf
    rw [record, List.length_take, List.length_drop, rest]
    omega
  have split : (bytes.drop 2).take 2 ++ bytes.drop 4 = bytes.drop 2 := by
    have behind : bytes.drop 4 = (bytes.drop 2).drop 2 := by rw [List.drop_drop]
    rw [behind, List.take_append_drop]
  rw [DataBlock.bytes, returns]
  simp only [dataBlockOf]
  rw [flag, azimuth, split, List.take_append_drop]

theorem returnOf_bytes (r : Return) : returnOf r.bytes = r := rfl

theorem dataBlockOf_bytes (b : DataBlock) : dataBlockOf b.bytes = b := by
  obtain ⟨flag, azimuth, returns, whole⟩ := b
  have counters : (List.range 32).map (fun counter =>
      returnOf (record 3 counter (returns.flatMap Return.bytes))) = returns := by
    apply List.ext_getElem
    · rw [List.length_map, List.length_range, whole]
    · intro counter low high
      rw [List.getElem_map, List.getElem_range,
        record_flatMap Return.bytes returns (fun _ _ => rfl) high, returnOf_bytes]
  have head : (toLE 2 flag.toNat).length = 2 := length_toLE 2 _
  have middle : (toLE 2 azimuth.toNat).length = 2 := length_toLE 2 _
  have behind : (DataBlock.bytes ⟨flag, azimuth, returns, whole⟩).drop 2 =
      toLE 2 azimuth.toNat ++ returns.flatMap Return.bytes := List.drop_left' head
  have last : (DataBlock.bytes ⟨flag, azimuth, returns, whole⟩).drop 4 =
      returns.flatMap Return.bytes := by
    rw [← List.drop_drop (i := 2) (j := 2), behind, List.drop_left' middle]
  have first : (DataBlock.bytes ⟨flag, azimuth, returns, whole⟩).take 2 = toLE 2 flag.toNat :=
    List.take_left' head
  simp only [dataBlockOf, first, behind, last, List.take_left' middle, ofNat_ofLE_two, counters]

/-- The bytes of a payload are those of its packet. -/
theorem payload_packetIn (payload : Bytes) (length : payload.length = 1206) :
    (packetIn payload length).payload = payload := by
  have front : (payload.take 1200).length = 100 * 12 := by
    rw [List.length_take, length]
    rfl
  have blocks : (packetIn payload length).blocks.flatMap DataBlock.bytes = payload.take 1200 := by
    rw [packetIn, List.flatMap_map, ← flatMap_record 12 (payload.take 1200) front]
    apply List.flatMap_congr
    intro blockID there
    rw [List.mem_range] at there
    have same : record 100 blockID (payload.take 1200) = record 100 blockID payload := by
      rw [record, record, List.drop_take, List.take_take, Nat.min_eq_left (by omega)]
    rw [same]
    apply bytes_dataBlockOf
    rw [record, List.length_take, List.length_drop, length]
    omega
  rw [Packet.payload, blocks]
  exact List.take_append_drop 1200 payload

/-- The records of a payload are the blocks of the packet. -/
theorem record_payload (p : Packet) {blockID : Nat} (inside : blockID < p.blocks.length) :
    record 100 blockID p.payload = p.blocks[blockID].bytes := by
  have front := length_flatMap_records DataBlock.bytes p.blocks fun b _ => length_bytes b
  have whole := p.whole
  rw [← record_flatMap DataBlock.bytes p.blocks (fun b _ => length_bytes b) inside, record, record,
    Packet.payload, List.drop_append_of_le_length (by omega),
    List.take_append_of_le_length (by rw [List.length_drop]; omega)]

theorem packetIn_payload (p : Packet) : packetIn p.payload (length_payload p) = p := by
  have front := length_flatMap_records DataBlock.bytes p.blocks fun b _ => length_bytes b
  have blocks : (List.range 12).map (fun blockID => dataBlockOf (record 100 blockID p.payload)) =
      p.blocks := by
    apply List.ext_getElem
    · rw [List.length_map, List.length_range, p.whole]
    · intro blockID low high
      rw [List.getElem_map, List.getElem_range, record_payload p high, dataBlockOf_bytes]
  have tail : p.payload.drop 1200 = p.tail := List.drop_left' (by rw [front, p.whole])
  obtain ⟨all, whole, rest, six⟩ := p
  simp only [packetIn, blocks, tail]

variable {p : Packet} {blockID : Nat}

theorem byteAt_payload (inside : blockID < p.blocks.length) {j : Nat} (within : j < 100) :
    byteAt p.payload (100 * blockID + j) = byteAt p.blocks[blockID].bytes j := by
  rw [byteAt, byteAt, List.getD_eq_getElem?_getD, List.getD_eq_getElem?_getD,
    ← record_payload p inside, getElem?_record _ within]

/-- The four bytes at the head of a block. -/
theorem head_bytes (b : DataBlock) :
    byteAt b.bytes 0 = UInt8.ofNat (b.flag.toNat % 256) ∧
      byteAt b.bytes 1 = UInt8.ofNat (b.flag.toNat / 256) ∧
      byteAt b.bytes 2 = UInt8.ofNat (b.azimuth.toNat % 256) ∧
      byteAt b.bytes 3 = UInt8.ofNat (b.azimuth.toNat / 256) := by
  have flag := b.flag.toNat_lt
  have azimuth := b.azimuth.toNat_lt
  have high : b.flag.toNat / 256 % 256 = b.flag.toNat / 256 := by omega
  have high' : b.azimuth.toNat / 256 % 256 = b.azimuth.toNat / 256 := by omega
  rw [← high, ← high']
  exact ⟨rfl, rfl, rfl, rfl⟩

theorem headAzimuth_payload (inside : blockID < p.blocks.length) :
    headAzimuth p.payload blockID = p.blocks[blockID].degrees := by
  obtain ⟨-, -, first, second⟩ := head_bytes p.blocks[blockID]
  rw [headAzimuth, byteAt_payload inside (by omega), byteAt_payload inside (by omega), first, second,
    azimuthOf, ntohs_bytes (UInt16.toNat_lt _), DataBlock.degrees]

theorem blockReturn_payload (inside : blockID < p.blocks.length) {counter : Nat}
    (within : counter < p.blocks[blockID].returns.length) :
    blockReturn p.payload blockID counter = p.blocks[blockID].returns[counter] := by
  have whole := p.blocks[blockID].whole
  have place : ∀ k < 3, byteAt p.payload (100 * blockID + (4 + (3 * counter + k))) =
      byteAt (p.blocks[blockID].returns[counter]).bytes k := by
    intro k low
    have behind : p.blocks[blockID].bytes[4 + (3 * counter + k)]? =
        (p.blocks[blockID].returns.flatMap Return.bytes)[3 * counter + k]? := by
      rw [← List.getElem?_drop]
      rfl
    rw [byteAt_payload inside (by omega), byteAt, List.getD_eq_getElem?_getD, behind,
      ← getElem?_record _ low, record_flatMap Return.bytes _ (fun _ _ => rfl) within, byteAt,
      List.getD_eq_getElem?_getD]
  have first := place 0 (by omega)
  have second := place 1 (by omega)
  have third := place 2 (by omega)
  rw [blockReturn]
  simp only [show 100 * blockID + 4 + 3 * counter = 100 * blockID + (4 + (3 * counter + 0)) by omega,
    show 100 * blockID + 5 + 3 * counter = 100 * blockID + (4 + (3 * counter + 1)) by omega,
    show 100 * blockID + 6 + 3 * counter = 100 * blockID + (4 + (3 * counter + 2)) by omega,
    first, second, third]
  rfl

theorem blockReturns_payload (inside : blockID < p.blocks.length) (start count : Nat)
    (within : start + count ≤ 32) :
    blockReturns p.payload blockID start count =
      (p.blocks[blockID].returns.drop start).take count := by
  have whole := p.blocks[blockID].whole
  apply List.ext_getElem
  · rw [blockReturns, List.length_map, List.length_range', List.length_take, List.length_drop, whole]
    omega
  · intro k low high
    rw [List.length_take, List.length_drop, whole] at high
    rw [List.getElem_take, List.getElem_drop]
    simp only [blockReturns, List.getElem_map, List.getElem_range', Nat.one_mul]
    exact blockReturn_payload inside (by omega)

/-- What the decoders make of the bytes of a packet. -/
theorem blocksOf_payload (m : Device) (p : Packet) : blocksOf m p.payload = p.blocksFor m := by
  have whole := p.whole
  apply List.ext_getElem
  · rw [blocksOf, Packet.blocksFor, List.length_map, List.length_range, List.length_mapIdx, whole]
  · intro blockID low high
    rw [Packet.blocksFor, List.length_mapIdx] at high
    have all := p.blocks[blockID].whole
    simp only [blocksOf, Packet.blocksFor, List.getElem_map, List.getElem_range, List.getElem_mapIdx,
      blockOf, headAzimuth_payload high, blockReturns_payload high 0 16 (by omega),
      blockReturns_payload high 16 16 (by omega), blockReturns_payload high 0 32 (by omega),
      List.drop_zero]
    have rest : (p.blocks[blockID].returns.drop 16).take 16 = p.blocks[blockID].returns.drop 16 := by
      apply List.take_of_length_le
      rw [List.length_drop, all]
    have complete : p.blocks[blockID].returns.take 32 = p.blocks[blockID].returns :=
      List.take_of_length_le (by omega)
    have next : (if blockID < 11 then some (headAzimuth p.payload (blockID + 1)) else none) =
        p.blocks[blockID + 1]?.map DataBlock.degrees := by
      by_cases before : blockID < 11
      · rw [if_pos before, headAzimuth_payload (by omega), List.getElem?_eq_getElem (by omega)]
        rfl
      · rw [if_neg before, List.getElem?_eq_none (by omega)]
        rfl
    rw [rest, complete, next]

theorem blocksOf64_payload (p : Packet) : HDL64E.blocksOf p.payload = p.blocksFor64 := by
  have whole := p.whole
  apply List.ext_getElem
  · rw [HDL64E.blocksOf, Packet.blocksFor64, List.length_map, List.length_range, List.length_map, whole]
  · intro blockID low high
    rw [Packet.blocksFor64, List.length_map] at high
    have all := p.blocks[blockID].whole
    obtain ⟨first, second, -, -⟩ := head_bytes p.blocks[blockID]
    have complete : p.blocks[blockID].returns.take 32 = p.blocks[blockID].returns :=
      List.take_of_length_le (by omega)
    have flag : byteAt p.payload (100 * blockID) = byteAt p.blocks[blockID].bytes 0 :=
      byteAt_payload high (j := 0) (by omega)
    simp only [HDL64E.blocksOf, Packet.blocksFor64, List.getElem_map, List.getElem_range,
      HDL64E.blockOf, headAzimuth_payload high, flag, byteAt_payload high (j := 1) (by omega), first,
      second, ntohs_bytes (UInt16.toNat_lt _), List.drop_zero, complete,
      blockReturns_payload high 0 32 (by omega)]

variable {q : Packet}

theorem blocksFor_congr (m : Device) (same : p.readings = q.readings) :
    p.blocksFor m = q.blocksFor m := by
  have each : ∀ p : Packet, p.blocksFor m = p.readings.mapIdx fun blockID b =>
      if m.interpolates then
        { azimuth := if blockID = 0 then some ((b.1.toNat : ℚ) / 100) else none
          first := b.2.take 16
          second := some (p.readings[blockID + 1]?.map fun b => (b.1.toNat : ℚ) / 100, b.2.drop 16) }
      else { azimuth := some ((b.1.toNat : ℚ) / 100), first := b.2, second := none } := by
    intro p
    apply List.ext_getElem
    · rw [Packet.blocksFor, Packet.readings, List.length_mapIdx, List.length_mapIdx, List.length_map]
    · intro blockID low high
      simp only [Packet.blocksFor, Packet.readings, List.getElem_mapIdx, List.getElem_map,
        List.getElem?_map, Option.map_map]
      rfl
  rw [each, each, same]

theorem blocksFor64_congr (same : p.readings64 = q.readings64) :
    p.blocksFor64 = q.blocksFor64 := by
  have each : ∀ p : Packet, p.blocksFor64 = p.readings64.map fun b =>
      { upperBlock := b.1, azimuth := (b.2.1.toNat : ℚ) / 100, returns := b.2.2 } := by
    intro p
    rw [Packet.blocksFor64, Packet.readings64, List.map_map]
    rfl
  rw [each, each, same]

/-- What follows from a key follows from a list of keys. -/
theorem map_eq_of_keys {α β γ : Type} {key : α → β} {f : α → γ} {xs ys : List α}
    (determines : ∀ x y, key x = key y → f x = f y) (same : xs.map key = ys.map key) :
    xs.map f = ys.map f := by
  induction xs generalizing ys with
  | nil =>
    rw [List.map_nil, eq_comm, List.map_eq_nil_iff] at same
    rw [same]
  | cons x xs ih =>
    cases ys with
    | nil => cases same
    | cons y ys =>
      obtain ⟨head, rest⟩ := List.cons.inj same
      rw [List.map_cons, List.map_cons, determines x y head, ih rest]

end Format

/-- The payloads that are not ignored are those of the packets, one packet each, and the
decoders do with the bytes what they do with the blocks of the packet. -/
theorem payload_format :
    (∀ payload : Bytes, payload.length = 1206 ↔ ∃! p : Packet, p.payload = payload) ∧
    (∀ (maths : Maths) (m : Device) (g : Settings) (p : Packet) (d : Decoder),
      nextString maths m g p.payload d =
        some ((p.blocksFor m).foldl (fun d b => takeBlock maths m g b d) d)) ∧
    ∀ (maths : Maths) (calibration : HDL64E.Calibration) (isValid : Bool) (p : Packet)
      (d : HDL64E.Decoder), HDL64E.nextString maths calibration isValid p.payload d =
        some (p.blocksFor64.foldl
          (fun d b => HDL64E.takeBlock maths calibration isValid b d) d) := by
  refine ⟨fun payload => ⟨fun length => ?_, ?_⟩, ?_, ?_⟩
  · refine ⟨packetIn payload length, payload_packetIn payload length, ?_⟩
    rintro p rfl
    exact (packetIn_payload p).symm
  · rintro ⟨p, rfl, -⟩
    exact length_payload p
  · intro maths m g p d
    rw [nextString_eq (length_payload p), blocksOf_payload]
  · intro maths calibration isValid p d
    rw [HDL64E.nextString_eq (length_payload p), blocksOf64_payload]

/-- Recordings that agree in what the decoders see, whatever the other bytes are. -/
theorem run_readings (ps qs : List Packet) :
    (ps.map Packet.readings = qs.map Packet.readings →
      ∀ (maths : Maths) (m : Device) (g : Settings) (d : Decoder),
        run maths m g d (ps.map Packet.payload) = run maths m g d (qs.map Packet.payload)) ∧
    (ps.map Packet.readings64 = qs.map Packet.readings64 →
      ∀ (maths : Maths) (calibration : HDL64E.Calibration) (isValid : Bool) (d : HDL64E.Decoder),
        HDL64E.run maths calibration isValid d (ps.map Packet.payload) =
          HDL64E.run maths calibration isValid d (qs.map Packet.payload)) := by
  have whole : ∀ ps : List Packet, ∀ payload ∈ ps.map Packet.payload, payload.length = 1206 := by
    intro ps payload there
    obtain ⟨p, -, rfl⟩ := List.mem_map.mp there
    exact length_payload p
  constructor
  · intro same maths m g d
    have blocks := map_eq_of_keys (fun p q => blocksFor_congr m) same
    have bytes : ∀ ps : List Packet, (ps.map Packet.payload).flatMap (blocksOf m) =
        (ps.map (Packet.blocksFor m)).flatten := by
      intro ps
      rw [List.flatMap_def, List.map_map]
      exact congrArg _ (List.map_congr_left fun p _ => blocksOf_payload m p)
    rw [run_eq _ (whole ps), run_eq _ (whole qs), bytes, bytes, blocks]
  · intro same maths calibration isValid d
    have blocks := map_eq_of_keys (fun p q => blocksFor64_congr) same
    have bytes : ∀ ps : List Packet, (ps.map Packet.payload).flatMap HDL64E.blocksOf =
        (ps.map Packet.blocksFor64).flatten := by
      intro ps
      rw [List.flatMap_def, List.map_map]
      exact congrArg _ (List.map_congr_left fun p _ => blocksOf64_payload p)
    rw [HDL64E.run_eq _ (whole ps), HDL64E.run_eq _ (whole qs), bytes, bytes, blocks]

/-- A packet of equal blocks. -/
def evenPacket (flag azimuth : UInt16) (r : Return) (tail : UInt8) : Packet where
  blocks := List.replicate 12 ⟨flag, azimuth, List.replicate 32 r, List.length_replicate⟩
  whole := List.length_replicate
  tail := List.replicate 6 tail
  six := List.length_replicate

/-- Without the flags and with another end. -/
theorem run_readings_flags :
    (∀ (maths : Maths) (m : Device) (g : Settings) (d : Decoder),
      run maths m g d [(evenPacket 0xeeff 9000 ⟨208, 7, 9⟩ 0).payload] =
        run maths m g d [(evenPacket 0 9000 ⟨208, 7, 9⟩ 255).payload]) ∧
    ∀ (maths : Maths) (calibration : HDL64E.Calibration) (isValid : Bool) (d : HDL64E.Decoder),
      HDL64E.run maths calibration isValid d [(evenPacket 0xeeff 9000 ⟨208, 7, 9⟩ 0).payload] =
        HDL64E.run maths calibration isValid d [(evenPacket 0 9000 ⟨208, 7, 9⟩ 255).payload] :=
  have runs := run_readings [evenPacket 0xeeff 9000 ⟨208, 7, 9⟩ 0] [evenPacket 0 9000 ⟨208, 7, 9⟩ 255]
  ⟨runs.1 rfl, runs.2 rfl⟩

end OpendlvCore.Velodyne
