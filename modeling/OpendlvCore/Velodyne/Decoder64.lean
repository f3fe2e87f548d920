import OpendlvCore.Velodyne.SharedClouds

/-!
# `Velodyne64Decoder`

A block belongs to the upper or the lower 32 sensors and has an azimuth of its own; all
points go to the shared memory. `float` is exact, as for the other two decoders.
-/
namespace OpendlvCore.Velodyne.HDL64E
open CBytes

/-- The correction values of the calibration file, for each sensor. -/
structure Calibration where
  rotCorrection : Nat → ℚ
  vertCorrection : Nat → ℚ
  distCorrection : Nat → ℚ
  vertOffsetCorrection : Nat → ℚ
  horizOffsetCorrection : Nat → ℚ

/-- `m_pointIndex`, `m_startID` and `m_segment` are the `segment`. -/
structure Decoder where
  previousAzimuth : ℚ := 0
  upperBlock : Bool := true
  segment : Segment ℚ
  sent : List SharedPointCloud := []

def MAX_POINT_SIZE : Nat := 101000

def fresh (memory : Nat → ℚ) : Decoder := { segment := { memory } }

def toRadian (maths : Maths) (angle : ℚ) : ℚ := angle * maths.toRadian

/-- Update the shared point cloud when a complete scan is completed. -/
def sendSharedPointCloud (isValid : Bool) (oldAzimuth newAzimuth : ℚ) (d : Decoder) : Decoder :=
  if newAzimuth < oldAzimuth then
    { d with
      sent :=
        if isValid then d.sent ++ [{ width := d.segment.pointIndex, memory := d.segment.memory }]
        else d.sent
      segment := d.segment.restart }
  else d

section Returns
variable (maths : Maths) (calibration : Calibration)

def distanceOf (sensorID dataValue : Nat) : ℚ :=
  (dataValue : ℚ) * (2 / 10) / 100 + calibration.distCorrection sensorID / 100

/-- The coordinates of a point. -/
def pointAt (azimuth : ℚ) (sensorID : Nat) (distance : ℚ) (intensity : UInt8) : Point ℚ :=
  let xyDistance := distance * maths.cos (toRadian maths (calibration.vertCorrection sensorID))
  let angle := toRadian maths (azimuth - calibration.rotCorrection sensorID)
  let horizOffset := calibration.horizOffsetCorrection sensorID / 100
  { first := xyDistance * maths.sin angle - horizOffset * maths.cos angle
    second := xyDistance * maths.cos angle + horizOffset * maths.sin angle
    third := distance * maths.sin (toRadian maths (calibration.vertCorrection sensorID)) +
      calibration.vertOffsetCorrection sensorID / 100
    intensity := intensity.toNat }

def sensorOf (upperBlock : Bool) (counter : Nat) : Nat :=
  if upperBlock then counter else counter + 32

/-- One pass of the loop over the 32 returns, up to the test for the `break`. -/
def decodeReturn (payload : Bytes) (azimuth : ℚ) (counter position : Nat) (d : Decoder) :
    Option Decoder := do
  let sensorID := sensorOf d.upperBlock counter
  let firstByte ← payload[position]?
  let secondByte ← payload[position + 1]?
  let distance :=
    distanceOf calibration sensorID (ntohs (firstByte.toNat * 256 + secondByte.toNat))
  if distance > 1 then do
    let intensity ← payload[position + 2]?
    pure { d with
      segment := d.segment.put (pointAt maths calibration azimuth sensorID distance intensity) }
  else pure d

/-- The loop over the returns; also the position behind it. -/
def decodeReturns (payload : Bytes) (azimuth : ℚ) :
    List Nat → Nat → Decoder → Option (Nat × Decoder)
  | [], position, d => some (position, d)
  | counter :: rest, position, d => do
    let d ← decodeReturn maths calibration payload azimuth counter position d
    let position := position + 3
    if MAX_POINT_SIZE ≤ d.segment.pointIndex then return (position + 3 * (31 - counter), d)
    else decodeReturns payload azimuth rest position d

variable (isValid : Bool)

def decodeBlock (payload : Bytes) (position : Nat) (d : Decoder) : Option (Nat × Decoder) := do
  let firstByte ← payload[position]?
  let secondByte ← payload[position + 1]?
  let upperBlock := ntohs (firstByte.toNat * 256 + secondByte.toNat) != 0xddff
  let azimuth ← azimuthAt payload (position + 2)
  let d := sendSharedPointCloud isValid d.previousAzimuth azimuth { d with upperBlock }
  let d := { d with previousAzimuth := azimuth }
  let position := position + 4
  if d.segment.pointIndex < MAX_POINT_SIZE then
    decodeReturns maths calibration payload azimuth (List.range 32) position d
  else return (position + 96, d)

/-- The loop over the blocks. -/
def decodeBlocks (payload : Bytes) : Nat → Nat → Decoder → Option (Nat × Decoder)
  | 0, position, d => some (position, d)
  | count + 1, position, d => do
    let (position, d) ← decodeBlock maths calibration isValid payload position d
    decodeBlocks payload count position d

def nextString (payload : Bytes) (d : Decoder) : Option Decoder :=
  if payload.length = 1206 then
    (decodeBlocks maths calibration isValid payload 12 0 d).map Prod.snd
  else some d

/-- One packet after the other; `none` when an exception is thrown. -/
def run (d : Decoder) : List Bytes → Option Decoder
  | [] => some d
  | payload :: payloads =>
    (nextString maths calibration isValid payload d).bind fun d => run d payloads

end Returns

/-! ## Blocks -/

/-- A block as the decoder sees it. -/
structure Block where
  upperBlock : Bool
  azimuth : ℚ
  returns : List Return

def blockOf (payload : Bytes) (index : Nat) : Block where
  upperBlock := ntohs ((byteAt payload (100 * index)).toNat * 256 +
    (byteAt payload (100 * index + 1)).toNat) != 0xddff
  azimuth := headAzimuth payload index
  returns := blockReturns payload index 0 32

def blocksOf (payload : Bytes) : List Block := (List.range 12).map (blockOf payload)

section Steps
variable (maths : Maths) (calibration : Calibration)

/-- What is stored for a return: nothing up to 1 m. -/
def pointOf (azimuth : ℚ) (sensorID : Nat) (r : Return) : Option (Point ℚ) :=
  let distance := distanceOf calibration sensorID r.raw
  if distance > 1 then some (pointAt maths calibration azimuth sensorID distance r.thirdByte)
  else none

def storeReturns (upperBlock : Bool) (azimuth : ℚ) : Nat → List Return → Segment ℚ → Segment ℚ
  | _, [], s => s
  | counter, r :: rest, s =>
    let s := s.store MAX_POINT_SIZE (pointOf maths calibration azimuth (sensorOf upperBlock counter) r)
    storeReturns upperBlock azimuth (counter + 1) rest s

def takeBlock (isValid : Bool) (b : Block) (d : Decoder) : Decoder :=
  let d := sendSharedPointCloud isValid d.previousAzimuth b.azimuth { d with upperBlock := b.upperBlock }
  { d with
    previousAzimuth := b.azimuth
    segment := storeReturns maths calibration b.upperBlock b.azimuth 0 b.returns d.segment }

end Steps

section Reading
variable {maths : Maths} {calibration : Calibration} {isValid : Bool} {payload : Bytes}
  {index : Nat} {d : Decoder}

variable (maths calibration) in
/-- One return, where the memory is not full. -/
theorem decodeReturn_eq (length : payload.length = 1206) (b : index < 12) {counter : Nat}
    (c : counter < 32) (azimuth : ℚ) (space : d.segment.pointIndex < MAX_POINT_SIZE) :
    decodeReturn maths calibration payload azimuth counter (100 * index + 4 + 3 * counter) d =
      some { d with
        segment := d.segment.store MAX_POINT_SIZE
          (pointOf maths calibration azimuth (sensorOf d.upperBlock counter)
            (blockReturn payload index counter)) } := by
  have second : 100 * index + 4 + 3 * counter + 1 = 100 * index + 5 + 3 * counter := by omega
  have third : 100 * index + 4 + 3 * counter + 2 = 100 * index + 6 + 3 * counter := by omega
  rw [decodeReturn, second, third, getElem?_byteAt (by omega), getElem?_byteAt (by omega),
    getElem?_byteAt (by omega), pointOf]
  simp only [Option.bind_eq_bind, Option.bind_some, Option.pure_def]
  split
  · rename_i far
    have stored : distanceOf calibration (sensorOf d.upperBlock counter)
        (blockReturn payload index counter).raw > 1 := far
    simp only [if_pos stored, Segment.store_some space]
    rfl
  · rename_i near
    have ignored : ¬ distanceOf calibration (sensorOf d.upperBlock counter)
        (blockReturn payload index counter).raw > 1 := near
    simp only [if_neg ignored, Segment.store_none]

theorem storeReturns_of_full {s : Segment ℚ} (full : MAX_POINT_SIZE ≤ s.pointIndex)
    (upperBlock : Bool) (azimuth : ℚ) (counter : Nat) (returns : List Return) :
    storeReturns maths calibration upperBlock azimuth counter returns s = s := by
  induction returns generalizing counter with
  | nil => rfl
  | cons r rest ih =>
    rw [storeReturns, Segment.store_of_full full]
    exact ih (counter + 1)

variable (maths calibration) in
/-- The returns of a block; after the `break` there is nothing left to store. -/
theorem decodeReturns_eq (length : payload.length = 1206) (b : index < 12) (azimuth : ℚ)
    (count counter : Nat) (d : Decoder) (ends : counter + count = 32)
    (space : d.segment.pointIndex < MAX_POINT_SIZE) :
    decodeReturns maths calibration payload azimuth (List.range' counter count)
        (100 * index + 4 + 3 * counter) d =
      some (100 * (index + 1), { d with
        segment := storeReturns maths calibration d.upperBlock azimuth counter
          (blockReturns payload index counter count) d.segment }) := by
  induction count generalizing counter d with
  | zero =>
    have behind : 100 * index + 4 + 3 * counter = 100 * (index + 1) := by omega
    rw [behind]
    rfl
  | succ count ih =>
    have here : counter < 32 := by omega
    have one := decodeReturn_eq maths calibration length b here azimuth
      space
    rw [List.range'_succ, decodeReturns, one, blockReturns_succ, storeReturns]
    simp only [Option.bind_eq_bind, Option.bind_some, Option.pure_def]
    generalize stored : d.segment.store MAX_POINT_SIZE (pointOf maths calibration azimuth
      (sensorOf d.upperBlock counter) (blockReturn payload index counter)) = s
    by_cases full : MAX_POINT_SIZE ≤ s.pointIndex
    · have behind : 100 * index + 4 + 3 * counter + 3 + 3 * (31 - counter) = 100 * (index + 1) := by
        omega
      rw [if_pos full, storeReturns_of_full full, behind]
    · have next : 100 * index + 4 + 3 * counter + 3 = 100 * index + 4 + 3 * (counter + 1) := by omega
      rw [if_neg full, next]
      exact ih (counter + 1) { d with segment := s } (by omega) (Nat.lt_of_not_le full)

/-- A block is read to its end, whichever path is taken. -/
theorem decodeBlock_eq (length : payload.length = 1206) (b : index < 12) (d : Decoder) :
    decodeBlock maths calibration isValid payload (100 * index) d =
      some (100 * (index + 1), takeBlock maths calibration isValid (blockOf payload index) d) := by
  have azimuth : azimuthAt payload (100 * index + 2) = some (headAzimuth payload index) :=
    azimuthAt_eq (by omega)
  rw [decodeBlock, getElem?_byteAt (by omega), getElem?_byteAt (by omega), azimuth]
  simp only [Option.bind_eq_bind, Option.bind_some, Option.pure_def]
  generalize started : sendSharedPointCloud isValid d.previousAzimuth (headAzimuth payload index)
    { d with upperBlock := (blockOf payload index).upperBlock } = e
  have upper : e.upperBlock = (blockOf payload index).upperBlock := by
    rw [← started, sendSharedPointCloud]
    split <;> rfl
  have taken : takeBlock maths calibration isValid (blockOf payload index) d =
      { e with
        previousAzimuth := headAzimuth payload index
        segment := storeReturns maths calibration (blockOf payload index).upperBlock
          (headAzimuth payload index) 0 (blockReturns payload index 0 32) e.segment } := by
    rw [← started]
    rfl
  have entered : sendSharedPointCloud isValid d.previousAzimuth (headAzimuth payload index)
      { d with upperBlock := ntohs ((byteAt payload (100 * index)).toNat * 256 +
        (byteAt payload (100 * index + 1)).toNat) != 0xddff } = e := started
  rw [taken, entered, ← upper]
  by_cases space : e.segment.pointIndex < MAX_POINT_SIZE
  · have returns := decodeReturns_eq maths calibration length b (headAzimuth payload index) 32 0
      { e with previousAzimuth := headAzimuth payload index } rfl space
    rw [if_pos space, List.range_eq_range']
    exact returns
  · have skipped : 100 * index + 4 + 96 = 100 * (index + 1) := by omega
    rw [if_neg space, storeReturns_of_full (Nat.le_of_not_lt space), skipped]

theorem nextString_eq (length : payload.length = 1206) (d : Decoder) :
    nextString maths calibration isValid payload d =
      some ((blocksOf payload).foldl (fun d b => takeBlock maths calibration isValid b d) d) := by
  have loop : ∀ count index d, index + count ≤ 12 →
      decodeBlocks maths calibration isValid payload count (100 * index) d =
        some (100 * (index + count), ((List.range' index count).map (blockOf payload)).foldl
          (fun d b => takeBlock maths calibration isValid b d) d) := by
    intro count
    induction count with
    | zero => exact fun index d _ => rfl
    | succ count ih =>
      intro index d inside
      have rest := ih (index + 1) (takeBlock maths calibration isValid (blockOf payload index) d)
        (by omega)
      rw [decodeBlocks, decodeBlock_eq length (by omega)]
      change decodeBlocks maths calibration isValid payload count (100 * (index + 1))
        (takeBlock maths calibration isValid (blockOf payload index) d) = _
      rw [rest, Nat.add_assoc, Nat.add_comm 1 count]
      rfl
  have whole := loop 12 0 d (Nat.le_refl _)
  rw [← List.range_eq_range'] at whole
  rw [nextString, if_pos length, whole]
  rfl

/-- A run over whole packets throws no exception and acts like the blocks of the packets. -/
theorem run_eq (payloads : List Bytes) (length : ∀ payload ∈ payloads, payload.length = 1206)
    (d : Decoder) :
    run maths calibration isValid d payloads =
      some ((payloads.flatMap blocksOf).foldl
        (fun d b => takeBlock maths calibration isValid b d) d) := by
  induction payloads generalizing d with
  | nil => rfl
  | cons payload payloads ih =>
    rw [run, nextString_eq (length payload List.mem_cons_self), Option.bind_some,
      ih (fun other there => length other (List.mem_cons_of_mem _ there)), List.flatMap_cons,
      List.foldl_append]

end Reading

end OpendlvCore.Velodyne.HDL64E
