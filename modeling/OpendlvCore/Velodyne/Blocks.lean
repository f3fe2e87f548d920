import OpendlvCore.Velodyne.Decoder

/-!
# A packet as a list of blocks

Every read position follows from the numbers of the block and the return, on the full, the
broken off and the skipped path alike. So no read leaves the payload, and a packet acts
like its blocks, each a list of returns.
-/
namespace OpendlvCore.Velodyne
open CBytes

/-- A block as the decoder sees it. -/
structure Block where
  /-- The azimuth at the head, unless it is taken from the block before. -/
  azimuth : Option ℚ
  /-- The returns of the first firing. -/
  first : List Return
  /-- The azimuth of the next block and the returns of the second firing, where there is one. -/
  second : Option (Option ℚ × List Return)

def byteAt (payload : Bytes) (position : Nat) : UInt8 := payload.getD position 0

def headAzimuth (payload : Bytes) (blockID : Nat) : ℚ :=
  azimuthOf (byteAt payload (100 * blockID + 2)) (byteAt payload (100 * blockID + 3))

/-- The three bytes of one return of a block. -/
def blockReturn (payload : Bytes) (blockID counter : Nat) : Return where
  firstByte := byteAt payload (100 * blockID + 4 + 3 * counter)
  secondByte := byteAt payload (100 * blockID + 5 + 3 * counter)
  thirdByte := byteAt payload (100 * blockID + 6 + 3 * counter)

def blockReturns (payload : Bytes) (blockID start count : Nat) : List Return :=
  (List.range' start count).map (blockReturn payload blockID)

def blockOf (m : Device) (payload : Bytes) (blockID : Nat) : Block :=
  if m.interpolates then
    { azimuth := if blockID = 0 then some (headAzimuth payload blockID) else none
      first := blockReturns payload blockID 0 16
      second := some (if blockID < 11 then some (headAzimuth payload (blockID + 1)) else none,
        blockReturns payload blockID 16 16) }
  else
    { azimuth := some (headAzimuth payload blockID)
      first := blockReturns payload blockID 0 32
      second := none }

def blocksOf (m : Device) (payload : Bytes) : List Block := (List.range 12).map (blockOf m payload)

section Steps
variable (maths : Maths) (m : Device) (g : Settings)

/-- The returns of one firing, from the sensor `sensorID` on, up to a `break`. -/
def storeFiring : Nat → List Return → Decoder → Decoder
  | _, [], d => d
  | sensorID, r :: rest, d =>
    let d := storeReturn maths m g sensorID r d
    if full m g d then d else storeFiring (sensorID + 1) rest d

/-- The condition under which a block is decoded. -/
def room (d : Decoder) : Prop :=
  d.spc.pointIndex < m.MAX_POINT_SIZE ∨ d.cpc.pointIndex < m.MAX_POINT_SIZE

instance (d : Decoder) : Decidable (room m d) := inferInstanceAs (Decidable (_ ∨ _))

/-- The firings of a block. -/
def takeReturns (b : Block) (d : Decoder) : Decoder :=
  let d := storeFiring maths m g 0 b.first d
  match b.second with
  | none => d
  | some (next, returns) =>
    if full m g d then d else storeFiring maths m g 0 returns (interpolate m g next d)

def takeBlock (b : Block) (d : Decoder) : Decoder :=
  let d := startBlock m g b.azimuth d
  if room m d then takeReturns maths m g b d else d

end Steps

section Reading
variable {maths : Maths} {m : Device} {g : Settings} {payload : Bytes} {blockID : Nat} {d : Decoder}

theorem getElem?_byteAt {position : Nat} (inside : position < payload.length) :
    payload[position]? = some (byteAt payload position) := by
  rw [byteAt, List.getD_eq_getElem?_getD, List.getElem?_eq_getElem inside]
  rfl

theorem azimuthAt_eq {position : Nat} (inside : position + 1 < payload.length) :
    azimuthAt payload position =
      some (azimuthOf (byteAt payload position) (byteAt payload (position + 1))) := by
  rw [azimuthAt, getElem?_byteAt (by omega), getElem?_byteAt inside]
  rfl

theorem returnAt_eq {position counter : Nat} (length : payload.length = 1206) (b : blockID < 12)
    (c : counter < 32) (here : position = 100 * blockID + 4 + 3 * counter) :
    returnAt payload position = some (blockReturn payload blockID counter) := by
  have second : 100 * blockID + 4 + 3 * counter + 1 = 100 * blockID + 5 + 3 * counter := by omega
  have third : 100 * blockID + 4 + 3 * counter + 2 = 100 * blockID + 6 + 3 * counter := by omega
  rw [returnAt, here, second, third, getElem?_byteAt (by omega), getElem?_byteAt (by omega),
    getElem?_byteAt (by omega)]
  rfl

theorem blockReturns_succ (start count : Nat) :
    blockReturns payload blockID start (count + 1) =
      blockReturn payload blockID start :: blockReturns payload blockID (start + 1) count := rfl

variable (maths m g) in
/-- One return where nothing is interpolated. -/
theorem decodeReturn_eq (d : Decoder) {position counter sensorID : Nat} (length : payload.length = 1206)
    (b : blockID < 12) (c : counter < 32) (here : position = 100 * blockID + 4 + 3 * counter)
    (plain : ¬ (m.interpolates = true ∧ counter = 16)) (sensor : sensorOf m counter = sensorID) :
    decodeReturn maths m g payload blockID counter position d =
      some (storeReturn maths m g sensorID (blockReturn payload blockID counter) d) := by
  rw [decodeReturn, if_neg plain, returnAt_eq length b c here, sensor]
  rfl

/-- A return behind which the loop is left or goes on. -/
theorem decodeReturns_cons {counter position : Nat} {rest : List Nat} {d' : Decoder}
    (c : counter < 32) (here : position = 100 * blockID + 4 + 3 * counter)
    (one : decodeReturn maths m g payload blockID counter position d = some d') :
    decodeReturns maths m g payload blockID (counter :: rest) position d =
      if full m g d' then some (100 * (blockID + 1), d')
      else decodeReturns maths m g payload blockID rest (position + 3) d' := by
  have behind : position + 3 + 3 * (31 - counter) = 100 * (blockID + 1) := by omega
  rw [decodeReturns, one]
  change (if full m g d' then some (position + 3 + 3 * (31 - counter), d')
    else decodeReturns maths m g payload blockID rest (position + 3) d') = _
  rw [behind]

variable (maths m g) in
/-- The returns of one firing where nothing is interpolated. -/
theorem decodeReturns_firing (length : payload.length = 1206) (b : blockID < 12)
    (rest : List Nat) (count start sensorID position : Nat) (d : Decoder)
    (inside : start + count ≤ 32) (here : position = 100 * blockID + 4 + 3 * start)
    (plain : ∀ c, start ≤ c → c < start + count →
      ¬ (m.interpolates = true ∧ c = 16) ∧ sensorOf m c + start = sensorID + c)
    (going : count ≠ 0 ∨ full m g d = false) :
    decodeReturns maths m g payload blockID (List.range' start count ++ rest) position d =
      let d := storeFiring maths m g sensorID (blockReturns payload blockID start count) d
      if full m g d then some (100 * (blockID + 1), d)
      else decodeReturns maths m g payload blockID rest (position + 3 * count) d := by
  induction count generalizing start sensorID position d with
  | zero =>
    have going : full m g d = false := by simpa using going
    simp [storeFiring, blockReturns, going]
  | succ count ih =>
    have c : start < 32 := by omega
    obtain ⟨ordinary, sensor⟩ := plain start (Nat.le_refl _) (by omega)
    have one := decodeReturn_eq maths m g d length b c here ordinary
      (show sensorOf m start = sensorID by omega)
    rw [List.range'_succ, List.cons_append, decodeReturns_cons c here one, blockReturns_succ,
      storeFiring]
    by_cases broken : full m g
        (storeReturn maths m g sensorID (blockReturn payload blockID start) d) = true
    · simp only [if_pos broken]
    · simp only [if_neg broken]
      rw [ih (start + 1) (sensorID + 1) (position + 3) _ (by omega) (by omega) ?_ ?_]
      · have ending : position + 3 + 3 * count = position + 3 * (count + 1) := by omega
        rw [ending]
      · intro c low high
        obtain ⟨ordinary, sensor⟩ := plain c (by omega) (by omega)
        exact ⟨ordinary, by omega⟩
      · right
        simpa using broken

/-- The second firing, whose first return comes with the interpolation. -/
theorem decodeReturns_second (length : payload.length = 1206) (b : blockID < 12)
    (interpolates : m.interpolates = true) (d : Decoder) :
    decodeReturns maths m g payload blockID (List.range' 16 16) (100 * blockID + 52) d =
      some (100 * (blockID + 1), storeFiring maths m g 0 (blockReturns payload blockID 16 16)
        (interpolate m g
          (if blockID < 11 then some (headAzimuth payload (blockID + 1)) else none) d)) := by
  have one : decodeReturn maths m g payload blockID 16 (100 * blockID + 52) d =
      some (storeReturn maths m g 0 (blockReturn payload blockID 16) (interpolate m g
        (if blockID < 11 then some (headAzimuth payload (blockID + 1)) else none) d)) := by
    have sensor : sensorOf m 16 = 0 := by simp [sensorOf, interpolates]
    have read : returnAt payload (100 * blockID + 52) = some (blockReturn payload blockID 16) :=
      returnAt_eq length b (by omega) (by omega)
    rw [decodeReturn, if_pos ⟨interpolates, rfl⟩, read, sensor]
    by_cases next : blockID < 11
    · have ahead : azimuthAt payload (100 * blockID + 52 + 50) =
          some (headAzimuth payload (blockID + 1)) := by
        have low : 100 * blockID + 52 + 50 = 100 * (blockID + 1) + 2 := by omega
        rw [low, azimuthAt_eq (by omega)]
        rfl
      simp only [if_pos next, ahead, Option.bind_eq_bind, Option.bind_some, Option.pure_def]
    · simp only [if_neg next, Option.bind_eq_bind, Option.bind_some, Option.pure_def]
  have others : ∀ d, full m g d = false → decodeReturns maths m g payload blockID
      (List.range' 17 15) (100 * blockID + 55) d =
        some (100 * (blockID + 1), storeFiring maths m g 1 (blockReturns payload blockID 17 15) d) := by
    intro d going
    have fifteen := decodeReturns_firing maths m g length b [] 15 17 1
      (100 * blockID + 55) d (by omega) (by omega) (fun c low high =>
        ⟨by omega, by simp only [sensorOf, interpolates, true_and]; rw [if_pos (by omega)]; omega⟩)
      (.inl (by omega))
    rw [List.append_nil] at fifteen
    rw [fifteen]
    have ending : 100 * blockID + 55 + 3 * 15 = 100 * (blockID + 1) := by omega
    simp only [decodeReturns, ending]
    split <;> rfl
  rw [List.range'_succ, decodeReturns_cons (by omega) (by omega) one, blockReturns_succ, storeFiring]
  by_cases broken : full m g (storeReturn maths m g 0 (blockReturn payload blockID 16) (interpolate m g
      (if blockID < 11 then some (headAzimuth payload (blockID + 1)) else none) d)) = true
  · simp only [if_pos broken]
  · simp only [if_neg broken]
    exact others _ (by simpa using broken)

variable (maths m g) in
/-- The returns of a whole block. -/
theorem decodeReturns_block (length : payload.length = 1206) (b : blockID < 12) (d : Decoder) :
    decodeReturns maths m g payload blockID (List.range 32) (100 * blockID + 4) d =
      some (100 * (blockID + 1), takeReturns maths m g (blockOf m payload blockID) d) := by
  rw [List.range_eq_range', takeReturns]
  cases interpolates : m.interpolates with
  | true =>
    have first := decodeReturns_firing maths m g length b
      (List.range' 16 16) 16 0 0 (100 * blockID + 4) d (by omega) (by omega)
      (fun c low high => ⟨by omega, by simp only [sensorOf]; rw [if_neg (by omega)]; omega⟩)
      (.inl (by omega))
    have split : List.range' 0 32 = List.range' 0 16 ++ List.range' 16 16 := by decide
    have middle : 100 * blockID + 4 + 3 * 16 = 100 * blockID + 52 := by omega
    rw [split, first, middle]
    simp only [decodeReturns_second length b interpolates, blockOf, interpolates, if_true]
    split <;> rfl
  | false =>
    have whole := decodeReturns_firing maths m g length b [] 32 0 0
      (100 * blockID + 4) d (by omega) (by omega)
      (fun c low high => ⟨by simp [interpolates], by simp [sensorOf, interpolates]⟩) (.inl (by omega))
    have ending : 100 * blockID + 4 + 3 * 32 = 100 * (blockID + 1) := by omega
    rw [List.append_nil, ending] at whole
    rw [whole]
    simp only [decodeReturns, blockOf, interpolates, Bool.false_eq_true, if_false]
    split <;> rfl

/-- A block is read to its end, whichever path is taken. -/
theorem decodeBlock_eq (length : payload.length = 1206) (b : blockID < 12) (d : Decoder) :
    decodeBlock maths m g payload blockID (100 * blockID) d =
      some (100 * (blockID + 1), takeBlock maths m g (blockOf m payload blockID) d) := by
  have skipped : 100 * blockID + 2 + 2 + 96 = 100 * (blockID + 1) := by omega
  have body : ∀ d, (if d.spc.pointIndex < m.MAX_POINT_SIZE ∨ d.cpc.pointIndex < m.MAX_POINT_SIZE then
        decodeReturns maths m g payload blockID (List.range 32) (100 * blockID + 4) d
      else some (100 * blockID + 2 + 2 + 96, d)) = some (100 * (blockID + 1),
        if room m d then takeReturns maths m g (blockOf m payload blockID) d else d) := by
    intro d
    by_cases space : room m d
    · have taken := decodeReturns_block maths m g length b d
      exact (if_pos space).trans (taken.trans (by rw [if_pos space]))
    · exact (if_neg space).trans (by rw [if_neg space, skipped])
  by_cases interpolated : m.interpolates = true ∧ blockID ≠ 0
  · have azimuth : (blockOf m payload blockID).azimuth = none := by
      simp [blockOf, interpolated.1, interpolated.2]
    rw [decodeBlock, if_pos interpolated, takeBlock, azimuth]
    exact body _
  · have azimuth : (blockOf m payload blockID).azimuth = some (headAzimuth payload blockID) := by
      rw [not_and, not_not] at interpolated
      rw [blockOf]
      split
      · rename_i interpolates
        exact if_pos (interpolated interpolates)
      · rfl
    have read : azimuthAt payload (100 * blockID + 2) = some (headAzimuth payload blockID) :=
      azimuthAt_eq (by omega)
    rw [decodeBlock, if_neg interpolated, takeBlock, azimuth, read]
    exact body _

theorem nextString_eq (length : payload.length = 1206) (d : Decoder) :
    nextString maths m g payload d =
      some ((blocksOf m payload).foldl (fun d b => takeBlock maths m g b d) d) := by
  have loop : ∀ count start d, start + count ≤ 12 →
      decodeBlocks maths m g payload (List.range' start count) (100 * start) d =
        some (100 * (start + count),
          ((List.range' start count).map (blockOf m payload)).foldl
            (fun d b => takeBlock maths m g b d) d) := by
    intro count
    induction count with
    | zero => exact fun start d _ => rfl
    | succ count ih =>
      intro start d inside
      rw [List.range'_succ, decodeBlocks, decodeBlock_eq length (by omega)]
      have rest := ih (start + 1) (takeBlock maths m g (blockOf m payload start) d) (by omega)
      change decodeBlocks maths m g payload (List.range' (start + 1) count) (100 * (start + 1))
        (takeBlock maths m g (blockOf m payload start) d) = _
      rw [rest, Nat.add_assoc, Nat.add_comm 1 count]
      rfl
  have whole := loop 12 0 d (Nat.le_refl _)
  rw [← List.range_eq_range'] at whole
  rw [nextString, if_pos length, whole]
  rfl

/-- A run over whole packets throws no exception and acts like the blocks of the packets. -/
theorem run_eq (payloads : List Bytes) (length : ∀ payload ∈ payloads, payload.length = 1206)
    (d : Decoder) :
    run maths m g d payloads =
      some ((payloads.flatMap (blocksOf m)).foldl (fun d b => takeBlock maths m g b d) d) := by
  induction payloads generalizing d with
  | nil => rfl
  | cons payload payloads ih =>
    rw [run, nextString_eq (length payload List.mem_cons_self), Option.bind_some,
      ih (fun other there => length other (List.mem_cons_of_mem _ there)), List.flatMap_cons,
      List.foldl_append]

variable (maths m g) in
/-- A payload of another length is ignored. -/
theorem run_filter (payloads : List Bytes) (d : Decoder) :
    run maths m g d payloads =
      run maths m g d (payloads.filter fun payload => payload.length = 1206) := by
  induction payloads generalizing d with
  | nil => rfl
  | cons payload payloads ih =>
    by_cases length : payload.length = 1206
    · rw [List.filter_cons_of_pos (by simpa using length), run, run]
      exact congrArg _ (funext ih)
    · rw [List.filter_cons_of_neg (by simpa using length), run, nextString, if_neg length,
        Option.bind_some, ih]

variable (maths m g) in
theorem run_eq_filter (payloads : List Bytes) (d : Decoder) :
    run maths m g d payloads =
      some (((payloads.filter fun payload => payload.length = 1206).flatMap (blocksOf m)).foldl
        (fun d b => takeBlock maths m g b d) d) := by
  rw [run_filter]
  exact run_eq _ (fun _ there => of_decide_eq_true (List.mem_filter.mp there).2) d

end Reading

/-! ## Packets with equal returns -/

/-- Two packets of equal bytes. -/
theorem length_two_packets :
    ∀ payload ∈ [List.replicate 1206 (255 : UInt8), List.replicate 1206 0],
      payload.length = 1206 := by
  intro payload there
  rcases List.mem_pair.mp there with rfl | rfl <;> exact List.length_replicate

/-- A packet with these azimuths, in hundredths of a degree, and the same return everywhere. -/
def uniformPacket (azimuth : Nat → Nat) (r : Return) : Bytes :=
  (List.range 1206).map fun i =>
    if i % 100 = 0 then 0xFF
    else if i % 100 = 1 then 0xEE
    else if i % 100 = 2 then UInt8.ofNat (azimuth (i / 100) % 256)
    else if i % 100 = 3 then UInt8.ofNat (azimuth (i / 100) / 256)
    else if i % 100 % 3 = 1 then r.firstByte
    else if i % 100 % 3 = 2 then r.secondByte
    else r.thirdByte

/-- The blocks of such a packet. -/
def uniformBlock (m : Device) (azimuth : Nat → Nat) (r : Return) (blockID : Nat) : Block :=
  if m.interpolates then
    { azimuth := if blockID = 0 then some ((azimuth blockID : ℚ) / 100) else none
      first := List.replicate 16 r
      second := some (if blockID < 11 then some ((azimuth (blockID + 1) : ℚ) / 100) else none,
        List.replicate 16 r) }
  else
    { azimuth := some ((azimuth blockID : ℚ) / 100)
      first := List.replicate 32 r
      second := none }

section Uniform
variable {azimuth : Nat → Nat} {r : Return} {blockID : Nat}

/-- An azimuth is read from its two bytes. -/
theorem ntohs_bytes {v : Nat} (low : v < 2 ^ 16) :
    ntohs ((UInt8.ofNat (v % 256)).toNat * 256 + (UInt8.ofNat (v / 256)).toNat) = v := by
  have first : v % 256 % 2 ^ 8 = v % 256 := Nat.mod_mod _ _
  have second : v / 256 % 2 ^ 8 = v / 256 := Nat.mod_eq_of_lt (by omega)
  have low : (v % 256 * 256 + v / 256) % 256 = v / 256 := by omega
  have high : (v % 256 * 256 + v / 256) / 256 = v % 256 := by omega
  rw [UInt8.toNat_ofNat', UInt8.toNat_ofNat', first, second, ntohs, low, high]
  omega

theorem length_uniformPacket (azimuth : Nat → Nat) (r : Return) :
    (uniformPacket azimuth r).length = 1206 := by
  rw [uniformPacket, List.length_map, List.length_range]

theorem byteAt_uniformPacket {i : Nat} (inside : i < 1206) :
    byteAt (uniformPacket azimuth r) i =
      if i % 100 = 0 then 0xFF
      else if i % 100 = 1 then 0xEE
      else if i % 100 = 2 then UInt8.ofNat (azimuth (i / 100) % 256)
      else if i % 100 = 3 then UInt8.ofNat (azimuth (i / 100) / 256)
      else if i % 100 % 3 = 1 then r.firstByte
      else if i % 100 % 3 = 2 then r.secondByte
      else r.thirdByte := by
  rw [byteAt, List.getD_eq_getElem?_getD,
    List.getElem?_eq_getElem (by rwa [length_uniformPacket])]
  simp only [uniformPacket, List.getElem_map, List.getElem_range, Option.getD_some]

theorem encoded_uniformPacket (b : blockID < 12) (low : azimuth blockID < 2 ^ 16) :
    ntohs ((byteAt (uniformPacket azimuth r) (100 * blockID + 2)).toNat * 256 +
      (byteAt (uniformPacket azimuth r) (100 * blockID + 3)).toNat) = azimuth blockID := by
  have second : (100 * blockID + 2) / 100 = blockID := by omega
  have third : (100 * blockID + 3) / 100 = blockID := by omega
  rw [byteAt_uniformPacket (by omega), byteAt_uniformPacket (by omega), if_neg (by omega),
    if_neg (by omega), if_pos (by omega), if_neg (by omega), if_neg (by omega), if_neg (by omega),
    if_pos (by omega), second, third, ntohs_bytes low]

theorem headAzimuth_uniformPacket (b : blockID < 12) (low : azimuth blockID < 2 ^ 16) :
    headAzimuth (uniformPacket azimuth r) blockID = (azimuth blockID : ℚ) / 100 := by
  rw [headAzimuth, azimuthOf, encoded_uniformPacket b low]

theorem blockReturns_uniformPacket (b : blockID < 12) {start count : Nat}
    (inside : start + count ≤ 32) :
    blockReturns (uniformPacket azimuth r) blockID start count = List.replicate count r := by
  rw [List.eq_replicate_iff]
  refine ⟨by rw [blockReturns, List.length_map, List.length_range'], ?_⟩
  intro other there
  obtain ⟨counter, among, rfl⟩ := List.mem_map.mp there
  have high := (List.mem_range'_1.mp among).2
  have first : (100 * blockID + 4 + 3 * counter) % 100 = 4 + 3 * counter := by omega
  have second : (100 * blockID + 5 + 3 * counter) % 100 = 5 + 3 * counter := by omega
  have third : (100 * blockID + 6 + 3 * counter) % 100 = 6 + 3 * counter := by omega
  rw [blockReturn, byteAt_uniformPacket (by omega), byteAt_uniformPacket (by omega),
    byteAt_uniformPacket (by omega), first, second, third,
    if_neg (by omega), if_neg (by omega), if_neg (by omega), if_neg (by omega), if_pos (by omega),
    if_neg (by omega), if_neg (by omega), if_neg (by omega), if_neg (by omega), if_neg (by omega),
    if_pos (by omega), if_neg (by omega), if_neg (by omega), if_neg (by omega), if_neg (by omega),
    if_neg (by omega), if_neg (by omega)]

theorem blocksOf_uniformPacket (m : Device) (low : ∀ blockID < 12, azimuth blockID < 2 ^ 16) :
    blocksOf m (uniformPacket azimuth r) = (List.range 12).map (uniformBlock m azimuth r) := by
  apply List.map_congr_left
  intro blockID there
  have b := List.mem_range.mp there
  rw [blockOf, uniformBlock, headAzimuth_uniformPacket b (low blockID b),
    blockReturns_uniformPacket b (by omega), blockReturns_uniformPacket b (by omega),
    blockReturns_uniformPacket b (by omega)]
  by_cases next : blockID < 11
  · rw [if_pos next, if_pos next, headAzimuth_uniformPacket (by omega) (low _ (by omega))]
  · rw [if_neg next, if_neg next]

end Uniform

end OpendlvCore.Velodyne
