import OpendlvCore.Velodyne.Decoder64

/-!
# Reads inside the payload, writes inside the segment

On the full, the broken off and the skipped path alike the read position follows from the
numbers of the block and the return, and a point is stored only below the maximum.
-/
namespace OpendlvCore.Velodyne
open CBytes

/-- The counter and the index of the next component agree, and whatever the memory held at
first, it still holds outside `m_segment`. -/
structure Segment.Within {α : Type} (max : Nat) (memory : Nat → α) (s : Segment α) : Prop where
  count : s.pointIndex ≤ max
  start : s.startID = 4 * s.pointIndex
  outside : ∀ i, 4 * max ≤ i → s.memory i = memory i

section Memory
variable {α : Type} {max : Nat} {memory : Nat → α} {s : Segment α}

theorem Segment.Within.put (within : s.Within max memory) (room : s.pointIndex < max)
    (p : Point α) : (s.put p).Within max memory where
  count := room
  start := by
    have start := within.start
    simp only [Segment.put, NUMBER_OF_COMPONENTS_PER_POINT]
    omega
  outside i high := by
    have start := within.start
    simp only [Segment.put]
    rw [if_neg (by omega), if_neg (by omega), if_neg (by omega), if_neg (by omega)]
    exact within.outside i high

theorem Segment.Within.store (within : s.Within max memory) (p : Option (Point α)) :
    (s.store max p).Within max memory := by
  by_cases room : s.pointIndex < max
  · cases p with
    | none => simpa only [store_none] using within
    | some p => simpa only [store_some room] using within.put room p
  · simpa only [store_of_full (Nat.le_of_not_lt room)] using within

theorem Segment.Within.restart (within : s.Within max memory) : s.restart.Within max memory :=
  ⟨Nat.zero_le _, rfl, within.outside⟩

theorem Segment.Within.fresh (memory : Nat → α) : Segment.Within max memory { memory } :=
  ⟨Nat.zero_le _, rfl, fun _ _ => rfl⟩

end Memory

/-! ## VLP-16 and HDL-32E -/

/-- Both counters below the maximum, and the segment within its bounds. -/
structure Decoder.Safe (m : Device) (memory : Nat → ℚ) (d : Decoder) : Prop where
  spc : d.spc.Within m.MAX_POINT_SIZE memory
  cpc : d.cpc.pointIndex ≤ m.MAX_POINT_SIZE

section Decoder
variable {maths : Maths} {m : Device} {g : Settings} {memory : Nat → ℚ} {d : Decoder}
  {payload : Bytes} {blockID : Nat}

theorem Decoder.Safe.send (safe : d.Safe m memory) : (sendPointCloud m g d).Safe m memory where
  spc := by
    simp only [sendPointCloud]
    split
    · exact safe.spc.restart
    · exact safe.spc
  cpc := by
    simp only [sendPointCloud]
    split
    · exact Nat.zero_le _
    · exact safe.cpc

theorem Decoder.Safe.same {d' : Decoder} (safe : d.Safe m memory) (same : SameClouds d d') :
    d'.Safe m memory :=
  ⟨by rw [same.spc]; exact safe.spc, by rw [same.cpc]; exact safe.cpc⟩

theorem Decoder.Safe.passes {d' : Decoder} (safe : d.Safe m memory) (passes : Passes m g d d') :
    d'.Safe m memory := by
  rcases passes with same | ⟨e, before, after⟩
  · exact safe.same same
  · exact ((safe.same before).send).same after

/-- One more return is counted at most, and none beyond the maximum. -/
theorem storeCPC_pointIndex_le (sensorID : Nat) (r : Return) (cpc : Compact)
    (below : cpc.pointIndex ≤ m.MAX_POINT_SIZE) :
    (storeCPC m g sensorID r cpc).pointIndex ≤ m.MAX_POINT_SIZE := by
  rw [storeCPC]
  by_cases room : g.withCPC = true ∧ cpc.pointIndex < m.MAX_POINT_SIZE
  · rw [if_pos room]
    by_cases without : g.CPCIntensityOption = 0 ∨ g.CPCIntensityOption = 2
    · have only : g.CPCIntensityOption ≠ 1 := by omega
      simp only [if_pos without]
      split <;> simp only [storeNoIntensity, storeWithIntensity, if_neg only] <;> exact room.2
    · simp only [if_neg without]
      split
      · simp only [storeWithIntensity]
        split
        · exact room.2
        · exact below
      · exact below
  · rw [if_neg room]
    exact below

theorem Decoder.Safe.storeReturn (safe : d.Safe m memory) (sensorID : Nat) (r : Return) :
    (storeReturn maths m g sensorID r d).Safe m memory where
  spc := by
    simp only [Velodyne.storeReturn, storeSPC]
    split
    · exact safe.spc.store _
    · exact safe.spc
  cpc := storeCPC_pointIndex_le sensorID r d.cpc safe.cpc

variable (maths m g) in
/-- A pass of the loop over the returns reads inside the payload. -/
theorem decodeReturn_safe (length : payload.length = 1206) (b : blockID < 12) {counter : Nat}
    (c : counter < 32) (safe : d.Safe m memory) :
    ∃ d', decodeReturn maths m g payload blockID counter (100 * blockID + 4 + 3 * counter) d =
      some d' ∧ d'.Safe m memory := by
  have read := returnAt_eq length b c rfl
  rw [decodeReturn, read]
  by_cases half : m.interpolates = true ∧ counter = 16
  · rw [if_pos half]
    by_cases next : blockID < 11
    · have ahead : 100 * blockID + 4 + 3 * counter + 50 = 100 * (blockID + 1) + 2 := by omega
      rw [if_pos next, ahead, azimuthAt_eq (by omega)]
      exact ⟨_, rfl, (safe.passes (interpolate_passes _ d)).storeReturn _ _⟩
    · rw [if_neg next]
      exact ⟨_, rfl, (safe.passes (interpolate_passes none d)).storeReturn _ _⟩
  · rw [if_neg half]
    exact ⟨_, rfl, safe.storeReturn _ _⟩

variable (maths m g) in
/-- After any number of passes the position is behind the last return, or, after a `break`, behind
the block. -/
theorem decodeReturns_safe (length : payload.length = 1206) (b : blockID < 12) (count counter : Nat)
    (inside : counter + count ≤ 32) (safe : d.Safe m memory) :
    ∃ position d', decodeReturns maths m g payload blockID (List.range' counter count)
        (100 * blockID + 4 + 3 * counter) d = some (position, d') ∧ d'.Safe m memory ∧
      (position = 100 * blockID + 4 + 3 * (counter + count) ∨ position = 100 * (blockID + 1)) := by
  induction count generalizing counter d with
  | zero => exact ⟨_, d, rfl, safe, .inl rfl⟩
  | succ count ih =>
    have c : counter < 32 := by omega
    obtain ⟨d', one, safe⟩ := decodeReturn_safe maths m g length b c safe
    rw [List.range'_succ, decodeReturns_cons c rfl one]
    split
    · exact ⟨_, d', rfl, safe, .inr rfl⟩
    · have ahead : 100 * blockID + 4 + 3 * counter + 3 = 100 * blockID + 4 + 3 * (counter + 1) := by
        omega
      obtain ⟨position, e, rest, safe, behind⟩ := ih (counter + 1) (by omega) safe
      rw [ahead, rest]
      exact ⟨position, e, rfl, safe, by omega⟩

variable (maths m g) in
theorem decodeBlock_safe (length : payload.length = 1206) (b : blockID < 12)
    (safe : d.Safe m memory) :
    ∃ d', decodeBlock maths m g payload blockID (100 * blockID) d =
      some (100 * (blockID + 1), d') ∧ d'.Safe m memory := by
  have behind : 100 * blockID + 4 + 3 * (0 + 32) = 100 * (blockID + 1) := by omega
  have body : ∀ e : Decoder, e.Safe m memory →
      ∃ d', (if e.spc.pointIndex < m.MAX_POINT_SIZE ∨ e.cpc.pointIndex < m.MAX_POINT_SIZE then
          decodeReturns maths m g payload blockID (List.range 32) (100 * blockID + 4) e
        else some (100 * blockID + 2 + 2 + 96, e)) = some (100 * (blockID + 1), d') ∧
        d'.Safe m memory := by
    intro e safe
    split
    · obtain ⟨position, d', returns, safe, places⟩ :=
        decodeReturns_safe maths m g length b 32 0 (Nat.le_refl _) safe
      have place : position = 100 * (blockID + 1) := by omega
      rw [List.range_eq_range']
      exact ⟨d', by rw [← place]; exact returns, safe⟩
    · exact ⟨e, by congr 2, safe⟩
  rw [decodeBlock]
  by_cases interpolated : m.interpolates = true ∧ blockID ≠ 0
  · rw [if_pos interpolated]
    exact body _ (safe.passes (startBlock_passes none d))
  · rw [if_neg interpolated, azimuthAt_eq (by omega)]
    exact body _ (safe.passes (startBlock_passes _ d))

variable (maths m g) in
/-- The first blocks of a packet. -/
theorem decodeBlocks_safe (length : payload.length = 1206) (count start : Nat)
    (inside : start + count ≤ 12) (safe : d.Safe m memory) :
    ∃ d', decodeBlocks maths m g payload (List.range' start count) (100 * start) d =
      some (100 * (start + count), d') ∧ d'.Safe m memory := by
  induction count generalizing start d with
  | zero => exact ⟨d, rfl, safe⟩
  | succ count ih =>
    obtain ⟨e, one, safe⟩ := decodeBlock_safe maths m g length (show start < 12 by omega) safe
    obtain ⟨d', rest, safe⟩ := ih (start + 1) (by omega) safe
    rw [List.range'_succ, decodeBlocks, one]
    refine ⟨d', ?_, safe⟩
    rw [Nat.add_assoc, Nat.add_comm 1 count] at rest
    exact rest

variable (maths m g) in
theorem nextString_safe (payload : Bytes) (safe : d.Safe m memory) :
    ∃ d', nextString maths m g payload d = some d' ∧ d'.Safe m memory := by
  rw [nextString]
  by_cases length : payload.length = 1206
  · obtain ⟨d', blocks, safe⟩ := decodeBlocks_safe maths m g length 12 0 (Nat.le_refl _) safe
    rw [← List.range_eq_range'] at blocks
    rw [if_pos length, blocks]
    exact ⟨d', rfl, safe⟩
  · rw [if_neg length]
    exact ⟨d, rfl, safe⟩

variable (maths m g) in
theorem run_safe (payloads : List Bytes) (safe : d.Safe m memory) :
    ∃ d', run maths m g d payloads = some d' ∧ d'.Safe m memory := by
  induction payloads generalizing d with
  | nil => exact ⟨d, rfl, safe⟩
  | cons payload payloads ih =>
    obtain ⟨e, one, safe⟩ := nextString_safe maths m g payload safe
    obtain ⟨d', rest, safe⟩ := ih safe
    rw [run, one]
    exact ⟨d', rest, safe⟩

theorem fresh_safe (m : Device) (memory : Nat → ℚ) : (fresh memory).Safe m memory :=
  ⟨Segment.Within.fresh memory, Nat.zero_le _⟩

variable (maths m g memory payload blockID d) in
/-- From `d`, a block of the payload starts and ends at its place, within the bounds before,
after and at each return. -/
def BlockSafe : Prop :=
  ∃ before after,
    decodeBlocks maths m g payload (List.range blockID) 0 d = some (100 * blockID, before) ∧
    decodeBlock maths m g payload blockID (100 * blockID) before =
      some (100 * (blockID + 1), after) ∧
    before.Safe m memory ∧ after.Safe m memory ∧
    ∀ azimuth, ∀ count ≤ 32, ∃ position inner,
      decodeReturns maths m g payload blockID (List.range count) (100 * blockID + 4)
        (startBlock m g azimuth before) = some (position, inner) ∧ inner.Safe m memory ∧
      (position = 100 * blockID + 4 + 3 * count ∨ position = 100 * (blockID + 1))

theorem blockSafe (length : payload.length = 1206) (b : blockID < 12) (safe : d.Safe m memory) :
    BlockSafe maths m g memory d payload blockID := by
  obtain ⟨before, blocks, first⟩ :=
    decodeBlocks_safe maths m g length blockID 0 (by omega) safe
  obtain ⟨after, one, last⟩ := decodeBlock_safe maths m g length b first
  rw [← List.range_eq_range', Nat.mul_zero, Nat.zero_add] at blocks
  refine ⟨before, after, blocks, one, first, last, fun azimuth count inside => ?_⟩
  obtain ⟨position, inner, returns, safe, behind⟩ :=
    decodeReturns_safe maths m g length b count 0 (by omega)
      (first.passes (startBlock_passes azimuth before))
  rw [← List.range_eq_range'] at returns
  exact ⟨position, inner, returns, safe, by omega⟩

end Decoder

/-! ## HDL-64E -/

namespace HDL64E
variable {maths : Maths} {calibration : Calibration} {isValid : Bool} {memory : Nat → ℚ}
  {d : Decoder} {payload : Bytes} {index : Nat}

/-- The segment within its bounds. -/
def Decoder.Safe (memory : Nat → ℚ) (d : Decoder) : Prop := d.segment.Within MAX_POINT_SIZE memory

variable (isValid) in
theorem Decoder.Safe.send (safe : d.Safe memory) (oldAzimuth newAzimuth : ℚ) :
    (sendSharedPointCloud isValid oldAzimuth newAzimuth d).Safe memory := by
  rw [sendSharedPointCloud]
  split
  · exact safe.restart
  · exact safe

theorem storeReturns_within {s : Segment ℚ} (within : s.Within MAX_POINT_SIZE memory)
    (upperBlock : Bool) (azimuth : ℚ) (counter : Nat) (returns : List Return) :
    (storeReturns maths calibration upperBlock azimuth counter returns s).Within
      MAX_POINT_SIZE memory := by
  induction returns generalizing counter s with
  | nil => exact within
  | cons r rest ih => exact ih (within.store _) (counter + 1)

variable (maths calibration isValid) in
theorem takeBlock_safe (b : Block) (safe : d.Safe memory) :
    (takeBlock maths calibration isValid b d).Safe memory := by
  have renamed : ({ d with upperBlock := b.upperBlock } : Decoder).Safe memory := safe
  exact storeReturns_within (renamed.send isValid _ _) _ _ _ _

variable (maths calibration) in
/-- There is room before every pass, since the loop breaks off when the memory is full. -/
theorem decodeReturns_safe (length : payload.length = 1206) (b : index < 12) (azimuth : ℚ)
    (count counter : Nat) (inside : counter + count ≤ 32)
    (room : d.segment.pointIndex < MAX_POINT_SIZE) (safe : d.Safe memory) :
    ∃ position d', decodeReturns maths calibration payload azimuth (List.range' counter count)
        (100 * index + 4 + 3 * counter) d = some (position, d') ∧ d'.Safe memory ∧
      (position = 100 * index + 4 + 3 * (counter + count) ∨ position = 100 * (index + 1)) := by
  induction count generalizing counter d with
  | zero => exact ⟨_, d, rfl, safe, .inl rfl⟩
  | succ count ih =>
    have here : counter < 32 := by omega
    have one := decodeReturn_eq maths calibration length b here azimuth room
    rw [List.range'_succ, decodeReturns, one]
    simp only [Option.bind_eq_bind, Option.bind_some, Option.pure_def]
    generalize stored : d.segment.store MAX_POINT_SIZE _ = s
    have within : s.Within MAX_POINT_SIZE memory := by
      rw [← stored]
      exact Segment.Within.store safe _
    by_cases full : MAX_POINT_SIZE ≤ s.pointIndex
    · have behind : 100 * index + 4 + 3 * counter + 3 + 3 * (31 - counter) = 100 * (index + 1) := by
        omega
      rw [if_pos full]
      exact ⟨_, _, rfl, within, .inr behind⟩
    · have next : 100 * index + 4 + 3 * counter + 3 = 100 * index + 4 + 3 * (counter + 1) := by
        omega
      obtain ⟨position, e, rest, safe, behind⟩ := ih (d := { d with segment := s }) (counter + 1)
        (by omega) (Nat.lt_of_not_le full) within
      rw [if_neg full, next, rest]
      exact ⟨position, e, rfl, safe, by omega⟩

variable (maths calibration isValid) in
/-- The first blocks of a packet. -/
theorem decodeBlocks_safe (length : payload.length = 1206) (count start : Nat)
    (inside : start + count ≤ 12) (safe : d.Safe memory) :
    ∃ d', decodeBlocks maths calibration isValid payload count (100 * start) d =
      some (100 * (start + count), d') ∧ d'.Safe memory := by
  induction count generalizing start d with
  | zero => exact ⟨d, rfl, safe⟩
  | succ count ih =>
    obtain ⟨d', rest, safe⟩ :=
      ih (start + 1) (by omega) (takeBlock_safe maths calibration isValid (blockOf payload start) safe)
    rw [decodeBlocks, decodeBlock_eq length (by omega)]
    refine ⟨d', ?_, safe⟩
    rw [Nat.add_assoc, Nat.add_comm 1 count] at rest
    exact rest

variable (maths calibration isValid) in
theorem nextString_safe (payload : Bytes) (safe : d.Safe memory) :
    ∃ d', nextString maths calibration isValid payload d = some d' ∧ d'.Safe memory := by
  rw [nextString]
  by_cases length : payload.length = 1206
  · obtain ⟨d', blocks, safe⟩ :=
      decodeBlocks_safe maths calibration isValid length 12 0 (Nat.le_refl _) safe
    rw [if_pos length, blocks]
    exact ⟨d', rfl, safe⟩
  · rw [if_neg length]
    exact ⟨d, rfl, safe⟩

variable (maths calibration isValid) in
theorem run_safe (payloads : List Bytes) (safe : d.Safe memory) :
    ∃ d', run maths calibration isValid d payloads = some d' ∧ d'.Safe memory := by
  induction payloads generalizing d with
  | nil => exact ⟨d, rfl, safe⟩
  | cons payload payloads ih =>
    obtain ⟨e, one, safe⟩ := nextString_safe maths calibration isValid payload safe
    obtain ⟨d', rest, safe⟩ := ih safe
    rw [run, one]
    exact ⟨d', rest, safe⟩

theorem fresh_safe (memory : Nat → ℚ) : (fresh memory).Safe memory := Segment.Within.fresh memory

variable (maths calibration isValid memory payload index d) in
/-- From `d`, a block of the payload starts and ends at its place, within the bounds before,
after and at each return. -/
def BlockSafe : Prop :=
  ∃ before after,
    decodeBlocks maths calibration isValid payload index 0 d = some (100 * index, before) ∧
    decodeBlock maths calibration isValid payload (100 * index) before =
      some (100 * (index + 1), after) ∧
    before.Safe memory ∧ after.Safe memory ∧
    ∀ upperBlock oldAzimuth azimuth,
      let entered := sendSharedPointCloud isValid oldAzimuth azimuth { before with upperBlock }
      entered.Safe memory ∧
      (entered.segment.pointIndex < MAX_POINT_SIZE → ∀ count ≤ 32, ∃ position inner,
        decodeReturns maths calibration payload azimuth (List.range count) (100 * index + 4)
          entered = some (position, inner) ∧ inner.Safe memory ∧
        (position = 100 * index + 4 + 3 * count ∨ position = 100 * (index + 1)))

theorem blockSafe (length : payload.length = 1206) (b : index < 12) (safe : d.Safe memory) :
    BlockSafe maths calibration isValid memory d payload index := by
  obtain ⟨before, blocks, first⟩ :=
    decodeBlocks_safe maths calibration isValid length index 0 (by omega) safe
  rw [Nat.mul_zero, Nat.zero_add] at blocks
  refine ⟨before, _, blocks, decodeBlock_eq length b before, first,
    takeBlock_safe maths calibration isValid _ first, fun upperBlock oldAzimuth azimuth => ?_⟩
  have renamed : ({ before with upperBlock } : Decoder).Safe memory := first
  have entered := renamed.send isValid oldAzimuth azimuth
  refine ⟨entered, fun room count inside => ?_⟩
  obtain ⟨position, inner, returns, safe, behind⟩ :=
    decodeReturns_safe maths calibration length b azimuth count 0 (by omega) room entered
  rw [← List.range_eq_range'] at returns
  exact ⟨position, inner, returns, safe, by omega⟩

end HDL64E

/-! ## The three decoders -/

/-- Whatever strings are passed to `nextString`, no read leaves the payload, the counters stay
within the maximum, the memory outside stays as it is, and each block of a packet ends at its
place. -/
theorem decoders_stay_in_bounds (maths : Maths) (memory : Nat → ℚ) (payloads : List Bytes) :
    (∀ (m : Device) (g : Settings), ∃ d, run maths m g (fresh memory) payloads = some d ∧
        d.Safe m memory ∧
        ∀ payload : Bytes, payload.length = 1206 → ∀ blockID < 12,
          BlockSafe maths m g memory d payload blockID) ∧
    ∀ (calibration : HDL64E.Calibration) (isValid : Bool),
      ∃ d, HDL64E.run maths calibration isValid (HDL64E.fresh memory) payloads = some d ∧
        d.Safe memory ∧
        ∀ payload : Bytes, payload.length = 1206 → ∀ index < 12,
          HDL64E.BlockSafe maths calibration isValid memory d payload index := by
  constructor
  · intro m g
    obtain ⟨d, ran, safe⟩ := run_safe maths m g payloads (fresh_safe m memory)
    exact ⟨d, ran, safe, fun payload length b inside => blockSafe length inside safe⟩
  · intro calibration isValid
    obtain ⟨d, ran, safe⟩ :=
      HDL64E.run_safe maths calibration isValid payloads (HDL64E.fresh_safe memory)
    exact ⟨d, ran, safe, fun payload length index inside => HDL64E.blockSafe length inside safe⟩

end OpendlvCore.Velodyne
