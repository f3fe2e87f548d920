import OpendlvCore.Velodyne.CompactScans
import OpendlvCore.Velodyne.Revolutions
import OpendlvCore.Velodyne.SharedClouds

/-!
# The azimuths of the blocks of a packet

Every block of a VLP-16 packet but the first takes its azimuth from the interpolation in
the middle of the block before. A full frame leaves the interpolation out, and what it
left behind earlier is used once more.
-/
namespace OpendlvCore.Velodyne
open CBytes

/-! ## Room for a second firing -/

section Definitions
variable (m : Device) (g : Settings)

/-- The counter that breaks a firing off. -/
def counter (d : Decoder) : Nat := if g.withCPC then d.cpc.pointIndex else d.spc.pointIndex

/-- What a return adds to it. -/
def arrives (r : Return) : Nat := if g.withCPC then 1 else if r.isFar then 1 else 0

def arrivals (returns : List Return) : Nat := (returns.map (arrives g)).sum

/-- Behind the first firing of a block the frame is not full. A smaller azimuth than before starts a
frame. -/
def LeavesRoom (b : Block) (d : Decoder) : Prop :=
  (if headOf b.azimuth d.nextAzimuth < d.previousAzimuth then 0 else counter g d) +
    arrivals g b.first < m.MAX_POINT_SIZE

/-- The settings of a decoder that counts what it stores. -/
structure Settings.Counts : Prop where
  option : g.CPCIntensityOption = 0 ∨ g.CPCIntensityOption = 1 ∨ g.CPCIntensityOption = 2
  stores : g.withSPC = true ∨ g.withCPC = true

end Definitions

section Room
variable {maths : Maths} {m : Device} {g : Settings} {d : Decoder}

theorem setUp_counts {c : Configuration} {isValid : Bool} {verticalAngle : Nat → ℚ}
    (accepted : setUp m c isValid verticalAngle = .ok g) : g.Counts := by
  obtain ⟨option, -, -, ⟨withCPC, rfl⟩ | rfl⟩ := setUp_cases accepted
  · exact ⟨option, .inl rfl⟩
  · exact ⟨option, .inr rfl⟩

theorem full_iff_counter (d : Decoder) : full m g d = true ↔ m.MAX_POINT_SIZE ≤ counter g d := by
  cases withCPC : g.withCPC <;> simp [full, counter, withCPC]

variable (maths m) in
theorem counter_storeReturn (counts : g.Counts) (sensorID : Nat) (r : Return) (d : Decoder) :
    counter g (storeReturn maths m g sensorID r d) =
      if counter g d < m.MAX_POINT_SIZE then counter g d + arrives g r else counter g d := by
  cases withCPC : g.withCPC with
  | true =>
    have kind : ∃ kind : Kind, kind.enabled g := by
      rcases counts.option with none | one | both
      · exact ⟨.noIntensity, withCPC, .inl none⟩
      · exact ⟨.withIntensity, withCPC, .inl one⟩
      · exact ⟨.withIntensity, withCPC, .inr both⟩
    obtain ⟨kind, on⟩ := kind
    have stored := congrArg Writer.pointIndex (storeCPC_writer (m := m) on sensorID r d.cpc)
    rw [writer_pointIndex, Writer.store, writer_pointIndex] at stored
    simp only [counter, arrives, withCPC, if_true, storeReturn, stored]
    split <;> simp only [writer_pointIndex]
  | false =>
    have withSPC := counts.stores.resolve_right (by simp [withCPC])
    have far := pointOf_isSome maths g d.currentAzimuth sensorID r
    simp only [counter, arrives, withCPC, Bool.false_eq_true, if_false, storeReturn, storeSPC,
      withSPC, if_true, Segment.store, ← far]
    split
    · cases pointOf maths g d.currentAzimuth sensorID r <;> rfl
    · rfl

variable (maths m) in
/-- A firing fills the frame if its returns reach the maximum. -/
theorem full_storeFiring (counts : g.Counts) (returns : List Return) (sensorID : Nat)
    (d : Decoder) :
    full m g (storeFiring maths m g sensorID returns d) = true ↔
      m.MAX_POINT_SIZE ≤ counter g d + arrivals g returns := by
  induction returns generalizing sensorID d with
  | nil => exact full_iff_counter d
  | cons r rest ih =>
    have one := counter_storeReturn maths m counts sensorID r d
    have sum : arrivals g (r :: rest) = arrives g r + arrivals g rest := List.sum_cons
    have stop := full_iff_counter (m := m) (g := g) (storeReturn maths m g sensorID r d)
    rw [storeFiring]
    by_cases broken : full m g (storeReturn maths m g sensorID r d) = true
    · have filled := stop.mp broken
      rw [if_pos broken]
      refine iff_of_true broken ?_
      split at one <;> omega
    · have going := mt stop.mpr broken
      rw [if_neg broken, ih]
      split at one <;> omega

variable (m) in
theorem counter_startBlock (counts : g.Counts) (azimuth : Option ℚ) (d : Decoder) :
    counter g (startBlock m g azimuth d) =
      if headOf azimuth d.nextAzimuth < d.previousAzimuth then 0 else counter g d := by
  by_cases wraps : headOf azimuth d.nextAzimuth < d.previousAzimuth
  · rw [startBlock_of_lt azimuth d wraps, if_pos wraps]
    cases withCPC : g.withCPC with
    | true => simp [counter, sendPointCloud, withCPC]
    | false =>
      have withSPC := counts.stores.resolve_right (by simp [withCPC])
      simp [counter, sendPointCloud, withCPC, withSPC, Segment.restart]
  · rw [startBlock_of_le azimuth d wraps, if_neg wraps]
    rfl

variable (maths) in
theorem readsOn_iff (counts : g.Counts) (b : Block) (d : Decoder) :
    ReadsOn maths m g b d ↔ LeavesRoom m g b d := by
  have stop := full_storeFiring maths m counts b.first 0
    (startBlock m g b.azimuth d)
  rw [ReadsOn, LeavesRoom, ← counter_startBlock m counts, ← Bool.not_eq_true, stop, Nat.not_le]
  refine ⟨And.right, fun leaves => ⟨?_, leaves⟩⟩
  have below := Nat.lt_of_le_of_lt (Nat.le_add_right _ _) leaves
  rw [counter] at below
  split at below
  · exact .inr below
  · exact .inl below

end Room

/-! ## Azimuths -/

/-- The same up to full turns. -/
def SameAngle (a a' : ℚ) : Prop := ∃ turns : ℤ, a = a' + 360 * turns

/-- The azimuth of a head, for an encoded one. -/
def Shows (head : ℚ) (a : Nat) : Prop := head = a / 100 ∨ head = 360 ∧ a = 0

section Angles
variable {a a' : ℚ}

theorem SameAngle.refl (a : ℚ) : SameAngle a a := ⟨0, by rw [Int.cast_zero, mul_zero, add_zero]⟩

theorem SameAngle.trans {a'' : ℚ} (first : SameAngle a a') (second : SameAngle a' a'') :
    SameAngle a a'' := by
  obtain ⟨turns, rfl⟩ := first
  obtain ⟨turns', rfl⟩ := second
  refine ⟨turns' + turns, ?_⟩
  push_cast
  ring

theorem SameAngle.symm (same : SameAngle a a') : SameAngle a' a := by
  obtain ⟨turns, rfl⟩ := same
  refine ⟨-turns, ?_⟩
  push_cast
  ring

theorem SameAngle.add (same : SameAngle a a') (step : ℚ) : SameAngle (a + step) (a' + step) := by
  obtain ⟨turns, rfl⟩ := same
  exact ⟨turns, by ring⟩

theorem SameAngle.turned (a : ℚ) : SameAngle (a - 360) a := ⟨-1, by push_cast; ring⟩

theorem Shows.sameAngle {head : ℚ} {n : Nat} (shown : Shows head n) :
    SameAngle head (n / 100) := by
  rcases shown with rfl | ⟨rfl, rfl⟩
  · exact SameAngle.refl _
  · exact ⟨1, by push_cast; ring⟩

/-- What is carried over is normalised and keeps its direction. -/
theorem headOf_sameAngle (nextAzimuth : ℚ) : SameAngle (headOf none nextAzimuth) nextAzimuth := by
  unfold headOf
  simp only
  split
  · exact SameAngle.turned nextAzimuth
  · exact SameAngle.refl nextAzimuth

/-- The look-ahead from any azimuth gives the next block its own. -/
theorem headOf_ahead {n : Nat} (low : n ≤ 35999) (current : ℚ) :
    Shows (headOf none (if (n : ℚ) / 100 < current then (n : ℚ) / 100 + 360 else (n : ℚ) / 100)) n := by
  have below : (n : ℚ) ≤ 35999 := by exact_mod_cast low
  have above : (0 : ℚ) ≤ n := Nat.cast_nonneg n
  by_cases behind : (n : ℚ) / 100 < current
  · rw [if_pos behind, headOf]
    by_cases zero : n = 0
    · right
      rw [zero]
      norm_num
    · have positive : (0 : ℚ) < n := by exact_mod_cast Nat.pos_of_ne_zero zero
      rw [if_pos (by linarith)]
      exact .inl (add_sub_cancel_right _ _)
  · rw [if_neg behind, headOf, if_neg (by linarith)]
    exact .inl rfl

end Angles

section Blocks
variable {maths : Maths} {m : Device} {g : Settings} {d : Decoder} {b : Block}

variable (m g) in
@[simp] theorem startBlock_currentAzimuth (azimuth : Option ℚ) (d : Decoder) :
    (startBlock m g azimuth d).currentAzimuth = headOf azimuth d.nextAzimuth := by
  unfold startBlock
  simp only
  split <;> rfl

variable (m g) in
@[simp] theorem startBlock_nextAzimuth (azimuth : Option ℚ) (d : Decoder) :
    (startBlock m g azimuth d).nextAzimuth = d.nextAzimuth := by
  unfold startBlock
  simp only
  split <;> rfl

variable (m g) in
@[simp] theorem startBlock_deltaAzimuth (azimuth : Option ℚ) (d : Decoder) :
    (startBlock m g azimuth d).deltaAzimuth = d.deltaAzimuth := by
  unfold startBlock
  simp only
  split <;> rfl

variable (m g) in
@[simp] theorem interpolate_nextAzimuth (next : Option ℚ) (d : Decoder) :
    (interpolate m g next d).nextAzimuth = (halfWay next d).nextAzimuth := by
  unfold interpolate
  simp only
  split <;> rfl

variable (m g) in
@[simp] theorem interpolate_deltaAzimuth (next : Option ℚ) (d : Decoder) :
    (interpolate m g next d).deltaAzimuth = (halfWay next d).deltaAzimuth := by
  unfold interpolate
  simp only
  split <;> rfl

variable (m g) in
theorem interpolate_currentAzimuth (next : Option ℚ) (d : Decoder) :
    (interpolate m g next d).currentAzimuth =
      if (halfWay next d).currentAzimuth > 360 then (halfWay next d).currentAzimuth - 360
      else (halfWay next d).currentAzimuth := by
  unfold interpolate
  simp only
  split <;> rfl

variable (maths m g) in
theorem storeFiring_same (returns : List Return) (d : Decoder) :
    SameAzimuths d (storeFiring maths m g 0 returns d) := by
  obtain ⟨-, previous, current, next, delta⟩ := storeFiring_frame maths m g returns 0 d
  exact ⟨previous, current, next, delta⟩

/-- Both firings: the azimuths are those of the interpolation at the head. -/
theorem takeBlock_interpolates {next : Option ℚ} {returns : List Return}
    (second : b.second = some (next, returns)) (on : ReadsOn maths m g b d) :
    ∃ h, SameAzimuths (startBlock m g b.azimuth d) h ∧
      SameAzimuths (interpolate m g next h) (takeBlock maths m g b d) := by
  rw [takeBlock_of_readsOn second on]
  exact ⟨_, storeFiring_same maths m g b.first _, storeFiring_same maths m g returns _⟩

/-- Without the second firing nothing is looked up. -/
theorem takeBlock_stale (off : b.second = none ∨ ¬ ReadsOn maths m g b d) :
    SameAzimuths (startBlock m g b.azimuth d) (takeBlock maths m g b d) := by
  obtain ⟨returns, taken, -⟩ := takeBlock_of_not_readsOn off
  rw [taken]
  exact storeFiring_same maths m g returns _

end Blocks

/-! ## Packets -/

section Definitions
variable (maths : Maths) (g : Settings) (payload : Bytes) (d : Decoder)

/-- The decoder after the first blocks of a packet. -/
def afterBlocks : Nat → Decoder
  | 0 => d
  | n + 1 => takeBlock maths VLP16 g (blockOf VLP16 payload n) (afterBlocks n)

/-- The azimuth of the first firing of a block. -/
def headOfBlock (blockID : Nat) : ℚ :=
  (startBlock VLP16 g (blockOf VLP16 payload blockID).azimuth
    (afterBlocks maths g payload d blockID)).currentAzimuth

/-- The azimuth of the second firing of a block. -/
def middleOfBlock (blockID : Nat) : ℚ := (afterBlocks maths g payload d (blockID + 1)).currentAzimuth

/-- A block whose second firing finds room. -/
def Reads (blockID : Nat) : Prop :=
  LeavesRoom VLP16 g (blockOf VLP16 payload blockID) (afterBlocks maths g payload d blockID)

end Definitions

section Packet
variable {maths : Maths} {g : Settings} {payload : Bytes} {d : Decoder} {blockID : Nat}

theorem nextString_afterBlocks (length : payload.length = 1206) :
    nextString maths VLP16 g payload d = some (afterBlocks maths g payload d 12) := by
  have blocks : ∀ n, ((List.range n).map (blockOf VLP16 payload)).foldl
      (fun d b => takeBlock maths VLP16 g b d) d = afterBlocks maths g payload d n := by
    intro n
    induction n with
    | zero => rfl
    | succ n ih =>
      rw [List.range_succ, List.map_append, List.foldl_append, ih]
      rfl
  rw [nextString_eq length]
  exact congrArg some (blocks 12)

theorem headOfBlock_zero : headOfBlock maths g payload d 0 = (hundredths payload 0 : ℚ) / 100 :=
  startBlock_currentAzimuth VLP16 g _ d

theorem headOfBlock_succ : headOfBlock maths g payload d (blockID + 1) =
    headOf none (afterBlocks maths g payload d (blockID + 1)).nextAzimuth :=
  startBlock_currentAzimuth VLP16 g _ _

/-- The azimuths behind a block that is read on. -/
theorem afterBlocks_reads (counts : g.Counts) (reads : Reads maths g payload d blockID) :
    ∃ h : Decoder, h.currentAzimuth = headOfBlock maths g payload d blockID ∧
      h.deltaAzimuth = (afterBlocks maths g payload d blockID).deltaAzimuth ∧
      SameAzimuths (interpolate VLP16 g
        (if blockID < 11 then some ((hundredths payload (blockID + 1) : ℚ) / 100) else none) h)
        (afterBlocks maths g payload d (blockID + 1)) := by
  have second : (blockOf VLP16 payload blockID).second =
      some (if blockID < 11 then some ((hundredths payload (blockID + 1) : ℚ) / 100) else none,
        blockReturns payload blockID 16 16) := rfl
  obtain ⟨h, head, taken⟩ := takeBlock_interpolates second
    ((readsOn_iff maths counts _ _).mpr reads)
  refine ⟨h, head.currentAzimuth, ?_, taken⟩
  rw [head.deltaAzimuth, startBlock_deltaAzimuth]

/-- The next block's azimuth as it is looked up. -/
theorem afterBlocks_nextAzimuth (counts : g.Counts) (inner : blockID < 11)
    (reads : Reads maths g payload d blockID) :
    (afterBlocks maths g payload d (blockID + 1)).nextAzimuth =
      if (hundredths payload (blockID + 1) : ℚ) / 100 < headOfBlock maths g payload d blockID then
        (hundredths payload (blockID + 1) : ℚ) / 100 + 360
      else (hundredths payload (blockID + 1) : ℚ) / 100 := by
  obtain ⟨h, head, -, taken⟩ := afterBlocks_reads counts reads
  rw [taken.nextAzimuth, interpolate_nextAzimuth, if_pos inner, ← head]
  rfl

/-- Where it is not looked up, the value of a block before stays. -/
theorem afterBlocks_stale (counts : g.Counts) (off : ¬ Reads maths g payload d blockID) :
    (afterBlocks maths g payload d (blockID + 1)).nextAzimuth =
      (afterBlocks maths g payload d blockID).nextAzimuth := by
  have stop : ¬ ReadsOn maths VLP16 g (blockOf VLP16 payload blockID)
      (afterBlocks maths g payload d blockID) := mt (readsOn_iff maths counts _ _).mp off
  exact (takeBlock_stale (.inr stop)).nextAzimuth.trans (startBlock_nextAzimuth VLP16 g _ _)

variable (low : ∀ blockID < 12, hundredths payload blockID ≤ 35999)
include low

variable (maths d) in
theorem headOfBlock_shows (counts : g.Counts) (b : blockID < 12)
    (before : ∀ k, k + 1 = blockID → Reads maths g payload d k) :
    Shows (headOfBlock maths g payload d blockID) (hundredths payload blockID) := by
  cases blockID with
  | zero => exact .inl headOfBlock_zero
  | succ k =>
    rw [headOfBlock_succ, afterBlocks_nextAzimuth counts (by omega) (before k rfl)]
    exact headOf_ahead (low (k + 1) b) _

/-- The azimuth of a head is right if and only if it has been looked up, or what was left behind
happens to be right. -/
theorem headOfBlock_iff (counts : g.Counts) (b : blockID < 12) :
    SameAngle (headOfBlock maths g payload d blockID) ((hundredths payload blockID : ℚ) / 100) ↔
      ∀ k, k + 1 = blockID → Reads maths g payload d k ∨
        SameAngle (afterBlocks maths g payload d k).nextAzimuth
          ((hundredths payload blockID : ℚ) / 100) := by
  constructor
  · rintro right k rfl
    by_cases reads : Reads maths g payload d k
    · exact .inl reads
    · right
      rw [headOfBlock_succ, afterBlocks_stale counts reads] at right
      exact (headOf_sameAngle _).symm.trans right
  · intro before
    cases blockID with
    | zero =>
      exact (headOfBlock_shows maths d low counts b fun k same => absurd same (by omega)).sameAngle
    | succ k =>
      by_cases reads : Reads maths g payload d k
      · refine (headOfBlock_shows maths d low counts b fun k' same => ?_).sameAngle
        rwa [Nat.succ_injective same]
      · rw [headOfBlock_succ, afterBlocks_stale counts reads]
        exact (headOf_sameAngle _).trans ((before k rfl).resolve_left reads)

variable (maths d) in
/-- Half the difference between two blocks. -/
theorem afterBlocks_deltaAzimuth (counts : g.Counts) (inner : blockID < 11)
    (reads : ∀ k ≤ blockID, Reads maths g payload d k) :
    (afterBlocks maths g payload d (blockID + 1)).deltaAzimuth =
      (advance (hundredths payload blockID) (hundredths payload (blockID + 1)) : ℚ) / 200 := by
  obtain ⟨h, head, -, taken⟩ := afterBlocks_reads counts (reads blockID (Nat.le_refl _))
  have shown := headOfBlock_shows maths d low counts (show blockID < 12 by omega)
    fun k same => reads k (by omega)
  have next := nextAzimuth_eq (low blockID (by omega)) (low (blockID + 1) (by omega)) shown
  rw [taken.deltaAzimuth, interpolate_deltaAzimuth, if_pos inner]
  simp only [halfWay, head, next]
  ring

/-- The second firing is half way to the next block, in the last block half the last step on. -/
theorem middleOfBlock_right (counts : g.Counts) (b : blockID < 12)
    (reads : ∀ k ≤ blockID, Reads maths g payload d k) :
    SameAngle (middleOfBlock maths g payload d blockID)
      ((hundredths payload blockID : ℚ) / 100 + (stepOf (hundredths payload) blockID : ℚ) / 200) := by
  obtain ⟨h, head, delta, taken⟩ := afterBlocks_reads counts (reads blockID (Nat.le_refl _))
  have shown := headOfBlock_shows maths d low counts b fun k same => reads k (by omega)
  have half : (halfWay (if blockID < 11 then some ((hundredths payload (blockID + 1) : ℚ) / 100)
      else none) h).currentAzimuth =
        headOfBlock maths g payload d blockID + (stepOf (hundredths payload) blockID : ℚ) / 200 := by
    by_cases inner : blockID < 11
    · have step : stepOf (hundredths payload) blockID =
          advance (hundredths payload blockID) (hundredths payload (blockID + 1)) :=
        if_neg (by omega)
      have next := nextAzimuth_eq (low blockID b) (low (blockID + 1) (by omega)) shown
      rw [if_pos inner, step]
      simp only [halfWay, head, next]
      ring
    · have step : stepOf (hundredths payload) blockID =
          advance (hundredths payload (blockID - 1)) (hundredths payload blockID) :=
        if_pos (by omega)
      have before := afterBlocks_deltaAzimuth maths d low counts (show blockID - 1 < 11 by omega)
        fun k le => reads k (by omega)
      rw [Nat.sub_add_cancel (by omega)] at before
      rw [if_neg inner, step]
      simp only [halfWay, head, delta, before]
  have current : SameAngle (middleOfBlock maths g payload d blockID)
      (headOfBlock maths g payload d blockID + (stepOf (hundredths payload) blockID : ℚ) / 200) := by
    rw [middleOfBlock, taken.currentAzimuth, interpolate_currentAzimuth, half]
    split
    · exact SameAngle.turned _
    · exact SameAngle.refl _
  exact current.trans (shown.sameAngle.add _)

end Packet

/-! ## Results -/

theorem hundredths_uniformPacket {azimuth : Nat → Nat} {r : Return} {blockID : Nat}
    (b : blockID < 12) (low : azimuth blockID < 2 ^ 16) :
    hundredths (uniformPacket azimuth r) blockID = azimuth blockID := encoded_uniformPacket b low

/-- The azimuth at the head of a block is right if and only if the block before has been read up to
its second firing or has left the right value behind, and the second firing is half way to the next
block where all blocks before have been read so far. -/
theorem block_azimuths_right (maths : Maths) {c : Configuration} {isValid : Bool}
    {verticalAngle : Nat → ℚ} {g : Settings}
    (accepted : setUp VLP16 c isValid verticalAngle = .ok g) {payload : Bytes}
    (length : payload.length = 1206) (low : ∀ blockID < 12, hundredths payload blockID ≤ 35999)
    (d : Decoder) :
    nextString maths VLP16 g payload d = some (afterBlocks maths g payload d 12) ∧
      ∀ blockID < 12,
        (SameAngle (headOfBlock maths g payload d blockID)
            ((hundredths payload blockID : ℚ) / 100) ↔
          ∀ k, k + 1 = blockID → Reads maths g payload d k ∨
            SameAngle (afterBlocks maths g payload d k).nextAzimuth
              ((hundredths payload blockID : ℚ) / 100)) ∧
        ((∀ k < blockID, Reads maths g payload d k) →
          ReadsOn maths VLP16 g (blockOf VLP16 payload blockID)
            (afterBlocks maths g payload d blockID) →
          SameAngle (middleOfBlock maths g payload d blockID)
            ((hundredths payload blockID : ℚ) / 100 +
              (stepOf (hundredths payload) blockID : ℚ) / 200)) := by
  have counts := setUp_counts accepted
  refine ⟨nextString_afterBlocks length, fun blockID b => ⟨headOfBlock_iff low counts b, ?_⟩⟩
  intro before on
  apply middleOfBlock_right low counts b
  intro k le
  rcases Nat.lt_or_eq_of_le le with earlier | rfl
  · exact before k earlier
  · exact (readsOn_iff maths counts _ _).mp on

theorem block_azimuths_right_fresh :
    let g := compactOnly VLP16 (fun i => i) 0 0 0 0
    let payload := uniformPacket (fun blockID => 100 * blockID) ⟨0, 0, 0⟩
    let d := fresh fun _ => 0
    nextString .atZero VLP16 g payload d = some (afterBlocks .atZero g payload d 12) ∧
      ∀ blockID < 12,
        (SameAngle (headOfBlock .atZero g payload d blockID)
            ((hundredths payload blockID : ℚ) / 100) ↔
          ∀ k, k + 1 = blockID → Reads .atZero g payload d k ∨
            SameAngle (afterBlocks .atZero g payload d k).nextAzimuth
              ((hundredths payload blockID : ℚ) / 100)) ∧
        ((∀ k < blockID, Reads .atZero g payload d k) →
          ReadsOn .atZero VLP16 g (blockOf VLP16 payload blockID)
            (afterBlocks .atZero g payload d blockID) →
          SameAngle (middleOfBlock .atZero g payload d blockID)
            ((hundredths payload blockID : ℚ) / 100 +
              (stepOf (hundredths payload) blockID : ℚ) / 200)) := by
  have accepted : setUp VLP16 ⟨1, 0, 0, 0, 0, 0⟩ false (fun i => i) =
      .ok (compactOnly VLP16 (fun i => i) 0 0 0 0) := rfl
  apply block_azimuths_right .atZero accepted (length_uniformPacket _ _)
  intro blockID b
  rw [hundredths_uniformPacket b (by omega)]
  omega

/-! ## A sensor that stands still -/

/-- Nothing but the counter of the compact point cloud has moved. -/
structure Resting (count : Nat) (d : Decoder) : Prop where
  previous : d.previousAzimuth = 0
  current : d.currentAzimuth = 0
  next : d.nextAzimuth = 0
  delta : d.deltaAzimuth = 0
  count : d.cpc.pointIndex = min count VLP16.MAX_POINT_SIZE

section Resting
variable {maths : Maths} {g : Settings} {d : Decoder} {count : Nat} {kind : Kind}

variable (maths) in
theorem Resting.firing (on : kind.enabled g) (resting : Resting count d) (returns : List Return) :
    Resting (count + returns.length) (storeFiring maths VLP16 g 0 returns d) := by
  have same := storeFiring_same maths VLP16 g returns d
  have writer := congrArg Writer.pointIndex
    (storeFiring_writer (m := VLP16) maths on returns 0 d)
  have count' := resting.count
  rw [writer_pointIndex, storeAll_pointIndex _ _ _ (by rw [writer_pointIndex]; omega),
    writer_pointIndex, List.length_map] at writer
  refine ⟨by rw [same.previousAzimuth, resting.previous], by rw [same.currentAzimuth, resting.current],
    by rw [same.nextAzimuth, resting.next], by rw [same.deltaAzimuth, resting.delta], ?_⟩
  rw [writer]
  omega

theorem Resting.startBlock {azimuth : Option ℚ} (resting : Resting count d)
    (still : ∀ a, azimuth = some a → a = 0) : Resting count (startBlock VLP16 g azimuth d) := by
  have head : headOf azimuth d.nextAzimuth = 0 := by
    cases azimuth with
    | none => rw [headOf, resting.next, if_neg (by norm_num)]
    | some a => exact still a rfl
  rw [startBlock_of_le azimuth d (by rw [head, resting.previous]; exact lt_irrefl 0), head]
  exact ⟨rfl, rfl, resting.next, resting.delta, resting.count⟩

theorem Resting.interpolate {next : Option ℚ} (resting : Resting count d)
    (still : ∀ a, next = some a → a = 0) : Resting count (interpolate VLP16 g next d) := by
  have half : Resting count (halfWay next d) := by
    cases next with
    | none =>
      refine ⟨resting.previous, ?_, resting.next, resting.delta, resting.count⟩
      simp [halfWay, resting.current, resting.delta]
    | some a =>
      have zero := still a rfl
      refine ⟨resting.previous, ?_, ?_, ?_, resting.count⟩ <;>
        simp [halfWay, zero, resting.current]
  unfold Velodyne.interpolate
  simp only
  rw [if_neg (by rw [half.current]; norm_num)]
  exact ⟨half.current, half.current, half.next, half.delta, half.count⟩

variable (maths) in
/-- A block at 0 degrees: 32 more returns, or a full frame. -/
theorem Resting.block (counts : g.Counts) (on : kind.enabled g) {azimuth : Nat → Nat} {r : Return}
    {blockID : Nat} (still : ∀ b < 12, azimuth b = 0) (b : blockID < 12)
    (resting : Resting count d) :
    Resting (count + 32) (takeBlock maths VLP16 g (uniformBlock VLP16 azimuth r blockID) d) := by
  have first : (uniformBlock VLP16 azimuth r blockID).first = List.replicate 16 r := rfl
  have second : (uniformBlock VLP16 azimuth r blockID).second =
      some (if blockID < 11 then some ((azimuth (blockID + 1) : ℚ) / 100) else none,
        List.replicate 16 r) := rfl
  have head : Resting count (Velodyne.startBlock VLP16 g
      (uniformBlock VLP16 azimuth r blockID).azimuth d) := by
    apply resting.startBlock
    intro a eq
    change (if blockID = 0 then some ((azimuth blockID : ℚ) / 100) else none) = some a at eq
    split at eq
    · rw [← Option.some.inj eq, still blockID b, Nat.cast_zero, zero_div]
    · cases eq
  by_cases reads : ReadsOn maths VLP16 g (uniformBlock VLP16 azimuth r blockID) d
  · have one := head.firing maths on (uniformBlock VLP16 azimuth r blockID).first
    rw [takeBlock_of_readsOn second reads]
    refine (one.interpolate fun a eq => ?_).firing maths on (List.replicate 16 r)
    split at eq
    · rw [← Option.some.inj eq, still (blockID + 1) (by omega), Nat.cast_zero, zero_div]
    · cases eq
  · obtain ⟨returns, taken, whole⟩ := takeBlock_of_not_readsOn (.inr reads)
    have filled := mt (readsOn_iff maths counts _ _).mpr reads
    have withCPC : g.withCPC = true := by
      cases kind <;> exact on.1
    have one := head.firing maths on returns
    have limit : VLP16.MAX_POINT_SIZE ≤ count + returns.length ∧
        VLP16.MAX_POINT_SIZE ≤ count + 32 := by
      have count' := head.count
      rcases whole with rfl | outside
      · have sum : arrivals g (List.replicate 16 r) = 16 := by
          simp [arrivals, arrives, withCPC]
        rw [LeavesRoom, ← counter_startBlock VLP16 counts, counter, if_pos withCPC, first,
          sum] at filled
        rw [first, List.length_replicate]
        constructor <;> omega
      · rw [room, not_or] at outside
        constructor <;> omega
    rw [taken]
    refine ⟨one.previous, one.current, one.next, one.delta, ?_⟩
    rw [one.count, Nat.min_eq_right limit.1, Nat.min_eq_right limit.2]

variable (maths) in
/-- Packets at 0 degrees, with 384 returns each. -/
theorem Resting.packets (counts : g.Counts) (on : kind.enabled g) (r : Return) (packets : Nat)
    (resting : Resting count d) :
    Resting (count + 384 * packets)
      (((List.replicate packets (uniformPacket (fun _ => 0) r)).flatMap (blocksOf VLP16)).foldl
        (fun d b => takeBlock maths VLP16 g b d) d) := by
  have blocks : ∀ n ≤ 12, ∀ count d, Resting count d → Resting (count + 32 * n)
      (((List.range n).map (uniformBlock VLP16 (fun _ => 0) r)).foldl
        (fun d b => takeBlock maths VLP16 g b d) d) := by
    intro n
    induction n with
    | zero => exact fun _ count d resting => resting
    | succ n ih =>
      intro le count d resting
      rw [List.range_succ, List.map_append, List.foldl_append]
      exact (ih (by omega) count d resting).block maths counts on (fun _ _ => rfl)
        (show n < 12 by omega)
  induction packets generalizing count d with
  | zero => exact resting
  | succ packets ih =>
    have one := blocks 12 (Nat.le_refl _) count d resting
    have total : count + 384 * (packets + 1) = count + 32 * 12 + 384 * packets := by omega
    rw [List.replicate_succ, List.flatMap_cons, List.foldl_append, total,
      blocksOf_uniformPacket VLP16 fun _ _ => Nat.two_pow_pos 16]
    exact ih one

end Resting

/-- 79 packets at 0 degrees fill the frame. In the next packet the second block is at 1 degree, and
the decoder takes it to be at 0. -/
theorem full_frame_takes_old_azimuth :
    let g := compactOnly VLP16 (fun i => i) 0 0 0 0
    let payload := uniformPacket (fun blockID => 100 * blockID) ⟨0, 0, 0⟩
    setUp VLP16 ⟨1, 0, 0, 0, 0, 0⟩ false (fun i => i) = .ok g ∧ hundredths payload 1 = 100 ∧
      ∃ d, run .atZero VLP16 g (fresh fun _ => 0)
          (List.replicate 79 (uniformPacket (fun _ => 0) ⟨0, 0, 0⟩)) = some d ∧
        ¬ SameAngle (headOfBlock .atZero g payload d 1) ((hundredths payload 1 : ℚ) / 100) := by
  intro g payload
  have accepted : setUp VLP16 ⟨1, 0, 0, 0, 0, 0⟩ false (fun i => i) = .ok g := rfl
  have counts := setUp_counts accepted
  have on : Kind.noIntensity.enabled g := ⟨rfl, .inl rfl⟩
  have length : ∀ payload ∈ List.replicate 79 (uniformPacket (fun _ => 0) ⟨0, 0, 0⟩),
      payload.length = 1206 := by
    intro payload there
    rw [List.eq_of_mem_replicate there, length_uniformPacket]
  have second : hundredths payload 1 = 100 := hundredths_uniformPacket (by decide) (by decide)
  have start : Resting 0 (fresh fun _ => 0) := ⟨rfl, rfl, rfl, rfl, rfl⟩
  have rests := start.packets .atZero counts on ⟨0, 0, 0⟩ 79
  refine ⟨accepted, second, _, run_eq _ length _, ?_⟩
  generalize ((List.replicate 79 (uniformPacket (fun _ => 0) ⟨0, 0, 0⟩)).flatMap
    (blocksOf VLP16)).foldl (fun d b => takeBlock .atZero VLP16 g b d) (fresh fun _ => 0) = d at rests ⊢
  have head : (blockOf VLP16 payload 0).azimuth = some 0 := by
    change some (headAzimuth payload 0) = _
    rw [headAzimuth_uniformPacket (by decide) (by decide), Nat.mul_zero, Nat.cast_zero, zero_div]
  have skips : ¬ Reads .atZero g payload d 0 := by
    have started : Resting _ (startBlock VLP16 g (blockOf VLP16 payload 0).azimuth d) :=
      rests.startBlock fun a eq => by
        rw [head] at eq
        exact (Option.some.inj eq).symm
    have most : VLP16.MAX_POINT_SIZE ≤ 0 + 384 * 79 := by decide
    have limit : VLP16.MAX_POINT_SIZE ≤
        counter g (startBlock VLP16 g (blockOf VLP16 payload 0).azimuth d) := by
      rw [counter, if_pos on.1, started.count, Nat.min_eq_right most]
    rw [Reads, LeavesRoom, ← counter_startBlock VLP16 counts]
    exact Nat.not_lt.mpr (Nat.le_trans limit (Nat.le_add_right _ _))
  rintro ⟨turns, eq⟩
  rw [headOfBlock_succ, afterBlocks_stale counts skips] at eq
  change headOf none d.nextAzimuth = _ at eq
  rw [rests.next, headOf, if_neg (by norm_num), second] at eq
  have whole : (0 : ℤ) = 1 + 360 * turns := by
    norm_num at eq
    exact_mod_cast eq
  omega

end OpendlvCore.Velodyne
