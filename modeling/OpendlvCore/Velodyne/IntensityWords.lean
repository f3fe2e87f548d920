import OpendlvCore.Velodyne.CompactScans

/-!
# Distance and intensity in one word

The mask is set up for one to seven bits of intensity. A configuration may ask for none,
and then the mask stays 0 and covers no distance.
-/
namespace OpendlvCore.Velodyne
open CBytes Columns

section Definitions
variable (g : Settings)

/-- The bits of a word that a receiver takes for the intensity. -/
def intensityBits (word : Nat) : Nat :=
  if g.intensityPlacement = 0 then word / 2 ^ (16 - g.numberOfBitsForIntensity)
  else word % 2 ^ g.numberOfBitsForIntensity

/-- The other bits, at their places. -/
def distanceBits (word : Nat) : Nat :=
  if g.intensityPlacement = 0 then word % 2 ^ (16 - g.numberOfBitsForIntensity)
  else word / 2 ^ g.numberOfBitsForIntensity * 2 ^ g.numberOfBitsForIntensity

/-- What a word for a return is to be decoded to. -/
def Decodes (r : Return) (word : Nat) : Prop :=
  let distance := r.distance g.distanceEncoding
  let level := r.thirdByte.toNat >>> (8 - g.numberOfBitsForIntensity)
  if g.intensityPlacement = 0 then
    if distance < 2 ^ (16 - g.numberOfBitsForIntensity) then
      intensityBits g word = level ∧ distanceBits g word = distance
    else intensityBits g word = 0 ∧ distanceBits g word = 0
  else
    intensityBits g word = level ∧
      distanceBits g word =
        distance / 2 ^ g.numberOfBitsForIntensity * 2 ^ g.numberOfBitsForIntensity

/-- The settings of both constructors for compact point clouds. -/
structure Settings.Masked : Prop where
  mask : g.mask = setupIntensityMaskCPC g.numberOfBitsForIntensity g.intensityPlacement 0
  bits : g.numberOfBitsForIntensity ≤ 7
  placement : g.intensityPlacement = 0 ∨ g.intensityPlacement = 1

end Definitions

section Words
variable {m : Device} {g : Settings} {r : Return}

theorem setUp_masked {c : Configuration} {isValid : Bool} {verticalAngle : Nat → ℚ}
    (accepted : setUp m c isValid verticalAngle = .ok g) (withCPC : g.withCPC = true) :
    g.Masked := by
  obtain ⟨-, bits, placement, ⟨both, rfl⟩ | rfl⟩ := setUp_cases accepted
  · refine ⟨?_, bits, placement⟩
    change (if both = true ∧ c.numberOfBitsForIntensity % 256 > 0 then
      setupIntensityMaskCPC _ _ 0 else 0) = _
    -- The guard in front of the call repeats the one inside it.
    split
    · rfl
    · rename_i guard
      have none : c.numberOfBitsForIntensity % 256 = 0 :=
        Nat.eq_zero_of_not_pos fun positive => guard ⟨withCPC, positive⟩
      change 0 = setupIntensityMaskCPC (c.numberOfBitsForIntensity % 256) _ 0
      rw [setupIntensityMaskCPC, if_neg (not_not.mpr none)]
  · exact ⟨rfl, bits, placement⟩

theorem level_lt (r : Return) {bits : Nat} (few : bits ≤ 8) :
    r.thirdByte.toNat >>> (8 - bits) < 2 ^ bits := by
  rw [Nat.shiftRight_eq_div_pow, Nat.div_lt_iff_lt_mul (Nat.two_pow_pos _), ← Nat.pow_add,
    Nat.add_sub_cancel' few]
  exact r.thirdByte.toNat_lt

/-- Without bits for the intensity every word is 0. -/
theorem combined_of_no_bits (masked : g.Masked) (none : g.numberOfBitsForIntensity = 0) :
    combined g r = 0 := by
  have mask : g.mask = 0 := by
    rw [masked.mask, none, setupIntensityMaskCPC, if_neg (not_not.mpr rfl)]
  have level : r.thirdByte.toNat >>> (8 - 0) = 0 := Nat.lt_one_iff.mp (level_lt r (Nat.zero_le 8))
  simp only [combined, mask, none, level, Nat.and_zero, Nat.zero_shiftLeft]
  split
  · split <;> rfl
  · rfl

/-- Intensity in the higher bits. -/
theorem combined_of_higher (masked : g.Masked) (some : g.numberOfBitsForIntensity ≠ 0)
    (higher : g.intensityPlacement = 0) :
    combined g r =
      if r.distance g.distanceEncoding < 2 ^ (16 - g.numberOfBitsForIntensity) then
        (r.thirdByte.toNat >>> (8 - g.numberOfBitsForIntensity)) *
          2 ^ (16 - g.numberOfBitsForIntensity) + r.distance g.distanceEncoding
      else 0 := by
  have bits := masked.bits
  have mask : g.mask = 2 ^ (16 - g.numberOfBitsForIntensity) - 1 := by
    rw [masked.mask, setupIntensityMaskCPC, if_pos some, if_pos higher]
    exact low_mask 16 g.numberOfBitsForIntensity
  have positive := Nat.two_pow_pos (16 - g.numberOfBitsForIntensity)
  simp only [combined, if_pos higher]
  by_cases near : r.distance g.distanceEncoding < 2 ^ (16 - g.numberOfBitsForIntensity)
  · have level := level_lt r (show g.numberOfBitsForIntensity ≤ 8 by omega)
    rw [if_pos (by omega), if_pos near, mask, Nat.and_two_pow_sub_one_of_lt_two_pow near,
      Nat.shiftLeft_eq]
    apply Nat.mod_eq_of_lt
    apply fields_lt (by omega) near
    rwa [Nat.sub_sub_self (by omega)]
  · rw [if_neg (by omega), if_neg near]

/-- Intensity in the lower bits. -/
theorem combined_of_lower (masked : g.Masked) (some : g.numberOfBitsForIntensity ≠ 0)
    (lower : g.intensityPlacement ≠ 0) :
    combined g r =
      r.distance g.distanceEncoding / 2 ^ g.numberOfBitsForIntensity *
        2 ^ g.numberOfBitsForIntensity + r.thirdByte.toNat >>> (8 - g.numberOfBitsForIntensity) := by
  have bits := masked.bits
  have small := distance_lt r g.distanceEncoding
  have cleared : r.distance g.distanceEncoding &&& g.mask =
      r.distance g.distanceEncoding / 2 ^ g.numberOfBitsForIntensity *
        2 ^ g.numberOfBitsForIntensity := by
    rw [masked.mask, setupIntensityMaskCPC, if_pos some, if_neg lower]
    exact and_high_mask small
  simp only [combined, if_neg lower, cleared]
  apply Nat.mod_eq_of_lt
  apply fields_lt (by omega) (level_lt r (by omega))
  rwa [Nat.div_lt_iff_lt_mul (Nat.two_pow_pos _), ← Nat.pow_add, Nat.sub_add_cancel (by omega)]

/-- A word is decoded as it is meant unless there are no bits for the intensity. -/
theorem decodes_combined_iff (masked : g.Masked) (r : Return) :
    Decodes g r (combined g r) ↔
      g.numberOfBitsForIntensity ≠ 0 ∨ r.distance g.distanceEncoding = 0 := by
  have bits := masked.bits
  have level := level_lt r (show g.numberOfBitsForIntensity ≤ 8 by omega)
  by_cases none : g.numberOfBitsForIntensity = 0
  · have small := distance_lt r g.distanceEncoding
    have zero : r.thirdByte.toNat >>> (8 - 0) = 0 := Nat.lt_one_iff.mp (level_lt r (Nat.zero_le 8))
    rw [combined_of_no_bits masked none]
    rcases masked.placement with placement | placement
    · simp only [Decodes, intensityBits, distanceBits, placement, none, if_true, Nat.sub_zero,
        if_pos small]
      omega
    · simp only [Decodes, intensityBits, distanceBits, placement, none, Nat.one_ne_zero, if_false,
        zero]
      omega
  · refine iff_of_true ?_ (.inl none)
    rcases masked.placement with higher | lower
    · rw [combined_of_higher masked none higher]
      simp only [Decodes, intensityBits, distanceBits, if_pos higher]
      by_cases near : r.distance g.distanceEncoding < 2 ^ (16 - g.numberOfBitsForIntensity)
      · rw [if_pos near, if_pos near]
        exact ⟨high_field _ near, low_field _ near⟩
      · rw [if_neg near, if_neg near]
        exact ⟨Nat.zero_div _, Nat.zero_mod _⟩
    · have lower : g.intensityPlacement ≠ 0 := by omega
      rw [combined_of_lower masked none lower]
      simp only [Decodes, intensityBits, distanceBits, if_neg lower]
      exact ⟨low_field _ level, by rw [high_field _ level]⟩

end Words

section Columns
variable {m : Device} {g : Settings} {order : List Nat} {values : Nat → Nat}

/-- The place where a sensor is named first holds its value. -/
theorem swapped_first {sensorID : Nat} (there : sensorID ∈ order) :
    (swapped order values).getD (order.idxOf sensorID) 0 = values sensorID := by
  induction order generalizing values with
  | nil => exact absurd there List.not_mem_nil
  | cons first rest ih =>
    rw [swapped]
    by_cases here : first = sensorID
    · rw [here, List.idxOf_cons_self, List.getD_cons_zero]
    · have among := (List.mem_cons.mp there).resolve_left (Ne.symm here)
      rw [List.idxOf_cons_ne rest here, Nat.succ_eq_add_one, List.getD_cons_succ, ih among,
        Function.update_of_ne (Ne.symm here)]

theorem swapped_lt (small : ∀ sensorID, values sensorID < 2 ^ 16) :
    ∀ word ∈ swapped order values, word < 2 ^ 16 := by
  induction order generalizing values with
  | nil => exact fun _ there => absurd there List.not_mem_nil
  | cons sensorID rest ih =>
    intro word there
    rcases List.mem_cons.mp there with rfl | later
    · exact small sensorID
    · refine ih (fun other => ?_) word later
      have one : ntohs (values sensorID) < 2 ^ 16 := by
        unfold ntohs
        omega
      by_cases again : other = sensorID
      · rwa [again, Function.update_self]
      · rw [Function.update_of_ne again]
        exact small other

theorem combined_lt (g : Settings) (r : Return) : combined g r < 2 ^ 16 := by
  have reduced := fun x => Nat.mod_lt x (Nat.two_pow_pos 16)
  rw [combined]
  split
  · split
    · exact reduced _
    · exact Nat.two_pow_pos 16
  · exact reduced _

theorem written_words (ordered : g.Ordered m) (firing : Firing) :
    (written g .withIntensity firing).length = m.sensors ∧
      ∀ word ∈ written g .withIntensity firing, word < 2 ^ 16 := by
  have small : ∀ r, Kind.withIntensity.word g r < 2 ^ 16 := combined_lt g
  exact ⟨by rw [written, length_swapped, ordered.length],
    swapped_lt (getD_word_lt small firing.returns)⟩

/-- The word of a sensor's return. -/
theorem written_word (ordered : g.Ordered m) {firing : Firing}
    (whole : firing.returns.length = m.sensors) {sensorID : Nat}
    (there : sensorID ∈ g.sensorOrderIndex) :
    ∃ r, firing.returns[sensorID]? = some r ∧
      (written g .withIntensity firing).getD (g.sensorOrderIndex.idxOf sensorID) 0 =
        combined g r := by
  have inside : sensorID < firing.returns.length := by
    rw [whole]
    exact ordered.inside sensorID there
  refine ⟨firing.returns[sensorID], List.getElem?_eq_getElem inside, ?_⟩
  rw [written, swapped_first there, List.getD_eq_getElem _ _ (by rwa [List.length_map]),
    List.getElem_map]
  rfl

end Columns

/-! ## Runs -/

section Runs
variable {maths : Maths} {m : Device} {g : Settings} {layers : List (List Nat)} {cap : Nat}

theorem setUp_ordered {c : Configuration} {isValid : Bool} {verticalAngle : Nat → ℚ}
    (accepted : setUp m c isValid verticalAngle = .ok g) : g.Ordered m := by
  constructor
  · rw [setUp_order accepted, length_indexSensorIDs]
  · intro sensorID there
    rw [setUp_order accepted] at there
    exact indexSensorIDs_inside there

/-- The scans and the streams with intensity consist of the words of the firings received, each
return's at the place of its sensor, and such a word is decoded as it is meant if and only if there
are bits for the intensity or the distance is 0. -/
theorem words_decodable_iff (maths : Maths) (layout : Layout m layers cap) {c : Configuration}
    {isValid : Bool} {verticalAngle : Nat → ℚ}
    (accepted : setUp m c isValid verticalAngle = .ok g) (withCPC : g.withCPC = true)
    (option : g.CPCIntensityOption = 1 ∨ g.CPCIntensityOption = 2) (memory : Nat → ℚ)
    (payloads : List Bytes) :
    let packets := payloads.filter fun payload => payload.length = 1206
    let frames := framesOf maths m g (packets.flatMap (blocksOf m)) (fresh memory) {}
    ∃ d, run maths m g (fresh memory) payloads = some d ∧
      d.sent.map (fun scan => decodeScan layers (contents scan.withIntensity)) =
        frames.closed.map (fun firings =>
          some ((firings.take cap).map (written g .withIntensity))) ∧
      (∀ i, d.cpc.distanceStringStreamWithIntensity i =
        ((frames.current.take cap).map (written g .withIntensity)).flatMap (columnBytes m i)) ∧
      frames.Each fun firing => ∀ sensorID ∈ g.sensorOrderIndex,
        ∃ r, firing.returns[sensorID]? = some r ∧
          (Decodes g r
              ((written g .withIntensity firing).getD (g.sensorOrderIndex.idxOf sensorID) 0) ↔
            g.numberOfBitsForIntensity ≠ 0 ∨ r.distance g.distanceEncoding = 0) := by
  intro packets frames
  have length : ∀ payload ∈ packets, payload.length = 1206 := by
    intro payload there
    simpa using List.of_mem_filter there
  have divided := layout.divided
  have ordered := setUp_ordered accepted
  have masked := setUp_masked accepted withCPC
  have on : Kind.withIntensity.enabled g := ⟨withCPC, option⟩
  obtain ⟨d, ran, holds⟩ := run_written maths on divided.fits ordered memory length
  refine ⟨d, by rw [run_filter, ran], ?_, ?_, ?_⟩
  · exact decodeScan_sent divided holds.sent (written_words ordered)
  · intro i
    have content := holds.current.content i
    rwa [divided.capacity, ← List.map_take] at content
  · have decodes : ∀ firing : Firing, firing.returns.length = m.sensors →
        ∀ sensorID ∈ g.sensorOrderIndex, ∃ r, firing.returns[sensorID]? = some r ∧
          (Decodes g r
              ((written g .withIntensity firing).getD (g.sensorOrderIndex.idxOf sensorID) 0) ↔
            g.numberOfBitsForIntensity ≠ 0 ∨ r.distance g.distanceEncoding = 0) := by
      intro firing whole sensorID there
      obtain ⟨r, return_, word⟩ := written_word ordered whole there
      exact ⟨r, return_, by rw [word, decodes_combined_iff masked]⟩
    have all : frames.Each fun firing => firing.returns.length = m.sensors :=
      framesOf_whole (blocks_whole divided.fits packets) Frames.Each.empty
    exact ⟨fun received there firing among => decodes firing (all.closed received there firing among),
      fun firing there => decodes firing (all.current firing there)⟩

/-- Four bits of intensity in the higher bits. -/
theorem words_decodable_one_packet :
    let g := compactOnly VLP16 (fun i => i) 1 4 0 1
    let payloads := [uniformPacket (fun blockID => 100 * blockID) ⟨232, 3, 9⟩]
    let packets := payloads.filter fun payload => payload.length = 1206
    let frames := framesOf .atZero VLP16 g (packets.flatMap (blocksOf VLP16)) (fresh fun _ => 0) {}
    ∃ d, run .atZero VLP16 g (fresh fun _ => 0) payloads = some d ∧
      d.sent.map (fun scan => decodeScan [List.range 16] (contents scan.withIntensity)) =
        frames.closed.map (fun firings =>
          some ((firings.take 1875).map (written g .withIntensity))) ∧
      (∀ i, d.cpc.distanceStringStreamWithIntensity i =
        ((frames.current.take 1875).map (written g .withIntensity)).flatMap
          (columnBytes VLP16 i)) ∧
      frames.Each fun firing => ∀ sensorID ∈ g.sensorOrderIndex,
        ∃ r, firing.returns[sensorID]? = some r ∧
          (Decodes g r
              ((written g .withIntensity firing).getD (g.sensorOrderIndex.idxOf sensorID) 0) ↔
            g.numberOfBitsForIntensity ≠ 0 ∨ r.distance g.distanceEncoding = 0) := by
  have accepted : setUp VLP16 ⟨1, 0, 1, 4, 0, 1⟩ false (fun i => i) =
      .ok (compactOnly VLP16 (fun i => i) 1 4 0 1) := rfl
  exact words_decodable_iff .atZero .VLP16 accepted rfl (.inl rfl) (fun _ => 0) _

/-- No bits for the intensity: the first word for a packet full of distances of 2 m is 0. -/
theorem no_bits_lose_the_distance :
    let g := compactOnly VLP16 (fun i => i) 1 0 0 1
    setUp VLP16 ⟨1, 0, 1, 0, 0, 1⟩ false (fun i => i) = .ok g ∧
      (run .atZero VLP16 g (fresh fun _ => 0)
        [uniformPacket (fun blockID => 100 * blockID) ⟨232, 3, 9⟩]).map
          (fun d => (words (d.cpc.distanceStringStreamWithIntensity 0)).head?) =
        some (some 0) ∧
      ¬ Decodes g ⟨232, 3, 9⟩ 0 := by
  refine ⟨rfl, ?_, ?_⟩
  · have length : ∀ payload ∈ [uniformPacket (fun blockID => 100 * blockID) ⟨232, 3, 9⟩],
        payload.length = 1206 := by
      intro payload there
      rw [List.mem_singleton.mp there, length_uniformPacket]
    rw [run_eq _ length, List.flatMap_singleton, blocksOf_uniformPacket VLP16 fun b _ => by omega]
    decide +kernel
  · intro decodes
    exact absurd decodes.2 (by decide)

end Runs

end OpendlvCore.Velodyne
