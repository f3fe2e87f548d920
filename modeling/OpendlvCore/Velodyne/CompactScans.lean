import OpendlvCore.Velodyne.CompactClouds

/-!
# What a receiver makes of a scan

The clouds of a scan hold the layers of each column in parts. Put together again they
give the distances of every firing received since the scan before, up to the maximum.
-/
namespace OpendlvCore.Velodyne
open CBytes Columns

section Definitions

/-- The columns of a scan, from the layers of each of its clouds; `none` if the clouds do not
have these layers or not the same number of columns. -/
def decodeScan (layers : List (List Nat)) (clouds : List (Nat × Bytes)) :
    Option (List (List Nat)) :=
  let firings := (clouds.map fun c => c.2.length / (2 * c.1)).headD 0
  if clouds.map Prod.fst = layers.map List.length ∧ ∀ c ∈ clouds, c.2.length = 2 * c.1 * firings then
    (List.range firings).mapM fun k =>
      merge layers.flatten.length layers (clouds.map fun c => words (record (2 * c.1) k c.2))
  else none

/-- The layers of the clouds of a scan, as the documentation lists them, and the number of
firings that fit. -/
inductive Layout : Device → List (List Nat) → Nat → Prop
  | VLP16 : Layout VLP16 [List.range 16] 1875
  | HDL32E : Layout HDL32E
      [[0, 1, 4, 7, 10, 13, 16, 19, 22, 25, 28, 31], [2, 3, 6, 9, 12, 15, 18, 21, 24, 27, 30],
        [5, 8, 11, 14, 17, 20, 23, 26, 29]] 2187

end Definitions

section Decoding
variable {m : Device} {g : Settings} {layers : List (List Nat)} {cap : Nat}

/-- What the code writes is divided as the documentation says. -/
structure Device.Divided (m : Device) (layers : List (List Nat)) (cap : Nat) : Prop where
  layers_eq : layers = (List.range m.entriesPerAzimuth.length).map m.layersOf
  entries : m.entriesPerAzimuth = layers.map List.length
  parts : 0 < m.entriesPerAzimuth.length
  positive : ∀ layer ∈ layers, layer ≠ []
  all : ∀ l < m.sensors, l ∈ layers.flatten
  count : layers.flatten.length = m.sensors
  capacity : m.capacity = cap
  short : ∀ layer ∈ layers, 2 * layer.length * cap < 65535
  fits : m.Fits

theorem Layout.divided (layout : Layout m layers cap) : m.Divided layers cap := by
  cases layout with
  | VLP16 =>
    exact ⟨by decide, by decide, by decide, by decide, by decide, by decide, by decide, by decide,
      fits_VLP16⟩
  | HDL32E =>
    exact ⟨by decide, by decide, by decide, by decide, by decide, by decide, by decide, by decide,
      fits_HDL32E⟩

theorem length_columnBytes (i : Nat) (column : List Nat) :
    (columnBytes m i column).length = 2 * (m.layersOf i).length :=
  length_flatMap_records _ _ fun _ _ => rfl

/-- The layers of a part, read back from its bytes. -/
theorem words_columnBytes (i : Nat) (column : List Nat) (small : ∀ w ∈ column, w < 2 ^ 16) :
    words (columnBytes m i column) = (m.layersOf i).map fun layer => column.getD layer 0 := by
  have encoded : columnBytes m i column =
      ((m.layersOf i).map fun layer => column.getD layer 0).flatMap bigEndian := by
    rw [columnBytes, List.flatMap_map]
  rw [encoded, words_flatMap_bigEndian]
  intro w there
  obtain ⟨layer, -, rfl⟩ := List.mem_map.mp there
  by_cases inside : layer < column.length
  · rw [List.getD_eq_getElem _ _ inside]
    exact small _ (List.getElem_mem inside)
  · rw [List.getD_eq_default _ _ (Nat.not_lt.mp inside)]
    decide

theorem map_getD_range {α : Type} (xs : List α) (default : α) :
    (List.range xs.length).map (fun k => xs.getD k default) = xs := by
  apply List.ext_getElem
  · rw [List.length_map, List.length_range]
  · intro k low inside
    rw [List.getElem_map, List.getElem_range, List.getD_eq_getElem _ _ inside]

theorem cloudsOf_eq (divided : m.Divided layers cap) (columns : List (List Nat)) :
    cloudsOf m columns = (List.range m.entriesPerAzimuth.length).map fun i =>
      ((m.layersOf i).length, (columns.take cap).flatMap (columnBytes m i)) := by
  apply List.ext_getElem
  · rw [cloudsOf, List.length_mapIdx, List.length_map, List.length_range]
  · intro i low high
    have entries : m.entriesPerAzimuth[i]? = (layers.map List.length)[i]? := by rw [← divided.entries]
    rw [cloudsOf, List.length_mapIdx] at low
    rw [divided.layers_eq, List.map_map, List.getElem?_map, List.getElem?_range low,
      List.getElem?_eq_getElem low, Option.map_some, Option.some_inj] at entries
    simp only [cloudsOf, List.getElem_mapIdx, List.getElem_map, List.getElem_range, entries,
      divided.capacity, Function.comp_apply]

/-- The receiver gets the columns that were written. -/
theorem decodeScan_cloudsOf (divided : m.Divided layers cap) {columns : List (List Nat)}
    (words : ∀ column ∈ columns, column.length = m.sensors ∧ ∀ w ∈ column, w < 2 ^ 16) :
    decodeScan layers (cloudsOf m columns) = some (columns.take cap) := by
  have clouds := cloudsOf_eq divided columns
  generalize written : columns.take cap = taken at clouds ⊢
  have lengths : ∀ i, (taken.flatMap (columnBytes m i)).length =
      2 * (m.layersOf i).length * taken.length := fun i =>
    length_flatMap_records _ _ fun column _ => length_columnBytes i column
  have nonempty : ∀ i ∈ List.range m.entriesPerAzimuth.length, 0 < (m.layersOf i).length := by
    intro i low
    apply List.length_pos_of_ne_nil
    apply divided.positive
    rw [divided.layers_eq]
    exact List.mem_map_of_mem low
  have firings : ((cloudsOf m columns).map fun c => c.2.length / (2 * c.1)).headD 0 =
      taken.length := by
    obtain ⟨rest, cons⟩ : ∃ rest, List.range m.entriesPerAzimuth.length = 0 :: rest :=
      ⟨_, by rw [← Nat.succ_pred_eq_of_pos divided.parts, List.range_succ_eq_map]⟩
    have first := nonempty 0 (by rw [cons]; exact List.mem_cons_self)
    rw [clouds, cons, List.map_cons, List.map_cons, List.headD_cons]
    simp only [lengths]
    exact Nat.mul_div_cancel_left _ (by omega)
  have shape : (cloudsOf m columns).map Prod.fst = layers.map List.length := by
    rw [clouds, divided.layers_eq, List.map_map, List.map_map]
    rfl
  have equal : ∀ c ∈ cloudsOf m columns, c.2.length = 2 * c.1 * taken.length := by
    intro c there
    rw [clouds] at there
    obtain ⟨i, -, rfl⟩ := List.mem_map.mp there
    exact lengths i
  rw [decodeScan]
  simp only [firings]
  rw [if_pos ⟨shape, equal⟩, divided.count]
  have each : ∀ k ∈ List.range taken.length,
      merge m.sensors layers ((cloudsOf m columns).map fun c =>
        Columns.words (record (2 * c.1) k c.2)) = some (taken.getD k []) := by
    intro k low
    rw [List.mem_range] at low
    have there : taken[k] ∈ columns := by
      apply List.mem_of_mem_take (i := cap)
      rw [written]
      exact List.getElem_mem low
    obtain ⟨length, small⟩ := words _ there
    have parts : ((cloudsOf m columns).map fun c => Columns.words (record (2 * c.1) k c.2)) =
        layers.map fun layer => layer.map fun l => taken[k].getD l 0 := by
      rw [clouds, divided.layers_eq, List.map_map, List.map_map]
      apply List.map_congr_left
      intro i _
      have one := record_flatMap (columnBytes m i) taken (fun c _ => length_columnBytes i c) low
      rw [Function.comp_apply, Function.comp_apply, one, words_columnBytes i _ small]
    rw [parts, merge_layers divided.all, ← length, map_getD_range, List.getD_eq_getElem _ _ low]
  rw [mapM_some _ each, map_getD_range]

/-- The same for all scans of a run. -/
theorem decodeScan_sent (divided : m.Divided layers cap) {scans : List Scan}
    {closed : List (List Firing)} {clouds : Scan → List CompactPointCloud}
    {columnOf : Firing → List Nat}
    (sent : scans.map (fun scan => contents (clouds scan)) =
      closed.map fun firings => cloudsOf m (firings.map columnOf))
    (words : ∀ firing, (columnOf firing).length = m.sensors ∧ ∀ w ∈ columnOf firing, w < 2 ^ 16) :
    scans.map (fun scan => decodeScan layers (contents (clouds scan))) =
      closed.map fun firings => some ((firings.take cap).map columnOf) := by
  have decoded := congrArg (List.map (decodeScan layers)) sent
  rw [List.map_map, List.map_map] at decoded
  refine decoded.trans (List.map_congr_left fun firings _ => ?_)
  have columns : ∀ column ∈ firings.map columnOf,
      column.length = m.sensors ∧ ∀ w ∈ column, w < 2 ^ 16 := by
    intro column there
    obtain ⟨firing, -, rfl⟩ := List.mem_map.mp there
    exact words firing
  rw [Function.comp_apply, decodeScan_cloudsOf divided columns, ← List.map_take]

theorem distance_lt (r : Return) (distanceEncoding : Nat) : r.distance distanceEncoding < 2 ^ 16 := by
  have raw : r.raw < 2 ^ 16 := by
    unfold Return.raw ntohs
    omega
  unfold Return.distance
  split <;> omega

/-- The word of a sensor, or 0 where there is none. -/
theorem getD_word_lt {kind : Kind} (small : ∀ r, kind.word g r < 2 ^ 16) (returns : List Return)
    (sensorID : Nat) : (returns.map (kind.word g)).getD sensorID 0 < 2 ^ 16 := by
  by_cases inside : sensorID < (returns.map (kind.word g)).length
  · rw [List.getD_eq_getElem _ _ inside, List.getElem_map]
    exact small _
  · rw [List.getD_eq_default _ _ (Nat.not_lt.mp inside)]
    decide

theorem column_words {kind : Kind} (order : g.sensorOrderIndex.length = m.sensors)
    (small : ∀ r, kind.word g r < 2 ^ 16) (firing : Firing) :
    (column g kind firing).length = m.sensors ∧ ∀ w ∈ column g kind firing, w < 2 ^ 16 := by
  refine ⟨by rw [column, List.length_map, order], ?_⟩
  intro w there
  obtain ⟨sensorID, -, rfl⟩ := List.mem_map.mp there
  exact getD_word_lt small firing.returns sensorID

end Decoding

/-! ## Results -/

section Results
variable {maths : Maths} {m : Device} {g : Settings} {layers : List (List Nat)} {cap : Nat}

/-- What is accepted, and what is constructed for it. -/
theorem setUp_cases {c : Configuration} {isValid : Bool} {verticalAngle : Nat → ℚ}
    (accepted : setUp m c isValid verticalAngle = .ok g) :
    (c.CPCIntensityOption % 256 = 0 ∨ c.CPCIntensityOption % 256 = 1 ∨
        c.CPCIntensityOption % 256 = 2) ∧
      c.numberOfBitsForIntensity % 256 ≤ 7 ∧
      (c.intensityPlacement % 256 = 0 ∨ c.intensityPlacement % 256 = 1) ∧
      ((∃ withCPC, g = withSharedMemory m isValid verticalAngle withCPC (c.SPCOption % 256)
          (c.CPCIntensityOption % 256) (c.numberOfBitsForIntensity % 256)
          (c.intensityPlacement % 256) (c.distanceEncoding % 256)) ∨
        g = compactOnly m verticalAngle (c.CPCIntensityOption % 256)
          (c.numberOfBitsForIntensity % 256) (c.intensityPlacement % 256)
          (c.distanceEncoding % 256)) := by
  have option : ∀ n : Nat, ¬ (n ≠ 0 ∧ n ≠ 1 ∧ n ≠ 2) → n = 0 ∨ n = 1 ∨ n = 2 := by omega
  have placement : ∀ n : Nat, ¬ (n ≠ 0 ∧ n ≠ 1) → n = 0 ∨ n = 1 := by omega
  unfold setUp at accepted
  simp only at accepted
  -- One value after the other is rejected, then the constructor is chosen.
  split at accepted
  · cases accepted
  split at accepted
  · cases accepted
  split at accepted
  · cases accepted
  rename_i options
  split at accepted
  · cases accepted
  rename_i bits
  split at accepted
  · cases accepted
  rename_i placements
  split at accepted
  · cases accepted
  refine ⟨option _ options, Nat.not_lt.mp bits, placement _ placements, ?_⟩
  split at accepted
  · exact .inl ⟨false, (Except.ok.inj accepted).symm⟩
  split at accepted
  · exact .inl ⟨true, (Except.ok.inj accepted).symm⟩
  · exact .inr (Except.ok.inj accepted).symm

theorem setUp_order {c : Configuration} {isValid : Bool} {verticalAngle : Nat → ℚ}
    (accepted : setUp m c isValid verticalAngle = .ok g) :
    g.sensorOrderIndex = indexSensorIDs m.sensors verticalAngle := by
  obtain ⟨-, -, -, ⟨withCPC, rfl⟩ | rfl⟩ := setUp_cases accepted <;> rfl

/-- Every scan of a VLP-16 or an HDL-32E decodes to the firings received since the send before
it, as far as they fit, each as the distances of its sensors in increasing order of the vertical
angles. -/
theorem no_intensity_scans (maths : Maths) (layout : Layout m layers cap) {c : Configuration}
    {isValid : Bool} {verticalAngle : Nat → ℚ}
    (accepted : setUp m c isValid verticalAngle = .ok g) (withCPC : g.withCPC = true)
    (option : g.CPCIntensityOption = 0 ∨ g.CPCIntensityOption = 2)
    (apart : Apart m.sensors verticalAngle) (memory : Nat → ℚ) {payloads : List Bytes}
    (length : ∀ payload ∈ payloads, payload.length = 1206) :
    Increasing m.sensors verticalAngle g.sensorOrderIndex ∧
      ∃ d, run maths m g (fresh memory) payloads = some d ∧
        d.sent.map (fun scan => decodeScan layers (contents scan.noIntensity)) =
          (framesOf maths m g (payloads.flatMap (blocksOf m)) (fresh memory) {}).closed.map
            (fun firings => some ((firings.take cap).map fun firing =>
              g.sensorOrderIndex.map fun sensorID =>
                (firing.returns.map fun r => r.distance g.distanceEncoding).getD sensorID 0)) ∧
        ∀ scan ∈ d.sent, ∀ cloud ∈ scan.noIntensity, cloud.distances.length < 65535 := by
  have increasing : Increasing m.sensors verticalAngle g.sensorOrderIndex := by
    rw [setUp_order accepted]
    exact indexSensorIDs_increasing apart
  have divided := layout.divided
  have on : Kind.noIntensity.enabled g := ⟨withCPC, option⟩
  obtain ⟨d, ran, holds⟩ := run_columns maths on divided.fits increasing.perm memory length
  refine ⟨increasing, d, ran, ?_, ?_⟩
  · have order : g.sensorOrderIndex.length = m.sensors := by
      rw [increasing.perm.length_eq, List.length_range]
    have small : ∀ r, Kind.noIntensity.word g r < 2 ^ 16 := fun r => distance_lt r g.distanceEncoding
    exact decodeScan_sent divided holds.sent (column_words order small)
  · intro scan sent cloud there
    have among : contents scan.noIntensity ∈ d.sent.map fun scan => contents (scan.noIntensity) :=
      List.mem_map_of_mem sent
    rw [show (d.sent.map fun scan => contents scan.noIntensity) = _ from holds.sent] at among
    obtain ⟨firings, -, clouds⟩ := List.mem_map.mp among
    have part : (cloud.entriesPerAzimuth, cloud.distances) ∈ contents scan.noIntensity :=
      List.mem_map_of_mem there
    rw [← clouds, cloudsOf_eq divided] at part
    obtain ⟨i, low, same⟩ := List.mem_map.mp part
    obtain ⟨-, distances⟩ := Prod.mk.inj same
    have layer : m.layersOf i ∈ layers := by
      rw [divided.layers_eq]
      exact List.mem_map_of_mem low
    have short := divided.short _ layer
    rw [← distances, length_flatMap_records _ _ fun column _ => length_columnBytes i column,
      List.length_take]
    calc 2 * (m.layersOf i).length * min cap (firings.map (column g .noIntensity)).length
        ≤ 2 * (m.layersOf i).length * cap := Nat.mul_le_mul_left _ (Nat.min_le_left _ _)
      _ < 65535 := short

theorem no_intensity_scans_two_packets :
    Increasing 16 (fun i => i) (indexSensorIDs 16 fun i => i) ∧
      ∃ d, run .atZero VLP16 (compactOnly VLP16 (fun i => i) 0 0 0 0) (fresh fun _ => 0)
          [List.replicate 1206 255, List.replicate 1206 0] = some d ∧
        d.sent.map (fun scan => decodeScan [List.range 16] (contents scan.noIntensity)) =
          (framesOf .atZero VLP16 (compactOnly VLP16 (fun i => i) 0 0 0 0)
            ([List.replicate 1206 255, List.replicate 1206 0].flatMap (blocksOf VLP16))
            (fresh fun _ => 0) {}).closed.map
            (fun firings => some ((firings.take 1875).map fun firing =>
              (indexSensorIDs 16 fun i => i).map fun sensorID =>
                (firing.returns.map fun r => r.distance 0).getD sensorID 0)) ∧
        ∀ scan ∈ d.sent, ∀ cloud ∈ scan.noIntensity, cloud.distances.length < 65535 := by
  have accepted : setUp VLP16 ⟨1, 0, 0, 0, 0, 0⟩ false (fun i => i) =
      .ok (compactOnly VLP16 (fun i => i) 0 0 0 0) := rfl
  exact no_intensity_scans .atZero .VLP16 accepted rfl (.inl rfl) (apart_unit 16) (fun _ => 0)
    length_two_packets

end Results

end OpendlvCore.Velodyne
