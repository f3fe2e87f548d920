import OpendlvCore.Columns
import OpendlvCore.Velodyne.Frames
import Mathlib.Data.List.GetD

/-!
# What the compact point clouds contain

A firing is a column: one word for each sensor, in increasing order of the vertical
angles. Columns are written as long as a whole one fits below the maximum number of
points, so the distances of a scan decode to the columns received first. Clouds with and
without intensity differ in the word that stands for a return.

Nothing is assumed of the order of the sensors: a calibration that does not tell two of them
apart makes it name a sensor twice.
-/
namespace OpendlvCore.Velodyne
open CBytes Columns

/-! ## A writer of columns -/

/-- The part of the compact point cloud that one kind of clouds is written with. -/
structure Writer where
  pointIndex : Nat
  values : Nat → Nat
  streams : Nat → Bytes

inductive Kind where
  | noIntensity
  | withIntensity
  deriving DecidableEq, Repr

namespace Kind

def enabled (g : Settings) : Kind → Prop
  | noIntensity => g.withCPC = true ∧ (g.CPCIntensityOption = 0 ∨ g.CPCIntensityOption = 2)
  | withIntensity => g.withCPC = true ∧ (g.CPCIntensityOption = 1 ∨ g.CPCIntensityOption = 2)

/-- The word for a return. -/
def word (g : Settings) : Kind → Return → Nat
  | noIntensity, r => r.distance g.distanceEncoding
  | withIntensity, r => combined g r

def writer (cpc : Compact) : Kind → Writer
  | noIntensity => ⟨cpc.pointIndex, cpc.sensorsNoIntensity, cpc.distanceStringStreamNoIntensity⟩
  | withIntensity => ⟨cpc.pointIndex, cpc.sensorsWithIntensity, cpc.distanceStringStreamWithIntensity⟩

def clouds (scan : Scan) : Kind → List CompactPointCloud
  | noIntensity => scan.noIntensity
  | withIntensity => scan.withIntensity

end Kind

section Definitions
variable (m : Device) (g : Settings)

def Writer.store (sensorID value : Nat) (w : Writer) : Writer :=
  if w.pointIndex < m.MAX_POINT_SIZE then
    let (values, streams) := storeValue m g sensorID value w.values w.streams
    { pointIndex := w.pointIndex + 1, values, streams }
  else w

def Writer.storeAll : Nat → List Nat → Writer → Writer
  | _, [], w => w
  | sensorID, value :: rest, w => storeAll (sensorID + 1) rest (w.store m g sensorID value)

/-- The values of the sensors from `sensorID` on replaced. -/
def assign : Nat → List Nat → (Nat → Nat) → Nat → Nat
  | _, [], values => values
  | sensorID, value :: rest, values => assign (sensorID + 1) rest (Function.update values sensorID value)

/-- The layers that a part of a scan is made of. -/
def Device.layersOf (i : Nat) : List Nat := (List.range m.sensors).filter fun index => m.part index = i

/-- What a column contributes to one of the string streams. -/
def columnBytes (i : Nat) (column : List Nat) : Bytes :=
  (m.layersOf i).flatMap fun layer => bigEndian (column.getD layer 0)

/-- The firings of a scan that are written. -/
def Device.capacity : Nat := m.MAX_POINT_SIZE / m.sensors

def column (kind : Kind) (firing : Firing) : List Nat :=
  g.sensorOrderIndex.map fun sensorID => (firing.returns.map (kind.word g)).getD sensorID 0

/-- The words of a column in the order in which they are written. The octets of a sensor are
swapped in place, and once more where the order names it again. -/
def swapped : List Nat → (Nat → Nat) → List Nat
  | [], _ => []
  | sensorID :: rest, values =>
    values sensorID :: swapped rest (Function.update values sensorID (ntohs (values sensorID)))

/-- A firing as it is written, whatever the order of the sensors is. -/
def written (kind : Kind) (firing : Firing) : List Nat :=
  swapped g.sensorOrderIndex fun sensorID => (firing.returns.map (kind.word g)).getD sensorID 0

/-- The columns of the firings, up to the maximum. -/
structure Writer.Writes (w : Writer) (columns : List (List Nat)) : Prop where
  count : w.pointIndex = min (m.sensors * columns.length) m.MAX_POINT_SIZE
  content : ∀ i, w.streams i = (columns.take m.capacity).flatMap (columnBytes m i)

end Definitions

section Writing
variable {m : Device} {g : Settings} {w : Writer}

/-- The octets of a swapped value, in the order of memory. -/
theorem toLE_ntohs (value : Nat) : toLE 2 (ntohs value) = bigEndian value := by
  have first : ntohs value % 256 = value / 256 % 256 := by
    unfold ntohs
    omega
  have second : ntohs value / 256 % 256 = value % 256 := by
    rw [ntohs, Nat.mul_comm, Nat.mul_add_div (by decide)]
    omega
  have octet : ∀ n, UInt8.ofNat (n % 256) = UInt8.ofNat n := by
    intro n
    apply UInt8.toNat_inj.mp
    rw [UInt8.toNat_ofNat', UInt8.toNat_ofNat']
    omega
  rw [toLE, toLE, toLE, first, second, octet, octet]
  rfl

theorem length_swapped (order : List Nat) (values : Nat → Nat) :
    (swapped order values).length = order.length := by
  induction order generalizing values with
  | nil => rfl
  | cons sensorID rest ih => rw [swapped, List.length_cons, ih, List.length_cons]

theorem swapped_congr {order : List Nat} {values values' : Nat → Nat}
    (same : ∀ sensorID ∈ order, values sensorID = values' sensorID) :
    swapped order values = swapped order values' := by
  induction order generalizing values values' with
  | nil => rfl
  | cons sensorID rest ih =>
    have here := same sensorID List.mem_cons_self
    rw [swapped, swapped, here]
    congr 1
    apply ih
    intro other there
    by_cases again : other = sensorID
    · rw [again, Function.update_self, Function.update_self]
    · rw [Function.update_of_ne again, Function.update_of_ne again]
      exact same other (List.mem_cons_of_mem _ there)

/-- Where every sensor occurs once, no value is swapped twice. -/
theorem swapped_of_nodup {order : List Nat} (once : order.Nodup) (values : Nat → Nat) :
    swapped order values = order.map values := by
  induction order generalizing values with
  | nil => rfl
  | cons sensorID rest ih =>
    rw [List.nodup_cons] at once
    rw [swapped, ih once.2, List.map_cons]
    congr 1
    apply List.map_congr_left
    intro other there
    exact Function.update_of_ne (ne_of_mem_of_not_mem there once.1) _ _

theorem writeColumn_streams (order : List Nat) (start : Nat) (values : Nat → Nat)
    (streams : Nat → Bytes) (i : Nat) :
    (writeColumn m (order.zipIdx start) values streams).2 i = streams i ++
      (((swapped order values).zipIdx start).filter fun p => m.part p.2 = i).flatMap
        fun p => bigEndian p.1 := by
  induction order generalizing start values streams with
  | nil => exact (List.append_nil _).symm
  | cons sensorID rest ih =>
    rw [List.zipIdx_cons, writeColumn, ih, swapped, List.zipIdx_cons, Function.update_self,
      toLE_ntohs]
    by_cases here : m.part start = i
    · rw [List.filter_cons_of_pos (by simpa using here), List.flatMap_cons, here,
        Function.update_self, List.append_assoc]
    · rw [List.filter_cons_of_neg (by simpa using here), Function.update_of_ne (Ne.symm here)]

/-- The words of one part, by their layers. -/
theorem columnBytes_eq (i : Nat) {column : List Nat} (length : column.length = m.sensors) :
    (column.zipIdx.filter fun p => m.part p.2 = i).flatMap (fun p => bigEndian p.1) =
      columnBytes m i column := by
  have pairs : column.zipIdx =
      (List.range m.sensors).map fun layer => (column.getD layer 0, layer) := by
    apply List.ext_getElem
    · rw [List.length_zipIdx, List.length_map, List.length_range, length]
    · intro k low _
      rw [List.length_zipIdx] at low
      rw [List.getElem_zipIdx, List.getElem_map, List.getElem_range, List.getD_eq_getElem _ _ low,
        Nat.zero_add]
  rw [pairs, List.filter_map, List.flatMap_map]
  rfl

/-- The last sensor's value completes the column. -/
theorem storeValue_last (values : Nat → Nat) (streams : Nat → Bytes) (value i : Nat)
    (length : g.sensorOrderIndex.length = m.sensors) :
    (storeValue m g (m.sensors - 1) value values streams).2 i = streams i ++
      columnBytes m i (swapped g.sensorOrderIndex (Function.update values (m.sensors - 1) value)) := by
  rw [storeValue]
  simp only [if_true]
  rw [writeColumn_streams, columnBytes_eq i (by rw [length_swapped, length])]

/-- Beyond the maximum number of points nothing is stored. -/
theorem storeAll_of_full (full : m.MAX_POINT_SIZE ≤ w.pointIndex) (sensorID : Nat)
    (words : List Nat) : w.storeAll m g sensorID words = w := by
  induction words generalizing sensorID with
  | nil => rfl
  | cons word rest ih =>
    rw [Writer.storeAll, Writer.store, if_neg (Nat.not_lt.mpr full)]
    exact ih (sensorID + 1)

theorem storeAll_pointIndex (words : List Nat) (sensorID : Nat) (w : Writer)
    (below : w.pointIndex ≤ m.MAX_POINT_SIZE) :
    (w.storeAll m g sensorID words).pointIndex =
      min (w.pointIndex + words.length) m.MAX_POINT_SIZE := by
  induction words generalizing sensorID w with
  | nil => exact (Nat.min_eq_left below).symm
  | cons word rest ih =>
    rw [List.length_cons]
    by_cases full : m.MAX_POINT_SIZE ≤ w.pointIndex
    · rw [storeAll_of_full full]
      omega
    · rw [Writer.storeAll, Writer.store, if_pos (Nat.lt_of_not_le full), ih]
      · change min (w.pointIndex + 1 + rest.length) _ = _
        rw [Nat.add_assoc, Nat.add_comm 1]
      · change w.pointIndex + 1 ≤ _
        omega

/-- A column that fits. -/
theorem storeAll_room (length : g.sensorOrderIndex.length = m.sensors) (words : List Nat) (sensorID : Nat) (w : Writer)
    (ends : sensorID + words.length = m.sensors) (some : words ≠ [])
    (room : w.pointIndex + words.length ≤ m.MAX_POINT_SIZE) (i : Nat) :
    (w.storeAll m g sensorID words).streams i = w.streams i ++
      columnBytes m i (swapped g.sensorOrderIndex (assign sensorID words w.values)) := by
  induction words generalizing sensorID w with
  | nil => exact absurd rfl some
  | cons word rest ih =>
    rw [List.length_cons] at ends room
    rw [Writer.storeAll, Writer.store, if_pos (by omega), assign]
    simp only
    cases rest with
    | nil =>
      have last : sensorID = m.sensors - 1 := by
        rw [List.length_nil] at ends
        omega
      rw [last]
      exact storeValue_last w.values w.streams word i length
    | cons word' rest' =>
      have inner : ¬ sensorID = m.sensors - 1 := by
        rw [List.length_cons] at ends
        omega
      rw [storeValue, if_neg inner]
      apply ih (sensorID + 1) _ _ (List.cons_ne_nil _ _)
      · change w.pointIndex + 1 + _ ≤ _
        omega
      · omega

/-- A column that does not fit leaves no trace in the streams. -/
theorem storeAll_short (words : List Nat) (sensorID : Nat) (w : Writer)
    (ends : sensorID + words.length = m.sensors)
    (short : m.MAX_POINT_SIZE < w.pointIndex + words.length) :
    (w.storeAll m g sensorID words).streams = w.streams := by
  induction words generalizing sensorID w with
  | nil => rfl
  | cons word rest ih =>
    rw [List.length_cons] at ends short
    by_cases full : m.MAX_POINT_SIZE ≤ w.pointIndex
    · rw [storeAll_of_full full]
    · have inner : ¬ sensorID = m.sensors - 1 := by omega
      rw [Writer.storeAll, Writer.store, if_pos (by omega), storeValue, if_neg inner]
      apply ih (sensorID + 1)
      · omega
      · change _ < w.pointIndex + 1 + _
        omega

theorem assign_before (words : List Nat) (sensorID k : Nat) (values : Nat → Nat)
    (before : k < sensorID) : assign sensorID words values k = values k := by
  induction words generalizing sensorID values with
  | nil => rfl
  | cons word rest ih =>
    rw [assign, ih _ _ (by omega), Function.update_of_ne (by omega)]

theorem assign_eq (words : List Nat) (sensorID k : Nat) (values : Nat → Nat)
    (inside : k < words.length) : assign sensorID words values (sensorID + k) = words.getD k 0 := by
  induction words generalizing sensorID values k with
  | nil => exact absurd inside (Nat.not_lt_zero k)
  | cons word rest ih =>
    rw [assign]
    cases k with
    | zero =>
      have kept := assign_before rest (sensorID + 1) sensorID
        (Function.update values sensorID word) (Nat.lt_add_one _)
      change assign (sensorID + 1) rest (Function.update values sensorID word) sensorID = word
      rw [kept, Function.update_self]
    | succ k =>
      have next := ih (sensorID + 1) k (Function.update values sensorID word)
        (Nat.lt_of_succ_lt_succ inside)
      rw [List.getD_cons_succ, ← next, Nat.add_assoc, Nat.add_comm 1 k]

/-- One more column. -/
theorem Writer.Writes.column {columns : List (List Nat)} (writes : w.Writes m columns)
    (length : g.sensorOrderIndex.length = m.sensors)
    (inside : ∀ sensorID ∈ g.sensorOrderIndex, sensorID < m.sensors) (some : 0 < m.sensors)
    (words : List Nat) (count : words.length = m.sensors) :
    (w.storeAll m g 0 words).Writes m
      (columns ++ [swapped g.sensorOrderIndex fun sensorID => words.getD sensorID 0]) := by
  have values : swapped g.sensorOrderIndex (assign 0 words w.values) =
      swapped g.sensorOrderIndex fun sensorID => words.getD sensorID 0 := by
    apply swapped_congr
    intro sensorID there
    have low := inside sensorID there
    have value := assign_eq words 0 sensorID w.values (by omega)
    rwa [Nat.zero_add] at value
  have count' := writes.count
  have longer : m.sensors * (columns ++ [swapped g.sensorOrderIndex fun sensorID =>
      words.getD sensorID 0]).length = m.sensors * columns.length + m.sensors := by
    rw [List.length_append, List.length_singleton, Nat.mul_succ]
  constructor
  · rw [storeAll_pointIndex _ _ _ (by omega), longer]
    omega
  · intro i
    by_cases fits : m.sensors * columns.length + m.sensors ≤ m.MAX_POINT_SIZE
    · have inside : columns.length + 1 ≤ m.capacity := by
        rw [Device.capacity, Nat.le_div_iff_mul_le some, Nat.mul_comm, Nat.mul_succ]
        exact fits
      have streams := storeAll_room length words 0 w (by omega)
        (List.ne_nil_of_length_pos (by omega)) (by omega) i
      rw [streams, writes.content i, values, List.take_of_length_le (by omega),
        List.take_of_length_le (by rw [List.length_append, List.length_singleton]; omega),
        List.flatMap_append, List.flatMap_singleton]
    · have outside : m.capacity ≤ columns.length := by
        rw [← Nat.lt_succ_iff, Device.capacity, Nat.div_lt_iff_lt_mul some, Nat.mul_comm,
          Nat.mul_succ]
        omega
      have streams := storeAll_short (m := m) (g := g) words 0 w (by omega) (by omega)
      rw [streams, writes.content i, List.take_append_of_le_length outside]

/-- A column behind the last point changes nothing. -/
theorem Writer.Writes.beyond {columns : List (List Nat)} (writes : w.Writes m columns)
    (full : m.MAX_POINT_SIZE ≤ w.pointIndex) (some : 0 < m.sensors) (column : List Nat) :
    w.Writes m (columns ++ [column]) := by
  have count := writes.count
  have outside : m.capacity ≤ columns.length := by
    apply Nat.div_le_of_le_mul
    omega
  constructor
  · rw [count, List.length_append, List.length_singleton, Nat.mul_succ]
    omega
  · intro i
    rw [writes.content i, List.take_append_of_le_length outside]

theorem Writer.Writes.empty (values : Nat → Nat) : Writer.Writes m ⟨0, values, fun _ => []⟩ [] :=
  ⟨by rw [List.length_nil, Nat.mul_zero, Nat.zero_min], fun i => by
    rw [List.take_nil, List.flatMap_nil]⟩

end Writing

/-! ## The scans of a run -/

section Definitions
variable (m : Device) (g : Settings)

/-- The entries per azimuth and the distances of the clouds of a scan. -/
def contents (clouds : List CompactPointCloud) : List (Nat × Bytes) :=
  clouds.map fun c => (c.entriesPerAzimuth, c.distances)

/-- The clouds of the first columns. -/
def cloudsOf (columns : List (List Nat)) : List (Nat × Bytes) :=
  m.entriesPerAzimuth.mapIdx fun i entries =>
    (entries, (columns.take m.capacity).flatMap (columnBytes m i))

/-- The columns since the last scan are being written, those before have been sent. -/
structure HoldsColumns (kind : Kind) (d : Decoder) (f : Frames Firing) : Prop where
  current : (kind.writer d.cpc).Writes m (f.current.map (column g kind))
  sent : d.sent.map (fun scan => contents (kind.clouds scan)) =
    f.closed.map fun firings => cloudsOf m (firings.map (column g kind))

/-- The same for any order of the sensors. -/
structure HoldsWritten (kind : Kind) (d : Decoder) (f : Frames Firing) : Prop where
  current : (kind.writer d.cpc).Writes m (f.current.map (written g kind))
  sent : d.sent.map (fun scan => contents (kind.clouds scan)) =
    f.closed.map fun firings => cloudsOf m (firings.map (written g kind))

/-- The order has a place for every layer and names nothing but sensors. -/
structure Settings.Ordered : Prop where
  length : g.sensorOrderIndex.length = m.sensors
  inside : ∀ sensorID ∈ g.sensorOrderIndex, sensorID < m.sensors

end Definitions

section Runs
variable {maths : Maths} {m : Device} {g : Settings} {kind : Kind}

/-- Each kind of clouds has a writer of its own, moved by one counter. -/
theorem storeCPC_writer (on : kind.enabled g) (sensorID : Nat) (r : Return) (cpc : Compact) :
    kind.writer (storeCPC m g sensorID r cpc) =
      (kind.writer cpc).store m g sensorID (kind.word g r) := by
  cases kind with
  | noIntensity =>
    obtain ⟨withCPC, option⟩ := on
    change _ = Writer.store m g sensorID (r.distance g.distanceEncoding)
      ⟨cpc.pointIndex, cpc.sensorsNoIntensity, cpc.distanceStringStreamNoIntensity⟩
    rw [storeCPC, Writer.store]
    by_cases room : cpc.pointIndex < m.MAX_POINT_SIZE
    · rw [if_pos ⟨withCPC, room⟩, if_pos room]
      simp only [if_pos option]
      rcases option with option | option
      · simp [option, storeNoIntensity, Kind.writer]
      · simp [option, storeNoIntensity, storeWithIntensity, Kind.writer]
    · rw [if_neg (by simp [room]), if_neg room]
      rfl
  | withIntensity =>
    obtain ⟨withCPC, option⟩ := on
    change _ = Writer.store m g sensorID (combined g r)
      ⟨cpc.pointIndex, cpc.sensorsWithIntensity, cpc.distanceStringStreamWithIntensity⟩
    rw [storeCPC, Writer.store]
    by_cases room : cpc.pointIndex < m.MAX_POINT_SIZE
    · rw [if_pos ⟨withCPC, room⟩, if_pos room]
      simp only [if_pos option]
      rcases option with option | option
      · simp [option, storeWithIntensity, Kind.writer]
      · simp [option, storeNoIntensity, storeWithIntensity, Kind.writer]
    · rw [if_neg (by simp [room]), if_neg room]
      rfl

variable (kind) in
theorem writer_pointIndex (cpc : Compact) : (kind.writer cpc).pointIndex = cpc.pointIndex := by
  cases kind <;> rfl

theorem full_compact (on : kind.enabled g) (d : Decoder) :
    full m g d = true ↔ m.MAX_POINT_SIZE ≤ (kind.writer d.cpc).pointIndex := by
  have withCPC : g.withCPC = true := by
    cases kind <;> exact on.1
  rw [writer_pointIndex, full, withCPC]
  simp

variable (maths) in
/-- The `break` comes where nothing more would be stored. -/
theorem storeFiring_writer (on : kind.enabled g) (returns : List Return) (sensorID : Nat)
    (d : Decoder) :
    kind.writer (storeFiring maths m g sensorID returns d).cpc =
      (kind.writer d.cpc).storeAll m g sensorID (returns.map (kind.word g)) := by
  induction returns generalizing sensorID d with
  | nil => rfl
  | cons r rest ih =>
    have one : kind.writer (storeReturn maths m g sensorID r d).cpc =
        (kind.writer d.cpc).store m g sensorID (kind.word g r) := storeCPC_writer on sensorID r d.cpc
    rw [storeFiring, List.map_cons, Writer.storeAll, ← one]
    split
    · rename_i stop
      rw [storeAll_of_full ((full_compact on _).mp stop)]
    · exact ih (sensorID + 1) _

theorem sendPointCloud_writer (on : kind.enabled g) (d : Decoder) :
    kind.writer (sendPointCloud m g d).cpc = ⟨0, (kind.writer d.cpc).values, fun _ => []⟩ := by
  cases kind with
  | noIntensity => simp only [sendPointCloud, if_pos on.1, Kind.writer]
  | withIntensity => simp only [sendPointCloud, if_pos on.1, Kind.writer]

theorem contents_compactPointClouds (d : Decoder) (distances : Nat → Bytes) (bits : Nat) :
    contents (compactPointClouds m g d distances bits) =
      m.entriesPerAzimuth.mapIdx fun i entries => (entries, distances i) := by
  rw [contents, compactPointClouds, List.mapIdx_eq_zipIdx_map, List.map_map,
    List.mapIdx_eq_zipIdx_map]
  rfl

theorem scanOf_clouds (on : kind.enabled g) (d : Decoder) :
    contents (kind.clouds (scanOf m g d)) =
      m.entriesPerAzimuth.mapIdx fun i entries => (entries, (kind.writer d.cpc).streams i) := by
  cases kind with
  | noIntensity =>
    obtain ⟨withCPC, option⟩ := on
    have sends : g.withCPC = true ∧ g.CPCIntensityOption ≠ 1 := ⟨withCPC, by omega⟩
    rw [Kind.clouds, scanOf, if_pos sends]
    exact contents_compactPointClouds d _ 0
  | withIntensity =>
    obtain ⟨withCPC, option⟩ := on
    have sends : g.withCPC = true ∧ g.CPCIntensityOption ≠ 0 := ⟨withCPC, by omega⟩
    rw [Kind.clouds, scanOf, if_pos sends]
    exact contents_compactPointClouds d _ g.numberOfBitsForIntensity

variable (maths) in
theorem kept_written (on : kind.enabled g) (some : 0 < m.sensors) (ordered : g.Ordered m) :
    Kept maths m g (HoldsWritten m g kind) where
  azimuths d d' f same holds :=
    ⟨by rw [same.cpc]; exact holds.current, by rw [same.sent]; exact holds.sent⟩
  send d f holds := by
    constructor
    · rw [sendPointCloud_writer on]
      exact Writer.Writes.empty _
    · have scan : contents (kind.clouds (scanOf m g d)) =
          cloudsOf m (f.current.map (written g kind)) := by
        rw [scanOf_clouds on, cloudsOf]
        simp only [holds.current.content]
      change _ = (f.closed ++ [f.current]).map _
      rw [sendPointCloud_sent, List.map_append, List.map_append, holds.sent, List.map_singleton,
        List.map_singleton, scan]
  firing d f returns count holds := by
    constructor
    · have next := holds.current.column ordered.length ordered.inside some
        (returns.map (kind.word g)) (by rwa [List.length_map])
      rw [storeFiring_writer maths on]
      change Writer.Writes m _ ((f.current ++ [_]).map _)
      rw [List.map_append]
      exact next
    · rw [(storeFiring_frame maths m g returns 0 d).1]
      exact holds.sent
  ignored d f firing stop holds := by
    constructor
    · have beyond : m.MAX_POINT_SIZE ≤ (kind.writer d.cpc).pointIndex := by
        rcases stop with stop | stop
        · exact (full_compact on d).mp stop
        · rw [room, not_or, Nat.not_lt, Nat.not_lt] at stop
          rw [writer_pointIndex]
          exact stop.2
      have next := holds.current.beyond beyond some (written g kind firing)
      change Writer.Writes m _ ((f.current ++ [_]).map _)
      rw [List.map_append]
      exact next
    · exact holds.sent

variable (maths) in
/-- Every scan of a run holds the firings received since the one before, as they are written. -/
theorem run_written (on : kind.enabled g) (fits : m.Fits) (ordered : g.Ordered m)
    (memory : Nat → ℚ) {payloads : List Bytes}
    (length : ∀ payload ∈ payloads, payload.length = 1206) :
    ∃ d, run maths m g (fresh memory) payloads = some d ∧
      HoldsWritten m g kind d
        (framesOf maths m g (payloads.flatMap (blocksOf m)) (fresh memory) {}) := by
  have some : 0 < m.sensors := by
    rcases fits with ⟨-, sensors⟩ | ⟨-, sensors⟩ <;> omega
  have start : HoldsWritten m g kind (fresh memory) {} := by
    refine ⟨?_, rfl⟩
    cases kind <;> exact Writer.Writes.empty _
  exact ⟨_, run_eq payloads length (fresh memory),
    (kept_written maths on some ordered).run (blocks_whole fits payloads) start⟩

variable (maths) in
/-- Every scan of a run holds the columns of the firings received since the one before. -/
theorem run_columns (on : kind.enabled g) (fits : m.Fits)
    (all : g.sensorOrderIndex.Perm (List.range m.sensors)) (memory : Nat → ℚ)
    {payloads : List Bytes} (length : ∀ payload ∈ payloads, payload.length = 1206) :
    ∃ d, run maths m g (fresh memory) payloads = some d ∧
      HoldsColumns m g kind d
        (framesOf maths m g (payloads.flatMap (blocksOf m)) (fresh memory) {}) := by
  have ordered : g.Ordered m :=
    ⟨by rw [all.length_eq, List.length_range], fun sensorID there =>
      List.mem_range.mp (all.mem_iff.mp there)⟩
  have columns : written g kind = column g kind :=
    funext fun firing => swapped_of_nodup (all.nodup_iff.mpr List.nodup_range) _
  obtain ⟨d, ran, holds⟩ := run_written maths on fits ordered memory length
  refine ⟨d, ran, ?_, ?_⟩
  · rw [← columns]
    exact holds.current
  · rw [← columns]
    exact holds.sent

end Runs

end OpendlvCore.Velodyne
