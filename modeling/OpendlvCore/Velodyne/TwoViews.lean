import OpendlvCore.Velodyne.CompactScans
import OpendlvCore.Velodyne.Counters
import Mathlib.Data.List.Forall2
import Mathlib.Tactic.Linarith

/-!
# A scan in the shared memory and in the compact point clouds

Where both kinds of point clouds are switched on, every scan is sent as both of them. The shared
memory misses what is at most 1 m away, the compact point clouds round the distances down; what a
receiver makes of the one is compared with what it makes of the other.
-/
namespace OpendlvCore.Velodyne
open CBytes Columns

/-! ## What the shared memory holds -/

section Definitions
variable (maths : Maths) (m : Device) (g : Settings)

/-- The points of the firings that fit into the compact point clouds, and more behind them only if
there were more firings. -/
def PointsFor (points : List (Point ℚ)) (firings : List Firing) : Prop :=
  ∃ more, points = (firings.take m.capacity).flatMap (pointsOf maths g) ++ more ∧
    (firings.length ≤ m.capacity → more = [])

/-- Beside the columns, the points of a scan. -/
structure HoldsBoth (d : Decoder) (f : Frames Firing) : Prop extends
    HoldsWritten m g .noIntensity d f where
  points : ∃ stored, d.spc.Holds stored ∧ PointsFor maths m g stored f.current ∧
    (f.current.length ≤ m.capacity → stored.length ≤ d.cpc.pointIndex)
  shared : List.Forall₂ (fun scan firings => ∃ shared, scan.shared = some shared ∧
    PointsFor maths m g shared.view.2 firings) d.sent f.closed

end Definitions

section Runs
variable {maths : Maths} {m : Device} {g : Settings} {s : Segment ℚ} {stored : List (Point ℚ)}
  {d : Decoder} {f : Frames Firing} {returns : List Return}

theorem PointsFor.nil : PointsFor maths m g [] [] := ⟨[], by rw [List.take_nil]; rfl, fun _ => rfl⟩

theorem PointsFor.fits {firings : List Firing} (points : PointsFor maths m g stored firings)
    (short : firings.length ≤ m.capacity) : stored = firings.flatMap (pointsOf maths g) := by
  obtain ⟨more, rfl, none⟩ := points
  rw [none short, List.append_nil, List.take_of_length_le short]

/-- Behind the firings that fit anything may be stored. -/
theorem PointsFor.beyond {firings : List Firing} (points : PointsFor maths m g stored firings)
    (long : m.capacity ≤ firings.length) (firing : Firing) (more : List (Point ℚ)) :
    PointsFor maths m g (stored ++ more) (firings ++ [firing]) := by
  obtain ⟨behind, rfl, -⟩ := points
  refine ⟨behind ++ more, ?_, fun short => ?_⟩
  · rw [List.take_append_of_le_length long, List.append_assoc]
  · rw [List.length_append, List.length_singleton] at short
    omega

theorem store_appends (holds : s.Holds stored) (max : Nat) (p : Option (Point ℚ)) :
    ∃ more, (s.store max p).Holds (stored ++ more) := by
  by_cases room : s.pointIndex < max
  · cases p with
    | none => exact ⟨[], by rwa [Segment.store_none, List.append_nil]⟩
    | some p => exact ⟨[p], by rw [Segment.store_some room]; exact holds.put p⟩
  · exact ⟨[], by rwa [Segment.store_of_full (Nat.not_lt.mp room), List.append_nil]⟩

variable (maths g) in
/-- Nothing that is stored is lost by a firing. -/
theorem storeFiring_appends (returns : List Return) (sensorID : Nat) (holds : d.spc.Holds stored) :
    ∃ more, (storeFiring maths m g sensorID returns d).spc.Holds (stored ++ more) := by
  induction returns generalizing sensorID d stored with
  | nil => exact ⟨[], by rwa [List.append_nil]⟩
  | cons r rest ih =>
    obtain ⟨more, one⟩ : ∃ more, (storeReturn maths m g sensorID r d).spc.Holds (stored ++ more) := by
      change ∃ more, (storeSPC maths m g d.currentAzimuth sensorID r d.spc).Holds (stored ++ more)
      unfold storeSPC
      split
      · exact store_appends holds _ _
      · exact ⟨[], by rwa [List.append_nil]⟩
    rw [storeFiring]
    split
    · exact ⟨more, one⟩
    · obtain ⟨after, all⟩ := ih (sensorID + 1) one
      exact ⟨more ++ after, by rwa [← List.append_assoc]⟩

theorem cpc_pointIndex (holds : HoldsWritten m g .noIntensity d f) :
    d.cpc.pointIndex = min (m.sensors * f.current.length) m.MAX_POINT_SIZE := by
  have count := holds.current.count
  rwa [writer_pointIndex, List.length_map] at count

variable (maths g) in
theorem length_pointsOf_le (firing : Firing) :
    (pointsOf maths g firing).length ≤ firing.returns.length := by
  refine (List.length_filterMap_le _ _).trans (Nat.le_of_eq ?_)
  rw [List.length_zipIdx]

/-- Firings behind the maximum number of points are behind those that fit. -/
theorem capacity_le_of_full (on : Kind.noIntensity.enabled g)
    (holds : HoldsWritten m g .noIntensity d f) (stop : full m g d = true ∨ ¬ room m d) :
    m.capacity ≤ f.current.length := by
  have beyond : m.MAX_POINT_SIZE ≤ d.cpc.pointIndex := by
    rcases stop with stop | stop
    · rw [full_compact on, writer_pointIndex] at stop
      exact stop
    · rw [room, not_or, Nat.not_lt, Nat.not_lt] at stop
      exact stop.2
  rw [cpc_pointIndex holds] at beyond
  apply Nat.div_le_of_le_mul
  omega

variable (maths) in
theorem kept_both (on : Kind.noIntensity.enabled g) (withSPC : g.withSPC = true)
    (valid : g.isValid = true) (some : 0 < m.sensors) (ordered : g.Ordered m) :
    Kept maths m g (HoldsBoth maths m g) where
  azimuths d d' f same holds :=
    { (kept_written maths on some ordered).azimuths d d' f same holds.toHoldsWritten with
      points := by
        rw [same.spc, same.cpc]
        exact holds.points
      shared := by
        rw [same.sent]
        exact holds.shared }
  send d f holds :=
    { (kept_written maths on some ordered).send d f holds.toHoldsWritten with
      points := by
        refine ⟨[], ?_, .nil, fun _ => Nat.zero_le _⟩
        simp only [sendPointCloud, if_pos withSPC]
        exact Segment.Holds.restart d.spc
      shared := by
        obtain ⟨stored, here, points, -⟩ := holds.points
        refine List.rel_append holds.shared (.cons ⟨⟨d.spc.pointIndex, d.spc.memory⟩, ?_, ?_⟩ .nil)
        · rw [scanOf, if_pos ⟨withSPC, valid⟩]
        · rw [SharedPointCloud.view, here.content]
          exact points }
  firing d f returns count holds :=
    { (kept_written maths on some ordered).firing d f returns count holds.toHoldsWritten with
      points := by
        obtain ⟨stored, here, points, fewer⟩ := holds.points
        have index := cpc_pointIndex holds.toHoldsWritten
        by_cases fits : f.current.length < m.capacity
        · have whole : m.sensors * (f.current.length + 1) ≤ m.MAX_POINT_SIZE :=
            (Nat.mul_le_mul_left _ fits).trans (Nat.mul_div_le _ _)
          rw [Nat.mul_succ] at whole
          have fewer := fewer fits.le
          have spc := here.count
          have stores := storeFiring_stores m g maths withSPC returns 0 here (by omega) (by omega)
          refine ⟨_, stores, ?_, fun _ => ?_⟩
          · have all : (f.current ++ [Firing.mk d.currentAzimuth returns]).length ≤ m.capacity := by
              rw [List.length_append, List.length_singleton]
              omega
            refine ⟨[], ?_, fun _ => rfl⟩
            change _ = ((f.current ++ [_]).take _).flatMap _ ++ _
            rw [List.take_of_length_le all, List.append_nil, List.flatMap_append,
              List.flatMap_singleton, points.fits fits.le]
            rfl
          · have next := cpc_pointIndex
              ((kept_written maths on some ordered).firing d f returns count holds.toHoldsWritten)
            have more := length_pointsOf_le maths g ⟨d.currentAzimuth, returns⟩
            change _ = min (m.sensors * (f.current ++ [_]).length) _ at next
            rw [List.length_append, List.length_singleton, Nat.mul_succ] at next
            rw [next, List.length_append]
            change _ + (pointsOf maths g ⟨d.currentAzimuth, returns⟩).length ≤ _
            simp only at more
            omega
        · obtain ⟨more, after⟩ := storeFiring_appends maths g returns 0 here
          refine ⟨_, after, points.beyond (Nat.not_lt.mp fits) _ more, fun short => ?_⟩
          change (f.current ++ [_]).length ≤ _ at short
          rw [List.length_append, List.length_singleton] at short
          omega
      shared := by
        rw [(storeFiring_frame maths m g returns 0 d).1]
        exact holds.shared }
  ignored d f firing stop holds :=
    { (kept_written maths on some ordered).ignored d f firing stop holds.toHoldsWritten with
      points := by
        obtain ⟨stored, here, points, -⟩ := holds.points
        have long := capacity_le_of_full on holds.toHoldsWritten stop
        refine ⟨stored ++ [], ?_, points.beyond long firing [], fun short => ?_⟩
        · rwa [List.append_nil]
        · change (f.current ++ [_]).length ≤ _ at short
          rw [List.length_append, List.length_singleton] at short
          omega
      shared := holds.shared }

end Runs

/-! ## What a receiver makes of both -/

section Agreement
variable (g : Settings)

/-- An entry of a compact point cloud: the vertical angle of its layer and its distance. -/
structure Entry where
  verticalAngle : ℚ
  distance : ℚ

/-- The unit of the distances of a compact point cloud. -/
def Settings.resolution : ℚ := if g.distanceEncoding = 0 then 1 / 100 else 1 / 500

/-- The layers of a column are in the order of the sensors. -/
def entriesOf (column : List Nat) : List Entry :=
  (g.sensorOrderIndex.zip column).map fun (sensorID, distance) =>
    { verticalAngle := g.verticalAngle sensorID, distance := distance * g.resolution }

/-- A point in polar coordinates and its entry, which is rounded down. -/
structure Entry.Of (p : Point ℚ) (e : Entry) : Prop where
  verticalAngle : e.verticalAngle = p.third
  low : e.distance ≤ p.first
  high : p.first < e.distance + g.resolution

/-- The points of one azimuth are the entries of a column that are more than 1 m away. -/
structure ColumnAgrees (points : List (Point ℚ)) (column : List Nat) : Prop where
  azimuth : ∃ azimuth, ∀ p ∈ points, p.second = azimuth
  entries : ∃ seen hidden, (entriesOf g column).Perm (seen ++ hidden) ∧
    List.Forall₂ (Entry.Of g) points seen ∧ ∀ e ∈ hidden, e.distance ≤ 1

/-- The points of a scan column by column. Only where the columns are as many as fit, more points
may follow. -/
structure ScanAgrees (cap : Nat) (points : List (Point ℚ)) (columns : List (List Nat)) : Prop where
  short : columns.length ≤ cap
  columns : ∃ groups more, points = groups.flatten ++ more ∧ (columns.length < cap → more = []) ∧
    List.Forall₂ (ColumnAgrees g) groups columns

variable {maths : Maths} {m : Device} {g}

/-- The entry of a sensor. -/
def entryOf (g : Settings) (p : Return × Nat) : Entry where
  verticalAngle := g.verticalAngle p.2
  distance := p.1.distance g.distanceEncoding * g.resolution

theorem distance_bounds (g : Settings) (p : Return × Nat) :
    (entryOf g p).distance ≤ p.1.raw / 500 ∧
      (p.1.raw : ℚ) / 500 < (entryOf g p).distance + g.resolution := by
  obtain ⟨r, sensorID⟩ := p
  simp only [entryOf, Return.distance, Settings.resolution]
  by_cases centimeters : g.distanceEncoding = 0
  · have low : (5 * (r.raw / 5) : ℕ) ≤ r.raw := Nat.mul_div_le _ _
    have high : r.raw < 5 * (r.raw / 5) + 5 := Nat.lt_mul_div_succ _ (by decide)
    have low' : (5 : ℚ) * (r.raw / 5 : ℕ) ≤ r.raw := by exact_mod_cast low
    have high' : (r.raw : ℚ) < 5 * (r.raw / 5 : ℕ) + 5 := by exact_mod_cast high
    simp only [if_pos centimeters]
    constructor <;> linarith
  · simp only [if_neg centimeters]
    constructor <;> linarith

/-- The points of a firing beside the entries of the sensors that are far enough. -/
theorem shows_pointsOf (polar : g.SPCOption ≠ 0) (firing : Firing) :
    List.Forall₂ (Entry.Of g) (pointsOf maths g firing)
      ((firing.returns.zipIdx.filter fun p => p.1.isFar).map (entryOf g)) := by
  rw [pointsOf]
  generalize firing.returns.zipIdx = pairs
  induction pairs with
  | nil => exact .nil
  | cons p rest ih =>
    by_cases far : (p.1.raw : ℚ) / 500 > 1
    · have point : pointOf maths g firing.azimuth p.2 p.1 =
          some ⟨p.1.raw / 500, firing.azimuth, g.verticalAngle p.2, p.1.thirdByte.toNat⟩ := by
        simp only [pointOf, if_pos far, if_neg polar]
      obtain ⟨low, high⟩ := distance_bounds g p
      rw [List.filterMap_cons_some (a := p) point,
        List.filter_cons_of_pos (by simpa only [Return.isFar, decide_eq_true_eq] using far)]
      exact .cons ⟨rfl, low, high⟩ ih
    · have point : pointOf maths g firing.azimuth p.2 p.1 = none := by
        simp only [pointOf, if_neg far]
      rw [List.filterMap_cons_none (a := p) point,
        List.filter_cons_of_neg (by simpa only [Return.isFar, decide_eq_true_eq] using far)]
      exact ih

/-- The entries of a column are those of the sensors in another order. -/
theorem entriesOf_column (all : g.sensorOrderIndex.Perm (List.range m.sensors)) {firing : Firing}
    (whole : firing.returns.length = m.sensors) :
    (entriesOf g (column g .noIntensity firing)).Perm (firing.returns.zipIdx.map (entryOf g)) := by
  let entry : Nat → Entry := fun sensorID =>
    { verticalAngle := g.verticalAngle sensorID
      distance := (firing.returns.map (Kind.noIntensity.word g)).getD sensorID 0 * g.resolution }
  have ordered : entriesOf g (column g .noIntensity firing) = g.sensorOrderIndex.map entry := by
    rw [entriesOf, column, List.zip_map_right, List.map_map, List.zip_eq_zipWith,
      List.map_zipWith, List.zipWith_self]
    rfl
  have sensors : firing.returns.zipIdx.map (entryOf g) = (List.range m.sensors).map entry := by
    apply List.ext_getElem
    · rw [List.length_map, List.length_map, List.length_zipIdx, List.length_range, whole]
    · intro i low _
      rw [List.length_map, List.length_zipIdx] at low
      simp [entryOf, entry, Kind.word, low]
  rw [ordered, sensors]
  exact all.map entry

theorem columnAgrees (polar : g.SPCOption ≠ 0)
    (all : g.sensorOrderIndex.Perm (List.range m.sensors)) {firing : Firing}
    (whole : firing.returns.length = m.sensors) :
    ColumnAgrees g (pointsOf maths g firing) (column g .noIntensity firing) where
  azimuth := by
    refine ⟨firing.azimuth, fun p there => ?_⟩
    obtain ⟨⟨r, sensorID⟩, -, point⟩ := List.mem_filterMap.mp there
    simp only [pointOf, if_neg polar, Option.ite_none_right_eq_some, Option.some.injEq] at point
    rw [← point.2]
  entries := by
    refine ⟨_, (firing.returns.zipIdx.filter fun p => !p.1.isFar).map (entryOf g), ?_,
      shows_pointsOf polar firing, fun e there => ?_⟩
    · rw [← List.map_append]
      exact (entriesOf_column all whole).trans ((List.filter_append_perm _ _).map _).symm
    · obtain ⟨p, near, rfl⟩ := List.mem_map.mp there
      have near := (List.mem_filter.mp near).2
      simp only [Return.isFar, Bool.not_eq_true', decide_eq_false_iff_not, not_lt, gt_iff_lt] at near
      exact (distance_bounds g p).1.trans near

theorem scanAgrees {cap : Nat} (capacity : m.capacity = cap) (polar : g.SPCOption ≠ 0)
    (all : g.sensorOrderIndex.Perm (List.range m.sensors)) {points : List (Point ℚ)}
    {firings : List Firing} (whole : ∀ firing ∈ firings, firing.returns.length = m.sensors)
    (stored : PointsFor maths m g points firings) :
    ScanAgrees g cap points ((firings.take cap).map (column g .noIntensity)) := by
  subst capacity
  obtain ⟨more, rfl, none⟩ := stored
  refine ⟨?_, (firings.take m.capacity).map (pointsOf maths g), more, ?_, fun few => none ?_, ?_⟩
  · rw [List.length_map]
    exact List.length_take_le ..
  · rw [List.flatMap_def]
  · rw [List.length_map, List.length_take] at few
    omega
  · rw [List.forall₂_map_left_iff, List.forall₂_map_right_iff, List.forall₂_same]
    exact fun firing there => columnAgrees polar all (whole firing (List.mem_of_mem_take there))

end Agreement

section Results
variable {m : Device} {g : Settings} {layers : List (List Nat)} {cap : Nat}

theorem setUp_both {c : Configuration} {isValid : Bool} {verticalAngle : Nat → ℚ}
    (accepted : setUp m c isValid verticalAngle = .ok g) (both : c.pointCloudOption % 256 = 2) :
    g = withSharedMemory m isValid verticalAngle true (c.SPCOption % 256)
      (c.CPCIntensityOption % 256) (c.numberOfBitsForIntensity % 256) (c.intensityPlacement % 256)
      (c.distanceEncoding % 256) := by
  unfold setUp at accepted
  simp only [both] at accepted
  split at accepted
  · cases accepted
  split at accepted
  · cases accepted
  split at accepted
  · cases accepted
  split at accepted
  · cases accepted
  split at accepted
  · cases accepted
  split at accepted
  · cases accepted
  exact (Except.ok.inj accepted).symm

end Results

end OpendlvCore.Velodyne
