import OpendlvCore.Velodyne.CompactClouds
import OpendlvCore.Velodyne.Lockstep
import OpendlvCore.Velodyne.SharedClouds

/-!
# A decoder with and without compact point clouds

The two runs share the loop, the `break`, the skipping of blocks and the azimuths, but
count points differently: the compact point cloud counts every return. They stay in step
as long as no block is broken off by a full compact point cloud before the shared memory
is full.
-/
namespace OpendlvCore.Velodyne
open CBytes

/-! ## The condition -/

section Definitions
variable (maths : Maths) (m : Device) (g : Settings)

/-- When the compact point cloud is full behind a return, so is the shared memory. Behind the
last return of a block there is nothing left to break off. -/
def InStep (cpcIndex spcIndex : Nat) (last : Bool) (returns : List Return) : Prop :=
  ∀ n, 0 < n → n ≤ returns.length → (last = true → n < returns.length) →
    m.MAX_POINT_SIZE ≤ cpcIndex + n →
      m.MAX_POINT_SIZE ≤ spcIndex + (returns.take n).countP Return.isFar

/-- A counter at the head of a block, where a scan may be completed. -/
def counterAt (b : Block) (d : Decoder) (index : Nat) : Nat :=
  if headOf b.azimuth d.nextAzimuth < d.previousAzimuth then 0 else index

/-- The first firing of the block keeps in step. -/
def Block.InStep (b : Block) (d : Decoder) : Prop :=
  Velodyne.InStep m (counterAt b d d.cpc.pointIndex) (counterAt b d d.spc.pointIndex)
    b.second.isNone b.first

/-- Every block of a run keeps in step. -/
def StaysInStep : List Block → Decoder → Prop
  | [], _ => True
  | b :: rest, d => b.InStep m d ∧ StaysInStep rest (takeBlock maths m g b d)

/-- The shared point clouds that a receiver sees. -/
def viewsOf (sent : List Scan) : List (Option (Nat × List (Point ℚ))) :=
  sent.map fun scan => scan.shared.map SharedPointCloud.view

end Definitions

/-! ## Two decoders -/

/-- The settings differ in the compact point clouds only. -/
structure Settings.Twins (g g' : Settings) : Prop where
  withCPC : g.withCPC = true
  withoutCPC : g'.withCPC = false
  withSPC : g.withSPC = true
  withSPC' : g'.withSPC = true
  isValid : g'.isValid = g.isValid
  SPCOption : g'.SPCOption = g.SPCOption
  verticalAngle : g'.verticalAngle = g.verticalAngle
  option : g.CPCIntensityOption ≤ 2

/-- The same azimuths, the same points in memory and the same frames sent. -/
structure Coupled (m : Device) (d d' : Decoder) : Prop where
  previousAzimuth : d'.previousAzimuth = d.previousAzimuth
  currentAzimuth : d'.currentAzimuth = d.currentAzimuth
  nextAzimuth : d'.nextAzimuth = d.nextAzimuth
  deltaAzimuth : d'.deltaAzimuth = d.deltaAzimuth
  points : ∃ stored, d.spc.Holds stored ∧ d'.spc.Holds stored
  views : viewsOf d'.sent = viewsOf d.sent
  /-- Every point is a return. -/
  fewer : d.spc.pointIndex ≤ d.cpc.pointIndex
  limit : d.cpc.pointIndex ≤ m.MAX_POINT_SIZE
  idle : d'.cpc.pointIndex = 0

section Steps
variable {maths : Maths} {m : Device} {g g' : Settings} {d d' : Decoder}

theorem Coupled.index (coupled : Coupled m d d') : d'.spc.pointIndex = d.spc.pointIndex := by
  obtain ⟨stored, holds, holds'⟩ := coupled.points
  rw [holds.count, holds'.count]

theorem Settings.Twins.kind (twins : g.Twins g') : ∃ kind : Kind, kind.enabled g := by
  have option := twins.option
  by_cases with' : g.CPCIntensityOption = 1
  · exact ⟨.withIntensity, twins.withCPC, .inl with'⟩
  · exact ⟨.noIntensity, twins.withCPC, by omega⟩

theorem Settings.Twins.pointOf_eq (twins : g.Twins g') : pointOf maths g' = pointOf maths g := by
  funext azimuth sensorID r
  unfold pointOf
  rw [twins.SPCOption, twins.verticalAngle]

/-- Every return is counted for the compact point cloud. -/
theorem storeCPC_pointIndex (twins : g.Twins g') (sensorID : Nat) (r : Return) (cpc : Compact) :
    (storeCPC m g sensorID r cpc).pointIndex =
      if cpc.pointIndex < m.MAX_POINT_SIZE then cpc.pointIndex + 1 else cpc.pointIndex := by
  obtain ⟨kind, enabled⟩ := twins.kind
  have written := congrArg Writer.pointIndex (storeCPC_writer (m := m) enabled sensorID r cpc)
  rw [writer_pointIndex] at written
  rw [written, Writer.store, ← writer_pointIndex kind cpc]
  split <;> rfl

/-- A far return is counted for the shared memory. -/
theorem store_pointIndex {α : Type} (max : Nat) (s : Segment α) (p : Option (Point α)) :
    (s.store max p).pointIndex =
      if s.pointIndex < max ∧ p.isSome then s.pointIndex + 1 else s.pointIndex := by
  unfold Segment.store
  by_cases room : s.pointIndex < max
  · cases p <;> simp [room, Segment.put]
  · simp [room]

theorem Coupled.send (twins : g.Twins g') (coupled : Coupled m d d') :
    Coupled m (sendPointCloud m g d) (sendPointCloud m g' d') where
  previousAzimuth := coupled.previousAzimuth
  currentAzimuth := coupled.currentAzimuth
  nextAzimuth := coupled.nextAzimuth
  deltaAzimuth := coupled.deltaAzimuth
  points := by
    simp only [sendPointCloud, if_pos twins.withSPC, if_pos twins.withSPC']
    exact ⟨[], Segment.Holds.restart d.spc, Segment.Holds.restart d'.spc⟩
  views := by
    obtain ⟨stored, holds, holds'⟩ := coupled.points
    have scan : (scanOf m g' d').shared.map SharedPointCloud.view =
        (scanOf m g d).shared.map SharedPointCloud.view := by
      simp only [scanOf, twins.withSPC, twins.withSPC', twins.isValid, true_and]
      split
      · rw [Option.map_some, Option.map_some, SharedPointCloud.view, SharedPointCloud.view,
          holds.content, holds'.content, coupled.index]
      · rfl
    have before := coupled.views
    rw [viewsOf, viewsOf] at before ⊢
    rw [sendPointCloud_sent, sendPointCloud_sent, List.map_append, List.map_append, before,
      List.map_singleton, List.map_singleton, scan]
  fewer := by
    simp only [sendPointCloud, if_pos twins.withSPC, if_pos twins.withCPC, Segment.restart]
    exact Nat.le_refl 0
  limit := by
    simp only [sendPointCloud, if_pos twins.withCPC]
    exact Nat.zero_le _
  idle := by
    simp only [sendPointCloud, twins.withoutCPC]
    exact coupled.idle

/-- Both decoders turn and send together. -/
theorem coupled_lockstep (twins : g.Twins g') : Lockstep m g g' (Coupled m) where
  same coupled :=
    ⟨coupled.previousAzimuth, coupled.currentAzimuth, coupled.nextAzimuth, coupled.deltaAzimuth⟩
  turned coupled clouds clouds' azimuths :=
    { previousAzimuth := azimuths.previousAzimuth
      currentAzimuth := azimuths.currentAzimuth
      nextAzimuth := azimuths.nextAzimuth
      deltaAzimuth := azimuths.deltaAzimuth
      points := by rw [clouds.spc, clouds'.spc]; exact coupled.points
      views := by rw [clouds.sent, clouds'.sent]; exact coupled.views
      fewer := by rw [clouds.spc, clouds.cpc]; exact coupled.fewer
      limit := by rw [clouds.cpc]; exact coupled.limit
      idle := by rw [clouds'.cpc]; exact coupled.idle }
  send coupled := coupled.send twins

theorem full_iff (twins : g.Twins g') (d : Decoder) :
    full m g d = true ↔ m.MAX_POINT_SIZE ≤ d.cpc.pointIndex := by
  rw [full, twins.withCPC]
  simp

variable (maths) in
theorem storeReturn_cpc (twins : g.Twins g') (sensorID : Nat) (r : Return) (d : Decoder) :
    (storeReturn maths m g sensorID r d).cpc.pointIndex =
      if d.cpc.pointIndex < m.MAX_POINT_SIZE then d.cpc.pointIndex + 1 else d.cpc.pointIndex :=
  storeCPC_pointIndex twins sensorID r d.cpc

variable (maths) in
theorem storeReturn_spc (on : g.withSPC = true) (sensorID : Nat) (r : Return) (d : Decoder) :
    (storeReturn maths m g sensorID r d).spc.pointIndex =
      if d.spc.pointIndex < m.MAX_POINT_SIZE ∧ r.isFar = true then d.spc.pointIndex + 1
      else d.spc.pointIndex := by
  rw [← pointOf_isSome maths g d.currentAzimuth sensorID r]
  change (storeSPC maths m g d.currentAzimuth sensorID r d.spc).pointIndex = _
  rw [storeSPC, if_pos on]
  exact store_pointIndex _ _ _

variable (maths) in
/-- The same point, or none, goes to both memories. -/
theorem Coupled.storeReturn (twins : g.Twins g') (coupled : Coupled m d d') (sensorID : Nat)
    (r : Return) :
    Coupled m (storeReturn maths m g sensorID r d) (storeReturn maths m g' sensorID r d') where
  previousAzimuth := coupled.previousAzimuth
  currentAzimuth := coupled.currentAzimuth
  nextAzimuth := coupled.nextAzimuth
  deltaAzimuth := coupled.deltaAzimuth
  points := by
    obtain ⟨stored, holds, holds'⟩ := coupled.points
    change ∃ stored, (storeSPC maths m g d.currentAzimuth sensorID r d.spc).Holds stored ∧
      (storeSPC maths m g' d'.currentAzimuth sensorID r d'.spc).Holds stored
    rw [storeSPC, storeSPC, if_pos twins.withSPC, if_pos twins.withSPC', twins.pointOf_eq,
      coupled.currentAzimuth]
    cases pointOf maths g d.currentAzimuth sensorID r with
    | none =>
      rw [Segment.store_none, Segment.store_none]
      exact ⟨stored, holds, holds'⟩
    | some p =>
      by_cases room : d.spc.pointIndex < m.MAX_POINT_SIZE
      · rw [Segment.store_some room, Segment.store_some (by rwa [coupled.index])]
        exact ⟨stored ++ [p], holds.put p, holds'.put p⟩
      · rw [Segment.store_of_full (Nat.le_of_not_lt room),
          Segment.store_of_full (by rw [coupled.index]; exact Nat.le_of_not_lt room)]
        exact ⟨stored, holds, holds'⟩
  views := coupled.views
  fewer := by
    have fewer := coupled.fewer
    rw [storeReturn_cpc maths twins, storeReturn_spc maths twins.withSPC]
    split <;> split <;> omega
  limit := by
    have limit := coupled.limit
    rw [storeReturn_cpc maths twins]
    split <;> omega
  idle := by
    change (storeCPC m g' sensorID r d'.cpc).pointIndex = 0
    rw [storeCPC, if_neg (by simp [twins.withoutCPC])]
    exact coupled.idle

theorem InStep.head {cpcIndex spcIndex : Nat} {last : Bool} {r : Return} {rest : List Return}
    (inStep : InStep m cpcIndex spcIndex last (r :: rest)) (inside : last = true → rest ≠ [])
    (top : m.MAX_POINT_SIZE ≤ cpcIndex + 1) :
    m.MAX_POINT_SIZE ≤ spcIndex + if r.isFar = true then 1 else 0 := by
  have reached := inStep 1 Nat.one_pos (Nat.le_add_left 1 rest.length)
    (fun yes => Nat.succ_lt_succ (List.length_pos_of_ne_nil (inside yes))) top
  rwa [List.take_succ_cons, List.take_zero, List.countP_cons, List.countP_nil, Nat.zero_add] at reached

theorem InStep.tail {cpcIndex spcIndex : Nat} {last : Bool} {r : Return} {rest : List Return}
    (inStep : InStep m cpcIndex spcIndex last (r :: rest)) :
    InStep m (cpcIndex + 1) (spcIndex + if r.isFar = true then 1 else 0) last rest := by
  intro n positive inside before top
  have reached := inStep (n + 1) (Nat.succ_pos n) (Nat.succ_le_succ inside)
    (fun yes => Nat.succ_lt_succ (before yes)) (by omega)
  rw [List.take_succ_cons, List.countP_cons] at reached
  omega

/-- A decoder whose compact point cloud is not full goes on, and so does the other one. -/
theorem Coupled.goes_on (twins : g.Twins g') (coupled : Coupled m d d') (going : full m g d = false) :
    full m g' d' = false := by
  have below : ¬ m.MAX_POINT_SIZE ≤ d.cpc.pointIndex := by
    rw [← full_iff twins d, going]
    exact Bool.false_ne_true
  have fewer := coupled.fewer
  rw [← Bool.not_eq_true, full_shared twins.withoutCPC, coupled.index]
  omega

variable (maths) in
/-- A firing that keeps in step is broken off by both decoders or by none. -/
theorem Coupled.firing (twins : g.Twins g') (last : Bool) (returns : List Return)
    (sensorID : Nat) (d d' : Decoder) (coupled : Coupled m d d')
    (inStep : InStep m d.cpc.pointIndex d.spc.pointIndex last returns)
    (going : returns ≠ [] ∨ full m g d = false) :
    Coupled m (storeFiring maths m g sensorID returns d)
        (storeFiring maths m g' sensorID returns d') ∧
      (last = false → full m g' (storeFiring maths m g' sensorID returns d') =
        full m g (storeFiring maths m g sensorID returns d)) := by
  induction returns generalizing sensorID d d' with
  | nil =>
    have going : full m g d = false := going.resolve_left (fun h => h rfl)
    exact ⟨coupled, fun _ => (coupled.goes_on twins going).trans going.symm⟩
  | cons r rest ih =>
    have next := coupled.storeReturn maths twins sensorID r
    have cpc := storeReturn_cpc maths (m := m) twins sensorID r d
    have spc := storeReturn_spc maths (m := m) twins.withSPC sensorID r d
    have fewer := coupled.fewer
    rw [storeFiring, storeFiring]
    generalize Velodyne.storeReturn maths m g sensorID r d = e at next cpc spc ⊢
    generalize Velodyne.storeReturn maths m g' sensorID r d' = e' at next ⊢
    by_cases stop : full m g e = true
    · have top : m.MAX_POINT_SIZE ≤ d.cpc.pointIndex + 1 := by
        rw [full_iff twins, cpc] at stop
        split at stop <;> omega
      -- Broken off before the end of the block, where the shared memory is full as well.
      have early : (last = true → rest ≠ []) → full m g' e' = true := by
        intro inside
        have reached := inStep.head inside top
        rw [full_shared twins.withoutCPC, next.index, spc]
        by_cases far : r.isFar = true
        · simp only [far, and_true, if_true] at reached ⊢
          split <;> omega
        · rw [if_neg far] at reached
          rwa [if_neg (fun stored => far stored.2)]
      rw [if_pos stop]
      by_cases inside : last = true → rest ≠ []
      · rw [if_pos (early inside)]
        exact ⟨next, fun _ => (early inside).trans stop.symm⟩
      · rw [Classical.not_imp, not_not] at inside
        refine ⟨?_, fun no => absurd (inside.1.symm.trans no) (by decide)⟩
        rw [inside.2, storeFiring, ite_self]
        exact next
    · have open' : full m g e = false := by simpa using stop
      have below : ¬ m.MAX_POINT_SIZE ≤ e.cpc.pointIndex := fun top => stop ((full_iff twins e).mpr top)
      rw [if_neg stop, if_neg (by rw [next.goes_on twins open']; exact Bool.false_ne_true)]
      have room : d.cpc.pointIndex < m.MAX_POINT_SIZE := by
        by_contra full
        rw [cpc, if_neg full] at below
        exact full (Nat.lt_of_not_le below)
      rw [if_pos room] at cpc
      have counted : e.spc.pointIndex = d.spc.pointIndex + if r.isFar = true then 1 else 0 := by
        have below : d.spc.pointIndex < m.MAX_POINT_SIZE := by omega
        rw [spc]
        by_cases far : r.isFar = true <;> simp [below, far]
      apply ih (sensorID + 1) e e' next _ (.inr open')
      rw [cpc, counted]
      exact inStep.tail

variable (maths) in
theorem storeFiring_pointIndex (twins : g.Twins g') (returns : List Return) (d : Decoder)
    (below : d.cpc.pointIndex ≤ m.MAX_POINT_SIZE) :
    (storeFiring maths m g 0 returns d).cpc.pointIndex =
      min (d.cpc.pointIndex + returns.length) m.MAX_POINT_SIZE := by
  obtain ⟨kind, enabled⟩ := twins.kind
  have written := congrArg Writer.pointIndex
    (storeFiring_writer maths (m := m) enabled returns 0 d)
  rwa [writer_pointIndex, storeAll_pointIndex _ _ _ (by rwa [writer_pointIndex]), writer_pointIndex,
    List.length_map] at written

/-- With a full shared memory and without compact point clouds a firing changes nothing. -/
theorem storeFiring_of_full (off : g.withCPC = false) (full' : m.MAX_POINT_SIZE ≤ d.spc.pointIndex)
    (sensorID : Nat) (returns : List Return) : storeFiring maths m g sensorID returns d = d := by
  cases returns with
  | nil => rfl
  | cons r rest =>
    have same : storeReturn maths m g sensorID r d = d := by
      rw [storeReturn, storeSPC, Segment.store_of_full full', ite_self, storeCPC,
        if_neg (by simp [off])]
    rw [storeFiring, same, if_pos ((full_shared off d).mpr full')]

theorem counterAt_cpc (twins : g.Twins g') (b : Block) (d : Decoder) :
    (startBlock m g b.azimuth d).cpc.pointIndex = counterAt b d d.cpc.pointIndex := by
  unfold startBlock counterAt
  simp only
  split
  · simp only [sendPointCloud, if_pos twins.withCPC]
  · rfl

theorem counterAt_spc (twins : g.Twins g') (b : Block) (d : Decoder) :
    (startBlock m g b.azimuth d).spc.pointIndex = counterAt b d d.spc.pointIndex := by
  unfold startBlock counterAt
  simp only
  split
  · simp only [sendPointCloud, if_pos twins.withSPC, Segment.restart]
  · rfl

/-- Where a scan may be completed, the counter of the compact point cloud stays or starts again. -/
theorem passes_pointIndex (twins : g.Twins g') (passes : Passes m g d d') :
    d'.cpc.pointIndex = d.cpc.pointIndex ∨ d'.cpc.pointIndex = 0 := by
  rcases passes with same | ⟨e, -, after⟩
  · rw [same.cpc]
    exact .inl rfl
  · rw [after.cpc]
    simp only [sendPointCloud, if_pos twins.withCPC]
    exact .inr trivial

/-- At the end of a firing the compact point cloud holds whole columns, where these fill it. -/
def Aligned (m : Device) (d : Decoder) : Prop :=
  m.interpolates = true → m.sensors ∣ d.cpc.pointIndex

theorem Aligned.passes (twins : g.Twins g') (aligned : Aligned m d) (passes : Passes m g d d') :
    Aligned m d' := by
  intro interpolates
  rcases passes_pointIndex twins passes with same | again
  · rw [same]
    exact aligned interpolates
  · rw [again]
    exact Nat.dvd_zero _

variable (maths) in
theorem Aligned.firing (twins : g.Twins g') (divides : m.interpolates = true → m.sensors ∣ m.MAX_POINT_SIZE)
    (aligned : Aligned m d) (below : d.cpc.pointIndex ≤ m.MAX_POINT_SIZE) {returns : List Return}
    (count : returns.length = m.sensors) : Aligned m (storeFiring maths m g 0 returns d) := by
  intro interpolates
  rw [storeFiring_pointIndex maths twins returns d below, count]
  rcases Nat.le_total (d.cpc.pointIndex + m.sensors) m.MAX_POINT_SIZE with fits | exceeds
  · rw [Nat.min_eq_left fits]
    exact Nat.dvd_add (aligned interpolates) (Nat.dvd_refl _)
  · rw [Nat.min_eq_right exceeds]
    exact divides interpolates

/-- What the two devices have in common. -/
structure Device.Coupling (m : Device) : Prop where
  sensors : 0 < m.sensors
  MAX_POINT_SIZE : 0 < m.MAX_POINT_SIZE
  divides : m.interpolates = true → m.sensors ∣ m.MAX_POINT_SIZE

/-- Where one more point has room in the compact point cloud, so has a whole column. -/
theorem Aligned.fits (device : m.Coupling) (aligned : Aligned m d) (interpolates : m.interpolates = true)
    (below : d.cpc.pointIndex < m.MAX_POINT_SIZE) :
    d.cpc.pointIndex + m.sensors ≤ m.MAX_POINT_SIZE := by
  obtain ⟨i, index⟩ := aligned interpolates
  obtain ⟨j, max⟩ := device.divides interpolates
  rw [index, max] at below ⊢
  rw [← Nat.mul_succ]
  exact Nat.mul_le_mul_left _ (Nat.lt_of_mul_lt_mul_left below)

variable (maths) in
/-- The second firing of a block. Only its last return can fill the compact point cloud. -/
theorem Coupled.second (device : m.Coupling) (twins : g.Twins g') (coupled : Coupled m d d')
    (aligned : Aligned m d) (interpolates : m.interpolates = true)
    (below : d.cpc.pointIndex < m.MAX_POINT_SIZE) {returns : List Return}
    (count : returns.length = m.sensors) :
    Coupled m (storeFiring maths m g 0 returns d) (storeFiring maths m g' 0 returns d') ∧
      Aligned m (storeFiring maths m g 0 returns d) := by
  have fits := aligned.fits device interpolates below
  have inStep : InStep m d.cpc.pointIndex d.spc.pointIndex true returns := by
    intro n _ _ before top
    have short := before rfl
    omega
  have returned : returns ≠ [] := List.ne_nil_of_length_pos (by rw [count]; exact device.sensors)
  exact ⟨(coupled.firing maths twins true returns 0 d d' inStep (.inl returned)).1,
    aligned.firing maths twins device.divides coupled.limit count⟩

variable (maths) in
/-- With a full shared memory and without compact point clouds a block stores nothing. -/
theorem takeReturns_of_full (off : g.withCPC = false) (full' : m.MAX_POINT_SIZE ≤ d.spc.pointIndex)
    (b : Block) : takeReturns maths m g b d = d := by
  rw [takeReturns, storeFiring_of_full off full']
  cases b.second with
  | none => rfl
  | some pair => exact if_pos ((full_shared off d).mpr full')

variable (maths) in
/-- One block. -/
theorem Coupled.block (device : m.Coupling) (twins : g.Twins g') {b : Block} (whole : b.Whole m)
    (shape : b.second.isSome = true → m.interpolates = true) (coupled : Coupled m d d')
    (aligned : Aligned m d) (inStep : b.InStep m d) :
    Coupled m (takeBlock maths m g b d) (takeBlock maths m g' b d') ∧
      Aligned m (takeBlock maths m g b d) := by
  have head := (coupled_lockstep twins).startBlock coupled b.azimuth
  have lined := aligned.passes twins (startBlock_passes b.azimuth d)
  rw [Block.InStep, ← counterAt_cpc twins b d, ← counterAt_spc twins b d] at inStep
  rw [takeBlock, takeBlock]
  generalize Velodyne.startBlock m g b.azimuth d = e at head lined inStep ⊢
  generalize Velodyne.startBlock m g' b.azimuth d' = e' at head ⊢
  have always : room m e' := .inr (by rw [head.idle]; exact device.MAX_POINT_SIZE)
  rw [if_pos always]
  by_cases space : room m e
  · rw [if_pos space, takeReturns, takeReturns]
    have some : b.first ≠ [] := List.ne_nil_of_length_pos (by rw [whole.1]; exact device.sensors)
    obtain ⟨first, together⟩ := head.firing maths twins _ b.first 0 e e' inStep (.inl some)
    have lined := lined.firing maths twins device.divides head.limit whole.1
    generalize storeFiring maths m g 0 b.first e = h at first together lined ⊢
    generalize storeFiring maths m g' 0 b.first e' = h' at first together ⊢
    cases second : b.second with
    | none => exact ⟨first, lined⟩
    | some pair =>
      obtain ⟨next, returns⟩ := pair
      have same : full m g' h' = full m g h := together (by rw [second]; rfl)
      have interpolates := shape (by rw [second]; rfl)
      simp only [same]
      by_cases stop : full m g h = true
      · rw [if_pos stop, if_pos stop]
        exact ⟨first, lined⟩
      · rw [if_neg stop, if_neg stop]
        have mid := (coupled_lockstep twins).interpolate first next
        have lined := lined.passes twins (interpolate_passes next h)
        have below : h.cpc.pointIndex < m.MAX_POINT_SIZE := by
          rw [full_iff twins] at stop
          omega
        have open' : (Velodyne.interpolate m g next h).cpc.pointIndex < m.MAX_POINT_SIZE := by
          rcases passes_pointIndex twins (interpolate_passes (m := m) (g := g) next h) with same | again
          · rwa [same]
          · rw [again]
            exact device.MAX_POINT_SIZE
        exact mid.second maths device twins lined interpolates open' (whole.2 next returns second)
  · rw [if_neg space]
    rw [room, not_or, Nat.not_lt, Nat.not_lt] at space
    have full' : m.MAX_POINT_SIZE ≤ e'.spc.pointIndex := by
      rw [head.index]
      exact space.1
    rw [takeReturns_of_full maths twins.withoutCPC full']
    exact ⟨head, lined⟩

variable (maths) in
/-- A whole run. -/
theorem Coupled.run (device : m.Coupling) (twins : g.Twins g') {blocks : List Block}
    (whole : ∀ b ∈ blocks, b.Whole m)
    (shape : ∀ b ∈ blocks, b.second.isSome = true → m.interpolates = true)
    (coupled : Coupled m d d') (aligned : Aligned m d) (inStep : StaysInStep maths m g blocks d) :
    Coupled m (blocks.foldl (fun d b => takeBlock maths m g b d) d)
      (blocks.foldl (fun d b => takeBlock maths m g' b d) d') := by
  induction blocks generalizing d d' with
  | nil => exact coupled
  | cons b rest ih =>
    obtain ⟨now, later⟩ := inStep
    obtain ⟨next, lined⟩ := coupled.block maths device twins (whole b List.mem_cons_self)
      (shape b List.mem_cons_self) aligned now
    rw [List.foldl_cons, List.foldl_cons]
    exact ih (fun other there => whole other (List.mem_cons_of_mem _ there))
      (fun other there => shape other (List.mem_cons_of_mem _ there)) next lined later

end Steps

/-! ## Results -/

theorem coupling_of_device {m : Device} (device : m ∈ [VLP16, HDL32E]) : m.Coupling ∧ m.Fits := by
  rcases List.mem_pair.mp device with rfl | rfl
  · exact ⟨⟨by decide, by decide, fun _ => by decide⟩, fits_VLP16⟩
  · exact ⟨⟨by decide, by decide, nofun⟩, fits_HDL32E⟩

theorem blocksOf_shape (m : Device) (payloads : List Bytes) :
    ∀ b ∈ payloads.flatMap (blocksOf m), b.second.isSome = true → m.interpolates = true := by
  intro b there second
  obtain ⟨payload, -, there⟩ := List.mem_flatMap.mp there
  obtain ⟨blockID, -, rfl⟩ := List.mem_map.mp there
  rw [blockOf] at second
  split at second
  · assumption
  · exact absurd second Bool.false_ne_true

/-- The shared point clouds of a run that stays in step are those of the run without compact point
clouds. -/
theorem same_shared_clouds (maths : Maths) {m : Device} (device : m ∈ [VLP16, HDL32E])
    (isValid : Bool) (verticalAngle : Nat → ℚ) (SPCOption : Nat) {CPCIntensityOption : Nat}
    (option : CPCIntensityOption ≤ 2)
    (numberOfBitsForIntensity intensityPlacement distanceEncoding : Nat)
    (memory memory' : Nat → ℚ) {payloads : List Bytes}
    (length : ∀ payload ∈ payloads, payload.length = 1206)
    (inStep : StaysInStep maths m
      (withSharedMemory m isValid verticalAngle true SPCOption CPCIntensityOption
        numberOfBitsForIntensity intensityPlacement distanceEncoding)
      (payloads.flatMap (blocksOf m)) (fresh memory)) :
    ∃ d d',
      run maths m (withSharedMemory m isValid verticalAngle true SPCOption CPCIntensityOption
        numberOfBitsForIntensity intensityPlacement distanceEncoding) (fresh memory) payloads =
          some d ∧
      run maths m (withSharedMemory m isValid verticalAngle false SPCOption CPCIntensityOption
        numberOfBitsForIntensity intensityPlacement distanceEncoding) (fresh memory') payloads =
          some d' ∧
      viewsOf d.sent = viewsOf d'.sent := by
  obtain ⟨coupling, fits⟩ := coupling_of_device device
  have start : Coupled m (fresh memory) (fresh memory') :=
    ⟨rfl, rfl, rfl, rfl, ⟨[], ⟨rfl, rfl, rfl⟩, ⟨rfl, rfl, rfl⟩⟩, rfl, Nat.le_refl 0, Nat.zero_le _,
      rfl⟩
  have twins : (withSharedMemory m isValid verticalAngle true SPCOption CPCIntensityOption
      numberOfBitsForIntensity intensityPlacement distanceEncoding).Twins
      (withSharedMemory m isValid verticalAngle false SPCOption CPCIntensityOption
        numberOfBitsForIntensity intensityPlacement distanceEncoding) :=
    ⟨rfl, rfl, rfl, rfl, rfl, rfl, rfl, option⟩
  have coupled := start.run maths coupling twins (blocks_whole fits payloads)
    (blocksOf_shape m payloads) (fun _ => Nat.dvd_zero _) inStep
  exact ⟨_, _, run_eq payloads length _, run_eq payloads length _, coupled.views.symm⟩

section Short
variable {maths : Maths} {m : Device} {g g' : Settings} {d : Decoder}

variable (maths) in
theorem takeBlock_pointIndex_le (twins : g.Twins g') {b : Block} (whole : b.Whole m)
    (below : d.cpc.pointIndex ≤ m.MAX_POINT_SIZE) :
    (takeBlock maths m g b d).cpc.pointIndex ≤ d.cpc.pointIndex + 2 * m.sensors ∧
      (takeBlock maths m g b d).cpc.pointIndex ≤ m.MAX_POINT_SIZE := by
  have passed : ∀ {d d' : Decoder}, Passes m g d d' → d'.cpc.pointIndex ≤ d.cpc.pointIndex := by
    intro d d' passes
    rcases passes_pointIndex twins passes with same | again <;> omega
  have head := passed (startBlock_passes (m := m) (g := g) b.azimuth d)
  rw [takeBlock]
  generalize startBlock m g b.azimuth d = e at head ⊢
  by_cases space : room m e
  · have first := storeFiring_pointIndex maths twins b.first e (head.trans below)
    rw [whole.1] at first
    rw [if_pos space, takeReturns]
    generalize storeFiring maths m g 0 b.first e = h at first ⊢
    cases second : b.second with
    | none =>
      change h.cpc.pointIndex ≤ _ ∧ h.cpc.pointIndex ≤ _
      omega
    | some pair =>
      obtain ⟨next, returns⟩ := pair
      by_cases stop : full m g h = true
      · simp only [if_pos stop]
        omega
      · have mid := passed (interpolate_passes (m := m) (g := g) next h)
        have limit : (interpolate m g next h).cpc.pointIndex ≤ m.MAX_POINT_SIZE := by omega
        have last := storeFiring_pointIndex maths twins returns _ limit
        rw [whole.2 next returns second] at last
        simp only [if_neg stop]
        omega
  · rw [if_neg space]
    omega

/-- A run that cannot fill the compact point cloud stays in step. -/
theorem staysInStep_of_short (twins : g.Twins g') {blocks : List Block}
    (whole : ∀ b ∈ blocks, b.Whole m)
    (short : d.cpc.pointIndex + 2 * m.sensors * blocks.length < m.MAX_POINT_SIZE) :
    StaysInStep maths m g blocks d := by
  induction blocks generalizing d with
  | nil => exact trivial
  | cons b rest ih =>
    have here := whole b List.mem_cons_self
    rw [List.length_cons, Nat.mul_succ] at short
    have next := takeBlock_pointIndex_le maths twins here (d := d) (by omega)
    refine ⟨?_, ih (fun other there => whole other (List.mem_cons_of_mem _ there)) (by omega)⟩
    intro n _ inside _ top
    have counter : counterAt b d d.cpc.pointIndex ≤ d.cpc.pointIndex := by
      rw [counterAt]
      split
      · exact Nat.zero_le _
      · exact Nat.le_refl _
    rw [here.1] at inside
    omega

end Short

/-- The second packet begins a new turn, and the points of the first one are sent. -/
theorem same_shared_clouds_two_packets :
    ∃ d d',
      run .atZero HDL32E (withSharedMemory HDL32E true (fun i => i) true 1 0 0 0 0)
        (fresh fun _ => 0) [List.replicate 1206 255, List.replicate 1206 0] = some d ∧
      run .atZero HDL32E (withSharedMemory HDL32E true (fun i => i) false 1 0 0 0 0)
        (fresh fun _ => 0) [List.replicate 1206 255, List.replicate 1206 0] = some d' ∧
      viewsOf d.sent = viewsOf d'.sent := by
  have device : HDL32E ∈ [VLP16, HDL32E] := List.mem_cons_of_mem _ List.mem_cons_self
  have twins : (withSharedMemory HDL32E true (fun i => i) true 1 0 0 0 0).Twins
      (withSharedMemory HDL32E true (fun i => i) false 1 0 0 0 0) :=
    ⟨rfl, rfl, rfl, rfl, rfl, rfl, rfl, by decide⟩
  exact same_shared_clouds .atZero device true (fun i => i) 1 (by decide) 0 0 0 (fun _ => 0)
    (fun _ => 0) length_two_packets
    (staysInStep_of_short twins (blocks_whole fits_HDL32E _) (by decide))

/-! ## Where the runs part -/

/-- A block of a packet with equal bytes in all returns. -/
def blockBytes (azimuthByte returnByte : UInt8) : Bytes :=
  [0xFF, 0xEE, azimuthByte, 0] ++ List.replicate 96 returnByte

def packetOf (azimuthByte returnByte : UInt8) : Bytes :=
  (List.replicate 12 (blockBytes azimuthByte returnByte)).flatten ++ zeros 6

def plainBlock (azimuth : ℚ) (returnByte : UInt8) : Block where
  azimuth := some azimuth
  first := List.replicate 32 ⟨returnByte, returnByte, returnByte⟩
  second := none

section Plain
variable {maths : Maths} {m : Device} {g g' : Settings} {d : Decoder} {azimuth : ℚ} {returnByte : UInt8}

theorem length_blockBytes (azimuthByte returnByte : UInt8) :
    (blockBytes azimuthByte returnByte).length = 100 := by
  rw [blockBytes, List.length_append, List.length_replicate]
  rfl

theorem length_packetOf (azimuthByte returnByte : UInt8) :
    (packetOf azimuthByte returnByte).length = 1206 := by
  rw [packetOf, List.length_append, List.length_flatten, List.map_replicate, length_blockBytes,
    length_zeros]
  rfl

theorem byteAt_packetOf (azimuthByte returnByte : UInt8) {blockID i : Nat} (b : blockID < 12)
    (inside : i < 100) : byteAt (packetOf azimuthByte returnByte) (100 * blockID + i) =
      (blockBytes azimuthByte returnByte).getD i 0 := by
  have length := length_blockBytes azimuthByte returnByte
  rw [byteAt, packetOf]
  generalize blockBytes azimuthByte returnByte = block at length ⊢
  generalize 12 = count at b
  induction count generalizing blockID with
  | zero => exact absurd b (Nat.not_lt_zero _)
  | succ count ih =>
    rw [List.replicate_succ, List.flatten_cons, List.append_assoc]
    cases blockID with
    | zero => rw [Nat.mul_zero, Nat.zero_add, List.getD_append _ _ _ _ (by rwa [length])]
    | succ blockID =>
      have ahead : 100 * (blockID + 1) + i - block.length = 100 * blockID + i := by omega
      rw [List.getD_append_right _ _ _ _ (by omega), ahead]
      exact ih (Nat.lt_of_succ_lt_succ b)

theorem blockBytes_return (azimuthByte returnByte : UInt8) {i : Nat} (low : 4 ≤ i) (high : i < 100) :
    (blockBytes azimuthByte returnByte).getD i 0 = returnByte := by
  rw [blockBytes, List.getD_append_right _ _ _ _ low]
  exact List.getD_replicate _ (by change i - 4 < 96; omega)

theorem blocksOf_packetOf (azimuthByte returnByte : UInt8) :
    blocksOf HDL32E (packetOf azimuthByte returnByte) =
      List.replicate 12 (plainBlock (azimuthOf azimuthByte 0) returnByte) := by
  rw [List.eq_replicate_iff]
  refine ⟨by rw [blocksOf, List.length_map, List.length_range], ?_⟩
  intro b there
  obtain ⟨blockID, low, rfl⟩ := List.mem_map.mp there
  rw [List.mem_range] at low
  have head : headAzimuth (packetOf azimuthByte returnByte) blockID = azimuthOf azimuthByte 0 := by
    rw [headAzimuth, byteAt_packetOf _ _ low (by decide), byteAt_packetOf _ _ low (by decide)]
    rfl
  have first : blockReturns (packetOf azimuthByte returnByte) blockID 0 32 =
      List.replicate 32 ⟨returnByte, returnByte, returnByte⟩ := by
    rw [List.eq_replicate_iff]
    refine ⟨by rw [blockReturns, List.length_map, List.length_range'], ?_⟩
    intro r there
    obtain ⟨counter, inside, rfl⟩ := List.mem_map.mp there
    rw [List.mem_range'_1] at inside
    have byte : ∀ k < 3, byteAt (packetOf azimuthByte returnByte)
        (100 * blockID + (4 + k) + 3 * counter) = returnByte := by
      intro k third
      rw [Nat.add_assoc, byteAt_packetOf _ _ low (by omega),
        blockBytes_return _ _ (by omega) (by omega)]
    rw [blockReturn, byte 0 (by decide), byte 1 (by decide), byte 2 (by decide)]
  have plain : ¬ HDL32E.interpolates = true := Bool.false_ne_true
  rw [blockOf, if_neg plain, head, first]
  rfl

variable (maths) in
/-- Without compact point clouds all far returns are stored as long as there is room. -/
theorem storeFiring_spc (on : g.withSPC = true) (off : g.withCPC = false) (returns : List Return)
    (sensorID : Nat) (d : Decoder) (below : d.spc.pointIndex ≤ m.MAX_POINT_SIZE) :
    (storeFiring maths m g sensorID returns d).spc.pointIndex =
      min (d.spc.pointIndex + returns.countP Return.isFar) m.MAX_POINT_SIZE := by
  induction returns generalizing sensorID d with
  | nil => exact (Nat.min_eq_left below).symm
  | cons r rest ih =>
    have one := storeReturn_spc maths (m := m) on sensorID r d
    have stop := full_shared (m := m) off (storeReturn maths m g sensorID r d)
    have later := ih (sensorID + 1) (storeReturn maths m g sensorID r d)
    have next : (storeReturn maths m g sensorID r d).spc.pointIndex =
        min (d.spc.pointIndex + if r.isFar = true then 1 else 0) m.MAX_POINT_SIZE := by
      rw [one]
      by_cases far : r.isFar = true
      · simp only [far, and_true, if_true]
        split <;> omega
      · rw [if_neg (fun stored => far stored.2), if_neg far]
        omega
    rw [storeFiring, List.countP_cons]
    by_cases broken : full m g (storeReturn maths m g sensorID r d) = true
    · have top := stop.mp broken
      rw [if_pos broken]
      omega
    · rw [if_neg broken]
      omega

/-- Near returns are not stored. -/
theorem storeFiring_near (on : g.withSPC = true) (returns : List Return) (sensorID : Nat)
    (d : Decoder) (near : returns.countP Return.isFar = 0) :
    (storeFiring maths m g sensorID returns d).spc.pointIndex = d.spc.pointIndex := by
  induction returns generalizing sensorID d with
  | nil => rfl
  | cons r rest ih =>
    rw [List.countP_cons] at near
    have far : ¬ r.isFar = true := by
      intro far
      rw [if_pos far] at near
      omega
    have one := storeReturn_spc maths (m := m) on sensorID r d
    rw [if_neg (fun stored => far stored.2)] at one
    rw [storeFiring]
    split
    · exact one
    · rw [ih _ _ (by omega), one]

variable (maths) in
/-- With a full compact point cloud at most one return of a firing is stored. -/
theorem storeFiring_broken (twins : g.Twins g') (returns : List Return) (d : Decoder)
    (top : m.MAX_POINT_SIZE ≤ d.cpc.pointIndex) :
    (storeFiring maths m g 0 returns d).spc.pointIndex ≤ d.spc.pointIndex + 1 := by
  cases returns with
  | nil => exact Nat.le_succ _
  | cons r rest =>
    have spc := storeReturn_spc maths (m := m) twins.withSPC 0 r d
    have cpc := storeReturn_cpc maths (m := m) twins 0 r d
    have stop : full m g (storeReturn maths m g 0 r d) = true := by
      rw [full_iff twins, cpc]
      split <;> omega
    rw [storeFiring, if_pos stop, spc]
    split <;> omega

/-- A block that completes no scan. -/
theorem takeBlock_plain (same : ¬ azimuth < d.previousAzimuth)
    (space : d.spc.pointIndex < HDL32E.MAX_POINT_SIZE) :
    takeBlock maths HDL32E g (plainBlock azimuth returnByte) d =
      storeFiring maths HDL32E g 0 (plainBlock azimuth returnByte).first
        { d with currentAzimuth := azimuth, previousAzimuth := azimuth } := by
  have head := startBlock_of_le (m := HDL32E) (g := g) (some azimuth) d same
  have open' : room HDL32E { d with currentAzimuth := azimuth, previousAzimuth := azimuth } :=
    .inl space
  change (if room HDL32E (startBlock HDL32E g (some azimuth) d) then
    takeReturns maths HDL32E g (plainBlock azimuth returnByte) (startBlock HDL32E g (some azimuth) d)
    else startBlock HDL32E g (some azimuth) d) = _
  rw [head]
  exact if_pos open'

variable (maths g returnByte) in
theorem takeBlock_plain_frame (same : ¬ azimuth < d.previousAzimuth)
    (space : d.spc.pointIndex < HDL32E.MAX_POINT_SIZE) :
    (takeBlock maths HDL32E g (plainBlock azimuth returnByte) d).sent = d.sent ∧
      (takeBlock maths HDL32E g (plainBlock azimuth returnByte) d).previousAzimuth = azimuth := by
  rw [takeBlock_plain same space]
  obtain ⟨sent, previous, -⟩ := storeFiring_frame maths HDL32E g
    (plainBlock azimuth returnByte).first 0
    { d with currentAzimuth := azimuth, previousAzimuth := azimuth }
  exact ⟨sent, previous⟩

theorem foldl_replicate {α β : Type} {P : Nat → β → Prop} {f : β → α → β} {a : α} {n : Nat}
    (next : ∀ k < n, ∀ b, P k b → P (k + 1) (f b a)) {b : β} (start : P 0 b) :
    P n ((List.replicate n a).foldl f b) := by
  have loop : ∀ count k b, k + count = n → P k b → P n ((List.replicate count a).foldl f b) := by
    intro count
    induction count with
    | zero =>
      intro k b here holds
      rwa [← here]
    | succ count ih =>
      intro k b here holds
      rw [List.replicate_succ, List.foldl_cons]
      exact ih (k + 1) (f b a) (by omega) (next k (by omega) b holds)
  exact loop n 0 b (Nat.zero_add n) start

/-- The first `k` blocks at one degree have been received, and nothing has been sent. -/
def Waiting (k : Nat) (d : Decoder) : Prop :=
  (k = 0 ∧ d.previousAzimuth = 0 ∨ d.previousAzimuth = 1) ∧ d.sent = []

variable (maths g returnByte) in
theorem Waiting.next {k : Nat} (waiting : Waiting k d)
    (space : d.spc.pointIndex < HDL32E.MAX_POINT_SIZE) :
    ¬ 1 < d.previousAzimuth ∧
      Waiting (k + 1) (takeBlock maths HDL32E g (plainBlock 1 returnByte) d) := by
  obtain ⟨azimuth, sent⟩ := waiting
  have same : ¬ 1 < d.previousAzimuth := by
    rcases azimuth with ⟨-, azimuth⟩ | azimuth <;> rw [azimuth] <;> decide
  obtain ⟨sent', previous⟩ := takeBlock_plain_frame maths g returnByte same space
  exact ⟨same, .inr previous, sent'.trans sent⟩

variable (maths) in
/-- Blocks without a far return at one degree. -/
theorem near_blocks (on : g.withSPC = true) (n : Nat) (memory : Nat → ℚ) :
    Waiting n ((List.replicate n (plainBlock 1 0)).foldl
        (fun d b => takeBlock maths HDL32E g b d) (fresh memory)) ∧
      ((List.replicate n (plainBlock 1 0)).foldl
        (fun d b => takeBlock maths HDL32E g b d) (fresh memory)).spc.pointIndex = 0 := by
  apply foldl_replicate (P := fun k d => Waiting k d ∧ d.spc.pointIndex = 0)
  · rintro k - d ⟨waiting, empty⟩
    have space : d.spc.pointIndex < HDL32E.MAX_POINT_SIZE := by
      rw [empty]
      decide
    obtain ⟨same, next⟩ := waiting.next maths g 0 space
    refine ⟨next, ?_⟩
    rw [takeBlock_plain same space, storeFiring_near on _ _ _ (by decide +kernel)]
    exact empty
  · exact ⟨⟨.inl ⟨rfl, rfl⟩, rfl⟩, rfl⟩

variable (maths) in
/-- They fill the compact point cloud all the same. -/
theorem near_blocks_count (twins : g.Twins g') (n : Nat) (memory : Nat → ℚ) :
    ((List.replicate n (plainBlock 1 0)).foldl
      (fun d b => takeBlock maths HDL32E g b d) (fresh memory)).cpc.pointIndex =
        min (32 * n) HDL32E.MAX_POINT_SIZE := by
  have all := foldl_replicate (n := n) (b := fresh memory)
    (f := fun d b => takeBlock maths HDL32E g b d) (a := plainBlock 1 0)
    (P := fun k d => (Waiting k d ∧ d.spc.pointIndex = 0) ∧
      d.cpc.pointIndex = min (32 * k) HDL32E.MAX_POINT_SIZE) ?_
    ⟨⟨⟨.inl ⟨rfl, rfl⟩, rfl⟩, rfl⟩, rfl⟩
  · exact all.2
  · rintro k - d ⟨⟨waiting, empty⟩, count⟩
    have space : d.spc.pointIndex < HDL32E.MAX_POINT_SIZE := by
      rw [empty]
      decide
    obtain ⟨same, next⟩ := waiting.next maths g 0 space
    have below : d.cpc.pointIndex ≤ HDL32E.MAX_POINT_SIZE := by
      rw [count]
      exact Nat.min_le_right _ _
    refine ⟨⟨next, ?_⟩, ?_⟩
    · rw [takeBlock_plain same space, storeFiring_near twins.withSPC _ _ _ (by decide +kernel)]
      exact empty
    · have firing := storeFiring_pointIndex maths twins (plainBlock 1 0).first
        { d with currentAzimuth := 1, previousAzimuth := 1 } below
      change _ = min (d.cpc.pointIndex + 32) _ at firing
      rw [takeBlock_plain same space, firing, count]
      omega

variable (maths) in
/-- A block at zero degrees completes the scan. -/
theorem first_view (on : g.withSPC = true) (valid : g.isValid = true) {k : Nat}
    (waiting : Waiting (k + 1) d) (blocks : List Block) :
    ∃ points rest, viewsOf ((plainBlock 0 0 :: blocks).foldl
      (fun d b => takeBlock maths HDL32E g b d) d).sent =
        some (d.spc.pointIndex, points) :: rest := by
  obtain ⟨azimuth, sent⟩ := waiting
  have one : d.previousAzimuth = 1 := azimuth.resolve_left fun first => Nat.succ_ne_zero k first.1
  have wraps : headOf (some 0) d.nextAzimuth < d.previousAzimuth := by
    rw [one]
    exact zero_lt_one
  have head := startBlock_of_lt (m := HDL32E) (g := g) (some 0) d wraps
  have start : (startBlock HDL32E g (some 0) d).sent =
      [scanOf HDL32E g { d with currentAzimuth := 0 }] := by
    rw [head]
    change d.sent ++ _ = _
    rw [sent]
    rfl
  have block := takeBlock_sent maths HDL32E g (plainBlock 0 0) d
  obtain ⟨rest, all⟩ := block.trans (blocks_sent blocks _)
  change (startBlock HDL32E g (some 0) d).sent ++ rest = _ at all
  rw [List.foldl_cons, ← all, start]
  refine ⟨Segment.points d.spc.memory d.spc.pointIndex, viewsOf rest, ?_⟩
  change (if g.withSPC = true ∧ g.isValid = true then
    some (SharedPointCloud.mk d.spc.pointIndex d.spc.memory) else none).map _ :: viewsOf rest = _
  rw [if_pos ⟨on, valid⟩]
  rfl

variable (maths) in
/-- Where the compact point cloud is full, each block adds at most one point. -/
theorem far_blocks_broken (twins : g.Twins g') {n : Nat} (few : n < HDL32E.MAX_POINT_SIZE) {k : Nat}
    (waiting : Waiting k d) (empty : d.spc.pointIndex = 0)
    (top : HDL32E.MAX_POINT_SIZE = d.cpc.pointIndex) :
    Waiting (k + n) ((List.replicate n (plainBlock 1 255)).foldl
        (fun d b => takeBlock maths HDL32E g b d) d) ∧
      ((List.replicate n (plainBlock 1 255)).foldl
        (fun d b => takeBlock maths HDL32E g b d) d).spc.pointIndex ≤ n := by
  have all := foldl_replicate (n := n) (b := d) (f := fun d b => takeBlock maths HDL32E g b d)
    (a := plainBlock 1 255)
    (P := fun j d => Waiting (k + j) d ∧ d.spc.pointIndex ≤ j ∧
      HDL32E.MAX_POINT_SIZE = d.cpc.pointIndex) ?_ ⟨waiting, Nat.le_of_eq empty, top⟩
  · exact ⟨all.1, all.2.1⟩
  · rintro j low d ⟨waiting, few', top⟩
    have space : d.spc.pointIndex < HDL32E.MAX_POINT_SIZE := by omega
    obtain ⟨same, next⟩ := waiting.next maths g 255 space
    have broken := storeFiring_broken maths (m := HDL32E) twins (plainBlock 1 255).first
      { d with currentAzimuth := 1, previousAzimuth := 1 } (Nat.le_of_eq top)
    have count := storeFiring_pointIndex maths (m := HDL32E) twins (plainBlock 1 255).first
      { d with currentAzimuth := 1, previousAzimuth := 1 } (Nat.le_of_eq top.symm)
    rw [← takeBlock_plain same space] at broken count
    change _ ≤ d.spc.pointIndex + 1 at broken
    change _ = min (d.cpc.pointIndex + _) _ at count
    exact ⟨next, by omega, by omega⟩

variable (maths) in
/-- Without compact point clouds every far return of the blocks is stored. -/
theorem far_blocks (on : g.withSPC = true) (off : g.withCPC = false) {n : Nat}
    (few : 32 * n < HDL32E.MAX_POINT_SIZE) {k : Nat} (waiting : Waiting k d)
    (empty : d.spc.pointIndex = 0) :
    Waiting (k + n) ((List.replicate n (plainBlock 1 255)).foldl
        (fun d b => takeBlock maths HDL32E g b d) d) ∧
      ((List.replicate n (plainBlock 1 255)).foldl
        (fun d b => takeBlock maths HDL32E g b d) d).spc.pointIndex = 32 * n := by
  apply foldl_replicate (P := fun j d => Waiting (k + j) d ∧ d.spc.pointIndex = 32 * j)
  · rintro j low d ⟨waiting, count⟩
    have space : d.spc.pointIndex < HDL32E.MAX_POINT_SIZE := by omega
    obtain ⟨same, next⟩ := waiting.next maths g 255 space
    have far : (plainBlock 1 255).first.countP Return.isFar = 32 := by decide +kernel
    have stored := storeFiring_spc maths (m := HDL32E) on off (plainBlock 1 255).first 0
      { d with currentAzimuth := 1, previousAzimuth := 1 } (Nat.le_of_lt space)
    rw [← takeBlock_plain same space, far] at stored
    change _ = min (d.spc.pointIndex + 32) _ at stored
    exact ⟨next, by omega⟩
  · exact ⟨waiting, empty⟩

variable (maths) in
/-- Near returns that fill the compact point cloud, then far ones. -/
theorem views_differ (twins : g.Twins g') (valid : g.isValid = true) {payloads : List Bytes}
    (whole : ∀ payload ∈ payloads, payload.length = 1206) {n : Nat}
    (many : HDL32E.MAX_POINT_SIZE ≤ 32 * n) {blocks : List Block}
    (received : payloads.flatMap (blocksOf HDL32E) = List.replicate n (plainBlock 1 0) ++
      (List.replicate 12 (plainBlock 1 255) ++ plainBlock 0 0 :: blocks)) (memory : Nat → ℚ) :
    ∃ d d', run maths HDL32E g (fresh memory) payloads = some d ∧
      run maths HDL32E g' (fresh memory) payloads = some d' ∧ viewsOf d.sent ≠ viewsOf d'.sent := by
  have valid' : g'.isValid = true := twins.isValid.trans valid
  refine ⟨_, _, run_eq payloads whole (fresh memory), run_eq payloads whole (fresh memory), ?_⟩
  rw [received, List.foldl_append, List.foldl_append, List.foldl_append, List.foldl_append]
  obtain ⟨waiting, empty⟩ := near_blocks maths twins.withSPC n memory
  obtain ⟨waiting', empty'⟩ := near_blocks maths twins.withSPC' n memory
  have top := near_blocks_count maths twins n memory
  generalize (List.replicate n (plainBlock 1 0)).foldl
    (fun d b => takeBlock maths HDL32E g b d) (fresh memory) = d at waiting empty top ⊢
  generalize (List.replicate n (plainBlock 1 0)).foldl
    (fun d b => takeBlock maths HDL32E g' b d) (fresh memory) = d' at waiting' empty' ⊢
  have full' : HDL32E.MAX_POINT_SIZE = d.cpc.pointIndex := by
    rw [top]
    omega
  obtain ⟨later, few⟩ := far_blocks_broken maths twins (n := 12) (by decide) waiting empty
    full'
  obtain ⟨later', all⟩ := far_blocks maths twins.withSPC' twins.withoutCPC (n := 12)
    (by decide) waiting' empty'
  obtain ⟨points, rest, view⟩ := first_view maths twins.withSPC valid later blocks
  obtain ⟨points', rest', view'⟩ := first_view maths twins.withSPC' valid' later' blocks
  rw [view, view']
  intro same
  have width := congrArg Prod.fst (Option.some.inj (List.cons.inj same).1)
  change _ = _ at width
  simp only at width
  omega

end Plain

/-- A scan that begins with more than 70000 near returns. -/
def nearThenFar : List Bytes :=
  List.replicate 183 (packetOf 100 0) ++ [packetOf 100 255, packetOf 0 0]

/-- With compact point clouds the far returns behind the near ones are missing. -/
theorem compact_clouds_hide_points :
    ∃ d d',
      run .atZero HDL32E (withSharedMemory HDL32E true (fun i => i) true 1 0 0 0 0)
        (fresh fun _ => 0) nearThenFar = some d ∧
      run .atZero HDL32E (withSharedMemory HDL32E true (fun i => i) false 1 0 0 0 0)
        (fresh fun _ => 0) nearThenFar = some d' ∧
      viewsOf d.sent ≠ viewsOf d'.sent := by
  have twins : (withSharedMemory HDL32E true (fun i => i) true 1 0 0 0 0).Twins
      (withSharedMemory HDL32E true (fun i => i) false 1 0 0 0 0) :=
    ⟨rfl, rfl, rfl, rfl, rfl, rfl, rfl, Nat.zero_le _⟩
  have one : azimuthOf 100 0 = 1 := by decide +kernel
  have zero : azimuthOf 0 0 = 0 := by decide +kernel
  have received : nearThenFar.flatMap (blocksOf HDL32E) =
      List.replicate (183 * 12) (plainBlock 1 0) ++ (List.replicate 12 (plainBlock 1 255) ++
        plainBlock 0 0 :: List.replicate 11 (plainBlock 0 0)) := by
    rw [nearThenFar, List.flatMap_append, List.flatMap_replicate, blocksOf_packetOf,
      List.flatten_replicate_replicate, List.flatMap_cons, blocksOf_packetOf, List.flatMap_singleton,
      blocksOf_packetOf, one, zero, List.replicate_succ (a := plainBlock 0 0)]
  have whole : ∀ payload ∈ nearThenFar, payload.length = 1206 := by
    intro payload there
    rcases List.mem_append.mp there with there | there
    · rw [(List.mem_replicate.mp there).2, length_packetOf]
    · rcases List.mem_pair.mp there with rfl | rfl <;> exact length_packetOf _ _
  have many : HDL32E.MAX_POINT_SIZE ≤ 32 * (183 * 12) := by
    change 70000 ≤ 32 * (183 * 12)
    omega
  exact views_differ Maths.atZero twins rfl whole many received fun _ => 0

end OpendlvCore.Velodyne
