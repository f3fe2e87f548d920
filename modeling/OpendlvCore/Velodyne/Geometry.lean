import OpendlvCore.Velodyne.Lockstep
import OpendlvCore.Velodyne.SharedClouds

/-!
# Cartesian and polar point clouds

The option of the shared point cloud decides how a point is written, not which points are
written: a cartesian frame is the image of the polar frame of the same packets, and the
compact point clouds are the same.
-/
namespace OpendlvCore.Velodyne
open CBytes

namespace Segment
variable {α β : Type} {f : Point α → Point β} {s : Segment β} {s' : Segment α}

/-- One memory holds the images of the points of the other. -/
def Images (f : Point α → Point β) (s : Segment β) (s' : Segment α) : Prop :=
  ∃ stored, s'.Holds stored ∧ s.Holds (stored.map f)

theorem Images.pointIndex (images : Images f s s') : s.pointIndex = s'.pointIndex := by
  obtain ⟨stored, holds', holds⟩ := images
  rw [holds.count, holds'.count, List.length_map]

theorem Images.content (images : Images f s s') :
    points s.memory s.pointIndex = (points s'.memory s'.pointIndex).map f := by
  obtain ⟨stored, holds', holds⟩ := images
  rw [holds.content, holds'.content]

theorem Images.restart (s : Segment β) (s' : Segment α) : Images f s.restart s'.restart :=
  ⟨[], Holds.restart s', Holds.restart s⟩

theorem Images.store (images : Images f s s') (max : Nat) (p : Option (Point α)) :
    Images f (s.store max (p.map f)) (s'.store max p) := by
  have counters := images.pointIndex
  obtain ⟨stored, holds', holds⟩ := images
  by_cases room : s'.pointIndex < max
  · cases p with
    | none =>
      rw [Option.map_none, store_none, store_none]
      exact ⟨stored, holds', holds⟩
    | some p =>
      rw [Option.map_some, store_some room, store_some (by omega)]
      refine ⟨stored ++ [p], holds'.put p, ?_⟩
      rw [List.map_append, List.map_singleton]
      exact holds.put (f p)
  · rw [store_of_full (by omega), store_of_full (by omega)]
    exact ⟨stored, holds', holds⟩

end Segment

def Settings.withSPCOption (g : Settings) (option : Nat) : Settings := { g with SPCOption := option }

/-- The coordinates of a point given by distance, azimuth and vertical angle. -/
def cartesianOf (maths : Maths) (p : Point ℚ) : Point ℚ :=
  let xyDistance := p.first * maths.cos (p.third * maths.toRadian)
  { first := xyDistance * maths.sin (p.second * maths.toRadian)
    second := xyDistance * maths.cos (p.second * maths.toRadian)
    third := p.first * maths.sin (p.third * maths.toRadian)
    intensity := p.intensity }

/-- A cartesian and a polar scan. -/
structure SameScan (maths : Maths) (scan scan' : Scan) : Prop where
  shared : scan.shared.map SharedPointCloud.view =
    (scan'.shared.map SharedPointCloud.view).map fun (width, points) =>
      (width, points.map (cartesianOf maths))
  noIntensity : scan.noIntensity = scan'.noIntensity
  withIntensity : scan.withIntensity = scan'.withIntensity

/-- A decoder that writes cartesian points and one that writes polar points. -/
structure SamePoints (maths : Maths) (d d' : Decoder) : Prop extends SameAzimuths d d' where
  spc : Segment.Images (cartesianOf maths) d.spc d'.spc
  cpc : d'.cpc = d.cpc
  sent : List.Forall₂ (SameScan maths) d.sent d'.sent

section Options
variable {maths : Maths} {m : Device} {g : Settings} {d d' : Decoder}

variable (maths g) in
theorem pointOf_cartesian (azimuth : ℚ) (sensorID : Nat) (r : Return) :
    pointOf maths (g.withSPCOption 0) azimuth sensorID r =
      (pointOf maths (g.withSPCOption 1) azimuth sensorID r).map (cartesianOf maths) := by
  unfold pointOf
  by_cases far : (r.raw : ℚ) / 500 > 1
  · simp only [if_pos far]
    rfl
  · simp only [if_neg far]
    rfl

theorem SamePoints.storeSPC (same : SamePoints maths d d') (azimuth : ℚ) (sensorID : Nat)
    (r : Return) :
    Segment.Images (cartesianOf maths)
      (storeSPC maths m (g.withSPCOption 0) azimuth sensorID r d.spc)
      (storeSPC maths m (g.withSPCOption 1) azimuth sensorID r d'.spc) := by
  cases on : g.withSPC with
  | true =>
    have option : ∀ option, (g.withSPCOption option).withSPC = true := fun _ => on
    rw [Velodyne.storeSPC, Velodyne.storeSPC, if_pos (option 0), if_pos (option 1),
      pointOf_cartesian]
    exact same.spc.store m.MAX_POINT_SIZE _
  | false =>
    have option : ∀ option, ¬ (g.withSPCOption option).withSPC = true := by
      intro option
      exact Bool.eq_false_iff.mp on
    rw [Velodyne.storeSPC, Velodyne.storeSPC, if_neg (option 0), if_neg (option 1)]
    exact same.spc

theorem SamePoints.scanOf (same : SamePoints maths d d') :
    SameScan maths (scanOf m (g.withSPCOption 0) d) (scanOf m (g.withSPCOption 1) d') := by
  have previous := same.previousAzimuth
  have cpc := same.cpc
  refine ⟨?_, ?_, ?_⟩
  · change (if g.withSPC = true ∧ g.isValid = true then
        some (SharedPointCloud.mk d.spc.pointIndex d.spc.memory) else none).map _ =
      Option.map _ (Option.map _ (if g.withSPC = true ∧ g.isValid = true then
        some (SharedPointCloud.mk d'.spc.pointIndex d'.spc.memory) else none))
    split
    · rw [Option.map_some, Option.map_some, Option.map_some, SharedPointCloud.view,
        SharedPointCloud.view, same.spc.content, same.spc.pointIndex]
    · rfl
  · simp only [Velodyne.scanOf, compactPointClouds, cpc, previous]
    rfl
  · simp only [Velodyne.scanOf, compactPointClouds, cpc, previous]
    rfl

variable (maths m g) in
theorem samePoints_synchronous :
    Synchronous maths m (g.withSPCOption 0) (g.withSPCOption 1) (SamePoints maths) where
  same same := same.toSameAzimuths
  turned same clouds clouds' azimuths :=
    { toSameAzimuths := azimuths
      spc := by rw [clouds.spc, clouds'.spc]; exact same.spc
      cpc := by rw [clouds.cpc, clouds'.cpc, same.cpc]
      sent := by rw [clouds.sent, clouds'.sent]; exact same.sent }
  send {d d'} same :=
    { toSameAzimuths :=
        ⟨same.previousAzimuth, same.currentAzimuth, same.nextAzimuth, same.deltaAzimuth⟩
      spc := by
        change Segment.Images _ (if g.withSPC = true then d.spc.restart else d.spc)
          (if g.withSPC = true then d'.spc.restart else d'.spc)
        split
        · exact Segment.Images.restart d.spc d'.spc
        · exact same.spc
      cpc := by
        simp only [sendPointCloud, same.cpc, same.currentAzimuth]
        rfl
      sent := by
        rw [sendPointCloud_sent, sendPointCloud_sent]
        exact List.rel_append same.sent (.cons same.scanOf .nil) }
  stored sensorID r same :=
    { toSameAzimuths :=
        ⟨same.previousAzimuth, same.currentAzimuth, same.nextAzimuth, same.deltaAzimuth⟩
      spc := by
        simp only [storeReturn, same.currentAzimuth]
        exact same.storeSPC _ sensorID r
      cpc := by
        simp only [storeReturn, same.cpc]
        rfl
      sent := same.sent }
  full same := by
    simp only [full, same.cpc, same.spc.pointIndex]
    rfl
  room same := by rw [room, room, same.cpc, same.spc.pointIndex]

/-- Packets of any length, and whatever the two memories hold at the start: both decoders send
at the same places, the one the cartesian coordinates of what the other sends. -/
theorem run_cartesian (maths : Maths) (m : Device) (g : Settings) (memory memory' : Nat → ℚ)
    (payloads : List Bytes) :
    ∃ d d', run maths m (g.withSPCOption 0) (fresh memory) payloads = some d ∧
      run maths m (g.withSPCOption 1) (fresh memory') payloads = some d' ∧
      SamePoints maths d d' := by
  have start : SamePoints maths (fresh memory) (fresh memory') :=
    { previousAzimuth := rfl
      currentAzimuth := rfl
      nextAzimuth := rfl
      deltaAzimuth := rfl
      spc := ⟨[], ⟨rfl, rfl, rfl⟩, ⟨rfl, rfl, rfl⟩⟩
      cpc := rfl
      sent := .nil }
  rw [run_eq_filter, run_eq_filter (g := g.withSPCOption 1)]
  exact ⟨_, _, rfl, rfl, (samePoints_synchronous maths m g).blocks _ start⟩

end Options

end OpendlvCore.Velodyne
