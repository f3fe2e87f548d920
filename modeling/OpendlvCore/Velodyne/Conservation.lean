import OpendlvCore.Velodyne.Decoder64

/-!
# No point is lost below the limit

The frames of the HDL-64E, and what all three decoders send when the shared memory is the
only product: the points received since the frame before, as many as fit.
-/
namespace OpendlvCore.Velodyne
open CBytes

/-! ## HDL-64E -/

namespace HDL64E

/-- Blocks received, divided where the azimuth decreases. -/
def framesOf : List Block → ℚ → Frames Block → Frames Block
  | [], _, f => f
  | b :: rest, previousAzimuth, f =>
    framesOf rest b.azimuth ((if b.azimuth < previousAzimuth then f.close else f).receive b)

section Definitions
variable (maths : Maths) (calibration : Calibration)

/-- The points of a block: every sensor whose return is far enough. -/
def pointsOf (b : Block) : List (Point ℚ) :=
  b.returns.zipIdx.filterMap fun (r, counter) =>
    pointOf maths calibration b.azimuth (sensorOf b.upperBlock counter) r

/-- The far returns of a block. -/
def farReturnsOf (b : Block) : Nat :=
  b.returns.zipIdx.countP fun (r, counter) =>
    distanceOf calibration (sensorOf b.upperBlock counter) r.raw > 1

/-- The points of the blocks, up to the maximum. -/
def frameOf (blocks : List Block) : Nat × List (Point ℚ) :=
  (min (blocks.map (farReturnsOf calibration)).sum MAX_POINT_SIZE,
    (blocks.flatMap (pointsOf maths calibration)).take MAX_POINT_SIZE)

structure HoldsPoints (d : Decoder) (f : Frames Block) : Prop where
  current : d.segment.Holds ((f.current.flatMap (pointsOf maths calibration)).take MAX_POINT_SIZE)
  sent : d.sent.map SharedPointCloud.view = f.closed.map (frameOf maths calibration)

end Definitions

section Runs
variable {maths : Maths} {calibration : Calibration} {d : Decoder} {f : Frames Block}

theorem length_pointsOf (blocks : List Block) :
    (blocks.flatMap (pointsOf maths calibration)).length =
      (blocks.map (farReturnsOf calibration)).sum := by
  have each : ∀ b, (pointsOf maths calibration b).length = farReturnsOf calibration b := by
    intro b
    rw [pointsOf, farReturnsOf, List.length_filterMap_eq_countP]
    apply List.countP_congr
    intro p _
    unfold pointOf
    by_cases far : distanceOf calibration (sensorOf b.upperBlock p.2) p.1.raw > 1 <;> simp [far]
  induction blocks with
  | nil => rfl
  | cons b rest ih => rw [List.flatMap_cons, List.length_append, each, ih, List.map_cons, List.sum_cons]

variable (maths calibration) in
theorem storeReturns_holds (upperBlock : Bool) (azimuth : ℚ) (returns : List Return) (counter : Nat)
    {s : Segment ℚ} {offered : List (Point ℚ)} (holds : s.Holds (offered.take MAX_POINT_SIZE)) :
    (storeReturns maths calibration upperBlock azimuth counter returns s).Holds
      ((offered ++ (returns.zipIdx counter).filterMap fun p =>
        pointOf maths calibration azimuth (sensorOf upperBlock p.2) p.1).take MAX_POINT_SIZE) := by
  induction returns generalizing counter s offered with
  | nil =>
    rw [List.zipIdx_nil, List.filterMap_nil, List.append_nil]
    exact holds
  | cons r rest ih =>
    have one := holds.store (pointOf maths calibration azimuth (sensorOf upperBlock counter) r)
    have rest := ih (counter + 1) one
    rw [List.append_assoc] at rest
    rw [storeReturns, List.zipIdx_cons, filterMap_cons_eq]
    exact rest

theorem HoldsPoints.send (holds : HoldsPoints maths calibration d f) (newAzimuth : ℚ) :
    HoldsPoints maths calibration (sendSharedPointCloud true d.previousAzimuth newAzimuth d)
      (if newAzimuth < d.previousAzimuth then f.close else f) := by
  rw [sendSharedPointCloud]
  split
  · constructor
    · change Segment.Holds _ (([] : List (Point ℚ)).take _)
      rw [List.take_nil]
      exact Segment.Holds.restart d.segment
    · have width : d.segment.pointIndex =
          min (f.current.map (farReturnsOf calibration)).sum MAX_POINT_SIZE := by
        rw [holds.current.count, List.length_take, length_pointsOf, Nat.min_comm]
      change (d.sent ++ [SharedPointCloud.mk d.segment.pointIndex d.segment.memory]).map _ =
        (f.closed ++ [f.current]).map _
      rw [List.map_append, List.map_append, holds.sent, List.map_singleton, List.map_singleton,
        SharedPointCloud.view, holds.current.content, width]
      rfl
  · exact holds

theorem HoldsPoints.block (holds : HoldsPoints maths calibration d f) (b : Block) :
    HoldsPoints maths calibration (takeBlock maths calibration true b d)
      ((if b.azimuth < d.previousAzimuth then f.close else f).receive b) := by
  have same : HoldsPoints maths calibration { d with upperBlock := b.upperBlock } f :=
    ⟨holds.current, holds.sent⟩
  have started := same.send b.azimuth
  refine ⟨?_, started.sent⟩
  have stored := storeReturns_holds maths calibration b.upperBlock b.azimuth b.returns 0 started.current
  change Segment.Holds _ (((_ ++ [b]).flatMap _).take _)
  rw [List.flatMap_append, List.flatMap_singleton]
  exact stored

theorem HoldsPoints.blocks (blocks : List Block) (holds : HoldsPoints maths calibration d f) :
    HoldsPoints maths calibration
      (blocks.foldl (fun d b => takeBlock maths calibration true b d) d)
      (framesOf blocks d.previousAzimuth f) := by
  induction blocks generalizing d f with
  | nil => exact holds
  | cons b rest ih =>
    rw [List.foldl_cons, framesOf]
    exact ih (holds.block b)

theorem run_points (memory : Nat → ℚ) {payloads : List Bytes}
    (length : ∀ payload ∈ payloads, payload.length = 1206) :
    ∃ d, run maths calibration true (fresh memory) payloads = some d ∧
      HoldsPoints maths calibration d (framesOf (payloads.flatMap blocksOf) 0 {}) := by
  have start : HoldsPoints maths calibration (fresh memory) {} := by
    refine ⟨?_, rfl⟩
    change Segment.Holds _ (([] : List (Point ℚ)).take _)
    rw [List.take_nil]
    exact ⟨rfl, rfl, rfl⟩
  exact ⟨_, run_eq payloads length (fresh memory), start.blocks _⟩

end Runs

end HDL64E

/-! ## The three decoders -/

/-- Without compact point clouds, and with a valid shared memory, every frame is as wide as the
number of far returns received since the frame before, up to the maximum, and begins with their
points in the order of the bytes. -/
theorem frames_conserve_points (maths : Maths) (memory : Nat → ℚ) {payloads : List Bytes}
    (length : ∀ payload ∈ payloads, payload.length = 1206) :
    (∀ m ∈ [VLP16, HDL32E], ∀ (verticalAngle : Nat → ℚ) (SPCOption CPCIntensityOption
        numberOfBitsForIntensity intensityPlacement distanceEncoding : Nat),
      let g := withSharedMemory m true verticalAngle false SPCOption CPCIntensityOption
        numberOfBitsForIntensity intensityPlacement distanceEncoding
      ∃ d, run maths m g (fresh memory) payloads = some d ∧
        d.sent.map (fun scan => scan.shared.map SharedPointCloud.view) =
          (framesOf maths m g (payloads.flatMap (blocksOf m)) (fresh memory) {}).closed.map
            fun firings => some (frameOf maths m g firings)) ∧
    ∀ calibration : HDL64E.Calibration,
      ∃ d, HDL64E.run maths calibration true (HDL64E.fresh memory) payloads = some d ∧
        d.sent.map SharedPointCloud.view =
          (HDL64E.framesOf (payloads.flatMap HDL64E.blocksOf) 0 {}).closed.map
            (HDL64E.frameOf maths calibration) := by
  constructor
  · intro m device verticalAngle SPCOption CPCIntensityOption bits placement encoding
    have fits := fits_of_mem device
    obtain ⟨d, ran, holds⟩ := run_points maths
      (g := withSharedMemory m true verticalAngle false SPCOption CPCIntensityOption bits placement
        encoding) rfl rfl rfl fits memory length
    exact ⟨d, ran, holds.sent⟩
  · intro calibration
    obtain ⟨d, ran, holds⟩ := HDL64E.run_points memory length
    exact ⟨d, ran, holds.sent⟩

theorem frames_conserve_points_two_packets :
    ∃ d, run .atZero VLP16 (withSharedMemory VLP16 true (fun i => i) false 1 0 0 0 0)
        (fresh fun _ => 0) [List.replicate 1206 255, List.replicate 1206 0] = some d ∧
      d.sent.map (fun scan => scan.shared.map SharedPointCloud.view) =
        (framesOf .atZero VLP16 (withSharedMemory VLP16 true (fun i => i) false 1 0 0 0 0)
          ([List.replicate 1206 255, List.replicate 1206 0].flatMap (blocksOf VLP16))
          (fresh fun _ => 0) {}).closed.map
          fun firings => some (frameOf .atZero VLP16
            (withSharedMemory VLP16 true (fun i => i) false 1 0 0 0 0) firings) := by
  exact (frames_conserve_points .atZero (fun _ => 0) length_two_packets).1 VLP16 List.mem_cons_self (fun i => i)
    1 0 0 0 0

end OpendlvCore.Velodyne
