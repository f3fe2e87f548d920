import OpendlvCore.Velodyne.Frames
import Mathlib.Data.List.Count

/-!
# What the shared point clouds contain

Without compact point clouds the counter of the shared memory alone decides when the
points of a frame are discarded. Each frame holds the first points received for it.
-/
namespace OpendlvCore.Velodyne
open CBytes

/-- More than 1 m away. -/
def Return.isFar (r : Return) : Bool := (r.raw : ℚ) / 500 > 1

/-- What a receiver sees of a shared point cloud: the width, and the points up to there. -/
def SharedPointCloud.view (s : SharedPointCloud) : Nat × List (Point ℚ) :=
  (s.width, Segment.points s.memory s.width)

section Definitions
variable (maths : Maths) (m : Device) (g : Settings)

/-- The points of a firing: every sensor whose return is far enough. -/
def pointsOf (firing : Firing) : List (Point ℚ) :=
  firing.returns.zipIdx.filterMap fun (r, sensorID) => pointOf maths g firing.azimuth sensorID r

/-- The far returns of the firings. -/
def farReturns (firings : List Firing) : Nat := (firings.flatMap Firing.returns).countP Return.isFar

/-- The points of the firings, up to the maximum. -/
def frameOf (firings : List Firing) : Nat × List (Point ℚ) :=
  (min (farReturns firings) m.MAX_POINT_SIZE,
    (firings.flatMap (pointsOf maths g)).take m.MAX_POINT_SIZE)

/-- The points since the last frame are in the memory, those before have been sent. -/
structure HoldsPoints (d : Decoder) (f : Frames Firing) : Prop where
  current : d.spc.Holds ((f.current.flatMap (pointsOf maths g)).take m.MAX_POINT_SIZE)
  sent : d.sent.map (fun scan => scan.shared.map SharedPointCloud.view) =
    f.closed.map fun firings => some (frameOf maths m g firings)

end Definitions

section Runs
variable {maths : Maths} {m : Device} {g : Settings} {s : Segment ℚ} {offered : List (Point ℚ)}

variable (maths g) in
theorem pointOf_isSome (azimuth : ℚ) (sensorID : Nat) (r : Return) :
    (pointOf maths g azimuth sensorID r).isSome = r.isFar := by
  unfold pointOf Return.isFar
  by_cases far : (r.raw : ℚ) / 500 > 1
  · simp only [if_pos far, decide_eq_true far]
    split <;> rfl
  · simp only [if_neg far, decide_eq_false far]
    rfl

theorem filterMap_cons_eq {α β : Type} (f : α → Option β) (x : α) (xs : List α) :
    (x :: xs).filterMap f = (f x).toList ++ xs.filterMap f := by
  rw [List.filterMap_cons]
  cases f x <;> rfl

/-- As many points as far returns. -/
theorem length_pointsOf (firings : List Firing) :
    (firings.flatMap (pointsOf maths g)).length = farReturns firings := by
  have each : ∀ (azimuth : ℚ) (returns : List Return) (sensorID : Nat),
      ((returns.zipIdx sensorID).filterMap fun p => pointOf maths g azimuth p.2 p.1).length =
        returns.countP Return.isFar := by
    intro azimuth returns
    induction returns with
    | nil => exact fun _ => rfl
    | cons r rest ih =>
      intro sensorID
      have far := pointOf_isSome maths g azimuth sensorID r
      rw [List.zipIdx_cons, List.countP_cons, ← far, ← ih (sensorID + 1), filterMap_cons_eq,
        List.length_append, Nat.add_comm]
      cases pointOf maths g azimuth sensorID r <;> rfl
  rw [farReturns]
  induction firings with
  | nil => rfl
  | cons firing rest ih =>
    rw [List.flatMap_cons, List.flatMap_cons, List.length_append, List.countP_append, ih]
    exact congrArg (· + _) (each firing.azimuth firing.returns 0)

theorem full_shared (off : g.withCPC = false) (d : Decoder) :
    full m g d = true ↔ m.MAX_POINT_SIZE ≤ d.spc.pointIndex := by
  rw [full, off]
  simp

variable (maths) in
/-- One return: a far one is offered to the memory. -/
theorem storeSPC_holds (on : g.withSPC = true) (azimuth : ℚ) (sensorID : Nat) (r : Return)
    (holds : s.Holds (offered.take m.MAX_POINT_SIZE)) :
    (storeSPC maths m g azimuth sensorID r s).Holds
      ((offered ++ (pointOf maths g azimuth sensorID r).toList).take m.MAX_POINT_SIZE) := by
  rw [storeSPC, if_pos on]
  exact holds.store _

variable (maths) in
/-- One firing. -/
theorem storeFiring_holds (on : g.withSPC = true) (off : g.withCPC = false)
    (returns : List Return) (sensorID : Nat) (d : Decoder)
    (holds : d.spc.Holds (offered.take m.MAX_POINT_SIZE)) :
    (storeFiring maths m g sensorID returns d).spc.Holds
      ((offered ++ (returns.zipIdx sensorID).filterMap
        fun p => pointOf maths g d.currentAzimuth p.2 p.1).take m.MAX_POINT_SIZE) := by
  induction returns generalizing sensorID d offered with
  | nil =>
    rw [List.zipIdx_nil, List.filterMap_nil, List.append_nil]
    exact holds
  | cons r rest ih =>
    have one := storeSPC_holds maths on d.currentAzimuth sensorID r holds
    have split : offered ++ ((r :: rest).zipIdx sensorID).filterMap
          (fun p => pointOf maths g d.currentAzimuth p.2 p.1) =
        offered ++ (pointOf maths g d.currentAzimuth sensorID r).toList ++
          (rest.zipIdx (sensorID + 1)).filterMap
            fun p => pointOf maths g d.currentAzimuth p.2 p.1 := by
      rw [List.zipIdx_cons, List.append_assoc, filterMap_cons_eq]
    rw [storeFiring, split]
    split
    · rename_i stop
      exact one.beyond ((full_shared off _).mp stop) _
    · exact ih (sensorID + 1) (storeReturn maths m g sensorID r d) one

theorem kept_points (on : g.withSPC = true) (off : g.withCPC = false) (valid : g.isValid = true) :
    Kept maths m g (HoldsPoints maths m g) where
  azimuths d d' f same holds :=
    ⟨by rw [same.spc]; exact holds.current, by rw [same.sent]; exact holds.sent⟩
  send d f holds := by
    constructor
    · change Segment.Holds (if g.withSPC = true then d.spc.restart else d.spc) _
      rw [if_pos on]
      change Segment.Holds _ (([] : List (Point ℚ)).take _)
      rw [List.take_nil]
      exact Segment.Holds.restart d.spc
    · have width : d.spc.pointIndex = min (farReturns f.current) m.MAX_POINT_SIZE := by
        rw [holds.current.count, List.length_take, length_pointsOf, Nat.min_comm]
      have scan : (scanOf m g d).shared.map SharedPointCloud.view =
          some (frameOf maths m g f.current) := by
        change (if g.withSPC = true ∧ g.isValid = true then
          some (SharedPointCloud.mk d.spc.pointIndex d.spc.memory) else none).map _ = _
        rw [if_pos ⟨on, valid⟩, Option.map_some, SharedPointCloud.view, holds.current.content, width]
        rfl
      change _ = (f.closed ++ [f.current]).map _
      rw [sendPointCloud_sent, List.map_append, List.map_append, holds.sent, List.map_singleton,
        List.map_singleton, scan]
  firing d f returns _ holds := by
    constructor
    · have next := storeFiring_holds maths on off returns 0 d holds.current
      change Segment.Holds _ (((f.current ++ [_]).flatMap _).take _)
      rw [List.flatMap_append, List.flatMap_singleton]
      exact next
    · rw [(storeFiring_frame maths m g returns 0 d).1]
      exact holds.sent
  ignored d f firing stop holds := by
    constructor
    · have beyond : m.MAX_POINT_SIZE ≤ d.spc.pointIndex := by
        rcases stop with stop | stop
        · exact (full_shared off d).mp stop
        · rw [room, not_or, Nat.not_lt] at stop
          exact stop.1
      have next := holds.current.beyond beyond (pointsOf maths g firing)
      change Segment.Holds _ (((f.current ++ [_]).flatMap _).take _)
      rw [List.flatMap_append, List.flatMap_singleton]
      exact next
    · exact holds.sent

variable (maths) in
/-- Every frame of a run holds the points received since the one before. -/
theorem run_points (on : g.withSPC = true) (off : g.withCPC = false) (valid : g.isValid = true)
    (fits : m.Fits) (memory : Nat → ℚ) {payloads : List Bytes}
    (length : ∀ payload ∈ payloads, payload.length = 1206) :
    ∃ d, run maths m g (fresh memory) payloads = some d ∧
      HoldsPoints maths m g d
        (framesOf maths m g (payloads.flatMap (blocksOf m)) (fresh memory) {}) := by
  have start : HoldsPoints maths m g (fresh memory) {} := by
    refine ⟨?_, rfl⟩
    change Segment.Holds _ (([] : List (Point ℚ)).take _)
    rw [List.take_nil]
    exact ⟨rfl, rfl, rfl⟩
  exact ⟨_, run_eq payloads length (fresh memory),
    (kept_points on off valid).run (blocks_whole fits payloads) start⟩

end Runs

end OpendlvCore.Velodyne
