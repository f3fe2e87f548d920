import OpendlvCore.UnitCircle
import OpendlvCore.Velodyne.Geometry
import OpendlvCore.Velodyne.Decoder64
import Mathlib.Tactic.GCongr
import Mathlib.Tactic.Linarith
import Mathlib.Tactic.Positivity

/-!
# How far the points lie from the sensor

A point lies as far from its laser as the packet says, up to the error of the sine and the cosine
where it is cartesian: nearer returns are dropped and farther ones cannot be encoded.
-/
namespace OpendlvCore.Velodyne
open CBytes UnitCircle

/-- The error of `sin` and `cos`, which are rounded. -/
def Maths.Near (maths : Maths) (ε : ℚ) : Prop :=
  ∀ angle, UnitCircle.Near ε (maths.sin angle) (maths.cos angle)

/-- The square of the distance from a point above the origin. -/
def Point.squareFrom (height : ℚ) (p : Point ℚ) : ℚ :=
  p.first ^ 2 + p.second ^ 2 + (p.third - height) ^ 2

namespace Segment
variable {α : Type} {P : Point α → Prop} {s : Segment α}

/-- The points since the last frame have a property. -/
def Stores (P : Point α → Prop) (s : Segment α) : Prop :=
  ∃ stored, s.Holds stored ∧ ∀ p ∈ stored, P p

theorem Stores.content (stores : s.Stores P) : ∀ p ∈ points s.memory s.pointIndex, P p := by
  obtain ⟨stored, holds, each⟩ := stores
  rwa [holds.content]

theorem Stores.restart (s : Segment α) : s.restart.Stores P :=
  ⟨[], Holds.restart s, fun _ there => absurd there List.not_mem_nil⟩

theorem Stores.store (stores : s.Stores P) (max : Nat) {p : Option (Point α)}
    (holds : ∀ q ∈ p, P q) : (s.store max p).Stores P := by
  obtain ⟨stored, held, each⟩ := stores
  by_cases room : s.pointIndex < max
  · cases p with
    | none =>
      rw [store_none]
      exact ⟨stored, held, each⟩
    | some p =>
      rw [store_some room]
      refine ⟨stored ++ [p], held.put p, fun q there => ?_⟩
      rcases List.mem_append.mp there with before | last
      · exact each q before
      · rw [List.mem_singleton.mp last]
        exact holds p rfl
  · rw [store_of_full (by omega)]
    exact ⟨stored, held, each⟩

end Segment

/-- Every point of a frame has a property. -/
def SharedPointCloud.Each (P : Point ℚ → Prop) (cloud : SharedPointCloud) : Prop :=
  ∀ p ∈ cloud.view.2, P p

/-- Everything stored and everything sent has a property. -/
structure EachPoint (P : Point ℚ → Prop) (d : Decoder) : Prop where
  current : d.spc.Stores P
  sent : ∀ scan ∈ d.sent, ∀ cloud ∈ scan.shared, cloud.Each P

section Points
variable {maths : Maths} {m : Device} {g : Settings} {P : Point ℚ → Prop} {d : Decoder}

theorem EachPoint.send (each : EachPoint P d) : EachPoint P (sendPointCloud m g d) := by
  refine ⟨?_, fun scan there => ?_⟩
  · change Segment.Stores P (if g.withSPC = true then d.spc.restart else d.spc)
    split
    · exact Segment.Stores.restart d.spc
    · exact each.current
  · rw [sendPointCloud_sent] at there
    rcases List.mem_append.mp there with before | last
    · exact each.sent scan before
    · rw [List.mem_singleton.mp last]
      intro cloud shared
      change cloud ∈ (if g.withSPC = true ∧ g.isValid = true then
        some (SharedPointCloud.mk d.spc.pointIndex d.spc.memory) else none) at shared
      split at shared
      · rw [← Option.some.inj shared]
        exact each.current.content
      · cases shared

theorem EachPoint.stored (each : EachPoint P d)
    (points : ∀ azimuth sensorID r, ∀ p ∈ pointOf maths g azimuth sensorID r, P p)
    (sensorID : Nat) (r : Return) : EachPoint P (storeReturn maths m g sensorID r d) := by
  refine ⟨?_, each.sent⟩
  change Segment.Stores P (storeSPC maths m g d.currentAzimuth sensorID r d.spc)
  rw [storeSPC]
  split
  · exact each.current.store m.MAX_POINT_SIZE (points _ _ _)
  · exact each.current

variable (m) in
/-- The decoder beside itself. -/
theorem eachPoint_synchronous
    (points : ∀ azimuth sensorID r, ∀ p ∈ pointOf maths g azimuth sensorID r, P p) :
    Synchronous maths m g g fun d d' => d' = d ∧ EachPoint P d where
  same := by
    rintro d _ ⟨rfl, -⟩
    exact ⟨rfl, rfl, rfl, rfl⟩
  turned {d d' e e'} related clouds clouds' azimuths := by
    obtain ⟨rfl, each⟩ := related
    obtain ⟨previous, current, next, delta⟩ := azimuths
    have spc := clouds'.spc.trans clouds.spc.symm
    have cpc := clouds'.cpc.trans clouds.cpc.symm
    have sent := clouds'.sent.trans clouds.sent.symm
    refine ⟨?_, by rw [clouds.spc]; exact each.current, by rw [clouds.sent]; exact each.sent⟩
    cases e
    cases e'
    simp only at previous current next delta spc cpc sent
    rw [previous, current, next, delta, spc, cpc, sent]
  send := by
    rintro d _ ⟨rfl, each⟩
    exact ⟨rfl, each.send⟩
  stored sensorID r related := by
    obtain ⟨rfl, each⟩ := related
    exact ⟨rfl, each.stored points sensorID r⟩
  full := by
    rintro d _ ⟨rfl, -⟩
    rfl
  room := by
    rintro d _ ⟨rfl, -⟩
    rfl

/-- Whole runs. -/
theorem run_eachPoint (memory : Nat → ℚ) (payloads : List Bytes)
    (points : ∀ azimuth sensorID r, ∀ p ∈ pointOf maths g azimuth sensorID r, P p) :
    ∃ d, run maths m g (fresh memory) payloads = some d ∧ EachPoint P d := by
  have start : EachPoint P (fresh memory) :=
    ⟨⟨[], ⟨rfl, rfl, rfl⟩, fun _ there => absurd there List.not_mem_nil⟩,
      fun _ there => absurd there List.not_mem_nil⟩
  rw [run_eq_filter]
  exact ⟨_, rfl, ((eachPoint_synchronous m points).blocks _ ⟨rfl, start⟩).2⟩

theorem Return.raw_le (r : Return) : (r.raw : ℚ) ≤ 65535 := by
  have first := r.firstByte.toNat_lt
  have second := r.secondByte.toNat_lt
  have encoded : r.raw ≤ 65535 := by
    rw [Return.raw, ntohs]
    omega
  exact_mod_cast encoded

variable (maths g) in
/-- The point of a return of more than 1 m by one of the sensors, at its distance. -/
def Measured (ε : ℚ) (p : Point ℚ) : Prop :=
  ∃ azimuth sensorID, ∃ r : Return, p ∈ pointOf maths g azimuth sensorID r ∧
    1 < (r.raw / 500 : ℚ) ∧ (r.raw / 500 : ℚ) ≤ 65535 / 500 ∧
    if g.SPCOption = 0 then Preserves ε 2 (p.squareFrom 0) ((r.raw / 500 : ℚ) ^ 2)
    else p.first = r.raw / 500

variable (g) in
theorem measured_pointOf {ε : ℚ} (near : maths.Near ε) (small : ε ≤ 1) (azimuth : ℚ)
    (sensorID : Nat) (r : Return) {p : Point ℚ} (there : p ∈ pointOf maths g azimuth sensorID r) :
    Measured maths g ε p := by
  have encoded := r.raw_le
  have horizontal := near (azimuth * maths.toRadian)
  have vertical := near (g.verticalAngle sensorID * maths.toRadian)
  have square := horizontal.spherical vertical small (r.raw / 500 : ℚ) 0
  refine ⟨azimuth, sensorID, r, there, ?_⟩
  unfold pointOf at there
  simp only at there
  split at there
  · rename_i far
    refine ⟨far, by gcongr, ?_⟩
    by_cases cartesian : g.SPCOption = 0
    · rw [if_pos cartesian] at there ⊢
      rw [← Option.some.inj there, Point.squareFrom]
      simpa using square
    · rw [if_neg cartesian] at there ⊢
      rw [← Option.some.inj there]
  · cases there

end Points

namespace HDL64E
variable {maths : Maths} {calibration : Calibration} {isValid : Bool} {P : Point ℚ → Prop}
  {d : Decoder}

/-- Everything stored and everything sent has a property. -/
structure EachPoint (P : Point ℚ → Prop) (d : Decoder) : Prop where
  current : d.segment.Stores P
  sent : ∀ cloud ∈ d.sent, cloud.Each P

/-- The returns in the payloads, each with the azimuth of its block and the laser that made it. -/
def Returned (payloads : List Bytes) (azimuth : ℚ) (sensorID : Nat) (r : Return) : Prop :=
  ∃ payload ∈ payloads, payload.length = 1206 ∧ ∃ b ∈ blocksOf payload, azimuth = b.azimuth ∧
    ∃ index < 32, sensorID = sensorOf b.upperBlock index ∧ b.returns[index]? = some r

theorem storeReturns_stores {upperBlock : Bool} {azimuth : ℚ} (returns : List Return) (counter : Nat)
    (points : ∀ (index : Nat) (r : Return), returns[index]? = some r →
      ∀ p ∈ pointOf maths calibration azimuth (sensorOf upperBlock (counter + index)) r, P p)
    (s : Segment ℚ) (stores : s.Stores P) :
    (storeReturns maths calibration upperBlock azimuth counter returns s).Stores P := by
  induction returns generalizing counter s with
  | nil => exact stores
  | cons r rest ih =>
    rw [storeReturns]
    refine ih (counter + 1) (fun index r' there => ?_) _
      (stores.store MAX_POINT_SIZE (points 0 r rfl))
    rw [Nat.add_right_comm]
    exact points (index + 1) r' there

theorem EachPoint.block (each : EachPoint P d) (b : Block)
    (points : ∀ (index : Nat) (r : Return), b.returns[index]? = some r →
      ∀ p ∈ pointOf maths calibration b.azimuth (sensorOf b.upperBlock index) r, P p) :
    EachPoint P (takeBlock maths calibration isValid b d) := by
  have sent : EachPoint P (sendSharedPointCloud isValid d.previousAzimuth b.azimuth
      { d with upperBlock := b.upperBlock }) := by
    rw [sendSharedPointCloud]
    split
    · refine ⟨Segment.Stores.restart d.segment, fun cloud there => ?_⟩
      simp only at there
      split at there
      · rcases List.mem_append.mp there with before | last
        · exact each.sent cloud before
        · rw [List.mem_singleton.mp last]
          exact each.current.content
      · exact each.sent cloud there
    · exact ⟨each.current, each.sent⟩
  refine ⟨storeReturns_stores b.returns 0 (fun index r there => ?_) _ sent.current, sent.sent⟩
  rw [Nat.zero_add]
  exact points index r there

theorem length_returns {payload : Bytes} {b : Block} (there : b ∈ blocksOf payload) :
    b.returns.length = 32 := by
  obtain ⟨index, -, rfl⟩ := List.mem_map.mp there
  exact (List.length_map _).trans List.length_range'

theorem EachPoint.blocks {payload : Bytes} (blocks : List Block) (among : blocks ⊆ blocksOf payload)
    (points : ∀ b ∈ blocksOf payload, ∀ index < 32, ∀ r : Return, b.returns[index]? = some r →
      ∀ p ∈ pointOf maths calibration b.azimuth (sensorOf b.upperBlock index) r, P p)
    (each : EachPoint P d) :
    EachPoint P (blocks.foldl (fun d b => takeBlock maths calibration isValid b d) d) := by
  induction blocks generalizing d with
  | nil => exact each
  | cons b rest ih =>
    have there := among List.mem_cons_self
    rw [List.foldl_cons]
    refine ih (fun _ later => among (List.mem_cons_of_mem _ later))
      (each.block b fun index r here => points b there index ?_ r here)
    rw [← length_returns there]
    exact (List.getElem?_eq_some_iff.mp here).1

/-- Whole runs; a payload of another length is ignored. -/
theorem run_eachPoint (payloads : List Bytes)
    (points : ∀ azimuth sensorID r, Returned payloads azimuth sensorID r →
      ∀ p ∈ pointOf maths calibration azimuth sensorID r, P p)
    (each : EachPoint P d) :
    ∃ e, run maths calibration isValid d payloads = some e ∧ EachPoint P e := by
  induction payloads generalizing d with
  | nil => exact ⟨d, rfl, each⟩
  | cons payload payloads ih =>
    have later : ∀ azimuth sensorID r, Returned payloads azimuth sensorID r →
        ∀ p ∈ pointOf maths calibration azimuth sensorID r, P p := by
      rintro azimuth sensorID r ⟨other, there, rest⟩
      exact points azimuth sensorID r ⟨other, List.mem_cons_of_mem _ there, rest⟩
    by_cases length : payload.length = 1206
    · rw [run, nextString_eq length, Option.bind_some]
      refine ih later (each.blocks _ (List.Subset.refl _) fun b there index inside r here => ?_)
      exact points _ _ r ⟨payload, List.mem_cons_self, length, b, there, rfl, index, inside, rfl, here⟩
    · rw [run, nextString, if_neg length, Option.bind_some]
      exact ih later each

variable (maths calibration) in
/-- The point of a return of more than 1 m by the laser that made it, at its distance from where
this laser is: above the origin and off the axis by its corrections. -/
def Measured (payloads : List Bytes) (ε : ℚ) (p : Point ℚ) : Prop :=
  ∃ azimuth sensorID r, Returned payloads azimuth sensorID r ∧
    p ∈ pointOf maths calibration azimuth sensorID r ∧
    1 < distanceOf calibration sensorID r.raw ∧
    distanceOf calibration sensorID r.raw ≤
      65535 / 500 + calibration.distCorrection sensorID / 100 ∧
    Preserves ε 2 (p.squareFrom (calibration.vertOffsetCorrection sensorID / 100))
      (distanceOf calibration sensorID r.raw ^ 2 +
        (calibration.horizOffsetCorrection sensorID / 100) ^ 2)

theorem measured_pointOf {ε : ℚ} (near : maths.Near ε) (small : ε ≤ 1) {payloads : List Bytes}
    {azimuth : ℚ} {sensorID : Nat} {r : Return} (made : Returned payloads azimuth sensorID r)
    {p : Point ℚ} (there : p ∈ pointOf maths calibration azimuth sensorID r) :
    Measured maths calibration payloads ε p := by
  have encoded := r.raw_le
  have horizontal := near (toRadian maths (azimuth - calibration.rotCorrection sensorID))
  have vertical := near (toRadian maths (calibration.vertCorrection sensorID))
  have square := horizontal.spherical vertical small (distanceOf calibration sensorID r.raw)
    (calibration.horizOffsetCorrection sensorID / 100)
  refine ⟨azimuth, sensorID, r, made, there, ?_⟩
  unfold pointOf at there
  simp only at there
  split at there
  · rename_i far
    refine ⟨far, ?_, ?_⟩
    · rw [distanceOf]
      linarith
    · rw [← Option.some.inj there, Point.squareFrom]
      simpa only [pointAt, add_sub_cancel_right] using square
  · cases there

end HDL64E

/-- Every point of a frame is that of a return of more than 1 m, and lies at its distance. -/
theorem run_distances (maths : Maths) {ε : ℚ} (near : maths.Near ε) (small : ε ≤ 1)
    (memory : Nat → ℚ) (payloads : List Bytes) :
    (∀ (m : Device) (g : Settings), ∃ d, run maths m g (fresh memory) payloads = some d ∧
      ∀ scan ∈ d.sent, ∀ cloud ∈ scan.shared, cloud.Each (Measured maths g ε)) ∧
    ∀ (calibration : HDL64E.Calibration) (isValid : Bool), ∃ d,
      HDL64E.run maths calibration isValid (HDL64E.fresh memory) payloads = some d ∧
      ∀ cloud ∈ d.sent, cloud.Each (HDL64E.Measured maths calibration payloads ε) := by
  constructor
  · intro m g
    obtain ⟨d, returns, each⟩ := run_eachPoint (m := m) memory payloads
      fun azimuth sensorID r p there => measured_pointOf g near small azimuth sensorID r there
    exact ⟨d, returns, each.sent⟩
  · intro calibration isValid
    have start : HDL64E.EachPoint (HDL64E.Measured maths calibration payloads ε)
        (HDL64E.fresh memory) :=
      ⟨⟨[], ⟨rfl, rfl, rfl⟩, fun _ there => absurd there List.not_mem_nil⟩,
        fun _ there => absurd there List.not_mem_nil⟩
    obtain ⟨d, returns, each⟩ := HDL64E.run_eachPoint payloads
      (fun azimuth sensorID r made p => HDL64E.measured_pointOf near small made) start
    exact ⟨d, returns, each.sent⟩

/-- Sensors that look straight ahead, at the end of a turn and at the start of the next, with a
cosine that is one millionth too large. -/
theorem run_distances_ahead :
    let payloads := [uniformPacket (fun _ => 36000) ⟨208, 7, 9⟩, uniformPacket (fun _ => 0) ⟨208, 7, 9⟩]
    let ahead : Settings := withSharedMemory VLP16 true (fun _ => 0) false 0 0 0 0 0
    let rounded : Maths := { Maths.atZero with cos := fun _ => 1000001 / 1000000 }
    (∃ d, run rounded VLP16 ahead (fresh fun _ => 0) payloads = some d ∧
      ∀ scan ∈ d.sent, ∀ cloud ∈ scan.shared, cloud.Each (Measured rounded ahead (3 / 1000000))) ∧
    ∃ d, HDL64E.run rounded ⟨fun _ => 0, fun _ => 0, fun _ => 3, fun _ => 20, fun _ => 5⟩ true
        (HDL64E.fresh fun _ => 0) payloads = some d ∧
      ∀ cloud ∈ d.sent, cloud.Each (HDL64E.Measured rounded
        ⟨fun _ => 0, fun _ => 0, fun _ => 3, fun _ => 20, fun _ => 5⟩ payloads (3 / 1000000)) := by
  intro payloads ahead rounded
  have near : rounded.Near (3 / 1000000) := fun _ =>
    ⟨by norm_num [rounded, Maths.atZero], by norm_num [rounded, Maths.atZero]⟩
  have runs := run_distances rounded near (by norm_num) (fun _ => 0) payloads
  exact ⟨runs.1 VLP16 ahead, runs.2 _ true⟩

end OpendlvCore.Velodyne
