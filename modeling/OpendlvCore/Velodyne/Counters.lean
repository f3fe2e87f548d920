import OpendlvCore.Velodyne.SharedClouds

/-!
# Counters of points

The counters of the shared memory and of the compact point clouds grow by at most one for each
return, and the scan starts them again. A firing that fits below the maximum is stored as a whole,
whichever kinds of point clouds are switched on, and so is a scan of firings that fit.
-/
namespace OpendlvCore.Velodyne
open CBytes

section Definitions
variable (maths : Maths) (m : Device) (g : Settings)

/-- No more points than sensors that have fired since the last scan. -/
structure Few (d : Decoder) (f : Frames Firing) : Prop where
  spc : d.spc.pointIndex ≤ m.sensors * f.current.length
  cpc : d.cpc.pointIndex ≤ m.sensors * f.current.length
  withoutSPC : g.withSPC = false → d.spc.pointIndex = 0
  withoutCPC : g.withCPC = false → d.cpc.pointIndex = 0

/-- Frames of firings that fit are held and sent as a whole. -/
structure HoldsWhole (cap : Nat) (d : Decoder) (f : Frames Firing) : Prop extends Few m g d f where
  whole : (∀ firings ∈ f.closed, firings.length ≤ cap) → f.current.length ≤ cap →
    d.spc.Holds (f.current.flatMap (pointsOf maths g)) ∧
      d.sent.map (fun scan => scan.shared.map SharedPointCloud.view) =
        f.closed.map fun firings => some ((firings.flatMap (pointsOf maths g)).length,
          firings.flatMap (pointsOf maths g))

end Definitions

section Counters
variable {m : Device} {g : Settings} {maths : Maths} {d : Decoder} {s : Segment ℚ}
  {stored : List (Point ℚ)}

variable (maths m g) in
theorem storeSPC_grows (azimuth : ℚ) (sensorID : Nat) (r : Return) (spc : Segment ℚ) :
    (storeSPC maths m g azimuth sensorID r spc).pointIndex ≤ spc.pointIndex + 1 ∧
      (g.withSPC = false → storeSPC maths m g azimuth sensorID r spc = spc) := by
  rw [storeSPC]
  split
  · case isTrue on =>
    refine ⟨?_, fun off => absurd on (by simp [off])⟩
    unfold Segment.store
    split
    · cases pointOf maths g azimuth sensorID r with
      | none => exact Nat.le_succ _
      | some p => exact Nat.le_refl _
    · exact Nat.le_succ _
  · exact ⟨Nat.le_succ _, fun _ => rfl⟩

variable (m g) in
theorem storeCPC_grows (sensorID : Nat) (r : Return) (cpc : Compact) :
    (storeCPC m g sensorID r cpc).pointIndex ≤ cpc.pointIndex + 1 ∧
      (g.withCPC = false → storeCPC m g sensorID r cpc = cpc) := by
  rw [storeCPC]
  split
  · case isTrue on =>
    refine ⟨?_, fun off => absurd on.1 (by simp [off])⟩
    -- with both kinds of clouds only the first one counts the point
    by_cases without : g.CPCIntensityOption = 0 ∨ g.CPCIntensityOption = 2
    · have counted : (storeNoIntensity m g sensorID r cpc).pointIndex = cpc.pointIndex + 1 := rfl
      simp only [if_pos without]
      split
      · have other : g.CPCIntensityOption ≠ 1 := by omega
        rw [storeWithIntensity]
        simp only [if_neg other, counted]
        exact Nat.le_refl _
      · exact Nat.le_of_eq counted
    · simp only [if_neg without]
      split
      · rw [storeWithIntensity]
        simp only
        split <;> omega
      · exact Nat.le_succ _
  · exact ⟨Nat.le_succ _, fun _ => rfl⟩

variable (maths m g) in
theorem storeFiring_grows (returns : List Return) (sensorID : Nat) (d : Decoder) :
    (storeFiring maths m g sensorID returns d).spc.pointIndex ≤ d.spc.pointIndex + returns.length ∧
      (storeFiring maths m g sensorID returns d).cpc.pointIndex ≤
        d.cpc.pointIndex + returns.length ∧
      (g.withSPC = false → (storeFiring maths m g sensorID returns d).spc = d.spc) ∧
      (g.withCPC = false → (storeFiring maths m g sensorID returns d).cpc = d.cpc) := by
  induction returns generalizing sensorID d with
  | nil => exact ⟨Nat.le_refl _, Nat.le_refl _, fun _ => rfl, fun _ => rfl⟩
  | cons r rest ih =>
    obtain ⟨spc, sameSPC⟩ := storeSPC_grows m g maths d.currentAzimuth sensorID r d.spc
    obtain ⟨cpc, sameCPC⟩ := storeCPC_grows m g sensorID r d.cpc
    rw [storeFiring, List.length_cons]
    split
    · exact ⟨by change (storeSPC _ _ _ _ _ _ _).pointIndex ≤ _; omega,
        by change (storeCPC _ _ _ _ _).pointIndex ≤ _; omega, sameSPC, sameCPC⟩
    · obtain ⟨spc', cpc', sameSPC', sameCPC'⟩ :=
        ih (sensorID + 1) (storeReturn maths m g sensorID r d)
      simp only [storeReturn] at spc' cpc' sameSPC' sameCPC' ⊢
      exact ⟨by omega, by omega, fun off => (sameSPC' off).trans (sameSPC off),
        fun off => (sameCPC' off).trans (sameCPC off)⟩

variable (maths m g) in
theorem kept_few : Kept maths m g (Few m g) where
  azimuths d d' f same few := by
    obtain ⟨spc, cpc, -⟩ := same
    exact ⟨spc ▸ few.spc, cpc ▸ few.cpc, spc ▸ few.withoutSPC, cpc ▸ few.withoutCPC⟩
  send d f few := by
    have spc : (sendPointCloud m g d).spc.pointIndex = 0 := by
      simp only [sendPointCloud]
      cases on : g.withSPC with
      | true => rfl
      | false => exact few.withoutSPC on
    have cpc : (sendPointCloud m g d).cpc.pointIndex = 0 := by
      simp only [sendPointCloud]
      cases on : g.withCPC with
      | true => rfl
      | false => exact few.withoutCPC on
    exact ⟨spc ▸ Nat.zero_le _, cpc ▸ Nat.zero_le _, fun _ => spc, fun _ => cpc⟩
  firing d f returns count few := by
    obtain ⟨spc, cpc, sameSPC, sameCPC⟩ := storeFiring_grows m g maths returns 0 d
    have before := few.spc
    have before' := few.cpc
    have longer : m.sensors * (f.receive ⟨d.currentAzimuth, returns⟩).current.length =
        m.sensors * f.current.length + m.sensors := by
      rw [Frames.receive, List.length_append, Nat.mul_add, List.length_singleton, Nat.mul_one]
    refine ⟨by omega, by omega, fun off => ?_, fun off => ?_⟩
    · rw [sameSPC off]
      exact few.withoutSPC off
    · rw [sameCPC off]
      exact few.withoutCPC off
  ignored d f firing _ few := by
    have longer : m.sensors * f.current.length ≤ m.sensors * (f.receive firing).current.length := by
      apply Nat.mul_le_mul_left
      rw [Frames.receive, List.length_append]
      exact Nat.le_add_right _ _
    exact ⟨few.spc.trans longer, few.cpc.trans longer, few.withoutSPC, few.withoutCPC⟩

variable (m g maths) in
/-- A firing that fits is stored as a whole. -/
theorem storeFiring_stores (withSPC : g.withSPC = true) (returns : List Return) (sensorID : Nat)
    (holds : d.spc.Holds stored) (spc : d.spc.pointIndex + returns.length ≤ m.MAX_POINT_SIZE)
    (cpc : d.cpc.pointIndex + returns.length ≤ m.MAX_POINT_SIZE) :
    (storeFiring maths m g sensorID returns d).spc.Holds (stored ++
      (returns.zipIdx sensorID).filterMap fun p => pointOf maths g d.currentAzimuth p.2 p.1) := by
  induction returns generalizing sensorID d stored with
  | nil =>
    rw [List.zipIdx_nil, List.filterMap_nil, List.append_nil]
    exact holds
  | cons r rest ih =>
    rw [List.length_cons] at spc cpc
    let point := pointOf maths g d.currentAzimuth sensorID r
    have count := holds.count
    have one : (storeReturn maths m g sensorID r d).spc.Holds (stored ++ point.toList) := by
      have few : (stored ++ point.toList).length ≤ m.MAX_POINT_SIZE := by
        have atMost : point.toList.length ≤ 1 := by cases point <;> simp
        rw [List.length_append]
        omega
      have offered : d.spc.Holds (stored.take m.MAX_POINT_SIZE) := by
        rwa [List.take_of_length_le (by omega)]
      have next := storeSPC_holds maths withSPC d.currentAzimuth sensorID r offered
      rwa [List.take_of_length_le few] at next
    have split : stored ++ ((r :: rest).zipIdx sensorID).filterMap
          (fun p => pointOf maths g d.currentAzimuth p.2 p.1) =
        stored ++ point.toList ++ (rest.zipIdx (sensorID + 1)).filterMap
          fun p => pointOf maths g d.currentAzimuth p.2 p.1 := by
      rw [List.zipIdx_cons, List.append_assoc, filterMap_cons_eq]
    have nextSPC : (storeReturn maths m g sensorID r d).spc.pointIndex ≤ d.spc.pointIndex + 1 :=
      (storeSPC_grows m g maths d.currentAzimuth sensorID r d.spc).1
    have nextCPC : (storeReturn maths m g sensorID r d).cpc.pointIndex ≤ d.cpc.pointIndex + 1 :=
      (storeCPC_grows m g sensorID r d.cpc).1
    rw [storeFiring, split]
    split
    · case isTrue stop =>
      -- one of the counters is at the maximum behind the last return
      rw [full, Bool.or_eq_true, Bool.and_eq_true, Bool.and_eq_true, decide_eq_true_eq,
        decide_eq_true_eq] at stop
      obtain rfl : rest = [] := List.eq_nil_of_length_eq_zero (by omega)
      rw [List.zipIdx_nil, List.filterMap_nil, List.append_nil]
      exact one
    · exact ih (sensorID + 1) one (by omega) (by omega)

variable (m g maths) in
theorem kept_whole (withSPC : g.withSPC = true) (valid : g.isValid = true) {cap : Nat}
    (fits : m.sensors * cap ≤ m.MAX_POINT_SIZE) (some : 0 < m.sensors) :
    Kept maths m g (HoldsWhole maths m g cap) where
  azimuths d d' f same holds :=
    { (kept_few m g maths).azimuths d d' f same holds.toFew with
      whole := by
        rw [same.spc, same.sent]
        exact holds.whole }
  send d f holds :=
    { (kept_few m g maths).send d f holds.toFew with
      whole := by
        intro closed _
        obtain ⟨here, before⟩ := holds.whole
          (fun firings there => closed firings (List.mem_append_left _ there))
          (closed _ (List.mem_append_right _ (List.mem_singleton_self _)))
        have width := here.count
        constructor
        · simp only [sendPointCloud, if_pos withSPC]
          exact Segment.Holds.restart d.spc
        · have scan : (scanOf m g d).shared.map SharedPointCloud.view =
              Option.some ((f.current.flatMap (pointsOf maths g)).length,
                f.current.flatMap (pointsOf maths g)) := by
            rw [scanOf, if_pos ⟨withSPC, valid⟩, Option.map_some, SharedPointCloud.view,
              here.content, width]
          change _ = (f.closed ++ [f.current]).map _
          rw [sendPointCloud_sent, List.map_append, List.map_append, List.map_singleton,
            List.map_singleton, before, scan] }
  firing d f returns count holds :=
    { (kept_few m g maths).firing d f returns count holds.toFew with
      whole := by
        intro closed short
        change (f.current ++ [_]).length ≤ cap at short
        rw [List.length_append, List.length_singleton] at short
        obtain ⟨here, before⟩ := holds.whole closed (by omega)
        have room : m.sensors * (f.current.length + 1) ≤ m.MAX_POINT_SIZE :=
          (Nat.mul_le_mul_left _ short).trans fits
        rw [Nat.mul_succ] at room
        have spc := holds.spc
        have cpc := holds.cpc
        have stores := storeFiring_stores m g maths withSPC returns 0 here (by omega) (by omega)
        constructor
        · change Segment.Holds _ ((f.current ++ [_]).flatMap _)
          rw [List.flatMap_append, List.flatMap_singleton]
          exact stores
        · rw [(storeFiring_frame maths m g returns 0 d).1]
          exact before }
  ignored d f firing stop holds :=
    { (kept_few m g maths).ignored d f firing stop holds.toFew with
      whole := by
        intro _ short
        change (f.current ++ [_]).length ≤ cap at short
        rw [List.length_append, List.length_singleton] at short
        -- there would have been room for this firing
        have room : m.sensors * (f.current.length + 1) ≤ m.MAX_POINT_SIZE :=
          (Nat.mul_le_mul_left _ short).trans fits
        rw [Nat.mul_succ] at room
        have spc := holds.spc
        have cpc := holds.cpc
        exfalso
        rcases stop with stop | stop
        · rw [full, Bool.or_eq_true, Bool.and_eq_true, Bool.and_eq_true, decide_eq_true_eq,
            decide_eq_true_eq] at stop
          omega
        · rw [Velodyne.room, not_or] at stop
          omega }

end Counters

end OpendlvCore.Velodyne

