import OpendlvCore.Velodyne.Frames

/-!
# Two decoders over the same packets

Azimuths are read from the packets alone. Two decoders with different settings therefore
turn together: what is kept when both send, and when both store a return, is kept by whole
runs.
-/
namespace OpendlvCore.Velodyne
open CBytes

structure SameAzimuths (d d' : Decoder) : Prop where
  previousAzimuth : d'.previousAzimuth = d.previousAzimuth
  currentAzimuth : d'.currentAzimuth = d.currentAzimuth
  nextAzimuth : d'.nextAzimuth = d.nextAzimuth
  deltaAzimuth : d'.deltaAzimuth = d.deltaAzimuth

/-- A relation that is kept when the azimuths change and when both decoders send. -/
structure Lockstep (m : Device) (g g' : Settings) (R : Decoder → Decoder → Prop) : Prop where
  same : ∀ {d d'}, R d d' → SameAzimuths d d'
  turned : ∀ {d d' e e'}, R d d' → SameClouds d e → SameClouds d' e' → SameAzimuths e e' → R e e'
  send : ∀ {d d'}, R d d' → R (sendPointCloud m g d) (sendPointCloud m g' d')

/-- It is also kept by each return, and both decoders break off at the same place. -/
structure Synchronous (maths : Maths) (m : Device) (g g' : Settings)
    (R : Decoder → Decoder → Prop) : Prop extends Lockstep m g g' R where
  stored : ∀ {d d'} sensorID r, R d d' →
    R (storeReturn maths m g sensorID r d) (storeReturn maths m g' sensorID r d')
  full : ∀ {d d'}, R d d' → full m g' d' = full m g d
  room : ∀ {d d'}, R d d' → (room m d' ↔ room m d)

section Steps
variable {maths : Maths} {m : Device} {g g' : Settings} {R : Decoder → Decoder → Prop}
  {d d' : Decoder}

theorem Lockstep.startBlock (lockstep : Lockstep m g g' R) (related : R d d')
    (azimuth : Option ℚ) : R (startBlock m g azimuth d) (startBlock m g' azimuth d') := by
  have same := lockstep.same related
  have previous := same.previousAzimuth
  have head := congrArg (headOf azimuth) same.nextAzimuth
  have moved : R { d with currentAzimuth := headOf azimuth d.nextAzimuth }
      { d' with currentAzimuth := headOf azimuth d'.nextAzimuth } :=
    lockstep.turned related ⟨rfl, rfl, rfl⟩ ⟨rfl, rfl, rfl⟩
      ⟨previous, head, same.nextAzimuth, same.deltaAzimuth⟩
  unfold Velodyne.startBlock
  simp only
  by_cases wraps : headOf azimuth d.nextAzimuth < d.previousAzimuth
  · have sent := lockstep.send moved
    rw [if_pos wraps, if_pos (by rwa [head, previous])]
    exact lockstep.turned sent ⟨rfl, rfl, rfl⟩ ⟨rfl, rfl, rfl⟩
      ⟨head, head, same.nextAzimuth, same.deltaAzimuth⟩
  · rw [if_neg wraps, if_neg (by rwa [head, previous])]
    exact lockstep.turned moved ⟨rfl, rfl, rfl⟩ ⟨rfl, rfl, rfl⟩
      ⟨head, head, same.nextAzimuth, same.deltaAzimuth⟩

theorem Lockstep.halfWay (lockstep : Lockstep m g g' R) (related : R d d') (next : Option ℚ) :
    R (halfWay next d) (halfWay next d') := by
  have same := lockstep.same related
  apply lockstep.turned related (halfWay_same next d) (halfWay_same next d')
  constructor <;> cases next <;>
    simp only [Velodyne.halfWay, same.previousAzimuth, same.currentAzimuth, same.nextAzimuth,
      same.deltaAzimuth]

theorem Lockstep.interpolate (lockstep : Lockstep m g g' R) (related : R d d')
    (next : Option ℚ) : R (interpolate m g next d) (interpolate m g' next d') := by
  have half := lockstep.halfWay related next
  have same := lockstep.same half
  have current := same.currentAzimuth
  unfold Velodyne.interpolate
  simp only
  by_cases wraps : (Velodyne.halfWay next d).currentAzimuth > 360
  · have behind := congrArg (· - 360) current
    have moved : R
        { Velodyne.halfWay next d with
          currentAzimuth := (Velodyne.halfWay next d).currentAzimuth - 360 }
        { Velodyne.halfWay next d' with
          currentAzimuth := (Velodyne.halfWay next d').currentAzimuth - 360 } :=
      lockstep.turned half ⟨rfl, rfl, rfl⟩ ⟨rfl, rfl, rfl⟩
        ⟨same.previousAzimuth, behind, same.nextAzimuth, same.deltaAzimuth⟩
    have sent := lockstep.send moved
    rw [if_pos wraps, if_pos (by rwa [current])]
    exact lockstep.turned sent ⟨rfl, rfl, rfl⟩ ⟨rfl, rfl, rfl⟩
      ⟨behind, behind, same.nextAzimuth, same.deltaAzimuth⟩
  · rw [if_neg wraps, if_neg (by rwa [current])]
    exact lockstep.turned half ⟨rfl, rfl, rfl⟩ ⟨rfl, rfl, rfl⟩
      ⟨current, current, same.nextAzimuth, same.deltaAzimuth⟩

theorem Synchronous.firing (synchronous : Synchronous maths m g g' R) (returns : List Return)
    (sensorID : Nat) (related : R d d') :
    R (storeFiring maths m g sensorID returns d) (storeFiring maths m g' sensorID returns d') := by
  induction returns generalizing sensorID d d' with
  | nil => exact related
  | cons r rest ih =>
    have one := synchronous.stored sensorID r related
    rw [storeFiring, storeFiring]
    simp only [synchronous.full one]
    split
    · exact one
    · exact ih (sensorID + 1) one

theorem Synchronous.block (synchronous : Synchronous maths m g g' R) (b : Block)
    (related : R d d') : R (takeBlock maths m g b d) (takeBlock maths m g' b d') := by
  have head := synchronous.toLockstep.startBlock related b.azimuth
  have first := synchronous.firing b.first 0 head
  rw [takeBlock, takeBlock]
  simp only [synchronous.room head]
  split
  · rw [takeReturns, takeReturns]
    cases b.second with
    | none => exact first
    | some pair =>
      obtain ⟨next, returns⟩ := pair
      simp only [synchronous.full first]
      split
      · exact first
      · exact synchronous.firing returns 0 (synchronous.toLockstep.interpolate first next)
  · exact head

/-- Whole runs. -/
theorem Synchronous.blocks (synchronous : Synchronous maths m g g' R) (blocks : List Block)
    (related : R d d') :
    R (blocks.foldl (fun d b => takeBlock maths m g b d) d)
      (blocks.foldl (fun d b => takeBlock maths m g' b d) d') := by
  induction blocks generalizing d d' with
  | nil => exact related
  | cons b rest ih =>
    rw [List.foldl_cons, List.foldl_cons]
    exact ih (synchronous.block b related)

end Steps

end OpendlvCore.Velodyne
