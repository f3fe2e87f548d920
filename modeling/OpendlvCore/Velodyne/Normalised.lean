import OpendlvCore.Velodyne.BlockAzimuths

/-!
# Azimuths between 0 and 360 degrees

The interpolation of the VLP-16 adds 360 degrees to look ahead and takes them off again,
behind the head and in the middle of a block, from what is greater than 360. What is 360
exactly stays.
-/
namespace OpendlvCore.Velodyne
open CBytes

def InTurn (azimuth : ℚ) : Prop := 0 ≤ azimuth ∧ azimuth < 360

section Definitions
variable (m : Device) (g : Settings)

/-- The azimuths of a scan: the ends of its compact point clouds, and those of its points where
they are polar. -/
structure Scan.InTurn (scan : Scan) : Prop where
  clouds : ∀ cloud ∈ scan.noIntensity ++ scan.withIntensity,
    Velodyne.InTurn cloud.startAzimuth ∧ Velodyne.InTurn cloud.endAzimuth
  points : g.SPCOption ≠ 0 → ∀ s, scan.shared = some s →
    ∀ p ∈ Segment.points s.memory s.width, Velodyne.InTurn p.second

/-- The azimuth that returns are stored with, those of the points stored so far, and all scans. -/
structure Normalised (d : Decoder) : Prop where
  current : InTurn d.currentAzimuth
  points : g.SPCOption ≠ 0 → ∀ p ∈ Segment.points d.spc.memory d.spc.pointIndex, InTurn p.second
  sent : ∀ scan ∈ d.sent, scan.InTurn g

/-- What a decoder keeps for that. -/
structure InRange (d : Decoder) : Prop where
  current : InTurn d.currentAzimuth
  previous : InTurn d.previousAzimuth
  start : InTurn d.cpc.startAzimuth
  next : 0 ≤ d.nextAzimuth ∧ d.nextAzimuth < 720
  delta : 0 ≤ d.deltaAzimuth ∧ d.deltaAzimuth < 180
  points : g.SPCOption ≠ 0 → ∃ stored, d.spc.Holds stored ∧ ∀ p ∈ stored, InTurn p.second
  sent : ∀ scan ∈ d.sent, scan.InTurn g

/-- A block with azimuths as the sensor sends them. -/
structure Block.InTurn (b : Block) : Prop where
  azimuth : ∀ a, b.azimuth = some a → Velodyne.InTurn a
  next : ∀ a returns, b.second = some (some a, returns) → Velodyne.InTurn a

/-- The block does not come to 360 degrees exactly: neither with the azimuth carried over to its
head nor, where the second firing is reached, half way to the next block. -/
structure Misses (b : Block) (d : Decoder) : Prop where
  head : b.azimuth = none → d.nextAzimuth ≠ 360
  middle : LeavesRoom m g b d → ∀ a returns, b.second = some (some a, returns) →
    a < headOf b.azimuth d.nextAzimuth → headOf b.azimuth d.nextAzimuth + a ≠ 360
  last : LeavesRoom m g b d → ∀ returns, b.second = some (none, returns) →
    headOf b.azimuth d.nextAzimuth + d.deltaAzimuth ≠ 360

end Definitions

section Steps
variable {maths : Maths} {m : Device} {g : Settings} {d : Decoder} {b : Block}

theorem InRange.normalised (ranged : InRange g d) : Normalised g d where
  current := ranged.current
  points polar := by
    obtain ⟨stored, holds, inside⟩ := ranged.points polar
    rwa [holds.content]
  sent := ranged.sent

/-- Other azimuths, and nothing else. -/
theorem InRange.turned {e : Decoder} (ranged : InRange g d) (same : SameClouds d e)
    (current : InTurn e.currentAzimuth) (previous : InTurn e.previousAzimuth)
    (next : 0 ≤ e.nextAzimuth ∧ e.nextAzimuth < 720)
    (delta : 0 ≤ e.deltaAzimuth ∧ e.deltaAzimuth < 180) : InRange g e where
  current := current
  previous := previous
  start := by rw [same.cpc]; exact ranged.start
  next := next
  delta := delta
  points := by rw [same.spc]; exact ranged.points
  sent := by rw [same.sent]; exact ranged.sent

variable (m) in
theorem InRange.scanOf (ranged : InRange g d) : (scanOf m g d).InTurn g where
  clouds cloud there := by
    obtain ⟨start, stop⟩ := scanOf_ends cloud there
    rw [start, stop]
    exact ⟨ranged.start, ranged.previous⟩
  points polar s shared := by
    obtain ⟨stored, holds, inside⟩ := ranged.points polar
    change ite _ _ _ = some s at shared
    split at shared
    · cases shared
      rwa [holds.content]
    · cases shared

variable (m) in
theorem InRange.send (ranged : InRange g d) : InRange g (sendPointCloud m g d) where
  current := ranged.current
  previous := ranged.previous
  start := by
    simp only [sendPointCloud]
    split
    · exact ranged.current
    · exact ranged.start
  next := ranged.next
  delta := ranged.delta
  points polar := by
    simp only [sendPointCloud]
    split
    · exact ⟨[], Segment.Holds.restart d.spc, fun _ there => absurd there List.not_mem_nil⟩
    · exact ranged.points polar
  sent scan there := by
    rw [sendPointCloud_sent, List.mem_append, List.mem_singleton] at there
    rcases there with before | rfl
    · exact ranged.sent scan before
    · exact ranged.scanOf m

/-- A polar point has the azimuth of the decoder. -/
theorem pointOf_second {azimuth : ℚ} {sensorID : Nat} {r : Return} {p : Point ℚ}
    (polar : g.SPCOption ≠ 0) (point : pointOf maths g azimuth sensorID r = some p) :
    p.second = azimuth := by
  unfold pointOf at point
  simp only [if_neg polar] at point
  split at point
  · cases point
    rfl
  · cases point

variable (maths m) in
theorem InRange.storeReturn (ranged : InRange g d) (sensorID : Nat) (r : Return) :
    InRange g (storeReturn maths m g sensorID r d) where
  current := ranged.current
  previous := ranged.previous
  start := by
    change InTurn (storeCPC m g sensorID r d.cpc).startAzimuth
    rw [storeCPC_startAzimuth]
    exact ranged.start
  next := ranged.next
  delta := ranged.delta
  points polar := by
    obtain ⟨stored, holds, inside⟩ := ranged.points polar
    change ∃ stored, (storeSPC maths m g d.currentAzimuth sensorID r d.spc).Holds stored ∧ _
    unfold storeSPC Segment.store
    cases point : pointOf maths g d.currentAzimuth sensorID r with
    | none => exact ⟨stored, by split <;> simpa using holds, inside⟩
    | some p =>
      simp only
      split
      · split
        · refine ⟨stored ++ [p], holds.put p, fun q there => ?_⟩
          rcases List.mem_append.mp there with before | last
          · exact inside q before
          · rw [List.mem_singleton.mp last, pointOf_second polar point]
            exact ranged.current
        · exact ⟨stored, holds, inside⟩
      · exact ⟨stored, holds, inside⟩
  sent := ranged.sent

variable (maths m) in
theorem InRange.firing (ranged : InRange g d) (returns : List Return) (sensorID : Nat) :
    InRange g (storeFiring maths m g sensorID returns d) := by
  induction returns generalizing sensorID d with
  | nil => exact ranged
  | cons r rest ih =>
    have one := ranged.storeReturn maths m sensorID r
    rw [storeFiring]
    split
    · exact one
    · exact ih one (sensorID + 1)

variable (m) in
/-- A head at this azimuth. -/
theorem InRange.startBlock (ranged : InRange g d) {azimuth : Option ℚ}
    (head : InTurn (headOf azimuth d.nextAzimuth)) : InRange g (startBlock m g azimuth d) := by
  have moved : InRange g { d with currentAzimuth := headOf azimuth d.nextAzimuth } :=
    ranged.turned ⟨rfl, rfl, rfl⟩ head ranged.previous ranged.next ranged.delta
  unfold Velodyne.startBlock
  simp only
  split
  · have sent := moved.send m
    exact sent.turned ⟨rfl, rfl, rfl⟩ sent.current sent.current sent.next sent.delta
  · exact moved.turned ⟨rfl, rfl, rfl⟩ head head moved.next moved.delta

/-- Up to 360 degrees for the look-ahead, up to 180 for half of the way. -/
theorem InRange.halfWay (ranged : InRange g d) {next : Option ℚ}
    (encoded : ∀ a, next = some a → InTurn a) :
    0 ≤ (halfWay next d).currentAzimuth ∧ (halfWay next d).currentAzimuth < 540 ∧
      (0 ≤ (halfWay next d).nextAzimuth ∧ (halfWay next d).nextAzimuth < 720) ∧
      (0 ≤ (halfWay next d).deltaAzimuth ∧ (halfWay next d).deltaAzimuth < 180) := by
  obtain ⟨low, high⟩ := ranged.current
  obtain ⟨forward, short⟩ := ranged.delta
  cases next with
  | none =>
    simp only [Velodyne.halfWay]
    exact ⟨by linarith, by linarith, ranged.next, ranged.delta⟩
  | some a =>
    obtain ⟨low', high'⟩ := encoded a rfl
    simp only [Velodyne.halfWay]
    by_cases behind : a < d.currentAzimuth
    · simp only [if_pos behind]
      exact ⟨by linarith, by linarith, ⟨by linarith, by linarith⟩, ⟨by linarith, by linarith⟩⟩
    · simp only [if_neg behind]
      exact ⟨by linarith, by linarith, ⟨by linarith, by linarith⟩, ⟨by linarith, by linarith⟩⟩

variable (m) in
/-- The middle of a block, unless it is at 360 degrees. -/
theorem InRange.interpolate (ranged : InRange g d) {next : Option ℚ}
    (encoded : ∀ a, next = some a → InTurn a)
    (misses : (Velodyne.halfWay next d).currentAzimuth ≠ 360) :
    InRange g (interpolate m g next d) := by
  obtain ⟨low, high, ahead, delta⟩ := ranged.halfWay encoded
  have same := halfWay_same next d
  unfold Velodyne.interpolate
  simp only
  split
  · rename_i wraps
    have behind : InTurn ((Velodyne.halfWay next d).currentAzimuth - 360) :=
      ⟨by linarith, by linarith⟩
    have previous : InTurn (Velodyne.halfWay next d).previousAzimuth := by
      cases next <;> exact ranged.previous
    have moved : InRange g { Velodyne.halfWay next d with
        currentAzimuth := (Velodyne.halfWay next d).currentAzimuth - 360 } :=
      ranged.turned ⟨same.spc, same.cpc, same.sent⟩ behind previous ahead delta
    have sent := moved.send m
    exact sent.turned ⟨rfl, rfl, rfl⟩ sent.current sent.current sent.next sent.delta
  · rename_i below
    have current : InTurn (Velodyne.halfWay next d).currentAzimuth :=
      ⟨low, lt_of_le_of_ne (not_lt.mp below) misses⟩
    exact ranged.turned ⟨same.spc, same.cpc, same.sent⟩ current current ahead delta

end Steps

/-! ## Blocks -/

section Blocks
variable {maths : Maths} {m : Device} {g : Settings} {d : Decoder} {b : Block}

/-- The azimuth at the head of a block is below 360 degrees unless 360 was carried over. -/
theorem headOf_inTurn (ranged : InRange g d) (encoded : b.InTurn) :
    InTurn (headOf b.azimuth d.nextAzimuth) ↔ (b.azimuth = none → d.nextAzimuth ≠ 360) := by
  obtain ⟨low, high⟩ := ranged.next
  cases azimuth : b.azimuth with
  | some a => exact iff_of_true (encoded.azimuth a azimuth) fun none => by cases none
  | none =>
    simp only [headOf, forall_const]
    split
    · rename_i wraps
      exact iff_of_true ⟨by linarith, by linarith⟩ (ne_of_gt wraps)
    · rename_i below
      exact ⟨fun inside => ne_of_lt inside.2,
        fun misses => ⟨low, lt_of_le_of_ne (not_lt.mp below) misses⟩⟩

/-- When half the way ends at 360 degrees. -/
theorem halfWay_eq_360 (next : Option ℚ) (high : d.currentAzimuth < 360)
    (encoded : ∀ a, next = some a → InTurn a) :
    (halfWay next d).currentAzimuth = 360 ↔
      (∃ a, next = some a ∧ a < d.currentAzimuth ∧ d.currentAzimuth + a = 360) ∨
        next = none ∧ d.currentAzimuth + d.deltaAzimuth = 360 := by
  cases next with
  | none => simp [halfWay]
  | some a =>
    obtain ⟨low', high'⟩ := encoded a rfl
    simp only [halfWay, Option.some.injEq, exists_eq_left', reduceCtorEq, false_and, or_false]
    by_cases behind : a < d.currentAzimuth
    · rw [if_pos behind]
      exact ⟨fun eq => ⟨behind, by linarith⟩, fun both => by linarith [both.2]⟩
    · rw [if_neg behind]
      exact ⟨fun eq => by linarith, fun both => absurd both.1 behind⟩

/-- Both firings of a block, up to the second. -/
theorem halfWay_misses {h : Decoder} {next : Option ℚ} {returns : List Return}
    (encoded : b.InTurn) (second : b.second = some (next, returns))
    (head : InTurn (headOf b.azimuth d.nextAzimuth))
    (current : h.currentAzimuth = headOf b.azimuth d.nextAzimuth)
    (delta : h.deltaAzimuth = d.deltaAzimuth) :
    (halfWay next h).currentAzimuth ≠ 360 ↔
      (∀ a returns, b.second = some (some a, returns) → a < headOf b.azimuth d.nextAzimuth →
        headOf b.azimuth d.nextAzimuth + a ≠ 360) ∧
      ∀ returns, b.second = some (none, returns) →
        headOf b.azimuth d.nextAzimuth + d.deltaAzimuth ≠ 360 := by
  have high : h.currentAzimuth < 360 := by
    rw [current]
    exact head.2
  have meets := halfWay_eq_360 next high fun a eq => encoded.next a returns (by rw [second, eq])
  rw [Ne, meets, not_or, current, delta]
  constructor
  · rintro ⟨inner, last⟩
    refine ⟨fun a returns' eq behind sum => ?_, fun returns' eq sum => ?_⟩
    · rw [second] at eq
      exact inner ⟨a, congrArg Prod.fst (Option.some.inj eq), behind, sum⟩
    · rw [second] at eq
      exact last ⟨congrArg Prod.fst (Option.some.inj eq), sum⟩
  · rintro ⟨inner, last⟩
    refine ⟨?_, ?_⟩
    · rintro ⟨a, rfl, behind, sum⟩
      exact inner a returns second behind sum
    · rintro ⟨rfl, sum⟩
      exact last returns second sum

variable (maths) in
/-- One block. -/
theorem InRange.block (ranged : InRange g d) (encoded : b.InTurn) (counts : g.Counts)
    (misses : Misses m g b d) : InRange g (takeBlock maths m g b d) := by
  have head := (headOf_inTurn ranged encoded).mpr misses.head
  have started := ranged.startBlock m head
  by_cases reads : b.second = none ∨ ¬ ReadsOn maths m g b d
  · obtain ⟨returns, taken, -⟩ := takeBlock_of_not_readsOn reads
    rw [taken]
    exact started.firing maths m returns 0
  · rw [not_or, not_not] at reads
    obtain ⟨⟨next, returns⟩, second⟩ := Option.ne_none_iff_exists'.mp reads.1
    have leaves := (readsOn_iff maths counts b d).mp reads.2
    have same := storeFiring_same maths m g b.first (Velodyne.startBlock m g b.azimuth d)
    have half := (halfWay_misses encoded second head
      (same.currentAzimuth.trans (startBlock_currentAzimuth m g _ d))
      (same.deltaAzimuth.trans (startBlock_deltaAzimuth m g _ d))).mpr
        ⟨misses.middle leaves, misses.last leaves⟩
    rw [takeBlock_of_readsOn second reads.2]
    refine ((started.firing maths m b.first 0).interpolate m ?_ half).firing maths m returns 0
    exact fun a eq => encoded.next a returns (by rw [second, eq])

variable (maths) in
/-- The condition is exact: without it one of the two firings is at 360 degrees. -/
theorem misses_iff (ranged : InRange g d) (encoded : b.InTurn) (counts : g.Counts) :
    Misses m g b d ↔ InTurn (startBlock m g b.azimuth d).currentAzimuth ∧
      InTurn (takeBlock maths m g b d).currentAzimuth := by
  rw [startBlock_currentAzimuth]
  constructor
  · intro misses
    exact ⟨(headOf_inTurn ranged encoded).mpr misses.head,
      (ranged.block maths encoded counts misses).current⟩
  · rintro ⟨head, middle⟩
    have half : LeavesRoom m g b d → ∀ next returns, b.second = some (next, returns) →
        (∀ a returns, b.second = some (some a, returns) → a < headOf b.azimuth d.nextAzimuth →
          headOf b.azimuth d.nextAzimuth + a ≠ 360) ∧
        ∀ returns, b.second = some (none, returns) →
          headOf b.azimuth d.nextAzimuth + d.deltaAzimuth ≠ 360 := by
      intro leaves next returns second
      obtain ⟨h, same, taken⟩ := takeBlock_interpolates second
        ((readsOn_iff maths counts b d).mpr leaves)
      refine (halfWay_misses encoded second head
        (same.currentAzimuth.trans (startBlock_currentAzimuth m g _ d))
        (same.deltaAzimuth.trans (startBlock_deltaAzimuth m g _ d))).mp fun meets => ?_
      rw [taken.currentAzimuth, interpolate_currentAzimuth, meets, if_neg (lt_irrefl _)] at middle
      exact lt_irrefl _ middle.2
    exact ⟨(headOf_inTurn ranged encoded).mp head,
      fun leaves a returns second => (half leaves _ returns second).1 a returns second,
      fun leaves returns second => (half leaves _ returns second).2 returns second⟩

end Blocks

/-! ## Runs -/

section Runs
variable {maths : Maths} {g : Settings} {memory : Nat → ℚ} {payloads : List Bytes} {n : Nat}

theorem hundredths_inTurn {payload : Bytes} {blockID : Nat}
    (low : hundredths payload blockID ≤ 35999) : InTurn ((hundredths payload blockID : ℚ) / 100) := by
  have below : (hundredths payload blockID : ℚ) ≤ 35999 := by exact_mod_cast low
  have above : (0 : ℚ) ≤ hundredths payload blockID := Nat.cast_nonneg _
  exact ⟨by linarith, by linarith⟩

theorem blockAt_inTurn
    (low : ∀ payload ∈ payloads, ∀ blockID < 12, hundredths payload blockID ≤ 35999)
    (inside : n < 12 * payloads.length) : (blockAt payloads n).InTurn := by
  have there : payloads.getD (n / 12) [] ∈ payloads := by
    rw [List.getD_eq_getElem _ _ (by omega)]
    exact List.getElem_mem _
  have encoded := fun blockID b => hundredths_inTurn (low _ there blockID b)
  constructor
  · intro a eq
    change (if n % 12 = 0 then some _ else none) = some a at eq
    split at eq
    · rw [← Option.some.inj eq]
      exact encoded (n % 12) (by omega)
    · cases eq
  · intro a returns eq
    have next : (if n % 12 < 11 then some (headAzimuth (payloads.getD (n / 12) []) (n % 12 + 1))
        else none) = some a := congrArg Prod.fst (Option.some.inj eq)
    split at next
    · rw [← Option.some.inj next]
      exact encoded (n % 12 + 1) (by omega)
    · cases next

theorem fresh_inRange (memory : Nat → ℚ) : InRange g (fresh memory) where
  current := ⟨le_refl _, by norm_num [fresh]⟩
  previous := ⟨le_refl _, by norm_num [fresh]⟩
  start := ⟨le_refl _, by norm_num [fresh]⟩
  next := ⟨le_refl _, by norm_num [fresh]⟩
  delta := ⟨le_refl _, by norm_num [fresh]⟩
  points _ := ⟨[], ⟨rfl, rfl, rfl⟩, fun _ there => absurd there List.not_mem_nil⟩
  sent _ there := absurd there List.not_mem_nil

variable (maths memory) in
theorem stateAfter_inRange (counts : g.Counts)
    (low : ∀ payload ∈ payloads, ∀ blockID < 12, hundredths payload blockID ≤ 35999)
    (inside : n ≤ 12 * payloads.length)
    (misses : ∀ k < n, Misses VLP16 g (blockAt payloads k) (stateAfter maths g memory payloads k)) :
    InRange g (stateAfter maths g memory payloads n) := by
  induction n with
  | zero => exact fresh_inRange memory
  | succ n ih =>
    have before := ih (by omega) fun k less => misses k (by omega)
    exact before.block maths (blockAt_inTurn low inside) counts (misses n (Nat.lt_add_one n))

end Runs

/-- No firing of a run is at 360 degrees or beyond if and only if no block comes to 360 degrees
exactly, and as long as none does, the azimuths of all points stored in the polar mode and those of
all compact point clouds sent are between 0 and 360 degrees. -/
theorem azimuths_normalised (maths : Maths) {c : Configuration} {isValid : Bool}
    {verticalAngle : Nat → ℚ} {g : Settings}
    (accepted : setUp VLP16 c isValid verticalAngle = .ok g) (memory : Nat → ℚ)
    {payloads : List Bytes} (length : ∀ payload ∈ payloads, payload.length = 1206)
    (low : ∀ payload ∈ payloads, ∀ blockID < 12, hundredths payload blockID ≤ 35999) :
    run maths VLP16 g (fresh memory) payloads =
        some (stateAfter maths g memory payloads (12 * payloads.length)) ∧
      ((∀ n < 12 * payloads.length,
          Misses VLP16 g (blockAt payloads n) (stateAfter maths g memory payloads n)) ↔
        ∀ n < 12 * payloads.length,
          InTurn (startBlock VLP16 g (blockAt payloads n).azimuth
            (stateAfter maths g memory payloads n)).currentAzimuth ∧
          InTurn (stateAfter maths g memory payloads (n + 1)).currentAzimuth) ∧
      ∀ n ≤ 12 * payloads.length,
        (∀ k < n, Misses VLP16 g (blockAt payloads k) (stateAfter maths g memory payloads k)) →
          Normalised g (stateAfter maths g memory payloads n) := by
  have counts := setUp_counts accepted
  have each : ∀ n < 12 * payloads.length,
      (∀ k < n, Misses VLP16 g (blockAt payloads k) (stateAfter maths g memory payloads k)) →
      (Misses VLP16 g (blockAt payloads n) (stateAfter maths g memory payloads n) ↔
        InTurn (startBlock VLP16 g (blockAt payloads n).azimuth
          (stateAfter maths g memory payloads n)).currentAzimuth ∧
        InTurn (stateAfter maths g memory payloads (n + 1)).currentAzimuth) := by
    intro n inside before
    have ranged := stateAfter_inRange maths memory counts low (Nat.le_of_lt inside) before
    exact misses_iff maths ranged (blockAt_inTurn low inside) counts
  refine ⟨run_stateAfter length, ⟨fun misses n inside => ?_, fun normal n inside => ?_⟩,
    fun n inside misses => ?_⟩
  · exact (each n inside fun k less => misses k (Nat.lt_trans less inside)).mp (misses n inside)
  · induction n using Nat.strong_induction_on with
    | _ n ih =>
      exact (each n inside fun k less => ih k less (Nat.lt_trans less inside)).mpr
        (normal n inside)
  · exact (stateAfter_inRange maths memory counts low inside misses).normalised

theorem azimuths_normalised_one_packet :
    let g := withSharedMemory VLP16 true (fun i => i) true 1 0 0 0 0
    let payloads := [uniformPacket (fun blockID => 100 * blockID) ⟨232, 3, 9⟩]
    let d := stateAfter .atZero g (fun _ => 0) payloads
    run .atZero VLP16 g (fresh fun _ => 0) payloads = some (d (12 * payloads.length)) ∧
      ((∀ n < 12 * payloads.length, Misses VLP16 g (blockAt payloads n) (d n)) ↔
        ∀ n < 12 * payloads.length,
          InTurn (startBlock VLP16 g (blockAt payloads n).azimuth (d n)).currentAzimuth ∧
          InTurn (d (n + 1)).currentAzimuth) ∧
      ∀ n ≤ 12 * payloads.length,
        (∀ k < n, Misses VLP16 g (blockAt payloads k) (d k)) → Normalised g (d n) := by
  have accepted : setUp VLP16 ⟨2, 1, 0, 0, 0, 0⟩ true (fun i => i) =
      .ok (withSharedMemory VLP16 true (fun i => i) true 1 0 0 0 0) := rfl
  apply azimuths_normalised .atZero accepted
  · intro payload there
    rw [List.mem_singleton.mp there, length_uniformPacket]
  · intro payload there blockID b
    rw [List.mem_singleton.mp there, hundredths_uniformPacket b (by omega)]
    omega

/-- From 350 degrees to 0 within a packet: the points of the second block are stored with an azimuth
of 360 degrees. -/
theorem return_to_zero_stores_360 :
    let g := withSharedMemory VLP16 true (fun i => i) false 1 0 0 0 0
    let payload := uniformPacket (fun blockID => if blockID = 0 then 35000 else 0) ⟨232, 3, 9⟩
    setUp VLP16 ⟨0, 1, 0, 0, 0, 0⟩ true (fun i => i) = .ok g ∧
      (∀ blockID < 12, hundredths payload blockID ≤ 35999) ∧
      (run .atZero VLP16 g (fresh fun _ => 0) [payload]).map
          (fun d => (d.spc.pointIndex, (Segment.read d.spc.memory 32).second)) =
        some (384, 360) := by
  have encoded : ∀ blockID < 12, (if blockID = 0 then 35000 else 0) < 2 ^ 16 := by
    intro blockID _
    split <;> decide
  refine ⟨rfl, fun blockID b => ?_, ?_⟩
  · rw [hundredths_uniformPacket b (encoded blockID b)]
    split <;> omega
  · rw [run_eq _ fun payload there => by rw [List.mem_singleton.mp there, length_uniformPacket],
      List.flatMap_singleton, blocksOf_uniformPacket VLP16 encoded]
    decide +kernel

end OpendlvCore.Velodyne
