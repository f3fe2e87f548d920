import OpendlvCore.Velodyne.CompactScans
import OpendlvCore.Velodyne.Conservation
import OpendlvCore.Velodyne.Revolutions

/-!
# One frame for each turn of the HDL-32E and the HDL-64E

Every block of these sensors has an azimuth of its own, and their decoders send where it decreases.
Counted through, the azimuths say which turn of the sensor a block belongs to, and each frame
is what was received on one turn.
-/
namespace OpendlvCore.Velodyne
open CBytes

/-! ## Divided where the azimuth decreases -/

/-- One more element; the frame is closed if the azimuth is below the one before. -/
def divide {α : Type} (s : ℚ × Frames α) (x : ℚ × α) : ℚ × Frames α :=
  (x.1, (if x.1 < s.1 then s.2.close else s.2).receive x.2)

section Definitions
variable (azimuth : Nat → Nat)

/-- The turn that the sensor is on at a block. -/
def turnAt (n : Nat) : Nat := unwrapped azimuth n / 36000

/-- The turns behind the sensor after the first `n` blocks. -/
def turns : Nat → Nat
  | 0 => 0
  | n + 1 => turnAt azimuth n

def azimuthBefore : Nat → ℚ
  | 0 => 0
  | n + 1 => azimuth n / 100

variable {α : Type} (item : Nat → α)

/-- What the first `n` blocks give on the turn `k`. -/
def inTurn (n k : Nat) : List α := ((List.range n).filter fun i => turnAt azimuth i = k).map item

def byTurns (n : Nat) : Frames α where
  closed := (List.range (turns azimuth n)).map (inTurn azimuth item n)
  current := inTurn azimuth item n (turns azimuth n)

end Definitions

section Turns
variable {azimuth : Nat → Nat} {α : Type} {item : Nat → α} {n : Nat}

theorem unwrapped_mod (inside : ∀ i ≤ n, azimuth i ≤ 35999) :
    unwrapped azimuth n % 36000 = azimuth n := by
  induction n with
  | zero =>
    have low := inside 0 (Nat.le_refl 0)
    rw [unwrapped]
    omega
  | succ n ih =>
    have before := ih fun i low => inside i (by omega)
    have step := advance_eq (inside n (by omega)) (inside (n + 1) (Nat.le_refl _))
    have bound := inside (n + 1) (Nat.le_refl _)
    rw [unwrapped]
    omega

/-- The azimuth decreases where a turn begins. -/
theorem turnAt_succ (inside : ∀ i ≤ n + 1, azimuth i ≤ 35999) :
    turnAt azimuth (n + 1) =
      if azimuth (n + 1) < azimuth n then turnAt azimuth n + 1 else turnAt azimuth n := by
  have here := unwrapped_mod fun i (low : i ≤ n) => inside i (by omega)
  have low := inside n (by omega)
  have bound := inside (n + 1) (Nat.le_refl _)
  have step := advance_eq low bound
  rw [turnAt, turnAt, unwrapped]
  split <;> omega

theorem turnAt_mono (azimuth : Nat → Nat) : Monotone (turnAt azimuth) :=
  fun _ _ le => Nat.div_le_div_right (monotone_nat_of_le_succ (fun _ => Nat.le_add_right _ _) le)

theorem turnAt_le_turns {i : Nat} (before : i < n) : turnAt azimuth i ≤ turns azimuth n := by
  cases n with
  | zero => exact absurd before (Nat.not_lt_zero i)
  | succ n => exact turnAt_mono azimuth (Nat.le_of_lt_succ before)

variable (azimuth item n) in
theorem inTurn_succ (k : Nat) :
    inTurn azimuth item (n + 1) k =
      inTurn azimuth item n k ++ if turnAt azimuth n = k then [item n] else [] := by
  rw [inTurn, inTurn, List.range_succ, List.filter_append, List.map_append]
  by_cases here : turnAt azimuth n = k <;> simp [here]

/-- No block has been on a turn to come. -/
theorem inTurn_of_lt {k : Nat} (ahead : turns azimuth n < k) : inTurn azimuth item n k = [] := by
  rw [inTurn, List.map_eq_nil_iff, List.filter_eq_nil_iff]
  intro i there
  have behind : turnAt azimuth i ≤ turns azimuth n := turnAt_le_turns (List.mem_range.mp there)
  rw [decide_eq_true_eq]
  omega

/-- Another block on the turn before it. -/
theorem byTurns_same (same : turnAt azimuth n = turns azimuth n) :
    byTurns azimuth item (n + 1) = (byTurns azimuth item n).receive (item n) := by
  have closed : (List.range (turns azimuth n)).map (inTurn azimuth item (n + 1)) =
      (List.range (turns azimuth n)).map (inTurn azimuth item n) := by
    apply List.map_congr_left
    intro k low
    rw [List.mem_range] at low
    rw [inTurn_succ, if_neg (by omega), List.append_nil]
  have current := inTurn_succ azimuth item n (turns azimuth n)
  rw [if_pos same] at current
  rw [byTurns, turns, same, closed, current]
  rfl

/-- A block that begins a turn. -/
theorem byTurns_next (next : turnAt azimuth n = turns azimuth n + 1) :
    byTurns azimuth item (n + 1) = (byTurns azimuth item n).close.receive (item n) := by
  have closed : (List.range (turns azimuth n + 1)).map (inTurn azimuth item (n + 1)) =
      (List.range (turns azimuth n + 1)).map (inTurn azimuth item n) := by
    apply List.map_congr_left
    intro k low
    rw [List.mem_range] at low
    rw [inTurn_succ, if_neg (by omega), List.append_nil]
  have current := inTurn_succ azimuth item n (turns azimuth n + 1)
  rw [if_pos next, inTurn_of_lt (Nat.lt_succ_self _), List.nil_append] at current
  rw [byTurns, turns, next, closed, current, List.range_succ, List.map_append]
  rfl

/-- What is divided where the azimuth decreases is divided into turns. -/
theorem divide_turns (inside : ∀ i < n, azimuth i ≤ 35999) :
    ((List.range n).map fun i => ((azimuth i : ℚ) / 100, item i)).foldl divide (0, {}) =
      (azimuthBefore azimuth n, byTurns azimuth item n) := by
  induction n with
  | zero => rfl
  | succ n ih =>
    have before := ih fun i low => inside i (by omega)
    rw [List.range_succ, List.map_append, List.foldl_append, before]
    refine Prod.ext rfl ?_
    change (if (azimuth n : ℚ) / 100 < azimuthBefore azimuth n then
      (byTurns azimuth item n).close else byTurns azimuth item n).receive (item n) = _
    cases n with
    | zero =>
      have first : ¬ (azimuth 0 : ℚ) / 100 < azimuthBefore azimuth 0 :=
        not_lt.mpr (div_nonneg (Nat.cast_nonneg _) (by norm_num))
      have low := inside 0 Nat.zero_lt_one
      rw [if_neg first, byTurns_same]
      rw [turnAt, unwrapped, turns]
      omega
    | succ n =>
      have step := turnAt_succ fun i (low : i ≤ n + 1) => inside i (by omega)
      rw [azimuthBefore]
      by_cases wraps : azimuth (n + 1) < azimuth n
      · have decreases : (azimuth (n + 1) : ℚ) / 100 < azimuth n / 100 := by
          have lt : (azimuth (n + 1) : ℚ) < azimuth n := by exact_mod_cast wraps
          linarith
        rw [if_pos wraps] at step
        rw [if_pos decreases, byTurns_next step]
      · have stays : ¬ (azimuth (n + 1) : ℚ) / 100 < azimuth n / 100 := by
          have le : (azimuth n : ℚ) ≤ azimuth (n + 1) := by exact_mod_cast Nat.not_lt.mp wraps
          linarith
        rw [if_neg wraps] at step
        rw [if_neg stays, byTurns_same step]

end Turns

/-! ## The frames of a run -/

/-- The blocks of a run, one after the other. -/
theorem flatMap_blocks {α : Type} (block : Bytes → Nat → α) (payloads : List Bytes) :
    payloads.flatMap (fun payload => (List.range 12).map (block payload)) =
      (List.range (12 * payloads.length)).map fun n =>
        block (payloads.getD (n / 12) []) (n % 12) := by
  induction payloads with
  | nil => rfl
  | cons payload rest ih =>
    rw [List.flatMap_cons, ih, List.length_cons,
      show 12 * (rest.length + 1) = 12 + 12 * rest.length by omega, List.range_add,
      List.map_append, List.map_map]
    refine congrArg₂ (· ++ ·) rfl (List.map_congr_left fun n _ => ?_)
    rw [Function.comp_apply, Nat.add_mod_left, show (12 + n) / 12 = n / 12 + 1 by omega]
    rfl

section Definitions
variable (payloads : List Bytes)

/-- The firing of a block of an HDL-32E. -/
def firingAt (n : Nat) : Firing where
  azimuth := (encoded payloads n : ℚ) / 100
  returns := (blockOf HDL32E (payloads.getD (n / 12) []) (n % 12)).first

/-- The turns that a run completes. -/
def completeTurns : Nat := turns (encoded payloads) (12 * payloads.length)

/-- The firings of an HDL-32E on a turn. -/
def firingsIn (k : Nat) : List Firing :=
  inTurn (encoded payloads) (firingAt payloads) (12 * payloads.length) k

/-- The blocks of an HDL-64E on a turn. -/
def HDL64E.blocksIn (k : Nat) : List HDL64E.Block :=
  inTurn (encoded payloads)
    (fun n => HDL64E.blockOf (payloads.getD (n / 12) []) (n % 12)) (12 * payloads.length) k

end Definitions

section Frames
variable {maths : Maths} {g : Settings} {payloads : List Bytes}

variable (g) in
/-- The head of a block that has an azimuth of its own. -/
theorem startBlock_own {m : Device} (head : ℚ) (d : Decoder) (f : Frames Firing) :
    (startBlock m g (some head) d).currentAzimuth = head ∧
      (startBlock m g (some head) d).previousAzimuth = head ∧
      f.closeIf d (startBlock m g (some head) d) = if head < d.previousAzimuth then f.close else f := by
  by_cases wraps : head < d.previousAzimuth
  · rw [startBlock_of_lt (some head) d wraps, if_pos wraps, Frames.closeIf, if_neg]
    · exact ⟨rfl, rfl, rfl⟩
    · rw [sendPointCloud_sent, List.length_append, List.length_singleton]
      exact Nat.succ_ne_self _
  · rw [startBlock_of_le (some head) d wraps, if_neg wraps]
    exact ⟨rfl, rfl, closeIf_same rfl⟩

variable (maths g) in
/-- A block of an HDL-32E. -/
theorem receiveBlock_plain (head : ℚ) (returns : List Return) (d : Decoder) (f : Frames Firing) :
    let b : Block := { azimuth := some head, first := returns, second := none }
    (takeBlock maths HDL32E g b d).previousAzimuth = head ∧
      receiveBlock maths HDL32E g b d f =
        (if head < d.previousAzimuth then f.close else f).receive ⟨head, returns⟩ := by
  obtain ⟨current, previous, closed⟩ := startBlock_own g (m := HDL32E) head d f
  constructor
  · rw [takeBlock]
    split
    · exact (storeFiring_frame maths HDL32E g returns 0 _).2.1.trans previous
    · exact previous
  · rw [receiveBlock]
    simp only [current, closed]

variable (maths g payloads) in
theorem framesOf_divide (indices : List Nat) (d : Decoder) (f : Frames Firing) :
    framesOf maths HDL32E g
        (indices.map fun n => blockOf HDL32E (payloads.getD (n / 12) []) (n % 12)) d f =
      ((indices.map fun n => ((encoded payloads n : ℚ) / 100, firingAt payloads n)).foldl divide
        (d.previousAzimuth, f)).2 := by
  induction indices generalizing d f with
  | nil => rfl
  | cons n rest ih =>
    obtain ⟨previous, received⟩ := receiveBlock_plain maths g ((encoded payloads n : ℚ) / 100)
      (firingAt payloads n).returns d f
    rw [List.map_cons, framesOf, ih, List.map_cons, List.foldl_cons]
    exact congrArg (fun s => (List.foldl divide s _).2) (Prod.ext previous received)

variable (payloads) in
theorem HDL64E.framesOf_divide (indices : List Nat) (previousAzimuth : ℚ) (f : Frames HDL64E.Block) :
    HDL64E.framesOf
        (indices.map fun n => HDL64E.blockOf (payloads.getD (n / 12) []) (n % 12)) previousAzimuth f =
      ((indices.map fun n => ((encoded payloads n : ℚ) / 100,
        HDL64E.blockOf (payloads.getD (n / 12) []) (n % 12))).foldl divide (previousAzimuth, f)).2 := by
  induction indices generalizing previousAzimuth f with
  | nil => rfl
  | cons n rest ih =>
    rw [List.map_cons, HDL64E.framesOf, ih]
    rfl

variable (maths g) in
/-- The frames of an HDL-32E are its turns. -/
theorem closed_turns (inside : ∀ n < 12 * payloads.length, encoded payloads n ≤ 35999)
    (memory : Nat → ℚ) :
    (framesOf maths HDL32E g (payloads.flatMap (blocksOf HDL32E)) (fresh memory) {}).closed =
      (List.range (completeTurns payloads)).map (firingsIn payloads) := by
  have blocks : payloads.flatMap (blocksOf HDL32E) = _ := flatMap_blocks (blockOf HDL32E) payloads
  rw [blocks, framesOf_divide]
  exact congrArg (fun s : ℚ × Frames Firing => s.2.closed) (divide_turns inside)

/-- The frames of an HDL-64E are its turns. -/
theorem HDL64E.closed_turns (inside : ∀ n < 12 * payloads.length, encoded payloads n ≤ 35999) :
    (HDL64E.framesOf (payloads.flatMap HDL64E.blocksOf) 0 {}).closed =
      (List.range (completeTurns payloads)).map (HDL64E.blocksIn payloads) := by
  have blocks : payloads.flatMap HDL64E.blocksOf = _ := flatMap_blocks HDL64E.blockOf payloads
  rw [blocks, HDL64E.framesOf_divide]
  exact congrArg (fun s : ℚ × Frames Block => s.2.closed) (divide_turns inside)

theorem kept_count (maths : Maths) (m : Device) (g : Settings) :
    Kept maths m g fun d f => d.sent.length = f.closed.length where
  azimuths d d' f same count := by rw [same.sent, count]
  send d f count := by
    change (d.sent ++ [scanOf m g d]).length = (f.closed ++ [f.current]).length
    rw [List.length_append, List.length_append, count]
    rfl
  firing d f returns _ count := by
    rw [(storeFiring_frame maths m g returns 0 d).1]
    exact count
  ignored _ _ _ _ count := count

variable (maths) in
theorem run_count {m : Device} (fits : m.Fits) (memory : Nat → ℚ)
    (length : ∀ payload ∈ payloads, payload.length = 1206) :
    ∃ d, run maths m g (fresh memory) payloads = some d ∧
      d.sent.length =
        (framesOf maths m g (payloads.flatMap (blocksOf m)) (fresh memory) {}).closed.length :=
  ⟨_, run_eq payloads length (fresh memory),
    (kept_count maths m g).run (blocks_whole fits payloads) rfl⟩

end Frames

/-- The decoders of the HDL-32E and the HDL-64E send one frame for each complete turn, and with it
what was received on this turn, up to the maximum. -/
theorem frames_by_turns (maths : Maths) (memory : Nat → ℚ) {payloads : List Bytes}
    (length : ∀ payload ∈ payloads, payload.length = 1206)
    (inside : ∀ n < 12 * payloads.length, encoded payloads n ≤ 35999) :
    (∀ (c : Configuration) (verticalAngle : Nat → ℚ) (g : Settings),
      setUp HDL32E c true verticalAngle = .ok g →
      ∃ d, run maths HDL32E g (fresh memory) payloads = some d ∧
        d.sent.length = completeTurns payloads ∧
        (g.withCPC = false →
          d.sent.map (fun scan => scan.shared.map SharedPointCloud.view) =
            (List.range (completeTurns payloads)).map fun k =>
              some (frameOf maths HDL32E g (firingsIn payloads k))) ∧
        ∀ kind : Kind, kind.enabled g →
          d.sent.map (fun scan => contents (kind.clouds scan)) =
            (List.range (completeTurns payloads)).map fun k =>
              cloudsOf HDL32E ((firingsIn payloads k).map (written g kind))) ∧
    ∀ calibration : HDL64E.Calibration,
      ∃ d, HDL64E.run maths calibration true (HDL64E.fresh memory) payloads = some d ∧
        d.sent.map SharedPointCloud.view =
          (List.range (completeTurns payloads)).map fun k =>
            HDL64E.frameOf maths calibration (HDL64E.blocksIn payloads k) := by
  constructor
  · intro c verticalAngle g accepted
    have closed := closed_turns maths g inside memory
    obtain ⟨d, ran, count⟩ := run_count maths (g := g) fits_HDL32E memory length
    rw [closed, List.length_map, List.length_range] at count
    refine ⟨d, ran, count, ?_, ?_⟩
    · intro off
      obtain ⟨on, valid⟩ : g.withSPC = true ∧ g.isValid = true := by
        obtain ⟨-, -, -, ⟨withCPC, rfl⟩ | rfl⟩ := setUp_cases accepted
        · exact ⟨rfl, rfl⟩
        · cases off
      obtain ⟨d', ran', holds⟩ := run_points maths on off valid fits_HDL32E memory length
      obtain rfl := Option.some.inj (ran.symm.trans ran')
      rw [holds.sent, closed, List.map_map]
      rfl
    · intro kind on
      have order := setUp_order accepted
      have ordered : g.Ordered HDL32E :=
        ⟨by rw [order, length_indexSensorIDs], fun sensorID there =>
          indexSensorIDs_inside (order ▸ there)⟩
      obtain ⟨d', ran', holds⟩ := run_written maths on fits_HDL32E ordered memory length
      obtain rfl := Option.some.inj (ran.symm.trans ran')
      rw [holds.sent, closed, List.map_map]
      rfl
  · intro calibration
    obtain ⟨d, ran, holds⟩ : ∃ d,
        HDL64E.run maths calibration true (HDL64E.fresh memory) payloads = some d ∧ _ :=
      HDL64E.run_points memory length
    refine ⟨d, ran, ?_⟩
    rw [holds.sent, HDL64E.closed_turns inside, List.map_map]
    rfl

theorem length_steadyPackets : ∀ payload ∈ List.replicate 2 steadyPacket, payload.length = 1206 := by
  intro payload there
  rw [List.eq_of_mem_replicate there, steadyPacket, List.length_map, List.length_range]

theorem frames_by_turns_two_packets :
    let payloads := List.replicate 2 steadyPacket
    let g := withSharedMemory HDL32E true (fun i => i) true 1 2 3 0 0
    (∃ d, run .atZero HDL32E g (fresh fun _ => 0) payloads = some d ∧
      d.sent.length = completeTurns payloads ∧
      ∀ kind : Kind, d.sent.map (fun scan => contents (kind.clouds scan)) =
        (List.range (completeTurns payloads)).map fun k =>
          cloudsOf HDL32E ((firingsIn payloads k).map (written g kind))) ∧
    ∀ calibration : HDL64E.Calibration,
      ∃ d, HDL64E.run .atZero calibration true (HDL64E.fresh fun _ => 0) payloads = some d ∧
        d.sent.map SharedPointCloud.view =
          (List.range (completeTurns payloads)).map fun k =>
            HDL64E.frameOf .atZero calibration (HDL64E.blocksIn payloads k) := by
  have inside : ∀ n < 12 * (List.replicate 2 steadyPacket).length,
      encoded (List.replicate 2 steadyPacket) n ≤ 35999 := by
    rw [List.length_replicate]
    intro n low
    rw [encoded_steadyPacket low]
    omega
  have accepted : setUp HDL32E ⟨2, 1, 2, 3, 0, 0⟩ true (fun i => i) =
      .ok (withSharedMemory HDL32E true (fun i => i) true 1 2 3 0 0) := rfl
  obtain ⟨hdl32e, hdl64e⟩ := frames_by_turns .atZero (fun _ => 0) length_steadyPackets inside
  obtain ⟨d, ran, count, -, clouds⟩ := hdl32e _ _ _ accepted
  refine ⟨⟨d, ran, count, fun kind => clouds kind ?_⟩, hdl64e⟩
  cases kind <;> exact ⟨rfl, .inr rfl⟩

end OpendlvCore.Velodyne
