import OpendlvCore.Velodyne.Counters
import OpendlvCore.Velodyne.Turns

/-!
# Whole scans of a VLP-16

From 0.39 degrees between two blocks on, no scan of a VLP-16 reaches the maximum number of points
(at 10 Hz a block turns the sensor by 0.4 degrees). Every firing is then sent, and its azimuth in
its scan and the number of the scan give the way the sensor has turned.
-/
namespace OpendlvCore.Velodyne
open CBytes

/-! ## Firings counted through -/

/-- A firing behind `k` full turns. -/
def Firing.turned (k : Nat) (firing : Firing) : Firing :=
  { firing with azimuth := firing.azimuth + 360 * k }

/-- What was received, with a full turn added for each frame before. -/
def Frames.through (f : Frames Firing) : List Firing :=
  f.closed.zipIdx.flatMap (fun p => p.1.map (Firing.turned p.2)) ++
    f.current.map (Firing.turned f.closed.length)

section Through
variable (f : Frames Firing)

theorem through_receive (firing : Firing) :
    (f.receive firing).through = f.through ++ [firing.turned f.closed.length] := by
  rw [Frames.through, Frames.through, Frames.receive, List.map_append, List.append_assoc]
  rfl

theorem through_close : f.close.through = f.through := by
  rw [Frames.through, Frames.through, Frames.close, List.zipIdx_append, List.flatMap_append,
    List.map_nil, List.append_nil]
  simp

theorem through_closeIf (before after : Decoder) : (f.closeIf before after).through = f.through := by
  rw [Frames.closeIf]
  split
  · rfl
  · exact through_close f

end Through

/-! ## Block by block -/

section Definitions
variable (maths : Maths) (g : Settings) (memory : Nat → ℚ) (payloads : List Bytes)

/-- The decoder at the head of a block. -/
def headAt (n : Nat) : Decoder :=
  startBlock VLP16 g (blockAt payloads n).azimuth (stateAfter maths g memory payloads n)

/-- What was received with the first `n` blocks. -/
def framesAfter : Nat → Frames Firing
  | 0 => {}
  | n + 1 =>
    receiveBlock maths VLP16 g (blockAt payloads n) (stateAfter maths g memory payloads n)
      (framesAfter n)

/-- The two firings of a block, at their unwrapped azimuths. -/
def firstOf (n : Nat) : Firing where
  azimuth := firstFiring (encoded payloads) n
  returns := blockReturns (payloads.getD (n / 12) []) (n % 12) 0 16

def secondOf (n : Nat) : Firing where
  azimuth := secondFiring (encoded payloads) n
  returns := blockReturns (payloads.getD (n / 12) []) (n % 12) 16 16

/-- All firings of the first `n` blocks. -/
def firingsUpTo (n : Nat) : List Firing :=
  (List.range n).flatMap fun i => [firstOf payloads i, secondOf payloads i]

/-- The firings up to the first one of a block. -/
def framesAt (n : Nat) : Frames Firing :=
  ((framesAfter maths g memory payloads n).closeIf (stateAfter maths g memory payloads n)
    (headAt maths g memory payloads n)).receive
      { azimuth := (headAt maths g memory payloads n).currentAzimuth
        returns := (firstOf payloads n).returns }

/-- What holds of the frames anywhere in a run. -/
structure Regular (d : Decoder) (f : Frames Firing) : Prop where
  count : f.closed.length = d.sent.length
  within : f.Each fun firing => 0 ≤ firing.azimuth ∧ firing.azimuth ≤ 360
  short : ∀ firings ∈ f.closed, firings.length ≤ 1849
  current : f.current.length ≤ 1849

/-- Behind the first firing of block `n`: the frame is as long as the turn so far allows. -/
structure AtFirst (n : Nat) (d : Decoder) (f : Frames Firing) : Prop extends Regular d f where
  head : Head (encoded payloads) n d
  through : f.through = firingsUpTo payloads n ++ [firstOf payloads n]
  slow : 39 * (f.current.length : ℚ) ≤ 200 * d.currentAzimuth + 78

/-- Behind the second firing of block `n`. -/
structure AtSecond (n : Nat) (d : Decoder) (f : Frames Firing) : Prop extends Regular d f where
  tail : Tail (encoded payloads) n d
  through : f.through = firingsUpTo payloads (n + 1)
  slow : f.current.length = 1 ∨ 39 * ((f.current.length : ℚ) + 1) ≤
    200 * (firstFiring (encoded payloads) n + 39 / 100 - 360 * d.sent.length) + 78

/-- At least 0.39 degrees between two blocks. -/
def Fast (blocks : Nat) : Prop :=
  ∀ n, n + 1 < blocks → 39 ≤ advance (encoded payloads n) (encoded payloads (n + 1))

end Definitions

section Steps
variable {maths : Maths} {g : Settings} {memory : Nat → ℚ} {payloads : List Bytes} {n : Nat}
  {d e : Decoder} {f : Frames Firing}

/-- Where nothing is sent the frame goes on, otherwise it is closed. -/
theorem closeIf_cases (f : Frames Firing) (d e : Decoder) :
    e.sent.length = d.sent.length ∧ f.closeIf d e = f ∨ f.closeIf d e = f.close := by
  by_cases same : e.sent.length = d.sent.length
  · exact .inl ⟨same, if_pos same⟩
  · exact .inr (if_neg same)

/-- One more firing, behind a send or not. -/
theorem Regular.receive (regular : Regular d f) (current : (f.closeIf d e).current.length < 1849)
    (count : (f.closeIf d e).closed.length = e.sent.length) {firing : Firing}
    (low : 0 ≤ firing.azimuth) (high : firing.azimuth ≤ 360) :
    Regular e ((f.closeIf d e).receive firing) := by
  refine ⟨count, (regular.within.closeIf d e).receive ⟨low, high⟩, ?_, ?_⟩
  · intro firings there
    change firings ∈ (f.closeIf d e).closed at there
    rcases closeIf_cases f d e with ⟨-, same⟩ | closed
    · rw [same] at there
      exact regular.short firings there
    · rw [closed, Frames.close] at there
      rcases List.mem_append.mp there with before | last
      · exact regular.short firings before
      · rw [List.mem_singleton.mp last]
        exact regular.current
  · rw [Frames.receive, List.length_append, List.length_singleton]
    exact current

theorem firingsUpTo_succ (payloads : List Bytes) (n : Nat) :
    firingsUpTo payloads (n + 1) =
      firingsUpTo payloads n ++ [firstOf payloads n] ++ [secondOf payloads n] := by
  rw [firingsUpTo, List.range_succ, List.flatMap_append, List.flatMap_singleton, List.append_assoc]
  rfl

/-- A frame that is as slow as the sensor allows ends behind 360 degrees. -/
theorem length_of_slow {length : Nat} {azimuth : ℚ} (high : azimuth ≤ 360)
    (slow : 39 * (length : ℚ) ≤ 200 * azimuth + 78) : length ≤ 1848 := by
  have bound : (length : ℚ) < 1849 := by linarith
  exact Nat.le_of_lt_succ (by exact_mod_cast bound)

theorem AtFirst.length (first : AtFirst payloads n d f) : f.current.length ≤ 1848 :=
  length_of_slow first.head.high first.slow

/-- The first firing of a block. -/
theorem atFirst (regular : Regular d f) (through : f.through = firingsUpTo payloads n)
    (head : Head (encoded payloads) n e) (count : (f.closeIf d e).closed.length = e.sent.length)
    (slow : e.sent.length = d.sent.length →
      39 * ((f.current.length : ℚ) + 1) ≤ 200 * e.currentAzimuth + 78) :
    AtFirst payloads n e
      ((f.closeIf d e).receive ⟨e.currentAzimuth, (firstOf payloads n).returns⟩) := by
  have low := head.low
  have here : Firing.turned (f.closeIf d e).closed.length
      ⟨e.currentAzimuth, (firstOf payloads n).returns⟩ = firstOf payloads n := by
    have azimuth : e.currentAzimuth + 360 * (e.sent.length : ℚ) =
        firstFiring (encoded payloads) n := by
      rw [head.count]
      ring
    rw [Firing.turned, count, azimuth]
    rfl
  have slow : 39 * (((f.closeIf d e).current.length + 1 : Nat) : ℚ) ≤ 200 * e.currentAzimuth + 78 := by
    rw [Nat.cast_add, Nat.cast_one]
    rcases closeIf_cases f d e with ⟨same, rest⟩ | closed
    · rw [rest]
      exact slow same
    · rw [closed, Frames.close, List.length_nil, Nat.cast_zero]
      linarith
  refine ⟨regular.receive ?_ count low head.high, head, ?_, ?_⟩
  · have length := length_of_slow head.high slow
    omega
  · rw [through_receive, through_closeIf, through, here]
  · rw [Frames.receive, List.length_append, List.length_singleton]
    exact slow

/-- The second firing of a block. -/
theorem AtFirst.second (first : AtFirst payloads n d f) (tail : Tail (encoded payloads) n e)
    (count : (f.closeIf d e).closed.length = e.sent.length) :
    AtSecond payloads n e
      ((f.closeIf d e).receive ⟨e.currentAzimuth, (secondOf payloads n).returns⟩) := by
  have length := first.length
  have here : Firing.turned (f.closeIf d e).closed.length
      ⟨e.currentAzimuth, (secondOf payloads n).returns⟩ = secondOf payloads n := by
    have azimuth : e.currentAzimuth + 360 * (e.sent.length : ℚ) =
        secondFiring (encoded payloads) n := by
      rw [tail.count]
      ring
    rw [Firing.turned, count, azimuth]
    rfl
  refine ⟨first.toRegular.receive ?_ count tail.low tail.high, tail, ?_, ?_⟩
  · rcases closeIf_cases f d e with ⟨-, rest⟩ | closed
    · rw [rest]
      omega
    · rw [closed, Frames.close, List.length_nil]
      omega
  · rw [through_receive, through_closeIf, first.through, here, firingsUpTo_succ]
  · rw [Frames.receive, List.length_append, List.length_singleton]
    rcases closeIf_cases f d e with ⟨same, rest⟩ | closed
    · right
      have slow := first.slow
      rw [first.head.count, ← same] at slow
      rw [rest]
      push_cast
      linarith
    · exact .inl (by rw [closed]; rfl)

/-- The first firing of the next block. -/
theorem AtSecond.next (second : AtSecond payloads n d f)
    (fast : 39 ≤ advance (encoded payloads n) (encoded payloads (n + 1)))
    (head : Head (encoded payloads) (n + 1) e)
    (count : (f.closeIf d e).closed.length = e.sent.length) :
    AtFirst payloads (n + 1) e
      ((f.closeIf d e).receive ⟨e.currentAzimuth, (firstOf payloads (n + 1)).returns⟩) := by
  apply atFirst second.toRegular second.through head count
  intro same
  have low := head.low
  have azimuth := head.count
  have fast : (39 : ℚ) ≤ advance (encoded payloads n) (encoded payloads (n + 1)) := by
    exact_mod_cast fast
  rw [firstFiring_succ, same] at azimuth
  rcases second.slow with one | slow
  · rw [one]
    push_cast
    linarith
  · linarith

end Steps

/-! ## Runs -/

section Runs
variable (maths : Maths) (g : Settings) (memory : Nat → ℚ) {payloads : List Bytes} {n : Nat}

theorem framesOf_append (m : Device) (before later : List Block) (d : Decoder) (f : Frames Firing) :
    framesOf maths m g (before ++ later) d f =
      framesOf maths m g later (before.foldl (fun d b => takeBlock maths m g b d) d)
        (framesOf maths m g before d f) := by
  induction before generalizing d f with
  | nil => rfl
  | cons b rest ih => exact ih (takeBlock maths m g b d) (receiveBlock maths m g b d f)

variable (payloads) in
/-- The state and the frames after the first blocks. -/
theorem after_blocks (n : Nat) :
    ((List.range n).map (blockAt payloads)).foldl (fun d b => takeBlock maths VLP16 g b d)
        (fresh memory) = stateAfter maths g memory payloads n ∧
      framesOf maths VLP16 g ((List.range n).map (blockAt payloads)) (fresh memory) {} =
        framesAfter maths g memory payloads n := by
  induction n with
  | zero => exact ⟨rfl, rfl⟩
  | succ n ih =>
    rw [List.range_succ, List.map_append, List.foldl_append, framesOf_append, ih.1, ih.2]
    exact ⟨rfl, rfl⟩

variable (payloads) in
theorem framesOf_after :
    framesOf maths VLP16 g (payloads.flatMap (blocksOf VLP16)) (fresh memory) {} =
      framesAfter maths g memory payloads (12 * payloads.length) := by
  have blocks : payloads.flatMap (blocksOf VLP16) = _ := flatMap_blocks (blockOf VLP16) payloads
  rw [blocks]
  exact (after_blocks maths g memory payloads _).2

variable (payloads) in
/-- What every decoder keeps holds after the first blocks. -/
theorem kept_after {Inv : Decoder → Frames Firing → Prop} (kept : Kept maths VLP16 g Inv)
    (start : Inv (fresh memory) {}) (inside : n ≤ 12 * payloads.length) :
    Inv (stateAfter maths g memory payloads n) (framesAfter maths g memory payloads n) := by
  induction n with
  | zero => exact start
  | succ n ih =>
    refine kept.block ?_ (ih (by omega))
    apply blocks_whole fits_VLP16 payloads
    have blocks : payloads.flatMap (blocksOf VLP16) = _ := flatMap_blocks (blockOf VLP16) payloads
    rw [blocks]
    exact List.mem_map_of_mem (List.mem_range.mpr inside)

/-- 1849 firings are less than the maximum number of points. -/
theorem belowLimit_after (inside : n ≤ 12 * payloads.length)
    (length : (framesAfter maths g memory payloads n).current.length ≤ 1849) :
    BelowLimit (stateAfter maths g memory payloads n) := by
  have few := kept_after maths g memory payloads (kept_few VLP16 g maths)
    ⟨Nat.le_refl _, Nat.le_refl _, fun _ => rfl, fun _ => rfl⟩ inside
  have spc := few.spc
  have cpc := few.cpc
  rw [BelowLimit]
  simp only [VLP16] at spc cpc ⊢
  omega

/-- As many scans as closed frames, behind every block and at every head. -/
theorem counts_after (inside : n ≤ 12 * payloads.length) :
    (framesAfter maths g memory payloads n).closed.length =
        (stateAfter maths g memory payloads n).sent.length ∧
      ((framesAfter maths g memory payloads n).closeIf (stateAfter maths g memory payloads n)
        (headAt maths g memory payloads n)).closed.length =
          (headAt maths g memory payloads n).sent.length := by
  have count := kept_after maths g memory payloads (kept_count maths VLP16 g) rfl inside
  exact ⟨count.symm, ((kept_count maths VLP16 g).passes (startBlock_passes _ _) count).symm⟩

variable (payloads) in
theorem framesAfter_succ (n : Nat) :
    framesAfter maths g memory payloads (n + 1) =
      ((framesAt maths g memory payloads n).closeIf (headAt maths g memory payloads n)
        (stateAfter maths g memory payloads (n + 1))).receive
          { azimuth := (stateAfter maths g memory payloads (n + 1)).currentAzimuth
            returns := (secondOf payloads n).returns } := rfl

variable {maths g memory}

theorem regular_empty : Regular (fresh memory) {} :=
  ⟨rfl, .empty, fun _ there => absurd there List.not_mem_nil, Nat.zero_le _⟩

/-- From the first firing of a block to the second. -/
theorem AtFirst.block (turning : Turning (encoded payloads) (12 * payloads.length))
    (inside : n < 12 * payloads.length)
    (below : BelowLimit (stateAfter maths g memory payloads n))
    (first : AtFirst payloads n (headAt maths g memory payloads n)
      (framesAt maths g memory payloads n)) :
    AtSecond payloads n (stateAfter maths g memory payloads (n + 1))
        (framesAfter maths g memory payloads (n + 1)) ∧
      BelowLimit (stateAfter maths g memory payloads (n + 1)) := by
  have count := (counts_after maths g memory (Nat.succ_le_of_lt inside)).1
  have length := first.length
  have below' : BelowLimit (stateAfter maths g memory payloads (n + 1)) := by
    apply belowLimit_after maths g memory inside
    rw [framesAfter_succ, Frames.receive, List.length_append, List.length_singleton]
    rcases closeIf_cases (framesAt maths g memory payloads n) (headAt maths g memory payloads n)
      (stateAfter maths g memory payloads (n + 1)) with ⟨-, same⟩ | closed
    · rw [same]
      omega
    · rw [closed, Frames.close, List.length_nil]
      omega
  rw [framesAfter_succ] at count ⊢
  exact ⟨first.second (first.head.block maths g memory rfl turning inside below below') count, below'⟩

theorem atFirst_of_turning (turning : Turning (encoded payloads) (12 * payloads.length))
    (fast : Fast payloads (12 * payloads.length)) (inside : n < 12 * payloads.length) :
    AtFirst payloads n (headAt maths g memory payloads n) (framesAt maths g memory payloads n) ∧
      BelowLimit (stateAfter maths g memory payloads n) := by
  induction n with
  | zero =>
    have below : BelowLimit (stateAfter maths g memory payloads 0) :=
      belowLimit_after maths g memory (Nat.zero_le _) (Nat.zero_le _)
    have head := run_heads maths g memory rfl turning inside fun k low => Nat.le_zero.mp low ▸ below
    have low : 0 ≤ (headAt maths g memory payloads 0).currentAzimuth := head.low
    refine ⟨atFirst regular_empty rfl head (counts_after maths g memory (Nat.zero_le _)).2 fun _ => ?_, below⟩
    change (39 : ℚ) * (((0 : Nat) : ℚ) + 1) ≤ _
    rw [Nat.cast_zero]
    linarith
  | succ n ih =>
    obtain ⟨first, below⟩ := ih (by omega)
    obtain ⟨second, below'⟩ := first.block turning (by omega) below
    have head := second.tail.block maths g memory rfl turning inside
    exact ⟨second.next (fast n inside) head (counts_after maths g memory (by omega)).2, below'⟩

/-- Behind every block all firings so far are in the frames. -/
theorem regular_of_turning (turning : Turning (encoded payloads) (12 * payloads.length))
    (fast : Fast payloads (12 * payloads.length)) (inside : n ≤ 12 * payloads.length) :
    Regular (stateAfter maths g memory payloads n) (framesAfter maths g memory payloads n) ∧
      (framesAfter maths g memory payloads n).through = firingsUpTo payloads n := by
  cases n with
  | zero => exact ⟨regular_empty, rfl⟩
  | succ n =>
    obtain ⟨first, below⟩ := atFirst_of_turning turning fast inside
    obtain ⟨second, -⟩ := first.block turning inside below
    exact ⟨second.toRegular, second.through⟩

end Runs

/-- If the sensor turns by 0.39 to 180 degrees from block to block, every firing of a VLP-16 is
sent, or waits for the next scan: the azimuths in the scans, with 360 degrees added for each scan
before, are the unwrapped azimuths of all firings in order. -/
theorem scans_count_through (maths : Maths) (memory : Nat → ℚ) {c : Configuration}
    {verticalAngle : Nat → ℚ} {g : Settings} (accepted : setUp VLP16 c true verticalAngle = .ok g)
    {payloads : List Bytes} (length : ∀ payload ∈ payloads, payload.length = 1206)
    (turning : Turning (encoded payloads) (12 * payloads.length))
    (fast : Fast payloads (12 * payloads.length)) :
    ∃ d f, run maths VLP16 g (fresh memory) payloads = some d ∧
      Regular d f ∧ f.through = firingsUpTo payloads (12 * payloads.length) ∧
      (g.withSPC = true →
        d.sent.map (fun scan => scan.shared.map SharedPointCloud.view) =
          f.closed.map fun firings => some ((firings.flatMap (pointsOf maths g)).length,
            firings.flatMap (pointsOf maths g))) ∧
      ∀ kind : Kind, kind.enabled g →
        d.sent.map (fun scan => contents (kind.clouds scan)) =
          f.closed.map fun firings => cloudsOf VLP16 (firings.map (written g kind)) := by
  have ran : run maths VLP16 g (fresh memory) payloads =
      some (stateAfter maths g memory payloads (12 * payloads.length)) := run_stateAfter length
  obtain ⟨regular, through⟩ :
      Regular (stateAfter maths g memory payloads (12 * payloads.length))
        (framesAfter maths g memory payloads (12 * payloads.length)) ∧ _ :=
    regular_of_turning turning fast (Nat.le_refl _)
  refine ⟨_, _, ran, regular, through, ?_, ?_⟩
  · intro withSPC
    have valid : g.isValid = true := by
      obtain ⟨-, -, -, ⟨withCPC, rfl⟩ | rfl⟩ := setUp_cases accepted
      · rfl
      · cases withSPC
    have start : HoldsWhole maths VLP16 g 1875 (fresh memory) {} :=
      ⟨⟨Nat.le_refl _, Nat.le_refl _, fun _ => rfl, fun _ => rfl⟩,
        fun _ _ => ⟨⟨rfl, rfl, rfl⟩, rfl⟩⟩
    have holds := kept_after maths g memory payloads
      (kept_whole VLP16 g maths withSPC valid (Nat.le_refl _) (by decide)) start (Nat.le_refl _)
    exact (holds.whole (fun firings there => (regular.short firings there).trans (by decide))
      (regular.current.trans (by decide))).2
  · intro kind on
    have order := setUp_order accepted
    have ordered : g.Ordered VLP16 :=
      ⟨by rw [order, length_indexSensorIDs], fun sensorID there =>
        indexSensorIDs_inside (order ▸ there)⟩
    obtain ⟨d', ran', holds⟩ := run_written maths on fits_VLP16 ordered memory length
    obtain rfl := Option.some.inj (ran.symm.trans ran')
    rw [holds.sent, framesOf_after]

/-- Packets whose blocks are 30 degrees apart. -/
theorem scans_count_through_two_packets :
    let payloads := List.replicate 2 steadyPacket
    let g := withSharedMemory VLP16 true (fun i => i) true 1 2 3 0 0
    ∃ d f, run .atZero VLP16 g (fresh fun _ => 0) payloads = some d ∧
      Regular d f ∧ f.through = firingsUpTo payloads (12 * payloads.length) ∧
      d.sent.map (fun scan => scan.shared.map SharedPointCloud.view) =
        (f.closed.map fun firings => some ((firings.flatMap (pointsOf .atZero g)).length,
          firings.flatMap (pointsOf .atZero g))) ∧
      ∀ kind : Kind, d.sent.map (fun scan => contents (kind.clouds scan)) =
        f.closed.map fun firings => cloudsOf VLP16 (firings.map (written g kind)) := by
  have accepted : setUp VLP16 ⟨2, 1, 2, 3, 0, 0⟩ true (fun i => i) =
      .ok (withSharedMemory VLP16 true (fun i => i) true 1 2 3 0 0) := rfl
  have turning : Turning (encoded (List.replicate 2 steadyPacket))
      (12 * (List.replicate 2 steadyPacket).length) := by
    rw [List.length_replicate]
    constructor
    · intro n inside
      rw [encoded_steadyPacket inside]
      omega
    · intro n inside inner
      rw [encoded_steadyPacket inside, encoded_steadyPacket (by omega), advance]
      omega
    · intro n inside last
      rw [encoded_steadyPacket inside, encoded_steadyPacket (by omega),
        encoded_steadyPacket (by omega), advance, advance]
      omega
  have fast : Fast (List.replicate 2 steadyPacket)
      (12 * (List.replicate 2 steadyPacket).length) := by
    rw [List.length_replicate]
    intro n inside
    rw [encoded_steadyPacket (by omega), encoded_steadyPacket inside, advance]
    omega
  obtain ⟨d, f, ran, regular, through, shared, clouds⟩ :=
    scans_count_through .atZero (fun _ => 0) accepted length_steadyPackets turning fast
  refine ⟨d, f, ran, regular, through, shared rfl, fun kind => clouds kind ?_⟩
  cases kind <;> exact ⟨rfl, .inr rfl⟩

end OpendlvCore.Velodyne
