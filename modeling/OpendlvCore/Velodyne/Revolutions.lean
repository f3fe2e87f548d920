import OpendlvCore.Velodyne.Lockstep
import Mathlib.Data.List.GetD
import Mathlib.Tactic.Linarith
import Mathlib.Tactic.NormNum
import Mathlib.Tactic.Push

/-!
# One scan per revolution

The azimuths of the firings of a VLP-16 are unwrapped: they grow over the whole run and
do not start again at 360 degrees. The azimuth that the decoder keeps is behind the unwrapped one
by 360 degrees for each scan sent.
-/
namespace OpendlvCore.Velodyne
open CBytes

/-! ## Unwrapped azimuths -/

/-- The encoded azimuth of a block, in hundredths of a degree. -/
def hundredths (payload : Bytes) (blockID : Nat) : Nat :=
  ntohs ((byteAt payload (100 * blockID + 2)).toNat * 256 +
    (byteAt payload (100 * blockID + 3)).toNat)

/-- The azimuths of the blocks of a run, counted through. -/
def encoded (payloads : List Bytes) (n : Nat) : Nat := hundredths (payloads.getD (n / 12) []) (n % 12)

/-- The advance from one azimuth to the next, modulo 360 degrees. -/
def advance (a a' : Nat) : Nat := (a' + 36000 - a) % 36000

section Azimuths
variable (azimuth : Nat → Nat)

def unwrapped : Nat → Nat
  | 0 => azimuth 0
  | n + 1 => unwrapped n + advance (azimuth n) (azimuth (n + 1))

/-- Twice the way from the first to the second firing of a block. The last block of a packet uses
the advance to it instead of the one behind it. -/
def stepOf (n : Nat) : Nat :=
  if n % 12 = 11 then advance (azimuth (n - 1)) (azimuth n)
  else advance (azimuth n) (azimuth (n + 1))

/-- The unwrapped azimuths of the two firings of a block, in degrees. -/
def firstFiring (n : Nat) : ℚ := unwrapped azimuth n / 100

def secondFiring (n : Nat) : ℚ := firstFiring azimuth n + (stepOf azimuth n : ℚ) / 200

/-- The sensor turns by less than 180 degrees from block to block. -/
structure Turning (blocks : Nat) : Prop where
  bounded : ∀ n < blocks, azimuth n ≤ 35999
  inside : ∀ n, n + 1 < blocks → n % 12 ≠ 11 →
    0 < advance (azimuth n) (azimuth (n + 1)) ∧ advance (azimuth n) (azimuth (n + 1)) < 18000
  across : ∀ n, n + 1 < blocks → n % 12 = 11 →
    advance (azimuth (n - 1)) (azimuth n) ≤ 2 * advance (azimuth n) (azimuth (n + 1)) ∧
      advance (azimuth n) (azimuth (n + 1)) < 18000

/-- Behind the head of block `n`. -/
structure Head (n : Nat) (d : Decoder) : Prop where
  count : d.currentAzimuth = firstFiring azimuth n - 360 * d.sent.length
  low : 0 ≤ d.currentAzimuth
  high : d.currentAzimuth ≤ 360
  previous : d.previousAzimuth = d.currentAzimuth
  /-- Reaching 360 degrees exactly, the decoder may show 360 instead of 0. -/
  shown : d.currentAzimuth = azimuth n / 100 ∨ d.currentAzimuth = 360 ∧ azimuth n = 0
  delta : n % 12 ≠ 0 → d.deltaAzimuth = (advance (azimuth (n - 1)) (azimuth n) : ℚ) / 200

/-- Behind the second firing of block `n`. -/
structure Tail (n : Nat) (d : Decoder) : Prop where
  count : d.currentAzimuth = secondFiring azimuth n - 360 * d.sent.length
  low : 0 ≤ d.currentAzimuth
  high : d.currentAzimuth ≤ 360
  previous : d.previousAzimuth = d.currentAzimuth
  delta : d.deltaAzimuth = (stepOf azimuth n : ℚ) / 200
  /-- Where the decoder was at the head, and whether it has sent a scan since. -/
  since : ∃ head : ℚ, (head = azimuth n / 100 ∨ head = 360 ∧ azimuth n = 0) ∧
    (d.currentAzimuth = head + (stepOf azimuth n : ℚ) / 200 ∨
      d.currentAzimuth = head + (stepOf azimuth n : ℚ) / 200 - 360 ∧ 0 < d.currentAzimuth) ∧
    (n % 12 ≠ 11 → d.nextAzimuth = head + (stepOf azimuth n : ℚ) / 100)

variable {azimuth} {n : Nat} {d e : Decoder}

theorem Head.same (head : Head azimuth n d) (sent : e.sent = d.sent) (same : SameAzimuths d e) :
    Head azimuth n e where
  count := by rw [sent, same.currentAzimuth, head.count]
  low := by rw [same.currentAzimuth]; exact head.low
  high := by rw [same.currentAzimuth]; exact head.high
  previous := by rw [same.previousAzimuth, same.currentAzimuth, head.previous]
  shown := by rw [same.currentAzimuth]; exact head.shown
  delta := by rw [same.deltaAzimuth]; exact head.delta

theorem Tail.same (tail : Tail azimuth n d) (sent : e.sent = d.sent) (same : SameAzimuths d e) :
    Tail azimuth n e where
  count := by rw [sent, same.currentAzimuth, tail.count]
  low := by rw [same.currentAzimuth]; exact tail.low
  high := by rw [same.currentAzimuth]; exact tail.high
  previous := by rw [same.previousAzimuth, same.currentAzimuth, tail.previous]
  delta := by rw [same.deltaAzimuth, tail.delta]
  since := by rw [same.currentAzimuth, same.nextAzimuth]; exact tail.since

end Azimuths

theorem advance_eq {a a' : Nat} (low : a ≤ 35999) (low' : a' ≤ 35999) :
    a ≤ a' ∧ a + advance a a' = a' ∨ a' < a ∧ a + advance a a' = a' + 36000 := by
  unfold advance
  omega

section Steps
variable {maths : Maths} {g : Settings} {azimuth : Nat → Nat} {n : Nat} {d : Decoder}

/-- The next block's azimuth as the interpolation sees it. -/
theorem nextAzimuth_eq {head : ℚ} (low : azimuth n ≤ 35999) (low' : azimuth (n + 1) ≤ 35999)
    (shown : head = azimuth n / 100 ∨ head = 360 ∧ azimuth n = 0) :
    (if (azimuth (n + 1) : ℚ) / 100 < head then (azimuth (n + 1) : ℚ) / 100 + 360
      else (azimuth (n + 1) : ℚ) / 100) =
        head + (advance (azimuth n) (azimuth (n + 1)) : ℚ) / 100 := by
  have below : (azimuth (n + 1) : ℚ) ≤ 35999 := by exact_mod_cast low'
  have spec := advance_eq low low'
  rcases shown with rfl | ⟨rfl, zero⟩
  · rcases spec with ⟨order, sum⟩ | ⟨order, sum⟩
    · have order : (azimuth n : ℚ) ≤ azimuth (n + 1) := by exact_mod_cast order
      have sum : (azimuth n : ℚ) + advance (azimuth n) (azimuth (n + 1)) = azimuth (n + 1) := by
        exact_mod_cast sum
      rw [if_neg (by linarith)]
      linarith
    · have order : (azimuth (n + 1) : ℚ) < azimuth n := by exact_mod_cast order
      have sum : (azimuth n : ℚ) + advance (azimuth n) (azimuth (n + 1)) =
          azimuth (n + 1) + 36000 := by exact_mod_cast sum
      rw [if_pos (by linarith)]
      linarith
  · have sum : (advance (azimuth n) (azimuth (n + 1)) : ℚ) = azimuth (n + 1) := by
      have here : advance (azimuth n) (azimuth (n + 1)) = azimuth (n + 1) := by omega
      exact_mod_cast here
    rw [if_pos (by linarith), sum]
    ring

variable (g) in
/-- The second firing; a scan is sent behind 360 degrees. -/
theorem Head.second (head : Head azimuth n d) (next : Option ℚ) (short : stepOf azimuth n < 18000)
    (delta : (halfWay next d).deltaAzimuth = (stepOf azimuth n : ℚ) / 200)
    (current : (halfWay next d).currentAzimuth = d.currentAzimuth + (stepOf azimuth n : ℚ) / 200)
    (ahead : n % 12 ≠ 11 →
      (halfWay next d).nextAzimuth = d.currentAzimuth + (stepOf azimuth n : ℚ) / 100) :
    Tail azimuth n (interpolate VLP16 g next d) := by
  have short : (stepOf azimuth n : ℚ) < 18000 := by exact_mod_cast short
  have forward : (0 : ℚ) ≤ stepOf azimuth n := Nat.cast_nonneg _
  have sent := (halfWay_same next d).sent
  have count := head.count
  have low := head.low
  have high := head.high
  unfold Velodyne.interpolate
  simp only
  by_cases wraps : (halfWay next d).currentAzimuth > 360
  · rw [if_pos wraps]
    have behind : (halfWay next d).currentAzimuth - 360 =
        d.currentAzimuth + (stepOf azimuth n : ℚ) / 200 - 360 := by rw [current]
    constructor
    · simp only [sendPointCloud, sent, List.length_append, List.length_singleton, behind,
        secondFiring]
      push_cast
      linarith
    · exact sub_nonneg.mpr (le_of_lt wraps)
    · simp only [sendPointCloud, behind]
      linarith
    · rfl
    · exact delta
    · exact ⟨d.currentAzimuth, head.shown, .inr ⟨behind, sub_pos.mpr wraps⟩, ahead⟩
  · rw [if_neg wraps]
    constructor
    · simp only [sent, current, secondFiring]
      linarith
    · simp only [current]
      linarith
    · exact not_lt.mp wraps
    · rfl
    · exact delta
    · exact ⟨d.currentAzimuth, head.shown, .inl current, ahead⟩

variable (g) in
/-- The second firing of a block with a block behind it in the packet. -/
theorem Head.tail (head : Head azimuth n d) (inner : n % 12 ≠ 11) (low : azimuth n ≤ 35999)
    (low' : azimuth (n + 1) ≤ 35999) (short : advance (azimuth n) (azimuth (n + 1)) < 18000) :
    Tail azimuth n (interpolate VLP16 g (some ((azimuth (n + 1) : ℚ) / 100)) d) := by
  have step : stepOf azimuth n = advance (azimuth n) (azimuth (n + 1)) := if_neg inner
  have next := nextAzimuth_eq low low' head.shown
  have delta : (halfWay (some ((azimuth (n + 1) : ℚ) / 100)) d).deltaAzimuth =
      (stepOf azimuth n : ℚ) / 200 := by
    simp only [halfWay, next, step]
    ring
  apply head.second g _ (by omega) delta
  · change d.currentAzimuth + (halfWay (some ((azimuth (n + 1) : ℚ) / 100)) d).deltaAzimuth = _
    rw [delta]
  · intro _
    simp only [halfWay, next, step]

variable (g) in
/-- The second firing of the last block of a packet. -/
theorem Head.last (head : Head azimuth n d) (last : n % 12 = 11)
    (short : advance (azimuth (n - 1)) (azimuth n) < 18000) :
    Tail azimuth n (interpolate VLP16 g none d) := by
  have step : stepOf azimuth n = advance (azimuth (n - 1)) (azimuth n) := if_pos last
  have delta := head.delta (by omega)
  rw [← step] at delta
  apply head.second g none (by omega) delta
  · change d.currentAzimuth + d.deltaAzimuth = _
    rw [delta]
  · exact fun inner => absurd last inner

/-- The head of a block at the azimuth `head`. -/
theorem head_startBlock {next : Option ℚ} {head : ℚ}
    (here : headOf next d.nextAzimuth = head) (low : 0 ≤ head) (high : head ≤ 360)
    (shown : head = azimuth n / 100 ∨ head = 360 ∧ azimuth n = 0)
    (delta : n % 12 ≠ 0 → d.deltaAzimuth = (advance (azimuth (n - 1)) (azimuth n) : ℚ) / 200)
    (wraps : head < d.previousAzimuth ∧ head = firstFiring azimuth n - 360 * (d.sent.length + 1) ∨
      d.previousAzimuth ≤ head ∧ head = firstFiring azimuth n - 360 * d.sent.length) :
    Head azimuth n (startBlock VLP16 g next d) := by
  rcases wraps with ⟨order, count⟩ | ⟨order, count⟩
  · rw [startBlock_of_lt next d (by rwa [here]), here]
    refine ⟨?_, low, high, rfl, shown, delta⟩
    simp only [sendPointCloud, List.length_append, List.length_singleton]
    push_cast
    exact count
  · rw [startBlock_of_le next d (by rw [here]; exact not_lt.mpr order), here]
    exact ⟨count, low, high, rfl, shown, delta⟩

theorem firstFiring_succ (azimuth : Nat → Nat) (n : Nat) :
    firstFiring azimuth (n + 1) =
      firstFiring azimuth n + (advance (azimuth n) (azimuth (n + 1)) : ℚ) / 100 := by
  rw [firstFiring, firstFiring, unwrapped]
  push_cast
  ring

variable (g) in
/-- The next block of the packet starts where the interpolation has looked ahead to. -/
theorem Tail.head (tail : Tail azimuth n d) (inner : n % 12 ≠ 11) (low : azimuth n ≤ 35999)
    (low' : azimuth (n + 1) ≤ 35999) (short : advance (azimuth n) (azimuth (n + 1)) < 18000) :
    Head azimuth (n + 1) (startBlock VLP16 g none d) := by
  have step : stepOf azimuth n = advance (azimuth n) (azimuth (n + 1)) := if_neg inner
  obtain ⟨head, shown, since, ahead⟩ := tail.since
  have ahead := ahead inner
  have count := tail.count
  have current_low := tail.low
  have current_high := tail.high
  have previous := tail.previous
  have first := firstFiring_succ azimuth n
  have forward : (0 : ℚ) ≤ stepOf azimuth n := Nat.cast_nonneg _
  have small : (stepOf azimuth n : ℚ) < 18000 := by rw [step]; exact_mod_cast short
  rw [secondFiring] at count
  have delta : (n + 1) % 12 ≠ 0 →
      d.deltaAzimuth = (advance (azimuth (n + 1 - 1)) (azimuth (n + 1)) : ℚ) / 200 := by
    intro _
    rw [tail.delta, step, Nat.add_sub_cancel]
  have next := nextAzimuth_eq low low' shown
  rw [← step, ← ahead] at next
  rw [← step] at first
  have below : (azimuth (n + 1) : ℚ) ≤ 35999 := by exact_mod_cast low'
  have above : (0 : ℚ) ≤ azimuth (n + 1) := Nat.cast_nonneg _
  by_cases behind : d.nextAzimuth > 360
  · have shown' : d.nextAzimuth - 360 = (azimuth (n + 1) : ℚ) / 100 := by
      split at next <;> linarith
    apply head_startBlock (show headOf none d.nextAzimuth = d.nextAzimuth - 360 from if_pos behind)
      (by linarith) (by linarith) (.inl shown') delta
    rcases since with since | ⟨since, positive⟩
    · left
      constructor <;> linarith
    · right
      constructor <;> linarith
  · have shown' : d.nextAzimuth = (azimuth (n + 1) : ℚ) / 100 ∨
        d.nextAzimuth = 360 ∧ azimuth (n + 1) = 0 := by
      split at next
      · right
        have zero : (azimuth (n + 1) : ℚ) = 0 := by linarith
        exact ⟨by linarith, by exact_mod_cast zero⟩
      · exact .inl next.symm
    have since : d.currentAzimuth = head + (stepOf azimuth n : ℚ) / 200 := by
      rcases since with since | ⟨since, positive⟩ <;> linarith
    apply head_startBlock (show headOf none d.nextAzimuth = d.nextAzimuth from if_neg behind)
      (by linarith) (by linarith) shown' delta
    right
    constructor <;> linarith

variable (g) in
/-- The first block of a packet has an azimuth of its own. -/
theorem Tail.packet (tail : Tail azimuth n d) (last : n % 12 = 11) (low : azimuth n ≤ 35999)
    (low' : azimuth (n + 1) ≤ 35999) (short : advance (azimuth n) (azimuth (n + 1)) < 18000)
    (enough : advance (azimuth (n - 1)) (azimuth n) ≤ 2 * advance (azimuth n) (azimuth (n + 1))) :
    Head azimuth (n + 1) (startBlock VLP16 g (some ((azimuth (n + 1) : ℚ) / 100)) d) := by
  have step : stepOf azimuth n = advance (azimuth (n - 1)) (azimuth n) := if_pos last
  obtain ⟨head, shown, since, -⟩ := tail.since
  have count := tail.count
  have current_low := tail.low
  have current_high := tail.high
  have previous := tail.previous
  have first := firstFiring_succ azimuth n
  have next := nextAzimuth_eq low low' shown
  have forward : (0 : ℚ) ≤ stepOf azimuth n := Nat.cast_nonneg _
  have enough : (stepOf azimuth n : ℚ) ≤ 2 * advance (azimuth n) (azimuth (n + 1)) := by
    rw [step]
    exact_mod_cast enough
  have small : (advance (azimuth n) (azimuth (n + 1)) : ℚ) < 18000 := by exact_mod_cast short
  have below : (azimuth (n + 1) : ℚ) ≤ 35999 := by exact_mod_cast low'
  have above : (0 : ℚ) ≤ azimuth (n + 1) := Nat.cast_nonneg _
  rw [secondFiring] at count
  apply head_startBlock (show headOf (some ((azimuth (n + 1) : ℚ) / 100)) d.nextAzimuth =
    (azimuth (n + 1) : ℚ) / 100 from rfl) (by linarith) (by linarith) (.inl rfl)
    (fun inner => absurd (show (n + 1) % 12 = 0 by omega) inner)
  -- Behind 360 degrees already at the second firing, or only now, or not at all.
  rcases since with since | ⟨since, positive⟩
  · split at next
    · left
      constructor <;> linarith
    · right
      constructor <;> linarith
  · right
    split at next
    · constructor <;> linarith
    · constructor <;> linarith

end Steps

/-! ## Runs -/

section Definitions
variable (maths : Maths) (g : Settings) (memory : Nat → ℚ) (payloads : List Bytes)

/-- The blocks of a run, counted through. -/
def blockAt (n : Nat) : Block := blockOf VLP16 (payloads.getD (n / 12) []) (n % 12)

/-- The decoder after the first `n` blocks of a run. -/
def stateAfter : Nat → Decoder
  | 0 => fresh memory
  | n + 1 => takeBlock maths VLP16 g (blockAt payloads n) (stateAfter n)

/-- The scans sent up to the first firing of a block. -/
def sentAtFirst (n : Nat) : Nat :=
  (startBlock VLP16 g (blockAt payloads n).azimuth (stateAfter maths g memory payloads n)).sent.length

/-- The scans sent up to the second firing of a block. -/
def sentAtSecond (n : Nat) : Nat := (stateAfter maths g memory payloads (n + 1)).sent.length

/-- No counter has reached the maximum. -/
def BelowLimit (d : Decoder) : Prop :=
  d.spc.pointIndex < VLP16.MAX_POINT_SIZE ∧ d.cpc.pointIndex < VLP16.MAX_POINT_SIZE

/-- A scan is sent for every multiple of 360 degrees behind a firing, at the latest at the first
firing beyond it, and for no other. -/
def Passed (firing : ℚ) (sent : Nat) : Prop :=
  ∀ k : Nat, 0 < k → (360 * (k : ℚ) < firing → k ≤ sent) ∧ (k ≤ sent → 360 * (k : ℚ) ≤ firing)

end Definitions

section Runs
variable {maths : Maths} {g : Settings} {memory : Nat → ℚ} {payloads : List Bytes} {n : Nat}

/-- The blocks of the first packets. -/
theorem stateAfter_packets (count : Nat) (inside : count ≤ payloads.length) :
    ((payloads.take count).flatMap (blocksOf VLP16)).foldl
        (fun d b => takeBlock maths VLP16 g b d) (fresh memory) =
      stateAfter maths g memory payloads (12 * count) := by
  induction count with
  | zero => rfl
  | succ count ih =>
    have here : count < payloads.length := inside
    have packet : ∀ blocks ≤ 12, ((List.range blocks).map (blockOf VLP16 payloads[count])).foldl
          (fun d b => takeBlock maths VLP16 g b d) (stateAfter maths g memory payloads (12 * count)) =
        stateAfter maths g memory payloads (12 * count + blocks) := by
      intro blocks
      induction blocks with
      | zero => exact fun _ => rfl
      | succ blocks more =>
        intro low
        have block : blockAt payloads (12 * count + blocks) = blockOf VLP16 payloads[count] blocks := by
          rw [blockAt, show (12 * count + blocks) / 12 = count by omega,
            show (12 * count + blocks) % 12 = blocks by omega, List.getD_eq_getElem _ _ here]
        rw [List.range_succ, List.map_append, List.foldl_append, more (by omega), ← Nat.add_assoc,
          stateAfter, block]
        rfl
    rw [List.take_succ_eq_append_getElem here, List.flatMap_append, List.foldl_append,
      ih (by omega), List.flatMap_singleton]
    exact packet 12 (Nat.le_refl 12)

theorem run_stateAfter (length : ∀ payload ∈ payloads, payload.length = 1206) :
    run maths VLP16 g (fresh memory) payloads =
      some (stateAfter maths g memory payloads (12 * payloads.length)) := by
  rw [run_eq payloads length, ← stateAfter_packets payloads.length (Nat.le_refl _), List.take_length]

theorem blockAt_first (start : n % 12 = 0) :
    (blockAt payloads n).azimuth = some ((encoded payloads n : ℚ) / 100) := by
  rw [blockAt, start]
  rw [encoded, start]
  rfl

theorem blockAt_later (later : n % 12 ≠ 0) : (blockAt payloads n).azimuth = none := if_neg later

variable (payloads) in
/-- The interpolation reads the azimuth of the block behind. -/
theorem blockAt_second (n : Nat) : ∃ returns, (blockAt payloads n).second = some
    (if n % 12 ≠ 11 then some ((encoded payloads (n + 1) : ℚ) / 100) else none, returns) := by
  refine ⟨blockReturns (payloads.getD (n / 12) []) (n % 12) 16 16, ?_⟩
  rw [blockAt]
  change some (if n % 12 < 11 then some (headAzimuth (payloads.getD (n / 12) []) (n % 12 + 1))
    else none, _) = _
  by_cases inner : n % 12 ≠ 11
  · have next : (n + 1) / 12 = n / 12 := by omega
    have index : (n + 1) % 12 = n % 12 + 1 := by omega
    rw [if_pos inner, if_pos (by omega), encoded, next, index]
    rfl
  · rw [if_neg inner, if_neg (by omega)]

theorem BelowLimit.room {d e : Decoder} (below : BelowLimit d) (passes : Passes VLP16 g d e) :
    room VLP16 e := by
  rcases passes with same | ⟨f, before, after⟩
  · left
    rw [same.spc]
    exact below.1
  · left
    rw [after.spc]
    simp only [sendPointCloud]
    split
    · exact Nat.zero_lt_succ _
    · rw [before.spc]
      exact below.1

variable (maths) in
/-- Below the maximum number of points both firings of a block are decoded. -/
theorem takeBlock_firings {b : Block} {next : Option ℚ} {returns : List Return} {d : Decoder}
    (second : b.second = some (next, returns)) (space : room VLP16 (startBlock VLP16 g b.azimuth d))
    (below : BelowLimit (takeBlock maths VLP16 g b d)) :
    ∃ h, h.sent = (startBlock VLP16 g b.azimuth d).sent ∧
      SameAzimuths (startBlock VLP16 g b.azimuth d) h ∧
      (takeBlock maths VLP16 g b d).sent = (interpolate VLP16 g next h).sent ∧
      SameAzimuths (interpolate VLP16 g next h) (takeBlock maths VLP16 g b d) := by
  obtain ⟨sent, previous, current, ahead, delta⟩ :=
    storeFiring_frame maths VLP16 g b.first 0 (startBlock VLP16 g b.azimuth d)
  have taken : takeBlock maths VLP16 g b d =
      takeReturns maths VLP16 g b (startBlock VLP16 g b.azimuth d) := if_pos space
  rw [taken, takeReturns, second] at below ⊢
  simp only at below ⊢
  generalize storeFiring maths VLP16 g 0 b.first (startBlock VLP16 g b.azimuth d) = h at *
  by_cases stop : full VLP16 g h = true
  · rw [if_pos stop, BelowLimit] at below
    simp only [full, Bool.or_eq_true, Bool.and_eq_true, decide_eq_true_eq] at stop
    omega
  · rw [if_neg stop]
    obtain ⟨sent', previous', current', ahead', delta'⟩ :=
      storeFiring_frame maths VLP16 g returns 0 (interpolate VLP16 g next h)
    exact ⟨h, sent, ⟨previous, current, ahead, delta⟩, sent', ⟨previous', current', ahead', delta'⟩⟩

variable (maths g memory) in
theorem Head.block {azimuth : Nat → Nat} (read : encoded payloads = azimuth)
    (turning : Turning azimuth (12 * payloads.length)) (inside : n < 12 * payloads.length)
    (below : BelowLimit (stateAfter maths g memory payloads n))
    (below' : BelowLimit (stateAfter maths g memory payloads (n + 1)))
    (head : Head azimuth n (startBlock VLP16 g (blockAt payloads n).azimuth
      (stateAfter maths g memory payloads n))) :
    Tail azimuth n (stateAfter maths g memory payloads (n + 1)) := by
  obtain ⟨returns, second⟩ := blockAt_second payloads n
  have space := below.room (startBlock_passes (g := g) (blockAt payloads n).azimuth _)
  rw [read] at second
  rw [stateAfter] at below' ⊢
  obtain ⟨h, sent, same, sent', same'⟩ := takeBlock_firings maths second space below'
  apply Tail.same _ sent' same'
  by_cases last : n % 12 = 11
  · have before : (n - 1) % 12 ≠ 11 ∧ n - 1 + 1 = n := by omega
    have short := (turning.inside (n - 1) (by omega) before.1).2
    rw [before.2] at short
    rw [if_neg (not_not.mpr last)]
    exact (head.same sent same).last g last short
  · rw [if_pos last]
    exact (head.same sent same).tail g last (turning.bounded n inside)
      (turning.bounded (n + 1) (by omega)) (turning.inside n (by omega) last).2

variable (maths g memory) in
theorem Tail.block {azimuth : Nat → Nat} (read : encoded payloads = azimuth)
    (turning : Turning azimuth (12 * payloads.length)) (inside : n + 1 < 12 * payloads.length)
    (tail : Tail azimuth n (stateAfter maths g memory payloads (n + 1))) :
    Head azimuth (n + 1) (startBlock VLP16 g (blockAt payloads (n + 1)).azimuth
      (stateAfter maths g memory payloads (n + 1))) := by
  have low := turning.bounded n (by omega)
  have low' := turning.bounded (n + 1) inside
  by_cases last : n % 12 = 11
  · have across := turning.across n inside last
    rw [blockAt_first (by omega), read]
    exact tail.packet g last low low' across.2 across.1
  · rw [blockAt_later (by omega)]
    exact tail.head g last low low' (turning.inside n inside last).2

variable (maths g memory) in
theorem run_heads {azimuth : Nat → Nat} (read : encoded payloads = azimuth)
    (turning : Turning azimuth (12 * payloads.length)) (inside : n < 12 * payloads.length)
    (below : ∀ k ≤ n, BelowLimit (stateAfter maths g memory payloads k)) :
    Head azimuth n (startBlock VLP16 g (blockAt payloads n).azimuth
      (stateAfter maths g memory payloads n)) := by
  induction n with
  | zero =>
    have above : (0 : ℚ) ≤ azimuth 0 := Nat.cast_nonneg _
    have low : (azimuth 0 : ℚ) ≤ 35999 := by exact_mod_cast turning.bounded 0 inside
    rw [blockAt_first rfl, read]
    apply head_startBlock (show headOf (some ((azimuth 0 : ℚ) / 100)) _ = (azimuth 0 : ℚ) / 100 from
      rfl) (by linarith) (by linarith) (.inl rfl) (fun later => absurd rfl later)
    right
    constructor
    · change 0 ≤ _
      linarith
    · change (azimuth 0 : ℚ) / 100 = (unwrapped azimuth 0 : ℚ) / 100 - 360 * ((0 : Nat) : ℚ)
      rw [unwrapped, Nat.cast_zero, mul_zero, sub_zero]
  | succ n ih =>
    have head := ih (by omega) fun k low => below k (by omega)
    exact (head.block maths g memory read turning (by omega) (below n (by omega))
      (below (n + 1) (Nat.le_refl _))).block maths g memory read turning inside

/-- An azimuth between 0 and 360 degrees counts the scans. -/
theorem passed_of_azimuth {firing current : ℚ} {sent : Nat} (count : current = firing - 360 * sent)
    (low : 0 ≤ current) (high : current ≤ 360) : Passed firing sent := by
  intro k _
  constructor
  · intro beyond
    by_contra few
    have few : (sent : ℚ) + 1 ≤ k := by exact_mod_cast Nat.lt_of_not_le few
    linarith
  · intro enough
    have enough : (k : ℚ) ≤ sent := by exact_mod_cast enough
    linarith

end Runs

/-- One scan for each revolution: behind either firing of a block, as many scans have been sent as
multiples of 360 degrees have been passed, unless the maximum number of points was reached before. -/
theorem one_scan_per_revolution (maths : Maths) (g : Settings) (memory : Nat → ℚ)
    {payloads : List Bytes} (length : ∀ payload ∈ payloads, payload.length = 1206)
    (turning : Turning (encoded payloads) (12 * payloads.length)) :
    run maths VLP16 g (fresh memory) payloads =
        some (stateAfter maths g memory payloads (12 * payloads.length)) ∧
      ∀ n < 12 * payloads.length,
        ((∀ k ≤ n, BelowLimit (stateAfter maths g memory payloads k)) →
          Passed (firstFiring (encoded payloads) n) (sentAtFirst maths g memory payloads n)) ∧
        ((∀ k ≤ n + 1, BelowLimit (stateAfter maths g memory payloads k)) →
          Passed (secondFiring (encoded payloads) n) (sentAtSecond maths g memory payloads n)) := by
  refine ⟨run_stateAfter length, fun n inside => ⟨fun below => ?_, fun below => ?_⟩⟩
  · have head := run_heads maths g memory rfl turning inside below
    exact passed_of_azimuth head.count head.low head.high
  · have head := run_heads maths g memory rfl turning inside fun k low => below k (by omega)
    have tail := head.block maths g memory rfl turning inside (below n (by omega))
      (below (n + 1) (Nat.le_refl _))
    exact passed_of_azimuth tail.count tail.low tail.high

/-- A packet whose blocks start at 0 degrees and are 30 degrees apart. -/
def steadyPacket : Bytes :=
  (List.range 1206).map fun i =>
    if i % 100 = 2 then UInt8.ofNat (3000 * (i / 100) % 256)
    else if i % 100 = 3 then UInt8.ofNat (3000 * (i / 100) / 256)
    else 0

theorem encoded_steadyPacket {count n : Nat} (inside : n < 12 * count) :
    encoded (List.replicate count steadyPacket) n = 3000 * (n % 12) := by
  have packet : (List.replicate count steadyPacket).getD (n / 12) [] = steadyPacket := by
    rw [List.getD_eq_getElem _ _ (by rw [List.length_replicate]; omega), List.getElem_replicate]
  have byte : ∀ i, i < 1206 → byteAt steadyPacket i =
      if i % 100 = 2 then UInt8.ofNat (3000 * (i / 100) % 256)
      else if i % 100 = 3 then UInt8.ofNat (3000 * (i / 100) / 256) else 0 := by
    intro i low
    rw [byteAt, List.getD_eq_getElem _ _ (by rw [steadyPacket, List.length_map, List.length_range]; exact low)]
    simp only [steadyPacket, List.getElem_map, List.getElem_range]
  have second : (100 * (n % 12) + 2) / 100 = n % 12 := by omega
  have third : (100 * (n % 12) + 3) / 100 = n % 12 := by omega
  rw [encoded, packet, hundredths, byte _ (by omega), byte _ (by omega), if_pos (by omega),
    if_neg (by omega), if_pos (by omega), second, third, ntohs_bytes (by omega)]

theorem one_scan_per_revolution_two_turns :
    let g := compactOnly VLP16 (fun i => i) 0 0 0 1
    let payloads := List.replicate 2 steadyPacket
    run .atZero VLP16 g (fresh fun _ => 0) payloads =
        some (stateAfter .atZero g (fun _ => 0) payloads (12 * payloads.length)) ∧
      ∀ n < 12 * payloads.length,
        ((∀ k ≤ n, BelowLimit (stateAfter .atZero g (fun _ => 0) payloads k)) →
          Passed (firstFiring (encoded payloads) n)
            (sentAtFirst .atZero g (fun _ => 0) payloads n)) ∧
        ((∀ k ≤ n + 1, BelowLimit (stateAfter .atZero g (fun _ => 0) payloads k)) →
          Passed (secondFiring (encoded payloads) n)
            (sentAtSecond .atZero g (fun _ => 0) payloads n)) := by
  apply one_scan_per_revolution
  · intro payload there
    rw [List.eq_of_mem_replicate there, steadyPacket, List.length_map, List.length_range]
  · rw [List.length_replicate]
    constructor
    · intro n inside
      rw [encoded_steadyPacket inside]
      omega
    · intro n inside inner
      rw [encoded_steadyPacket inside, encoded_steadyPacket (by omega), advance]
      omega
    · intro n inside last
      rw [encoded_steadyPacket inside, encoded_steadyPacket (by omega),
        encoded_steadyPacket (by omega), advance, advance]
      omega

end OpendlvCore.Velodyne
