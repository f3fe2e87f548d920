import OpendlvCore.Velodyne.BlockAzimuths

/-!
# Firings with the azimuths of their packets

Where a firing was made is said by its packet: at the azimuth of its block or, for the second firing
of a VLP-16's block, half way to the next one. What the decoder takes it to be follows from what its
state carries into the block, and so does where it divides the firings into scans.
-/
namespace OpendlvCore.Velodyne
open CBytes

/-- A block with what its packet says of its two firings. -/
structure Placed where
  block : Block
  /-- The azimuth encoded at the head. -/
  head : ℚ
  /-- Half way to the next block; behind the last block half the step before it. -/
  middle : ℚ

/-- A firing at the azimuth that its packet gives it, and at the one that the decoder gives it. -/
structure Bearing where
  azimuth : ℚ
  carried : ℚ
  returns : List Return

/-- The firing as the decoder takes it. -/
def Bearing.firing (b : Bearing) : Firing := ⟨b.carried, b.returns⟩

namespace Frames
variable {α β : Type}

def map (h : α → β) (f : Frames α) : Frames β where
  closed := f.closed.map fun received => received.map h
  current := f.current.map h

variable (h : α → β) (f : Frames α)

@[simp] theorem map_receive (firing : α) : (f.receive firing).map h = (f.map h).receive (h firing) := by
  simp [map, receive]

@[simp] theorem map_close : f.close.map h = (f.map h).close := by
  simp [map, close]

end Frames

section Definitions
variable (maths : Maths) (m : Device) (g : Settings)

instance (b : Block) (d : Decoder) : Decidable (LeavesRoom m g b d) := by
  unfold LeavesRoom
  infer_instance

def placedOf (payload : Bytes) (blockID : Nat) : Placed where
  block := blockOf m payload blockID
  head := (hundredths payload blockID : ℚ) / 100
  middle := (hundredths payload blockID : ℚ) / 100 + (stepOf (hundredths payload) blockID : ℚ) / 200

def placedBlocks (payload : Bytes) : List Placed := (List.range 12).map (placedOf m payload)

/-- Half way from the head of a block on, by what a state carries into it. -/
def halfBefore (b : Block) (next : Option ℚ) (d : Decoder) : ℚ :=
  let head := headOf b.azimuth d.nextAzimuth
  match next with
  | some next => head + ((if next < head then next + 360 else next) - head) / 2
  | none => head + d.deltaAzimuth

/-- The firings of a block, with the ends of scans at its head and inside it: where the azimuth
decreases, and where half way is beyond 360 degrees. -/
def receivePlaced (p : Placed) (d : Decoder) (f : Frames Bearing) : Frames Bearing :=
  let head := headOf p.block.azimuth d.nextAzimuth
  let f := (if head < d.previousAzimuth then f.close else f).receive ⟨p.head, head, p.block.first⟩
  match p.block.second with
  | none => f
  | some (next, returns) =>
    let half := halfBefore p.block next d
    -- behind a full frame there is no half way
    if ¬ LeavesRoom m g p.block d then f.receive ⟨p.middle, head, returns⟩
    else if half > 360 then f.close.receive ⟨p.middle, half - 360, returns⟩
    else f.receive ⟨p.middle, half, returns⟩

/-- The frames of a run. -/
def bearingsOf : List Placed → Decoder → Frames Bearing → Frames Bearing
  | [], _, f => f
  | p :: rest, d, f => bearingsOf rest (takeBlock maths m g p.block d) (receivePlaced m g p d f)

end Definitions

section Steps
variable {maths : Maths} {m : Device} {g : Settings} {d e e' : Decoder} {f : Frames Firing}

theorem closeIf_send {d e' : Decoder} (sent : e'.sent = d.sent ++ [scanOf m g e]) :
    f.closeIf d e' = f.close := by
  rw [Frames.closeIf, if_neg (by simp [sent])]

/-- A scan ends at the head of a block where the azimuth decreases. -/
theorem closeIf_startBlock (azimuth : Option ℚ) (d : Decoder) :
    f.closeIf d (startBlock m g azimuth d) =
      if headOf azimuth d.nextAzimuth < d.previousAzimuth then f.close else f := by
  by_cases wraps : headOf azimuth d.nextAzimuth < d.previousAzimuth
  · rw [if_pos wraps]
    apply closeIf_send (m := m) (g := g) (e := { d with currentAzimuth := headOf azimuth d.nextAzimuth })
    rw [startBlock_of_lt azimuth d wraps]
    rfl
  · rw [if_neg wraps]
    apply closeIf_same
    rw [startBlock_of_le azimuth d wraps]

/-- A scan ends inside a block where half way is beyond 360 degrees. -/
theorem closeIf_interpolate (next : Option ℚ) (d : Decoder) :
    f.closeIf d (interpolate m g next d) =
      if (halfWay next d).currentAzimuth > 360 then f.close else f := by
  obtain ⟨-, -, same⟩ := halfWay_same next d
  unfold interpolate
  simp only
  by_cases wraps : (halfWay next d).currentAzimuth > 360
  · rw [if_pos wraps, if_pos wraps]
    apply closeIf_send (m := m) (g := g) (e := { halfWay next d with
      currentAzimuth := (halfWay next d).currentAzimuth - 360 })
    simp only [sendPointCloud_sent, same]
  · rw [if_neg wraps, if_neg wraps]
    exact closeIf_same same

/-- Half way is what the state before the block makes it. -/
theorem halfWay_currentAzimuth {b : Block} (next : Option ℚ) {h : Decoder}
    (current : h.currentAzimuth = headOf b.azimuth d.nextAzimuth)
    (delta : h.deltaAzimuth = d.deltaAzimuth) :
    (halfWay next h).currentAzimuth = halfBefore b next d := by
  cases next with
  | none => simp only [halfWay, halfBefore, current, delta]
  | some next => simp only [halfWay, halfBefore, current]

variable (maths) in
/-- The second firing of a block that leaves room for it, and the end of a scan before it. -/
theorem takeBlock_middle (counts : g.Counts) {b : Block} {next : Option ℚ} {returns : List Return}
    (second : b.second = some (next, returns)) (leaves : LeavesRoom m g b d) (f : Frames Firing) :
    (takeBlock maths m g b d).currentAzimuth =
        (if halfBefore b next d > 360 then halfBefore b next d - 360 else halfBefore b next d) ∧
      f.closeIf (startBlock m g b.azimuth d) (takeBlock maths m g b d) =
        if halfBefore b next d > 360 then f.close else f := by
  have reads := (readsOn_iff maths counts b d).mpr leaves
  have head := storeFiring_same maths m g b.first (startBlock m g b.azimuth d)
  obtain ⟨before, -⟩ := storeFiring_frame maths m g b.first 0 (startBlock m g b.azimuth d)
  rw [takeBlock_of_readsOn second reads]
  generalize storeFiring maths m g 0 b.first (startBlock m g b.azimuth d) = h at head before ⊢
  obtain ⟨after, -, current, -⟩ := storeFiring_frame maths m g returns 0 (interpolate m g next h)
  have half := halfWay_currentAzimuth (b := b) (d := d) next (h := h)
    (by rw [head.currentAzimuth, startBlock_currentAzimuth])
    (by rw [head.deltaAzimuth, startBlock_deltaAzimuth])
  rw [current, closeIf_congr before.symm after, closeIf_interpolate, interpolate_currentAzimuth, half]
  exact ⟨rfl, rfl⟩

variable (maths m) in
theorem receivePlaced_firings (counts : g.Counts) (p : Placed) (d : Decoder) (f : Frames Bearing) :
    (receivePlaced m g p d f).map Bearing.firing =
      receiveBlock maths m g p.block d (f.map Bearing.firing) := by
  have first : ((if headOf p.block.azimuth d.nextAzimuth < d.previousAzimuth then f.close
      else f).receive ⟨p.head, headOf p.block.azimuth d.nextAzimuth, p.block.first⟩).map
        Bearing.firing = ((f.map Bearing.firing).closeIf d (startBlock m g p.block.azimuth d)).receive
          ⟨(startBlock m g p.block.azimuth d).currentAzimuth, p.block.first⟩ := by
    rw [closeIf_startBlock, startBlock_currentAzimuth, Frames.map_receive]
    split
    · rw [Frames.map_close]
      rfl
    · rfl
  rw [receivePlaced, receiveBlock]
  simp only
  cases second : p.block.second with
  | none => exact first
  | some pair =>
    obtain ⟨next, returns⟩ := pair
    simp only
    generalize (if headOf p.block.azimuth d.nextAzimuth < d.previousAzimuth then f.close
      else f).receive _ = received at first ⊢
    rw [← first]
    by_cases leaves : LeavesRoom m g p.block d
    · obtain ⟨current, closes⟩ := takeBlock_middle maths counts second leaves
        (received.map Bearing.firing)
      rw [if_neg (not_not.mpr leaves), current, closes]
      split
      · rw [Frames.map_receive, Frames.map_close]
        rfl
      · rw [Frames.map_receive]
        rfl
    · have stop : ¬ ReadsOn maths m g p.block d := mt (readsOn_iff maths counts p.block d).mp leaves
      obtain ⟨stored, taken, -⟩ := takeBlock_of_not_readsOn (.inr stop)
      obtain ⟨sent, -, current, -⟩ := storeFiring_frame maths m g stored 0
        (startBlock m g p.block.azimuth d)
      rw [if_pos leaves, taken, closeIf_same sent, current, startBlock_currentAzimuth,
        Frames.map_receive]
      rfl

variable (maths m) in
/-- The decoder divides its firings where the azimuths it carries say so. -/
theorem bearingsOf_firings (counts : g.Counts) (placed : List Placed) (d : Decoder)
    (f : Frames Bearing) :
    (bearingsOf maths m g placed d f).map Bearing.firing =
      framesOf maths m g (placed.map Placed.block) d (f.map Bearing.firing) := by
  induction placed generalizing d f with
  | nil => rfl
  | cons p rest ih => rw [bearingsOf, ih, receivePlaced_firings maths m counts, List.map_cons, framesOf]

variable (m) in
theorem placedBlocks_blocks (payloads : List Bytes) :
    (payloads.flatMap (placedBlocks m)).map Placed.block = payloads.flatMap (blocksOf m) := by
  have one : ∀ payload, (placedBlocks m payload).map Placed.block = blocksOf m payload :=
    fun payload => List.map_map
  simp only [List.map_flatMap, one]

variable (maths m) in
theorem framesOf_bearings (counts : g.Counts) (payloads : List Bytes) (d : Decoder) :
    framesOf maths m g (payloads.flatMap (blocksOf m)) d {} =
      (bearingsOf maths m g (payloads.flatMap (placedBlocks m)) d {}).map Bearing.firing := by
  rw [bearingsOf_firings maths m counts, placedBlocks_blocks]
  rfl

end Steps

/-! ## Azimuths that are right -/

/-- The decoder takes the firing where it was made. -/
def Bearing.Right (b : Bearing) : Prop := SameAngle b.carried b.azimuth

/-- Every block of these packets leaves room for its second firing. -/
def AllRead (maths : Maths) (g : Settings) : List Bytes → Decoder → Prop
  | [], _ => True
  | payload :: rest, d =>
    (∀ k < 12, Reads maths g payload d k) ∧ AllRead maths g rest (afterBlocks maths g payload d 12)

section Right
variable {maths : Maths} {m : Device} {g : Settings} {d : Decoder} {f : Frames Bearing}
  {payload : Bytes} {payloads : List Bytes}

variable (m) in
theorem bearingsOf_append (before after : List Placed) (d : Decoder) (f : Frames Bearing) :
    bearingsOf maths m g (before ++ after) d f =
      bearingsOf maths m g after
        ((before.map Placed.block).foldl (fun d b => takeBlock maths m g b d) d)
        (bearingsOf maths m g before d f) := by
  induction before generalizing d f with
  | nil => rfl
  | cons p rest ih => rw [List.cons_append, bearingsOf, ih, bearingsOf, List.map_cons, List.foldl_cons]

variable (maths g payload d) in
theorem afterBlocks_eq (n : Nat) :
    (((List.range n).map (placedOf VLP16 payload)).map Placed.block).foldl
      (fun d b => takeBlock maths VLP16 g b d) d = afterBlocks maths g payload d n := by
  induction n with
  | zero => rfl
  | succ n ih =>
    rw [List.range_succ, List.map_append, List.map_append, List.foldl_append, ih]
    rfl

theorem receivePlaced_each {P : Bearing → Prop} {p : Placed} {next : Option ℚ} {returns : List Return}
    (second : p.block.second = some (next, returns)) (leaves : LeavesRoom m g p.block d)
    (each : f.Each P) (first : P ⟨p.head, headOf p.block.azimuth d.nextAzimuth, p.block.first⟩)
    (middle : P ⟨p.middle, if halfBefore p.block next d > 360 then halfBefore p.block next d - 360
      else halfBefore p.block next d, returns⟩) : (receivePlaced m g p d f).Each P := by
  have begun : (if headOf p.block.azimuth d.nextAzimuth < d.previousAzimuth then f.close
      else f).Each P := by
    split
    · exact each.close
    · exact each
  have received := begun.receive first
  rw [receivePlaced]
  simp only [second, if_neg (not_not.mpr leaves)]
  split at middle
  · rename_i wraps
    rw [if_pos wraps]
    exact received.close.receive middle
  · rename_i stays
    rw [if_neg stays]
    exact received.receive middle

/-- The first blocks of a packet of the VLP-16. -/
theorem bearingsOf_blocks (counts : g.Counts)
    (low : ∀ blockID < 12, hundredths payload blockID ≤ 35999)
    (reads : ∀ k < 12, Reads maths g payload d k) (each : f.Each Bearing.Right) {n : Nat}
    (inside : n ≤ 12) :
    (bearingsOf maths VLP16 g ((List.range n).map (placedOf VLP16 payload)) d f).Each
      Bearing.Right := by
  induction n with
  | zero => exact each
  | succ n ih =>
    rw [List.range_succ, List.map_append, bearingsOf_append, afterBlocks_eq, List.map_singleton,
      bearingsOf, bearingsOf]
    have second : (placedOf VLP16 payload n).block.second =
        some (if n < 11 then some ((hundredths payload (n + 1) : ℚ) / 100) else none,
          blockReturns payload n 16 16) := rfl
    have leaves := reads n (by omega)
    obtain ⟨current, -⟩ := takeBlock_middle maths counts second leaves {}
    refine receivePlaced_each second leaves (ih (by omega)) ?_ ?_
    · have shown := headOfBlock_shows maths d low counts (show n < 12 by omega)
        fun k _ => reads k (by omega)
      rw [headOfBlock, startBlock_currentAzimuth] at shown
      exact shown.sameAngle
    · rw [Bearing.Right, ← current]
      exact middleOfBlock_right low counts (by omega) fun k _ => reads k (by omega)

/-- Where every block of a VLP-16 leaves room, the decoder takes every firing where it was made. -/
theorem bearingsOf_right (counts : g.Counts)
    (low : ∀ payload ∈ payloads, ∀ blockID < 12, hundredths payload blockID ≤ 35999)
    (reads : AllRead maths g payloads d) (each : f.Each Bearing.Right) :
    (bearingsOf maths VLP16 g (payloads.flatMap (placedBlocks VLP16)) d f).Each Bearing.Right := by
  induction payloads generalizing d f with
  | nil => exact each
  | cons payload rest ih =>
    rw [List.flatMap_cons, bearingsOf_append, placedBlocks, afterBlocks_eq]
    exact ih (fun other there => low other (List.mem_cons_of_mem _ there)) reads.2
      (bearingsOf_blocks counts (low payload List.mem_cons_self) reads.1 each (Nat.le_refl _))

/-- Every block of an HDL-32E says where its firing was made. -/
theorem bearingsOf_right_HDL32E (each : f.Each Bearing.Right) :
    (bearingsOf maths HDL32E g (payloads.flatMap (placedBlocks HDL32E)) d f).Each Bearing.Right := by
  have all : ∀ p ∈ payloads.flatMap (placedBlocks HDL32E),
      p.block.azimuth = some p.head ∧ p.block.second = none := by
    intro p there
    obtain ⟨payload, -, there⟩ := List.mem_flatMap.mp there
    obtain ⟨blockID, -, rfl⟩ := List.mem_map.mp there
    exact ⟨rfl, rfl⟩
  generalize payloads.flatMap (placedBlocks HDL32E) = placed at all ⊢
  induction placed generalizing d f with
  | nil => exact each
  | cons p rest ih =>
    obtain ⟨azimuth, second⟩ := all p List.mem_cons_self
    rw [bearingsOf]
    refine ih ?_ fun other there => all other (List.mem_cons_of_mem _ there)
    have own : Bearing.Right ⟨p.head, headOf p.block.azimuth d.nextAzimuth, p.block.first⟩ := by
      rw [Bearing.Right, azimuth]
      exact SameAngle.refl _
    rw [receivePlaced]
    simp only [second]
    split
    · exact each.close.receive own
    · exact each.receive own

end Right

end OpendlvCore.Velodyne
