import Mathlib.Tactic.Common

/-!
# Points in the memory of a shared point cloud

`m_segment` receives four components for each point of a frame, and a counter of
points never exceeds the size the memory was allocated for.
-/
namespace OpendlvCore.Velodyne

/-- The components of a point: x, y, z or distance, azimuth, vertical angle; and intensity. -/
structure Point (α : Type) where
  first : α
  second : α
  third : α
  intensity : α
  deriving DecidableEq, Repr

def NUMBER_OF_COMPONENTS_PER_POINT : Nat := 4

/-- The counter of points, the index of the next component, and `m_segment`. -/
structure Segment (α : Type) where
  pointIndex : Nat := 0
  startID : Nat := 0
  memory : Nat → α

namespace Segment
variable {α : Type}

/-- `m_segment[m_startID + k] = ...` for the four components of a point. -/
def put (s : Segment α) (p : Point α) : Segment α where
  pointIndex := s.pointIndex + 1
  startID := s.startID + NUMBER_OF_COMPONENTS_PER_POINT
  memory := fun i =>
    if i = s.startID then p.first
    else if i = s.startID + 1 then p.second
    else if i = s.startID + 2 then p.third
    else if i = s.startID + 3 then p.intensity
    else s.memory i

/-- Nothing is stored beyond the maximum number of points. -/
def store (max : Nat) (s : Segment α) (p : Option (Point α)) : Segment α :=
  if s.pointIndex < max then
    match p with
    | some p => s.put p
    | none => s
  else s

/-- The next frame starts at the front; the memory stays. -/
def restart (s : Segment α) : Segment α := { s with pointIndex := 0, startID := 0 }

/-- The point at a place of the memory. -/
def read (memory : Nat → α) (i : Nat) : Point α where
  first := memory (4 * i)
  second := memory (4 * i + 1)
  third := memory (4 * i + 2)
  intensity := memory (4 * i + 3)

/-- The first `width` points. -/
def points (memory : Nat → α) (width : Nat) : List (Point α) := (List.range width).map (read memory)

/-- The memory begins with these points, and the counters point behind them. -/
structure Holds (s : Segment α) (stored : List (Point α)) : Prop where
  count : s.pointIndex = stored.length
  start : s.startID = 4 * s.pointIndex
  content : points s.memory s.pointIndex = stored

section Lemmas
variable {s : Segment α} {stored : List (Point α)} {max : Nat}

theorem points_succ (memory : Nat → α) (width : Nat) :
    points memory (width + 1) = points memory width ++ [read memory width] := by
  rw [points, List.range_succ, List.map_append]
  rfl

theorem Holds.put (holds : s.Holds stored) (p : Point α) : (s.put p).Holds (stored ++ [p]) := by
  have count := holds.count
  have start := holds.start
  have before : ∀ i < s.startID, (s.put p).memory i = s.memory i := by
    intro i low
    simp only [Segment.put]
    rw [if_neg (by omega), if_neg (by omega), if_neg (by omega), if_neg (by omega)]
  have last : read (s.put p).memory s.pointIndex = p := by
    simp [read, Segment.put, start]
  have kept : points (s.put p).memory s.pointIndex = points s.memory s.pointIndex := by
    apply List.map_congr_left
    intro i low
    rw [List.mem_range] at low
    simp only [read]
    rw [before _ (by omega), before _ (by omega), before _ (by omega), before _ (by omega)]
  refine ⟨?_, ?_, ?_⟩
  · change s.pointIndex + 1 = _
    rw [List.length_append, count]
    rfl
  · change s.startID + 4 = 4 * (s.pointIndex + 1)
    omega
  · change points (s.put p).memory (s.pointIndex + 1) = _
    rw [points_succ, kept, holds.content, last]

theorem Holds.restart (s : Segment α) : s.restart.Holds [] := ⟨rfl, rfl, rfl⟩

/-- Of everything offered to the memory it holds the beginning that fits. -/
theorem Holds.store {offered : List (Point α)} (holds : s.Holds (offered.take max))
    (p : Option (Point α)) : (s.store max p).Holds ((offered ++ p.toList).take max) := by
  have count := holds.count
  rw [List.length_take] at count
  unfold Segment.store
  split
  · rename_i room
    have all : offered.take max = offered := List.take_of_length_le (by omega)
    cases p with
    | none => rwa [Option.toList_none, List.append_nil]
    | some p =>
      have next := holds.put p
      rwa [all, ← List.take_of_length_le (i := max) (l := offered ++ [p])] at next
      rw [List.length_append, List.length_singleton]
      omega
  · rwa [List.take_append_of_le_length (by omega)]

/-- What is offered to a full memory does not change the beginning. -/
theorem Holds.beyond {offered : List (Point α)} (holds : s.Holds (offered.take max))
    (full : max ≤ s.pointIndex) (more : List (Point α)) : s.Holds ((offered ++ more).take max) := by
  have count := holds.count
  rw [List.length_take] at count
  rwa [List.take_append_of_le_length (by omega)]

theorem store_none : s.store max none = s := ite_self s

theorem store_some (room : s.pointIndex < max) (p : Point α) : s.store max (some p) = s.put p :=
  if_pos room

/-- A full memory ignores what follows. -/
theorem store_of_full (full : max ≤ s.pointIndex) (p : Option (Point α)) : s.store max p = s :=
  if_neg (Nat.not_lt.mpr full)

end Lemmas

end Segment

end OpendlvCore.Velodyne
