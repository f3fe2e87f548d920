import Mathlib.Data.List.DropRight
import Mathlib.LinearAlgebra.Matrix.Notation
import OpendlvCore.Collineation

/-!
# Calibrating a camera

The mouse callbacks of `cameraprojection.cpp` and what `Config`, `Calibrate` and `Save` make
of a rectangle and four clicks. Numbers are exact. Output, the file that `Save` writes and the
images are left out.
-/
namespace OpendlvCore.CameraProjection
open Matrix Collineation

/-- What the tool uses of Eigen. -/
structure Eigen where
  /-- `q.colPivHouseholderQr().solve(w)` -/
  solve : Matrix (Fin 3) (Fin 3) ℚ → (Fin 3 → ℚ) → Fin 3 → ℚ
  inverse : Matrix (Fin 3) (Fin 3) ℚ → Matrix (Fin 3) (Fin 3) ℚ

/-- Both are exact where there is a solution. -/
structure Eigen.Exact (eigen : Eigen) : Prop where
  solves : ∀ q w, q.det ≠ 0 → q *ᵥ eigen.solve q w = w
  inverts : ∀ b, b.det ≠ 0 → b * eigen.inverse b = 1

def EVENT_LBUTTONDOWN : Int32 := 1
def EVENT_RBUTTONDOWN : Int32 := 2

/-- The arguments of a mouse callback; the flags are not used. -/
structure MouseEvent where
  event : Int32
  x : Int32
  y : Int32
  deriving DecidableEq, Repr

structure MouseParams where
  points : Matrix (Fin 2) (Fin 4) ℚ
  iterator : UInt8

/-- `points(0, column) = x; points(1, column) = y;` -/
def setPoint (points : Matrix (Fin 2) (Fin 4) ℚ) (column : ℕ) (x y : ℚ) : Matrix (Fin 2) (Fin 4) ℚ :=
  of fun i j => if j.val = column then ![x, y] i else points i j

def logMouseClicks (click : MouseParams) (e : MouseEvent) : MouseParams :=
  if e.event = EVENT_LBUTTONDOWN ∧ click.iterator < 4 then
    { points := setPoint click.points click.iterator.toNat e.x.toInt e.y.toInt
      iterator := click.iterator + 1 }
  else if e.event = EVENT_RBUTTONDOWN then { click with iterator := 0 }
  else click

/-- The point that a left click is projected to. -/
def projectMouseClicks (m : Matrix (Fin 3) (Fin 3) ℚ) (e : MouseEvent) : Option (Fin 3 → ℚ) :=
  if e.event = EVENT_LBUTTONDOWN then
    let v := m *ᵥ ![e.x.toInt, e.y.toInt, 1]
    some fun i => v i / v 2
  else none

/-- The matrix projects the click to the corner, with a third coordinate to divide by. -/
def ProjectsTo (m : Matrix (Fin 3) (Fin 3) ℚ) (e : MouseEvent) (corner : ℚ × ℚ) : Prop :=
  (m *ᵥ ![e.x.toInt, e.y.toInt, 1]) 2 ≠ 0 ∧
    projectMouseClicks m e = some ![corner.1, corner.2, 1]

/-- The members that the menu entries share. -/
structure Projection where
  recHeight : ℚ
  recWidth : ℚ
  recPosX : ℚ
  recPosY : ℚ
  aMatrix : Matrix (Fin 3) (Fin 3) ℚ
  bMatrix : Matrix (Fin 3) (Fin 3) ℚ
  projectionMatrix : Matrix (Fin 3) (Fin 3) ℚ

section Menu
variable (eigen : Eigen) (c : Projection)

/-- `Config`: the first three corners of the rectangle scaled to the fourth. -/
def config (param : List ℚ) : Projection :=
  match param with
  | [recWidth, recHeight, recPosX, recPosY] =>
    let q := !![recPosX, recPosX, recPosX + recHeight;
                recPosY + recWidth, recPosY, recPosY;
                1, 1, 1]
    let w := ![recPosX + recHeight, recPosY + recWidth, 1]
    let scale := eigen.solve q w
    { c with recWidth, recHeight, recPosX, recPosY, aMatrix := scaled q scale }
  | _ => c

/-- `Calibrate`: the same for the clicks, unless there are fewer than four. The matrix of the
points is not initialized. -/
def calibrate (points : Matrix (Fin 2) (Fin 4) ℚ) (events : List MouseEvent) : Projection :=
  let mouseClick := events.foldl logMouseClicks { points, iterator := 0 }
  if mouseClick.iterator > 3 then
    let p := mouseClick.points
    let q := !![p 0 0, p 0 1, p 0 2;
                p 1 0, p 1 1, p 1 2;
                1, 1, 1]
    let w := ![p 0 3, p 1 3, 1]
    let scale := eigen.solve q w
    { c with bMatrix := scaled q scale }
  else c

def save : Projection := { c with projectionMatrix := c.aMatrix * eigen.inverse c.bMatrix }

end Menu

/-- What both menu entries make of four points. -/
def fourPoints (eigen : Eigen) (p : Fin 4 → ℚ × ℚ) : Matrix (Fin 3) (Fin 3) ℚ :=
  scaled (triangle (p 0) (p 1) (p 2))
    (eigen.solve (triangle (p 0) (p 1) (p 2)) (homogeneous (p 3)))

/-! ## Clicks -/

/-- The first four left clicks after the last right click. -/
def clicks (events : List MouseEvent) : List MouseEvent :=
  ((events.rtakeWhile fun e => e.event ≠ EVENT_RBUTTONDOWN).filter
    fun e => e.event = EVENT_LBUTTONDOWN).take 4

/-- The columns below the iterator hold the clicks. -/
structure Records (click : MouseParams) (list : List MouseEvent) : Prop where
  count : click.iterator.toNat = list.length
  points : ∀ (j : Fin 4) e, list[j.val]? = some e →
    click.points 0 j = e.x.toInt ∧ click.points 1 j = e.y.toInt

section Clicks
variable {click : MouseParams} {list events : List MouseEvent} {e : MouseEvent}

theorem records_nil (points : Matrix (Fin 2) (Fin 4) ℚ) : Records { points, iterator := 0 } [] where
  count := rfl
  points := by simp

/-- A left click goes to the column behind the ones that are filled. -/
theorem Records.left (records : Records click list) (few : list.length < 4) :
    Records
      { points := setPoint click.points click.iterator.toNat e.x.toInt e.y.toInt
        iterator := click.iterator + 1 } (list ++ [e]) where
  count := by
    simp only [UInt8.toNat_add, records.count, UInt8.toNat_one, List.length_append,
      List.length_singleton]
    omega
  points := by
    intro j e' here
    have count := records.count
    by_cases last : j.val = list.length
    · simp only [last, List.getElem?_concat_length, Option.some.injEq] at here
      simp [setPoint, count, last, here]
    · have old : list[j.val]? = some e' := by
        rw [List.getElem?_append] at here
        split at here
        · exact here
        · rw [List.getElem?_singleton, if_neg (by omega)] at here
          cases here
      simpa [setPoint, count, last] using records.points j e' old

theorem clicks_right (right : e.event = EVENT_RBUTTONDOWN) : clicks (events ++ [e]) = [] := by
  simp [clicks, right]

theorem clicks_left (left : e.event = EVENT_LBUTTONDOWN) :
    clicks (events ++ [e]) = if (clicks events).length < 4 then clicks events ++ [e] else clicks events := by
  have other : ¬ EVENT_LBUTTONDOWN = EVENT_RBUTTONDOWN := by decide
  have more : ∀ l : List MouseEvent, (l ++ [e]).take 4 =
      if (l.take 4).length < 4 then l.take 4 ++ [e] else l.take 4 := by
    intro l
    rw [List.length_take, List.take_append]
    split
    · have room : 4 - l.length = 3 - l.length + 1 := by omega
      rw [room, List.take_succ_cons, List.take_nil]
    · have full : 4 - l.length = 0 := by omega
      rw [full, List.take_zero, List.append_nil]
  rw [clicks, clicks, ← more]
  simp [left, other]

theorem clicks_other (left : e.event ≠ EVENT_LBUTTONDOWN) (right : e.event ≠ EVENT_RBUTTONDOWN) :
    clicks (events ++ [e]) = clicks events := by
  simp [clicks, left, right]

/-- The callback keeps the clicks. -/
theorem Records.step (records : Records click (clicks events)) :
    Records (logMouseClicks click e) (clicks (events ++ [e])) := by
  have small : click.iterator < 4 ↔ (clicks events).length < 4 := by
    rw [UInt8.lt_iff_toNat_lt, records.count]
    rfl
  unfold logMouseClicks
  split
  · rename_i left
    have few := small.mp left.2
    rw [clicks_left left.1, if_pos few]
    exact records.left few
  · rename_i full
    split
    · rename_i right
      rw [clicks_right right]
      exact records_nil click.points
    · rename_i right
      by_cases left : e.event = EVENT_LBUTTONDOWN
      · rw [clicks_left left, if_neg fun few => full ⟨left, small.mpr few⟩]
        exact records
      · rwa [clicks_other left right]

theorem records_clicks (points : Matrix (Fin 2) (Fin 4) ℚ) (events : List MouseEvent) :
    Records (events.foldl logMouseClicks { points, iterator := 0 }) (clicks events) := by
  induction events using List.reverseRecOn with
  | nil => exact records_nil points
  | append_singleton events e ih =>
    rw [List.foldl_append]
    exact ih.step

end Clicks

end OpendlvCore.CameraProjection
