import Mathlib.LinearAlgebra.AffineSpace.FiniteDimensional
import Mathlib.LinearAlgebra.Matrix.NonsingularInverse
import Mathlib.Tactic.FieldSimp
import Mathlib.Tactic.FinCases
import Mathlib.Tactic.LinearCombination

/-!
# Collineations between frames

Independent vectors and one more with no zero coordinate among them form a frame. When
each vector is scaled by its coordinate the last one becomes the sum of all, so one
matrix takes every frame to every other, up to a factor for each vector.
-/
namespace Collineation
open Matrix

variable {ι K : Type*} [Fintype ι] [DecidableEq ι] [Field K]

/-- The columns of `q`, each with its scale. -/
def scaled (q : Matrix ι ι K) (s : ι → K) : Matrix ι ι K := of fun i j => s j * q i j

section Scales
variable {q : Matrix ι ι K} {s w : ι → K}

theorem scaled_eq (q : Matrix ι ι K) (s : ι → K) : scaled q s = q * diagonal s := by
  ext i j
  simp [scaled, mul_comm]

theorem det_scaled (q : Matrix ι ι K) (s : ι → K) : (scaled q s).det = q.det * ∏ j, s j := by
  simp [scaled_eq]

omit [DecidableEq ι] in
/-- The scaled columns add up to the last vector of the frame. -/
theorem scaled_mulVec_one (q : Matrix ι ι K) (s : ι → K) : scaled q s *ᵥ 1 = q *ᵥ s := by
  ext i
  simp [scaled, mulVec, dotProduct, mul_comm]

theorem scaled_mulVec_single (q : Matrix ι ι K) (s : ι → K) (j : ι) :
    scaled q s *ᵥ Pi.single j 1 = s j • q.col j := by
  ext i
  simp [scaled]

/-- Cramer's rule for one coordinate. -/
theorem scale_mul_det (solves : q *ᵥ s = w) (j : ι) : q.det * s j = (q.updateCol j w).det := by
  have coordinates : cramer q w = q.det • s := by
    rw [cramer_eq_adjugate_mulVec, ← solves, mulVec_mulVec, adjugate_mul, smul_mulVec, one_mulVec]
  have here := congrFun coordinates j
  rw [cramer_apply] at here
  simp [here]

theorem scale_ne_zero (solves : q *ᵥ s = w) {j : ι} (independent : (q.updateCol j w).det ≠ 0) :
    s j ≠ 0 := by
  intro zero
  apply independent
  rw [← scale_mul_det solves, zero, mul_zero]

end Scales

/-- Independent columns and scales without a zero. -/
structure Frame (q : Matrix ι ι K) (s : ι → K) : Prop where
  independent : q.det ≠ 0
  scales : ∀ j, s j ≠ 0

namespace Frame
variable {q r b : Matrix ι ι K} {s t : ι → K}

theorem det_scaled_ne_zero (frame : Frame q s) : (scaled q s).det ≠ 0 := by
  rw [det_scaled]
  exact mul_ne_zero frame.independent (Finset.prod_ne_zero_iff.mpr fun j _ => frame.scales j)

/-- The last vector of a frame goes to the last vector of the other. -/
theorem maps_last (inverse : scaled q s * b = 1) : (scaled r t * b) *ᵥ (q *ᵥ s) = r *ᵥ t := by
  have left : b * scaled q s = 1 := mul_eq_one_comm.mp inverse
  rw [← scaled_mulVec_one q, mulVec_mulVec, Matrix.mul_assoc, left, Matrix.mul_one,
    scaled_mulVec_one]

/-- The others go to a multiple of their image. -/
theorem maps_column (frame : Frame q s) (inverse : scaled q s * b = 1) (j : ι) :
    (scaled r t * b) *ᵥ q.col j = (t j / s j) • r.col j := by
  have left : b * scaled q s = 1 := mul_eq_one_comm.mp inverse
  have column : (scaled r t * b) *ᵥ (s j • q.col j) = t j • r.col j := by
    rw [← scaled_mulVec_single q, mulVec_mulVec, Matrix.mul_assoc, left, Matrix.mul_one,
      scaled_mulVec_single]
  rw [mulVec_smul] at column
  rw [div_eq_inv_mul, mul_smul, ← column, smul_smul, inv_mul_cancel₀ (frame.scales j), one_smul]

end Frame

/-! ## Four points of a plane -/

section Plane
variable {K : Type*} [Field K]

/-- The point on the plane of height 1. -/
def homogeneous (p : K × K) : Fin 3 → K := ![p.1, p.2, 1]

def triangle (p q r : K × K) : Matrix (Fin 3) (Fin 3) K :=
  !![p.1, q.1, r.1; p.2, q.2, r.2; 1, 1, 1]

/-- Twice the oriented area. -/
def area (p q r : K × K) : K := (q.1 - p.1) * (r.2 - p.2) - (r.1 - p.1) * (q.2 - p.2)

theorem det_triangle (p q r : K × K) : (triangle p q r).det = area p q r := by
  simp [triangle, area, det_fin_three]
  ring

theorem col_triangle (p q r : K × K) (j : Fin 3) :
    (triangle p q r).col j = homogeneous (![p, q, r] j) := by
  ext i
  fin_cases j <;> fin_cases i <;> rfl

theorem updateCol_triangle (p q r w : K × K) :
    (triangle p q r).updateCol 0 (homogeneous w) = triangle w q r ∧
      (triangle p q r).updateCol 1 (homogeneous w) = triangle p w r ∧
      (triangle p q r).updateCol 2 (homogeneous w) = triangle p q w := by
  refine ⟨?_, ?_, ?_⟩ <;> ext i j <;> fin_cases i <;> fin_cases j <;> rfl

/-- A point that spans no area with two others lies on the line through them. -/
theorem on_line {p q r : K × K} (flat : area p q r = 0) (distinct : q ≠ p) :
    ∃ a : K, r = a • (q - p) +ᵥ p := by
  have cross : (q.1 - p.1) * (r.2 - p.2) = (r.1 - p.1) * (q.2 - p.2) := sub_eq_zero.mp flat
  by_cases same : q.1 = p.1
  · have other : q.2 - p.2 ≠ 0 := by
      intro zero
      exact distinct (Prod.ext same (sub_eq_zero.mp zero))
    have level : r.1 - p.1 = 0 := by
      rw [same, sub_self, zero_mul] at cross
      exact (mul_eq_zero.mp cross.symm).resolve_right other
    refine ⟨(r.2 - p.2) / (q.2 - p.2), Prod.ext ?_ ?_⟩
    · simp [same, sub_eq_zero.mp level]
    · simp [div_mul_cancel₀ _ other]
  · have other : q.1 - p.1 ≠ 0 := sub_ne_zero.mpr same
    refine ⟨(r.1 - p.1) / (q.1 - p.1), Prod.ext ?_ ?_⟩
    · simp [div_mul_cancel₀ _ other]
    · have height : (r.1 - p.1) / (q.1 - p.1) * (q.2 - p.2) = r.2 - p.2 := by
        rw [div_mul_eq_mul_div, ← cross, mul_div_cancel_left₀ _ other]
      simp [height]

/-- Three points are collinear when they span no area. -/
theorem area_eq_zero_iff {p q r : K × K} : area p q r = 0 ↔ Collinear K {p, q, r} := by
  have member : p ∈ ({p, q, r} : Set (K × K)) := by simp
  rw [collinear_iff_of_mem member]
  constructor
  · intro flat
    by_cases same : q = p
    · refine ⟨r - p, ?_⟩
      simp only [Set.mem_insert_iff, Set.mem_singleton_iff, forall_eq_or_imp, forall_eq]
      exact ⟨⟨0, by simp⟩, ⟨0, by simp [same]⟩, ⟨1, by simp⟩⟩
    · refine ⟨q - p, ?_⟩
      simp only [Set.mem_insert_iff, Set.mem_singleton_iff, forall_eq_or_imp, forall_eq]
      exact ⟨⟨0, by simp⟩, ⟨1, by simp⟩, on_line flat same⟩
  · rintro ⟨v, line⟩
    obtain ⟨a, rfl⟩ := line q (by simp)
    obtain ⟨b, rfl⟩ := line r (by simp)
    simp [area]
    ring

/-- No three of the points lie on a line. -/
def Quadrangle (p : Fin 4 → K × K) : Prop :=
  ∀ i j k, i < j → j < k → ¬ Collinear K {p i, p j, p k}

section Quadrangle
variable {p r : Fin 4 → K × K} {s t : Fin 3 → K} {b : Matrix (Fin 3) (Fin 3) K}

theorem Quadrangle.area_ne_zero (general : Quadrangle p) {i j k : Fin 4} (first : i < j)
    (second : j < k) : area (p i) (p j) (p k) ≠ 0 :=
  fun flat => general i j k first second (area_eq_zero_iff.mp flat)

/-- Four triangles decide. -/
theorem quadrangle_of_areas (without3 : area (p 0) (p 1) (p 2) ≠ 0)
    (without2 : area (p 0) (p 1) (p 3) ≠ 0) (without1 : area (p 0) (p 2) (p 3) ≠ 0)
    (without0 : area (p 1) (p 2) (p 3) ≠ 0) : Quadrangle p := by
  have triples : ∀ i j k : Fin 4, i < j → j < k → (i = 0 ∧ j = 1 ∧ k = 2) ∨
      (i = 0 ∧ j = 1 ∧ k = 3) ∨ (i = 0 ∧ j = 2 ∧ k = 3) ∨ (i = 1 ∧ j = 2 ∧ k = 3) := by decide
  intro i j k first second
  rw [← area_eq_zero_iff]
  rcases triples i j k first second with ⟨rfl, rfl, rfl⟩ | ⟨rfl, rfl, rfl⟩ | ⟨rfl, rfl, rfl⟩ |
    ⟨rfl, rfl, rfl⟩
  · exact without3
  · exact without2
  · exact without1
  · exact without0

/-- The fourth point has no zero coordinate: it lies on no side of the triangle. -/
theorem Quadrangle.frame (general : Quadrangle p)
    (solves : triangle (p 0) (p 1) (p 2) *ᵥ s = homogeneous (p 3)) :
    Frame (triangle (p 0) (p 1) (p 2)) s := by
  obtain ⟨first, second, third⟩ := updateCol_triangle (p 0) (p 1) (p 2) (p 3)
  refine ⟨?_, fun j => ?_⟩
  · rw [det_triangle]
    exact general.area_ne_zero (by decide) (by decide)
  · apply scale_ne_zero solves
    fin_cases j
    · have side := general.area_ne_zero (i := 1) (j := 2) (k := 3) (by decide) (by decide)
      simp only [area] at side
      simp only [Fin.zero_eta, first, det_triangle, area]
      intro zero
      exact side (by linear_combination zero)
    · have side := general.area_ne_zero (i := 0) (j := 2) (k := 3) (by decide) (by decide)
      simp only [area] at side
      simp only [Fin.mk_one, second, det_triangle, area]
      intro zero
      exact side (by linear_combination -zero)
    · simp only [Fin.reduceFinMk, third, det_triangle]
      exact general.area_ne_zero (by decide) (by decide)

/-- One matrix takes the four points of a quadrangle to those of another. -/
theorem Quadrangle.maps_points (general : Quadrangle p) (image : Quadrangle r)
    (solves : triangle (p 0) (p 1) (p 2) *ᵥ s = homogeneous (p 3))
    (imageSolves : triangle (r 0) (r 1) (r 2) *ᵥ t = homogeneous (r 3))
    (inverse : scaled (triangle (p 0) (p 1) (p 2)) s * b = 1) (i : Fin 4) :
    ∃ factor : K, factor ≠ 0 ∧ (scaled (triangle (r 0) (r 1) (r 2)) t * b) *ᵥ homogeneous (p i) =
      factor • homogeneous (r i) := by
  have frame := general.frame solves
  have target := image.frame imageSolves
  have column : ∀ j : Fin 3, ∃ factor : K, factor ≠ 0 ∧
      (scaled (triangle (r 0) (r 1) (r 2)) t * b) *ᵥ homogeneous (![p 0, p 1, p 2] j) =
        factor • homogeneous (![r 0, r 1, r 2] j) := by
    intro j
    have maps := frame.maps_column (r := triangle (r 0) (r 1) (r 2)) (t := t) inverse j
    rw [col_triangle, col_triangle] at maps
    exact ⟨t j / s j, div_ne_zero (target.scales j) (frame.scales j), maps⟩
  fin_cases i
  · exact column 0
  · exact column 1
  · exact column 2
  · refine ⟨1, one_ne_zero, ?_⟩
    have maps := Frame.maps_last (r := triangle (r 0) (r 1) (r 2)) (t := t) inverse
    rw [solves, imageSolves] at maps
    rw [one_smul]
    exact maps

end Quadrangle

end Plane

end Collineation
