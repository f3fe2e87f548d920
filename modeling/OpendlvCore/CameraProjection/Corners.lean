import OpendlvCore.CameraProjection.Calibration

/-!
# The clicked corners and the configured ones

Clicks and corners are two quadrangles, and the saved matrix takes the one to the other. The order
of the corners in `Config` is the order in which the user is asked to click them.
-/
namespace OpendlvCore.CameraProjection
open Matrix Collineation

/-- Where a click is in the image. -/
def MouseEvent.pixel (e : MouseEvent) : ℚ × ℚ := (e.x.toInt, e.y.toInt)

/-- Bottom-left, bottom-right, top-right and top-left. -/
def corners (width height x y : ℚ) : Fin 4 → ℚ × ℚ :=
  ![(x, y + width), (x, y), (x + height, y), (x + height, y + width)]

section Corners
variable {eigen : Eigen} {c : Projection} {points : Matrix (Fin 2) (Fin 4) ℚ}
  {width height x y : ℚ} {events : List MouseEvent} {p : Fin 4 → MouseEvent}

/-- A rectangle with a width and a height. -/
theorem corners_general (wide : width ≠ 0) (high : height ≠ 0) :
    Quadrangle (corners width height x y) := by
  apply quadrangle_of_areas <;> simp [corners, area, wide, high]

theorem config_aMatrix (c : Projection) : (config eigen c [width, height, x, y]).aMatrix =
    fourPoints eigen (corners width height x y) := rfl

theorem config_bMatrix (c : Projection) :
    (config eigen c [width, height, x, y]).bMatrix = c.bMatrix := rfl

theorem calibrate_aMatrix (c : Projection) :
    (calibrate eigen c points events).aMatrix = c.aMatrix := by
  simp only [calibrate]
  split <;> rfl

/-- Four clicks are the points that `Calibrate` uses. -/
theorem calibrate_bMatrix (c : Projection) (clicked : clicks events = List.ofFn p) :
    (calibrate eigen c points events).bMatrix = fourPoints eigen fun i => (p i).pixel := by
  have records := records_clicks points events
  rw [clicked] at records
  have four : (events.foldl logMouseClicks { points, iterator := 0 }).iterator > 3 := by
    rw [gt_iff_lt, UInt8.lt_iff_toNat_lt, records.count, List.length_ofFn]
    decide
  have there : ∀ j : Fin 4, (List.ofFn p)[j.val]? = some (p j) := by
    intro j
    rw [List.getElem?_ofFn, dif_pos j.isLt]
  have at0 := fun j : Fin 4 => (records.points j (p j) (there j)).1
  have at1 := fun j : Fin 4 => (records.points j (p j) (there j)).2
  simp only [calibrate, if_pos four, at0, at1]
  rfl

/-- The order of the two entries does not matter. -/
theorem save_projectionMatrix (clicked : clicks events = List.ofFn p) {after : Projection}
    (order : after = save eigen (calibrate eigen (config eigen c [width, height, x, y]) points events) ∨
      after = save eigen (config eigen (calibrate eigen c points events) [width, height, x, y])) :
    after.projectionMatrix = fourPoints eigen (corners width height x y) *
      eigen.inverse (fourPoints eigen fun i => (p i).pixel) := by
  rcases order with rfl | rfl
  · rw [save, calibrate_aMatrix, calibrate_bMatrix _ clicked, config_aMatrix]
  · rw [save, config_aMatrix, config_bMatrix, calibrate_bMatrix _ clicked]

theorem solve_triangle {q : Fin 4 → ℚ × ℚ} (exact : eigen.Exact) (general : Quadrangle q) :
    triangle (q 0) (q 1) (q 2) *ᵥ
      eigen.solve (triangle (q 0) (q 1) (q 2)) (homogeneous (q 3)) = homogeneous (q 3) := by
  apply exact.solves
  rw [det_triangle]
  exact general.area_ne_zero (by decide) (by decide)

theorem fourPoints_maps {q r : Fin 4 → ℚ × ℚ} (exact : eigen.Exact) (general : Quadrangle q)
    (image : Quadrangle r) (i : Fin 4) : ∃ factor : ℚ, factor ≠ 0 ∧
      (fourPoints eigen r * eigen.inverse (fourPoints eigen q)) *ᵥ homogeneous (q i) =
        factor • homogeneous (r i) := by
  have solves := solve_triangle exact general
  have inverse := exact.inverts _ (general.frame solves).det_scaled_ne_zero
  exact general.maps_points image solves (solve_triangle exact image) inverse i

theorem projectsTo_of_multiple {m : Matrix (Fin 3) (Fin 3) ℚ} {e : MouseEvent} {corner : ℚ × ℚ}
    {factor : ℚ} (left : e.event = EVENT_LBUTTONDOWN) (nonzero : factor ≠ 0)
    (maps : m *ᵥ homogeneous e.pixel = factor • homogeneous corner) : ProjectsTo m e corner := by
  change m *ᵥ ![e.x.toInt, e.y.toInt, 1] = _ at maps
  rw [ProjectsTo, projectMouseClicks, if_pos left, maps]
  constructor
  · simpa [homogeneous] using nonzero
  · apply congrArg some
    funext i
    fin_cases i <;> simp [homogeneous, nonzero]

theorem clicks_left_button (clicked : clicks events = List.ofFn p) (i : Fin 4) :
    (p i).event = EVENT_LBUTTONDOWN := by
  have member : p i ∈ clicks events := by
    rw [clicked]
    exact List.mem_ofFn.mpr ⟨i, rfl⟩
  have left := List.of_mem_filter (List.mem_of_mem_take member)
  simpa using left

/-- After `Config` and `Calibrate`, in either order, and `Save`, every click is projected to its
corner. -/
theorem clicks_project_to_corners (exact : eigen.Exact) (wide : width ≠ 0) (high : height ≠ 0)
    (clicked : clicks events = List.ofFn p) (general : Quadrangle fun i => (p i).pixel)
    (after : Projection)
    (order : after = save eigen (calibrate eigen (config eigen c [width, height, x, y]) points events) ∨
      after = save eigen (config eigen (calibrate eigen c points events) [width, height, x, y]))
    (i : Fin 4) : ProjectsTo after.projectionMatrix (p i) (corners width height x y i) := by
  have rectangle := corners_general (x := x) (y := y) wide high
  obtain ⟨factor, nonzero, maps⟩ := fourPoints_maps exact general rectangle i
  rw [save_projectionMatrix clicked order]
  exact projectsTo_of_multiple (clicks_left_button clicked i) nonzero maps

end Corners

/-- Cramer's rule and the adjugate. -/
def cramersRule : Eigen where
  solve q w := q.det⁻¹ • q.cramer w
  inverse b := b.det⁻¹ • b.adjugate

theorem cramersRule_exact : cramersRule.Exact where
  solves q w independent := by
    rw [cramersRule, mulVec_smul, mulVec_cramer, smul_smul, inv_mul_cancel₀ independent, one_smul]
  inverts b independent := by
    rw [cramersRule, Matrix.mul_smul, mul_adjugate, smul_smul, inv_mul_cancel₀ independent, one_smul]

/-- Four corners of a square in the image, behind a click that a right click takes back and in
front of one too many. -/
def squareClicks : List MouseEvent :=
  [⟨1, 7, 7⟩, ⟨2, 0, 0⟩, ⟨1, 0, 100⟩, ⟨1, 100, 100⟩, ⟨1, 100, 0⟩, ⟨1, 0, 0⟩, ⟨1, 5, 9⟩]

theorem clicks_project_to_corners_square :
    ProjectsTo
      (save cramersRule (calibrate cramersRule
        (config cramersRule ⟨0, 0, 0, 0, 0, 0, 0⟩ [2, 3, 10, -1]) 0 squareClicks)).projectionMatrix
      ⟨1, 100, 0⟩ (corners 2 3 10 (-1) 2) := by
  have general : Quadrangle fun i : Fin 4 =>
      (![⟨1, 0, 100⟩, ⟨1, 100, 100⟩, ⟨1, 100, 0⟩, ⟨1, 0, 0⟩] i : MouseEvent).pixel := by
    apply quadrangle_of_areas <;> decide +kernel
  exact clicks_project_to_corners
    (p := ![⟨1, 0, 100⟩, ⟨1, 100, 100⟩, ⟨1, 100, 0⟩, ⟨1, 0, 0⟩])
    cramersRule_exact (by decide) (by decide) (by decide) general _ (.inl rfl) 2

end OpendlvCore.CameraProjection
