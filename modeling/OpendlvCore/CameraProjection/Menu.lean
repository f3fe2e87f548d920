import OpendlvCore.CameraProjection.Configuration
import OpendlvCore.SignificantDigits

/-!
# Runs of the calibration tool

The loop of `CameraProjection::body` with all entries of its menu and the file that `Save` writes
and `ReadMatrix` reads (`cameraprojection.cpp:190-370`). Numbers are exact. Beside it stands what
the user has told the tool: the rectangle typed last, the four points clicked last, and both of
them at the last time they were saved.
-/
namespace OpendlvCore.CameraProjection
open CBytes CText SignificantDigits Matrix Collineation

/-! ## The tool -/

/-- One pass of the loop: the key, and what the entry it starts meets with, which is the
uninitialized points of `Calibrate`, the mouse until a key ends the entry, and whether the file
can be opened. -/
structure Pass where
  code : Int32
  points : Matrix (Fin 2) (Fin 4) ℚ := 0
  mouse : List MouseEvent := []
  opens : Bool := true

/-- What is printed: the point a click is projected to, or the items of a file, unless one of
them cannot be read. -/
inductive Shown where
  | point (v : Fin 3 → ℚ)
  | matrix (items : Option (List ℚ))

structure Tool where
  projection : Projection
  inputStr : Bytes
  menuMode : Bool
  file : Option Bytes

def coefficients (m : Matrix (Fin 3) (Fin 3) ℚ) : List ℚ :=
  (List.ofFn m).flatMap fun row => List.ofFn row

/-- `m.format(saveFormat)`: a space is between the coefficients of a row and between the rows. -/
def matrixText (m : Matrix (Fin 3) (Fin 3) ℚ) : Bytes := separated 5 space (coefficients m)

def Projection.withConfigured (c : Projection) (k : Configured ℚ) : Projection :=
  { c with
    recHeight := k.recHeight, recWidth := k.recWidth, recPosX := k.recPosX, recPosY := k.recPosY
    aMatrix := k.aMatrix }

namespace Tool
variable (t : Tool)

/-- The matrix that is read is printed and dropped. -/
def readMatrix (opens : Bool) : List Shown :=
  match if opens then t.file else none with
  | none => []
  | some content => [.matrix (extractMany 9 content)]

def save (eigen : Eigen) (opens : Bool) : Tool :=
  let projection := CameraProjection.save eigen t.projection
  { t with
    projection
    file := if opens then some (matrixText projection.projectionMatrix) else t.file }

def project (mouse : List MouseEvent) : List Shown :=
  (mouse.filterMap (projectMouseClicks t.projection.projectionMatrix)).map .point

end Tool

section Body
variable (eigen : Eigen) (stod : Bytes → Except StodException (ℚ × Nat))
  (split : Bytes → UInt8 → List Bytes)

/-- One pass of the loop; `none` when `body` returns. -/
def Tool.step (t : Tool) (p : Pass) : Except StodException (Option (Tool × List Shown)) :=
  let key := keyOf p.code
  if t.menuMode then
    -- 'c', 'r', 'e', 's', 'p', 'q' and the escape key
    if key = 0x63 then
      .ok (some ({ t with projection := calibrate eigen t.projection p.points p.mouse }, []))
    else if key = 0x72 then .ok (some ({ t with menuMode := false }, []))
    else if key = 0x65 then .ok (some (t, t.readMatrix p.opens))
    else if key = 0x73 then .ok (some (t.save eigen p.opens, []))
    else if key = 0x70 then .ok (some (t, t.project p.mouse))
    else if key = 0x71 ∨ key = 27 then .ok none
    else .ok (some (t, []))
  else if key = backspace then .ok (some ({ t with inputStr := t.inputStr.dropLast }, []))
  else if key = carriageReturn ∨ key = space then
    match (Arithmetic.exact eigen stod).readEntries [] t.projection.configured
        (split t.inputStr comma) with
    | .error e => .error e
    | .ok configured =>
      .ok (some ({ t with
        projection := t.projection.withConfigured configured, inputStr := [], menuMode := true }, []))
  else .ok (some ({ t with inputStr := t.inputStr ++ [key] }, []))

/-- The passes of the loop while the module is running. -/
def Tool.run : List Pass → Tool → Except StodException (Option Tool)
  | [], t => .ok (some t)
  | p :: passes, t =>
    match t.step eigen stod split p with
    | .error e => .error e
    | .ok none => .ok none
    | .ok (some (t, _)) => Tool.run passes t

end Body

/-! ## What the user has told it -/

structure Rectangle where
  width : ℚ
  height : ℚ
  x : ℚ
  y : ℚ
  deriving DecidableEq, Repr

def Rectangle.corners (r : Rectangle) : Fin 4 → ℚ × ℚ :=
  CameraProjection.corners r.width r.height r.x r.y

/-- Four clicks, if as many were made. -/
def fourClicks (events : List MouseEvent) : Option (Fin 4 → MouseEvent) :=
  match clicks events with
  | [a, b, c, d] => some ![a, b, c, d]
  | _ => none

/-- What was told; `none` where the tool may hold anything. -/
structure Told where
  inputStr : Bytes := []
  menuMode : Bool := true
  rectangle : Option Rectangle := none
  clicked : Option (Fin 4 → MouseEvent) := none
  saved : Option (Rectangle × (Fin 4 → MouseEvent)) := none
  written : Option (Rectangle × (Fin 4 → MouseEvent)) := none

section Telling
variable (stod : Bytes → Except StodException (ℚ × Nat)) (split : Bytes → UInt8 → List Bytes)

/-- The first four entries of a line of which all are numbers. -/
def typedRectangle (text : Bytes) : Option Rectangle :=
  match (split text comma).mapM fun entry => (stod entry).toOption with
  | some (width :: height :: x :: y :: _) => some ⟨width.1, height.1, x.1, y.1⟩
  | _ => none

def Told.step (u : Told) (p : Pass) : Told :=
  let key := keyOf p.code
  if u.menuMode then
    if key = 0x63 then { u with clicked := fourClicks p.mouse <|> u.clicked }
    else if key = 0x72 then { u with menuMode := false }
    else if key = 0x73 then
      let both := u.rectangle.bind fun r => u.clicked.map fun clicked => (r, clicked)
      { u with saved := both, written := if p.opens then both else u.written }
    else u
  else if key = backspace then { u with inputStr := u.inputStr.dropLast }
  else if key = carriageReturn ∨ key = space then
    { u with
      rectangle := typedRectangle stod split u.inputStr <|> u.rectangle
      inputStr := [], menuMode := true }
  else { u with inputStr := u.inputStr ++ [key] }

def told (passes : List Pass) : Told := passes.foldl (Told.step stod split) {}

end Telling

/-- The matrix that takes the clicks to the corners of the rectangle. -/
def projectionOf (eigen : Eigen) (q : Rectangle × (Fin 4 → MouseEvent)) : Matrix (Fin 3) (Fin 3) ℚ :=
  fourPoints eigen q.1.corners * eigen.inverse (fourPoints eigen fun i => (q.2 i).pixel)

/-- The tool holds what it was told. -/
structure Agrees (eigen : Eigen) (u : Told) (t : Tool) : Prop where
  inputStr : t.inputStr = u.inputStr
  menuMode : t.menuMode = u.menuMode
  rectangle : ∀ r, u.rectangle = some r → t.projection.aMatrix = fourPoints eigen r.corners
  clicked : ∀ p, u.clicked = some p →
    t.projection.bMatrix = fourPoints eigen fun i => (p i).pixel
  saved : ∀ q, u.saved = some q → t.projection.projectionMatrix = projectionOf eigen q
  written : ∀ q, u.written = some q → t.file = some (matrixText (projectionOf eigen q))

section Runs
variable {eigen : Eigen} {stod : Bytes → Except StodException (ℚ × Nat)}
  {split : Bytes → UInt8 → List Bytes} {t t' : Tool} {u : Told} {p : Pass} {shown : List Shown}

theorem clicks_of_fourClicks {events : List MouseEvent} {p : Fin 4 → MouseEvent}
    (clicked : fourClicks events = some p) : clicks events = List.ofFn p := by
  unfold fourClicks at clicked
  split at clicked
  · case h_1 a b c d four =>
    cases clicked
    rw [four]
    simp [List.ofFn_succ]
  · cases clicked

/-- Fewer than four clicks leave the matrix as it is. -/
theorem calibrate_cancelled {c : Projection} {points : Matrix (Fin 2) (Fin 4) ℚ}
    {events : List MouseEvent} (few : fourClicks events = none) :
    calibrate eigen c points events = c := by
  have records := records_clicks points events
  have less : (clicks events).length < 4 := by
    have most : (clicks events).length ≤ 4 := List.length_take_le ..
    by_contra! four
    obtain ⟨a, b, c, d, same⟩ := List.length_eq_four.mp (le_antisymm most four)
    rw [fourClicks, same] at few
    cases few
  have stopped : ¬ (events.foldl logMouseClicks { points, iterator := 0 }).iterator > 3 := by
    rw [gt_iff_lt, UInt8.lt_iff_toNat_lt, records.count, Nat.not_lt]
    exact Nat.le_of_lt_succ less
  simp only [calibrate, if_neg stopped]

theorem Agrees.calibrated (agrees : Agrees eigen u t) (points : Matrix (Fin 2) (Fin 4) ℚ)
    (mouse : List MouseEvent) :
    Agrees eigen { u with clicked := fourClicks mouse <|> u.clicked }
      { t with projection := calibrate eigen t.projection points mouse } := by
  cases clicked : fourClicks mouse with
  | none =>
    rw [calibrate_cancelled clicked]
    exact agrees
  | some p =>
    have four := clicks_of_fourClicks clicked
    refine ⟨agrees.inputStr, agrees.menuMode, fun r told => ?_, fun p' told => ?_, fun q told => ?_,
      agrees.written⟩
    · rw [calibrate_aMatrix]
      exact agrees.rectangle r told
    · cases told
      exact calibrate_bMatrix t.projection four
    · have kept : (calibrate eigen t.projection points mouse).projectionMatrix =
          t.projection.projectionMatrix := by
        simp only [calibrate]
        split <;> rfl
      exact kept.trans (agrees.saved q told)

theorem Agrees.saves (agrees : Agrees eigen u t) (opens : Bool) :
    Agrees eigen
      { u with
        saved := u.rectangle.bind fun r => u.clicked.map fun clicked => (r, clicked)
        written := if opens then u.rectangle.bind fun r => u.clicked.map fun clicked => (r, clicked)
          else u.written }
      (t.save eigen opens) := by
  have both : ∀ q, (u.rectangle.bind fun r => u.clicked.map fun clicked => (r, clicked)) = some q →
      t.projection.aMatrix * eigen.inverse t.projection.bMatrix = projectionOf eigen q := by
    intro q told
    obtain ⟨r, rectangle, clicked, four, rfl⟩ := by
      simpa only [Option.bind_eq_some_iff, Option.map_eq_some_iff] using told
    rw [agrees.rectangle r rectangle, agrees.clicked clicked four, projectionOf]
  refine ⟨agrees.inputStr, agrees.menuMode, agrees.rectangle, agrees.clicked, both, fun q told => ?_⟩
  cases opens with
  | true => exact congrArg (fun m => some (matrixText m)) (both q told)
  | false => exact agrees.written q told

/-- What the entries convert to, with what `stod` says beside it. -/
theorem mapM_of_converts {entries : List Bytes} {values : List ℚ}
    (converts : List.Forall₂ (Arithmetic.exact eigen stod).Converts entries values) :
    ∃ pairs : List (ℚ × ℕ), (entries.mapM fun entry => (stod entry).toOption) = some pairs ∧
      pairs.map Prod.fst = values := by
  induction converts with
  | nil => exact ⟨[], rfl, rfl⟩
  | @cons entry value entries values here _ ih =>
    obtain ⟨idx, here⟩ := here
    obtain ⟨pairs, rest, same⟩ := ih
    change stod entry = .ok (value, idx) at here
    have first : (stod entry).toOption = some (value, idx) := by
      rw [here]
      rfl
    refine ⟨(value, idx) :: pairs, ?_, by rw [List.map_cons, same]⟩
    simp only [List.mapM_cons, first, rest, Option.bind_eq_bind, Option.bind_some, Option.pure_def]

theorem Agrees.confirmed (agrees : Agrees eigen u t) {configured : Configured ℚ}
    (read : (Arithmetic.exact eigen stod).readEntries [] t.projection.configured
      (split t.inputStr comma) = .ok configured) :
    Agrees eigen
      { u with
        rectangle := typedRectangle stod split u.inputStr <|> u.rectangle
        inputStr := [], menuMode := true }
      { t with projection := t.projection.withConfigured configured, inputStr := [], menuMode := true } := by
  obtain ⟨values, converts, rfl⟩ := (Arithmetic.readEntries_eq_ok_iff _ [] configured).mp read
  obtain ⟨pairs, mapped, same⟩ := mapM_of_converts converts
  rw [agrees.inputStr] at mapped
  refine ⟨rfl, rfl, fun r told => ?_, agrees.clicked, agrees.saved, agrees.written⟩
  rw [List.nil_append, Arithmetic.afterEntries]
  match pairs with
  | width :: height :: x :: y :: more =>
    subst same
    have typed : typedRectangle stod split u.inputStr = some ⟨width.1, height.1, x.1, y.1⟩ := by
      rw [typedRectangle, mapped]
    have first : ((width :: height :: x :: y :: more).map Prod.fst).take 4 =
        [width.1, height.1, x.1, y.1] := rfl
    simp only [typed, Option.orElse_eq_orElse, Option.orElse_some, Option.some.injEq] at told
    subst told
    rw [if_pos (by simp), first]
    exact congrArg Configured.aMatrix
      (exact_config eigen stod t.projection [width.1, height.1, x.1, y.1]).symm
  | [] | [_] | [_, _] | [_, _, _] =>
    subst same
    have typed : typedRectangle stod split u.inputStr = none := by
      rw [typedRectangle, mapped]
    rw [if_neg (by simp)]
    rw [typed] at told
    exact agrees.rectangle r told

/-- One pass. -/
theorem Agrees.step (agrees : Agrees eigen u t)
    (pass : t.step eigen stod split p = .ok (some (t', shown))) :
    Agrees eigen (u.step stod split p) t' := by
  unfold Tool.step at pass
  unfold Told.step
  dsimp only at pass ⊢
  by_cases menu : t.menuMode = true
  · rw [if_pos menu] at pass
    rw [if_pos (agrees.menuMode ▸ menu)]
    split at pass
    · case isTrue c =>
      cases pass
      rw [if_pos c]
      exact agrees.calibrated p.points p.mouse
    · case isFalse c =>
      rw [if_neg c]
      split at pass
      · case isTrue r =>
        cases pass
        rw [if_pos r]
        exact ⟨agrees.inputStr, rfl, agrees.rectangle, agrees.clicked, agrees.saved, agrees.written⟩
      · case isFalse r =>
        rw [if_neg r]
        split at pass
        · case isTrue e =>
          cases pass
          rw [if_neg (by rw [e]; decide)]
          exact agrees
        · case isFalse e =>
          split at pass
          · case isTrue s =>
            cases pass
            rw [if_pos s]
            exact agrees.saves p.opens
          · case isFalse s =>
            rw [if_neg s]
            -- what is left of the menu keeps everything
            split at pass
            · cases pass
              exact agrees
            · split at pass
              · cases pass
              · cases pass
                exact agrees
  · rw [if_neg menu] at pass
    rw [if_neg (agrees.menuMode ▸ menu)]
    split at pass
    · case isTrue back =>
      cases pass
      rw [if_pos back]
      exact ⟨congrArg List.dropLast agrees.inputStr, agrees.menuMode, agrees.rectangle,
        agrees.clicked, agrees.saved, agrees.written⟩
    · case isFalse back =>
      rw [if_neg back]
      split at pass
      · case isTrue confirms =>
        rw [if_pos confirms]
        split at pass
        · cases pass
        · case h_2 configured read =>
          cases pass
          exact agrees.confirmed read
      · case isFalse other =>
        cases pass
        rw [if_neg other]
        exact ⟨congrArg (· ++ [keyOf p.code]) agrees.inputStr, agrees.menuMode, agrees.rectangle,
          agrees.clicked, agrees.saved, agrees.written⟩

theorem Agrees.run (agrees : Agrees eigen u t) (passes : List Pass)
    (ran : Tool.run eigen stod split passes t = .ok (some t')) :
    Agrees eigen (passes.foldl (Told.step stod split) u) t' := by
  induction passes generalizing u t with
  | nil =>
    cases ran
    exact agrees
  | cons p passes ih =>
    rw [Tool.run] at ran
    split at ran
    · cases ran
    · cases ran
    · case h_3 next shown pass => exact ih (agrees.step pass) ran

/-- Nothing was told yet. -/
theorem agrees_start (eigen : Eigen) (menu : t.menuMode = true) (empty : t.inputStr = []) : Agrees eigen {} t :=
  ⟨empty, menu, by rintro _ ⟨⟩, by rintro _ ⟨⟩, by rintro _ ⟨⟩, by rintro _ ⟨⟩⟩

/-- Only left clicks are told. -/
structure Told.Left (u : Told) : Prop where
  clicked : ∀ p, u.clicked = some p → ∀ i, (p i).event = EVENT_LBUTTONDOWN
  saved : ∀ q, u.saved = some q → ∀ i, (q.2 i).event = EVENT_LBUTTONDOWN

theorem Told.Left.step (left : u.Left) (p : Pass) : (u.step stod split p).Left := by
  unfold Told.step
  dsimp only
  split
  · split
    · refine ⟨fun four clicked => ?_, left.saved⟩
      cases new : fourClicks p.mouse with
      | none => exact left.clicked four (by simpa [new] using clicked)
      | some four' =>
        obtain rfl : four' = four := by simpa [new] using clicked
        exact clicks_left_button (clicks_of_fourClicks new)
    · split
      · exact ⟨left.clicked, left.saved⟩
      · split
        · refine ⟨left.clicked, fun q saved => ?_⟩
          simp only [Option.bind_eq_some_iff, Option.map_eq_some_iff] at saved
          obtain ⟨r, -, four, clicked, rfl⟩ := saved
          exact left.clicked four clicked
        · exact left
  · split
    · exact ⟨left.clicked, left.saved⟩
    · split
      · exact ⟨left.clicked, left.saved⟩
      · exact ⟨left.clicked, left.saved⟩

theorem told_left (passes : List Pass) : (told stod split passes).Left := by
  have run : ∀ (passes : List Pass) {u : Told}, u.Left → (passes.foldl (Told.step stod split) u).Left := by
    intro passes
    induction passes with
    | nil => exact id
    | cons p passes ih => exact fun left => ih (left.step p)
  exact run passes ⟨by rintro _ ⟨⟩, by rintro _ ⟨⟩⟩

/-- In every run, whatever was typed, clicked, read and projected in it: once a rectangle with an
area and four clicks in general position were saved, projecting these clicks shows the corners of
that rectangle. -/
theorem run_projects (exact : eigen.Exact) {start : Tool} (menu : start.menuMode = true)
    (empty : start.inputStr = []) (passes : List Pass)
    (ran : Tool.run eigen stod split passes start = .ok (some t)) {r : Rectangle}
    {clicked : Fin 4 → MouseEvent} (saved : (told stod split passes).saved = some (r, clicked))
    (wide : r.width ≠ 0) (high : r.height ≠ 0) (general : Quadrangle fun i => (clicked i).pixel)
    (back : t.menuMode = true) (key : keyOf p.code = 0x70) :
    ∃ shown, t.step eigen stod split p = .ok (some (t, shown)) ∧
      ∀ i, clicked i ∈ p.mouse →
        ProjectsTo t.projection.projectionMatrix (clicked i) (r.corners i) ∧
          .point ![(r.corners i).1, (r.corners i).2, 1] ∈ shown := by
  have agrees := (agrees_start eigen menu empty).run passes ran
  have rectangle : Quadrangle r.corners := corners_general wide high
  refine ⟨t.project p.mouse, ?_, fun i there => ?_⟩
  · simp [Tool.step, back, key]
  · obtain ⟨factor, nonzero, maps⟩ := fourPoints_maps exact general rectangle i
    have projects : ProjectsTo t.projection.projectionMatrix (clicked i) (r.corners i) := by
      rw [agrees.saved _ saved, projectionOf]
      exact projectsTo_of_multiple ((told_left passes).saved _ saved i) nonzero maps
    exact ⟨projects, List.mem_map.mpr ⟨_, List.mem_filterMap.mpr ⟨_, there, projects.2⟩, rfl⟩⟩

/-- In every run, reading a file that was last written for such a rectangle and such clicks shows the
coefficients of the matrix that takes the clicks to the corners, each rounded to six digits, and
changes nothing. -/
theorem run_reads (exact : eigen.Exact) {start : Tool} (menu : start.menuMode = true)
    (empty : start.inputStr = []) (passes : List Pass)
    (ran : Tool.run eigen stod split passes start = .ok (some t)) {r : Rectangle}
    {clicked : Fin 4 → MouseEvent} (written : (told stod split passes).written = some (r, clicked))
    (wide : r.width ≠ 0) (high : r.height ≠ 0) (general : Quadrangle fun i => (clicked i).pixel)
    (back : t.menuMode = true) (key : keyOf p.code = 0x65) (opens : p.opens = true) :
    (∀ i, ∃ factor : ℚ, factor ≠ 0 ∧
      projectionOf eigen (r, clicked) *ᵥ homogeneous (clicked i).pixel =
        factor • homogeneous (r.corners i)) ∧
      t.step eigen stod split p = .ok (some (t, [.matrix
        (some ((coefficients (projectionOf eigen (r, clicked))).map (significant 5)))])) := by
  refine ⟨fourPoints_maps exact general (corners_general wide high), ?_⟩
  have agrees := (agrees_start eigen menu empty).run passes ran
  have items : extractMany 9 (matrixText (projectionOf eigen (r, clicked))) =
      some ((coefficients (projectionOf eigen (r, clicked))).map (significant 5)) :=
    extractMany_separated (p := 5) (c := space) (by decide) (coefficients (projectionOf eigen (r, clicked)))
  have shows : t.readMatrix true =
      [.matrix (some ((coefficients (projectionOf eigen (r, clicked))).map (significant 5)))] := by
    rw [Tool.readMatrix, if_pos rfl, agrees.written _ written]
    simp only [items]
  simp [Tool.step, back, key, opens, shows]

end Runs

/-! ## A run -/

/-- `std::stod` where the whole text is a number. -/
def stodWhole (text : Bytes) : Except StodException (ℚ × Nat) :=
  match stod text with
  | some (some value) => .ok (value, text.length)
  | _ => .error .invalid_argument

/-- A square is clicked, `2,3,10,-1` is typed, and both are saved. -/
def squareSaved : List Pass :=
  { code := 0x63, mouse := squareClicks } ::
    [0x72, 0x32, 0x2C, 0x33, 0x2C, 0x31, 0x30, 0x2C, 0x2D, 0x31, 0x20, 0x73].map
      fun code => { code := code }

def squareStart : Tool where
  projection := ⟨0, 0, 0, 0, 0, 0, 0⟩
  inputStr := []
  menuMode := true
  file := none

/-- The run goes on, in the menu. -/
theorem squareSaved_runs : ∃ t,
    Tool.run cramersRule stodWhole splitEverywhere squareSaved squareStart = .ok (some t) ∧
      t.menuMode = true := by
  have goes : (Tool.run cramersRule stodWhole splitEverywhere squareSaved squareStart).toOption.join.map
      Tool.menuMode = some true := by
    decide +kernel
  obtain ⟨t, there, menu⟩ := Option.map_eq_some_iff.mp goes
  cases ran : Tool.run cramersRule stodWhole splitEverywhere squareSaved squareStart with
  | error e =>
    rw [ran] at there
    cases there
  | ok result =>
    rw [ran] at there
    obtain rfl : result = some t := Option.join_eq_some_iff.mp there |> Option.some.inj
    exact ⟨t, rfl, menu⟩

def squarePixels : Fin 4 → MouseEvent := ![⟨1, 0, 100⟩, ⟨1, 100, 100⟩, ⟨1, 100, 0⟩, ⟨1, 0, 0⟩]

theorem squarePixels_general : Quadrangle fun i => (squarePixels i).pixel := by
  apply quadrangle_of_areas <;> decide +kernel

theorem told_square : (told stodWhole splitEverywhere squareSaved).saved =
      some (⟨2, 3, 10, -1⟩, squarePixels) ∧
    (told stodWhole splitEverywhere squareSaved).written = some (⟨2, 3, 10, -1⟩, squarePixels) := by
  decide +kernel

/-- Top-right of the square. -/
theorem run_projects_square : ∃ t shown,
    Tool.run cramersRule stodWhole splitEverywhere squareSaved squareStart = .ok (some t) ∧
      t.step cramersRule stodWhole splitEverywhere { code := 0x70, mouse := [⟨1, 100, 0⟩] } =
        .ok (some (t, shown)) ∧ .point ![13, -1, 1] ∈ shown := by
  obtain ⟨t, ran, menu⟩ := squareSaved_runs
  obtain ⟨shown, shows, corners⟩ := run_projects (p := { code := 0x70, mouse := [⟨1, 100, 0⟩] })
    cramersRule_exact rfl rfl squareSaved ran told_square.1 (by decide) (by decide) squarePixels_general menu rfl
  refine ⟨t, shown, ran, shows, ?_⟩
  have corner := (corners 2 (by decide)).2
  have there : (Rectangle.corners ⟨2, 3, 10, -1⟩ 2) = (13, -1) := by decide +kernel
  rwa [there] at corner

theorem run_reads_square : ∃ t,
    Tool.run cramersRule stodWhole splitEverywhere squareSaved squareStart = .ok (some t) ∧
      t.step cramersRule stodWhole splitEverywhere { code := 0x65 } = .ok (some (t,
        [.matrix (some ((coefficients (projectionOf cramersRule
          (⟨2, 3, 10, -1⟩, squarePixels))).map (significant 5)))])) := by
  obtain ⟨t, ran, menu⟩ := squareSaved_runs
  have reads := run_reads (p := { code := 0x65 }) cramersRule_exact rfl rfl squareSaved ran
    told_square.2 (by decide) (by decide) squarePixels_general menu rfl rfl
  exact ⟨t, ran, reads.2⟩

end OpendlvCore.CameraProjection
