import OpendlvCore.CameraProjection.Corners
import OpendlvCore.Loops
import OpendlvCore.Text

/-!
# Typing the rectangle

The configuration mode of `CameraProjection::body` and `Config` (`cameraprojection.cpp:190-311`),
over any arithmetic. Every pass of the loop waits a millisecond for a key, and a pass without one
is typed as well: `waitKey` then returns -1. Of the menu only what enters and leaves it is here;
the other entries work on other members.
-/
namespace OpendlvCore.CameraProjection
open CBytes CText

/-- What `std::stod` throws. -/
inductive StodException where
  | invalid_argument | out_of_range
  deriving DecidableEq, Repr

/-- What the tool computes with. -/
structure Arithmetic (D : Type) where
  one : D
  add : D → D → D
  mul : D → D → D
  /-- `q.colPivHouseholderQr().solve(w)` -/
  solve : Matrix (Fin 3) (Fin 3) D → (Fin 3 → D) → Fin 3 → D
  /-- `std::stod(text, &idx)`: the number and how many characters it was read from. -/
  stod : Bytes → Except StodException (D × Nat)

/-- The rectangle and `m_aMatrix`. -/
structure Configured (D : Type) where
  recHeight : D
  recWidth : D
  recPosX : D
  recPosY : D
  aMatrix : Matrix (Fin 3) (Fin 3) D

/-- The state of `body` at the head of its loop. -/
structure BodyState (D : Type) where
  configured : Configured D
  inputStr : Bytes
  menuMode : Bool

def comma : UInt8 := 0x2C
def backspace : UInt8 := 8
def carriageReturn : UInt8 := 13
def space : UInt8 := 32

/-- `(char) cv::waitKey(1)` -/
def keyOf (code : Int32) : UInt8 := UInt8.ofInt code.toInt

namespace Arithmetic
variable {D : Type} (a : Arithmetic D) (split : Bytes → UInt8 → List Bytes)

def config (c : Configured D) (param : List D) : Configured D :=
  match param with
  | [recWidth, recHeight, recPosX, recPosY] =>
    let right := a.add recPosX recHeight
    let bottom := a.add recPosY recWidth
    let q := !![recPosX, recPosX, right;
                bottom, recPosY, recPosY;
                a.one, a.one, a.one]
    let w := ![right, bottom, a.one]
    let scale := a.solve q w
    { recWidth, recHeight, recPosX, recPosY, aMatrix := Matrix.of fun i j => a.mul (scale j) (q i j) }
  | _ => c

/-- The loop over the entries, which calls `Config` behind each of them. The handler is for
`cv::Exception`, so what `stod` throws goes past it. -/
def readEntries (valList : List D) (c : Configured D) :
    List Bytes → Except StodException (Configured D)
  | [] => .ok c
  | str :: strList =>
    match a.stod str with
    | .error e => .error e
    | .ok (value, _) =>
      readEntries (valList ++ [value]) (a.config c (valList ++ [value])) strList

/-- One pass of the loop; `none` when `body` returns. -/
def step (code : Int32) (b : BodyState D) : Except StodException (Option (BodyState D)) :=
  let key := keyOf code
  if b.menuMode then
    -- 'r', 'q' and the escape key
    if key = 0x72 then .ok (some { b with menuMode := false })
    else if key = 0x71 ∨ key = 27 then .ok none
    else .ok (some b)
  else if key = backspace then .ok (some { b with inputStr := b.inputStr.dropLast })
  else if key = carriageReturn ∨ key = space then
    match a.readEntries [] b.configured (split b.inputStr comma) with
    | .error e => .error e
    | .ok configured => .ok (some { configured, inputStr := [], menuMode := true })
  else .ok (some { b with inputStr := b.inputStr ++ [key] })

/-- The passes of the loop while the module is running. -/
def run : List Int32 → BodyState D → Except StodException (Option (BodyState D))
  | [], b => .ok (some b)
  | code :: codes, b =>
    match a.step split code b with
    | .error e => .error e
    | .ok none => .ok none
    | .ok (some b) => run codes b

/-- The arithmetic of exact numbers. -/
def exact (eigen : Eigen) (stod : Bytes → Except StodException (ℚ × Nat)) : Arithmetic ℚ where
  one := 1
  add := (· + ·)
  mul := (· * ·)
  solve := eigen.solve
  stod := stod

end Arithmetic

def Projection.configured (c : Projection) : Configured ℚ where
  recHeight := c.recHeight
  recWidth := c.recWidth
  recPosX := c.recPosX
  recPosY := c.recPosY
  aMatrix := c.aMatrix

/-- `Config` on exact numbers is `Config` over exact arithmetic. -/
theorem exact_config (eigen : Eigen) (stod : Bytes → Except StodException (ℚ × Nat))
    (c : Projection) (param : List ℚ) :
    (config eigen c param).configured =
      (Arithmetic.exact eigen stod).config c.configured param := by
  unfold config Arithmetic.config
  split
  · rfl
  · case _ other =>
      split
      · exact absurd rfl (other _ _ _ _)
      · rfl

/-! ## What is typed -/

/-- The key ends the input. -/
def Confirms (code : Int32) : Prop := keyOf code = carriageReturn ∨ keyOf code = space

instance (code : Int32) : Decidable (Confirms code) := inferInstanceAs (Decidable (_ ∨ _))

def typeKey (text : Bytes) (code : Int32) : Bytes :=
  if keyOf code = backspace then text.dropLast else text ++ [keyOf code]

/-- What `m_inputStr` holds of a sequence of passes. -/
def inputOf (codes : List Int32) : Bytes := codes.foldl typeKey []

/-- What was typed: the passes without a key do not count. -/
def typedText (codes : List Int32) : Bytes := inputOf (codes.filter fun code => code ≠ -1)

/-- The state when the configuration mode has just been entered. -/
def entered {D : Type} (c : Configured D) : BodyState D where
  configured := c
  inputStr := []
  menuMode := false

namespace Arithmetic
variable {D : Type} {a : Arithmetic D} {split : Bytes → UInt8 → List Bytes} {c : Configured D}
  {codes more : List Int32} {code : Int32} {b : BodyState D} {text : Bytes}

theorem run_append (codes more : List Int32) (b : BodyState D) :
    a.run split (codes ++ more) b =
      match a.run split codes b with
      | .error e => .error e
      | .ok none => .ok none
      | .ok (some b) => a.run split more b := by
  induction codes generalizing b with
  | nil => rfl
  | cons code codes ih =>
    rw [List.cons_append, run, run]
    cases a.step split code b with
    | error e => rfl
    | ok after =>
      cases after with
      | none => rfl
      | some b => exact ih b

/-- In menu mode the input line is empty. -/
theorem step_input_empty {after : BodyState D} (pass : a.step split code b = .ok (some after))
    (before : b.menuMode = true → b.inputStr = []) : after.menuMode = true → after.inputStr = [] := by
  intro menu
  unfold step at pass
  dsimp only at pass
  split at pass
  · case isTrue inMenu =>
      split at pass
      · cases pass
        cases menu
      · split at pass
        · cases pass
        · cases pass
          exact before inMenu
  · case isFalse typing =>
      split at pass
      · cases pass
        exact absurd menu typing
      · split at pass
        · split at pass
          · cases pass
          · cases pass
            rfl
        · cases pass
          exact absurd menu typing

theorem run_input_empty {after : BodyState D} (ran : a.run split codes b = .ok (some after))
    (start : b.menuMode = true → b.inputStr = []) : after.menuMode = true → after.inputStr = [] := by
  induction codes generalizing b with
  | nil =>
    cases ran
    exact start
  | cons code codes ih =>
    rw [run] at ran
    cases pass : a.step split code b with
    | error e => simp [pass] at ran
    | ok next =>
      cases next with
      | none => simp [pass] at ran
      | some next =>
        simp only [pass] at ran
        exact ih ran (step_input_empty pass start)

/-- So the configuration mode is always entered with an empty line. -/
theorem step_enters {after : BodyState D} (ran : a.run split codes b = .ok (some after))
    (start : b.menuMode = true → b.inputStr = []) (menu : after.menuMode = true)
    (key : keyOf code = 0x72) :
    a.step split code after = .ok (some (entered after.configured)) := by
  have empty := run_input_empty ran start menu
  simp [step, menu, key, entered, empty]

/-- Keys that do not confirm are collected. -/
theorem run_typing (free : ∀ code ∈ codes, ¬ Confirms code) (text : Bytes) :
    a.run split codes { configured := c, inputStr := text, menuMode := false } =
      .ok (some { configured := c, inputStr := codes.foldl typeKey text, menuMode := false }) := by
  induction codes generalizing text with
  | nil => rfl
  | cons code codes ih =>
    have here : a.step split code { configured := c, inputStr := text, menuMode := false } =
        .ok (some { configured := c, inputStr := typeKey text code, menuMode := false }) := by
      have other := free code List.mem_cons_self
      unfold Confirms at other
      by_cases back : keyOf code = backspace
      · simp [step, typeKey, back]
      · simp [step, typeKey, back, other]
    rw [run, here, List.foldl_cons]
    exact ih (fun code inside => free code (List.mem_cons_of_mem _ inside)) _

theorem run_confirmed (free : ∀ code ∈ codes, ¬ Confirms code) (confirms : Confirms code) :
    a.run split (codes ++ [code]) (entered c) =
      match a.readEntries [] c (split (inputOf codes) comma) with
      | .error e => .error e
      | .ok configured => .ok (some { configured, inputStr := [], menuMode := true }) := by
  have other : keyOf code ≠ backspace := by
    rcases confirms with same | same <;> rw [same] <;> decide
  unfold Confirms at confirms
  rw [run_append, entered, run_typing free, ← inputOf]
  simp only [run, step, Bool.false_eq_true, if_false, other, confirms, if_true]
  cases a.readEntries [] c (split (inputOf codes) comma) <;> rfl

/-! ## The entries -/

/-- `stod` makes a number of the entry, whatever stands behind it. -/
def Converts (a : Arithmetic D) (entry : Bytes) (value : D) : Prop := ∃ idx, a.stod entry = .ok (value, idx)

/-- What calling `Config` behind every entry comes to. -/
def afterEntries (a : Arithmetic D) (c : Configured D) (values : List D) : Configured D :=
  if 4 ≤ values.length then a.config c (values.take 4) else c

theorem config_of_length_ne {values : List D} (other : values.length ≠ 4) : a.config c values = c := by
  unfold config
  split
  · exact absurd rfl other
  · rfl

/-- The fourth value takes effect, and no other one. -/
theorem config_afterEntries (values : List D) (value : D) :
    a.config (a.afterEntries c values) (values ++ [value]) = a.afterEntries c (values ++ [value]) := by
  have size : (values ++ [value]).length = values.length + 1 := by simp
  unfold afterEntries
  rcases Nat.lt_trichotomy values.length 3 with few | three | many
  · rw [if_neg (by omega), if_neg (by omega), config_of_length_ne (by omega)]
  · rw [if_neg (by omega), if_pos (by omega), List.take_of_length_le (by omega)]
  · rw [if_pos (by omega), if_pos (by omega), config_of_length_ne (by omega),
      List.take_append_of_le_length (by omega)]

/-- The loop comes to an end exactly when every entry is converted. -/
theorem readEntries_eq_ok_iff (strList : List Bytes) (valList : List D) (c' : Configured D) :
    a.readEntries valList (a.afterEntries c valList) strList = .ok c' ↔
      ∃ values, List.Forall₂ a.Converts strList values ∧ c' = a.afterEntries c (valList ++ values) := by
  induction strList generalizing valList with
  | nil => simp [readEntries, eq_comm]
  | cons str strList ih =>
    rw [readEntries]
    cases converted : a.stod str with
    | error e =>
      constructor
      · intro ended
        cases ended
      · rintro ⟨values, converts, _⟩
        cases converts with
        | cons here _ =>
          obtain ⟨idx, here⟩ := here
          rw [converted] at here
          cases here
    | ok result =>
      obtain ⟨value, idx⟩ := result
      simp only
      rw [config_afterEntries, ih]
      constructor
      · rintro ⟨values, converts, same⟩
        refine ⟨value :: values, .cons ⟨idx, converted⟩ converts, ?_⟩
        rw [same, List.append_assoc, List.singleton_append]
      · rintro ⟨values, converts, same⟩
        cases converts with
        | cons here rest =>
          obtain ⟨idx', here⟩ := here
          rw [converted] at here
          cases here
          refine ⟨_, rest, ?_⟩
          rw [same, List.append_assoc, List.singleton_append]

/-! ## All or nothing -/

/-- A number is read to the last character of its entry. -/
def number (a : Arithmetic D) (entry : Bytes) : Option D :=
  match a.stod entry with
  | .ok (value, idx) => if idx = entry.length then some value else none
  | .error _ => none

/-- The numbers of a text of exactly four numbers with commas between them. -/
def fourNumbers (a : Arithmetic D) (text : Bytes) : Option (List D) :=
  if (text.splitOn comma).length = 4 then (text.splitOn comma).mapM a.number else none

/-- What typing and confirming owes: four numbers are taken, any other text changes nothing, and
either way the line is cleared and the menu is back. -/
def AllOrNothing (a : Arithmetic D) (split : Bytes → UInt8 → List Bytes) (c : Configured D)
    (codes : List Int32) (code : Int32) : Prop :=
  a.run split (codes ++ [code]) (entered c) = .ok (some {
    configured := (a.fourNumbers (typedText codes)).elim c (a.config c)
    inputStr := []
    menuMode := true })

/-- The first four of the values, if there are as many. -/
def firstFour (values : List D) : Option (List D) :=
  if 4 ≤ values.length then some (values.take 4) else none

theorem afterEntries_eq (values : List D) :
    a.afterEntries c values = (firstFour values).elim c (a.config c) := by
  unfold afterEntries firstFour
  split <;> rfl

/-- For one rectangle and matrix to begin with. -/
theorem allOrNothing_iff (free : ∀ code ∈ codes, ¬ Confirms code) (confirms : Confirms code) :
    a.AllOrNothing split c codes code ↔
      ∃ values, List.Forall₂ a.Converts (split (inputOf codes) comma) values ∧
        (firstFour values).elim c (a.config c) =
          (a.fourNumbers (typedText codes)).elim c (a.config c) := by
  unfold AllOrNothing
  rw [run_confirmed free confirms]
  generalize (a.fourNumbers (typedText codes)).elim c (a.config c) = owed
  have owes : a.readEntries [] c (split (inputOf codes) comma) = .ok owed ↔
      ∃ values, List.Forall₂ a.Converts (split (inputOf codes) comma) values ∧
        (firstFour values).elim c (a.config c) = owed := by
    have read := readEntries_eq_ok_iff (a := a) (c := c) (split (inputOf codes) comma) [] owed
    simpa [afterEntries_eq, firstFour, eq_comm] using read
  rw [← owes]
  cases a.readEntries [] c (split (inputOf codes) comma) <;> simp

/-! ### Telling one rectangle from another -/

theorem config_injective {values values' : List D} (four : values.length = 4)
    (four' : values'.length = 4) (same : a.config c values = a.config c values') :
    values = values' := by
  obtain ⟨width, height, x, y, rfl⟩ := List.length_eq_four.mp four
  obtain ⟨width', height', x', y', rfl⟩ := List.length_eq_four.mp four'
  have widths : width = width' := congrArg Configured.recWidth same
  have heights : height = height' := congrArg Configured.recHeight same
  have xs : x = x' := congrArg Configured.recPosX same
  have ys : y = y' := congrArg Configured.recPosY same
  rw [widths, heights, xs, ys]

/-- Some rectangle is not the configured one. -/
theorem exists_config_ne [Nontrivial D] (a : Arithmetic D) {values : List D} (four : values.length = 4) :
    ∃ c, a.config c values ≠ c := by
  obtain ⟨width, height, x, y, rfl⟩ := List.length_eq_four.mp four
  obtain ⟨other, different⟩ := exists_ne width
  refine ⟨⟨other, other, other, other, Matrix.of fun _ _ => other⟩, fun same => ?_⟩
  exact different (congrArg Configured.recWidth same).symm

/-- What is taken can be told from the rectangles that result. -/
theorem taken_eq [Nontrivial D] {taken taken' : Option (List D)}
    (four : ∀ values ∈ taken, values.length = 4) (four' : ∀ values ∈ taken', values.length = 4)
    (same : ∀ c, taken.elim c (a.config c) = taken'.elim c (a.config c)) : taken = taken' := by
  cases taken with
  | none =>
    cases taken' with
    | none => rfl
    | some values' =>
      obtain ⟨c, changed⟩ := exists_config_ne a (four' values' rfl)
      exact absurd (same c).symm changed
  | some values =>
    cases taken' with
    | none =>
      obtain ⟨c, changed⟩ := exists_config_ne a (four values rfl)
      exact absurd (same c) changed
    | some values' =>
      obtain ⟨c, _⟩ := exists_config_ne a (four values rfl)
      rw [config_injective (four values rfl) (four' values' rfl) (same c)]

/-! ### The condition -/

/-- The input line is read as what was typed: `stod` takes every entry of it, the first four make
the four numbers, and where there are not four numbers there are not four entries. -/
structure ReadAsTyped (a : Arithmetic D) (split : Bytes → UInt8 → List Bytes) (codes : List Int32) :
    Prop where
  converts : ∀ entry ∈ split (inputOf codes) comma, ∃ value, a.Converts entry value
  numbers : ∀ values, a.fourNumbers (typedText codes) = some values →
    List.Forall₂ a.Converts ((split (inputOf codes) comma).take 4) values
  few : a.fourNumbers (typedText codes) = none → (split (inputOf codes) comma).length < 4

theorem rightUnique_converts : Relator.RightUnique a.Converts := by
  rintro entry value value' ⟨idx, here⟩ ⟨idx', here'⟩
  rw [here] at here'
  cases here'
  rfl

theorem length_fourNumbers : ∀ values ∈ a.fourNumbers text, values.length = 4 := by
  intro values taken
  unfold fourNumbers at taken
  split at taken
  · case isTrue four =>
      rw [← four]
      exact (CLoop.forall₂_of_mapM taken).length_eq.symm
  · cases taken

theorem length_firstFour {values : List D} : ∀ taken ∈ firstFour values, taken.length = 4 := by
  intro taken first
  unfold firstFour at first
  split at first
  · cases first
    rw [List.length_take]
    omega
  · cases first

/-- The values of the entries decide. -/
theorem readAsTyped_iff [Nonempty D] : a.ReadAsTyped split codes ↔
    ∃ values, List.Forall₂ a.Converts (split (inputOf codes) comma) values ∧
      firstFour values = a.fourNumbers (typedText codes) := by
  generalize entriesAre : split (inputOf codes) comma = entries
  constructor
  · rintro ⟨converts, numbers, few⟩
    rw [entriesAre] at converts numbers few
    choose! value converts using converts
    have all : List.Forall₂ a.Converts entries (entries.map value) :=
      List.forall₂_map_right_iff.mpr (List.forall₂_same.mpr converts)
    refine ⟨entries.map value, all, ?_⟩
    unfold firstFour
    rw [List.length_map]
    cases typed : a.fourNumbers (typedText codes) with
    | none =>
      have := few typed
      rw [if_neg (by omega)]
    | some taken =>
      have first := numbers taken typed
      have four := first.length_eq
      rw [length_fourNumbers taken typed, List.length_take] at four
      rw [if_pos (by omega),
        rightUnique_converts.forall₂ (List.forall₂_take 4 all) first]
  · rintro ⟨values, all, same⟩
    have size := all.length_eq
    unfold firstFour at same
    refine ⟨?_, ?_, ?_⟩
    · rw [entriesAre]
      intro entry member
      obtain ⟨i, inside, rfl⟩ := List.getElem_of_mem member
      exact ⟨_, all.get inside (size ▸ inside)⟩
    · rw [entriesAre]
      intro taken typed
      rw [typed] at same
      split at same
      · cases same
        exact List.forall₂_take 4 all
      · cases same
    · rw [entriesAre]
      intro typed
      rw [typed] at same
      split at same
      · cases same
      · omega

theorem converts_of_number {entry : Bytes} {value : D} (whole : a.number entry = some value) :
    a.Converts entry value := by
  unfold number at whole
  split at whole
  · case _ idx read =>
      split at whole
      · cases whole
        exact ⟨_, read⟩
      · cases whole
  · cases whole

theorem fourNumbers_isSome_iff (text : Bytes) : (a.fourNumbers text).isSome ↔
    (text.splitOn comma).length = 4 ∧ ∀ entry ∈ text.splitOn comma, ∃ value, a.number entry = some value := by
  unfold fourNumbers
  split
  · case isTrue four =>
      rw [and_iff_right four, Option.isSome_iff_exists]
      exact CLoop.exists_mapM_iff
  · case isFalse other =>
      simp [other]

/-- Where a key came in every pass and something was typed: every entry is converted, and there
are fewer than four or exactly four that are numbers to the last character. -/
theorem readAsTyped_keys_iff (splits : Splits split) (keys : ∀ code ∈ codes, code ≠ -1)
    (content : inputOf codes ≠ []) :
    a.ReadAsTyped split codes ↔
      (∀ entry ∈ (inputOf codes).splitOn comma, ∃ value, a.Converts entry value) ∧
        (((inputOf codes).splitOn comma).length < 4 ∨
          ((inputOf codes).splitOn comma).length = 4 ∧
            ∀ entry ∈ (inputOf codes).splitOn comma, ∃ value, a.number entry = some value) := by
  have typed : typedText codes = inputOf codes := by
    rw [typedText, List.filter_eq_self.mpr]
    simpa using keys
  have whole := fourNumbers_isSome_iff (a := a) (inputOf codes)
  rw [← splits.entries _ _ content] at whole ⊢
  rw [← whole]
  constructor
  · rintro ⟨converts, _, few⟩
    refine ⟨converts, ?_⟩
    rw [typed] at few
    cases taken : a.fourNumbers (inputOf codes) with
    | none => exact .inl (few taken)
    | some values => exact .inr rfl
  · rintro ⟨converts, few | four⟩
    · refine ⟨converts, ?_, fun _ => few⟩
      intro values taken
      rw [typed] at taken
      have four := (whole.mp (by rw [taken]; rfl)).1
      omega
    · refine ⟨converts, ?_, ?_⟩
      · intro values taken
        rw [typed] at taken
        unfold fourNumbers at taken
        rw [← splits.entries _ _ content] at taken
        split at taken
        · case isTrue length =>
            rw [List.take_of_length_le (by omega)]
            exact (CLoop.forall₂_of_mapM taken).imp fun _ _ whole => converts_of_number whole
        · cases taken
      · intro none
        rw [typed] at none
        rw [none] at four
        cases four

/-- Typing and confirming is all or nothing, whatever the rectangle was, exactly when the input
line is read as what was typed. -/
theorem input_all_or_nothing_iff [Nontrivial D] (a : Arithmetic D)
    (split : Bytes → UInt8 → List Bytes) (free : ∀ code ∈ codes, ¬ Confirms code)
    (confirms : Confirms code) :
    (∀ c, a.AllOrNothing split c codes code) ↔ a.ReadAsTyped split codes := by
  simp only [allOrNothing_iff free confirms]
  rw [readAsTyped_iff]
  constructor
  · intro owed
    obtain ⟨c⟩ : Nonempty (Configured D) :=
      ⟨⟨a.one, a.one, a.one, a.one, Matrix.of fun _ _ => a.one⟩⟩
    obtain ⟨values, converts, _⟩ := owed c
    refine ⟨values, converts, taken_eq (a := a) length_firstFour length_fourNumbers fun c => ?_⟩
    obtain ⟨values', converts', same⟩ := owed c
    rw [rightUnique_converts.forall₂ converts converts']
    exact same
  · rintro ⟨values, converts, same⟩ c
    exact ⟨values, converts, by rw [same]⟩

end Arithmetic

/-! ## Typing at an exact tool -/

/-- `std::stod` where a text begins with digits or with nothing that makes a number. -/
def readDigits (text : Bytes) : Except StodException (ℚ × Nat) :=
  let digits := (spanDigits decimalDigit text).1
  if digits = [] then .error .invalid_argument else .ok (digitsValue 10 digits, digits.length)

def exactTool : Arithmetic ℚ := Arithmetic.exact cramersRule readDigits

/-- A letter ends `body`. -/
theorem letter_ends_body (c : Configured ℚ) :
    exactTool.run splitEverywhere [0x61, 13] (entered c) = .error .invalid_argument := rfl

theorem letter_not_all_or_nothing :
    ¬ ∀ (D : Type) (a : Arithmetic D) (split : Bytes → UInt8 → List Bytes) (c : Configured D)
      (codes : List Int32) (code : Int32), Splits split → (∀ code ∈ codes, ¬ Confirms code) →
      Confirms code → a.AllOrNothing split c codes code := by
  intro always
  have owed := always ℚ exactTool splitEverywhere ⟨0, 0, 0, 0, 0⟩ [0x61] 13
    splits_splitEverywhere (List.forall_mem_singleton.mpr (by decide)) (by decide)
  unfold Arithmetic.AllOrNothing at owed
  rw [List.singleton_append, letter_ends_body] at owed
  cases owed

/-- `1,2,3,4` and return. -/
theorem input_all_or_nothing_fourDigits :
    exactTool.AllOrNothing splitEverywhere ⟨0, 0, 0, 0, 0⟩
      [0x31, 0x2C, 0x32, 0x2C, 0x33, 0x2C, 0x34] 13 := by
  have entries : (inputOf [0x31, 0x2C, 0x32, 0x2C, 0x33, 0x2C, 0x34]).splitOn comma =
      [[0x31], [0x32], [0x33], [0x34]] := by decide
  have numbers : ∀ entry ∈ [[0x31], [0x32], [0x33], [0x34]], ∃ value,
      exactTool.number entry = some value := by
    simp only [List.forall_mem_cons]
    exact ⟨⟨_, rfl⟩, ⟨_, rfl⟩, ⟨_, rfl⟩, ⟨_, rfl⟩, by simp⟩
  have free : ∀ code ∈ [0x31, 0x2C, 0x32, 0x2C, 0x33, 0x2C, 0x34], ¬ Confirms code := by
    simp only [List.forall_mem_cons, List.not_mem_nil, IsEmpty.forall_iff, implies_true]
    decide
  have keys : ∀ code ∈ ([0x31, 0x2C, 0x32, 0x2C, 0x33, 0x2C, 0x34] : List Int32), code ≠ -1 := by
    simp only [List.forall_mem_cons, List.not_mem_nil, IsEmpty.forall_iff, implies_true]
    decide
  refine (Arithmetic.input_all_or_nothing_iff exactTool splitEverywhere free (by decide)).mpr ?_ _
  rw [Arithmetic.readAsTyped_keys_iff splits_splitEverywhere keys (by decide), entries]
  refine ⟨fun entry member => ?_, .inr ⟨rfl, numbers⟩⟩
  obtain ⟨value, whole⟩ := numbers entry member
  exact ⟨value, Arithmetic.converts_of_number whole⟩

end OpendlvCore.CameraProjection
