import Mathlib.Data.Int.Log
import Mathlib.Data.List.DropRight
import OpendlvCore.Text

/-!
# Numbers with a few significant digits

What `operator<<` writes of a floating-point number (the conversion `%g` of `printf`), and what
`stod` reads there: the number rounded to its first `p + 1` decimal digits, halves to the even
digit. Numbers are exact. Rounding is monotone and rounds nothing twice, so that numbers that are
written and read again and again change once at most, and extremes are those of the rounded
numbers.
-/
namespace SignificantDigits
open CBytes CText

/-! ## Rounding to an integer -/

/-- The nearest integer, halves to the even one. -/
def roundEven (x : ℚ) : ℤ :=
  if x - ⌊x⌋ < 1 / 2 then ⌊x⌋
  else if 1 / 2 < x - ⌊x⌋ then ⌊x⌋ + 1
  else ⌊x⌋ + ⌊x⌋ % 2

section Integers
variable {x y : ℚ}

theorem roundEven_near (x : ℚ) : |(roundEven x : ℚ) - x| ≤ 1 / 2 := by
  have low := Int.floor_le x
  have high := Int.lt_floor_add_one x
  have parity : (⌊x⌋ % 2 : ℤ) = 0 ∨ (⌊x⌋ % 2 : ℤ) = 1 := Int.emod_two_eq_zero_or_one _
  unfold roundEven
  rw [abs_le]
  split
  · case isTrue below => constructor <;> linarith
  · case isFalse notBelow =>
    split
    · case isTrue above =>
      push_cast
      constructor <;> linarith
    · case isFalse notAbove =>
      rcases parity with even | odd
      · rw [even]
        push_cast
        constructor <;> linarith
      · rw [odd]
        push_cast
        constructor <;> linarith

theorem roundEven_intCast (n : ℤ) : roundEven n = n := by
  simp [roundEven]

/-- The two values that are farthest from each other meet in one half. -/
theorem roundEven_mono (le : x ≤ y) : roundEven x ≤ roundEven y := by
  by_contra! less
  have left := (abs_le.mp (roundEven_near x)).2
  have right := (abs_le.mp (roundEven_near y)).1
  have step : (roundEven y : ℚ) + 1 ≤ roundEven x := by exact_mod_cast less
  obtain rfl : x = y := by linarith
  exact lt_irrefl _ less

theorem le_roundEven {n : ℤ} (le : (n : ℚ) ≤ x) : n ≤ roundEven x := by
  have mono := roundEven_mono le
  rwa [roundEven_intCast] at mono

theorem roundEven_le {n : ℤ} (le : x ≤ n) : roundEven x ≤ n := by
  have mono := roundEven_mono le
  rwa [roundEven_intCast] at mono

end Integers

/-! ## Rounding to digits -/

/-- The power of ten of the first digit. -/
def decade (x : ℚ) : ℤ := Int.log 10 x

/-- The first `p + 1` digits of a number that is not negative. -/
def leading (p : ℕ) (x : ℚ) : ℤ := roundEven (x / 10 ^ (decade x - p))

def roundMagnitude (p : ℕ) (x : ℚ) : ℚ := leading p x * 10 ^ (decade x - p)

/-- A number rounded to `p + 1` digits. -/
def significant (p : ℕ) (x : ℚ) : ℚ :=
  if x < 0 then -roundMagnitude p (-x) else roundMagnitude p x

section Rounded
variable {p : ℕ} {x y : ℚ} {e : ℤ}

theorem power_pos (e : ℤ) : (0 : ℚ) < 10 ^ e := zpow_pos (by norm_num) e

theorem power_split (p : ℕ) (e : ℤ) : (10 : ℚ) ^ p * 10 ^ (e - p) = 10 ^ e := by
  rw [← zpow_natCast, ← zpow_add₀ (by norm_num)]
  congr 1
  omega

theorem decade_le (positive : 0 < x) : (10 : ℚ) ^ decade x ≤ x := by
  have low := Int.zpow_log_le_self (b := 10) (by norm_num) positive
  exact_mod_cast low

theorem lt_decade_succ (x : ℚ) : x < (10 : ℚ) ^ (decade x + 1) := by
  have high := Int.lt_zpow_succ_log_self (b := 10) (by norm_num) x
  exact_mod_cast high

theorem decade_eq (low : (10 : ℚ) ^ e ≤ x) (high : x < 10 ^ (e + 1)) : decade x = e := by
  have positive : 0 < x := lt_of_lt_of_le (power_pos e) low
  have least : e ≤ decade x :=
    (Int.zpow_le_iff_le_log (b := 10) (by norm_num) positive).mp (by exact_mod_cast low)
  have most : decade x < e + 1 :=
    (Int.lt_zpow_iff_log_lt (b := 10) (by norm_num) positive).mp (by exact_mod_cast high)
  omega

theorem leading_ge (positive : 0 < x) : (10 ^ p : ℤ) ≤ leading p x := by
  apply le_roundEven
  rw [le_div_iff₀ (power_pos _)]
  push_cast
  rw [power_split]
  exact decade_le positive

theorem leading_le (x : ℚ) : leading p x ≤ 10 ^ (p + 1) := by
  apply roundEven_le
  rw [div_le_iff₀ (power_pos _)]
  push_cast
  rw [pow_succ', mul_assoc, power_split, mul_comm, ← zpow_add_one₀ (by norm_num)]
  exact (lt_decade_succ x).le

theorem leading_nonneg (nonneg : 0 ≤ x) : 0 ≤ leading p x := by
  apply le_roundEven
  have positive := power_pos (decade x - p)
  push_cast
  positivity

theorem roundMagnitude_zero : roundMagnitude p 0 = 0 := by
  have zero : leading p 0 = 0 := by
    rw [leading, zero_div]
    exact roundEven_intCast 0
  rw [roundMagnitude, zero, Int.cast_zero, zero_mul]

theorem roundMagnitude_nonneg (nonneg : 0 ≤ x) : 0 ≤ roundMagnitude p x := by
  have digits : (0 : ℚ) ≤ leading p x := by exact_mod_cast leading_nonneg nonneg
  exact mul_nonneg digits (power_pos _).le

theorem roundMagnitude_ge (positive : 0 < x) : (10 : ℚ) ^ decade x ≤ roundMagnitude p x := by
  have digits : (10 ^ p : ℚ) ≤ leading p x := by exact_mod_cast leading_ge positive
  rw [roundMagnitude, ← power_split p]
  exact mul_le_mul_of_nonneg_right digits (power_pos _).le

theorem roundMagnitude_le (x : ℚ) : roundMagnitude p x ≤ 10 ^ (decade x + 1) := by
  have digits : (leading p x : ℚ) ≤ 10 ^ (p + 1) := by exact_mod_cast leading_le x
  calc roundMagnitude p x
      ≤ 10 ^ (p + 1) * 10 ^ (decade x - p) := mul_le_mul_of_nonneg_right digits (power_pos _).le
    _ = 10 ^ (decade x + 1) := by
      rw [pow_succ', mul_assoc, power_split, mul_comm, ← zpow_add_one₀ (by norm_num)]

/-- Numbers of different decades are kept apart by the power of ten between them. -/
theorem roundMagnitude_mono (nonneg : 0 ≤ x) (le : x ≤ y) :
    roundMagnitude p x ≤ roundMagnitude p y := by
  rcases nonneg.eq_or_lt with rfl | positive
  · rw [roundMagnitude_zero]
    exact roundMagnitude_nonneg le
  have order : decade x ≤ decade y := Int.log_mono_right positive le
  rcases order.eq_or_lt with same | before
  · have scaled : x / 10 ^ (decade x - p) ≤ y / 10 ^ (decade x - p) :=
      div_le_div_of_nonneg_right le (power_pos _).le
    have digits : (leading p x : ℚ) ≤ leading p y := by
      rw [leading, leading, ← same]
      exact_mod_cast roundEven_mono scaled
    rw [roundMagnitude, roundMagnitude, ← same]
    exact mul_le_mul_of_nonneg_right digits (power_pos _).le
  · calc roundMagnitude p x
        ≤ 10 ^ (decade x + 1) := roundMagnitude_le x
      _ ≤ 10 ^ decade y := zpow_le_zpow_right₀ (by norm_num) before
      _ ≤ roundMagnitude p y := roundMagnitude_ge (positive.trans_le le)

/-- What is in the steps of its decade stays as it is. -/
theorem roundMagnitude_fixed {n : ℤ} (decade : decade x = e) (steps : x = n * 10 ^ (e - p)) :
    roundMagnitude p x = x := by
  have digits : leading p x = n := by
    rw [leading, decade, steps, mul_div_assoc, div_self (power_pos _).ne', mul_one]
    exact roundEven_intCast n
  rw [roundMagnitude, decade, digits, ← steps]

theorem roundMagnitude_idempotent (nonneg : 0 ≤ x) :
    roundMagnitude p (roundMagnitude p x) = roundMagnitude p x := by
  rcases nonneg.eq_or_lt with rfl | positive
  · rw [roundMagnitude_zero, roundMagnitude_zero]
  rcases (roundMagnitude_le (p := p) x).eq_or_lt with carried | within
  · -- all digits were nines: the result is the next power of ten
    rw [carried]
    have next : decade ((10 : ℚ) ^ (decade x + 1)) = decade x + 1 := by
      apply decade_eq (le_refl _)
      rw [zpow_add_one₀ (by norm_num) (decade x + 1)]
      linarith [power_pos (decade x + 1)]
    apply roundMagnitude_fixed (n := 10 ^ p) next
    push_cast
    rw [power_split]
  · exact roundMagnitude_fixed (decade_eq (roundMagnitude_ge positive) within) rfl

theorem significant_of_nonneg (nonneg : 0 ≤ x) : significant p x = roundMagnitude p x := by
  rw [significant, if_neg (not_lt.mpr nonneg)]

theorem significant_neg (x : ℚ) : significant p (-x) = -significant p x := by
  rcases lt_trichotomy x 0 with negative | rfl | positive
  · rw [significant, significant, if_neg (by linarith), if_pos negative, neg_neg]
  · rw [neg_zero, significant_of_nonneg le_rfl, roundMagnitude_zero, neg_zero]
  · rw [significant, significant, if_pos (by linarith), if_neg (by linarith), neg_neg]

theorem significant_nonneg (nonneg : 0 ≤ x) : 0 ≤ significant p x := by
  rw [significant_of_nonneg nonneg]
  exact roundMagnitude_nonneg nonneg

theorem significant_mono : Monotone (significant p) := by
  have upwards : ∀ {x y : ℚ}, 0 ≤ x → x ≤ y → significant p x ≤ significant p y := by
    intro x y nonneg le
    rw [significant_of_nonneg nonneg, significant_of_nonneg (nonneg.trans le)]
    exact roundMagnitude_mono nonneg le
  intro x y le
  rcases le_total 0 x with nonneg | nonpos
  · exact upwards nonneg le
  have left : 0 ≤ significant p (-x) := significant_nonneg (by linarith)
  rw [significant_neg] at left
  rcases le_total 0 y with nonneg' | nonpos'
  · have right : 0 ≤ significant p y := significant_nonneg nonneg'
    linarith
  · have opposite := upwards (x := -y) (y := -x) (by linarith) (by linarith)
    rw [significant_neg, significant_neg] at opposite
    linarith

/-- Rounding once is enough. -/
theorem significant_idempotent (p : ℕ) (x : ℚ) :
    significant p (significant p x) = significant p x := by
  have upwards : ∀ {x : ℚ}, 0 ≤ x → significant p (significant p x) = significant p x := by
    intro x nonneg
    rw [significant_of_nonneg (significant_nonneg nonneg), significant_of_nonneg nonneg]
    exact roundMagnitude_idempotent nonneg
  rcases le_total 0 x with nonneg | nonpos
  · exact upwards nonneg
  · have opposite := upwards (x := -x) (by linarith)
    rw [significant_neg, significant_neg] at opposite
    exact neg_injective opposite

end Rounded

/-! ## The text -/

/-- The digits of a rounded magnitude and the power of ten of the first one: nines that were
rounded up make one digit more. -/
def digitsAndDecade (p : ℕ) (x : ℚ) : ℕ × ℤ :=
  if leading p x = 10 ^ (p + 1) then (10 ^ p, decade x + 1) else ((leading p x).toNat, decade x)

/-- Without the zeros at the end. -/
def trimmed (digits : List (Fin 10)) : List (Fin 10) := digits.rdropWhile (·.val = 0)

/-- A point stands only where a digit follows it. -/
def pointed (whole fraction : List (Fin 10)) : Bytes :=
  whole.map digitChar ++
    if trimmed fraction = [] then [] else 0x2E :: (trimmed fraction).map digitChar

/-- An exponent has a sign and at least two digits. -/
def exponentText (e : ℤ) : Bytes :=
  0x65 :: (if e < 0 then 0x2D else 0x2B) ::
    ((if e.natAbs < 10 then [0x30] else []) ++ decimal e.natAbs)

/-- `%g` with `p + 1` digits, of a number that is not negative. -/
def magnitudeText (p : ℕ) (x : ℚ) : Bytes :=
  let (m, e) := digitsAndDecade p x
  let digits := digitsOf m
  if e < -4 ∨ p < e then pointed (digits.take 1) (digits.drop 1) ++ exponentText e
  else if e < 0 then pointed [lastDigit 0] (List.replicate (-e - 1).toNat (lastDigit 0) ++ digits)
  else pointed (digits.take (e.toNat + 1)) (digits.drop (e.toNat + 1))

/-- `%g` with `p + 1` digits. -/
def general (p : ℕ) (x : ℚ) : Bytes :=
  if x < 0 then 0x2D :: magnitudeText p (-x) else magnitudeText p x

/-! ## Reading the text -/

/-- A text that begins with a digit, and the number that is read there. -/
def Denotes (text : Bytes) (value : ℚ) : Prop :=
  ∃ d s mantissaValue rest, text = digitChar d :: s ∧
    (∀ c ∈ s.head?, c ≠ 0x78 ∧ c ≠ 0x58) ∧
    mantissa 10 decimalDigit text = some (mantissaValue, rest) ∧
    mantissaValue * exponent 0x65 0x45 10 rest = value

section Reading
variable {p : ℕ} {x value : ℚ} {text rest : Bytes} {whole fraction : List (Fin 10)} {e : ℤ}

theorem stod_of_denotes (denotes : Denotes text value) :
    stod text = some (some value) ∧ stod (0x2D :: text) = some (some (-value)) := by
  obtain ⟨d, s, mantissaValue, rest, rfl, second, reads, rfl⟩ := denotes
  obtain ⟨noInfinity, noNumber, -⟩ := startsWithWord_digits d 0 s
  have decimal : startsWithWord [0x30, 0x78] (digitChar d :: s) = false := by
    cases s with
    | nil => simp [startsWithWord]
    | cons c s =>
      obtain ⟨lower, upper⟩ := second c rfl
      have letter : (if 0x41 ≤ c ∧ c ≤ 0x5A then c + 0x20 else c) ≠ 0x78 := by
        split
        · intro same
          exact upper ((UInt8.add_sub_cancel c 0x20).symm.trans (congrArg (· - 0x20) same))
        · exact lower
      simp [startsWithWord, letter]
  have minus : (0x2D :: digitChar d :: s).dropWhile isspace = 0x2D :: digitChar d :: s := rfl
  constructor
  · rw [stod, dropWhile_digit, sign_digit]
    simp only [noInfinity, noNumber, decimal, Bool.or_self, Bool.false_eq_true, if_false, reads]
    rw [Int.cast_one, one_mul]
  · rw [stod, minus, sign]
    simp only [noInfinity, noNumber, decimal, Bool.or_self, Bool.false_eq_true, if_false, reads]
    rw [Int.cast_neg, Int.cast_one, neg_one_mul, neg_mul]

theorem trimmed_append (digits : List (Fin 10)) (d : Fin 10) :
    trimmed (digits ++ [d]) = if d = 0 then trimmed digits else digits ++ [d] := by
  by_cases zero : d = 0
  · rw [trimmed, List.rdropWhile_concat_pos _ _ _ (by simpa using zero), if_pos zero, trimmed]
  · rw [trimmed, List.rdropWhile_concat_neg _ _ _ (by simpa using zero), if_neg zero]

/-- Zeros at the end do not count. -/
theorem natValue_trimmed (whole fraction : List (Fin 10)) :
    (natValue (whole ++ trimmed fraction) : ℚ) / 10 ^ (trimmed fraction).length =
      natValue (whole ++ fraction) / 10 ^ fraction.length := by
  induction fraction using List.reverseRecOn with
  | nil => rfl
  | append_singleton fraction d ih =>
    rw [trimmed_append]
    split
    · case isTrue zero =>
      rw [ih, ← List.append_assoc, natValue_append (whole ++ fraction) [d], natValue_singleton,
        zero, List.length_append, List.length_singleton, Fin.val_zero, Nat.add_zero, pow_succ,
        pow_succ, pow_zero, one_mul]
      push_cast
      rw [mul_div_mul_right _ _ (by norm_num)]
    · rfl

theorem mantissa_pointed (fraction : List (Fin 10)) (rest : Bytes) (content : whole ≠ [])
    (stop : ∀ c ∈ rest.head?, decimalDigit c = none ∧ c ≠ 0x2E) :
    mantissa 10 decimalDigit (pointed whole fraction ++ rest) =
      some ((natValue (whole ++ fraction) : ℚ) / 10 ^ fraction.length, rest) := by
  have noDigit : ∀ c ∈ rest.head?, decimalDigit c = none := fun c here => (stop c here).1
  rw [← natValue_trimmed, pointed]
  by_cases short : trimmed fraction = []
  · rw [if_pos short, List.append_nil, mantissa, spanDigits_digits whole _ noDigit]
    have noPoint : ∀ behind, rest ≠ 0x2E :: behind := by
      rintro behind rfl
      exact (stop _ rfl).2 rfl
    simp only [List.map_eq_nil_iff, content, false_and, if_false, short]
    rw [List.append_nil, List.append_nil]
    rfl
  · have point : ∀ c ∈ (0x2E :: ((trimmed fraction).map digitChar ++ rest)).head?,
        decimalDigit c = none := by
      intro c head
      cases head
      rfl
    rw [if_neg short, List.append_assoc, List.cons_append, mantissa, spanDigits_digits whole _ point]
    simp only [spanDigits_digits _ _ noDigit, List.map_eq_nil_iff, content, false_and, if_false]
    rw [← List.map_append, List.length_map]
    rfl

theorem denotes_pointed (fraction : List (Fin 10)) (rest : Bytes) (content : whole ≠ [])
    (stop : ∀ c ∈ rest.head?, decimalDigit c = none ∧ c ≠ 0x2E ∧ c ≠ 0x78 ∧ c ≠ 0x58) :
    Denotes (pointed whole fraction ++ rest)
      (natValue (whole ++ fraction) / 10 ^ fraction.length * exponent 0x65 0x45 10 rest) := by
  obtain ⟨d, more, rfl⟩ := List.exists_cons_of_ne_nil content
  have plain : ∀ d : Fin 10, digitChar d ≠ 0x78 ∧ digitChar d ≠ 0x58 := by decide
  refine ⟨d, _, _, rest, rfl, ?_, mantissa_pointed fraction rest content fun c here =>
    ⟨(stop c here).1, (stop c here).2.1⟩, rfl⟩
  intro c here
  cases more with
  | cons d more =>
    cases here
    exact plain d
  | nil =>
    by_cases short : trimmed fraction = []
    · simp only [short, if_true, List.map_nil] at here
      exact (stop c here).2.2
    · simp only [short, if_false, List.map_nil] at here
      cases here
      decide

theorem natValue_zeros (n : ℕ) (digits : List (Fin 10)) :
    natValue (List.replicate n 0 ++ digits) = natValue digits := by
  induction n with
  | zero => rfl
  | succ n ih =>
    have first := natValue_append [0] (List.replicate n 0 ++ digits)
    rw [natValue_singleton, Fin.val_zero, Nat.zero_mul, Nat.zero_add, ih] at first
    exact first

/-- The sign and the digits of an exponent. -/
theorem exponentText_eq (e : ℤ) : ∃ (negative : ℤ) (digits : List (Fin 10)) (s : Bytes),
    exponentText e = 0x65 :: s ∧ digits ≠ [] ∧ negative * (natValue digits : ℤ) = e ∧
      ∀ rest, sign (s ++ rest) = (negative, digits.map digitChar ++ rest) := by
  obtain ⟨digits, text, value, content⟩ : ∃ digits : List (Fin 10),
      (if e.natAbs < 10 then [0x30] else []) ++ decimal e.natAbs = digits.map digitChar ∧
        natValue digits = e.natAbs ∧ digits ≠ [] := by
    by_cases small : e.natAbs < 10
    · refine ⟨[0] ++ digitsOf e.natAbs, by rw [if_pos small]; rfl, ?_, by simp⟩
      exact (natValue_zeros 1 _).trans (natValue_digitsOf _)
    · obtain ⟨d, more, eq⟩ := digitsOf_eq_cons e.natAbs
      refine ⟨digitsOf e.natAbs, by rw [if_neg small]; rfl, natValue_digitsOf _, ?_⟩
      rw [eq]
      exact List.cons_ne_nil d more
  by_cases negative : e < 0
  · refine ⟨-1, digits, 0x2D :: digits.map digitChar, ?_, content, ?_, fun _ => rfl⟩
    · rw [exponentText, if_pos negative, text]
    · rw [value]
      omega
  · refine ⟨1, digits, 0x2B :: digits.map digitChar, ?_, content, ?_, fun _ => rfl⟩
    · rw [exponentText, if_neg negative, text]
    · rw [value]
      omega

theorem exponent_exponentText (e : ℤ) : exponent 0x65 0x45 10 (exponentText e) = 10 ^ e := by
  obtain ⟨negative, digits, s, text, -, value, signed⟩ := exponentText_eq e
  have spans := spanDigits_digits digits [] (by simp)
  have signed := signed []
  rw [List.append_nil, List.append_nil] at signed
  rw [List.append_nil] at spans
  rw [text, exponent, if_pos (.inl rfl), signed]
  simp only [spans]
  rw [← value]
  rfl

theorem length_digitsOf {k n : ℕ} (low : 10 ^ k ≤ n) (high : n < 10 ^ (k + 1)) :
    (digitsOf n).length = k + 1 := by
  induction k generalizing n with
  | zero =>
    rw [digitsOf, if_pos (by omega)]
    rfl
  | succ k ih =>
    have large : 10 ≤ n := by
      have power := Nat.one_le_pow k 10 (by norm_num)
      rw [Nat.pow_succ] at low
      omega
    rw [digitsOf, if_neg (by omega), List.length_append, List.length_singleton, ih]
    · rw [Nat.le_div_iff_mul_le (by norm_num), ← Nat.pow_succ]
      exact low
    · rw [Nat.div_lt_iff_lt_mul (by norm_num), ← Nat.pow_succ]
      exact high

theorem digitsAndDecade_spec (p : ℕ) (positive : 0 < x) :
    10 ^ p ≤ (digitsAndDecade p x).1 ∧ (digitsAndDecade p x).1 < 10 ^ (p + 1) ∧
      ((digitsAndDecade p x).1 : ℚ) * 10 ^ ((digitsAndDecade p x).2 - p) = roundMagnitude p x := by
  have low := leading_ge (p := p) positive
  have high := leading_le (p := p) x
  unfold digitsAndDecade
  split
  · case isTrue carried =>
    refine ⟨le_rfl, Nat.pow_lt_pow_succ (by norm_num), ?_⟩
    rw [roundMagnitude, carried]
    push_cast
    rw [power_split, pow_succ', mul_assoc, power_split, mul_comm, ← zpow_add_one₀ (by norm_num)]
  · case isFalse within =>
    obtain ⟨digits, eq⟩ := Int.eq_ofNat_of_zero_le (a := leading p x) (le_trans (by positivity) low)
    rw [eq] at low high within
    rw [roundMagnitude, eq]
    refine ⟨by exact_mod_cast low, ?_, by simp⟩
    have least : digits ≠ 10 ^ (p + 1) := by exact_mod_cast within
    have most : digits ≤ 10 ^ (p + 1) := by exact_mod_cast high
    exact lt_of_le_of_ne most least

/-- Digits of which as many stand behind the point as the power of ten of the first one says. -/
theorem value_of_places {m : ℕ} (digits : natValue (whole ++ fraction) = m)
    (places : (fraction.length : ℤ) = p - e) :
    (natValue (whole ++ fraction) : ℚ) / 10 ^ fraction.length = m * 10 ^ (e - p) := by
  have scale : (10 : ℚ) ^ (e - p) = (10 ^ fraction.length)⁻¹ := by
    rw [← zpow_natCast, ← zpow_neg]
    congr 1
    omega
  rw [digits, scale, div_eq_mul_inv]

/-- A text with the point among its digits, and perhaps an exponent behind them. -/
inductive Shape (text : Bytes) (value : ℚ) : Prop
  | fixed (whole fraction : List (Fin 10)) : whole ≠ [] → text = pointed whole fraction →
      (natValue (whole ++ fraction) : ℚ) / 10 ^ fraction.length = value → Shape text value
  | scientific (whole fraction : List (Fin 10)) (e : ℤ) : whole ≠ [] →
      text = pointed whole fraction ++ exponentText e →
      (natValue (whole ++ fraction) : ℚ) / 10 ^ fraction.length * 10 ^ e = value → Shape text value

theorem shape_magnitudeText (nonneg : 0 ≤ x) : Shape (magnitudeText p x) (roundMagnitude p x) := by
  rcases nonneg.eq_or_lt with rfl | positive
  · have zero : leading p 0 = 0 := by
      rw [leading, zero_div]
      exact roundEven_intCast 0
    have power : (0 : ℤ) ≠ 10 ^ (p + 1) := (pow_ne_zero _ (by norm_num)).symm
    have same : digitsAndDecade p 0 = (0, 0) := by
      rw [digitsAndDecade, zero, if_neg power, decade, Int.log_zero_right]
      rfl
    have fits : ¬ ((0 : ℤ) < -4 ∨ (p : ℤ) < 0) := by omega
    have digit : digitsOf 0 = [0] := by
      rw [digitsOf, if_pos (by norm_num)]
      rfl
    refine .fixed [0] [] (by simp) ?_ ?_
    · rw [magnitudeText, same]
      simp only [fits, if_false, digit]
      rfl
    · simp [roundMagnitude_zero, natValue_singleton]
  obtain ⟨low, high, value⟩ := digitsAndDecade_spec p positive
  rw [magnitudeText, ← value]
  generalize digitsAndDecade p x = written at low high
  obtain ⟨m, e⟩ := written
  have count := length_digitsOf low high
  have digits := natValue_digitsOf m
  have content : ∀ n, (digitsOf m).take (n + 1) ≠ [] := by
    intro n empty
    have length := congrArg List.length empty
    rw [List.length_take, count, List.length_nil] at length
    omega
  dsimp only
  split
  · case isTrue large =>
    refine .scientific _ _ e (content 0) rfl ?_
    rw [List.take_append_drop, digits, List.length_drop, count, Nat.add_sub_cancel,
      div_mul_eq_mul_div, mul_div_assoc, zpow_sub₀ (by norm_num), zpow_natCast]
  · case isFalse middle =>
    split
    · case isTrue small =>
      refine .fixed _ _ (List.cons_ne_nil _ _) rfl (value_of_places ?_ ?_)
      · exact (natValue_zeros ((-e - 1).toNat + 1) (digitsOf m)).trans digits
      · rw [List.length_append, List.length_replicate, count]
        omega
    · case isFalse whole =>
      refine .fixed _ _ (content _) rfl (value_of_places ?_ ?_)
      · rw [List.take_append_drop, digits]
      · rw [List.length_drop, count]
        omega

theorem denotes_magnitudeText (nonneg : 0 ≤ x) :
    Denotes (magnitudeText p x) (roundMagnitude p x) := by
  cases shape_magnitudeText (p := p) nonneg with
  | fixed whole fraction content text value =>
    have denotes := denotes_pointed fraction [] content (by simp)
    rw [List.append_nil, exponent, mul_one, value] at denotes
    rwa [text]
  | scientific whole fraction e content text value =>
    have stop : ∀ c ∈ (exponentText e).head?, decimalDigit c = none ∧ c ≠ 0x2E ∧ c ≠ 0x78 ∧
        c ≠ 0x58 := by
      intro c here
      cases here
      decide
    have denotes := denotes_pointed fraction _ content stop
    rw [exponent_exponentText, value] at denotes
    rwa [text]

/-- What is written is read back as the rounded number. -/
theorem stod_general (p : ℕ) (x : ℚ) : stod (general p x) = some (some (significant p x)) := by
  unfold general significant
  split
  · case isTrue negative => exact (stod_of_denotes (denotes_magnitudeText (by linarith))).2
  · case isFalse nonneg => exact (stod_of_denotes (denotes_magnitudeText (not_lt.mp nonneg))).1

/-- Only digits, signs, a point and the mark of the exponent are written. -/
def Written (c : UInt8) : Prop :=
  (∃ d, c = digitChar d) ∨ c = 0x2D ∨ c = 0x2B ∨ c = 0x2E ∨ c = 0x65

instance (c : UInt8) : Decidable (Written c) := inferInstanceAs (Decidable (_ ∨ _))

theorem written_digits {digits : List (Fin 10)} {c : UInt8} (there : c ∈ digits.map digitChar) :
    Written c := by
  obtain ⟨d, -, rfl⟩ := List.mem_map.mp there
  exact .inl ⟨d, rfl⟩

theorem written_pointed {c : UInt8} (there : c ∈ pointed whole fraction) : Written c := by
  rcases List.mem_append.mp there with before | behind
  · exact written_digits before
  · split at behind
    · cases behind
    · rcases List.mem_cons.mp behind with rfl | behind
      · exact .inr (.inr (.inr (.inl rfl)))
      · exact written_digits behind

theorem written_exponentText {c : UInt8} (there : c ∈ exponentText e) : Written c := by
  rcases List.mem_cons.mp there with rfl | there
  · exact .inr (.inr (.inr (.inr rfl)))
  rcases List.mem_cons.mp there with rfl | there
  · split
    · exact .inr (.inl rfl)
    · exact .inr (.inr (.inl rfl))
  rcases List.mem_append.mp there with zero | digits
  · split at zero
    · rw [List.mem_singleton.mp zero]
      exact .inl ⟨0, rfl⟩
    · cases zero
  · exact .inl (mem_decimal digits)

theorem written_magnitudeText {c : UInt8} (there : c ∈ magnitudeText p x) : Written c := by
  rw [magnitudeText] at there
  dsimp only at there
  split at there
  · rcases List.mem_append.mp there with digits | behind
    · exact written_pointed digits
    · exact written_exponentText behind
  · split at there
    · exact written_pointed there
    · exact written_pointed there

theorem written_general {c : UInt8} (there : c ∈ general p x) : Written c := by
  unfold general at there
  split at there
  · rcases List.mem_cons.mp there with rfl | behind
    · exact .inr (.inl rfl)
    · exact written_magnitudeText behind
  · exact written_magnitudeText there

/-- What never stands in a number may separate numbers. -/
theorem not_mem_general {c : UInt8} (other : ¬ Written c) (p : ℕ) (x : ℚ) : c ∉ general p x :=
  fun there => other (written_general there)

theorem general_ne_nil (p : ℕ) (x : ℚ) : general p x ≠ [] := by
  intro empty
  have read := stod_general p x
  rw [empty] at read
  cases read

end Reading

/-! ## Reading from a stream -/

/-- `in >> item` for a `double`: white space is skipped, and an exponent that is begun has to have
a digit. `none` is a failure. -/
def extract (s : Bytes) : Option (ℚ × Bytes) :=
  let (negative, s) := sign (s.dropWhile isspace)
  match mantissa 10 decimalDigit s with
  | none => none
  | some (value, []) => some (negative * value, [])
  | some (value, c :: rest) =>
    if c = 0x65 ∨ c = 0x45 then
      let (power, s) := sign rest
      let (digits, rest) := spanDigits decimalDigit s
      if digits = [] then none
      else some (negative * value * 10 ^ (power * digitsValue 10 digits : ℤ), rest)
    else some (negative * value, c :: rest)

/-- So many numbers in a row. -/
def extractMany : ℕ → Bytes → Option (List ℚ)
  | 0, _ => some []
  | n + 1, s => do
    let (item, s) ← extract s
    let items ← extractMany n s
    some (item :: items)

/-- Numbers with a separator between them. -/
def separated (p : ℕ) (separator : UInt8) : List ℚ → Bytes
  | [] => []
  | [x] => general p x
  | x :: xs => general p x ++ separator :: separated p separator xs

section Extracting
variable {p : ℕ} {x value : ℚ} {text rest : Bytes} {c : UInt8}

/-- What a number may be followed by without being continued. -/
def Stops (rest : Bytes) : Prop :=
  ∀ c ∈ rest.head?, decimalDigit c = none ∧ c ≠ 0x2E ∧ c ≠ 0x65 ∧ c ≠ 0x45

theorem Shape.starts (shape : Shape text value) : ∃ d s, text = digitChar d :: s := by
  cases shape with
  | fixed whole fraction content text value =>
    obtain ⟨d, more, rfl⟩ := List.exists_cons_of_ne_nil content
    exact ⟨d, _, text⟩
  | scientific whole fraction e content text value =>
    obtain ⟨d, more, rfl⟩ := List.exists_cons_of_ne_nil content
    exact ⟨d, _, text⟩

theorem extract_shape (shape : Shape text value) (stops : Stops rest) :
    extract (text ++ rest) = some (value, rest) ∧
      extract (0x2D :: (text ++ rest)) = some (-value, rest) := by
  obtain ⟨d, s, begins⟩ := shape.starts
  have noDigit : ∀ c ∈ rest.head?, decimalDigit c = none := fun c here => (stops c here).1
  have plain : (text ++ rest).dropWhile isspace = text ++ rest ∧ sign (text ++ rest) = (1, text ++ rest) := by
    rw [begins]
    exact ⟨dropWhile_digit d _, sign_digit d _⟩
  have minus : (0x2D :: (text ++ rest)).dropWhile isspace = 0x2D :: (text ++ rest) := rfl
  rw [extract, extract, plain.1, plain.2, minus, sign]
  cases shape with
  | fixed whole fraction content shaped value =>
    have read := mantissa_pointed fraction rest content
      fun c here => ⟨(stops c here).1, (stops c here).2.1⟩
    rw [← shaped, value] at read
    simp only [read]
    cases rest with
    | nil => simp
    | cons c rest =>
      have other : ¬ (c = 0x65 ∨ c = 0x45) := not_or.mpr (stops c rfl).2.2
      simp [other]
  | scientific whole fraction e content shaped value =>
    obtain ⟨negative, digits, tail, marked, some', power, signed⟩ := exponentText_eq e
    have read := mantissa_pointed fraction (exponentText e ++ rest) content
      (by rw [marked]; rintro c ⟨⟩; decide)
    have digitsRead := spanDigits_digits digits rest noDigit
    rw [← List.append_assoc, ← shaped, marked, List.cons_append] at read
    have number : (digitsValue 10 (digits.map Fin.val) : ℤ) = natValue digits := rfl
    simp only [read, signed, digitsRead, true_or, if_true, List.map_eq_nil_iff, some', if_false,
      number, power]
    constructor
    · rw [Int.cast_one, one_mul, value]
    · rw [Int.cast_neg, Int.cast_one, neg_one_mul, neg_mul, value]

/-- What is written is read back as the rounded number, whatever stops it. -/
theorem extract_general (x : ℚ) (rest : Bytes) (stops : Stops rest) :
    extract (general p x ++ rest) = some (significant p x, rest) := by
  unfold general significant
  split
  · case isTrue negative =>
    exact (extract_shape (shape_magnitudeText (by linarith)) stops).2
  · case isFalse nonneg =>
    exact (extract_shape (shape_magnitudeText (not_lt.mp nonneg)) stops).1

theorem extract_space (space : isspace c = true) (s : Bytes) : extract (c :: s) = extract s := by
  rw [extract, extract, List.dropWhile_cons, if_pos space]

theorem extractMany_space (space : isspace c = true) (n : ℕ) (s : Bytes) :
    extractMany n (c :: s) = extractMany n s := by
  cases n with
  | zero => rfl
  | succ n => rw [extractMany, extractMany, extract_space space]

theorem not_number_of_isspace (space : isspace c = true) :
    decimalDigit c = none ∧ c ≠ 0x2E ∧ c ≠ 0x65 ∧ c ≠ 0x45 := by
  have low : c.toNat ≤ 0x20 := by
    simp only [isspace, Bool.or_eq_true, beq_iff_eq, Bool.and_eq_true, decide_eq_true_eq,
      UInt8.le_iff_toNat_le] at space
    rcases space with rfl | ⟨-, high⟩
    · exact le_rfl
    · exact le_trans high (by decide)
  have above : ∀ d : UInt8, 0x20 < d.toNat → c ≠ d := by
    rintro d high rfl
    omega
  refine ⟨if_neg ?_, above _ (by decide), above _ (by decide), above _ (by decide)⟩
  rw [UInt8.le_iff_toNat_le]
  rintro ⟨least, -⟩
  exact absurd (le_trans least low) (by decide)

/-- A row of numbers with white space between them is read back as the rounded numbers. -/
theorem extractMany_separated (space : isspace c = true) (xs : List ℚ) :
    extractMany xs.length (separated p c xs) = some (xs.map (significant p)) := by
  induction xs with
  | nil => rfl
  | cons x xs ih =>
    cases xs with
    | nil =>
      have read := extract_general (p := p) x [] (by rintro c ⟨⟩)
      rw [List.append_nil] at read
      simp only [List.length_singleton, separated, extractMany, read, Option.bind_eq_bind,
        Option.bind_some]
      rfl
    | cons y ys =>
      have stops : Stops (c :: separated p c (y :: ys)) := by
        rintro _ ⟨⟩
        exact not_number_of_isspace space
      rw [separated, List.length_cons, extractMany, extract_general x _ stops]
      · simp only [Option.bind_eq_bind, Option.bind_some, extractMany_space space, ih]
        rfl
      · exact List.cons_ne_nil y ys

end Extracting

example : (general 5 (-1 / 3)).map UInt8.toNat = "-0.333333".toList.map Char.toNat := by
  decide +kernel

end SignificantDigits
