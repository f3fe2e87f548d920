import OpendlvCore.Bytes
import Mathlib.Data.Rat.Floor
import Mathlib.Tactic.FieldSimp

/-!
# `std::getline` and `std::stod` on byte strings

`stod` is exact: a finite result is the rational number the text denotes, however large
or small. `std::out_of_range`, which the real one throws for some of these, is left out.
-/
namespace CText
open CBytes

/-! ## Lines -/

/-- What repeated `getline(in, line, delimiter)` delivers. A delimiter at the very end
is not followed by an empty line. -/
def getlines (delimiter : UInt8) : Bytes → List Bytes
  | [] => []
  | c :: s =>
    if c = delimiter then [] :: getlines delimiter s
    else match getlines delimiter s with
      | [] => [[c]]
      | line :: lines => (c :: line) :: lines

section Lines
variable {delimiter : UInt8} {line s : Bytes}

/-- A line that a delimiter ends. -/
theorem getlines_append (free : delimiter ∉ line) :
    getlines delimiter (line ++ delimiter :: s) = line :: getlines delimiter s := by
  induction line with
  | nil => rw [List.nil_append, getlines, if_pos rfl]
  | cons c line ih =>
    rw [List.mem_cons, not_or] at free
    rw [List.cons_append, getlines, if_neg (Ne.symm free.1), ih free.2]

/-- The last line need not be ended. -/
theorem getlines_last (free : delimiter ∉ line) (content : line ≠ []) :
    getlines delimiter line = [line] := by
  induction line with
  | nil => exact absurd rfl content
  | cons c line ih =>
    rw [List.mem_cons, not_or] at free
    rw [getlines, if_neg (Ne.symm free.1)]
    by_cases last : line = []
    · rw [last]
      rfl
    · rw [ih free.2 last]

/-- The first line is all that stands before the first delimiter. -/
theorem getlines_eq_cons (content : s ≠ []) :
    ∃ lines, getlines delimiter s = s.takeWhile (· ≠ delimiter) :: lines := by
  induction s with
  | nil => exact absurd rfl content
  | cons c s ih =>
    by_cases here : c = delimiter
    · refine ⟨getlines delimiter s, ?_⟩
      rw [getlines, if_pos here, List.takeWhile_cons, if_neg (by simp [here])]
    · rw [getlines, if_neg here, List.takeWhile_cons, if_pos (by simp [here])]
      by_cases last : s = []
      · rw [last]
        exact ⟨[], rfl⟩
      · obtain ⟨lines, eq⟩ := ih last
        exact ⟨lines, by rw [eq]⟩

end Lines

/-! ## Numbers -/

/-- A `double` in exact arithmetic; `none` is an infinity or not a number. -/
abbrev Double := Option ℚ

def isspace (c : UInt8) : Bool := c == 0x20 || (0x09 ≤ c && c ≤ 0x0D)

def decimalDigit (c : UInt8) : Option Nat :=
  if 0x30 ≤ c ∧ c ≤ 0x39 then some (c.toNat - 0x30) else none

def hexDigit (c : UInt8) : Option Nat :=
  if 0x30 ≤ c ∧ c ≤ 0x39 then some (c.toNat - 0x30)
  else if 0x41 ≤ c ∧ c ≤ 0x46 then some (c.toNat - 0x37)
  else if 0x61 ≤ c ∧ c ≤ 0x66 then some (c.toNat - 0x57)
  else none

/-- The longest prefix of digits, and what follows it. -/
def spanDigits (digit : UInt8 → Option Nat) : Bytes → List Nat × Bytes
  | [] => ([], [])
  | c :: s =>
    match digit c with
    | none => ([], c :: s)
    | some d => (d :: (spanDigits digit s).1, (spanDigits digit s).2)

def digitsValue (base : Nat) (digits : List Nat) : Nat :=
  digits.foldl (fun value d => base * value + d) 0

/-- Digits with an optional point among them; one digit at least. -/
def mantissa (base : Nat) (digit : UInt8 → Option Nat) (s : Bytes) : Option (ℚ × Bytes) :=
  let (whole, rest) := spanDigits digit s
  let (fraction, rest) :=
    match rest with
    | 0x2E :: behind => spanDigits digit behind
    | _ => ([], rest)
  if whole = [] ∧ fraction = [] then none
  else some ((digitsValue base (whole ++ fraction) : ℚ) / base ^ fraction.length, rest)

/-- `-1` in front of a minus sign, and the text behind the optional sign. -/
def sign : Bytes → ℤ × Bytes
  | 0x2D :: s => (-1, s)
  | 0x2B :: s => (1, s)
  | s => (1, s)

/-- The factor that an exponent stands for: none is there unless a digit follows its mark. -/
def exponent (lower upper : UInt8) (base : Nat) : Bytes → ℚ
  | [] => 1
  | c :: s =>
    if c = lower ∨ c = upper then
      (base : ℚ) ^ ((sign s).1 * (digitsValue 10 (spanDigits decimalDigit (sign s).2).1 : ℤ))
    else 1

/-- Equal up to the case of ASCII letters. -/
def startsWithWord (word s : Bytes) : Bool :=
  (s.take word.length).map (fun c => if 0x41 ≤ c ∧ c ≤ 0x5A then c + 0x20 else c) == word

/-- `std::stod`; `none` when nothing can be converted and it throws `std::invalid_argument`. -/
def stod (text : Bytes) : Option Double :=
  let (negative, s) := sign (text.dropWhile isspace)
  -- "inf" and "nan"
  if startsWithWord [0x69, 0x6E, 0x66] s || startsWithWord [0x6E, 0x61, 0x6E] s then some none
  else
    -- "0x"
    let hexadecimal :=
      if startsWithWord [0x30, 0x78] s then mantissa 16 hexDigit (s.drop 2) else none
    match hexadecimal with
    | some (value, rest) => some (some (negative * value * exponent 0x70 0x50 2 rest))
    | none =>
      match mantissa 10 decimalDigit s with
      | some (value, rest) => some (some (negative * value * exponent 0x65 0x45 10 rest))
      | none => none

/-- `std::stoi`; `none` when it throws: without a digit, or outside the range of `int`. -/
def stoi (text : Bytes) : Option ℤ :=
  let (negative, s) := sign (text.dropWhile isspace)
  let digits := (spanDigits decimalDigit s).1
  let value := negative * digitsValue 10 digits
  if digits = [] ∨ value < -2 ^ 31 ∨ 2 ^ 31 ≤ value then none else some value

/-- `static_cast<int>` of a value in the range of `int`. -/
def truncate (q : ℚ) : ℤ := q.num.tdiv q.den

/-! ## Numbers written with digits and a point -/

def digitChar (d : Fin 10) : UInt8 := UInt8.ofNat (0x30 + d.val)

/-- The number that a list of digits denotes. -/
def natValue (digits : List (Fin 10)) : Nat := digitsValue 10 (digits.map Fin.val)

section Decimal
variable {whole fraction : List (Fin 10)}

theorem digitsValue_append (base : Nat) (a b : List Nat) :
    digitsValue base (a ++ b) = digitsValue base a * base ^ b.length + digitsValue base b := by
  have from_start : ∀ (start : Nat) (b : List Nat),
      b.foldl (fun value d => base * value + d) start =
        start * base ^ b.length + digitsValue base b := by
    intro start b
    induction b generalizing start with
    | nil => simp [digitsValue]
    | cons d b ih =>
      rw [digitsValue, List.foldl_cons, List.foldl_cons, ih, ih (base * 0 + d), List.length_cons]
      ring
  rw [digitsValue, List.foldl_append]
  exact from_start _ b

theorem natValue_append (a b : List (Fin 10)) :
    natValue (a ++ b) = natValue a * 10 ^ b.length + natValue b := by
  rw [natValue, List.map_append, digitsValue_append, List.length_map]
  rfl

theorem natValue_lt (digits : List (Fin 10)) : natValue digits < 10 ^ digits.length := by
  induction digits with
  | nil => decide
  | cons d digits ih =>
    have split := natValue_append [d] digits
    have single : natValue [d] = d.val := by simp [natValue, digitsValue]
    have bound : d.val * 10 ^ digits.length ≤ 9 * 10 ^ digits.length :=
      Nat.mul_le_mul_right _ (by omega)
    rw [List.singleton_append, single] at split
    rw [split, List.length_cons, Nat.pow_succ]
    omega

theorem decimalDigit_digitChar (d : Fin 10) : decimalDigit (digitChar d) = some d.val := by
  revert d
  decide

theorem isspace_digitChar (d : Fin 10) : isspace (digitChar d) = false := by
  revert d
  decide

theorem spanDigits_digits (digits : List (Fin 10)) (rest : Bytes)
    (stop : ∀ c ∈ rest.head?, decimalDigit c = none) :
    spanDigits decimalDigit (digits.map digitChar ++ rest) = (digits.map Fin.val, rest) := by
  induction digits with
  | nil =>
    cases rest with
    | nil => rfl
    | cons c rest => rw [List.map_nil, List.nil_append, spanDigits, stop c rfl]; rfl
  | cons d digits ih =>
    rw [List.map_cons, List.cons_append, spanDigits, decimalDigit_digitChar, ih]
    rfl

theorem mantissa_decimal (whole fraction : List (Fin 10)) (content : whole ≠ []) :
    mantissa 10 decimalDigit (whole.map digitChar ++ 0x2E :: fraction.map digitChar) =
      some ((natValue (whole ++ fraction) : ℚ) / 10 ^ fraction.length, []) := by
  have behind : spanDigits decimalDigit (fraction.map digitChar) = (fraction.map Fin.val, []) := by
    simpa using spanDigits_digits fraction [] (by simp)
  have point : ∀ c ∈ (0x2E :: fraction.map digitChar).head?, decimalDigit c = none := by
    intro c head
    cases head
    rfl
  rw [mantissa, spanDigits_digits whole _ point]
  simp only [behind, List.map_eq_nil_iff, content, false_and, if_false]
  rw [← List.map_append, List.length_map]
  rfl

theorem sign_digit (d : Fin 10) (s : Bytes) : sign (digitChar d :: s) = (1, digitChar d :: s) := by
  have plain : digitChar d ≠ 0x2D ∧ digitChar d ≠ 0x2B := by
    revert d
    decide
  unfold sign
  split
  · rename_i eq
    exact absurd (List.cons.inj eq).1 plain.1
  · rename_i eq
    exact absurd (List.cons.inj eq).1 plain.2
  · rfl

/-- A word whose first or second letter is not the text's is not at its start. -/
theorem startsWithWord_digits (d e : Fin 10) (s : Bytes) :
    startsWithWord [0x69, 0x6E, 0x66] (digitChar d :: s) = false ∧
      startsWithWord [0x6E, 0x61, 0x6E] (digitChar d :: s) = false ∧
      startsWithWord [0x30, 0x78] (digitChar d :: digitChar e :: s) = false := by
  have lower : ∀ d : Fin 10, (if 0x41 ≤ digitChar d ∧ digitChar d ≤ 0x5A then digitChar d + 0x20
      else digitChar d) = digitChar d := by decide
  have none : ∀ d : Fin 10, digitChar d ≠ 0x69 ∧ digitChar d ≠ 0x6E ∧ digitChar d ≠ 0x78 := by
    decide
  simp [startsWithWord, lower, none]

theorem dropWhile_digit (d : Fin 10) (s : Bytes) :
    (digitChar d :: s).dropWhile isspace = digitChar d :: s := by
  rw [List.dropWhile_cons, if_neg (by simp [isspace_digitChar d])]

/-- A text that begins with a digit is a decimal number unless it begins with `0x`. -/
theorem stod_of_mantissa {d : Fin 10} {s : Bytes} {value : ℚ}
    (decimal : startsWithWord [0x30, 0x78] (digitChar d :: s) = false)
    (reads : mantissa 10 decimalDigit (digitChar d :: s) = some (value, [])) :
    stod (digitChar d :: s) = some (some value) := by
  have noWord := startsWithWord_digits d 0 s
  unfold stod
  rw [dropWhile_digit, sign_digit]
  simp only [noWord.1, noWord.2.1, decimal, Bool.or_self, Bool.false_eq_true, if_false, reads]
  simp [exponent]

/-- Two digits at least, a point, and any number of digits: the number they denote. -/
theorem stod_decimal (two : 2 ≤ whole.length) :
    stod (whole.map digitChar ++ 0x2E :: fraction.map digitChar) =
      some (some ((natValue (whole ++ fraction) : ℚ) / 10 ^ fraction.length)) := by
  obtain ⟨d, e, more, rfl⟩ : ∃ d e more, whole = d :: e :: more := by
    match whole, two with
    | d :: e :: more, _ => exact ⟨d, e, more, rfl⟩
  have value := mantissa_decimal (d :: e :: more) fraction (by simp)
  rw [List.map_cons, List.map_cons, List.cons_append, List.cons_append] at value ⊢
  exact stod_of_mantissa (startsWithWord_digits d e _).2.2 value

/-- Truncation takes off a fraction. -/
theorem truncate_add (n : Nat) (part : ℚ) (nonneg : 0 ≤ part) (below : part < 1) :
    truncate (n + part) = n := by
  have positive : (0 : ℚ) ≤ n + part := by positivity
  have floor : ⌊(n + part : ℚ)⌋ = (n : ℤ) := by
    rw [Int.floor_eq_iff]
    constructor
    · push_cast
      linarith
    · push_cast
      linarith
  rw [truncate, Int.tdiv_eq_ediv_of_nonneg (Rat.num_nonneg.mpr positive), ← Rat.floor_def, ← floor]
  rfl

end Decimal

/-! ## Whole numbers -/

def lastDigit (n : Nat) : Fin 10 := ⟨n % 10, Nat.mod_lt n (by decide)⟩

/-- The decimal digits of a number, the most significant one first. -/
def digitsOf (n : Nat) : List (Fin 10) :=
  if n < 10 then [lastDigit n] else digitsOf (n / 10) ++ [lastDigit n]
termination_by n

/-- A number as `operator<<` writes it. -/
def decimal (n : Nat) : Bytes := (digitsOf n).map digitChar

section Whole

theorem val_lastDigit (n : Nat) : (lastDigit n).val = n % 10 := rfl

theorem natValue_singleton (d : Fin 10) : natValue [d] = d.val := by
  simp [natValue, digitsValue]

theorem natValue_digitsOf (n : Nat) : natValue (digitsOf n) = n := by
  induction n using digitsOf.induct with
  | case1 n small =>
    rw [digitsOf, if_pos small, natValue_singleton, val_lastDigit, Nat.mod_eq_of_lt small]
  | case2 n large ih =>
    rw [digitsOf, if_neg large, natValue_append, ih, natValue_singleton, val_lastDigit,
      List.length_singleton, Nat.pow_one]
    omega

theorem digitsOf_eq_cons (n : Nat) : ∃ d digits, digitsOf n = d :: digits := by
  apply List.exists_cons_of_ne_nil
  rw [digitsOf]
  split <;> simp

theorem mem_decimal {n : Nat} {c : UInt8} (member : c ∈ decimal n) : ∃ d, c = digitChar d := by
  obtain ⟨d, _, rfl⟩ := List.mem_map.mp member
  exact ⟨d, rfl⟩

/-- What `operator<<` writes is read back. -/
theorem stod_decimal_nat (n : Nat) : stod (decimal n) = some (some (n : ℚ)) := by
  obtain ⟨d, digits, eq⟩ := digitsOf_eq_cons n
  have value := natValue_digitsOf n
  have spans := spanDigits_digits (d :: digits) [] (by simp)
  rw [eq] at value
  rw [List.append_nil, List.map_cons] at spans
  have noHex : startsWithWord [0x30, 0x78] (digitChar d :: digits.map digitChar) = false := by
    cases digits with
    | nil => simp [startsWithWord]
    | cons e digits => exact (startsWithWord_digits d e _).2.2
  rw [decimal, eq, List.map_cons]
  apply stod_of_mantissa noHex
  rw [← value]
  simp [mantissa, spans, natValue]

theorem stoi_decimal {n : Nat} (small : n < 2 ^ 31) : stoi (decimal n) = some (n : ℤ) := by
  obtain ⟨d, digits, eq⟩ := digitsOf_eq_cons n
  have value : digitsValue 10 ((d :: digits).map Fin.val) = n := eq ▸ natValue_digitsOf n
  have spans := spanDigits_digits (d :: digits) [] (by simp)
  rw [List.append_nil, List.map_cons] at spans
  rw [decimal, eq, List.map_cons, stoi, dropWhile_digit, sign_digit]
  simp only [spans, value, one_mul]
  rw [if_neg]
  simp
  omega

end Whole

/-! ## Splitting -/

/-- What a function that splits a text at a delimiter has to do. Nothing is said of how many
entries an empty text has, none or an empty one. -/
structure Splits (split : Bytes → UInt8 → List Bytes) : Prop where
  entries : ∀ text delimiter, text ≠ [] → split text delimiter = text.splitOn delimiter
  empty : ∀ delimiter, split [] delimiter = [] ∨ split [] delimiter = [[]]

/-- One such function. -/
def splitEverywhere (text : Bytes) (delimiter : UInt8) : List Bytes := text.splitOn delimiter

section Splitting
variable {split : Bytes → UInt8 → List Bytes} {delimiter : UInt8} {text key value : Bytes}

theorem splits_splitEverywhere : Splits splitEverywhere where
  entries _ _ _ := rfl
  empty _ := .inr rfl

/-- An entry that a delimiter ends. -/
theorem Splits.cons (splits : Splits split) (free : delimiter ∉ key) (content : text ≠ []) :
    split (key ++ delimiter :: text) delimiter = key :: split text delimiter := by
  rw [splits.entries _ _ (by simp), splits.entries _ _ content,
    List.splitOn_append_cons_self_of_not_mem free]

theorem Splits.single (splits : Splits split) (content : text ≠ []) (free : delimiter ∉ text) :
    split text delimiter = [text] := by
  rw [splits.entries _ _ content, List.splitOn_eq_singleton free]

theorem Splits.pair (splits : Splits split) (free : delimiter ∉ key) (free' : delimiter ∉ value) :
    split (key ++ delimiter :: value) delimiter = [key, value] := by
  rw [splits.entries _ _ (by simp), List.splitOn_append_cons_self_of_not_mem free,
    List.splitOn_eq_singleton free']

end Splitting

end CText
