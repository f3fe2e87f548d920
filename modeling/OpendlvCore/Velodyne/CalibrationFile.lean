import OpendlvCore.Loops
import OpendlvCore.Text
import Mathlib.Logic.Function.Basic
import Mathlib.Data.Fin.VecNotation
import Mathlib.Data.List.TakeWhile

/-!
# The calibration files of the Velodyne decoders

`readCalibrationFile` of `Velodyne16Decoder` and `Velodyne32Decoder` (lines 47-87 of both) and
the loop in the constructor of `Velodyne64Decoder` (lines 76-150) are one reader up to the tags,
the types of the index and of the counter, and the check of the counter. `atof` is a parameter.
-/
namespace OpendlvCore.Velodyne.CalibrationFile
open CBytes CText CLoop

def newline : UInt8 := 0x0A

/-- `<` -/
def lt : UInt8 := 0x3C

/-- A tab or a space. -/
def blank (c : UInt8) : Bool := c == 0x09 || c == 0x20

/-- `atof` with the rounding of the tables' `float`, of which only this is used: blanks in front
of a number are skipped. -/
structure Conversion (D : Type) where
  atof : Bytes → D
  zero : D
  skips : ∀ (c : UInt8) (text : Bytes), blank c → atof (c :: text) = atof text

theorem stod_blank (c : UInt8) (text : Bytes) (skipped : blank c) : stod (c :: text) = stod text := by
  have space : isspace c := by
    simp only [blank, Bool.or_eq_true, beq_iff_eq] at skipped
    rcases skipped with rfl | rfl <;> decide
  unfold stod
  rw [List.dropWhile_cons_of_pos space]

/-- `atof` with exact numbers: what `stod` reads, and 0 where it throws. -/
def Conversion.exact : Conversion Double where
  atof text := (stod text).getD (some 0)
  zero := some 0
  skips c text skipped := congrArg (·.getD (some 0)) (stod_blank c text skipped)

/-- What distinguishes the three copies of the reader. -/
structure Format (k : Nat) where
  tags : Fin k → Bytes
  /-- The length of each table. -/
  size : Nat
  /-- The number of values of the index `i`. -/
  indexSize : Nat
  /-- `counter++` in the type of the counter. -/
  next : Nat → Nat
  /-- The condition on the counters in the loop over the lines. -/
  more : (Fin k → Nat) → Bool
  /-- A tag begins with its only `<`. -/
  opens : ∀ t, (tags t).head? = some lt ∧ lt ∉ (tags t).tail
  /-- No tag begins another one. -/
  alone : ∀ t u, tags t <+: tags u → t = u
  indexed : 0 < indexSize
  /-- A line that the index can count does not make a counter wrap. -/
  steady : ∀ counter t n, more counter → 2 * n ≤ indexSize → next^[n] (counter t) = counter t + n

/-- "Correction_>" behind a name and its opening bracket. -/
def correction (name : Bytes) : Bytes :=
  lt :: name ++ [0x43, 0x6F, 0x72, 0x72, 0x65, 0x63, 0x74, 0x69, 0x6F, 0x6E, 0x5F, 0x3E]

/-- `<vertCorrection_>` -/
def vertCorrection : Bytes := correction [0x76, 0x65, 0x72, 0x74]

/-- `counter++` of a `uint8_t`. -/
def nextU8 (counter : Nat) : Nat := (counter + 1) % 256

theorem nextU8_iterate {counter n : Nat} (small : counter + n < 256) :
    nextU8^[n] counter = counter + n := by
  induction n with
  | zero => rfl
  | succ n ih =>
    rw [Function.iterate_succ_apply', ih (by omega), nextU8, Nat.mod_eq_of_lt (by omega)]
    omega

theorem iterate_succ (counter n : Nat) : (· + 1)^[n] counter = counter + n := by
  induction n with
  | zero => rfl
  | succ n ih =>
    rw [Function.iterate_succ_apply', ih]
    omega

/-- One table, a `uint8_t` for index and counter, and a check of the counter once a line. -/
def single (size : Nat) (small : size ≤ 128) : Format 1 where
  tags _ := vertCorrection
  size := size
  indexSize := 256
  next := nextU8
  more counter := counter 0 < size
  opens _ := by decide
  alone t u _ := Subsingleton.elim t u
  indexed := by decide
  steady counter t n below short := by
    have below := of_decide_eq_true below
    rw [Subsingleton.elim t 0]
    exact nextU8_iterate (by omega)

def velodyne16 : Format 1 := single 16 (by decide)

def velodyne32 : Format 1 := single 32 (by decide)

/-- `rot`, `vert`, `dist`, `vertOffset` and `horizOffset`; an `unsigned int` for the index, an
`int` for each counter, and no check. -/
def velodyne64 : Format 5 where
  tags := ![correction [0x72, 0x6F, 0x74], vertCorrection, correction [0x64, 0x69, 0x73, 0x74],
    correction [0x76, 0x65, 0x72, 0x74, 0x4F, 0x66, 0x66, 0x73, 0x65, 0x74],
    correction [0x68, 0x6F, 0x72, 0x69, 0x7A, 0x4F, 0x66, 0x66, 0x73, 0x65, 0x74]]
  size := 64
  indexSize := 2 ^ 32
  next counter := counter + 1
  more _ := true
  opens := by decide
  alone := by decide
  indexed := by decide
  steady counter t n _ _ := iterate_succ (counter t) n

/-- The variables of the reader. A table goes on behind its last entry: what is written there
hits other memory. -/
structure Reader (k : Nat) (D : Type) where
  counter : Fin k → Nat
  found : Fin k → Bool
  tables : Fin k → Nat → D
  /-- The indices written so far, each with its table. -/
  written : List (Fin k × Nat)

section Reading
variable {k : Nat} {D : Type} (f : Format k) (a : Conversion D)

/-- The first table with a property, as a chain of `if`s finds it. -/
def first (p : Fin k → Bool) : Option (Fin k) := (List.finRange k).find? p

/-- `table[counter] = atof(tmp.c_str()); counter++; found = false;` -/
def Reader.store (s : Reader k D) (t : Fin k) (tmp : Bytes) : Reader k D where
  counter := Function.update s.counter t (f.next (s.counter t))
  found := Function.update s.found t false
  tables := Function.update s.tables t (Function.update (s.tables t) (s.counter t) (a.atof tmp))
  written := s.written ++ [(t, s.counter t)]

/-- The comparisons of `tmp` with the tags. -/
def compare (s : Reader k D) (tmp : Bytes) : Reader k D × Bytes :=
  match first fun t => tmp == f.tags t with
  | none => (s, tmp)
  | some t => ({ s with found := Function.update s.found t true }, [])

/-- The body of the loop over the characters of a line. -/
def readChar (v : Reader k D × Bytes) (c : UInt8) : Reader k D × Bytes :=
  let (s, tmp) := v
  if blank c ∧ tmp = [] then compare f s tmp
  else if c = lt then
    match first s.found with
    | none => compare f s (tmp ++ [c])
    -- `continue`: `tmp` keeps the value
    | some t => (s.store f a t tmp, tmp)
  else compare f s (tmp ++ [c])

/-- One line, with an empty `tmp`; `none` when the index never reaches the end of the line. -/
def readLine (s : Reader k D) (line : Bytes) : Option (Reader k D) :=
  (forIndex f.indexSize line (readChar f a) (s, [])).map Prod.fst

/-- `while (getline(in, line) && …)` -/
def readLines (s : Reader k D) : List Bytes → Option (Reader k D)
  | [] => some s
  | line :: lines =>
    if f.more s.counter then (readLine f a s line).bind fun s => readLines s lines else some s

/-- The reader before the first line. -/
def start : Reader k D where
  counter _ := 0
  found _ := false
  tables _ _ := a.zero
  written := []

/-- What loading a text makes of the tables; `none` when it does not terminate. -/
def readCalibrationFile (text : Bytes) : Option (Reader k D) :=
  readLines f a (start a) (getlines newline text)

end Reading

/-! ## What a line says -/

section Scanning
variable {k : Nat} (f : Format k)

/-- The tag that a text begins with. -/
def tagOf (text : Bytes) : Option (Fin k) := first fun t => (f.tags t).isPrefixOf text

/-- A tag with the text that was read as its value. -/
abbrev Entry (k : Nat) := Fin k × Bytes

theorem tagOf_begins {text : Bytes} {t : Fin k} (tagged : tagOf f text = some t) :
    f.tags t <+: text := by
  simpa using List.find?_some tagged

theorem tags_length_pos (t : Fin k) : 0 < (f.tags t).length := by
  have opens := (f.opens t).1
  cases tag : f.tags t with
  | nil => simp [tag] at opens
  | cons c rest => simp

/-- The entries of a line and the tag that waits for its value behind it, given the tag that
waits before it. A value ends at the next `<`, and only an empty one lets another tag follow. -/
def scan (waiting : Option (Fin k)) (line : Bytes) : List (Entry k) × Option (Fin k) :=
  let body := line.dropWhile blank
  match waiting with
  | none =>
    match _tagged : tagOf f body with
    | none => ([], none)
    | some t => scan (some t) (body.drop (f.tags t).length)
  | some t =>
    match _ended : body.dropWhile (· ≠ lt) with
    | [] => ([], some t)
    | _ :: rest =>
      let value := body.takeWhile (· ≠ lt)
      if value = [] then ((t, value) :: (scan none rest).1, (scan none rest).2)
      else ([(t, value)], none)
termination_by line.length
decreasing_by
  · have inside : (f.tags t).length ≤ (line.dropWhile blank).length :=
      (tagOf_begins f _tagged).length_le
    have positive := tags_length_pos f t
    have shorter := (List.dropWhile_suffix (l := line) blank).length_le
    rw [List.length_drop]
    omega
  all_goals
    have behind := (List.dropWhile_suffix (l := body) (· ≠ lt)).length_le
    have shorter : body.length ≤ line.length := (List.dropWhile_suffix blank).length_le
    rw [_ended, List.length_cons] at behind
    omega

theorem scan_untagged {line : Bytes} (untagged : tagOf f (line.dropWhile blank) = none) :
    scan f none line = ([], none) := by
  rw [scan]
  split
  · rfl
  · case h_2 tagged => simp [untagged] at tagged

theorem scan_tagged {line : Bytes} {t : Fin k} (tagged : tagOf f (line.dropWhile blank) = some t) :
    scan f none line = scan f (some t) ((line.dropWhile blank).drop (f.tags t).length) := by
  rw [scan]
  split
  · case h_1 untagged => simp [untagged] at tagged
  · case h_2 u same =>
      rw [tagged] at same
      rw [Option.some.inj same]

/-- Text without a `<` and the `<` behind it. -/
theorem span_value {value : Bytes} (rest : Bytes) (plain : lt ∉ value) :
    (value ++ lt :: rest).takeWhile (· ≠ lt) = value ∧
      (value ++ lt :: rest).dropWhile (· ≠ lt) = lt :: rest := by
  have other : ∀ c ∈ value, decide (c ≠ lt) = true := by
    intro c inside
    exact decide_eq_true fun same => plain (same ▸ inside)
  rw [List.takeWhile_append_of_pos other, List.dropWhile_append_of_pos other]
  simp

theorem scan_value {line value rest : Bytes} (t : Fin k)
    (split : line.dropWhile blank = value ++ lt :: rest) (plain : lt ∉ value) :
    scan f (some t) line =
      if value = [] then ((t, value) :: (scan f none rest).1, (scan f none rest).2)
      else ([(t, value)], none) := by
  obtain ⟨front, behind⟩ := span_value rest plain
  rw [← split] at front behind
  generalize result : (if value = [] then _ else _) = r
  rw [scan]
  split
  · case h_1 ended =>
      rw [behind] at ended
      cases ended
  · case h_2 c others ended =>
      rw [behind] at ended
      obtain ⟨-, rfl⟩ := List.cons.inj ended
      rw [← result]
      simp only [front]

/-- Two characters at least for every entry but the first, whose tag may stand in an earlier line. -/
theorem scan_length (waiting : Option (Fin k)) (line : Bytes) :
    2 * (scan f waiting line).1.length ≤ line.length + (if waiting.isSome then 1 else 0) := by
  fun_induction scan f waiting line with
  | case1 => simp
  | case2 line body t tagged ih =>
    have tag : (f.tags t).length ≤ body.length := (tagOf_begins f tagged).length_le
    have positive := tags_length_pos f t
    have shorter : body.length ≤ line.length := (List.dropWhile_suffix blank).length_le
    simp only [List.length_drop, Option.isSome_some, Option.isSome_none, if_true,
      Bool.false_eq_true, if_false] at ih ⊢
    omega
  | case3 => simp
  | case4 line body t c rest ended value empty ih =>
    have behind : (c :: rest).length ≤ body.length := ended ▸ (List.dropWhile_suffix _).length_le
    have shorter : body.length ≤ line.length := (List.dropWhile_suffix blank).length_le
    simp only [List.length_cons, Option.isSome_some, Option.isSome_none, if_true,
      Bool.false_eq_true, if_false] at ih behind ⊢
    omega
  | case5 line body t c rest ended =>
    have behind : (c :: rest).length ≤ body.length := ended ▸ (List.dropWhile_suffix _).length_le
    have shorter : body.length ≤ line.length := (List.dropWhile_suffix blank).length_le
    simp only [List.length_cons, List.length_nil, Option.isSome_some, if_true] at behind ⊢
    omega

end Scanning

/-! ## The reader reads what a line says -/

section Refinement
variable {k : Nat} {D : Type} (f : Format k) (a : Conversion D)

theorem first_eq_none {p : Fin k → Bool} (nowhere : ∀ t, p t = false) : first p = none := by
  simp [first, nowhere]

theorem first_eq_some {p : Fin k → Bool} {t : Fin k} (holds : p t = true)
    (only : ∀ u, p u = true → u = t) : first p = some t := by
  unfold first
  cases found : (List.finRange k).find? p with
  | none => exact absurd holds (by simpa using List.find?_eq_none.1 found t (List.mem_finRange t))
  | some u => rw [only u (List.find?_some found)]

/-- A value enters its table. -/
def Reader.deliver (s : Reader k D) (e : Entry k) : Reader k D :=
  { s with
    counter := Function.update s.counter e.1 (f.next (s.counter e.1))
    tables := Function.update s.tables e.1
      (Function.update (s.tables e.1) (s.counter e.1) (a.atof e.2))
    written := s.written ++ [(e.1, s.counter e.1)] }

section Deliver
variable (s : Reader k D) (e : Entry k)

@[simp] theorem deliver_counter : (s.deliver f a e).counter =
    Function.update s.counter e.1 (f.next (s.counter e.1)) := rfl

@[simp] theorem deliver_tables : (s.deliver f a e).tables =
    Function.update s.tables e.1 (Function.update (s.tables e.1) (s.counter e.1) (a.atof e.2)) := rfl

@[simp] theorem deliver_written : (s.deliver f a e).written =
    s.written ++ [(e.1, s.counter e.1)] := rfl

end Deliver

def Reader.deliverAll (s : Reader k D) (es : List (Entry k)) : Reader k D :=
  es.foldl (fun s e => s.deliver f a e) s

/-- The flags while at most one tag waits for its value. -/
def Reader.waitFor (s : Reader k D) (waiting : Option (Fin k)) : Reader k D :=
  { s with found := fun t => waiting == some t }

theorem first_waitFor (s : Reader k D) (waiting : Option (Fin k)) :
    first (s.waitFor waiting).found = waiting := by
  cases waiting with
  | none => exact first_eq_none fun t => rfl
  | some t =>
    apply first_eq_some
    · simp [Reader.waitFor]
    · intro u same
      exact (Option.some.inj (beq_iff_eq.1 same)).symm

/-- The value of a waiting tag is stored, and no tag waits any more. -/
theorem store_waitFor (s : Reader k D) (t : Fin k) (tmp : Bytes) :
    (s.waitFor (some t)).store f a t tmp = (s.deliver f a (t, tmp)).waitFor none := by
  have cleared : Function.update (s.waitFor (some t)).found t false =
      (s.waitFor none).found := by
    funext u
    by_cases same : u = t
    · simp [same, Reader.waitFor]
    · simp [Reader.waitFor, same, Ne.symm same]
  rw [Reader.store, cleared]
  rfl

theorem compare_unmatched {tmp : Bytes} (unmatched : ∀ t, tmp ≠ f.tags t) (s : Reader k D) :
    compare f s tmp = (s, tmp) := by
  have nowhere : first (fun t => tmp == f.tags t) = none :=
    first_eq_none fun t => beq_eq_false_iff_ne.2 (unmatched t)
  simp [compare, nowhere]

/-- A whole tag empties `tmp` and waits for its value. -/
theorem compare_tag (s : Reader k D) (t : Fin k) :
    compare f (s.waitFor none) (f.tags t) = (s.waitFor (some t), []) := by
  have found : first (fun u => f.tags t == f.tags u) = some t := by
    apply first_eq_some (by simp)
    intro u same
    exact (f.alone t u ((beq_iff_eq.1 same) ▸ List.prefix_rfl)).symm
  have waits : Function.update (s.waitFor none).found t true = (s.waitFor (some t)).found := by
    funext u
    by_cases same : u = t
    · simp [same, Reader.waitFor]
    · simp [Reader.waitFor, same, Ne.symm same]
  simp only [compare, found, waits]
  rfl

theorem tags_ne_nil (t : Fin k) : f.tags t ≠ [] := List.ne_nil_of_length_pos (tags_length_pos f t)

/-- Blanks in front of a line, of a tag and of a value are skipped. -/
theorem foldl_blanks (s : Reader k D) (text : Bytes) :
    text.foldl (readChar f a) (s, []) = (text.dropWhile blank).foldl (readChar f a) (s, []) := by
  induction text with
  | nil => rfl
  | cons c text ih =>
    by_cases skipped : blank c
    · have skip : readChar f a (s, []) c = (s, []) := by
        simp [readChar, skipped, compare_unmatched f (fun t => (tags_ne_nil f t).symm) s]
      rw [List.foldl_cons, skip, ih, List.dropWhile_cons_of_pos skipped]
    · rw [List.dropWhile_cons_of_neg skipped]

/-- A character that is no blank in front and ends no value is put to the others. -/
theorem readChar_collects {s : Reader k D} {tmp : Bytes} {c : UInt8}
    (kept : tmp = [] → ¬ blank c) (free : c = lt → first s.found = none) :
    readChar f a (s, tmp) c = compare f s (tmp ++ [c]) := by
  have plain : ¬ (blank c ∧ tmp = []) := fun both => kept both.2 both.1
  rw [readChar, if_neg plain]
  by_cases bracket : c = lt
  · simp [bracket, free bracket]
  · simp [bracket]

/-- Text that completes no tag and ends no value is collected. -/
theorem foldl_collects (s : Reader k D) (tmp text : Bytes)
    (kept : tmp = [] → ∀ c ∈ text.head?, ¬ blank c)
    (free : lt ∈ text → first s.found = none)
    (unmatched : ∀ part, part <+: text → part ≠ [] → ∀ t, tmp ++ part ≠ f.tags t) :
    text.foldl (readChar f a) (s, tmp) = (s, tmp ++ text) := by
  induction text generalizing tmp with
  | nil => simp
  | cons c text ih =>
    have next : readChar f a (s, tmp) c = (s, tmp ++ [c]) := by
      rw [readChar_collects f a (fun front => kept front c rfl) (fun same => free (by simp [same])),
        compare_unmatched f (unmatched [c] (by simp) (by simp))]
    rw [List.foldl_cons, next, ih (tmp ++ [c])]
    · simp
    · simp
    · exact fun inside => free (List.mem_cons_of_mem c inside)
    · intro part begins content t
      simpa using unmatched (c :: part) (List.cons_prefix_cons.2 ⟨rfl, begins⟩) (by simp) t

theorem blank_lt : ¬ blank lt := by decide

/-- The last character of a tag, and no earlier one, completes it. -/
theorem foldl_tag (s : Reader k D) (t : Fin k) :
    (f.tags t).foldl (readChar f a) (s.waitFor none, []) = (s.waitFor (some t), []) := by
  have opens := (f.opens t).1
  have free := first_waitFor s none
  obtain ⟨front, last, tag⟩ : ∃ front last, f.tags t = front ++ [last] :=
    ⟨_, _, (List.dropLast_append_getLast (tags_ne_nil f t)).symm⟩
  have collected : front.foldl (readChar f a) (s.waitFor none, []) = (s.waitFor none, front) := by
    refine foldl_collects f a _ [] front (fun _ c head => ?_) (fun _ => free) ?_
    · rw [tag, List.head?_append, Option.mem_def.1 head] at opens
      exact Option.some.inj opens ▸ blank_lt
    · intro part begins _ u same
      rw [List.nil_append] at same
      have inside : f.tags u <+: f.tags t := by
        rw [← same, tag]
        exact begins.trans (List.prefix_append _ _)
      have shorter := begins.length_le
      rw [same, f.alone u t inside, tag, List.length_append, List.length_singleton] at shorter
      omega
  have kept : front = [] → ¬ blank last := by
    rintro rfl
    rw [tag] at opens
    exact Option.some.inj opens ▸ blank_lt
  rw [tag, List.foldl_append, collected, List.foldl_cons, List.foldl_nil,
    readChar_collects f a kept (fun _ => free), ← tag, compare_tag]

theorem not_blank_dropWhile (text : Bytes) : ∀ c ∈ (text.dropWhile blank).head?, ¬ blank c := by
  intro c head
  have front := List.head?_dropWhile_not blank text
  rw [Option.mem_def.1 head] at front
  simpa using front

theorem lt_mem_tags (t : Fin k) : lt ∈ f.tags t := List.mem_of_mem_head? (f.opens t).1

theorem not_prefix_of_tagOf {text : Bytes} (untagged : tagOf f text = none) (t : Fin k) :
    ¬ f.tags t <+: text := by
  have nowhere := List.find?_eq_none.1 untagged t (List.mem_finRange t)
  simpa using nowhere

/-- Text before the next `<` is collected, whatever waits for it. -/
theorem foldl_value (s : Reader k D) (value : Bytes) (front : ∀ c ∈ value.head?, ¬ blank c)
    (plain : lt ∉ value) :
    value.foldl (readChar f a) (s, []) = (s, value) := by
  refine foldl_collects f a s [] value (fun _ => front) (fun inside => absurd inside plain) ?_
  intro part begins _ t same
  rw [List.nil_append] at same
  exact plain (begins.subset (same ▸ lt_mem_tags f t))

/-- The `<` behind a value stores it. -/
theorem readChar_stores (s : Reader k D) (t : Fin k) (value : Bytes) :
    readChar f a (s.waitFor (some t), value) lt = ((s.deliver f a (t, value)).waitFor none, value) := by
  have plain : ¬ (blank lt ∧ value = []) := fun both => blank_lt both.1
  rw [readChar, if_neg plain, if_pos rfl, first_waitFor]
  exact congrArg (·, value) (store_waitFor f a s t value)

/-- Behind a value that is not empty, the rest of the line completes no tag. -/
theorem foldl_rest (s : Reader k D) (value rest : Bytes) (content : value ≠ []) (plain : lt ∉ value) :
    rest.foldl (readChar f a) (s.waitFor none, value) = (s.waitFor none, value ++ rest) := by
  refine foldl_collects f a _ value rest (fun empty => absurd empty content)
    (fun _ => first_waitFor s none) ?_
  intro part _ _ t same
  have opens := (f.opens t).1
  rw [← same, List.head?_append_of_ne_nil _ content] at opens
  exact plain (List.mem_of_mem_head? opens)

/-- A text with a `<`, split there. -/
theorem split_value {text rest : Bytes} {c : UInt8}
    (ended : text.dropWhile (· ≠ lt) = c :: rest) :
    text = text.takeWhile (· ≠ lt) ++ lt :: rest ∧ lt ∉ text.takeWhile (· ≠ lt) := by
  have bracket := List.head?_dropWhile_not (· ≠ lt) text
  rw [ended, List.head?_cons] at bracket
  have same : c = lt := by simpa using bracket
  constructor
  · calc text = text.takeWhile (· ≠ lt) ++ text.dropWhile (· ≠ lt) :=
          List.takeWhile_append_dropWhile.symm
      _ = text.takeWhile (· ≠ lt) ++ lt :: rest := by rw [ended, same]
  · intro inside
    simpa using List.mem_takeWhile_imp inside

/-- The loop over a line, from an empty `tmp`, delivers what the line says. -/
theorem foldl_scan (s : Reader k D) (waiting : Option (Fin k)) (line : Bytes) :
    (line.foldl (readChar f a) (s.waitFor waiting, [])).1 =
      (s.deliverAll f a (scan f waiting line).1).waitFor (scan f waiting line).2 := by
  fun_induction scan f waiting line generalizing s with
  | case1 line body untagged =>
    rw [foldl_blanks, foldl_collects]
    · rfl
    · exact fun _ => not_blank_dropWhile line
    · exact fun _ => first_waitFor s none
    · intro part begins _ t same
      rw [List.nil_append] at same
      exact not_prefix_of_tagOf f untagged t (same ▸ begins)
  | case2 line body t tagged ih =>
    have split : f.tags t ++ body.drop (f.tags t).length = body :=
      List.prefix_iff_eq_append.1 (tagOf_begins f tagged)
    have run : body.foldl (readChar f a) (s.waitFor none, []) =
        (body.drop (f.tags t).length).foldl (readChar f a) (s.waitFor (some t), []) := by
      rw [← foldl_tag f a s t, ← List.foldl_append, split]
    rw [foldl_blanks]
    exact (congrArg Prod.fst run).trans (ih s)
  | case3 line body t ended =>
    have plain : lt ∉ body := fun inside => by simpa using List.dropWhile_eq_nil_iff.1 ended lt inside
    rw [foldl_blanks, foldl_value f a _ _ (not_blank_dropWhile line) plain]
    rfl
  | case4 line body t c rest ended value empty ih =>
    obtain ⟨split, -⟩ := split_value ended
    have bare : body = lt :: rest := by
      rw [split]
      exact congrArg (· ++ lt :: rest) empty
    have run : body.foldl (readChar f a) (s.waitFor (some t), []) =
        rest.foldl (readChar f a) ((s.deliver f a (t, [])).waitFor none, []) := by
      rw [bare, List.foldl_cons, readChar_stores]
    rw [foldl_blanks, empty]
    exact (congrArg Prod.fst run).trans (ih _)
  | case5 line body t c rest ended value content =>
    obtain ⟨split, plain⟩ := split_value ended
    have front : ∀ c ∈ value.head?, ¬ blank c := by
      intro d head
      refine not_blank_dropWhile line d ?_
      change d ∈ body.head?
      rw [split, List.head?_append_of_ne_nil _ content]
      exact head
    have run : body.foldl (readChar f a) (s.waitFor (some t), []) =
        ((s.deliver f a (t, value)).waitFor none, value ++ rest) := by
      rw [split, List.foldl_append, foldl_value f a _ _ front plain, List.foldl_cons,
        readChar_stores, foldl_rest f a _ _ _ content plain]
    rw [foldl_blanks]
    exact congrArg Prod.fst run

end Refinement

end OpendlvCore.Velodyne.CalibrationFile
