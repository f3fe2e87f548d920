import OpendlvCore.Trimble.Decoder

/-!
# NMEA sentences and the fixes they carry
-/
namespace OpendlvCore.Trimble
open CBytes CText

/-- Text without the two separators. -/
structure Field where
  text : Bytes
  no_dollar : dollar ∉ text
  no_comma : comma ∉ text

/-- An angle in the format `d..dmm.m..m`, with any number of digits behind the point. -/
structure Angle (width : Nat) where
  degrees : List (Fin 10)
  minutes : List (Fin 10)
  fraction : List (Fin 10)
  degrees_length : degrees.length = width := by decide
  minutes_length : minutes.length = 2 := by decide

def Angle.text {width : Nat} (a : Angle width) : Bytes :=
  (a.degrees ++ a.minutes).map digitChar ++ 0x2E :: a.fraction.map digitChar

/-- Degrees and sixtieths of a degree. -/
def Angle.value {width : Nat} (a : Angle width) : ℚ :=
  natValue a.degrees + (natValue a.minutes + natValue a.fraction / 10 ^ a.fraction.length) / 60

/-- "N" -/
def north : Bytes := [0x4E]
/-- "E" -/
def east : Bytes := [0x45]

/-- A sentence; only GPGGA sentences carry a fix. -/
inductive Sentence where
  | gpgga (time : Field) (latitude : Angle 2) (longitude : Angle 3) (fields : List Field)
  | other (type : Field) (fields : List Field) (different : type.text ≠ GPGGA)

namespace Sentence

/-- Further fields, each behind a comma, and the line end. -/
def ending (fields : List Field) : Bytes :=
  fields.flatMap (fun field => comma :: field.text) ++ [0x0D, 0x0A]

/-- A GPGGA sentence from its type up to its longitude. -/
def significant (time : Field) (latitude : Angle 2) (longitude : Angle 3) : Bytes :=
  GPGGA ++ comma :: (time.text ++ comma :: (latitude.text ++ comma :: (north ++ comma :: longitude.text)))

/-- What stands behind the `$`. -/
def body : Sentence → Bytes
  | gpgga time latitude longitude fields =>
    significant time latitude longitude ++ comma :: (east ++ ending fields)
  | other type fields _ => type.text ++ ending fields

/-- The part of a GPGGA sentence from which its fix is read. -/
def needed : Sentence → Bytes
  | gpgga time latitude longitude _ => significant time latitude longitude
  | other .. => []

def text (s : Sentence) : Bytes := dollar :: s.body

/-- The container that a sentence stands for. -/
def fix : Sentence → Option WGS84Coordinate
  | gpgga _ latitude longitude _ => some ⟨some latitude.value, some longitude.value⟩
  | other .. => none

end Sentence

def stream (sentences : List Sentence) : Bytes := sentences.flatMap Sentence.text

/-- One container for each GPGGA sentence, in order. -/
def fixes (sentences : List Sentence) : List WGS84Coordinate := sentences.filterMap Sentence.fix

section Angles
variable {width : Nat}

theorem Angle.plain (a : Angle width) (separator : UInt8) (sign : separator = dollar ∨ separator = comma) :
    separator ∉ a.text := by
  have digits : ∀ d : Fin 10, digitChar d ≠ dollar ∧ digitChar d ≠ comma := by decide
  intro inside
  rw [Angle.text, List.mem_append, List.mem_map, List.mem_cons, List.mem_map] at inside
  rcases inside with ⟨d, -, rfl⟩ | rfl | ⟨d, -, rfl⟩
  · exact sign.elim (digits d).1 (digits d).2
  · revert sign
    decide
  · exact sign.elim (digits d).1 (digits d).2

theorem Angle.text_ne_nil (a : Angle width) : a.text ≠ [] := by
  rw [Angle.text]
  exact List.append_ne_nil_of_right_ne_nil _ (List.cons_ne_nil _ _)

/-- The conversion takes the text of an angle to its value. -/
theorem Angle.read (a : Angle width) :
    ∃ x, stod a.text = some x ∧ convert x = some a.value := by
  have two : 2 ≤ (a.degrees ++ a.minutes).length := by
    rw [List.length_append, a.minutes_length]
    omega
  refine ⟨_, stod_decimal two, ?_⟩
  have minutes : natValue a.minutes + 1 ≤ 100 := by
    have := natValue_lt a.minutes
    rwa [a.minutes_length] at this
  have minutes' : (natValue a.minutes : ℚ) + 1 ≤ 100 := by exact_mod_cast minutes
  have scale : (0 : ℚ) < 10 ^ a.fraction.length := by positivity
  have fraction : (natValue a.fraction : ℚ) / 10 ^ a.fraction.length < 1 := by
    rw [div_lt_one scale]
    exact_mod_cast natValue_lt a.fraction
  have nonneg : (0 : ℚ) ≤ natValue a.fraction / 10 ^ a.fraction.length := by positivity
  have hundredth : (natValue (a.degrees ++ a.minutes ++ a.fraction) : ℚ) / 10 ^ a.fraction.length / 100 =
      natValue a.degrees +
        (natValue a.minutes + natValue a.fraction / 10 ^ a.fraction.length) / 100 := by
    rw [natValue_append, natValue_append, a.minutes_length]
    push_cast
    field_simp
    ring
  have whole : truncate ((natValue a.degrees : ℚ) +
      (natValue a.minutes + natValue a.fraction / 10 ^ a.fraction.length) / 100) =
        natValue a.degrees := by
    apply truncate_add
    · positivity
    · linarith
  rw [convert, Option.map_some, hundredth, whole, Angle.value]
  congr 1
  push_cast
  ring

end Angles

section Sentences
variable {fields : List Field} {message : Bytes} {time : Field} {latitude : Angle 2}
  {longitude : Angle 3}

theorem dollar_not_mem_ending : dollar ∉ Sentence.ending fields := by
  intro inside
  rw [Sentence.ending, List.mem_append, List.mem_flatMap] at inside
  rcases inside with ⟨field, -, inside⟩ | inside
  · rcases List.mem_cons.mp inside with same | inside
    · revert same
      decide
    · exact field.no_dollar inside
  · revert inside
    decide

theorem dollar_not_mem_significant :
    dollar ∉ Sentence.significant time latitude longitude := by
  have letters : dollar ∉ GPGGA ∧ dollar ≠ comma ∧ dollar ∉ north := by decide
  simp only [Sentence.significant, List.mem_append, List.mem_cons, not_or]
  exact ⟨letters.1, letters.2.1, time.no_dollar, letters.2.1, latitude.plain dollar (.inl rfl),
    letters.2.1, letters.2.2, letters.2.1, longitude.plain dollar (.inl rfl)⟩

/-- A `$` only begins a sentence. -/
theorem dollar_not_mem_body (s : Sentence) : dollar ∉ s.body := by
  cases s with
  | gpgga time latitude longitude fields =>
    have letters : dollar ≠ comma ∧ dollar ∉ east := by decide
    simp only [Sentence.body, List.mem_append, List.mem_cons, not_or]
    exact ⟨dollar_not_mem_significant, letters.1, letters.2, dollar_not_mem_ending⟩
  | other type fields different =>
    simp only [Sentence.body, List.mem_append, not_or]
    exact ⟨type.no_dollar, dollar_not_mem_ending⟩

/-- A message that reaches from the type to the end of the longitude gives the whole fix. -/
theorem readMessage_significant {rest : Bytes} {v : Locals} (ends : ∀ c ∈ rest.head?, c = comma) :
    readMessage v (Sentence.significant time latitude longitude ++ rest) =
      { gotGpgga := true, latitude := some latitude.value, longitude := some longitude.value } := by
  have letters : comma ∉ GPGGA ∧ comma ∉ north := by decide
  have noComma : ∀ {width : Nat} (a : Angle width), comma ∉ a.text := fun a => a.plain comma (.inr rfl)
  obtain ⟨others, last⟩ : ∃ others, getlines comma (longitude.text ++ rest) =
      longitude.text :: others := by
    cases rest with
    | nil => exact ⟨[], by rw [List.append_nil, getlines_last (noComma _) longitude.text_ne_nil]⟩
    | cons c rest =>
      obtain rfl := ends c rfl
      exact ⟨_, getlines_append (noComma _)⟩
  have lines : getlines comma (Sentence.significant time latitude longitude ++ rest) =
      GPGGA :: time.text :: latitude.text :: north :: longitude.text :: others := by
    simp only [Sentence.significant, List.append_assoc, List.cons_append]
    rw [getlines_append letters.1, getlines_append time.no_comma, getlines_append (noComma _),
      getlines_append letters.2, last]
  have gpgga : typeOf (Sentence.significant time latitude longitude ++ rest) = GPGGA := by
    obtain ⟨others, eq⟩ : ∃ others, getlines comma
        (Sentence.significant time latitude longitude ++ rest) =
          typeOf (Sentence.significant time latitude longitude ++ rest) :: others :=
      getlines_eq_cons (by simp [Sentence.significant])
    rw [lines] at eq
    exact (List.cons.inj eq).1.symm
  obtain ⟨x, readLatitude, latitudeValue⟩ := latitude.read
  obtain ⟨y, readLongitude, longitudeValue⟩ := longitude.read
  rw [readMessage_gpgga gpgga, lines, readGpgga]
  simp only [List.getElem?_cons_succ, List.getElem?_cons_zero, Option.bind_some, readLatitude,
    readLongitude, latitudeValue, longitudeValue]

end Sentences

end OpendlvCore.Trimble
