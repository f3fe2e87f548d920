import OpendlvCore.Sick.Decoder
import Mathlib.Data.List.Basic

/-!
# Measurement telegrams in a byte stream

A scan of a whole stream, independent of its chunks: behind a measurement header
follow 722 payload bytes and one more byte that is never looked at. The scan can be
told to miss the headers that begin at certain offsets.
-/
namespace OpendlvCore.Sick
open CBytes

/-- The offset and all bytes behind each header found. `skip` bytes are passed over first,
and the stream begins at `offset`. -/
def telegrams (cut : Nat → Bool) : Nat → Nat → Bytes → List (Nat × Bytes)
  | _, _, [] => []
  | skip + 1, offset, _ :: rest => telegrams cut skip (offset + 1) rest
  | 0, offset, b :: rest =>
    if (b :: rest).take 7 = measurementHeader ∧ cut offset = false then
      (offset, (b :: rest).drop 7) :: telegrams cut 729 (offset + 1) rest
    else telegrams cut 0 (offset + 1) rest

/-- The payload is complete once a byte behind it has arrived. -/
def complete (telegram : Nat × Bytes) : Bool := decide (722 < telegram.2.length)

def payloads (found : List (Nat × Bytes)) : List Bytes :=
  (found.filter complete).map fun telegram => telegram.2.take 722

section Scan
variable {cut : Nat → Bool} {s : Bytes} {offset : Nat}

theorem telegrams_nil (skip offset : Nat) : telegrams cut skip offset [] = [] := by
  cases skip <;> rfl

/-- Bytes to be skipped can be removed in advance. -/
theorem telegrams_add (n skip offset : Nat) (s : Bytes) :
    telegrams cut (n + skip) offset s = telegrams cut skip (offset + n) (s.drop n) := by
  induction n generalizing offset s with
  | zero => rw [Nat.zero_add, Nat.add_zero, List.drop_zero]
  | succ n ih =>
    cases s with
    | nil => rw [List.drop_nil, telegrams_nil, telegrams_nil]
    | cons b rest =>
      rw [Nat.succ_add, telegrams, ih, List.drop_succ_cons, Nat.add_right_comm, Nat.add_assoc]

theorem telegrams_found (here : s.take 7 = measurementHeader) (whole : cut offset = false) :
    telegrams cut 0 offset s = (offset, s.drop 7) :: telegrams cut 723 (offset + 7) (s.drop 7) := by
  cases s with
  | nil => cases here
  | cons b rest =>
    rw [telegrams, if_pos ⟨here, whole⟩, List.drop_succ_cons, telegrams_add 6 723, Nat.add_assoc]

theorem telegrams_drop (missing : ¬ (s.take 7 = measurementHeader ∧ cut offset = false)) :
    telegrams cut 0 offset s = telegrams cut 0 (offset + 1) (s.drop 1) := by
  cases s with
  | nil => rw [List.drop_nil, telegrams_nil, telegrams_nil]
  | cons b rest =>
    rw [telegrams, if_neg missing]
    rfl

/-- Where no header begins among the first bytes, they can be dropped. -/
theorem telegrams_drop_many (n : Nat)
    (missing : ∀ i < n, (s.drop i).take 7 ≠ measurementHeader) :
    telegrams cut 0 offset s = telegrams cut 0 (offset + n) (s.drop n) := by
  induction n with
  | zero => rw [Nat.add_zero, List.drop_zero]
  | succ n ih =>
    have last : ¬ ((s.drop n).take 7 = measurementHeader ∧ cut (offset + n) = false) :=
      fun both => missing n (Nat.lt_succ_self n) both.1
    rw [ih fun i before => missing i (by omega), telegrams_drop last, List.drop_drop, Nat.add_assoc]

theorem payloads_cons (telegram : Nat × Bytes) (found : List (Nat × Bytes)) :
    payloads (telegram :: found) =
      (if 722 < telegram.2.length then [telegram.2.take 722] else []) ++ payloads found := by
  by_cases whole : 722 < telegram.2.length
  · simp [payloads, complete, whole]
  · simp [payloads, complete, whole]

/-- What is found once `got` of the current payload has been stored. -/
def pending (cut : Nat → Bool) (got : Bytes) (offset : Nat) (rest : Bytes) : List Bytes :=
  (if 722 < got.length + rest.length then [got ++ rest.take (722 - got.length)] else []) ++
    payloads (telegrams cut (723 - got.length) offset rest)

theorem pending_store {got rest : Bytes} (n : Nat) (lacks : n ≤ 722 - got.length)
    (here : n ≤ rest.length) :
    pending cut (got ++ rest.take n) (offset + n) (rest.drop n) = pending cut got offset rest := by
  have taken : (got ++ rest.take n).length = got.length + n := by simp [here]
  have total : got.length + n + (rest.drop n).length = got.length + rest.length := by
    simp only [List.length_drop]
    omega
  have split : rest.take n ++ (rest.drop n).take (722 - (got.length + n)) =
      rest.take (722 - got.length) := by
    rw [← List.take_add, Nat.sub_add_eq, Nat.add_sub_cancel' lacks]
  have skips : 723 - got.length = n + (723 - (got.length + n)) := by omega
  rw [pending, pending, taken, total, List.append_assoc, split, skips, telegrams_add]

theorem pending_convert {got rest : Bytes} (full : got.length = 722) (more : rest ≠ []) :
    got :: payloads (telegrams cut 0 (offset + 1) (rest.drop 1)) = pending cut got offset rest := by
  have arrived : 722 < got.length + rest.length := by
    have := List.length_pos_iff.mpr more
    omega
  rw [pending, if_pos arrived, full, telegrams_add 1 0, Nat.sub_self, List.take_zero,
    List.append_nil]
  rfl

theorem pending_start {rest : Bytes} (here : rest.take 7 = measurementHeader)
    (whole : cut offset = false) :
    pending cut [] (offset + 7) (rest.drop 7) = payloads (telegrams cut 0 offset rest) := by
  rw [telegrams_found here whole, payloads_cons, pending]
  simp only [List.length_nil, Nat.zero_add, List.nil_append, Nat.sub_zero]

end Scan

/-! ## The patterns of the decoder -/

section Patterns
variable {s : Bytes}

theorem agrees_iff {pattern : Bytes} {ignored : List Nat} :
    agrees pattern ignored s = true ↔
      ∀ i < pattern.length, i ∈ ignored ∨ s[i]? = pattern[i]? := by
  simp [agrees]

/-- Bytes behind the pattern do not matter. -/
theorem agrees_append (pattern : Bytes) (ignored : List Nat) (after : Bytes)
    (enough : pattern.length ≤ s.length) :
    agrees pattern ignored (s ++ after) = agrees pattern ignored s := by
  rw [Bool.eq_iff_iff, agrees_iff, agrees_iff]
  apply forall₂_congr
  intro i inside
  rw [List.getElem?_append_left (by omega)]

theorem getElem?_of_header {i k : Nat} (header : (s.drop i).take 7 = measurementHeader)
    (inside : k < 7) : s[i + k]? = measurementHeader[k]? := by
  rw [← header, List.getElem?_take_of_lt inside, List.getElem?_drop]

theorem agrees_header_iff : agrees measurementHeader [] s = true ↔ s.take 7 = measurementHeader := by
  rw [agrees_iff]
  constructor
  · intro same
    apply List.ext_getElem?
    intro i
    by_cases inside : i < 7
    · rw [List.getElem?_take_of_lt inside]
      simpa using same i inside
    · have outside : measurementHeader.length ≤ i := by
        change 7 ≤ i
        omega
      rw [List.getElem?_take_eq_none (by omega), List.getElem?_eq_none outside]
  · intro taken i inside
    right
    have same : s[0 + i]? = measurementHeader[i]? := getElem?_of_header taken inside
    rwa [Nat.zero_add] at same

/-- Every header that begins inside a start response has a byte that the response fixes
to another value, so none does, whatever the two free bytes are. -/
theorem no_header_in_response (response : agrees startResponse [7, 8] s = true) :
    ∀ i < 10, (s.drop i).take 7 ≠ measurementHeader := by
  have clash : ∀ i < 10, ∃ k < 7, i + k < 10 ∧ i + k ∉ [7, 8] ∧
      startResponse[i + k]? ≠ measurementHeader[k]? := by decide
  intro i inside header
  obtain ⟨k, small, fits, compared, different⟩ := clash i inside
  rcases agrees_iff.mp response (i + k) fits with ignored | same
  · exact compared ignored
  · exact different (same.symm.trans (getElem?_of_header header small))

end Patterns

end OpendlvCore.Sick
