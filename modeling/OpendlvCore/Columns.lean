import OpendlvCore.Bytes
import Mathlib.Data.List.Range
import Mathlib.Data.List.Perm.Basic

/-!
# Columns in interleaved streams

A column of words is divided among several streams by layer, each stream holding its
layers of one column after the other. Reading them back: fixed-width records, big-endian
words, and the layers put together again. Last, words of two bit fields.
-/
namespace Columns
open CBytes

section Records
variable {α β : Type}

/-- The record with this number in a stream of records of one width. -/
def record (width k : Nat) (stream : List α) : List α := (stream.drop (width * k)).take width

theorem length_flatMap_records {width : Nat} (encode : β → List α) (xs : List β)
    (same : ∀ x ∈ xs, (encode x).length = width) :
    (xs.flatMap encode).length = width * xs.length := by
  induction xs with
  | nil => rfl
  | cons x xs ih =>
    rw [List.flatMap_cons, List.length_append, same x List.mem_cons_self,
      ih (fun y there => same y (List.mem_cons_of_mem _ there)), List.length_cons, Nat.mul_succ,
      Nat.add_comm]

theorem record_flatMap {width : Nat} (encode : β → List α) (xs : List β)
    (same : ∀ x ∈ xs, (encode x).length = width) {k : Nat} (inside : k < xs.length) :
    record width k (xs.flatMap encode) = encode xs[k] := by
  induction xs generalizing k with
  | nil => exact absurd inside (Nat.not_lt_zero k)
  | cons x xs ih =>
    have first : (encode x).length = width := same x List.mem_cons_self
    rw [List.flatMap_cons, record]
    cases k with
    | zero =>
      rw [Nat.mul_zero, List.drop_zero, List.take_append_of_le_length (Nat.le_of_eq first.symm),
        List.take_of_length_le (Nat.le_of_eq first)]
      rfl
    | succ k =>
      have ahead : width * (k + 1) = (encode x).length + width * k := by
        rw [first, Nat.mul_succ, Nat.add_comm]
      rw [ahead, List.drop_length_add_append, List.getElem_cons_succ]
      exact ih (fun y there => same y (List.mem_cons_of_mem _ there)) (Nat.lt_of_succ_lt_succ inside)

/-- A stream of whole records is its records one after the other. -/
theorem flatMap_record {width : Nat} (n : Nat) (stream : List α) (whole : stream.length = width * n) :
    ((List.range n).flatMap fun k => record width k stream) = stream := by
  induction n generalizing stream with
  | zero =>
    rw [Nat.mul_zero] at whole
    rw [List.eq_nil_of_length_eq_zero whole]
    rfl
  | succ n ih =>
    have rest : (stream.drop width).length = width * n := by
      rw [List.length_drop, whole, Nat.mul_succ, Nat.add_sub_cancel]
    have next : ∀ k, record width (k + 1) stream = record width k (stream.drop width) := by
      intro k
      rw [record, record, List.drop_drop, Nat.mul_succ, Nat.add_comm]
    rw [List.range_succ_eq_map, List.flatMap_cons, List.flatMap_map]
    simp only [next, ih _ rest]
    rw [record, Nat.mul_zero, List.drop_zero, List.take_append_drop]

theorem getElem?_record {width k j : Nat} (stream : List α) (inside : j < width) :
    (record width k stream)[j]? = stream[width * k + j]? := by
  rw [record, List.getElem?_take_of_lt inside, List.getElem?_drop]

end Records

/-- A 16-bit word with its high octet first. -/
def bigEndian (word : Nat) : Bytes := [UInt8.ofNat (word / 256), UInt8.ofNat word]

def words : Bytes → List Nat
  | high :: low :: rest => (high.toNat * 256 + low.toNat) :: words rest
  | _ => []

theorem words_flatMap_bigEndian (ws : List Nat) (small : ∀ w ∈ ws, w < 2 ^ 16) :
    words (ws.flatMap bigEndian) = ws := by
  induction ws with
  | nil => rfl
  | cons w ws ih =>
    have bound : w < 2 ^ 16 := small w List.mem_cons_self
    have value : (UInt8.ofNat (w / 256)).toNat * 256 + (UInt8.ofNat w).toNat = w := by
      rw [UInt8.toNat_ofNat', UInt8.toNat_ofNat']
      omega
    change ((UInt8.ofNat (w / 256)).toNat * 256 + (UInt8.ofNat w).toNat) ::
      words (ws.flatMap bigEndian) = _
    rw [value, ih (fun v there => small v (List.mem_cons_of_mem _ there))]

section Layers
variable {α : Type}

/-- The words of a column, each under its layer. -/
def placed (layers : List (List Nat)) (parts : List (List α)) : List (Nat × α) :=
  (layers.zip parts).flatMap fun (layer, part) => layer.zip part

/-- One column from its parts; `none` if a layer is missing. -/
def merge (n : Nat) (layers : List (List Nat)) (parts : List (List α)) : Option (List α) :=
  (List.range n).mapM fun layer => (placed layers parts).lookup layer

theorem placed_map (layers : List (List Nat)) (value : Nat → α) :
    placed layers (layers.map fun layer => layer.map value) =
      layers.flatten.map fun l => (l, value l) := by
  induction layers with
  | nil => rfl
  | cons layer rest ih =>
    have here : layer.zip (layer.map value) = layer.map fun l => (l, value l) := by
      induction layer with
      | nil => rfl
      | cons l ls ih => rw [List.map_cons, List.zip_cons_cons, ih, List.map_cons]
    change layer.zip (layer.map value) ++ placed rest (rest.map fun layer => layer.map value) = _
    rw [here, ih, List.flatten_cons, List.map_append]

theorem lookup_map {value : Nat → α} {l : Nat} (ls : List Nat) (there : l ∈ ls) :
    (ls.map fun l => (l, value l)).lookup l = some (value l) := by
  induction ls with
  | nil => exact absurd there List.not_mem_nil
  | cons k ls ih =>
    rw [List.map_cons, List.lookup_cons]
    by_cases same : l = k
    · rw [same, beq_self_eq_true]
    · rw [beq_false_of_ne same]
      apply ih
      exact (List.mem_cons.mp there).resolve_left same

theorem mapM_some {β γ : Type} {f : β → Option γ} {g : β → γ} (xs : List β)
    (each : ∀ x ∈ xs, f x = some (g x)) : xs.mapM f = some (xs.map g) := by
  induction xs with
  | nil => rfl
  | cons x xs ih =>
    rw [List.mapM_cons, each x List.mem_cons_self,
      ih (fun y there => each y (List.mem_cons_of_mem _ there))]
    rfl

/-- Layers that are together all layers give the column back. -/
theorem merge_layers {n : Nat} {layers : List (List Nat)} (all : ∀ l < n, l ∈ layers.flatten)
    (value : Nat → α) :
    merge n layers (layers.map fun layer => layer.map value) = some ((List.range n).map value) := by
  apply mapM_some
  intro l low
  rw [placed_map, lookup_map _ (all l (List.mem_range.mp low))]

end Layers

section Fields
variable {width bits high low : Nat}

theorem fields_lt (inside : bits ≤ width) (fits : low < 2 ^ bits)
    (fits' : high < 2 ^ (width - bits)) : high * 2 ^ bits + low < 2 ^ width := by
  calc high * 2 ^ bits + low
    _ < high * 2 ^ bits + 2 ^ bits := Nat.add_lt_add_left fits _
    _ = (high + 1) * 2 ^ bits := (Nat.succ_mul _ _).symm
    _ ≤ 2 ^ (width - bits) * 2 ^ bits := Nat.mul_le_mul_right _ fits'
    _ = 2 ^ width := by rw [← Nat.pow_add, Nat.sub_add_cancel inside]

theorem high_field (high : Nat) (fits : low < 2 ^ bits) :
    (high * 2 ^ bits + low) / 2 ^ bits = high := by
  rw [Nat.mul_comm, Nat.mul_add_div (Nat.two_pow_pos bits), Nat.div_eq_of_lt fits, Nat.add_zero]

theorem low_field (high : Nat) (fits : low < 2 ^ bits) :
    (high * 2 ^ bits + low) % 2 ^ bits = low := by
  rw [Nat.mul_comm, Nat.mul_add_mod, Nat.mod_eq_of_lt fits]

/-- The mask of the low field. -/
theorem low_mask (width bits : Nat) : (2 ^ width - 1) >>> bits = 2 ^ (width - bits) - 1 := by
  apply Nat.eq_of_testBit_eq
  intro i
  rw [Nat.testBit_shiftRight, Nat.testBit_two_pow_sub_one, Nat.testBit_two_pow_sub_one,
    decide_eq_decide]
  omega

/-- A mask for the high field clears the low one. -/
theorem and_high_mask {word : Nat} (small : word < 2 ^ width) :
    word &&& ((2 ^ width - 1) <<< bits) % 2 ^ width = word / 2 ^ bits * 2 ^ bits := by
  apply Nat.eq_of_testBit_eq
  intro i
  rw [Nat.testBit_and, Nat.testBit_mod_two_pow, Nat.testBit_shiftLeft, Nat.testBit_two_pow_sub_one,
    Nat.testBit_mul_two_pow, Nat.testBit_div_two_pow]
  by_cases above : bits ≤ i
  · rw [Nat.sub_add_cancel above]
    by_cases inside : i < width
    · have before : i - bits < width := by omega
      simp [above, inside, before]
    · have zero : word.testBit i = false := Nat.testBit_lt_two_pow
        (Nat.lt_of_lt_of_le small (Nat.pow_le_pow_right (by decide) (Nat.not_lt.mp inside)))
      simp [zero]
  · simp [above]

end Fields

end Columns
