import OpendlvCore.Sorting
import Mathlib.Algebra.Order.Ring.Rat
import Mathlib.Algebra.Order.Group.Unbundled.Abs
import Mathlib.Data.List.Nodup
import Mathlib.Data.List.Range
import Mathlib.Tactic.NormNum

/-!
# The order of the sensors

Sensor IDs in increasing order of their vertical angles. The angles are sorted on
their own, and each is then looked up with a tolerance of a tenth of a degree.
-/
namespace OpendlvCore.Velodyne
open CSort

/-- `index16sensorIDs` and `index32sensorIDs`, for `n` sensors: `m_sensorOrderIndex`. -/
def indexSensorIDs (n : Nat) (verticalAngle : Nat → ℚ) : List Nat :=
  let orderedVerticalAngle := exchangeSort n verticalAngle
  (List.range n).map fun i =>
    ((List.range n).find? fun j => |orderedVerticalAngle i - verticalAngle j| < 1 / 10).getD 0

/-- The same for an array that held other values: a place whose angle is not found keeps its own. -/
def indexSensorIDsFrom (initial : Nat → Nat) (n : Nat) (verticalAngle : Nat → ℚ) : List Nat :=
  let orderedVerticalAngle := exchangeSort n verticalAngle
  (List.range n).map fun i =>
    ((List.range n).find? fun j => |orderedVerticalAngle i - verticalAngle j| < 1 / 10).getD (initial i)

def index16sensorIDs (initial : Nat → Nat) (verticalAngle : Nat → ℚ) : List Nat :=
  indexSensorIDsFrom initial 16 verticalAngle

def index32sensorIDs (initial : Nat → Nat) (verticalAngle : Nat → ℚ) : List Nat :=
  indexSensorIDsFrom initial 32 verticalAngle

/-- The angles of a calibration that tells the sensors apart. -/
def Apart (n : Nat) (verticalAngle : Nat → ℚ) : Prop :=
  ∀ i < n, ∀ j < n, i ≠ j → 1 / 10 ≤ |verticalAngle i - verticalAngle j|

instance (n : Nat) (verticalAngle : Nat → ℚ) : Decidable (Apart n verticalAngle) :=
  inferInstanceAs (Decidable (∀ i < n, ∀ j < n, i ≠ j → 1 / 10 ≤ |verticalAngle i - verticalAngle j|))

/-- All sensors once, and from one to the next the vertical angle increases. -/
structure Increasing (n : Nat) (verticalAngle : Nat → ℚ) (order : List Nat) : Prop where
  perm : order.Perm (List.range n)
  angles : order.Pairwise fun i j => verticalAngle i < verticalAngle j

/-- The two steps and what they lead to: a sorted copy of the angles, exactly one sensor found for
each of its places, and all the sensors in the order of their angles. -/
structure SortsSensors (n : Nat) (verticalAngle : Nat → ℚ) (order : List Nat) : Prop
    extends Increasing n verticalAngle order where
  rearranged : Rearranged 0 n verticalAngle (exchangeSort n verticalAngle)
  sorted : ∀ i j, i < j → j < n → exchangeSort n verticalAngle i < exchangeSort n verticalAngle j
  found : ∀ i < n, ∃ sensorID < n, order[i]? = some sensorID ∧
    ∀ j < n, |exchangeSort n verticalAngle i - verticalAngle j| < 1 / 10 ↔ j = sensorID

section Order
variable {n : Nat} {verticalAngle : Nat → ℚ}

variable (n verticalAngle) in
theorem length_indexSensorIDs : (indexSensorIDs n verticalAngle).length = n := by
  rw [indexSensorIDs, List.length_map, List.length_range]

/-- Whatever the lookup finds is a sensor. -/
theorem indexSensorIDs_inside {sensorID : Nat} (there : sensorID ∈ indexSensorIDs n verticalAngle) :
    sensorID < n := by
  obtain ⟨i, among, rfl⟩ := List.mem_map.mp there
  rw [List.mem_range] at among
  cases found : (List.range n).find? fun j =>
      |exchangeSort n verticalAngle i - verticalAngle j| < 1 / 10 with
  | none => exact Nat.lt_of_le_of_lt (Nat.zero_le i) among
  | some j => exact List.mem_range.mp (List.mem_of_find?_eq_some found)

theorem find_sensor (apart : Apart n verticalAngle) {k : Nat} (inside : k < n) :
    ((List.range n).find? fun j => |verticalAngle k - verticalAngle j| < 1 / 10) = some k := by
  rw [List.find?_range_eq_some]
  refine ⟨?_, List.mem_range.mpr inside, ?_⟩
  · norm_num
  · intro j before
    have far := apart k inside j (by omega) (by omega)
    simpa using far

/-- The sorted copy is the table of angles behind a permutation of the sensors, and the lookup
finds that permutation. -/
theorem indexSensorIDs_eq_map (apart : Apart n verticalAngle) :
    ∃ σ : Equiv.Perm Nat, (∀ i, σ i < n ↔ i < n) ∧
      exchangeSort n verticalAngle = verticalAngle ∘ σ ∧
      indexSensorIDs n verticalAngle = (List.range n).map σ := by
  obtain ⟨⟨σ, fixes, eq⟩, _⟩ := exchangeSort_spec n verticalAngle
  have inside : ∀ i, σ i < n ↔ i < n := by
    intro i
    constructor
    · intro low
      by_contra high
      have := fixes i (.inr (by omega))
      omega
    · intro low
      by_contra high
      have same := σ.injective (fixes (σ i) (.inr (by omega)))
      omega
  refine ⟨σ, inside, eq, List.map_congr_left fun i low => ?_⟩
  rw [eq, Function.comp_apply, find_sensor apart ((inside i).mpr (List.mem_range.mp low))]
  rfl

/-- Equal angles would be the angles of one sensor. -/
theorem Apart.injective (apart : Apart n verticalAngle) {i j : Nat} (low : i < n) (high : j < n)
    (same : verticalAngle i = verticalAngle j) : i = j := by
  by_contra differ
  have far := apart i low j high differ
  rw [same, sub_self, abs_zero] at far
  norm_num at far

/-- The tolerance lookup finds every sensor exactly once. -/
theorem indexSensorIDs_increasing (apart : Apart n verticalAngle) :
    Increasing n verticalAngle (indexSensorIDs n verticalAngle) := by
  obtain ⟨σ, inside, eq, order⟩ := indexSensorIDs_eq_map apart
  have sorted := (exchangeSort_spec n verticalAngle).2
  rw [order]
  constructor
  · rw [List.perm_ext_iff_of_nodup (List.Nodup.map σ.injective List.nodup_range) List.nodup_range]
    intro k
    rw [List.mem_map, List.mem_range]
    constructor
    · rintro ⟨i, low, rfl⟩
      exact (inside i).mpr (List.mem_range.mp low)
    · intro low
      refine ⟨σ.symm k, List.mem_range.mpr ((inside _).mp ?_), σ.apply_symm_apply k⟩
      rwa [σ.apply_symm_apply]
  · rw [List.pairwise_map]
    apply List.Pairwise.imp_of_mem _ List.pairwise_lt_range
    intro i j low high lt
    have low := (inside i).mpr (List.mem_range.mp low)
    have le := sorted i j lt (List.mem_range.mp high)
    have high := (inside j).mpr (List.mem_range.mp high)
    rw [eq, Function.comp_apply, Function.comp_apply] at le
    apply lt_of_le_of_ne le
    intro same
    have := σ.injective (apart.injective low high same)
    omega

/-- Every entry is the one sensor that the tolerance lets through. -/
theorem indexSensorIDs_found (apart : Apart n verticalAngle) {i : Nat} (low : i < n) :
    ∃ sensorID < n, (indexSensorIDs n verticalAngle)[i]? = some sensorID ∧
      ∀ j < n, |exchangeSort n verticalAngle i - verticalAngle j| < 1 / 10 ↔ j = sensorID := by
  obtain ⟨σ, inside, eq, order⟩ := indexSensorIDs_eq_map apart
  refine ⟨σ i, (inside i).mpr low, ?_, fun j high => ?_⟩
  · rw [order, List.getElem?_map, List.getElem?_range low, Option.map_some]
  · rw [eq, Function.comp_apply]
    constructor
    · intro near
      by_contra differ
      exact absurd near (not_lt.mpr (apart _ ((inside i).mpr low) j high (Ne.symm differ)))
    · rintro rfl
      rw [sub_self, abs_zero]
      norm_num

/-- Nothing is left of what the array held. -/
theorem indexSensorIDsFrom_eq (apart : Apart n verticalAngle) (initial : Nat → Nat) :
    indexSensorIDsFrom initial n verticalAngle = indexSensorIDs n verticalAngle := by
  obtain ⟨σ, inside, eq, _⟩ := indexSensorIDs_eq_map apart
  refine List.map_congr_left fun i low => ?_
  rw [eq, Function.comp_apply, find_sensor apart ((inside i).mpr (List.mem_range.mp low))]
  rfl

theorem indexSensorIDsFrom_sorts (apart : Apart n verticalAngle) (initial : Nat → Nat) :
    SortsSensors n verticalAngle (indexSensorIDsFrom initial n verticalAngle) := by
  obtain ⟨moved, sorted⟩ := exchangeSort_spec n verticalAngle
  obtain ⟨σ, inside, eq, _⟩ := indexSensorIDs_eq_map apart
  rw [indexSensorIDsFrom_eq apart]
  refine ⟨indexSensorIDs_increasing apart, moved, fun i j lt high => ?_, fun i low =>
    indexSensorIDs_found apart low⟩
  apply lt_of_le_of_ne (sorted i j lt high)
  intro same
  rw [eq, Function.comp_apply, Function.comp_apply] at same
  have := σ.injective (apart.injective ((inside i).mpr (by omega)) ((inside j).mpr high) same)
  omega

end Order

/-- Both functions, whatever `m_sensorOrderIndex` held. -/
theorem sensor_order_sorts (initial : Nat → Nat) (verticalAngle : Nat → ℚ) :
    (Apart 16 verticalAngle →
      SortsSensors 16 verticalAngle (index16sensorIDs initial verticalAngle)) ∧
    (Apart 32 verticalAngle →
      SortsSensors 32 verticalAngle (index32sensorIDs initial verticalAngle)) :=
  ⟨fun apart => indexSensorIDsFrom_sorts apart initial,
    fun apart => indexSensorIDsFrom_sorts apart initial⟩

theorem apart_unit (n : Nat) : Apart n fun i => i := by
  intro i _ j _ ne
  have unit : (1 : ℚ) ≤ |(i : ℚ) - j| := by
    have far : (1 : ℤ) ≤ |(i : ℤ) - j| := Int.one_le_abs (by omega)
    exact_mod_cast far
  exact le_trans (by norm_num) unit

/-- The angles of the VLP-16: -15, 1, -13, 3 and so on. -/
def vlp16Angle (sensorID : Nat) : ℚ := if sensorID % 2 = 0 then sensorID - 15 else sensorID

/-- The VLP-16, and 32 sensors a degree apart. -/
theorem sensor_order_sorts_vlp16 :
    SortsSensors 16 vlp16Angle (index16sensorIDs (fun _ => 0) vlp16Angle) ∧
      SortsSensors 32 (fun i => i) (index32sensorIDs (fun _ => 7) fun i => i) :=
  ⟨(sensor_order_sorts (fun _ => 0) vlp16Angle).1 (by decide +kernel),
    (sensor_order_sorts (fun _ => 7) fun i => i).2 (apart_unit 32)⟩

end OpendlvCore.Velodyne
