import Mathlib.Data.List.Induction
import Mathlib.Data.Option.Basic
import Mathlib.Tactic.Common

/-!
# The last write to a key

What a sequence of writes leaves in a map. Two sequences that write to the same keys in the same
order leave the same map exactly when they agree at the last write to each key.
-/
namespace LastWrites
variable {κ ν α : Type} [DecidableEq κ]

/-- The value of the last entry with this key. -/
def lastValue (key : κ) (entries : List (κ × ν)) : Option ν :=
  entries.foldl (fun found entry => if entry.1 = key then some entry.2 else found) none

section Values
variable {key : κ} {entries : List (κ × ν)} {value : ν}

theorem lastValue_append (key : κ) (entries : List (κ × ν)) (entry : κ × ν) :
    lastValue key (entries ++ [entry]) =
      if entry.1 = key then some entry.2 else lastValue key entries := by
  simp [lastValue]

theorem lastValue_isSome_iff :
    (lastValue key entries).isSome ↔ ∃ entry ∈ entries, entry.1 = key := by
  induction entries using List.reverseRecOn with
  | nil => simp [lastValue]
  | append_singleton entries entry ih =>
    rw [lastValue_append]
    split
    · simp_all
    · simp_all

/-- Writes to a map whose `lookup` finds what was put last leave the last value. -/
theorem lookup_foldl {μ : Type} {lookup : μ → κ → Option ν} {put : μ → κ → ν → μ} {empty : μ}
    (lookup_empty : ∀ key, lookup empty key = none)
    (lookup_put : ∀ m key value key',
      lookup (put m key value) key' = if key = key' then some value else lookup m key')
    (key : κ) (entries : List (κ × ν)) :
    lookup (entries.foldl (fun m entry => put m entry.1 entry.2) empty) key =
      lastValue key entries := by
  induction entries using List.reverseRecOn with
  | nil => exact lookup_empty key
  | append_singleton entries entry ih =>
    rw [List.foldl_append, lastValue_append, ← ih]
    exact lookup_put _ _ _ _

end Values

/-- Of the elements with the key of `x`, one is the last. -/
theorem exists_last (key : α → κ) {xs : List α} {x : α} (member : x ∈ xs) :
    ∃ before last after, xs = before ++ last :: after ∧ key last = key x ∧
      ∀ later ∈ after, key later ≠ key x := by
  induction xs using List.reverseRecOn with
  | nil => cases member
  | append_singleton xs y ih =>
    by_cases here : key y = key x
    · exact ⟨xs, y, [], rfl, here, by simp⟩
    · have earlier : x ∈ xs := by
        rcases List.mem_append.mp member with earlier | last
        · exact earlier
        · rw [List.mem_singleton.mp last] at here
          exact absurd rfl here
      obtain ⟨before, last, after, rfl, same, none⟩ := ih earlier
      refine ⟨before, last, after ++ [y], by simp, same, ?_⟩
      intro later inside
      rcases List.mem_append.mp inside with inside | inside
      · exact none later inside
      · rw [List.mem_singleton.mp inside]
        exact here

section Comparison
variable {key : α → κ} {written expected : α → ν}

/-- The last element with its key decides. -/
theorem lastValue_map {before after : List α} {x : α} (last : ∀ later ∈ after, key later ≠ key x)
    (f : α → ν) :
    lastValue (key x) ((before ++ x :: after).map fun y => (key y, f y)) = some (f x) := by
  induction after using List.reverseRecOn with
  | nil => simp [lastValue_append]
  | append_singleton after y ih =>
    have other : key y ≠ key x := last y (by simp)
    rw [← List.cons_append, ← List.append_assoc, List.map_append, List.map_singleton,
      lastValue_append, if_neg other]
    exact ih fun later inside => last later (List.mem_append_left _ inside)

theorem lastValue_eq_iff (xs : List α) :
    (∀ k, lastValue k (xs.map fun x => (key x, written x)) =
        lastValue k (xs.map fun x => (key x, expected x))) ↔
      ∀ before x after, xs = before ++ x :: after → (∀ later ∈ after, key later ≠ key x) →
        written x = expected x := by
  constructor
  · rintro same before x after rfl last
    have equal := same (key x)
    rw [lastValue_map last, lastValue_map last] at equal
    exact Option.some.inj equal
  · intro agree k
    by_cases there : ∃ x ∈ xs, key x = k
    · obtain ⟨x, member, rfl⟩ := there
      obtain ⟨before, last, after, rfl, same, none⟩ := exists_last key member
      rw [← same] at none ⊢
      rw [lastValue_map none, lastValue_map none, agree before last after rfl none]
    · have absent : ∀ f : α → ν, lastValue k (xs.map fun x => (key x, f x)) = none := by
        intro f
        rw [← Option.not_isSome_iff_eq_none, lastValue_isSome_iff]
        simpa using there
      rw [absent, absent]

end Comparison

end LastWrites
