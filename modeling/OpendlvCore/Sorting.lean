import Mathlib.Logic.Equiv.Basic
import Mathlib.Order.Lattice
import Mathlib.Tactic.Common

/-!
# Exchange sort in place

Two nested loops over the first `n` places of an array, the inner one from the place
of the outer one, exchange what stands in the wrong order. An array is a function, so
the permutation that sorts it is a permutation of the places.
-/
namespace CSort

/-- `b` holds the values of `a` at other places; nothing outside `[i, n)` has moved. -/
def Rearranged {α : Type} (i n : Nat) (a b : Nat → α) : Prop :=
  ∃ σ : Equiv.Perm Nat, (∀ k, k < i ∨ n ≤ k → σ k = k) ∧ b = a ∘ σ

section Rearrangements
variable {α : Type} {a b c : Nat → α} {i j n : Nat}

theorem Rearranged.refl (i n : Nat) (a : Nat → α) : Rearranged i n a a :=
  ⟨Equiv.refl Nat, fun _ _ => rfl, rfl⟩

theorem Rearranged.trans (first : Rearranged i n a b) (second : Rearranged i n b c) :
    Rearranged i n a c := by
  obtain ⟨σ, fixes, rfl⟩ := first
  obtain ⟨τ, fixes', rfl⟩ := second
  refine ⟨τ.trans σ, ?_, rfl⟩
  intro k outside
  rw [Equiv.trans_apply, fixes' k outside, fixes k outside]

theorem Rearranged.of_le (moved : Rearranged j n a b) (le : i ≤ j) : Rearranged i n a b := by
  obtain ⟨σ, fixes, eq⟩ := moved
  exact ⟨σ, fun k outside => fixes k (by omega), eq⟩

theorem Rearranged.outside (moved : Rearranged i n a b) {k : Nat} (outside : k < i ∨ n ≤ k) :
    b k = a k := by
  obtain ⟨σ, fixes, rfl⟩ := moved
  rw [Function.comp_apply, fixes k outside]

/-- What stands inside the range comes from inside the range. -/
theorem Rearranged.inside (moved : Rearranged i n a b) {k : Nat} (low : i ≤ k) (high : k < n) :
    ∃ l, i ≤ l ∧ l < n ∧ b k = a l := by
  obtain ⟨σ, fixes, rfl⟩ := moved
  refine ⟨σ k, ?_, ?_, rfl⟩
  · by_contra below
    have same := fixes (σ k) (by omega)
    have := σ.injective same
    omega
  · by_contra above
    have same := fixes (σ k) (by omega)
    have := σ.injective same
    omega

end Rearrangements

section Passes
variable {α : Type} [LinearOrder α] {a : Nat → α} {i j n : Nat}

/-- `if (a[j] < a[i])` exchange them. -/
def exchange (i : Nat) (a : Nat → α) (j : Nat) : Nat → α :=
  if a j < a i then a ∘ Equiv.swap i j else a

/-- `for (j = i; j < n; j++)` -/
def pass (n : Nat) (a : Nat → α) (i : Nat) : Nat → α :=
  (List.range' i (n - i)).foldl (exchange i) a

/-- `for (i = 0; i < n; i++)` -/
def exchangeSort (n : Nat) (a : Nat → α) : Nat → α :=
  (List.range n).foldl (pass n) a

theorem exchange_rearranged (low : i ≤ j) (high : j < n) : Rearranged i n a (exchange i a j) := by
  unfold exchange
  split
  · refine ⟨Equiv.swap i j, ?_, rfl⟩
    intro k outside
    exact Equiv.swap_apply_of_ne_of_ne (by omega) (by omega)
  · exact .refl i n a

/-- After the exchange the outer place holds the smaller value, and other places are as before. -/
theorem exchange_le (i j : Nat) (a : Nat → α) :
    exchange i a j i ≤ a i ∧ exchange i a j i ≤ exchange i a j j ∧
      ∀ k, k ≠ i → k ≠ j → exchange i a j k = a k := by
  unfold exchange
  split
  · rename_i wrong
    refine ⟨?_, ?_, ?_⟩
    · rw [Function.comp_apply, Equiv.swap_apply_left]
      exact le_of_lt wrong
    · rw [Function.comp_apply, Function.comp_apply, Equiv.swap_apply_left, Equiv.swap_apply_right]
      exact le_of_lt wrong
    · intro k ne ne'
      rw [Function.comp_apply, Equiv.swap_apply_of_ne_of_ne ne ne']
  · rename_i right
    exact ⟨le_refl _, not_lt.mp right, fun _ _ _ => rfl⟩

/-- Part of a pass: the outer place holds the least value met so far. -/
theorem foldl_exchange (i n m : Nat) (a : Nat → α) (inside : i + m ≤ n) :
    Rearranged i n a ((List.range' i m).foldl (exchange i) a) ∧
      ∀ k, i ≤ k → k < i + m →
        (List.range' i m).foldl (exchange i) a i ≤ (List.range' i m).foldl (exchange i) a k := by
  induction m with
  | zero =>
    refine ⟨.refl i n a, ?_⟩
    intro k low high
    omega
  | succ m ih =>
    obtain ⟨moved, least⟩ := ih (by omega)
    rw [List.range'_concat, List.foldl_append, List.foldl_cons, List.foldl_nil, Nat.one_mul]
    obtain ⟨smaller, last, others⟩ :=
      exchange_le i (i + m) ((List.range' i m).foldl (exchange i) a)
    refine ⟨moved.trans (exchange_rearranged (by omega) (by omega)), ?_⟩
    intro k low high
    by_cases first : k = i
    · rw [first]
    by_cases here : k = i + m
    · rw [here]
      exact last
    · rw [others k first here]
      exact le_trans smaller (least k low (by omega))

theorem pass_spec (n i : Nat) (a : Nat → α) (inside : i ≤ n) :
    Rearranged i n a (pass n a i) ∧ ∀ k, i ≤ k → k < n → pass n a i i ≤ pass n a i k := by
  obtain ⟨moved, least⟩ := foldl_exchange i n (n - i) a (by omega)
  exact ⟨moved, fun k low high => least k low (by omega)⟩

/-- After `m` passes the first `m` places are sorted and hold the least values. -/
theorem foldl_pass (n m : Nat) (a : Nat → α) (inside : m ≤ n) :
    Rearranged 0 n a ((List.range m).foldl (pass n) a) ∧
      ∀ p q, p < m → p < q → q < n →
        (List.range m).foldl (pass n) a p ≤ (List.range m).foldl (pass n) a q := by
  induction m with
  | zero => exact ⟨.refl 0 n a, fun p q low => absurd low (Nat.not_lt_zero p)⟩
  | succ m ih =>
    obtain ⟨moved, sorted⟩ := ih (by omega)
    rw [List.range_succ, List.foldl_append, List.foldl_cons, List.foldl_nil]
    obtain ⟨moved', least⟩ := pass_spec n m ((List.range m).foldl (pass n) a) (by omega)
    refine ⟨moved.trans (moved'.of_le (Nat.zero_le m)), ?_⟩
    intro p q low lt high
    by_cases before : p < m
    · rw [moved'.outside (.inl before)]
      by_cases front : q < m
      · rw [moved'.outside (.inl front)]
        exact sorted p q before lt high
      · obtain ⟨l, _, last, eq⟩ := moved'.inside (by omega : m ≤ q) high
        rw [eq]
        exact sorted p l before (by omega) last
    · obtain rfl : p = m := by omega
      exact least q (by omega) high

theorem exchangeSort_spec (n : Nat) (a : Nat → α) :
    Rearranged 0 n a (exchangeSort n a) ∧
      ∀ p q, p < q → q < n → exchangeSort n a p ≤ exchangeSort n a q := by
  obtain ⟨moved, sorted⟩ := foldl_pass n n a (Nat.le_refl n)
  exact ⟨moved, fun p q lt high => sorted p q (by omega) lt high⟩

end Passes

end CSort
