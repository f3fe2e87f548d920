import Mathlib.Data.List.Induction
import Mathlib.Order.Bounds.Basic

/-!
# Two running extremes behind one `else if`

A least and a greatest value are seeded separately, and a new value is compared with the greatest
one only when it is not below the least one. The seeds may be the wrong way round: then a value
reaches the greatest one only if it is not the least one so far.
-/
namespace RunningExtremes

structure Extremes (α : Type) where
  least : α
  greatest : α
  deriving DecidableEq, Repr

section Collecting
variable {α : Type} [LT α] [DecidableLT α]

/-- `if (x < least) least = x; else if (x > greatest) greatest = x;` -/
def Extremes.collect (e : Extremes α) (x : α) : Extremes α :=
  if x < e.least then { e with least := x }
  else if x > e.greatest then { e with greatest := x }
  else e

def Extremes.collectAll (e : Extremes α) (xs : List α) : Extremes α := xs.foldl collect e

theorem Extremes.collectAll_append (e : Extremes α) (xs : List α) (x : α) :
    e.collectAll (xs ++ [x]) = (e.collectAll xs).collect x := by
  simp [collectAll]

end Collecting

/-- `x` is one of `xs` and not below everything in front of it, where `first` stands in front
of `xs`. -/
def Climbs {α : Type} [LE α] (first : α) (xs : List α) (x : α) : Prop :=
  ∃ before after, xs = before ++ x :: after ∧ ∃ y ∈ first :: before, y ≤ x

section Climbs
variable {α : Type} [LE α] {first x : α} {xs : List α}

theorem Climbs.mem (climbs : Climbs first xs x) : x ∈ xs := by
  obtain ⟨before, after, rfl, _⟩ := climbs
  simp

theorem climbs_of_le (member : x ∈ xs) (le : first ≤ x) : Climbs first xs x := by
  obtain ⟨before, after, rfl⟩ := List.append_of_mem member
  exact ⟨before, after, rfl, first, by simp, le⟩

theorem climbs_append {y : α} :
    Climbs first (xs ++ [y]) x ↔ Climbs first xs x ∨ x = y ∧ ∃ z ∈ first :: xs, z ≤ x := by
  constructor
  · rintro ⟨before, after, split, reached⟩
    induction after using List.reverseRecOn with
    | nil =>
      obtain ⟨rfl, same⟩ := List.append_inj' split rfl
      exact .inr ⟨(List.cons.inj same).1.symm, reached⟩
    | append_singleton after last _ =>
      rw [← List.cons_append, ← List.append_assoc] at split
      exact .inl ⟨before, after, (List.append_inj' split rfl).1, reached⟩
  · rintro (⟨before, after, rfl, reached⟩ | ⟨rfl, reached⟩)
    · exact ⟨before, after ++ [y], by simp, reached⟩
    · exact ⟨xs, [], rfl, reached⟩

end Climbs

section Order
variable {α : Type} [LE α] [LT α] [DecidableLT α] [Std.IsLinearOrder α] [Std.LawfulOrderLT α]

/-- The least value is right, whatever the seeds. -/
theorem collectAll_least (first second : α) (xs : List α) :
    IsLeast {x | x ∈ first :: xs} ((Extremes.mk first second).collectAll xs).least := by
  induction xs using List.reverseRecOn with
  | nil =>
    refine ⟨List.mem_cons_self, ?_⟩
    rintro y (_ | ⟨_, inside⟩)
    · exact Std.le_refl _
    · cases inside
  | append_singleton xs x ih =>
    obtain ⟨member, below⟩ := ih
    have reaches : ∀ least, least ≤ ((Extremes.mk first second).collectAll xs).least → least ≤ x →
        ∀ y ∈ first :: (xs ++ [x]), least ≤ y := by
      intro least old new y inside
      rw [← List.cons_append, List.mem_append, List.mem_singleton] at inside
      rcases inside with inside | rfl
      · exact Std.le_trans old (below inside)
      · exact new
    have kept : ((Extremes.mk first second).collectAll xs).least ∈ first :: (xs ++ [x]) := by
      rw [← List.cons_append]
      exact List.mem_append_left _ member
    rw [Extremes.collectAll_append, Extremes.collect]
    split
    · case isTrue under => exact ⟨by simp, reaches x (Std.le_of_lt under) (Std.le_refl x)⟩
    · case isFalse above =>
        have above := Std.not_lt.mp above
        split
        · exact ⟨kept, reaches _ (Std.le_refl _) above⟩
        · exact ⟨kept, reaches _ (Std.le_refl _) above⟩

/-- The greatest value is the greatest of its seed and of the values that get past the first
comparison. -/
theorem collectAll_greatest (first second : α) (xs : List α) :
    IsGreatest {x | x = second ∨ Climbs first xs x}
      ((Extremes.mk first second).collectAll xs).greatest := by
  induction xs using List.reverseRecOn with
  | nil =>
    refine ⟨.inl rfl, ?_⟩
    rintro y (rfl | climbs)
    · exact Std.le_refl _
    · cases climbs.mem
  | append_singleton xs x ih =>
    obtain ⟨member, above⟩ := ih
    obtain ⟨least, below⟩ := collectAll_least first second xs
    have passes : ¬ x < ((Extremes.mk first second).collectAll xs).least ↔ ∃ y ∈ first :: xs, y ≤ x := by
      rw [Std.not_lt]
      exact ⟨fun le => ⟨_, least, le⟩, fun ⟨y, inside, le⟩ => Std.le_trans (below inside) le⟩
    have kept : ((Extremes.mk first second).collectAll xs).greatest = second ∨
        Climbs first (xs ++ [x]) ((Extremes.mk first second).collectAll xs).greatest := by
      rcases member with same | climbs
      · exact .inl same
      · exact .inr (climbs_append.mpr (.inl climbs))
    have reaches : ∀ greatest, ((Extremes.mk first second).collectAll xs).greatest ≤ greatest →
        ((∃ y ∈ first :: xs, y ≤ x) → x ≤ greatest) →
        ∀ y, y = second ∨ Climbs first (xs ++ [x]) y → y ≤ greatest := by
      rintro greatest old new y (rfl | climbs)
      · exact Std.le_trans (above (.inl rfl)) old
      · rcases climbs_append.mp climbs with climbs | ⟨rfl, reached⟩
        · exact Std.le_trans (above (.inr climbs)) old
        · exact new reached
    rw [Extremes.collectAll_append, Extremes.collect]
    split
    · case isTrue under =>
        exact ⟨kept, reaches _ (Std.le_refl _) fun reached => absurd under (passes.mpr reached)⟩
    · case isFalse beyond =>
        have reached := passes.mp beyond
        split
        · case isTrue past =>
            refine ⟨.inr (climbs_append.mpr (.inr ⟨rfl, reached⟩)), ?_⟩
            exact reaches x (Std.le_of_lt past) fun _ => Std.le_refl x
        · case isFalse within =>
            exact ⟨kept, reaches _ (Std.le_refl _) fun _ => Std.not_lt.mp within⟩

section Seeds
variable {first second : α} {xs : List α}

/-- The greatest value reaches the first seed unless nothing later makes up for the order of the
seeds. -/
theorem first_le_greatest_iff :
    first ≤ ((Extremes.mk first second).collectAll xs).greatest ↔
      first ≤ second ∨ ∃ x ∈ xs, first ≤ x := by
  obtain ⟨high, above⟩ := collectAll_greatest first second xs
  constructor
  · intro le
    rcases high with same | climbs
    · exact .inl (same ▸ le)
    · exact .inr ⟨_, climbs.mem, le⟩
  · rintro (le | ⟨x, member, le⟩)
    · exact Std.le_trans le (above (.inl rfl))
    · exact Std.le_trans le (above (.inr (climbs_of_le member le)))

theorem isGreatest_iff :
    IsGreatest {x | x ∈ first :: second :: xs}
        ((Extremes.mk first second).collectAll xs).greatest ↔
      first ≤ second ∨ ∃ x ∈ xs, first ≤ x := by
  rw [← first_le_greatest_iff]
  obtain ⟨high, above⟩ := collectAll_greatest first second xs
  refine ⟨fun greatest => greatest.2 List.mem_cons_self, fun reaches => ⟨?_, ?_⟩⟩
  · rcases high with same | climbs
    · rw [same]
      exact List.mem_cons_of_mem _ List.mem_cons_self
    · exact List.mem_cons_of_mem _ (List.mem_cons_of_mem _ climbs.mem)
  · intro x inside
    rcases List.mem_cons.mp inside with rfl | inside
    · exact reaches
    rcases List.mem_cons.mp inside with rfl | inside
    · exact above (.inl rfl)
    rcases Std.le_total (a := first) (b := x) with le | le
    · exact above (.inr (climbs_of_le inside le))
    · exact Std.le_trans le reaches

theorem isLeast_iff :
    IsLeast {x | x ∈ first :: second :: xs} ((Extremes.mk first second).collectAll xs).least ↔
      first ≤ second ∨ ∃ x ∈ xs, x ≤ second := by
  obtain ⟨low, below⟩ := collectAll_least first second xs
  have reaches : ((Extremes.mk first second).collectAll xs).least ≤ second ↔
      ∃ x ∈ first :: xs, x ≤ second :=
    ⟨fun le => ⟨_, low, le⟩, fun ⟨x, inside, le⟩ => Std.le_trans (below inside) le⟩
  simp only [List.mem_cons, exists_eq_or_imp] at reaches
  rw [← reaches]
  refine ⟨fun least => least.2 (List.mem_cons_of_mem _ List.mem_cons_self), fun le => ⟨?_, ?_⟩⟩
  · rcases List.mem_cons.mp low with same | inside
    · rw [same]
      exact List.mem_cons_self
    · exact List.mem_cons_of_mem _ (List.mem_cons_of_mem _ inside)
  · intro x inside
    rcases List.mem_cons.mp inside with rfl | inside
    · exact below List.mem_cons_self
    rcases List.mem_cons.mp inside with rfl | inside
    · exact le
    · exact below (List.mem_cons_of_mem _ inside)

/-- Both extremes are right unless the seeds are the wrong way round and no later value makes up
for one of them. -/
theorem spans_iff :
    (IsLeast {x | x ∈ first :: second :: xs} ((Extremes.mk first second).collectAll xs).least ∧
      IsGreatest {x | x ∈ first :: second :: xs}
        ((Extremes.mk first second).collectAll xs).greatest) ↔
      first ≤ second ∨ (∃ x ∈ xs, x ≤ second) ∧ ∃ x ∈ xs, first ≤ x := by
  rw [isLeast_iff, isGreatest_iff, or_and_left]

/-! ## The order of the two extremes -/

/-- The extremes come apart in the right order: some value other than the second seed is below
the second seed, or below a value that climbs. -/
def Rises (first second : α) (xs : List α) : Prop :=
  ∃ low ∈ first :: xs, low < second ∨ ∃ x, Climbs first xs x ∧ low < x

/-- The values fall all the way, and none is as low as the second seed. -/
def Falls (first second : α) (xs : List α) : Prop :=
  (first :: xs).Pairwise (· > ·) ∧ ∀ x ∈ first :: xs, second < x

theorem rises_iff :
    ((Extremes.mk first second).collectAll xs).least <
      ((Extremes.mk first second).collectAll xs).greatest ↔ Rises first second xs := by
  obtain ⟨low, below⟩ := collectAll_least first second xs
  obtain ⟨high, above⟩ := collectAll_greatest first second xs
  constructor
  · intro lt
    refine ⟨_, low, ?_⟩
    rcases high with same | climbs
    · rw [same] at lt
      exact .inl lt
    · exact .inr ⟨_, climbs, lt⟩
  · rintro ⟨x, inside, lt | ⟨y, climbs, lt⟩⟩
    · exact Std.lt_of_le_of_lt (below inside) (Std.lt_of_lt_of_le lt (above (.inl rfl)))
    · exact Std.lt_of_le_of_lt (below inside) (Std.lt_of_lt_of_le lt (above (.inr climbs)))

omit [DecidableLT α] in
theorem no_climb_iff : (∀ x, ¬ Climbs first xs x) ↔ (first :: xs).Pairwise (· > ·) := by
  induction xs using List.reverseRecOn with
  | nil => simp [Climbs]
  | append_singleton xs y ih =>
    have last : (¬ ∃ z ∈ first :: xs, z ≤ y) ↔ ∀ z ∈ first :: xs, z > y := by
      simp only [not_exists, not_and, Std.not_le, gt_iff_lt]
    rw [← List.cons_append, List.pairwise_append, ← ih]
    simp only [List.pairwise_singleton, List.mem_singleton, forall_eq, true_and, ← last,
      climbs_append, not_or, forall_and]
    simp

/-- Every value that climbs would come between the extremes. -/
theorem falls_iff :
    ((Extremes.mk first second).collectAll xs).greatest <
      ((Extremes.mk first second).collectAll xs).least ↔ Falls first second xs := by
  obtain ⟨low, below⟩ := collectAll_least first second xs
  obtain ⟨high, above⟩ := collectAll_greatest first second xs
  rw [Falls, ← no_climb_iff]
  constructor
  · intro lt
    refine ⟨fun x climbs => ?_, fun x inside => ?_⟩
    · have under := Std.lt_of_le_of_lt (above (.inr climbs)) lt
      have beyond := below (List.mem_cons_of_mem _ climbs.mem)
      exact absurd (Std.lt_of_lt_of_le under beyond) Std.lt_irrefl
    · exact Std.lt_of_le_of_lt (above (.inl rfl)) (Std.lt_of_lt_of_le lt (below inside))
  · rintro ⟨noClimb, beyond⟩
    rcases high with same | climbs
    · rw [same]
      exact beyond _ low
    · exact absurd climbs (noClimb _)

end Seeds

end Order

end RunningExtremes
