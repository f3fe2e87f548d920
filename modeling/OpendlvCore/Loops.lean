import Mathlib.Tactic.Common
import Mathlib.Order.Basic
import Mathlib.Data.List.Forall2

/-!
# Loops of an imperative program

A loop body is a function from the state at the head of the loop to what one
pass does: go on, leave the loop, or (`none`) never come back because a loop
inside the body does not end. `iterate` runs a body with fuel; a loop returns
when some amount of fuel is enough. The rules below are stated over the states
the loop really visits, so a client proves one lemma about one pass.
-/
namespace CLoop

/-- Where one pass of a loop body leaves the control flow. -/
inductive Flow (σ : Type) where
  | next (s : σ)
  | done (s : σ)
  deriving DecidableEq, Repr

def iterate {σ : Type} (body : σ → Option (Flow σ)) : Nat → σ → Option σ
  | 0, _ => none
  | fuel + 1, s =>
    match body s with
    | none => none
    | some (.done t) => some t
    | some (.next t) => iterate body fuel t

/-- The states a loop has at its head, in the order of the passes. -/
inductive Visits {σ : Type} (body : σ → Option (Flow σ)) (s : σ) : σ → Prop
  | start : Visits body s s
  | pass {t u : σ} : Visits body s t → body t = some (.next u) → Visits body s u

/-- The states at the head of the first passes, as a list. -/
def heads {σ : Type} (body : σ → Option (Flow σ)) : Nat → σ → List σ
  | 0, _ => []
  | fuel + 1, s =>
    match body s with
    | some (.next t) => s :: heads body fuel t
    | _ => [s]

section Rules
variable {σ : Type} {body : σ → Option (Flow σ)} {s t u r : σ} {fuel : Nat}

theorem Visits.trans (first : Visits body s t) (second : Visits body t u) : Visits body s u := by
  induction second with
  | start => exact first
  | pass _ step ih => exact .pass ih step

theorem Visits.head (step : body s = some (.next t)) (rest : Visits body t u) :
    Visits body s u :=
  (Visits.pass .start step).trans rest

theorem Visits.cases_head (visited : Visits body s t) :
    t = s ∨ ∃ u, body s = some (.next u) ∧ Visits body u t := by
  induction visited with
  | start => exact .inl rfl
  | pass before step ih =>
    right
    rcases ih with rfl | ⟨u, first, rest⟩
    · exact ⟨_, step, .start⟩
    · exact ⟨u, first, .pass rest step⟩

/-- What holds at the head of the loop and survives one pass holds at every head. -/
theorem Visits.invariant (inv : σ → Prop) (visited : Visits body s t) (start : inv s)
    (keeps : ∀ a b, Visits body s a → inv a → body a = some (.next b) → inv b) : inv t := by
  induction visited with
  | start => exact start
  | pass before step ih => exact keeps _ _ before ih step

/-- Passes are deterministic, so two visited states lie on one path. -/
theorem Visits.linear (first : Visits body s t) (second : Visits body s u) :
    Visits body t u ∨ Visits body u t := by
  induction first with
  | start => exact .inl second
  | @pass a b before step ih =>
    rcases ih with ahead | behind
    · cases ahead with
      | start => exact .inr (.pass .start step)
      | pass ahead last =>
        left
        clear before second
        induction ahead generalizing u with
        | start =>
          rw [step] at last
          cases last
          exact .start
        | pass _ middle ih => exact .pass (ih middle) last
    · exact .inr (.pass behind step)

theorem iterate_done (leaves : body s = some (.done r)) : iterate body (fuel + 1) s = some r := by
  simp only [iterate, leaves]

theorem iterate_next (step : body s = some (.next t)) :
    iterate body (fuel + 1) s = iterate body fuel t := by
  simp only [iterate, step]

/-- A loop that returns left at some visited head. -/
theorem iterate_some (returns : iterate body fuel s = some r) :
    ∃ t, Visits body s t ∧ body t = some (.done r) := by
  induction fuel generalizing s with
  | zero => cases returns
  | succ fuel ih =>
    unfold iterate at returns
    split at returns
    · cases returns
    · rename_i leaves
      cases returns
      exact ⟨s, .start, leaves⟩
    · rename_i step
      obtain ⟨t, visited, leaves⟩ := ih returns
      exact ⟨t, .head step visited, leaves⟩

/-- A loop that returns visits the heads listed for its fuel and no others. -/
theorem Visits.mem_heads (visited : Visits body s t) (returns : iterate body fuel s = some r) :
    t ∈ heads body fuel s := by
  induction fuel generalizing s with
  | zero => cases returns
  | succ fuel ih =>
    unfold iterate at returns
    unfold heads
    rcases visited.cases_head with rfl | ⟨u, step, rest⟩
    · split <;> exact List.mem_cons_self ..
    · rw [step] at returns ⊢
      exact List.mem_cons_of_mem _ (ih rest returns)

/-- The heads listed are visited, also by a loop that does not return. -/
theorem Visits.of_mem_heads (listed : t ∈ heads body fuel s) : Visits body s t := by
  induction fuel generalizing s with
  | zero => cases listed
  | succ fuel ih =>
    unfold heads at listed
    split at listed
    · rename_i u step
      rcases List.mem_cons.mp listed with rfl | later
      · exact .start
      · exact .head step (ih later)
    · cases List.mem_singleton.mp listed
      exact .start

theorem iterate_mono (more : Nat) (returns : iterate body fuel s = some r) :
    iterate body (fuel + more) s = some r := by
  induction fuel generalizing s with
  | zero => cases returns
  | succ fuel ih =>
    rw [Nat.add_right_comm]
    unfold iterate at returns ⊢
    split at returns
    · cases returns
    · rename_i leaves
      simpa only [leaves] using returns
    · rename_i step
      simpa only [step] using ih returns

/-- No pass follows the one that leaves the loop. -/
theorem Visits.of_done (leaves : body s = some (.done r)) (visited : Visits body s t) : t = s := by
  induction visited with
  | start => rfl
  | pass _ step ih =>
    rw [ih, leaves] at step
    cases step

/-- No pass follows one that does not come back. -/
theorem Visits.of_none (hangs : body s = none) (visited : Visits body s t) : t = s := by
  induction visited with
  | start => rfl
  | pass _ step ih =>
    rw [ih, hangs] at step
    cases step

/-- Every visited state leads to the one that leaves the loop. -/
theorem Visits.to_done (visited : Visits body s t) (last : Visits body s u)
    (leaves : body u = some (.done r)) : Visits body t u := by
  rcases visited.linear last with ahead | behind
  · exact ahead
  · rw [behind.of_done leaves]
    exact .start

/-- The result does not depend on the fuel. -/
theorem iterate_unique {other : Nat} {r' : σ} (first : iterate body fuel s = some r)
    (second : iterate body other s = some r') : r = r' := by
  have left := iterate_mono other first
  have right := iterate_mono fuel second
  rw [Nat.add_comm, left] at right
  exact Option.some.inj right

/-- A loop whose passes all come back and make a measure smaller returns: one pass for
each value of the measure is enough. -/
theorem iterate_enough (measure : σ → Nat) (total : ∀ t, Visits body s t → body t ≠ none)
    (decreases : ∀ t u, Visits body s t → body t = some (.next u) → measure u < measure t) :
    ∃ r, iterate body (measure s + 1) s = some r := by
  have loop : ∀ n a, measure a < n → Visits body s a → ∃ r, iterate body n a = some r := by
    intro n
    induction n with
    | zero => exact fun a small _ => absurd small (Nat.not_lt_zero _)
    | succ n ih =>
      intro a small visited
      cases result : body a with
      | none => exact absurd result (total a visited)
      | some flow =>
        cases flow with
        | done r => exact ⟨r, iterate_done result⟩
        | next b =>
          have smaller := decreases a b visited result
          rw [iterate_next result]
          exact ih b (by omega) (.pass visited result)
  exact loop _ s (Nat.lt_succ_self _) .start

theorem iterate_returns (measure : σ → Nat) (total : ∀ t, Visits body s t → body t ≠ none)
    (decreases : ∀ t u, Visits body s t → body t = some (.next u) → measure u < measure t) :
    ∃ fuel r, iterate body fuel s = some r :=
  ⟨_, iterate_enough measure total decreases⟩

/-- A loop does not return when one of its visited passes does not come back. -/
theorem iterate_none_of_visits (visited : Visits body s t) (hangs : body t = none) :
    iterate body fuel s = none := by
  cases result : iterate body fuel s with
  | none => rfl
  | some r =>
    obtain ⟨v, other, leaves⟩ := iterate_some result
    have same := (visited.to_done other leaves).of_none hangs
    rw [same, hangs] at leaves
    cases leaves

/-- Two runs of a loop whose passes are related from head to head. -/
theorem iterate_simulates (R : σ → σ → Prop)
    (next : ∀ a b a', R a b → body a = some (.next a') → ∃ b', body b = some (.next b') ∧ R a' b')
    (done : ∀ a b a', R a b → body a = some (.done a') → ∃ b', body b = some (.done b') ∧ R a' b')
    (related : R s t) (returns : iterate body fuel s = some r) :
    ∃ r', iterate body fuel t = some r' ∧ R r r' := by
  induction fuel generalizing s t with
  | zero => cases returns
  | succ fuel ih =>
    unfold iterate at returns
    split at returns
    · cases returns
    · rename_i leaves
      cases returns
      obtain ⟨r', leaves', after⟩ := done s t r related leaves
      exact ⟨r', iterate_done leaves', after⟩
    · rename_i step
      obtain ⟨b', step', after⟩ := next s t _ related step
      rw [iterate_next step']
      exact ih after returns

/-- A pass that changes nothing is repeated for ever. -/
theorem iterate_none_of_fixed (fixed : body s = some (.next s)) : iterate body fuel s = none := by
  induction fuel with
  | zero => rfl
  | succ fuel ih => rw [iterate_next fixed, ih]

end Rules

/-! ## Loops counted by an 8-bit variable -/

section Counted
variable {σ : Type}

/-- One pass of `for (uint8_t i = 0; i < bound; i++) body`; the counter wraps. -/
def u8Pass (bound : Nat) (body : σ → Option σ) : Nat × σ → Option (Flow (Nat × σ))
  | (i, s) =>
    if i < bound then (body s).map fun t => .next ((i + 1) % 256, t)
    else some (.done (i, s))

/-- The whole counted loop. 257 passes are enough whenever it ends at all. -/
def forU8 (bound : Nat) (body : σ → Option σ) (s : σ) : Option σ :=
  (iterate (u8Pass bound body) 257 (0, s)).map Prod.snd

/-- `body` run `n` times in a row. -/
def repeated (body : σ → Option σ) : Nat → σ → Option σ
  | 0, s => some s
  | n + 1, s => (body s).bind (repeated body n)

variable {body : σ → Option σ} {bound : Nat} {s : σ}

theorem iterate_u8Pass (small : bound ≤ 255) (n i fuel : Nat) (s : σ) (count : i + n = bound)
    (enough : n < fuel) :
    iterate (u8Pass bound body) fuel (i, s) = (repeated body n s).map fun t => (bound, t) := by
  induction n generalizing i fuel s with
  | zero =>
    obtain ⟨fuel, rfl⟩ : ∃ k, fuel = k + 1 := ⟨fuel - 1, by omega⟩
    have stop : ¬ i < bound := by omega
    have here : i = bound := by omega
    simp only [iterate, u8Pass, if_neg stop, repeated, Option.map_some]
    rw [here]
  | succ n ih =>
    obtain ⟨fuel, rfl⟩ : ∃ k, fuel = k + 1 := ⟨fuel - 1, by omega⟩
    have go : i < bound := by omega
    have wrap : (i + 1) % 256 = i + 1 := Nat.mod_eq_of_lt (by omega)
    cases step : body s with
    | none => simp only [iterate, u8Pass, if_pos go, repeated, step, Option.map_none, Option.bind_none]
    | some t =>
      simp only [iterate, u8Pass, if_pos go, repeated, step, Option.map_some, Option.bind_some, wrap]
      exact ih (i + 1) fuel t (by omega) (by omega)

/-- A bound the counter can reach: the body runs `bound` times. -/
theorem forU8_eq_repeated (small : bound ≤ 255) : forU8 bound body s = repeated body bound s := by
  rw [forU8, iterate_u8Pass small bound 0 257 s (by omega) (by omega)]
  cases repeated body bound s <;> rfl

/-- A bound past the counter's range: no amount of fuel ends the loop. -/
theorem u8Pass_never_ends (large : 256 ≤ bound) (fuel : Nat) (i : Nat) (inside : i < 256) :
    iterate (u8Pass bound body) fuel (i, s) = none := by
  induction fuel generalizing i s with
  | zero => rfl
  | succ fuel ih =>
    have go : i < bound := by omega
    cases step : body s with
    | none => simp only [iterate, u8Pass, if_pos go, step, Option.map_none]
    | some t =>
      simp only [iterate, u8Pass, if_pos go, step, Option.map_some]
      exact ih ((i + 1) % 256) (Nat.mod_lt _ (by decide))

theorem forU8_none (large : 256 ≤ bound) : forU8 bound body s = none := by
  rw [forU8, u8Pass_never_ends large 257 0 (by decide)]
  rfl

end Counted

/-! ## Loops over a list, counted by a variable of any width -/

section Indexed
variable {α σ : Type}

/-- One pass of `for (i = 0; i < xs.length(); i++) body(xs[i])`; the index wraps at `size`. -/
def indexPass (size : Nat) (xs : List α) (body : σ → α → σ) : Nat × σ → Option (Flow (Nat × σ))
  | (i, s) =>
    if inside : i < xs.length then some (.next ((i + 1) % size, body s xs[i]))
    else some (.done (i, s))

/-- The whole loop. One pass for each element and one to leave are enough whenever it ends. -/
def forIndex (size : Nat) (xs : List α) (body : σ → α → σ) (s : σ) : Option σ :=
  (iterate (indexPass size xs body) (xs.length + 1) (0, s)).map Prod.snd

variable {body : σ → α → σ} {xs : List α} {size : Nat} {s : σ}

theorem iterate_indexPass (short : xs.length < size) (n i fuel : Nat) (s : σ)
    (count : i + n = xs.length) (enough : n < fuel) :
    iterate (indexPass size xs body) fuel (i, s) = some (xs.length, (xs.drop i).foldl body s) := by
  induction n generalizing i fuel s with
  | zero =>
    obtain ⟨fuel, rfl⟩ : ∃ k, fuel = k + 1 := ⟨fuel - 1, by omega⟩
    have here : i = xs.length := by omega
    simp [iterate, indexPass, here]
  | succ n ih =>
    obtain ⟨fuel, rfl⟩ : ∃ k, fuel = k + 1 := ⟨fuel - 1, by omega⟩
    have go : i < xs.length := by omega
    have wrap : (i + 1) % size = i + 1 := Nat.mod_eq_of_lt (by omega)
    have pass : indexPass size xs body (i, s) = some (.next (i + 1, body s xs[i])) := by
      simp [indexPass, go, wrap]
    rw [iterate_next pass, ih (i + 1) fuel (body s xs[i]) (by omega) (by omega),
      List.drop_eq_getElem_cons go, List.foldl_cons]

/-- A list that the index can count: the body runs over its elements. -/
theorem forIndex_eq_foldl (short : xs.length < size) :
    forIndex size xs body s = some (xs.foldl body s) := by
  rw [forIndex, iterate_indexPass short xs.length 0 _ s (by omega) (by omega)]
  rfl

/-- A list past the range of the index: no amount of fuel ends the loop. -/
theorem indexPass_never_ends (long : size ≤ xs.length) (fuel i : Nat) (inside : i < size) :
    iterate (indexPass size xs body) fuel (i, s) = none := by
  induction fuel generalizing i s with
  | zero => rfl
  | succ fuel ih =>
    have go : i < xs.length := by omega
    have pass : indexPass size xs body (i, s) = some (.next ((i + 1) % size, body s xs[i])) := by
      simp [indexPass, go]
    rw [iterate_next pass]
    exact ih ((i + 1) % size) (Nat.mod_lt _ (by omega))

theorem forIndex_none (positive : 0 < size) (long : size ≤ xs.length) :
    forIndex size xs body s = none := by
  rw [forIndex, indexPass_never_ends long _ 0 positive]
  rfl

end Indexed

/-! ## Loops over a list that stop at the first failure -/

section Failing
variable {α β σ : Type} {f : α → Option β} {xs : List α} {ys : List β}

theorem forall₂_of_mapM (mapped : xs.mapM f = some ys) :
    List.Forall₂ (fun x y => f x = some y) xs ys := by
  induction xs generalizing ys with
  | nil =>
    cases mapped
    exact .nil
  | cons x xs ih =>
    simp only [List.mapM_cons, Option.bind_eq_bind, Option.bind_eq_some_iff, Option.pure_def,
      Option.some.injEq] at mapped
    obtain ⟨y, here, ys, rest, rfl⟩ := mapped
    exact .cons here (ih rest)

theorem exists_mapM_iff : (∃ ys, xs.mapM f = some ys) ↔ ∀ x ∈ xs, ∃ y, f x = some y := by
  induction xs with
  | nil => simp
  | cons x xs ih =>
    rw [List.forall_mem_cons, ← ih]
    simp only [List.mapM_cons, Option.bind_eq_bind, Option.bind_eq_some_iff, Option.pure_def,
      Option.some.injEq]
    constructor
    · rintro ⟨_, y, here, ys, rest, _⟩
      exact ⟨⟨y, here⟩, ys, rest⟩
    · rintro ⟨⟨y, here⟩, ys, rest⟩
      exact ⟨_, y, here, ys, rest, rfl⟩

/-- A loop that uses what it is given, as long as it is given something. -/
theorem foldlM_of_forall₂ {g : σ → β → σ} (given : List.Forall₂ (fun x y => f x = some y) xs ys)
    (s : σ) : xs.foldlM (fun s x => do return g s (← f x)) s = some (ys.foldl g s) := by
  induction given generalizing s with
  | nil => rfl
  | cons here _ ih =>
    rw [List.foldlM_cons, here]
    exact ih _

theorem foldlM_eq_mapM (g : σ → β → σ) (xs : List α) (s : σ) :
    (xs.foldlM (fun s x => do return g s (← f x)) s) = (xs.mapM f).map fun ys => ys.foldl g s := by
  induction xs generalizing s with
  | nil => rfl
  | cons x xs ih =>
    rw [List.foldlM_cons, List.mapM_cons]
    cases f x with
    | none => rfl
    | some y =>
      refine (ih (g s y)).trans ?_
      cases xs.mapM f <;> rfl

theorem mapM_map {γ : Type} (g : β → γ) (xs : List α) :
    (xs.mapM fun x => (f x).map g) = (xs.mapM f).map (List.map g) := by
  induction xs with
  | nil => rfl
  | cons x xs ih =>
    rw [List.mapM_cons, List.mapM_cons, ih]
    cases f x with
    | none => rfl
    | some y => cases xs.mapM f <;> rfl

end Failing

end CLoop
