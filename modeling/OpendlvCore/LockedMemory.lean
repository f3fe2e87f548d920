import Mathlib.Logic.Function.Basic
import Mathlib.Tactic.Common

/-!
# A memory that is used under its lock

Parties copy values into a memory and out of it cell by cell, each of them between the `lock` and
the `unlock` of a lock that is a parameter. If it never lets two of them in, the cells behave like
one value that is put and taken at once, whatever steps of others come between.
-/
namespace OpendlvCore.LockedMemory

/-- What a party is doing. -/
inductive Task (β : Type) where
  | idle
  | putting (source : List β) (copied : Nat)
  | taking (wanted : Nat) (got : List β)
  deriving DecidableEq, Repr

structure Memory (ι β : Type) where
  cells : List β
  /-- Who was let in last and has not come out. -/
  owner : Option ι := none
  task : ι → Task β := fun _ => .idle

/-- A lock that lets nobody in before the last one has come out. -/
def Exclusive {ι β : Type} (grants : Memory ι β → ι → Bool) : Prop :=
  ∀ m i, grants m i = true → m.owner = none

namespace Memory
variable {ι β : Type} [DecidableEq ι]

section Lock
variable (grants : Memory ι β → ι → Bool) (m : Memory ι β) (i : ι)

/-- A party waits until it is let in. -/
def lock (t : Task β) : Option (Memory ι β) :=
  if grants m i then some { m with owner := some i, task := Function.update m.task i t }
  else none

def startPut (source : List β) : Option (Memory ι β) := m.lock grants i (.putting source 0)

def startTake (wanted : Nat) : Option (Memory ι β) := m.lock grants i (.taking wanted [])

end Lock

variable (m : Memory ι β) (i : ι)

/-- One cell is copied. Nobody checks the owner. -/
def copy : Option (Memory ι β) :=
  match m.task i with
  | .idle => none
  | .putting source copied =>
    match source[copied]? with
    | some cell =>
      if copied < m.cells.length then
        some { m with
          cells := m.cells.set copied cell
          task := Function.update m.task i (.putting source (copied + 1)) }
      else none
    | none => none
  | .taking wanted got =>
    if got.length < wanted then
      match m.cells[got.length]? with
      | some cell =>
        some { m with task := Function.update m.task i (.taking wanted (got ++ [cell])) }
      | none => none
    else none

/-- Behind the last cell the lock is given back, with what was taken. -/
def unlock : Option (Memory ι β × Option (List β)) :=
  let free := { m with owner := none, task := Function.update m.task i .idle }
  match m.task i with
  | .idle => none
  | .putting source copied => if copied = source.length then some (free, none) else none
  | .taking wanted got => if got.length = wanted then some (free, some got) else none

end Memory

/-- The cells hold this value, or one party is on the way from it to the next one. -/
inductive Holds {ι β : Type} (m : Memory ι β) (content : List β) : Prop
  | free : m.owner = none → (∀ j, m.task j = .idle) → m.cells = content → Holds m content
  | putting {i : ι} {source : List β} {copied : Nat} :
      m.owner = some i → m.task i = .putting source copied → (∀ j, j ≠ i → m.task j = .idle) →
      copied ≤ source.length → source.length = content.length →
      m.cells = source.take copied ++ content.drop copied → Holds m content
  | taking {i : ι} {wanted : Nat} {got : List β} :
      m.owner = some i → m.task i = .taking wanted got → (∀ j, j ≠ i → m.task j = .idle) →
      got.length ≤ wanted → got = content.take got.length → m.cells = content → Holds m content

/-! ## What the steps leave alone -/

section Tasks
variable {ι β : Type} [DecidableEq ι] {grants : Memory ι β → ι → Bool} {m m' : Memory ι β} {i : ι}
  {t : Task β} {result : Option (List β)}

theorem lock_task (locked : m.lock grants i t = some m') : m'.task = Function.update m.task i t := by
  unfold Memory.lock at locked
  split at locked
  · cases locked
    rfl
  · cases locked

/-- A copy stays the copy of the same value. -/
theorem copy_task (copied : m.copy i = some m') : ∃ t, m'.task = Function.update m.task i t ∧
    ((∃ source k, m.task i = .putting source k ∧ t = .putting source (k + 1)) ∨
      ∃ wanted got cell, m.task i = .taking wanted got ∧ t = .taking wanted (got ++ [cell])) := by
  unfold Memory.copy at copied
  split at copied
  · cases copied
  · rename_i source k task
    split at copied
    · split at copied
      · cases copied
        exact ⟨_, rfl, .inl ⟨source, k, task, rfl⟩⟩
      · cases copied
    · cases copied
  · rename_i wanted got task
    split at copied
    · split at copied
      · cases copied
        exact ⟨_, rfl, .inr ⟨wanted, got, _, task, rfl⟩⟩
      · cases copied
    · cases copied

theorem unlock_task (unlocked : m.unlock i = some (m', result)) :
    m'.task = Function.update m.task i .idle := by
  unfold Memory.unlock at unlocked
  simp only at unlocked
  split at unlocked
  · cases unlocked
  · split at unlocked
    · cases unlocked
      rfl
    · cases unlocked
  · split at unlocked
    · cases unlocked
      rfl
    · cases unlocked

end Tasks

/-! ## The cells as one value -/

section Refinement
variable {ι β : Type} {m m' : Memory ι β} {content source got : List β} {i : ι}
  {wanted copied : Nat} {result : Option (List β)}

theorem holds_free (content : List β) : Holds ({ cells := content } : Memory ι β) content :=
  .free rfl (fun _ => rfl) rfl

/-- A party that does something is the owner. -/
theorem Holds.owner (holds : Holds m content) (busy : m.task i ≠ .idle) : m.owner = some i := by
  cases holds with
  | free _ idle _ => exact absurd (idle i) busy
  | @putting j _ _ owner _ others _ _ _ =>
    rcases eq_or_ne i j with rfl | other
    · exact owner
    · exact absurd (others i other) busy
  | @taking j _ _ owner _ others _ _ _ =>
    rcases eq_or_ne i j with rfl | other
    · exact owner
    · exact absurd (others i other) busy

/-- While the lock is held, everybody else is idle. -/
theorem Holds.others (holds : Holds m content) (owner : m.owner = some i) {j : ι} (other : j ≠ i) :
    m.task j = .idle := by
  by_contra busy
  exact other (Option.some.inj ((holds.owner busy).symm.trans owner))

variable [DecidableEq ι] {grants : Memory ι β → ι → Bool}

theorem Holds.of_lock (exclusive : Exclusive grants) (holds : Holds m content) {t : Task β}
    (locked : m.lock grants i t = some m') :
    m.cells = content ∧ m'.cells = m.cells ∧ m'.owner = some i ∧ m'.task i = t ∧
      ∀ j, j ≠ i → m'.task j = .idle := by
  unfold Memory.lock at locked
  split at locked
  · rename_i granted
    have none := exclusive m i granted
    cases locked
    cases holds with
    | free _ idle same =>
      refine ⟨same, rfl, rfl, Function.update_self .., fun j other => ?_⟩
      exact (Function.update_of_ne other ..).trans (idle j)
    | putting owner => simp [none] at owner
    | taking owner => simp [none] at owner
  · cases locked

theorem Holds.startPut (exclusive : Exclusive grants) (holds : Holds m content)
    (fits : source.length = content.length) (started : m.startPut grants i source = some m') :
    Holds m' content := by
  obtain ⟨same, cells, owner, task, others⟩ := holds.of_lock exclusive started
  exact .putting owner task others (Nat.zero_le _) fits (cells.trans same)

theorem Holds.startTake (exclusive : Exclusive grants) (holds : Holds m content)
    (started : m.startTake grants i wanted = some m') : Holds m' content := by
  obtain ⟨same, cells, owner, task, others⟩ := holds.of_lock exclusive started
  exact .taking owner task others (Nat.zero_le _) rfl (cells.trans same)

theorem Holds.copy (holds : Holds m content) (copied : m.copy i = some m') : Holds m' content := by
  have busy : m.task i ≠ .idle := by
    intro idle
    rw [Memory.copy, idle] at copied
    cases copied
  have mine := holds.owner busy
  have others : ∀ (t : Task β) (j : ι), j ≠ i → Function.update m.task i t j = .idle := by
    intro t j other
    rw [Function.update_of_ne other]
    exact holds.others mine other
  cases holds with
  | free owner => simp [mine] at owner
  | @putting j source k owner task _ _ fits cells =>
    obtain rfl : i = j := Option.some.inj (mine.symm.trans owner)
    simp only [Memory.copy, task] at copied
    split at copied
    · rename_i cell here
      split at copied
      · cases copied
        obtain ⟨inside, rfl⟩ := List.getElem?_eq_some_iff.mp here
        refine .putting owner (Function.update_self ..) (others _) inside fits ?_
        change m.cells.set k source[k] = _
        have room : k < content.length := fits ▸ inside
        have start : (source.take k).length = k := List.length_take_of_le (Nat.le_of_lt inside)
        rw [cells, List.set_append_right k _ (Nat.le_of_eq start), start, Nat.sub_self, List.drop_eq_getElem_cons room,
          List.set_cons_zero, List.take_succ_eq_append_getElem inside, List.append_assoc]
        rfl
      · cases copied
    · cases copied
  | @taking j wanted got owner task _ _ part cells =>
    obtain rfl : i = j := Option.some.inj (mine.symm.trans owner)
    simp only [Memory.copy, task] at copied
    split at copied
    · rename_i more
      split at copied
      · rename_i cell here
        cases copied
        rw [cells] at here
        obtain ⟨inside, rfl⟩ := List.getElem?_eq_some_iff.mp here
        refine .taking owner (Function.update_self ..) (others _) ?_ ?_ cells
        · rw [List.length_append, List.length_singleton]
          exact more
        · rw [List.length_append, List.length_singleton,
            List.take_succ_eq_append_getElem inside, ← part]
      · cases copied
    · cases copied

/-- What the end of a copy makes of the value. -/
theorem Holds.unlock (holds : Holds m content) (unlocked : m.unlock i = some (m', result)) :
    (∃ source, m.task i = .putting source source.length ∧ result = none ∧ Holds m' source) ∨
      ∃ wanted, (∃ got, m.task i = .taking wanted got) ∧ result = some (content.take wanted) ∧
        Holds m' content := by
  have busy : m.task i ≠ .idle := by
    intro idle
    rw [Memory.unlock, idle] at unlocked
    cases unlocked
  have mine := holds.owner busy
  have idle : ∀ j, Function.update m.task i Task.idle j = .idle := by
    intro j
    rcases eq_or_ne j i with rfl | other
    · exact Function.update_self ..
    · rw [Function.update_of_ne other]
      exact holds.others mine other
  cases holds with
  | free owner => simp [mine] at owner
  | @putting j source k owner task _ _ fits cells =>
    obtain rfl : i = j := Option.some.inj (mine.symm.trans owner)
    simp only [Memory.unlock, task] at unlocked
    split at unlocked
    · rename_i whole
      cases unlocked
      subst whole
      refine .inl ⟨source, task, rfl, .free rfl idle ?_⟩
      change m.cells = source
      rw [cells, List.take_length, fits, List.drop_length, List.append_nil]
    · cases unlocked
  | @taking j wanted got owner task _ _ part cells =>
    obtain rfl : i = j := Option.some.inj (mine.symm.trans owner)
    simp only [Memory.unlock, task] at unlocked
    split at unlocked
    · rename_i whole
      cases unlocked
      refine .inr ⟨wanted, ⟨got, task⟩, ?_, .free rfl idle cells⟩
      rw [part, whole]
    · cases unlocked

end Refinement

end OpendlvCore.LockedMemory
