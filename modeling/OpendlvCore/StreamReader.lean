import OpendlvCore.Loops
import OpendlvCore.StringStream

/-!
# Readers over a `std::stringstream`

A reader consumes bytes from a stream and builds a value. It gives no result at
all only when one of its loops never ends; a stream that runs short still gives
a value, built from what the storage held before.
-/
namespace CStream
open CBytes

abbrev Reader (α : Type) := StateT StringStream Option α

/-- Read over the bytes of `store`; what a short read does not reach keeps its old value. -/
def readInto (store : Bytes) : Reader Bytes := fun s =>
  match s.read store.length with
  | (got, s') => some (got ++ store.drop got.length, s')

/-- `if (buffer.good()) { m }` around the code that fills a default value. -/
def ifGood {α : Type} (unset : α) (m : Reader α) : Reader α := fun s =>
  if s.good then m s else some (unset, s)

/-- `for (uint8_t i = 0; i < bound; i++)` around a reader that updates an accumulator. -/
def forU8 {α : Type} (bound : Nat) (body : α → Reader α) (a : α) : Reader α := fun s =>
  CLoop.forU8 bound (fun p : α × StringStream => body p.1 p.2) (a, s)

/-- From any good stream that goes on with `bs`, `m` reads exactly `bs` and returns `a`. -/
def Consumes {α : Type} (m : Reader α) (bs : Bytes) (a : α) : Prop :=
  ∀ s rest, s.good = true → s.unread = bs ++ rest → m s = some (a, s.advance bs.length)

/-- Where such a reader ends with a good stream, its value depends on the bytes it
consumed and on nothing else. -/
class Local {α : Type} (m : Reader α) : Prop where
  consumed : ∀ s a s', m s = some (a, s') → s'.good = true →
    s.good = true ∧ ∃ bs rest, s.unread = bs ++ rest ∧ Consumes m bs a

/-- A reader whose loops all end. -/
class Total {α : Type} (m : Reader α) : Prop where
  total : ∀ s, m s ≠ none

section Rules
variable {α β : Type}

theorem bind_of_run {m : Reader α} {f : α → Reader β} {s s' : StringStream} {a : α}
    (run : m s = some (a, s')) : (m >>= f) s = f a s' := by
  change (m s).bind (fun p => f p.1 p.2) = f a s'
  rw [run]
  rfl

theorem readInto_enough (store : Bytes) {s : StringStream} (good : s.good = true)
    (enough : store.length ≤ s.unread.length) :
    readInto store s = some (s.unread.take store.length, s.advance store.length) := by
  have got : s.read store.length = (s.unread.take store.length, s.advance store.length) := by
    rw [StringStream.read, if_pos good, if_neg (by omega)]
    rfl
  rw [readInto, got]
  simp only [List.length_take, Nat.min_eq_left enough, List.drop_length, List.append_nil]

/-- A read that does not get all its bytes leaves the stream failed. -/
theorem readInto_short (store : Bytes) {s : StringStream}
    (short : ¬ (s.good = true ∧ store.length ≤ s.unread.length)) :
    ∃ got s', readInto store s = some (got, s') ∧ s'.good = false := by
  refine ⟨(s.read store.length).1 ++ store.drop (s.read store.length).1.length,
    (s.read store.length).2, rfl, ?_⟩
  cases fine : (s.read store.length).2.good with
  | false => rfl
  | true => exact absurd (StringStream.read_good fine) short

/-- A read takes what is available, and keeps the rest of the store. -/
theorem readInto_run (store : Bytes) (s : StringStream) :
    readInto store s = some (s.available.take store.length ++ store.drop s.available.length,
      (s.read store.length).2) := by
  have got := StringStream.read_fst (s := s) store.length
  have rest : store.drop (s.available.take store.length).length = store.drop s.available.length := by
    rw [List.length_take]
    rcases Nat.le_total store.length s.available.length with enough | short
    · rw [List.drop_eq_nil_of_le (by omega), List.drop_eq_nil_of_le enough]
    · rw [Nat.min_eq_right short]
  rw [← rest, ← got]
  rfl

theorem Consumes.pure (a : α) : Consumes (pure a : Reader α) [] a :=
  fun _ _ _ _ => rfl

theorem Consumes.bind {m : Reader α} {f : α → Reader β} {bs cs : Bytes} {a : α} {b : β}
    (first : Consumes m bs a) (second : Consumes (f a) cs b) :
    Consumes (m >>= f) (bs ++ cs) b := by
  intro s rest good here
  rw [List.append_assoc] at here
  have step := first s (cs ++ rest) good here
  have next := second (s.advance bs.length) rest good (StringStream.unread_advance here)
  rw [StringStream.advance_advance, ← List.length_append] at next
  rw [bind_of_run step]
  exact next

theorem Consumes.readInto {store bs : Bytes} (width : bs.length = store.length) :
    Consumes (readInto store) bs bs := by
  intro s rest good here
  have got := StringStream.read_of_unread good here
  rw [width] at got
  simp [CStream.readInto, got, width]

theorem Consumes.ifGood {m : Reader α} {unset a : α} {bs : Bytes} (h : Consumes m bs a) :
    Consumes (ifGood unset m) bs a := by
  intro s rest good here
  rw [CStream.ifGood, if_pos good]
  exact h s rest good here

/-- Two readings of the same stream agree, so the consumed bytes determine the value. -/
theorem Consumes.value_unique {m : Reader α} {bs : Bytes} {a b : α}
    (first : Consumes m bs a) (second : Consumes m bs b) : a = b := by
  have left := first { data := bs } [] rfl (by simp [StringStream.unread])
  have right := second { data := bs } [] rfl (by simp [StringStream.unread])
  rw [left] at right
  simpa using right

/-- One run that reads a whole stream shows what the reader consumes. -/
theorem Local.consumes {m : Reader α} [reads : Local m] {bs : Bytes} {a : α} {s' : StringStream}
    (run : m { data := bs } = some (a, s')) (good : s'.good = true) (all : s'.gptr = bs.length) :
    Consumes m bs a := by
  obtain ⟨_, payload, rest, here, consumes⟩ := reads.consumed _ a s' run good
  have whole : bs = payload ++ rest := here
  have moved := consumes { data := bs } rest rfl here
  rw [run] at moved
  cases moved
  have size : payload.length = bs.length := by simpa using all
  have nothing : rest = [] := by
    rw [whole, List.length_append] at size
    exact List.eq_nil_of_length_eq_zero (by omega)
  rw [nothing, List.append_nil] at whole
  rwa [whole]

instance Local.pure (a : α) : Local (pure a : Reader α) where
  consumed s b s' run good := by
    cases run
    exact ⟨good, [], s.unread, rfl, .pure a⟩

instance Local.bind (m : Reader α) (f : α → Reader β) [first : Local m] [second : ∀ a, Local (f a)] :
    Local (m >>= f) where
  consumed s b s'' run good := by
    change (m s).bind (fun p => f p.1 p.2) = some (b, s'') at run
    obtain ⟨⟨a, s'⟩, left, right⟩ := Option.bind_eq_some_iff.mp run
    obtain ⟨middle, cs, rest', here', consumes'⟩ := (second a).consumed s' b s'' right good
    obtain ⟨start, bs, rest, here, consumes⟩ := first.consumed s a s' left middle
    have moved := consumes s rest start here
    rw [left] at moved
    have same : s' = s.advance bs.length := by simpa using moved
    rw [same, StringStream.unread_advance here] at here'
    exact ⟨start, bs ++ cs, rest', by rw [here, here', List.append_assoc], consumes.bind consumes'⟩

instance Local.readInto (store : Bytes) : Local (readInto store) where
  consumed s got s' run good := by
    have flow : (s.read store.length).1 ++ store.drop (s.read store.length).1.length = got ∧
        (s.read store.length).2 = s' := by
      simpa [CStream.readInto] using run
    obtain ⟨start, enough⟩ := StringStream.read_good (by rw [flow.2]; exact good)
    have split : s.unread = s.unread.take store.length ++ s.unread.drop store.length :=
      (List.take_append_drop _ _).symm
    have width : (s.unread.take store.length).length = store.length := by
      rw [List.length_take]; omega
    have whole := Consumes.readInto width s _ start split
    rw [run] at whole
    have value : got = s.unread.take store.length := by simpa using congrArg (Option.map Prod.fst) whole
    rw [value]
    exact ⟨start, _, _, split, Consumes.readInto width⟩

instance Local.ifGood (unset : α) (m : Reader α) [inner : Local m] : Local (ifGood unset m) where
  consumed s a s' run good := by
    unfold CStream.ifGood at run
    split at run
    · obtain ⟨start, bs, rest, here, consumes⟩ := inner.consumed s a s' run good
      exact ⟨start, bs, rest, here, consumes.ifGood⟩
    · rename_i failed
      cases run
      exact absurd good failed

/-- `body` applied `n` times, as a reader. -/
def repeated (body : α → Reader α) (n : Nat) (a : α) : Reader α := fun s =>
  CLoop.repeated (fun p : α × StringStream => body p.1 p.2) n (a, s)

theorem repeated_zero (body : α → Reader α) (a : α) : repeated body 0 a = pure a := rfl

theorem repeated_succ (body : α → Reader α) (n : Nat) (a : α) :
    repeated body (n + 1) a = body a >>= repeated body n := rfl

theorem forU8_of_le (body : α → Reader α) (a : α) {bound : Nat} (small : bound ≤ 255) :
    forU8 bound body a = repeated body bound a :=
  funext fun _ => CLoop.forU8_eq_repeated small

theorem forU8_of_gt (body : α → Reader α) (a : α) {bound : Nat} (large : 256 ≤ bound)
    (s : StringStream) : forU8 bound body a s = none :=
  CLoop.forU8_none large

theorem Local.repeated (body : α → Reader α) [∀ a, Local (body a)] (n : Nat) (a : α) :
    Local (repeated body n a) := by
  induction n generalizing a with
  | zero => rw [repeated_zero]; infer_instance
  | succ n ih =>
    have := ih
    rw [repeated_succ]
    infer_instance

instance Local.forU8 (bound : Nat) (body : α → Reader α) (a : α) [∀ a, Local (body a)] :
    Local (forU8 bound body a) := by
  by_cases small : bound ≤ 255
  · rw [forU8_of_le body a small]
    exact Local.repeated body bound a
  · exact ⟨fun s b s' run => by rw [forU8_of_gt body a (by omega)] at run; cases run⟩

end Rules

/-! ## Readers of a fixed number of bytes -/

/-- `s'` is `s` after `k` bytes were read, or a failed stream if they were not there. -/
def Skips (s : StringStream) (k : Nat) (s' : StringStream) : Prop :=
  if s.good = true ∧ k ≤ s.unread.length then s' = s.advance k else s'.good = false

/-- A reader that ends on every stream and reads `k` bytes whatever they are. -/
class FixedWidth {α : Type} (m : Reader α) (k : outParam Nat) : Prop where
  skips : ∀ s, ∃ a s', m s = some (a, s') ∧ Skips s k s'

section Widths
variable {α β : Type} {s s' s'' : StringStream} {j k : Nat}

theorem Skips.of_enough (skips : Skips s k s') (good : s.good = true)
    (enough : k ≤ s.unread.length) : s' = s.advance k := by
  rwa [Skips, if_pos ⟨good, enough⟩] at skips

theorem Skips.of_short (skips : Skips s k s') (short : ¬ (s.good = true ∧ k ≤ s.unread.length)) :
    s'.good = false := by
  rwa [Skips, if_neg short] at skips

theorem Skips.zero (s : StringStream) : Skips s 0 s := by
  unfold Skips
  split
  · rfl
  · rename_i short
    simpa using short

theorem Skips.trans (first : Skips s j s') (second : Skips s' k s'') : Skips s (j + k) s'' := by
  by_cases enough : s.good = true ∧ j ≤ s.unread.length
  · have moved := first.of_enough enough.1 enough.2
    subst moved
    have left : (s.advance j).unread.length = s.unread.length - j := by
      rw [StringStream.unread_advance_drop, List.length_drop]
    unfold Skips
    split
    · rename_i whole
      rw [second.of_enough enough.1 (by omega), StringStream.advance_advance]
    · rename_i short
      refine second.of_short fun rest => short ⟨enough.1, ?_⟩
      omega
  · have failed := first.of_short enough
    unfold Skips
    split
    · rename_i whole
      exact absurd ⟨whole.1, by omega⟩ enough
    · exact second.of_short (by simp [failed])

/-- Reading takes bytes from the front of what is available, also when it fails. -/
theorem Skips.available (skips : Skips s k s') : s'.available = s.available.drop k := by
  by_cases enough : s.good = true ∧ k ≤ s.unread.length
  · rw [skips.of_enough enough.1 enough.2, StringStream.available, StringStream.available,
      StringStream.advance_good, if_pos enough.1, if_pos enough.1, StringStream.unread_advance_drop]
  · have failed := skips.of_short enough
    rw [StringStream.available, if_neg (by simp [failed]), StringStream.available]
    split
    · rename_i good
      have short : ¬ k ≤ s.unread.length := fun inside => enough ⟨good, inside⟩
      rw [List.drop_eq_nil_of_le (by omega)]
    · exact List.drop_nil.symm

instance FixedWidth.pure (a : α) : FixedWidth (pure a : Reader α) 0 where
  skips s := ⟨a, s, rfl, .zero s⟩

instance FixedWidth.bind (m : Reader α) (f : α → Reader β) [first : FixedWidth m j]
    [second : ∀ a, FixedWidth (f a) k] : FixedWidth (m >>= f) (j + k) where
  skips s := by
    obtain ⟨a, s', run, skips⟩ := first.skips s
    obtain ⟨b, s'', run', skips'⟩ := (second a).skips s'
    exact ⟨b, s'', (bind_of_run run).trans run', skips.trans skips'⟩

instance FixedWidth.readInto (store : Bytes) : FixedWidth (readInto store) store.length where
  skips s := by
    by_cases enough : s.good = true ∧ store.length ≤ s.unread.length
    · refine ⟨_, _, readInto_enough _ enough.1 enough.2, ?_⟩
      rw [Skips, if_pos enough]
    · obtain ⟨got, s', run, failed⟩ := readInto_short _ enough
      refine ⟨got, s', run, ?_⟩
      rwa [Skips, if_neg enough]

instance FixedWidth.ifGood (unset : α) (m : Reader α) [inner : FixedWidth m k] :
    FixedWidth (ifGood unset m) k where
  skips s := by
    by_cases good : s.good = true
    · rw [CStream.ifGood, if_pos good]
      exact inner.skips s
    · refine ⟨unset, s, by rw [CStream.ifGood, if_neg good], ?_⟩
      rw [Skips, if_neg fun enough => good enough.1]
      simpa using good

theorem FixedWidth.repeated (body : α → Reader α) [∀ a, FixedWidth (body a) k] (n : Nat) (a : α) :
    FixedWidth (repeated body n a) (n * k) := by
  induction n generalizing a with
  | zero =>
    rw [repeated_zero, Nat.zero_mul]
    infer_instance
  | succ n ih =>
    have := ih
    rw [repeated_succ, Nat.succ_mul, Nat.add_comm]
    infer_instance

/-- A counted loop around a reader of fixed width, when its counter can reach the bound. -/
theorem FixedWidth.forU8 (body : α → Reader α) [∀ a, FixedWidth (body a) k] {bound : Nat}
    (small : bound ≤ 255) (a : α) : FixedWidth (forU8 bound body a) (bound * k) := by
  rw [forU8_of_le body a small]
  exact FixedWidth.repeated body bound a

instance FixedWidth.total (m : Reader α) [width : FixedWidth m k] : Total m where
  total s run := by
    obtain ⟨a, s', run', _⟩ := width.skips s
    rw [run'] at run
    cases run

/-- A reader that ends is followed by whatever comes next. -/
theorem bind_eq_none_iff (m : Reader α) (f : α → Reader β) [∀ a, Total (f a)] :
    (m >>= f) s = none ↔ m s = none := by
  constructor
  · intro hangs
    cases run : m s with
    | none => rfl
    | some p =>
      rw [bind_of_run run] at hangs
      exact absurd hangs (Total.total p.2)
  · intro hangs
    change (m s).bind (fun p => f p.1 p.2) = none
    rw [hangs]
    rfl

/-- From `s`, after `before` bytes, `m` comes to a counted loop that reads `step` bytes
in each of `bound` rounds, and reads `after` more bytes behind it. -/
def LoopsAfter (m : Reader α) (s : StringStream) (before bound step after : Nat) : Prop :=
  ∃ (σ : Type) (body : σ → Reader σ) (start : σ) (tail : σ → Reader α) (s' : StringStream),
    (∀ x, FixedWidth (body x) step) ∧ (∀ x, FixedWidth (tail x) after) ∧ Skips s before s' ∧
      m s = (forU8 bound body start >>= tail) s'

theorem LoopsAfter.loop (bound : Nat) (body : α → Reader α) (start : α) (tail : α → Reader β)
    (s : StringStream) [bodies : ∀ x, FixedWidth (body x) j] [tails : ∀ x, FixedWidth (tail x) k] :
    LoopsAfter (CStream.forU8 bound body start >>= tail) s 0 bound j k :=
  ⟨α, body, start, tail, s, bodies, tails, .zero s, rfl⟩

theorem LoopsAfter.bind_run {m : Reader α} {f : α → Reader β} {a : α} {before bound step after : Nat}
    (run : m s = some (a, s')) (skips : Skips s j s')
    (rest : LoopsAfter (f a) s' before bound step after) :
    LoopsAfter (m >>= f) s (j + before) bound step after := by
  obtain ⟨σ, body, start, tail, s₁, bodies, tails, reached, run'⟩ := rest
  exact ⟨σ, body, start, tail, s₁, bodies, tails, skips.trans reached, (bind_of_run run).trans run'⟩

theorem LoopsAfter.bind {m : Reader α} {f : α → Reader β} {before bound step after : Nat}
    [width : FixedWidth m j]
    (rest : ∀ a s', Skips s j s' → LoopsAfter (f a) s' before bound step after) :
    LoopsAfter (m >>= f) s (j + before) bound step after := by
  obtain ⟨a, s', run, skips⟩ := width.skips s
  exact .bind_run run skips (rest a s' skips)

theorem LoopsAfter.ifGood {m : Reader α} {unset : α} {before bound step after : Nat}
    (good : s.good = true) (loops : LoopsAfter m s before bound step after) :
    LoopsAfter (CStream.ifGood unset m) s before bound step after := by
  obtain ⟨σ, body, start, tail, s₁, bodies, tails, reached, run⟩ := loops
  refine ⟨σ, body, start, tail, s₁, bodies, tails, reached, ?_⟩
  rw [CStream.ifGood, if_pos good, run]

/-- The same reader with its value put into another message. -/
theorem LoopsAfter.map {m : Reader α} {before bound step after : Nat} (f : α → β)
    (loops : LoopsAfter m s before bound step after) :
    LoopsAfter (m >>= fun a => Pure.pure (f a)) s before bound step after := by
  obtain ⟨σ, body, start, tail, s₁, bodies, tails, reached, run⟩ := loops
  have mapped : ∀ x, FixedWidth (tail x >>= fun a => Pure.pure (f a)) after := by
    intro x
    infer_instance
  refine ⟨σ, body, start, fun x => tail x >>= fun a => Pure.pure (f a), s₁, bodies, mapped,
    reached, ?_⟩
  rw [← bind_assoc]
  change (m s).bind _ = (((CStream.forU8 bound body start >>= tail) s₁).bind _)
  rw [run]

/-- When the counter reaches its bound the whole reader reads a fixed number of bytes. -/
theorem LoopsAfter.skips {m : Reader α} {before bound step after : Nat}
    (loops : LoopsAfter m s before bound step after) (small : bound ≤ 255)
    (width : before + (bound * step + after) = k) : ∃ a s', m s = some (a, s') ∧ Skips s k s' := by
  obtain ⟨σ, body, start, tail, s₁, bodies, tails, reached, run⟩ := loops
  have whole : FixedWidth (CStream.forU8 bound body start) (bound * step) := .forU8 body small start
  obtain ⟨a, s', run', skips⟩ :=
    FixedWidth.skips (m := CStream.forU8 bound body start >>= tail) s₁
  rw [← width]
  exact ⟨a, s', run.trans run', reached.trans skips⟩

theorem LoopsAfter.hangs {m : Reader α} {before bound step after : Nat}
    (loops : LoopsAfter m s before bound step after) (large : 256 ≤ bound) : m s = none := by
  obtain ⟨σ, body, start, tail, s₁, bodies, tails, reached, run⟩ := loops
  rw [run, bind_eq_none_iff]
  exact forU8_of_gt body start large s₁

end Widths

/-! ## Readers do not write -/

/-- A reader that leaves the content of the stream as it is, also when it fails. -/
class KeepsData {α : Type} (m : Reader α) : Prop where
  keeps : ∀ s a s', m s = some (a, s') → s'.data = s.data

section Content
variable {α β : Type}

instance KeepsData.pure (a : α) : KeepsData (pure a : Reader α) where
  keeps s b s' run := by
    cases run
    rfl

instance KeepsData.bind (m : Reader α) (f : α → Reader β) [first : KeepsData m]
    [second : ∀ a, KeepsData (f a)] : KeepsData (m >>= f) where
  keeps s b s'' run := by
    change (m s).bind (fun p => f p.1 p.2) = some (b, s'') at run
    obtain ⟨⟨a, s'⟩, left, right⟩ := Option.bind_eq_some_iff.mp run
    exact ((second a).keeps s' b s'' right).trans (first.keeps s a s' left)

instance KeepsData.readInto (store : Bytes) : KeepsData (readInto store) where
  keeps s got s' run := by
    have last : (s.read store.length).2 = s' := congrArg Prod.snd (Option.some.inj run)
    exact last ▸ StringStream.read_data store.length

instance KeepsData.ifGood (unset : α) (m : Reader α) [inner : KeepsData m] :
    KeepsData (ifGood unset m) where
  keeps s a s' run := by
    unfold CStream.ifGood at run
    split at run
    · exact inner.keeps s a s' run
    · cases run
      rfl

theorem KeepsData.repeated (body : α → Reader α) [∀ a, KeepsData (body a)] (n : Nat) (a : α) :
    KeepsData (repeated body n a) := by
  induction n generalizing a with
  | zero => rw [repeated_zero]; infer_instance
  | succ n ih =>
    have := ih
    rw [repeated_succ]
    infer_instance

instance KeepsData.forU8 (bound : Nat) (body : α → Reader α) (a : α) [∀ a, KeepsData (body a)] :
    KeepsData (forU8 bound body a) := by
  by_cases small : bound ≤ 255
  · rw [forU8_of_le body a small]
    exact KeepsData.repeated body bound a
  · exact ⟨fun s b s' run => by rw [forU8_of_gt body a (by omega)] at run; cases run⟩

end Content

end CStream
