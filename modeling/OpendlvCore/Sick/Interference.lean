import OpendlvCore.Sick.Chunking
import OpendlvCore.Sick.Payloads
import Mathlib.Data.Fintype.Basic
import Mathlib.Logic.Function.Basic

/-!
# Several decoders in one process

All decoders count their payload bytes with the same `byteCounter`. A decoder only looks at
it behind a header, and there it is disturbed by every other decoder that stores payload bytes
or finds a header.
-/
namespace OpendlvCore.Sick
open CBytes CStream CLoop

structure Process (ι : Type) where
  byteCounter : Nat
  decoder : ι → SickStringDecoder

section Definitions
variable {ι : Type}

/-- One of the decoders, with the common counter. -/
def Process.state (p : Process ι) (i : ι) : State := (p.byteCounter, p.decoder i)

/-- The process before the first call. -/
def Process.fresh (measurements : ι → Bytes) : Process ι where
  byteCounter := 0
  decoder i := (Sick.fresh (measurements i)).2

variable [DecidableEq ι]

/-- `nextString` on one of the decoders. -/
def Process.call (p : Process ι) (i : ι) (chunk : Bytes) : Option (Process ι) :=
  (nextString (p.state i) chunk).map fun s =>
    { byteCounter := s.1, decoder := Function.update p.decoder i s.2 }

def Process.run (p : Process ι) : List (ι × Bytes) → Option (Process ι)
  | [] => some p
  | (i, chunk) :: calls => (p.call i chunk).bind fun q => run q calls

/-- The chunks that one of the decoders receives. -/
def received (i : ι) (calls : List (ι × Bytes)) : List Bytes :=
  (calls.filter fun call => call.1 = i).map Prod.snd

/-- A call writes the counter: payload bytes are stored or a header is found. -/
def Touches (s : State) (chunk : Bytes) : Prop :=
  10 ≤ (s.2.buffer.data ++ chunk).length ∧
    (s.2.header = true ∧ s.1 < 722 ∨
      ∃ i < (s.2.buffer.data ++ chunk).length, (s.2.header = true → 0 < i) ∧
        ((s.2.buffer.data ++ chunk).drop i).take 7 = measurementHeader)

instance (s : State) (chunk : Bytes) : Decidable (Touches s chunk) :=
  inferInstanceAs (Decidable (_ ∧ _))

/-- No call writes the counter while another decoder is behind a header. -/
def Orderly (p : Process ι) : List (ι × Bytes) → Prop
  | [] => True
  | (i, chunk) :: calls =>
    (Touches (p.state i) chunk → ∀ j, j ≠ i → (p.decoder j).header = false) ∧
      ∀ q, p.call i chunk = some q → Orderly q calls

instance decidableOrderly [Fintype ι] (p : Process ι) (calls : List (ι × Bytes)) :
    Decidable (Orderly p calls) :=
  match calls with
  | [] => .isTrue trivial
  | (i, chunk) :: calls =>
    have : Decidable (∀ q, p.call i chunk = some q → Orderly q calls) :=
      match p.call i chunk with
      | none => .isTrue nofun
      | some q =>
        have := decidableOrderly q calls
        decidable_of_iff (Orderly q calls) (by simp)
    inferInstanceAs (Decidable (_ ∧ _))

end Definitions

/-! ## The counter in one call -/

section Calls
variable {s t u : State} {chunk bs : Bytes} {n : Nat}

/-- The same decoder; the counters agree behind a header. -/
def SameDecoder (s t : State) : Prop := t.2 = s.2 ∧ (s.2.header = true → t.1 = s.1)

/-- Without a header the counter is not looked at. -/
theorem tryDecode_same (same : SameDecoder s t) :
    (tryDecode t).1 = (tryDecode s).1 ∧ SameDecoder (tryDecode s).2 (tryDecode t).2 := by
  obtain ⟨byteCounter, d⟩ := s
  obtain ⟨byteCounter', d'⟩ := t
  obtain ⟨rfl, agree⟩ := same
  by_cases header : d'.header = true
  · obtain rfl : byteCounter' = byteCounter := agree header
    exact ⟨rfl, rfl, fun _ => rfl⟩
  · have unstored : ∀ c, ¬ (d'.header = true ∧ c < MAX_NUMBER_OF_BYTES_PER_PAYLOAD) :=
      fun _ both => header both.1
    have unfinished : ∀ c, ¬ (d'.header = true ∧ c = MAX_NUMBER_OF_BYTES_PER_PAYLOAD) :=
      fun _ both => header both.1
    rw [tryDecode, tryDecode, if_neg (unstored _), if_neg (unstored _), if_neg (unfinished _),
      if_neg (unfinished _)]
    split
    · exact ⟨rfl, rfl, fun _ => rfl⟩
    · split
      · split <;> exact ⟨rfl, rfl, fun again => absurd again header⟩
      · exact ⟨rfl, rfl, fun again => absurd again header⟩

theorem drainPass_same (same : SameDecoder s t) {s' : State}
    (step : drainPass s = some (.next s')) :
    ∃ t', drainPass t = some (.next t') ∧ SameDecoder s' t' := by
  obtain ⟨decoded, after⟩ := tryDecode_same same
  obtain ⟨more, rfl⟩ := drainPass_next step
  rw [drainPass_of_pos (by rwa [same.1]), decoded]
  refine ⟨_, rfl, ?_⟩
  split
  · exact after
  · exact ⟨by simp only [removeFirst, after.1], after.2⟩

/-- A call does the same from any value of the counter that a decoder may not look at. -/
theorem nextString_same (same : SameDecoder s t) (call : nextString s chunk = some u) :
    ∃ v, nextString t chunk = some v ∧ SameDecoder u v := by
  have received : SameDecoder (receive s chunk) (receive t chunk) := by
    refine ⟨?_, same.2⟩
    simp only [receive, same.1]
  rw [nextString] at call ⊢
  simp only [received.1]
  split at call
  · rename_i ten
    obtain ⟨last, returned, rfl⟩ := Option.map_eq_some_iff.mp call
    obtain ⟨last', returned', after⟩ := iterate_simulates SameDecoder
      (fun a b a' related step => drainPass_same related step)
      (fun a b a' related step => by
        obtain ⟨none, rfl⟩ := drainPass_done step
        exact ⟨b, by rw [drainPass, related.1, if_neg none], related⟩)
      received returned
    rw [if_pos ten, returned']
    exact ⟨settle last', rfl, by simp only [settle, after.1], after.2⟩
  · rename_i few
    cases call
    rw [if_neg few]
    exact ⟨_, rfl, by simp only [settle, received.1], received.2⟩

/-- No header begins anywhere. -/
def Clear (bs : Bytes) : Prop := ∀ i, (bs.drop i).take 7 ≠ measurementHeader

theorem Clear.drop (clear : Clear bs) (n : Nat) : Clear (bs.drop n) := by
  intro i
  rw [List.drop_drop]
  exact clear (n + i)

/-- The counter is written where bytes are stored and where a header is found. -/
theorem tryDecode_counter (unstored : ¬ (s.2.header = true ∧ s.1 < 722))
    (unfound : s.2.header = false → Clear s.2.buffer.data) : (tryDecode s).2.1 = s.1 := by
  obtain ⟨byteCounter, d⟩ := s
  rw [tryDecode, if_neg unstored]
  split
  · rfl
  · split
    · rename_i found
      have header : (d.buffer.data.drop 0).take 7 = measurementHeader :=
        agrees_header_iff.mp found.2.2
      exact absurd header (unfound (by simpa using found.1) 0)
    · split
      · split <;> rfl
      · rfl

theorem drainPass_counter (step : drainPass s = some (.next t)) : t.1 = (tryDecode s).2.1 := by
  obtain ⟨-, rfl⟩ := drainPass_next step
  split <;> rfl

/-- Where only the byte behind a payload and bytes without headers are left. -/
structure Untouched (byteCounter : Nat) (s : State) : Prop where
  counter : s.1 = byteCounter
  full : s.2.header = true → s.1 = 722 ∧ Clear (s.2.buffer.data.drop 1)
  clear : s.2.header = false → Clear s.2.buffer.data

theorem untouched_step (sound : Sound s) (before : Untouched n s)
    (step : drainPass s = some (.next t)) : Untouched n t := by
  have waiting : s.2.buffer.data ≠ [] := List.ne_nil_of_length_pos (drainPass_next step).1
  have unstored : ¬ (s.2.header = true ∧ s.1 < 722) := by
    rintro ⟨header, lacks⟩
    have := (before.full header).1
    omega
  have counter : t.1 = n := by
    rw [drainPass_counter step, tryDecode_counter unstored before.clear, before.counter]
  obtain ⟨t', step', -, drained⟩ := drainPass_cases sound waiting
  rw [step] at step'
  cases step'
  cases drained with
  | stored header lacks => exact absurd ⟨header, lacks⟩ unstored
  | converted header full again _ left =>
    refine ⟨counter, fun more => absurd (again.symm.trans more) Bool.false_ne_true, fun _ => ?_⟩
    rw [left]
    exact (before.full header).2
  | headed header enough found =>
    exact absurd (agrees_header_iff.mp found) (before.clear header 0)
  | confirmed header enough found again left =>
    refine ⟨counter, fun more => absurd (again.symm.trans more) Bool.false_ne_true, fun _ => ?_⟩
    rw [left]
    exact (before.clear header).drop 10
  | dropped header missing again left =>
    refine ⟨counter, fun more => absurd (again.symm.trans more) Bool.false_ne_true, fun _ => ?_⟩
    rw [left]
    exact (before.clear header).drop 1

theorem untouched_receive (ready : Ready s) (untouched : ¬ Touches s chunk)
    (ten : 10 ≤ (s.2.buffer.data ++ chunk).length) : Untouched s.1 (receive s chunk) := by
  rw [Touches, not_and, not_or] at untouched
  obtain ⟨unstored, unfound⟩ := untouched ten
  have data : (receive s chunk).2.buffer.data = s.2.buffer.data ++ chunk := receive_data ready
  have counter := ready.counter
  have missing : ∀ i, (s.2.header = true → 0 < i) →
      ((s.2.buffer.data ++ chunk).drop i).take 7 ≠ measurementHeader := by
    intro i skips header
    by_cases inside : i < (s.2.buffer.data ++ chunk).length
    · exact unfound ⟨i, inside, skips, header⟩
    · rw [List.drop_eq_nil_of_le (Nat.le_of_not_lt inside)] at header
      cases header
  constructor
  · rfl
  · intro header
    refine ⟨?_, fun i => ?_⟩
    · have stored : ¬ s.1 < 722 := fun lacks => unstored ⟨header, lacks⟩
      change s.1 = 722
      omega
    · rw [data, List.drop_drop]
      exact missing (1 + i) fun _ => by omega
  · intro header i
    rw [data]
    exact missing i fun more => absurd (header.symm.trans more) Bool.false_ne_true

/-- A call that stores no payload bytes and finds no header leaves the counter as it is. -/
theorem nextString_untouched (ready : Ready s) (untouched : ¬ Touches s chunk)
    (call : nextString s chunk = some t) : t.1 = s.1 := by
  rw [nextString] at call
  split at call
  · rename_i ten
    rw [receive_data ready] at ten
    obtain ⟨last, returned, rfl⟩ := Option.map_eq_some_iff.mp call
    obtain ⟨u, visited, leaves⟩ := iterate_some returned
    obtain ⟨-, rfl⟩ := drainPass_done leaves
    have untouched := visited.invariant (Untouched s.1) (untouched_receive ready untouched ten)
      fun a b seen holds step =>
        untouched_step (visits_bounds (receive_sound ready) seen).1 holds step
    exact untouched.counter
  · cases call
    rfl

end Calls

/-! ## Runs -/

section Runs
variable {ι : Type} {p : Process ι} {alone : ι → State}

/-- Each decoder of the process is as it would be alone, and so is the counter where it is
looked at. -/
structure Separate (p : Process ι) (alone : ι → State) : Prop where
  decoder : ∀ i, p.decoder i = (alone i).2
  counter : ∀ i, (p.decoder i).header = true → p.byteCounter = (alone i).1
  ready : ∀ i, Ready (alone i)
  inside : p.byteCounter ≤ 722

theorem Separate.same (separate : Separate p alone) (i : ι) : SameDecoder (alone i) (p.state i) :=
  ⟨separate.decoder i, fun header => separate.counter i (by rwa [separate.decoder i])⟩

theorem Separate.state (separate : Separate p alone) (i : ι) : Ready (p.state i) := by
  have ready := separate.ready i
  rw [Process.state, separate.decoder i]
  exact ⟨⟨ready.good, ready.inside, separate.inside, ready.room⟩, ready.appends, ready.short⟩

theorem fresh_separate {measurements : ι → Bytes} (room : ∀ i, (measurements i).length = 1000) :
    Separate (Process.fresh measurements) fun i => fresh (measurements i) :=
  ⟨fun _ => rfl, fun _ => nofun, fun i => fresh_ready (room i), Nat.zero_le _⟩

variable [DecidableEq ι]

/-- One call, on one decoder of the process and on that decoder alone. -/
theorem Separate.call (separate : Separate p alone) (i : ι) (chunk : Bytes)
    (orderly : Touches (p.state i) chunk → ∀ j, j ≠ i → (p.decoder j).header = false) :
    ∃ q t, p.call i chunk = some q ∧ nextString (alone i) chunk = some t ∧
      Separate q (Function.update alone i t) := by
  obtain ⟨t, call, ready⟩ := nextString_returns (separate.ready i) chunk
  obtain ⟨v, call', decoder, counter⟩ := nextString_same (separate.same i) call
  obtain ⟨v', again, sound⟩ := nextString_returns (separate.state i) chunk
  rw [call'] at again
  cases again
  refine ⟨_, t, by rw [Process.call, call']; rfl, call, ?_, ?_, ?_, sound.counter⟩
  · intro j
    by_cases here : j = i
    · subst here
      simp only [Function.update_self, decoder]
    · simp only [Function.update_of_ne here, separate.decoder j]
  · intro j header
    by_cases here : j = i
    · subst here
      simp only [Function.update_self] at header ⊢
      exact counter (by rwa [← decoder])
    · simp only [Function.update_of_ne here] at header ⊢
      have untouched : ¬ Touches (p.state i) chunk := fun touches =>
        absurd ((orderly touches j here).symm.trans header) Bool.false_ne_true
      rw [nextString_untouched (separate.state i) untouched call']
      exact separate.counter j header
  · intro j
    by_cases here : j = i
    · subst here
      rwa [Function.update_self]
    · rw [Function.update_of_ne here]
      exact separate.ready j

theorem Process.run_cons {i : ι} {chunk : Bytes} {calls : List (ι × Bytes)} {s : State}
    (call : nextString (p.byteCounter, p.decoder i) chunk = some s) :
    p.run ((i, chunk) :: calls) =
      Process.run { byteCounter := s.1, decoder := Function.update p.decoder i s.2 } calls := by
  rw [Process.run, Process.call, Process.state, call]
  rfl

theorem received_self (i : ι) (chunk : Bytes) (calls : List (ι × Bytes)) :
    received i ((i, chunk) :: calls) = chunk :: received i calls := by
  simp [received]

theorem received_other {i j : ι} (other : j ≠ i) (chunk : Bytes) (calls : List (ι × Bytes)) :
    received j ((i, chunk) :: calls) = received j calls := by
  simp [received, Ne.symm other]

theorem Separate.run (separate : Separate p alone) (calls : List (ι × Bytes))
    (orderly : Orderly p calls) :
    ∃ q after, p.run calls = some q ∧ (∀ i, feed (alone i) (received i calls) = some (after i)) ∧
      Separate q after := by
  induction calls generalizing p alone with
  | nil => exact ⟨p, alone, rfl, fun _ => rfl, separate⟩
  | cons call calls ih =>
    obtain ⟨i, chunk⟩ := call
    obtain ⟨q, t, one, single, between⟩ := separate.call i chunk orderly.1
    obtain ⟨r, after, rest, fed, ends⟩ := ih between (orderly.2 q one)
    refine ⟨r, after, by rw [Process.run, one]; exact rest, fun j => ?_, ends⟩
    have later := fed j
    by_cases here : j = i
    · subst here
      rw [Function.update_self] at later
      rw [received_self, feed, single]
      exact later
    · rw [Function.update_of_ne here] at later
      rw [received_other here]
      exact later

end Runs

/-- When no decoder stores payload bytes or finds a header while another one is behind a header,
each decoder of a process converts what it converts alone. -/
theorem orderly_decoders_do_not_interfere {ι : Type} [DecidableEq ι] {measurements : ι → Bytes}
    (room : ∀ i, (measurements i).length = 1000) (calls : List (ι × Bytes))
    (orderly : Orderly (Process.fresh measurements) calls) :
    ∃ p, (Process.fresh measurements).run calls = some p ∧
      ∀ i, ∃ s, feed (fresh (measurements i)) (received i calls) = some s ∧
        (p.decoder i).conversions = s.2.conversions := by
  obtain ⟨p, after, ran, fed, separate⟩ := (fresh_separate room).run calls orderly
  exact ⟨p, ran, fun i => ⟨after i, fed i, by rw [separate.decoder i]⟩⟩

theorem orderly_decoders_do_not_interfere_two :
    ∃ p, (Process.fresh fun _ : Bool => zeros 1000).run
        [(true, measurementHeader ++ [1, 2, 3]), (false, startResponse), (true, zeros 10)] = some p ∧
      ∀ i, ∃ s, feed (fresh (zeros 1000)) (received i
          [(true, measurementHeader ++ [1, 2, 3]), (false, startResponse), (true, zeros 10)]) = some s ∧
        (p.decoder i).conversions = s.2.conversions :=
  orderly_decoders_do_not_interfere (fun _ => length_zeros 1000) _ (by decide +kernel)

/-! ## A disturbed payload -/

/-- Before the header of a payload, or inside it with `total` bytes stored at the end. -/
def Storing (total : Nat) (log : List Bytes) (s : State) : Prop :=
  s.2.conversions = log ∧
    (s.2.header = false ∧ (∃ bs, s.2.buffer.data = measurementHeader ++ bs ∧ bs.length = total) ∨
      s.2.header = true ∧ s.1 + s.2.buffer.data.length = total)

theorem storing_step {total : Nat} {log : List Bytes} {s t : State} (fits : total ≤ 722)
    (before : Storing total log s) (waiting : s.2.buffer.data ≠ [])
    (drained : Drained s s.2.buffer.data t) : Storing total log t := by
  have some_left := List.length_pos_iff.mpr waiting
  obtain ⟨same, ⟨idle, bs, data, length⟩ | ⟨busy, sum⟩⟩ := before
  · have header : s.2.buffer.data.take 7 = measurementHeader := by
      rw [data]
      exact List.take_left' rfl
    cases drained with
    | stored header => exact absurd (idle.symm.trans header) Bool.false_ne_true
    | converted header => exact absurd (idle.symm.trans header) Bool.false_ne_true
    | headed _ _ _ again counter left log =>
      refine ⟨log.trans same, .inr ⟨again, ?_⟩⟩
      have rest : s.2.buffer.data.drop 7 = bs := by
        rw [data]
        exact List.drop_left' rfl
      rw [counter, left, rest, length, Nat.zero_add]
    | confirmed _ _ found =>
      exact absurd header (no_header_in_response found 0 (by decide))
    | dropped _ missing =>
      have seven : 7 ≤ s.2.buffer.data.length := by
        rw [data, List.length_append]
        exact Nat.le_add_right 7 _
      exact absurd ((missing seven).symm.trans (agrees_header_iff.mpr header)) Bool.false_ne_true
  · cases drained with
    | stored header lacks again counter left taken log =>
      have all : min (722 - s.1) s.2.buffer.data.length = s.2.buffer.data.length := by omega
      refine ⟨log.trans same, .inr ⟨again, ?_⟩⟩
      rw [counter, left, all, List.length_drop, sum, Nat.sub_self, Nat.add_zero]
    | converted header full => omega
    | headed header => exact absurd (header.symm.trans busy) Bool.false_ne_true
    | confirmed header => exact absurd (header.symm.trans busy) Bool.false_ne_true
    | dropped header => exact absurd (header.symm.trans busy) Bool.false_ne_true

/-- A call that ends inside a payload converts nothing. -/
theorem nextString_stores {total : Nat} {s : State} {chunk : Bytes} (fits : total ≤ 722)
    (ready : Ready s) (ten : 10 ≤ (s.2.buffer.data ++ chunk).length)
    (start : Storing total s.2.conversions (receive s chunk)) :
    ∃ t, nextString s chunk = some t ∧ Ready t ∧ t.2.buffer.data = [] ∧ t.1 = total ∧
      t.2.header = true ∧ t.2.conversions = s.2.conversions := by
  obtain ⟨t, call, again, sound, empty, same, ended⟩ :=
    nextString_drains (Storing total s.2.conversions) ready ten start
      fun a b _ waiting holds drained => storing_step fits holds waiting drained
  rcases ended with ⟨-, bs, data, -⟩ | ⟨busy, sum⟩
  · rw [empty] at data
    cases data
  · rw [empty] at sum
    exact ⟨settle t, call, again, (settle_data sound.good).trans empty, sum, busy, same⟩

/-- A header and the beginning of its payload, whatever the counter was. -/
theorem nextString_header {measurements bs : Bytes} (room : measurements.length = 1000)
    {byteCounter : Nat} (inside : byteCounter ≤ 722) (three : 3 ≤ bs.length) (fits : bs.length ≤ 722) :
    ∃ t, nextString (byteCounter, (fresh measurements).2) (measurementHeader ++ bs) = some t ∧
      Ready t ∧ t.2.buffer.data = [] ∧ t.1 = bs.length ∧ t.2.header = true ∧
      t.2.conversions = [] := by
  have ready : Ready (byteCounter, (fresh measurements).2) :=
    ⟨⟨rfl, Nat.le_refl _, inside, room⟩, rfl, (by decide : 0 < 10)⟩
  have enough : 10 ≤ ([] ++ (measurementHeader ++ bs)).length := by
    rw [List.nil_append, List.length_append]
    change 10 ≤ 7 + bs.length
    omega
  exact nextString_stores fits ready enough ⟨rfl, .inl ⟨rfl, bs, receive_data ready, rfl⟩⟩

/-- A call on one decoder, one on the other, and one on the first again. -/
theorem run_there_and_back (measurements : Bool → Bytes) {a b c : Bytes} {t u v : State}
    (first : nextString (fresh (measurements true)) a = some t)
    (second : nextString (t.1, (fresh (measurements false)).2) b = some u)
    (third : nextString (u.1, t.2) c = some v) :
    ∃ q, (Process.fresh measurements).run [(true, a), (false, b), (true, c)] = some q ∧
      q.decoder true = v.2 := by
  have one : (Process.fresh measurements).run [(true, a), (false, b), (true, c)] =
      Process.run { byteCounter := t.1, decoder := Function.update _ true t.2 }
        [(false, b), (true, c)] := Process.run_cons first
  rw [one, Process.run_cons second, Process.run_cons third]
  exact ⟨_, rfl, by simp only [Function.update_self]⟩

/-- The payload goes on where the counter is, which may be the one of another decoder. -/
theorem nextString_disturbed {measurements first other rest : Bytes}
    (room : measurements.length = 1000) (three : 3 ≤ first.length) (fits : first.length ≤ 722)
    (three' : 3 ≤ other.length) (more : 10 ≤ rest.length)
    (short : other.length + rest.length ≤ 722) :
    ∃ q, (Process.fresh fun _ : Bool => measurements).run
        [(true, measurementHeader ++ first), (false, measurementHeader ++ other), (true, rest)] =
          some q ∧ (q.decoder true).conversions = [] := by
  obtain ⟨t, call₁, ready₁, empty₁, counter₁, busy₁, log₁⟩ :=
    nextString_header room (Nat.zero_le 722) three fits
  obtain ⟨u, call₂, ready₂, -, counter₂, -⟩ :=
    nextString_header room ready₁.counter three' (by omega)
  have ready₃ : Ready (u.1, t.2) :=
    ⟨⟨ready₁.good, ready₁.inside, ready₂.counter, ready₁.room⟩, ready₁.appends, ready₁.short⟩
  have received : (receive (u.1, t.2) rest).2.buffer.data = rest := by
    rw [receive_data ready₃]
    simp only [empty₁, List.nil_append]
  obtain ⟨v, call₃, -, -, -, -, log₃⟩ := nextString_stores short ready₃
    (by simpa only [empty₁, List.nil_append] using more) ⟨rfl, .inr ⟨busy₁, by
      rw [received]
      simp only [receive, counter₂]⟩⟩
  obtain ⟨q, ran, decoder⟩ := run_there_and_back (fun _ => measurements) call₁ call₂ call₃
  exact ⟨q, ran, by rw [decoder, log₃, log₁]⟩

/-- The header that one decoder finds makes the other one start its payload again. -/
theorem decoders_interfere :
    ¬ ∀ (measurements : Bool → Bytes) (calls : List (Bool × Bytes)),
      (∀ i, (measurements i).length = 1000) →
        ∃ p, (Process.fresh measurements).run calls = some p ∧
          ∀ i, ∃ s, feed (fresh (measurements i)) (received i calls) = some s ∧
            (p.decoder i).conversions = s.2.conversions := by
  intro always
  obtain ⟨p, ran, same⟩ := always (fun _ => zeros 1000)
    [(true, measurementHeader ++ zeros 719), (false, measurementHeader ++ zeros 3), (true, zeros 10)]
    fun _ => length_zeros 1000
  obtain ⟨s, fed, log⟩ := same true
  have none : (p.decoder true).conversions = [] := by
    obtain ⟨q, ran', lost⟩ := nextString_disturbed (length_zeros 1000)
      (show 3 ≤ (zeros 719).length by rw [length_zeros]; decide)
      (show (zeros 719).length ≤ 722 by rw [length_zeros]; decide)
      (show 3 ≤ (zeros 3).length by decide) (show 10 ≤ (zeros 10).length by decide)
      (show (zeros 3).length + (zeros 10).length ≤ 722 by decide)
    rw [ran, Option.some_inj] at ran'
    rw [ran', lost]
  have one : s.2.conversions.length = 1 := by
    rw [received_self, received_other (by decide), received_self] at fed
    have alone : conversions (zeros 1000) [measurementHeader ++ zeros 719] 10 =
        some (payloads (found [measurementHeader ++ zeros 719] 10)) :=
      conversions_eq (length_zeros 1000) (Nat.le_refl 10)
    have found : (payloads (found [measurementHeader ++ zeros 719] 10)).length = 1 := by
      decide +kernel
    rw [conversions, List.singleton_append, show [zeros 10] = zeros 10 :: received true [] from rfl,
      fed, Option.map_some, Option.some_inj] at alone
    rw [alone, found]
  rw [none] at log
  rw [← log] at one
  cases one

end OpendlvCore.Sick
