import OpendlvCore.Sick.Telegrams

/-!
# What a decoder converts

Every payload that is converted stands in the stream behind a measurement header, however
the stream is cut into chunks, and nothing is written behind the 722 bytes of a payload.
-/
namespace OpendlvCore.Sick
open CBytes CStream CLoop

/-- The payload stands in the stream directly behind a header. -/
def Follows (payload stream : Bytes) : Prop :=
  ∃ before after, stream = before ++ measurementHeader ++ payload ++ after

/-- Of the stream, the buffer holds what has not been consumed. Behind a header, what has been
consumed ends with the payload bytes stored so far. -/
def Consumes (stream : Bytes) (s : State) : Prop :=
  ∃ consumed, stream = consumed ++ s.2.buffer.data ∧
    (s.2.header = true →
      ∃ before, consumed = before ++ measurementHeader ++ s.2.measurements.take s.1) ∧
    ∀ payload ∈ s.2.conversions, payload.length = 722 ∧ Follows payload consumed

section Passes
variable {stream payload consumed more : Bytes} {s t : State}

theorem Follows.append (follows : Follows payload consumed) (more : Bytes) :
    Follows payload (consumed ++ more) := by
  obtain ⟨before, after, rfl⟩ := follows
  exact ⟨before, after ++ more, List.append_assoc _ _ _⟩

/-- The bytes taken from the buffer are consumed. -/
theorem consumes_step (sound : Sound s) (before : Consumes stream s)
    (drained : Drained s s.2.buffer.data t) : Consumes stream t := by
  obtain ⟨consumed, rfl, stored, payloads⟩ := before
  have moved : ∀ n, t.2.buffer.data = s.2.buffer.data.drop n →
      consumed ++ s.2.buffer.data = consumed ++ s.2.buffer.data.take n ++ t.2.buffer.data := by
    intro n left
    rw [left, List.append_assoc, List.take_append_drop]
  have kept : ∀ n, t.2.conversions = s.2.conversions → ∀ payload ∈ t.2.conversions,
      payload.length = 722 ∧ Follows payload (consumed ++ s.2.buffer.data.take n) := by
    intro n log payload there
    rw [log] at there
    exact ⟨(payloads payload there).1, (payloads payload there).2.append _⟩
  have idle : ∀ consumed, t.2.header = false → t.2.header = true →
      ∃ before, consumed = before ++ measurementHeader ++ t.2.measurements.take t.1 := by
    intro consumed again header
    rw [again] at header
    cases header
  cases drained with
  | stored header lacks again counter left taken log =>
    refine ⟨_, moved _ left, fun _ => ?_, kept _ log⟩
    obtain ⟨before, rfl⟩ := stored header
    have new : s.2.buffer.data.take (722 - s.1) =
        s.2.buffer.data.take (min (722 - s.1) s.2.buffer.data.length) := List.take_eq_take_min
    exact ⟨before, by rw [taken, new, List.append_assoc]⟩
  | converted header full again counter left log =>
    refine ⟨_, moved 1 left, idle _ again, ?_⟩
    obtain ⟨before, rfl⟩ := stored header
    intro payload there
    rw [log, List.mem_append, List.mem_singleton] at there
    rcases there with old | rfl
    · exact ⟨(payloads payload old).1, (payloads payload old).2.append _⟩
    · have length : (s.2.measurements.take 722).length = 722 := by
        rw [List.length_take, sound.room]
        rfl
      exact ⟨length, before, s.2.buffer.data.take 1, by rw [full]⟩
  | headed header enough found again counter left log =>
    refine ⟨_, moved 7 left, fun _ => ⟨consumed, ?_⟩, kept 7 log⟩
    rw [counter, List.take_zero, List.append_nil, agrees_header_iff.mp found]
  | confirmed header enough found again left log =>
    exact ⟨_, moved 10 left, idle _ again, kept 10 log⟩
  | dropped header missing again left log =>
    exact ⟨_, moved 1 left, idle _ again, kept 1 log⟩

/-- The storing loop leaves what is behind the payload as it is. -/
theorem storeBytes_tail (bs : Bytes) (byteCounter : Nat) (measurements : Bytes) :
    (storeBytes byteCounter measurements bs).2.2.drop 722 = measurements.drop 722 := by
  induction bs generalizing byteCounter measurements with
  | nil => rfl
  | cons b bs ih =>
    rw [storeBytes]
    split
    · rename_i lacks
      change (storeBytes (byteCounter + 1) (measurements.set byteCounter b) bs).2.2.drop 722 = _
      rw [ih, List.drop_set_of_lt lacks]
    · rfl

theorem tryDecode_tail (s : State) :
    (tryDecode s).2.2.measurements.drop 722 = s.2.measurements.drop 722 := by
  obtain ⟨byteCounter, d⟩ := s
  rw [tryDecode]
  split
  · exact storeBytes_tail _ _ _
  · split
    · rfl
    · split
      · rfl
      · split
        · split <;> rfl
        · rfl

theorem drainPass_of_pos (more : 0 < s.2.buffer.data.length) :
    drainPass s = some (.next
      (if (tryDecode s).1 then (tryDecode s).2 else removeFirst (tryDecode s).2)) := if_pos more

theorem drainPass_next (step : drainPass s = some (.next t)) :
    0 < s.2.buffer.data.length ∧
      t = if (tryDecode s).1 then (tryDecode s).2 else removeFirst (tryDecode s).2 := by
  by_cases more : 0 < s.2.buffer.data.length
  · rw [drainPass_of_pos more] at step
    cases step
    exact ⟨more, rfl⟩
  · rw [drainPass, if_neg more] at step
    cases step

theorem drainPass_done (step : drainPass s = some (.done t)) :
    ¬ 0 < s.2.buffer.data.length ∧ t = s := by
  by_cases more : 0 < s.2.buffer.data.length
  · rw [drainPass_of_pos more] at step
    cases step
  · rw [drainPass, if_neg more] at step
    cases step
    exact ⟨more, rfl⟩

theorem drainPass_tail (step : drainPass s = some (.next t)) :
    t.2.measurements.drop 722 = s.2.measurements.drop 722 := by
  obtain ⟨-, rfl⟩ := drainPass_next step
  split <;> exact tryDecode_tail s

/-- In all states of the drain loop the counter and the array are within bounds. -/
theorem visits_bounds (sound : Sound s) (visited : Visits drainPass s t) :
    Sound t ∧ t.2.measurements.drop 722 = s.2.measurements.drop 722 := by
  apply visited.invariant (fun t => Sound t ∧
    t.2.measurements.drop 722 = s.2.measurements.drop 722) ⟨sound, rfl⟩
  rintro a b - ⟨fine, tail⟩ step
  by_cases empty : a.2.buffer.data = []
  · rw [drainPass_empty empty] at step
    cases step
  · obtain ⟨b', step', fine', -⟩ := drainPass_cases fine empty
    rw [step'] at step
    cases step
    exact ⟨fine', (drainPass_tail step').trans tail⟩

end Passes

section Calls
variable {stream chunk : Bytes} {chunks : List Bytes} {s t : State}

theorem nextString_tail (ready : Ready s) (call : nextString s chunk = some t) :
    t.2.measurements.drop 722 = s.2.measurements.drop 722 := by
  have kept : ∀ u : State, (settle u).2.measurements = u.2.measurements := fun _ => rfl
  rw [nextString] at call
  split at call
  · obtain ⟨last, returned, rfl⟩ := Option.map_eq_some_iff.mp call
    obtain ⟨u, visited, leaves⟩ := iterate_some returned
    obtain ⟨-, rfl⟩ := drainPass_done leaves
    rw [kept, (visits_bounds (receive_sound ready) visited).2]
    rfl
  · cases call
    rfl

theorem nextString_consumes (ready : Ready s) (chunk : Bytes) (before : Consumes stream s) :
    ∃ t, nextString s chunk = some t ∧ Ready t ∧ Consumes (stream ++ chunk) t := by
  have received : Consumes (stream ++ chunk) (receive s chunk) := by
    obtain ⟨consumed, rfl, stored, payloads⟩ := before
    exact ⟨consumed, by rw [receive_data ready, List.append_assoc], stored, payloads⟩
  have settled : ∀ t : State, t.2.buffer.good = true → Consumes (stream ++ chunk) t →
      Consumes (stream ++ chunk) (settle t) := by
    rintro t good ⟨consumed, eq, stored, payloads⟩
    exact ⟨consumed, by rw [eq, settle_data good], stored, payloads⟩
  by_cases ten : 10 ≤ (s.2.buffer.data ++ chunk).length
  · obtain ⟨t, call, again, sound, -, after⟩ := nextString_drains (Consumes (stream ++ chunk)) ready
      ten received fun a b sound _ holds drained => consumes_step sound holds drained
    exact ⟨settle t, call, again, settled t sound.good after⟩
  · obtain ⟨call, again⟩ := nextString_waits ready (Nat.lt_of_not_le ten)
    exact ⟨_, call, again, settled _ (receive_sound ready).good received⟩

theorem feed_consumes (ready : Ready s) (chunks : List Bytes) (before : Consumes stream s) :
    ∃ t, feed s chunks = some t ∧ Ready t ∧ Consumes (stream ++ chunks.flatten) t ∧
      t.2.measurements.drop 722 = s.2.measurements.drop 722 := by
  induction chunks generalizing s stream with
  | nil => exact ⟨s, rfl, ready, by rwa [List.flatten_nil, List.append_nil], rfl⟩
  | cons chunk chunks ih =>
    obtain ⟨t, call, again, after⟩ := nextString_consumes ready chunk before
    obtain ⟨u, rest, last, ends, tail⟩ := ih again after
    refine ⟨u, by rw [feed, call, Option.bind_some, rest], last, ?_,
      tail.trans (nextString_tail ready call)⟩
    rwa [List.flatten_cons, ← List.append_assoc]

end Calls

/-- After every sequence of chunks fewer than ten bytes wait, to be appended to; the counter
and the array stay within the payload, in each state of the next call as well; and every
payload converted so far stands in the stream behind a header. -/
theorem payloads_follow_headers {measurements : Bytes} (room : measurements.length = 1000)
    (chunks : List Bytes) :
    ∃ s, feed (fresh measurements) chunks = some s ∧
      s.2.buffer.data.length < 10 ∧ s.2.buffer.pptr = s.2.buffer.data.length ∧
      (∀ chunk, (receive s chunk).2.buffer.data = s.2.buffer.data ++ chunk ∧
        (∃ t, nextString s chunk = some t) ∧
        ∀ t, Visits drainPass (receive s chunk) t →
          t.1 ≤ 722 ∧ t.2.measurements.drop 722 = measurements.drop 722) ∧
      ∀ payload ∈ s.2.conversions, payload.length = 722 ∧ Follows payload chunks.flatten := by
  have start : Consumes [] (fresh measurements) := ⟨[], rfl, nofun, nofun⟩
  obtain ⟨s, fed, ready, ⟨consumed, stream, -, payloads⟩, tail⟩ :=
    feed_consumes (fresh_ready room) chunks start
  refine ⟨s, fed, ready.short, ready.appends, fun chunk => ⟨receive_data ready, ?_, ?_⟩, ?_⟩
  · obtain ⟨t, call, -⟩ := nextString_returns ready chunk
    exact ⟨t, call⟩
  · intro t visited
    obtain ⟨sound, kept⟩ := visits_bounds (receive_sound ready) visited
    exact ⟨sound.counter, kept.trans tail⟩
  · intro payload there
    rw [List.nil_append] at stream
    rw [stream]
    exact ⟨(payloads payload there).1, (payloads payload there).2.append _⟩

theorem payloads_follow_headers_cut :
    ∃ s, feed (fresh (zeros 1000)) [measurementHeader ++ [1, 2, 3], zeros 700, zeros 30] = some s ∧
      s.2.buffer.data.length < 10 ∧ s.2.buffer.pptr = s.2.buffer.data.length ∧
      (∀ chunk, (receive s chunk).2.buffer.data = s.2.buffer.data ++ chunk ∧
        (∃ t, nextString s chunk = some t) ∧
        ∀ t, Visits drainPass (receive s chunk) t →
          t.1 ≤ 722 ∧ t.2.measurements.drop 722 = (zeros 1000).drop 722) ∧
      ∀ payload ∈ s.2.conversions, payload.length = 722 ∧
        Follows payload [measurementHeader ++ [1, 2, 3], zeros 700, zeros 30].flatten :=
  payloads_follow_headers (length_zeros 1000) _

end OpendlvCore.Sick
