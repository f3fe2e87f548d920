import OpendlvCore.Loops
import OpendlvCore.StringStream

/-!
# `SickStringDecoder`

The decoder keeps unprocessed bytes in `m_buffer`, drains it as soon as it holds ten
bytes, and stores the payload of a measurement telegram in `m_measurements`. The
payload counter is a function-level `static`, so it stands beside the decoder.
-/
namespace OpendlvCore.Sick
open CBytes CStream CLoop

structure SickStringDecoder where
  header : Bool := false
  startConfirmed : Bool := false
  buffer : StringStream := {}
  /-- 1000 bytes that the constructor leaves as they are. -/
  measurements : Bytes
  /-- The first 722 measurement bytes at each call of `convertToDistances`, oldest first. -/
  conversions : List Bytes := []
  deriving DecidableEq, Repr

/-- `byteCounter`, shared by all decoders of a process, and one decoder. -/
abbrev State := Nat × SickStringDecoder

def startResponse : Bytes := [0x06, 0x02, 0x80, 0x03, 0x00, 0xA0, 0x00, 0x10, 0x16, 0x0A]
def measurementHeader : Bytes := [0x02, 0x80, 0xD6, 0x02, 0xB0, 0x69, 0x01]

abbrev HEADER_LENGTH : Nat := 7
abbrev START_LENGTH : Nat := 10
abbrev MAX_NUMBER_OF_BYTES_PER_PAYLOAD : Nat := 722

/-- The byte-wise comparison with a pattern, without the indices `ignored`. -/
def agrees (pattern : Bytes) (ignored : List Nat) (s : Bytes) : Bool :=
  (List.range pattern.length).all fun i => ignored.contains i || s[i]? == pattern[i]?

/-- The storing loop: the new counter, `processedBytes` and the measurements. -/
def storeBytes (byteCounter : Nat) (measurements : Bytes) : Bytes → Nat × Nat × Bytes
  | [] => (byteCounter, 0, measurements)
  | b :: s =>
    if byteCounter < MAX_NUMBER_OF_BYTES_PER_PAYLOAD then
      let (counter, processedBytes, stored) :=
        storeBytes (byteCounter + 1) (measurements.set byteCounter b) s
      (counter, processedBytes + 1, stored)
    else (byteCounter, 0, measurements)

/-- The body of `convertToDistances` is commented out; what it would read is recorded. -/
def convertToDistances (d : SickStringDecoder) : SickStringDecoder :=
  { d with
    conversions := d.conversions ++ [d.measurements.take MAX_NUMBER_OF_BYTES_PER_PAYLOAD] }

def tryDecode : State → Bool × State
  | (byteCounter, d) =>
    let s := d.buffer.data
    if d.header ∧ byteCounter < MAX_NUMBER_OF_BYTES_PER_PAYLOAD then
      let (counter, processedBytes, measurements) := storeBytes byteCounter d.measurements s
      (true, counter,
        { d with measurements, buffer := d.buffer.setStr (s.drop processedBytes) })
    else if d.header ∧ byteCounter = MAX_NUMBER_OF_BYTES_PER_PAYLOAD then
      (false, byteCounter, { convertToDistances d with header := false })
    else if !d.header ∧ HEADER_LENGTH ≤ s.length ∧ agrees measurementHeader [] s then
      (true, 0, { d with
        header := true, buffer := (d.buffer.setStr (s.drop HEADER_LENGTH)).seekgEnd })
    else if START_LENGTH ≤ s.length then
      -- Bytes 7 and 8 might be different.
      if agrees startResponse [7, 8] s then
        (true, byteCounter, { d with
          startConfirmed := true, buffer := (d.buffer.setStr (s.drop START_LENGTH)).seekgEnd })
      else (false, byteCounter, { d with startConfirmed := false })
    else (false, byteCounter, d)

/-- `m_buffer.str(m_buffer.str().substr(1))` -/
def removeFirst : State → State
  | (byteCounter, d) => (byteCounter, { d with buffer := d.buffer.setStr (d.buffer.data.drop 1) })

/-- One pass of `while (s.size() > 0)`. -/
def drainPass (s : State) : Option (Flow State) :=
  if 0 < s.2.buffer.data.length then
    let (decoded, t) := tryDecode s
    some (.next (if decoded then t else removeFirst t))
  else some (.done s)

/-- `m_buffer.write(&c, sizeof(char))` for each byte. -/
def writeBytes (buffer : StringStream) (a_string : Bytes) : StringStream :=
  a_string.foldl (fun s c => s.write [c]) buffer

/-- The decoder once the bytes of a chunk are in its buffer. -/
def receive (s : State) (a_string : Bytes) : State :=
  (s.1, { s.2 with buffer := writeBytes s.2.buffer a_string })

/-- `m_buffer.seekg(0, ios_base::end)` -/
def settle (s : State) : State := (s.1, { s.2 with buffer := s.2.buffer.seekgEnd })

def nextString (s : State) (a_string : Bytes) : Option State :=
  let written := receive s a_string
  if 10 ≤ written.2.buffer.data.length then
    (iterate drainPass (written.2.buffer.data.length + 1) written).map settle
  else some (settle written)

def fresh (measurements : Bytes) : State := (0, { measurements })

/-- One decoder receiving chunk after chunk. -/
def feed (s : State) : List Bytes → Option State
  | [] => some s
  | chunk :: chunks => (nextString s chunk).bind fun t => feed t chunks

/-! ## One pass of the drain loop -/

section Passes
variable {s t : State} {d : SickStringDecoder}

/-- The loop stores as many bytes as the payload still lacks, and no others. -/
theorem storeBytes_eq (bs : Bytes) (byteCounter : Nat) (measurements : Bytes)
    (inside : byteCounter ≤ 722) (room : measurements.length = 1000) :
    ∃ stored : Bytes, stored.length = 1000 ∧
      storeBytes byteCounter measurements bs =
        (byteCounter + min (722 - byteCounter) bs.length, min (722 - byteCounter) bs.length, stored) ∧
      stored.take (byteCounter + min (722 - byteCounter) bs.length) =
        measurements.take byteCounter ++ bs.take (722 - byteCounter) := by
  induction bs generalizing byteCounter measurements with
  | nil => exact ⟨measurements, room, by simp [storeBytes], by simp⟩
  | cons b bs ih =>
    by_cases lacks : byteCounter < 722
    · obtain ⟨stored, length, eq, taken⟩ :=
        ih (byteCounter + 1) (measurements.set byteCounter b) (by omega) (by simp [room])
      have count : min (722 - byteCounter) (b :: bs).length =
          min (722 - (byteCounter + 1)) bs.length + 1 := by
        simp only [List.length_cons]
        omega
      refine ⟨stored, length, ?_, ?_⟩
      · rw [storeBytes, if_pos lacks, eq, count]
        simp only [Prod.mk.injEq, and_true]
        omega
      · have next : (measurements.set byteCounter b).take (byteCounter + 1) =
            measurements.take byteCounter ++ [b] := by
          rw [List.take_add_one, List.take_set_of_le (Nat.le_refl _),
            List.getElem?_set_self (by omega)]
          rfl
        have head : (b :: bs).take (722 - byteCounter) = b :: bs.take (722 - (byteCounter + 1)) := by
          obtain ⟨n, eq⟩ : ∃ n, 722 - byteCounter = n + 1 := ⟨721 - byteCounter, by omega⟩
          have less : 722 - (byteCounter + 1) = n := by omega
          rw [eq, less, List.take_succ_cons]
        rw [count, Nat.add_comm _ 1, ← Nat.add_assoc, taken, next, head, List.append_assoc]
        rfl
    · have full : 722 - byteCounter = 0 := by omega
      refine ⟨measurements, room, ?_, ?_⟩
      · rw [storeBytes, if_neg lacks, full]
        simp
      · simp [full]

/-- What the drain loop keeps: the flags of the buffer, the counter's range, the array. -/
structure Sound (s : State) : Prop where
  good : s.2.buffer.good = true
  inside : s.2.buffer.pptr ≤ s.2.buffer.data.length
  counter : s.1 ≤ 722
  room : s.2.measurements.length = 1000

theorem setStr_good {b : StringStream} {bs : Bytes} (good : b.good = true) :
    (b.setStr bs).good = true := good

theorem setStr_seekgEnd {b : StringStream} (bs : Bytes) (good : b.good = true) :
    ((b.setStr bs).seekgEnd).data = bs ∧ ((b.setStr bs).seekgEnd).good = true ∧
      ((b.setStr bs).seekgEnd).pptr = 0 := by
  have inside : (b.setStr bs).data.length ≤ (b.setStr bs).data.length := Nat.le_refl _
  rw [StringStream.seekgEnd, StringStream.seekg_of_le (setStr_good good) inside]
  exact ⟨rfl, good, rfl⟩

/-- What one pass over a non-empty buffer can do. `left` is the buffer after it. -/
inductive Drained (s : State) (bs : Bytes) (t : State) : Prop
  /-- Payload bytes are stored. -/
  | stored (header : s.2.header = true) (lacks : s.1 < 722)
      (again : t.2.header = true) (counter : t.1 = s.1 + min (722 - s.1) bs.length)
      (left : t.2.buffer.data = bs.drop (min (722 - s.1) bs.length))
      (taken : t.2.measurements.take t.1 = s.2.measurements.take s.1 ++ bs.take (722 - s.1))
      (log : t.2.conversions = s.2.conversions)
  /-- A payload is complete; the byte after it is dropped. -/
  | converted (header : s.2.header = true) (full : s.1 = 722)
      (again : t.2.header = false) (counter : t.1 = 722) (left : t.2.buffer.data = bs.drop 1)
      (log : t.2.conversions = s.2.conversions ++ [s.2.measurements.take 722])
  /-- A measurement header is found. -/
  | headed (header : s.2.header = false) (enough : 7 ≤ bs.length)
      (found : agrees measurementHeader [] bs = true)
      (again : t.2.header = true) (counter : t.1 = 0) (left : t.2.buffer.data = bs.drop 7)
      (log : t.2.conversions = s.2.conversions)
  /-- A start response is found. -/
  | confirmed (header : s.2.header = false) (enough : 10 ≤ bs.length)
      (found : agrees startResponse [7, 8] bs = true)
      (again : t.2.header = false) (left : t.2.buffer.data = bs.drop 10)
      (log : t.2.conversions = s.2.conversions)
  /-- Nothing is found; one byte is dropped. -/
  | dropped (header : s.2.header = false)
      (missing : 7 ≤ bs.length → agrees measurementHeader [] bs = false)
      (again : t.2.header = false) (left : t.2.buffer.data = bs.drop 1)
      (log : t.2.conversions = s.2.conversions)

/-- The inversion of one pass: every way `tryDecode` and the removal of a byte can go. -/
theorem drainPass_cases (sound : Sound s) (waiting : s.2.buffer.data ≠ []) :
    ∃ t, drainPass s = some (.next t) ∧ Sound t ∧ Drained s s.2.buffer.data t := by
  obtain ⟨byteCounter, d⟩ := s
  obtain ⟨good, inside, counter, room⟩ := sound
  have some_left : 0 < d.buffer.data.length := List.length_pos_iff.mpr waiting
  simp only at good inside counter room waiting
  have decoded : ∀ u, tryDecode (byteCounter, d) = (true, u) → Sound u →
      Drained (byteCounter, d) d.buffer.data u → ∃ t, drainPass (byteCounter, d) = some (.next t) ∧
        Sound t ∧ Drained (byteCounter, d) d.buffer.data t := by
    intro u eq fine drained
    refine ⟨u, ?_, fine, drained⟩
    rw [drainPass, if_pos some_left, eq]
    rfl
  have refused : ∀ u, tryDecode (byteCounter, d) = (false, u) → Sound (removeFirst u) →
      Drained (byteCounter, d) d.buffer.data (removeFirst u) →
        ∃ t, drainPass (byteCounter, d) = some (.next t) ∧
          Sound t ∧ Drained (byteCounter, d) d.buffer.data t := by
    intro u eq fine drained
    refine ⟨removeFirst u, ?_, fine, drained⟩
    rw [drainPass, if_pos some_left, eq]
    rfl
  by_cases header : d.header = true
  · by_cases lacks : byteCounter < 722
    · obtain ⟨stored, length, eq, taken⟩ :=
        storeBytes_eq d.buffer.data byteCounter d.measurements counter room
      apply decoded
      · rw [tryDecode, if_pos ⟨header, lacks⟩, eq]
      · exact ⟨setStr_good good, Nat.zero_le _, by simp only; omega, length⟩
      · exact .stored header lacks header rfl rfl taken rfl
    · have full : byteCounter = 722 := by omega
      apply refused
      · rw [tryDecode, if_neg (by simp [lacks]), if_pos ⟨header, full⟩]
      · exact ⟨setStr_good good, Nat.zero_le _, counter, room⟩
      · exact .converted header full rfl full rfl rfl
  · have idle : d.header = false := by simpa using header
    have unstored : ¬ (d.header = true ∧ byteCounter < 722) := fun both => header both.1
    have unfinished : ¬ (d.header = true ∧ byteCounter = 722) := fun both => header both.1
    by_cases found : 7 ≤ d.buffer.data.length ∧ agrees measurementHeader [] d.buffer.data = true
    · obtain ⟨data, still, front⟩ := setStr_seekgEnd (d.buffer.data.drop 7) good
      apply decoded
      · rw [tryDecode, if_neg unstored, if_neg unfinished,
          if_pos ⟨by simp [idle], found.1, found.2⟩]
      · exact ⟨still, by simp only [front, Nat.zero_le], Nat.zero_le _, room⟩
      · exact .headed idle found.1 found.2 rfl rfl data rfl
    · have missed : ¬ ((!d.header) = true ∧ HEADER_LENGTH ≤ d.buffer.data.length ∧
          agrees measurementHeader [] d.buffer.data = true) := fun all => found all.2
      have missing : 7 ≤ d.buffer.data.length →
          agrees measurementHeader [] d.buffer.data = false := by
        intro enough
        simpa using fun agree => found ⟨enough, agree⟩
      by_cases ten : 10 ≤ d.buffer.data.length
      · by_cases response : agrees startResponse [7, 8] d.buffer.data = true
        · obtain ⟨data, still, front⟩ := setStr_seekgEnd (d.buffer.data.drop 10) good
          apply decoded
          · rw [tryDecode, if_neg unstored, if_neg unfinished, if_neg missed, if_pos ten,
              if_pos response]
          · exact ⟨still, by simp only [front, Nat.zero_le], counter, room⟩
          · exact .confirmed idle ten response idle data rfl
        · apply refused
          · rw [tryDecode, if_neg unstored, if_neg unfinished, if_neg missed, if_pos ten,
              if_neg response]
          · exact ⟨setStr_good good, Nat.zero_le _, counter, room⟩
          · exact .dropped idle missing idle rfl rfl
      · apply refused
        · rw [tryDecode, if_neg unstored, if_neg unfinished, if_neg missed, if_neg ten]
        · exact ⟨setStr_good good, Nat.zero_le _, counter, room⟩
        · exact .dropped idle missing idle rfl rfl

theorem Drained.shrinks (waiting : s.2.buffer.data ≠ []) (drained : Drained s s.2.buffer.data t) :
    t.2.buffer.data.length < s.2.buffer.data.length := by
  have some_left := List.length_pos_iff.mpr waiting
  cases drained with
  | stored _ lacks _ _ left =>
    rw [left, List.length_drop]
    omega
  | converted _ _ _ _ left => rw [left, List.length_drop]; omega
  | headed _ _ _ _ _ left => rw [left, List.length_drop]; omega
  | confirmed _ _ _ _ left => rw [left, List.length_drop]; omega
  | dropped _ _ _ left => rw [left, List.length_drop]; omega

theorem drainPass_empty (empty : s.2.buffer.data = []) : drainPass s = some (.done s) := by
  rw [drainPass, if_neg (by simp [empty])]

/-- The drain loop returns with an empty buffer; an invariant of its passes holds then. -/
theorem drain_returns (inv : State → Prop) (sound : Sound s) (start : inv s)
    (keeps : ∀ a b, Sound a → a.2.buffer.data ≠ [] → inv a → Drained a a.2.buffer.data b → inv b) :
    ∃ t, iterate drainPass (s.2.buffer.data.length + 1) s = some t ∧ Sound t ∧
      t.2.buffer.data = [] ∧ inv t := by
  have heads : ∀ a, Visits drainPass s a → Sound a ∧ inv a := by
    intro a visited
    apply visited.invariant (fun a => Sound a ∧ inv a) ⟨sound, start⟩
    rintro a b - ⟨fine, holds⟩ step
    by_cases empty : a.2.buffer.data = []
    · rw [drainPass_empty empty] at step
      cases step
    · obtain ⟨b', step', fine', drained⟩ := drainPass_cases fine empty
      rw [step'] at step
      cases step
      exact ⟨fine', keeps a b fine empty holds drained⟩
  obtain ⟨t, returns⟩ : ∃ t, iterate drainPass (s.2.buffer.data.length + 1) s = some t := by
    apply iterate_enough (fun a : State => a.2.buffer.data.length)
    · intro a visited
      by_cases empty : a.2.buffer.data = []
      · simp [drainPass_empty empty]
      · obtain ⟨b, step, -⟩ := drainPass_cases (heads a visited).1 empty
        simp [step]
    · intro a b visited step
      by_cases empty : a.2.buffer.data = []
      · rw [drainPass_empty empty] at step
        cases step
      · obtain ⟨b', step', -, drained⟩ := drainPass_cases (heads a visited).1 empty
        rw [step'] at step
        cases step
        exact drained.shrinks empty
  obtain ⟨last, visited, leaves⟩ := iterate_some returns
  obtain ⟨fine, holds⟩ := heads last visited
  have empty : last.2.buffer.data = [] := by
    by_contra waiting
    obtain ⟨b, step, -⟩ := drainPass_cases fine waiting
    rw [step] at leaves
    cases leaves
  rw [drainPass_empty empty] at leaves
  cases leaves
  exact ⟨_, returns, fine, empty, holds⟩

end Passes

/-! ## One call -/

section Calls
variable {s : State} {chunk : Bytes}

/-- What holds between two calls: fewer than ten bytes wait, and the next one is appended. -/
structure Ready (s : State) : Prop extends Sound s where
  appends : s.2.buffer.pptr = s.2.buffer.data.length
  short : s.2.buffer.data.length < 10

theorem writeBytes_eq (chunk : Bytes) (b : StringStream) (good : b.good = true)
    (appends : b.pptr = b.data.length) :
    (writeBytes b chunk).data = b.data ++ chunk ∧ (writeBytes b chunk).good = true ∧
      (writeBytes b chunk).pptr = (writeBytes b chunk).data.length := by
  induction chunk generalizing b with
  | nil => exact ⟨(List.append_nil _).symm, good, appends⟩
  | cons c chunk ih =>
    have one : b.write [c] = _ := StringStream.write_of_end good appends
    obtain ⟨data, still, atEnd⟩ := ih (b.write [c]) (by rw [one]; exact good) (by rw [one]; simp)
    refine ⟨?_, still, atEnd⟩
    change (writeBytes (b.write [c]) chunk).data = _
    rw [data, one, List.append_assoc]
    rfl

theorem receive_data (ready : Ready s) :
    (receive s chunk).2.buffer.data = s.2.buffer.data ++ chunk :=
  (writeBytes_eq chunk s.2.buffer ready.good ready.appends).1

theorem receive_sound (ready : Ready s) : Sound (receive s chunk) := by
  obtain ⟨-, good, atEnd⟩ := writeBytes_eq chunk s.2.buffer ready.good ready.appends
  exact ⟨good, Nat.le_of_eq atEnd, ready.counter, ready.room⟩

theorem settle_eq (good : s.2.buffer.good = true) :
    settle s = (s.1, { s.2 with buffer := s.2.buffer.getAt s.2.buffer.data.length }) := by
  rw [settle, StringStream.seekgEnd, StringStream.seekg_of_le good (Nat.le_refl _)]

theorem settle_data (good : s.2.buffer.good = true) :
    (settle s).2.buffer.data = s.2.buffer.data := by
  rw [settle_eq good]
  rfl

theorem settle_ready (sound : Sound s) (appends : s.2.buffer.pptr = s.2.buffer.data.length)
    (short : s.2.buffer.data.length < 10) : Ready (settle s) := by
  rw [settle_eq sound.good]
  exact ⟨⟨sound.good, sound.inside, sound.counter, sound.room⟩, appends, short⟩

/-- Fewer than ten bytes only wait. -/
theorem nextString_waits (ready : Ready s) (few : (s.2.buffer.data ++ chunk).length < 10) :
    nextString s chunk = some (settle (receive s chunk)) ∧ Ready (settle (receive s chunk)) := by
  obtain ⟨data, -, atEnd⟩ := writeBytes_eq chunk s.2.buffer ready.good ready.appends
  have short : (receive s chunk).2.buffer.data.length < 10 := by rwa [receive_data ready]
  constructor
  · rw [nextString, if_neg (by omega)]
  · exact settle_ready (receive_sound ready) atEnd short

/-- Ten bytes and more are all consumed, pass by pass. -/
theorem nextString_drains (inv : State → Prop) (ready : Ready s)
    (ten : 10 ≤ (s.2.buffer.data ++ chunk).length) (start : inv (receive s chunk))
    (keeps : ∀ a b, Sound a → a.2.buffer.data ≠ [] → inv a → Drained a a.2.buffer.data b → inv b) :
    ∃ t, nextString s chunk = some (settle t) ∧ Ready (settle t) ∧ Sound t ∧
      t.2.buffer.data = [] ∧ inv t := by
  obtain ⟨t, returns, sound, empty, holds⟩ :=
    drain_returns inv (receive_sound ready) start keeps
  have front : t.2.buffer.pptr = t.2.buffer.data.length := by
    have inside := sound.inside
    rw [empty] at inside ⊢
    exact Nat.le_zero.mp inside
  refine ⟨t, ?_, settle_ready sound front (by simp [empty]), sound, empty, holds⟩
  rw [nextString, if_pos (by rwa [receive_data ready]), returns]
  rfl

theorem fresh_ready {measurements : Bytes} (room : measurements.length = 1000) :
    Ready (fresh measurements) :=
  ⟨⟨rfl, Nat.le_refl _, Nat.zero_le _, room⟩, rfl, (by decide : 0 < 10)⟩

/-- Every call returns. -/
theorem nextString_returns (ready : Ready s) (chunk : Bytes) :
    ∃ t, nextString s chunk = some t ∧ Ready t := by
  by_cases ten : 10 ≤ (s.2.buffer.data ++ chunk).length
  · obtain ⟨t, eq, again, -⟩ :=
      nextString_drains (fun _ => True) ready ten trivial (fun _ _ _ _ _ _ => trivial)
    exact ⟨settle t, eq, again⟩
  · exact ⟨_, nextString_waits ready (by omega)⟩

end Calls

end OpendlvCore.Sick
