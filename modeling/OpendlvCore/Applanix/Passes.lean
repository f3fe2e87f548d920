import OpendlvCore.Applanix.Payload
import OpendlvCore.Applanix.Decoder

/-!
# What one pass of the decoder's main loop can do

On a failed stream nothing more is decoded. On a good one the state at the head of
the loop satisfies `Ready`, and a pass searches one header position, decodes the
pending group, or both.
-/
namespace OpendlvCore.Applanix
open CStream CBytes CLoop

/-- The group that six octets announce, if they are `"$GRP"` and a supported number. -/
def startsGroup (bs : Bytes) : Option Group :=
  if bs.take 4 = GRPSTART then Group.ofNumber (ofLE ((bs.drop 4).take 2)) else none

/-- The complete header at an offset: the group and its byte count. -/
def headerAt (data : Bytes) (offset : Nat) : Option (Group × Nat) :=
  if offset + GRP_HEADER_SIZE ≤ data.length then
    (startsGroup (data.drop offset)).map fun g => (g, ofLE ((data.drop (offset + 6)).take 2))
  else none

/-- A header test at this offset stays inside the buffer. -/
def HeaderFits (data : Bytes) (offset : Nat) : Prop :=
  offset + 6 ≤ data.length ∧
    (startsGroup (data.drop offset) ≠ none → offset + GRP_HEADER_SIZE ≤ data.length)

/-- The state at the head of the loop while the stream is good. -/
structure Ready (d : Decoder) : Prop where
  good : d.buffer.good = true
  put : d.buffer.pptr = d.buffer.data.length
  get : d.buffer.gptr ≤ d.buffer.data.length
  remove : d.toRemove ≤ d.buffer.data.length
  flags : d.foundHeader = d.buffering
  pending : d.buffering = true →
    d.buffer.gptr = d.toRemove ∧ d.payloadSize < 2 ^ 16 ∧ ∃ g, d.nextApplanixMessage = some g

/-- After the header test found a header at `toRemove`. -/
def headerFound (d : Decoder) (g : Group) (byteCount : Nat) : Decoder :=
  { d with
    buffer := d.buffer.getAt (d.toRemove + GRP_HEADER_SIZE)
    foundHeader := true
    buffering := true
    payloadSize := byteCount
    toRemove := add32 d.toRemove GRP_HEADER_SIZE
    nextApplanixMessage := some g }

/-- After the header test found none at `toRemove`. -/
def headerMissed (d : Decoder) : Decoder :=
  { d with
    buffer := d.buffer.getAt (d.toRemove + 6)
    toRemove := add32 d.toRemove 1 }

/-- After the pending group was read from `consumed` bytes and `containers` were sent. -/
def decoded (d : Decoder) (containers : List Container) (consumed : Nat) : Decoder :=
  { d with
    conference := d.conference ++ containers
    buffer := d.buffer.getAt (d.toRemove + consumed)
    foundHeader := false
    buffering := false
    payloadSize := 0
    toRemove := add32 d.toRemove (d.payloadSize + GRP_FOOTER_SIZE)
    nextApplanixMessage := none }

section Failed
variable {mem : Nat → UInt8} {d : Decoder}

theorem loopCondition_of_not_good (failed : d.buffer.good = false) : loopCondition d = false := by
  rw [loopCondition, StringStream.tellp_of_not_good failed]
  simp only [decide_eq_false_iff_not]
  omega

theorem pass_of_not_good (failed : d.buffer.good = false) : pass mem d = some (.done d) := by
  rw [pass, loopCondition_of_not_good failed]
  rfl

/-- Only a good stream lets the loop go on. -/
theorem good_of_pass {e : Decoder} (step : pass mem d = some (.next e)) : d.buffer.good = true := by
  cases fine : d.buffer.good with
  | true => rfl
  | false =>
    rw [pass_of_not_good fine] at step
    cases step

variable (mem) in
theorem readGrpHdr_of_not_good {s : StringStream} (failed : s.good = false) :
    ∃ hdr s', readGrpHdr mem s = some (hdr, s') ∧ s'.good = false := by
  obtain ⟨grpstart, s₁, first, failed₁⟩ := readInto_short (storage mem 4) (s := s)
    (by simp [failed])
  obtain ⟨octets, s₂, second, failed₂⟩ := readInto_short (zeros 2) (s := s₁)
    (by simp [failed₁])
  refine ⟨(grpstart, ofLE octets), s₂, ?_, failed₂⟩
  rw [readGrpHdr, bind_of_run first, readLE, bind_of_run (bind_of_run second)]
  rfl

/-- Setting up the payload never clears a failed stream. -/
theorem prepareReadingBuffer_of_not_good (failed : d.buffer.good = false) :
    prepareReadingBuffer d = some d := by
  rw [prepareReadingBuffer, if_neg (by simp [failed])]
  rfl

/-- Whatever a header read that failed returns, the stream stays failed. -/
theorem decodeHeader_of_not_good {hdr : Bytes × Nat} {s : StringStream}
    (read : readGrpHdr mem (d.buffer.seekg d.toRemove) = some (hdr, s)) (failed : s.good = false) :
    ∃ e, decodeHeader mem d = some e ∧ e.buffer.good = false ∧ e.conference = d.conference := by
  simp only [decodeHeader, read, bind, Option.bind]
  split
  · rw [prepareReadingBuffer_of_not_good failed]
    exact ⟨_, rfl, failed, rfl⟩
  · exact ⟨_, rfl, failed, rfl⟩

variable (mem) in
/-- A failed stream stays failed through the header test, and nothing is sent. -/
theorem headerStage_of_not_good (failed : d.buffer.good = false) :
    ∃ e, headerStage mem d = some e ∧ e.buffer.good = false ∧ e.conference = d.conference := by
  unfold headerStage
  split
  · obtain ⟨hdr, s, read, failed'⟩ :=
      readGrpHdr_of_not_good mem (StringStream.seekg_of_not_good d.toRemove failed)
    exact decodeHeader_of_not_good read failed'
  · exact ⟨d, rfl, failed, rfl⟩

end Failed

section Header
variable {mem : Nat → UInt8} {d : Decoder}

variable (mem) in
theorem readGrpHdr_enough {s : StringStream} (good : s.good = true) (enough : 6 ≤ s.unread.length) :
    readGrpHdr mem s =
      some ((s.unread.take 4, ofLE ((s.unread.drop 4).take 2)), s.advance 6) := by
  have first := readInto_enough (storage mem 4) good (by rw [length_storage]; omega)
  have second := readInto_enough (zeros 2) (s := s.advance 4) good (by
    rw [StringStream.unread_advance_drop, List.length_drop, length_zeros]
    omega)
  rw [length_storage] at first
  rw [length_zeros, StringStream.unread_advance_drop, StringStream.advance_advance] at second
  rw [readGrpHdr, bind_of_run first, readLE, bind_of_run (bind_of_run second)]
  rfl

variable (mem) in
theorem readGrpHdr_short {s : StringStream} (short : s.unread.length < 6) :
    ∃ hdr s', readGrpHdr mem s = some (hdr, s') ∧ s'.good = false := by
  by_cases start : s.good = true ∧ (storage mem 4).length ≤ s.unread.length
  · have first := readInto_enough _ start.1 start.2
    obtain ⟨octets, s', second, failed⟩ := readInto_short (zeros 2)
      (s := s.advance (storage mem 4).length) (by
        rw [StringStream.unread_advance_drop, List.length_drop, length_storage, length_zeros]
        omega)
    exact ⟨_, s', by rw [readGrpHdr, bind_of_run first, readLE, bind_of_run (bind_of_run second)]; rfl,
      failed⟩
  · obtain ⟨grpstart, s₁, first, failed₁⟩ := readInto_short _ start
    obtain ⟨octets, s₂, second, failed₂⟩ := readInto_short (zeros 2) (s := s₁)
      (by simp [failed₁])
    exact ⟨_, s₂, by rw [readGrpHdr, bind_of_run first, readLE, bind_of_run (bind_of_run second)]; rfl,
      failed₂⟩

/-- A state in which the header test reads at `toRemove`. -/
structure Searching (d : Decoder) : Prop where
  good : d.buffer.good = true
  remove : d.toRemove ≤ d.buffer.data.length
  idle : d.foundHeader = false

theorem headerStage_skips (low : fillLevel d < GRP_HEADER_SIZE) :
    headerStage mem d = some d := by
  rw [headerStage, if_neg (by simp only [Bool.and_eq_true, decide_eq_true_eq]; omega)]
  rfl

theorem Searching.seek (h : Searching d) :
    d.buffer.seekg d.toRemove = d.buffer.getAt d.toRemove :=
  StringStream.seekg_of_le h.good h.remove

theorem Searching.unread (h : Searching d) :
    (d.buffer.seekg d.toRemove).unread = d.buffer.data.drop d.toRemove := by
  rw [h.seek]
  rfl

/-- All six octets are there, but they announce no group. -/
theorem decodeHeader_misses (h : Searching d) (six : d.toRemove + 6 ≤ d.buffer.data.length)
    (other : startsGroup (d.buffer.data.drop d.toRemove) = none) :
    decodeHeader mem d = some (headerMissed d) := by
  have enough : 6 ≤ (d.buffer.seekg d.toRemove).unread.length := by
    rw [h.unread, List.length_drop]
    omega
  have read := readGrpHdr_enough mem (by rw [h.seek]; exact h.good) enough
  rw [h.unread, h.seek] at read
  unfold startsGroup at other
  rw [decodeHeader, h.seek]
  simp only [read, bind, Option.bind, other]
  rfl

theorem prepareReadingBuffer_enough (good : d.buffer.good = true)
    (enough : 2 ≤ d.buffer.unread.length) :
    prepareReadingBuffer d = some { d with
      buffer := d.buffer.advance 2
      payloadSize := ofLE (d.buffer.unread.take 2)
      foundHeader := true
      buffering := true
      toRemove := add32 d.toRemove GRP_HEADER_SIZE } := by
  have count := readInto_enough (zeros 2) good (by rwa [length_zeros])
  rw [length_zeros] at count
  rw [prepareReadingBuffer, if_pos good, readLE, bind_of_run count]
  rfl

theorem prepareReadingBuffer_short (short : d.buffer.unread.length < 2) :
    ∃ e, prepareReadingBuffer d = some e ∧ e.buffer.good = false ∧ e.conference = d.conference := by
  by_cases good : d.buffer.good = true
  · obtain ⟨octets, s, count, failed⟩ := readInto_short (zeros 2) (s := d.buffer)
      (by rw [length_zeros]; omega)
    refine ⟨{ d with
      buffer := s
      payloadSize := ofLE octets
      foundHeader := true
      buffering := true
      toRemove := add32 d.toRemove GRP_HEADER_SIZE }, ?_, failed, rfl⟩
    rw [prepareReadingBuffer, if_pos good, readLE, bind_of_run count]
    rfl
  · have failed : d.buffer.good = false := by simpa using good
    exact ⟨d, prepareReadingBuffer_of_not_good failed, failed, rfl⟩

/-- The octets announce a group; its byte count is read from the two behind them. -/
theorem decodeHeader_finds {g : Group} (h : Searching d)
    (eight : d.toRemove + GRP_HEADER_SIZE ≤ d.buffer.data.length)
    (group : startsGroup (d.buffer.data.drop d.toRemove) = some g) :
    decodeHeader mem d = some (headerFound d g
      (ofLE ((d.buffer.data.drop (d.toRemove + 6)).take 2))) := by
  simp only [GRP_HEADER_SIZE] at eight
  have read := readGrpHdr_enough mem (s := d.buffer.seekg d.toRemove)
    (by rw [h.seek]; exact h.good) (by rw [h.unread, List.length_drop]; omega)
  have rest : ((d.buffer.seekg d.toRemove).advance 6).unread =
      d.buffer.data.drop (d.toRemove + 6) := by
    rw [StringStream.unread_advance_drop, h.unread, List.drop_drop]
  have prepared := prepareReadingBuffer_enough
    (d := { d with buffer := (d.buffer.seekg d.toRemove).advance 6 })
    (by simp only [StringStream.advance_good, h.seek]; exact h.good)
    (by simp only [rest, List.length_drop]; omega)
  rw [h.unread] at read
  unfold startsGroup at group
  rw [decodeHeader, read]
  simp only [bind, Option.bind, group, prepared, rest]
  rw [h.seek]
  rfl

/-- The octets announce a group, but the buffer ends inside its byte count. -/
theorem decodeHeader_short {g : Group} (h : Searching d)
    (six : d.toRemove + 6 ≤ d.buffer.data.length)
    (short : d.buffer.data.length < d.toRemove + GRP_HEADER_SIZE)
    (group : startsGroup (d.buffer.data.drop d.toRemove) = some g) :
    ∃ e, decodeHeader mem d = some e ∧ e.buffer.good = false ∧ e.conference = d.conference := by
  simp only [GRP_HEADER_SIZE] at short
  have read := readGrpHdr_enough mem (s := d.buffer.seekg d.toRemove)
    (by rw [h.seek]; exact h.good) (by rw [h.unread, List.length_drop]; omega)
  obtain ⟨e, prepared, failed, same⟩ := prepareReadingBuffer_short
    (d := { d with buffer := (d.buffer.seekg d.toRemove).advance 6 }) (by
      simp only [StringStream.unread_advance_drop, h.unread, List.length_drop]
      omega)
  rw [h.unread] at read
  unfold startsGroup at group
  refine ⟨{ e with nextApplanixMessage := some g }, ?_, failed, same⟩
  rw [decodeHeader, read]
  simp only [bind, Option.bind, group, prepared]
  rfl

variable (mem) in
/-- The header test on a good stream: found, missed, or past the end of the buffer. -/
theorem headerStage_tests (h : Searching d) (enough : GRP_HEADER_SIZE ≤ fillLevel d) :
    (∃ g n, headerAt d.buffer.data d.toRemove = some (g, n) ∧
      headerStage mem d = some (headerFound d g n)) ∨
    (d.toRemove + 6 ≤ d.buffer.data.length ∧ startsGroup (d.buffer.data.drop d.toRemove) = none ∧
      headerStage mem d = some (headerMissed d)) ∨
    (¬ HeaderFits d.buffer.data d.toRemove ∧
      ∃ e, headerStage mem d = some e ∧ e.buffer.good = false ∧ e.conference = d.conference) := by
  have test : (!d.foundHeader && decide (GRP_HEADER_SIZE ≤ fillLevel d)) = true := by
    simp [h.idle, enough]
  rw [headerStage, if_pos test]
  by_cases six : d.toRemove + 6 ≤ d.buffer.data.length
  · cases group : startsGroup (d.buffer.data.drop d.toRemove) with
    | none => exact .inr (.inl ⟨six, rfl, decodeHeader_misses h six group⟩)
    | some g =>
      by_cases eight : d.toRemove + GRP_HEADER_SIZE ≤ d.buffer.data.length
      · exact .inl ⟨g, _, by rw [headerAt, if_pos eight, group]; rfl, decodeHeader_finds h eight group⟩
      · have short : ¬ HeaderFits d.buffer.data d.toRemove :=
          fun fits => eight (fits.2 (by simp [group]))
        exact .inr (.inr ⟨short, decodeHeader_short h six (by omega) group⟩)
  · have short : (d.buffer.seekg d.toRemove).unread.length < 6 := by
      rw [h.unread, List.length_drop]
      omega
    obtain ⟨hdr, s', read, failed⟩ := readGrpHdr_short mem short
    exact .inr (.inr ⟨fun fits => six fits.1, decodeHeader_of_not_good read failed⟩)

end Header

/-! ## The decoding half of a pass -/

section Decode
variable {mem : Nat → UInt8} {d : Decoder} {g : Group}

theorem decodeStage_idle (idle : d.buffering = false) : decodeStage mem d = some d := by
  simp [decodeStage, idle]

theorem decodeStage_decodes (buffering : d.buffering = true) (enough : d.payloadSize ≤ fillLevel d) :
    decodeStage mem d = (sendGroup mem { d with buffer := d.buffer.seekg d.toRemove }).map fun e =>
      { e with
        buffering := false
        foundHeader := false
        toRemove := add32 e.toRemove (e.payloadSize + GRP_FOOTER_SIZE)
        payloadSize := 0
        nextApplanixMessage := none } := by
  rw [decodeStage, if_pos (by simp [buffering, enough])]
  cases sendGroup mem { d with buffer := d.buffer.seekg d.toRemove } <;> rfl

theorem sendGroup_of_run {containers : List Container} {s : StringStream}
    (next : d.nextApplanixMessage = some g)
    (run : readGroup mem g d.payloadSize d.buffer = some (containers, s)) :
    sendGroup mem d = some { d with conference := d.conference ++ containers, buffer := s } := by
  simp only [sendGroup, next, run]
  rfl

theorem sendGroup_none (next : d.nextApplanixMessage = some g)
    (hangs : readGroup mem g d.payloadSize d.buffer = none) : sendGroup mem d = none := by
  simp only [sendGroup, next, hangs]
  rfl

/-- The bytes behind the pending header. -/
def pendingBytes (d : Decoder) : Bytes := d.buffer.data.drop d.toRemove

/-- How many of them the reader of the group reads. -/
def consumed (d : Decoder) (g : Group) : Nat := readLength g d.payloadSize (pendingBytes d)

variable (mem) in
/-- Decoding on a good stream: a loop hangs, the payload is complete, or the reader
runs past the end of the buffer. -/
theorem decodeStage_ready (ready : Ready d) (buffering : d.buffering = true)
    (next : d.nextApplanixMessage = some g) (enough : d.payloadSize ≤ fillLevel d) :
    (¬ LoopsEnd g d.payloadSize (pendingBytes d) ∧ decodeStage mem d = none) ∨
    (LoopsEnd g d.payloadSize (pendingBytes d) ∧
      ((d.toRemove + consumed d g ≤ d.buffer.data.length ∧ ∃ containers,
          Consumes (readGroup mem g d.payloadSize) ((pendingBytes d).take (consumed d g)) containers ∧
          decodeStage mem d = some (decoded d containers (consumed d g))) ∨
        (d.buffer.data.length < d.toRemove + consumed d g ∧ ∃ e containers,
          decodeStage mem d = some e ∧ e.buffer.good = false ∧
          e.conference = d.conference ++ containers))) := by
  have remove := ready.remove
  have seek : d.buffer.seekg d.toRemove = d.buffer.getAt d.toRemove :=
    StringStream.seekg_of_le ready.good ready.remove
  have start : (d.buffer.getAt d.toRemove).good = true := ready.good
  have here : (d.buffer.getAt d.toRemove).available = pendingBytes d := by
    rw [StringStream.available, if_pos start]
    rfl
  have size : (pendingBytes d).length = d.buffer.data.length - d.toRemove := List.length_drop
  obtain ⟨_, range, _⟩ := ready.pending buffering
  rw [decodeStage_decodes buffering enough, seek]
  by_cases ends : LoopsEnd g d.payloadSize (pendingBytes d)
  · refine .inr ⟨ends, ?_⟩
    obtain ⟨containers, s, run, skips⟩ := readGroup_skips mem start range (here.symm ▸ ends)
    rw [here] at skips
    rw [sendGroup_of_run (d := { d with buffer := d.buffer.getAt d.toRemove }) next run]
    by_cases inside : d.toRemove + consumed d g ≤ d.buffer.data.length
    · have room : consumed d g ≤ (pendingBytes d).length := by omega
      obtain ⟨containers', consumes⟩ := readGroup_consumes mem range ends room
      have split : (d.buffer.getAt d.toRemove).unread =
          (pendingBytes d).take (consumed d g) ++ (pendingBytes d).drop (consumed d g) :=
        (List.take_append_drop _ _).symm
      have read := consumes _ _ start split
      rw [run] at read
      cases read
      rw [List.length_take, Nat.min_eq_left (show readLength g d.payloadSize (pendingBytes d) ≤ _
        from room)]
      exact .inl ⟨inside, containers, consumes, rfl⟩
    · refine .inr ⟨by omega, _, containers, rfl, skips.of_short ?_, rfl⟩
      intro enough
      have room : consumed d g ≤ (pendingBytes d).length := enough.2
      omega
  · refine .inl ⟨ends, ?_⟩
    have hangs := readGroup_hangs mem start range (here.symm ▸ ends)
    rw [sendGroup_none (d := { d with buffer := d.buffer.getAt d.toRemove }) next hangs]
    rfl

end Decode

/-! ## One pass -/

section Arithmetic
variable {d : Decoder}

theorem readPosition_eq (good : d.buffer.good = true)
    (fits : d.buffer.gptr + d.toRemove < 2 ^ 32) :
    readPosition d = d.buffer.gptr + d.toRemove := by
  rw [readPosition, StringStream.tellg_of_good good, u32_natCast, add32]
  omega

theorem fillLevel_eq (good : d.buffer.good = true) (put : d.buffer.pptr = d.buffer.data.length)
    (fits : d.buffer.gptr + d.toRemove < 2 ^ 32) (small : d.buffer.data.length < 2 ^ 32) :
    fillLevel d =
      if d.buffer.gptr + d.toRemove ≤ d.buffer.data.length then
        d.buffer.data.length - (d.buffer.gptr + d.toRemove)
      else 2 ^ 32 + d.buffer.data.length - (d.buffer.gptr + d.toRemove) := by
  rw [fillLevel, readPosition_eq good fits, StringStream.tellp_of_good good, u32_natCast, sub32, put]
  split <;> omega

theorem Ready.loopCondition_iff (ready : Ready d) (fits : Fits32 d) :
    loopCondition d = true ↔
      d.buffer.gptr + d.toRemove + GRP_HEADER_SIZE < d.buffer.data.length := by
  have get := ready.get
  have remove := ready.remove
  simp only [Fits32, GRP_HEADER_SIZE] at fits
  rw [loopCondition, decide_eq_true_iff, readPosition_eq ready.good (by omega),
    StringStream.tellp_of_good ready.good, ready.put, add32, Int.ofNat_lt]
  simp only [GRP_HEADER_SIZE]
  omega

theorem Ready.fillLevel_eq (ready : Ready d) (fits : Fits32 d)
    (enter : d.buffer.gptr + d.toRemove + GRP_HEADER_SIZE < d.buffer.data.length) :
    fillLevel d = d.buffer.data.length - (d.buffer.gptr + d.toRemove) := by
  have get := ready.get
  have remove := ready.remove
  simp only [Fits32, GRP_HEADER_SIZE] at fits enter
  rw [Applanix.fillLevel_eq ready.good ready.put (by omega) (by omega), if_pos (by omega)]

end Arithmetic

/-- What the header test at `toRemove` makes of a state with a good stream. -/
inductive HeaderTest (d : Decoder) : Decoder → Prop
  | found {g : Group} {byteCount : Nat} :
      headerAt d.buffer.data d.toRemove = some (g, byteCount) →
      HeaderTest d (headerFound d g byteCount)
  | missed : d.toRemove + 6 ≤ d.buffer.data.length →
      startsGroup (d.buffer.data.drop d.toRemove) = none → HeaderTest d (headerMissed d)
  | fails {e : Decoder} : ¬ HeaderFits d.buffer.data d.toRemove → e.buffer.good = false →
      e.conference = d.conference → HeaderTest d e

/-- The pass that starts here decodes the pending group. -/
structure Decoding (d : Decoder) (g : Group) : Prop where
  good : d.buffer.good = true
  buffering : d.buffering = true
  next : d.nextApplanixMessage = some g
  enter : 2 * d.toRemove + GRP_HEADER_SIZE < d.buffer.data.length
  enough : 2 * d.toRemove + d.payloadSize ≤ d.buffer.data.length

instance (d : Decoder) (g : Group) : Decidable (Decoding d g) :=
  decidable_of_iff (d.buffer.good = true ∧ d.buffering = true ∧ d.nextApplanixMessage = some g ∧
      2 * d.toRemove + GRP_HEADER_SIZE < d.buffer.data.length ∧
      2 * d.toRemove + d.payloadSize ≤ d.buffer.data.length)
    ⟨fun ⟨good, buffering, next, enter, enough⟩ => ⟨good, buffering, next, enter, enough⟩,
      fun h => ⟨h.good, h.buffering, h.next, h.enter, h.enough⟩⟩

/-- Only the pending group can be decoded. -/
instance (d : Decoder) (Q : Group → Prop) [DecidablePred Q] :
    Decidable (∀ g, Decoding d g → Q g) :=
  match pending : d.nextApplanixMessage with
  | none => .isTrue fun _ decoding => nomatch pending.symm.trans decoding.next
  | some g => decidable_of_iff (Decoding d g → Q g)
      ⟨fun h g' decoding =>
        have same : g = g' := Option.some.inj (pending.symm.trans decoding.next)
        same ▸ h (same ▸ decoding), fun h => h g⟩

/-- Its reader ends, finds all its bytes in the buffer and sends `containers`. -/
structure Decodes (mem : Nat → UInt8) (d : Decoder) (g : Group) (containers : List Container) :
    Prop extends Decoding d g where
  ends : LoopsEnd g d.payloadSize (pendingBytes d)
  inside : d.toRemove + consumed d g ≤ d.buffer.data.length
  consumes : Consumes (readGroup mem g d.payloadSize) ((pendingBytes d).take (consumed d g)) containers

/-- The same pass goes on with the header test behind the record, unless fewer bytes
than a header are left by the decoder's own count. -/
def Retests (d : Decoder) (g : Group) : Prop :=
  ¬ (2 * d.toRemove + consumed d g + d.payloadSize + GRP_FOOTER_SIZE ≤ d.buffer.data.length ∧
    d.buffer.data.length <
      2 * d.toRemove + consumed d g + d.payloadSize + GRP_FOOTER_SIZE + GRP_HEADER_SIZE)

/-- Everything a pass can do to a ready state. -/
inductive Outcome (mem : Nat → UInt8) (d : Decoder) : Option (Flow Decoder) → Prop
  | exits : d.buffer.data.length ≤ d.buffer.gptr + d.toRemove + GRP_HEADER_SIZE →
      Outcome mem d (some (.done d))
  | waits : d.buffering = true →
      d.buffer.data.length < 2 * d.toRemove + d.payloadSize → Outcome mem d (some (.done d))
  | searches {e : Decoder} : d.buffering = false →
      d.buffer.gptr + d.toRemove + GRP_HEADER_SIZE < d.buffer.data.length →
      HeaderTest d e → Outcome mem d (some (.next e))
  | hangs {g : Group} : Decoding d g → ¬ LoopsEnd g d.payloadSize (pendingBytes d) →
      Outcome mem d none
  | overruns {g : Group} {e : Decoder} {containers : List Container} :
      Decoding d g → LoopsEnd g d.payloadSize (pendingBytes d) →
      d.buffer.data.length < d.toRemove + consumed d g →
      e.buffer.good = false → e.conference = d.conference ++ containers →
      Outcome mem d (some (.next e))
  | rests {g : Group} {containers : List Container} :
      Decodes mem d g containers → ¬ Retests d g →
      Outcome mem d (some (.next (decoded d containers (consumed d g))))
  | retests {g : Group} {containers : List Container} {e : Decoder} :
      Decodes mem d g containers → Retests d g →
      HeaderTest (decoded d containers (consumed d g)) e → Outcome mem d (some (.next e))

section Pass
variable {mem : Nat → UInt8} {d e : Decoder}

variable (mem) in
theorem headerTest_of_stage (good : d.buffer.good = true) (idle : d.foundHeader = false)
    (enough : GRP_HEADER_SIZE ≤ fillLevel d) :
    ∃ e, headerStage mem d = some e ∧ HeaderTest d e := by
  by_cases remove : d.toRemove ≤ d.buffer.data.length
  · rcases headerStage_tests mem ⟨good, remove, idle⟩ enough with
      ⟨g, n, header, found⟩ | ⟨six, other, missed⟩ | ⟨past, e, stage, failed, sent⟩
    · exact ⟨_, found, .found header⟩
    · exact ⟨_, missed, .missed six other⟩
    · exact ⟨e, stage, .fails past failed sent⟩
  · -- seeking to `toRemove` already fails
    have lost : (d.buffer.seekg d.toRemove).good = false := by
      cases fine : (d.buffer.seekg d.toRemove).good with
      | false => rfl
      | true => exact absurd (StringStream.seekg_good_iff.mp fine).2 remove
    obtain ⟨hdr, s, read, failed⟩ := readGrpHdr_of_not_good mem lost
    obtain ⟨e, stage, failed', sent⟩ := decodeHeader_of_not_good read failed
    refine ⟨e, ?_, .fails (fun fits => remove (Nat.le_of_add_right_le fits.1)) failed' sent⟩
    rw [headerStage, if_pos (by simp [idle, enough]), stage]

theorem toRemove_decoded {g : Group} (fits : Fits32 d) (decoding : Decoding d g)
    (containers : List Container) (n : Nat) :
    (decoded d containers n).toRemove = d.toRemove + d.payloadSize + GRP_FOOTER_SIZE := by
  have enough := decoding.enough
  simp only [Fits32, GRP_HEADER_SIZE] at fits
  simp only [decoded, add32, GRP_FOOTER_SIZE]
  omega

/-- The state after decoding is one the header test can start from, unless the next
header would lie past the end of the buffer. -/
theorem fillLevel_decoded {g : Group} {containers : List Container}
    (ready : Ready d) (fits : Fits32 d) (decodes : Decodes mem d g containers) :
    fillLevel (decoded d containers (consumed d g)) =
      if 2 * d.toRemove + consumed d g + d.payloadSize + GRP_FOOTER_SIZE ≤ d.buffer.data.length
      then d.buffer.data.length -
        (2 * d.toRemove + consumed d g + d.payloadSize + GRP_FOOTER_SIZE)
      else 2 ^ 32 + d.buffer.data.length -
        (2 * d.toRemove + consumed d g + d.payloadSize + GRP_FOOTER_SIZE) := by
  have moved := toRemove_decoded fits decodes.toDecoding containers (consumed d g)
  have inside := decodes.inside
  have enough := decodes.enough
  have sum : (decoded d containers (consumed d g)).buffer.gptr +
      (decoded d containers (consumed d g)).toRemove =
        2 * d.toRemove + consumed d g + d.payloadSize + GRP_FOOTER_SIZE := by
    rw [moved]
    simp only [decoded, StringStream.getAt_gptr]
    omega
  simp only [Fits32, GRP_HEADER_SIZE] at fits
  simp only [GRP_FOOTER_SIZE] at sum
  have level := fillLevel_eq (d := decoded d containers (consumed d g)) ready.good ready.put
    (by omega) (by change d.buffer.data.length < _; omega)
  rw [level, sum]
  rfl

theorem pass_exits (ready : Ready d) (fits : Fits32 d)
    (low : d.buffer.data.length ≤ d.buffer.gptr + d.toRemove + GRP_HEADER_SIZE) :
    pass mem d = some (.done d) := by
  have stop : ¬ loopCondition d = true := by
    rw [ready.loopCondition_iff fits]
    omega
  rw [pass, if_neg stop]
  rfl

variable (mem) in
theorem pass_enters (ready : Ready d) (fits : Fits32 d)
    (enter : d.buffer.gptr + d.toRemove + GRP_HEADER_SIZE < d.buffer.data.length)
    (proceeds : waiting d = false) :
    pass mem d = (decodeStage mem d).bind fun e => (headerStage mem e).map .next := by
  rw [pass, if_pos ((ready.loopCondition_iff fits).mpr enter), if_neg (by simp [proceeds])]
  cases decodeStage mem d with
  | none => rfl
  | some e =>
    rw [Option.bind_some]
    change (headerStage mem e).bind (fun f => some (Flow.next f)) = _
    cases headerStage mem e <;> rfl

theorem pass_outcome_idle (ready : Ready d) (fits : Fits32 d)
    (enter : d.buffer.gptr + d.toRemove + GRP_HEADER_SIZE < d.buffer.data.length)
    (idle : d.buffering = false) : Outcome mem d (pass mem d) := by
  have level := ready.fillLevel_eq fits enter
  obtain ⟨e, stage, test⟩ := headerTest_of_stage mem ready.good (ready.flags.trans idle)
    (by omega)
  rw [pass_enters _ ready fits enter (by simp [waiting, idle]), decodeStage_idle idle,
    Option.bind_some, stage]
  exact .searches idle enter test

theorem pass_outcome_decodes {g : Group} {containers : List Container}
    (ready : Ready d) (fits : Fits32 d) (decodes : Decodes mem d g containers)
    (run : pass mem d = (headerStage mem (decoded d containers (consumed d g))).map .next) :
    Outcome mem d (pass mem d) := by
  have level := fillLevel_decoded ready fits decodes
  have inside := decodes.inside
  have enough := decodes.enough
  by_cases retests : Retests d g
  · have test : GRP_HEADER_SIZE ≤ fillLevel (decoded d containers (consumed d g)) := by
      unfold Retests at retests
      simp only [Fits32, GRP_HEADER_SIZE] at fits retests ⊢
      by_cases before : 2 * d.toRemove + consumed d g + d.payloadSize + GRP_FOOTER_SIZE ≤
          d.buffer.data.length
      · rw [level, if_pos before]
        omega
      · rw [level, if_neg before]
        simp only [GRP_FOOTER_SIZE] at *
        omega
    obtain ⟨e, stage, tested⟩ := headerTest_of_stage mem
      (d := decoded d containers (consumed d g)) ready.good rfl test
    rw [run, stage]
    exact .retests decodes retests tested
  · have low := Decidable.not_not.mp retests
    rw [if_pos low.1] at level
    rw [run, headerStage_skips (by rw [level]; omega)]
    exact .rests decodes retests

theorem pass_outcome_buffering {g : Group} (ready : Ready d) (fits : Fits32 d)
    (decoding : Decoding d g) : Outcome mem d (pass mem d) := by
  have here := (ready.pending decoding.buffering).1
  have enter := decoding.enter
  have low := decoding.enough
  have level := ready.fillLevel_eq fits (by omega)
  have enough : d.payloadSize ≤ fillLevel d := by omega
  have proceeds : waiting d = false := by
    simp only [waiting, decoding.buffering, Bool.true_and, decide_eq_false_iff_not]
    omega
  have run := pass_enters mem ready fits (by omega) proceeds
  rcases decodeStage_ready mem ready decoding.buffering decoding.next enough with
    ⟨endless, stage⟩ | ⟨ends, ⟨inside, containers, consumes, stage⟩ |
      ⟨short, e, containers, stage, failed, sent⟩⟩
  · rw [run, stage]
    exact .hangs decoding endless
  · refine pass_outcome_decodes ready fits ⟨decoding, ends, inside, consumes⟩ ?_
    rw [run, stage]
    rfl
  · obtain ⟨f, tested, failed', sent'⟩ := headerStage_of_not_good mem failed
    rw [run, stage, Option.bind_some, tested]
    exact .overruns decoding ends short failed' (sent'.trans sent)

variable (mem) in
/-- On a good stream, as long as positions fit 32 bits, this is all a pass can do. -/
theorem pass_outcome (ready : Ready d) (fits : Fits32 d) : Outcome mem d (pass mem d) := by
  by_cases enter : d.buffer.gptr + d.toRemove + GRP_HEADER_SIZE < d.buffer.data.length
  · cases buffering : d.buffering with
    | false => exact pass_outcome_idle ready fits enter buffering
    | true =>
      obtain ⟨here, _, g, next⟩ := ready.pending buffering
      have level := ready.fillLevel_eq fits enter
      rw [here] at level enter
      by_cases enough : d.payloadSize ≤ fillLevel d
      · exact pass_outcome_buffering ready fits
          ⟨ready.good, buffering, next, by omega, by omega⟩
      · have waits : waiting d = true := by
          simp only [waiting, buffering, Bool.true_and, decide_eq_true_eq]
          omega
        rw [pass, if_pos ((ready.loopCondition_iff fits).mpr (by omega)), if_pos waits]
        exact .waits buffering (by omega)
  · rw [pass_exits ready fits (by omega)]
    exact .exits (by omega)

end Pass

end OpendlvCore.Applanix
