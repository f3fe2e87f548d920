import OpendlvCore.Applanix.Runs

/-!
# Records laid end to end

The byte count of a well-formed record covers its footer, as the padding loops count
it; `nextString` adds the size of a footer once more and goes on four bytes inside the
next record. One record is always decoded, a second one right behind it never at its
own offset.
-/
namespace OpendlvCore.Applanix
open CStream CBytes CLoop

/-- A well-formed record: as many bytes as the group's reader consumes, and a footer. -/
structure Record (mem : Nat → UInt8) where
  group : Group
  payload : Bytes
  footer : Bytes
  containers : List Container
  footer_length : footer.length = GRP_FOOTER_SIZE
  range : payload.length + GRP_FOOTER_SIZE < 2 ^ 16
  complete : Consumes (readGroup mem group (payload.length + GRP_FOOTER_SIZE)) payload containers

section Records
variable {mem : Nat → UInt8}

def Record.byteCount (r : Record mem) : Nat := r.payload.length + GRP_FOOTER_SIZE

def Record.bytes (r : Record mem) : Bytes :=
  GRPSTART ++ (toLE 2 r.group.number ++ (toLE 2 r.byteCount ++ (r.payload ++ r.footer)))

def stream (records : List (Record mem)) : Bytes := records.flatMap Record.bytes

/-- Where the payloads start in the stream. -/
def payloadOffsets : Nat → List (Record mem) → List Nat
  | _, [] => []
  | offset, r :: rest =>
    (offset + GRP_HEADER_SIZE) :: payloadOffsets (offset + r.bytes.length) rest

theorem Record.length_bytes (r : Record mem) :
    r.bytes.length = GRP_HEADER_SIZE + r.byteCount := by
  have footer := r.footer_length
  simp only [Record.bytes, List.length_append, length_toLE, Record.byteCount, footer, GRPSTART,
    List.length_cons, List.length_nil, GRP_HEADER_SIZE]
  omega

theorem Record.header (r : Record mem) (more : Bytes) :
    headerAt (r.bytes ++ more) 0 = some (r.group, r.byteCount) := by
  simp only [Record.bytes, List.append_assoc]
  exact headerAt_written r.group r.range _

theorem Record.drop_header (r : Record mem) (more : Bytes) :
    (r.bytes ++ more).drop GRP_HEADER_SIZE = r.payload ++ (r.footer ++ more) := by
  change (r.payload ++ r.footer) ++ more = _
  rw [List.append_assoc]

end Records

/-- The pass from here decodes the pending group. -/
def decodes (d : Decoder) : Bool :=
  loopCondition d && d.buffering && decide (d.payloadSize ≤ fillLevel d)

/-- Where the payloads start that a call decodes. -/
def decodeOffsets (mem : Nat → UInt8) (fuel : Nat) (d : Decoder) : List Nat :=
  ((heads (pass mem) fuel d).filter decodes).map Decoder.toRemove

/-- The records and as many zeros and 16 more. -/
def padded {mem : Nat → UInt8} (records : List (Record mem)) : Bytes :=
  stream records ++ zeros ((stream records).length + 16)

/-- One call on a fresh decoder returns, sends the containers of every record in order, and
decodes each of them at its own place. -/
def SendsAll {mem : Nat → UInt8} (records : List (Record mem)) : Prop :=
  ∃ fuel e, nextString mem fuel fresh (padded records) = some e ∧
    e.conference = records.flatMap Record.containers ∧
    decodeOffsets mem fuel (append fresh (padded records)) = payloadOffsets 0 records

/-! ## One record -/

section Single
variable {mem : Nat → UInt8} {d e : Decoder}

theorem decodes_idle (idle : d.buffering = false) : decodes d = false := by
  simp [decodes, idle]

theorem decodes_of_decoding {g : Group} (ready : Ready d) (fits : Fits32 d)
    (decoding : Decoding d g) : decodes d = true := by
  have here := (ready.pending decoding.buffering).1
  have enter := decoding.enter
  have enough := decoding.enough
  have level := ready.fillLevel_eq fits (by omega)
  have loops := (ready.loopCondition_iff fits).mpr (by omega)
  simp only [decodes, loops, decoding.buffering, Bool.and_self, Bool.true_and, decide_eq_true_eq]
  omega

/-- A pass that decodes a record in front of octets that announce no group. -/
theorem pass_decodes {g : Group} {containers : List Container} (ready : Ready d) (fits : Fits32 d)
    (whole : Decodes mem d g containers) (retests : Retests d g)
    (six : d.toRemove + d.payloadSize + GRP_FOOTER_SIZE + 6 ≤ d.buffer.data.length)
    (other : startsGroup (d.buffer.data.drop (d.toRemove + d.payloadSize + GRP_FOOTER_SIZE)) = none) :
    pass mem d = some (.next (headerMissed (decoded d containers (consumed d g)))) := by
  have here := (ready.pending whole.buffering).1
  have enter := whole.enter
  have enough := whole.enough
  have inside := whole.inside
  have outcome := pass_outcome mem ready fits
  generalize result : pass mem d = flow at outcome
  cases outcome with
  | exits low => omega
  | waits _ low => omega
  | searches idle =>
    rw [whole.buffering] at idle
    cases idle
  | hangs decoding endless =>
    cases Option.some.inj (decoding.next.symm.trans whole.next)
    exact absurd whole.ends endless
  | overruns decoding _ short =>
    cases Option.some.inj (decoding.next.symm.trans whole.next)
    omega
  | rests whole' rests =>
    cases Option.some.inj (whole'.next.symm.trans whole.next)
    exact absurd retests rests
  | retests whole' _ test =>
    cases Option.some.inj (whole'.next.symm.trans whole.next)
    rw [whole'.consumes.value_unique whole.consumes] at test
    have moved := toRemove_decoded fits whole.toDecoding containers (consumed d g)
    rw [test.eq_missed (by rw [moved]; exact six) (by rw [moved]; exact other)]

/-- A fresh decoder has read the header of a first record. -/
structure HeaderRead (r : Record mem) (more : Bytes) (d : Decoder) : Prop where
  ready : Ready d
  bytes : d.buffer.data = r.bytes ++ more
  position : d.toRemove = GRP_HEADER_SIZE
  payloadSize : d.payloadSize = r.byteCount
  buffering : d.buffering = true
  next : d.nextApplanixMessage = some r.group
  sent : d.conference = []

theorem headerRead (r : Record mem) (more : Bytes) :
    HeaderRead r more (headerFound (append fresh (r.bytes ++ more)) r.group r.byteCount) := by
  have inside : GRP_HEADER_SIZE ≤ (r.bytes ++ more).length := by
    rw [List.length_append, r.length_bytes]
    omega
  rw [append_fresh]
  refine ⟨⟨rfl, rfl, inside, inside, rfl, fun _ => ⟨rfl, r.range, r.group, rfl⟩⟩,
    rfl, rfl, rfl, rfl, rfl, rfl⟩

section Read
variable {r : Record mem} {more : Bytes}

theorem HeaderRead.pending (read : HeaderRead r more d) :
    pendingBytes d = r.payload ++ (r.footer ++ more) := by
  rw [pendingBytes, read.bytes, read.position]
  exact r.drop_header more

theorem HeaderRead.ends (read : HeaderRead r more d) :
    LoopsEnd r.group d.payloadSize (pendingBytes d) := by
  rw [read.pending, read.payloadSize]
  exact (readLength_of_consumes r.range r.complete).1

theorem HeaderRead.consumed (read : HeaderRead r more d) :
    consumed d r.group = r.payload.length := by
  rw [Applanix.consumed, read.pending, read.payloadSize]
  exact (readLength_of_consumes r.range r.complete).2

theorem HeaderRead.consumes (read : HeaderRead r more d) :
    Consumes (readGroup mem r.group d.payloadSize)
      ((pendingBytes d).take (Applanix.consumed d r.group)) r.containers := by
  rw [read.consumed, read.pending, read.payloadSize, List.take_left]
  exact r.complete

theorem HeaderRead.length (read : HeaderRead r more d) :
    d.buffer.data.length = GRP_HEADER_SIZE + r.byteCount + more.length := by
  rw [read.bytes, List.length_append, r.length_bytes]

/-- With as many zeros behind it the record is decoded, and one byte is skipped. -/
theorem HeaderRead.pass_zeros (read : HeaderRead r (zeros (r.byteCount + 24)) d) :
    Decoding d r.group ∧
      pass mem d = some (.next (headerMissed (decoded d r.containers (Applanix.consumed d r.group)))) := by
  have range : r.byteCount < 2 ^ 16 := r.range
  have count : r.byteCount = r.payload.length + 4 := rfl
  have length := read.length
  have position := read.position
  have payloadSize := read.payloadSize
  have consumed := read.consumed
  simp only [length_zeros, GRP_HEADER_SIZE] at length position
  have fits : Fits32 d := by
    simp only [Fits32, GRP_HEADER_SIZE]
    omega
  have decoding : Decoding d r.group := by
    refine ⟨read.ready.good, read.buffering, read.next, ?_, ?_⟩
    · simp only [GRP_HEADER_SIZE]
      omega
    · omega
  have after : d.toRemove + d.payloadSize + GRP_FOOTER_SIZE = r.byteCount + 12 := by
    simp only [GRP_FOOTER_SIZE]
    omega
  refine ⟨decoding, pass_decodes read.ready fits ⟨decoding, read.ends, ?_, read.consumes⟩ ?_ ?_ ?_⟩
  · omega
  · simp only [Retests, GRP_HEADER_SIZE, GRP_FOOTER_SIZE]
    omega
  · omega
  · have far : r.byteCount + 12 = r.bytes.length + 4 := by
      rw [r.length_bytes]
      simp only [GRP_HEADER_SIZE]
      omega
    rw [after, read.bytes, far, List.drop_append, List.drop_eq_nil_of_le (by omega),
      List.nil_append, Nat.add_sub_cancel_left, zeros_drop]
    exact startsGroup_zeros _

/-- Behind the record the search ends at once: the rest of the buffer counts as read. -/
theorem HeaderRead.pass_last (read : HeaderRead r (zeros (r.byteCount + 24)) d) :
    pass mem (headerMissed (decoded d r.containers (Applanix.consumed d r.group))) =
      some (.done (headerMissed (decoded d r.containers (Applanix.consumed d r.group)))) := by
  have range : r.byteCount < 2 ^ 16 := r.range
  have length := read.length
  have position := read.position
  have payloadSize := read.payloadSize
  simp only [length_zeros, GRP_HEADER_SIZE] at length position
  have fits : Fits32 d := by
    simp only [Fits32, GRP_HEADER_SIZE]
    omega
  obtain ⟨decoding, step⟩ := read.pass_zeros
  have moved := toRemove_decoded fits decoding r.containers (Applanix.consumed d r.group)
  have gptr : (headerMissed (decoded d r.containers (Applanix.consumed d r.group))).buffer.gptr =
      r.byteCount + 18 := by
    change (decoded d r.containers (Applanix.consumed d r.group)).toRemove + 6 = _
    rw [moved]
    simp only [GRP_FOOTER_SIZE]
    omega
  have toRemove : (headerMissed (decoded d r.containers (Applanix.consumed d r.group))).toRemove =
      r.byteCount + 13 := by
    change add32 (decoded d r.containers (Applanix.consumed d r.group)).toRemove 1 = _
    rw [moved]
    simp only [add32, GRP_FOOTER_SIZE]
    omega
  rcases (pass_ready read.ready fits step).2 with ⟨ready, same⟩ | failed
  · refine pass_exits ready (fits.of_data same) ?_
    rw [same, gptr, toRemove]
    simp only [GRP_HEADER_SIZE]
    omega
  · have good := read.ready.good
    rw [show (headerMissed (decoded d r.containers (Applanix.consumed d r.group))).buffer.good =
      d.buffer.good from rfl, good] at failed
    cases failed

end Read

theorem first_pass (r : Record mem) : ∃ s₁,
    pass mem (append fresh (r.bytes ++ zeros (r.byteCount + 24))) = some (.next s₁) ∧
      HeaderRead r (zeros (r.byteCount + 24)) s₁ := by
  have range : r.byteCount < 2 ^ 16 := r.range
  have length : (r.bytes ++ zeros (r.byteCount + 24)).length = 2 * r.byteCount + 32 := by
    rw [List.length_append, r.length_bytes, length_zeros]
    simp only [GRP_HEADER_SIZE]
    omega
  have start : Ready (append fresh (r.bytes ++ zeros (r.byteCount + 24))) := append_ready fresh_ready
  have fits : Fits32 (append fresh (r.bytes ++ zeros (r.byteCount + 24))) := by
    rw [append_fresh, Fits32, length]
    simp only [GRP_HEADER_SIZE]
    omega
  obtain ⟨s₁, step, test⟩ := pass_searches mem start fits rfl (by
    rw [append_fresh]
    simp only [fresh, length, GRP_HEADER_SIZE]
    omega)
  have found := test.eq_found (g := r.group) (n := r.byteCount) (by
    rw [append_fresh]
    exact r.header _)
  exact ⟨s₁, step, found ▸ headerRead r _⟩

theorem sends_single (r : Record mem) : SendsAll [r] := by
  have one : stream [r] = r.bytes := by simp [stream]
  have content : padded [r] = r.bytes ++ zeros (r.byteCount + 24) := by
    rw [padded, one, r.length_bytes]
    simp only [GRP_HEADER_SIZE]
    congr 2
    omega
  obtain ⟨s₁, first, read⟩ := first_pass r
  obtain ⟨decoding, second⟩ := read.pass_zeros
  have third := read.pass_last
  have sent : (headerMissed (decoded s₁ r.containers (consumed s₁ r.group))).conference =
      r.containers := by
    change s₁.conference ++ r.containers = _
    rw [read.sent, List.nil_append]
  have last : decodes (headerMissed (decoded s₁ r.containers (consumed s₁ r.group))) = false :=
    decodes_idle rfl
  generalize headerMissed (decoded s₁ r.containers (consumed s₁ r.group)) = s₂ at *
  have fits : Fits32 s₁ := by
    have length := read.length
    have range : r.byteCount < 2 ^ 16 := r.range
    simp only [Fits32, GRP_HEADER_SIZE, length, length_zeros]
    omega
  have middle := decodes_of_decoding read.ready fits decoding
  have idle : decodes (append fresh (r.bytes ++ zeros (r.byteCount + 24))) = false :=
    decodes_idle rfl
  refine ⟨3, discard s₂, ?_, ?_, ?_⟩
  · rw [content, nextString, iterate_next first, iterate_next second, iterate_done third]
    rfl
  · rw [discard_conference, sent]
    simp
  · rw [content, decodeOffsets]
    simp only [heads, first, second, third, List.filter_cons, middle, idle, last, if_true,
      Bool.false_eq_true, if_false, List.filter_nil, List.map_cons, List.map_nil, read.position]
    rfl

/-- A pass of a search over zeros skips one byte. -/
theorem pass_skips (mem : Nat → UInt8) {n : Nat} (ready : Ready d) (fits : Fits32 d) (idle : d.buffering = false)
    (content : d.buffer.data = zeros n) (enter : d.buffer.gptr + d.toRemove + GRP_HEADER_SIZE < n) :
    pass mem d = some (.next (headerMissed d)) ∧ Ready (headerMissed d) := by
  apply pass_misses mem ready fits idle
  · rw [content, length_zeros]
    exact enter
  · rw [content, zeros_drop]
    exact startsGroup_zeros _

/-- Sixteen zeros: two header tests and nothing found. -/
theorem sends_nil : SendsAll ([] : List (Record mem)) := by
  have content : padded ([] : List (Record mem)) = zeros 16 := rfl
  have start : Ready (append fresh (zeros 16)) := append_ready fresh_ready
  have bytes := append_fresh (zeros 16)
  have small : ∀ d : Decoder, d.buffer.data = zeros 16 → Fits32 d := by
    intro d same
    rw [Fits32, same, length_zeros]
    decide
  obtain ⟨first, ready₁⟩ := pass_skips mem start (small _ (by rw [bytes])) (by rw [bytes]; rfl)
    (by rw [bytes]) (by rw [bytes]; decide)
  obtain ⟨second, ready₂⟩ := pass_skips mem ready₁ (small _ (by rw [bytes]; rfl))
    (by rw [bytes]; rfl) (by rw [bytes]; rfl) (by rw [bytes]; decide)
  have third : pass mem (headerMissed (headerMissed (append fresh (zeros 16)))) =
      some (.done (headerMissed (headerMissed (append fresh (zeros 16))))) :=
    pass_exits ready₂ (small _ (by rw [bytes]; rfl)) (by rw [bytes]; decide)
  refine ⟨3, discard (headerMissed (headerMissed (append fresh (zeros 16)))), ?_, ?_, ?_⟩
  · rw [content, nextString, iterate_next first, iterate_next second, iterate_done third]
    rfl
  · rw [discard_conference, bytes]
    rfl
  · rw [content, decodeOffsets]
    simp only [heads, first, second, third]
    rw [bytes]
    rfl

end Single

/-! ## Two records and more -/

/-- A search that has passed `target - 4`, up to an offset where it would stand still. -/
structure SearchPast (size target bar : Nat) (d : Decoder) : Prop where
  good : d.buffer.good = true
  length : d.buffer.data.length = size
  put : d.buffer.pptr = d.buffer.data.length
  idle : d.foundHeader = false
  free : d.buffering = false
  inside : d.toRemove ≤ d.buffer.data.length
  behind : target ≤ d.toRemove + 4
  before : d.toRemove ≤ bar
  get : d.buffer.gptr = d.toRemove + 5 ∨ d.toRemove + 4 = target

/-- No payload at `target` is decoded from here before another one is. -/
inductive Past (size target bar : Nat) (d : Decoder) : Prop
  | searching : SearchPast size target bar d → Past size target bar d
  | pending : d.buffering = true → target < d.toRemove → Past size target bar d
  | failed : d.buffer.good = false → Past size target bar d

/-- With its get position five bytes ahead, a search at `bar` sees fewer than eight bytes. -/
def Stands (size bar : Nat) : Prop :=
  sub32 (size % 2 ^ 32) (add32 ((bar + 5) % 2 ^ 32) bar) < GRP_HEADER_SIZE

/-- The fill level falls by two with every byte, modulo 2^32, so it comes by zero or one. -/
theorem exists_stands (size : Nat) :
    ∃ bar, 2 ^ 17 ≤ bar ∧ bar < 2 ^ 31 + 2 ^ 17 ∧ Stands size bar := by
  refine ⟨2 ^ 17 + ((size % 2 ^ 32 + 2 ^ 32 - 5) / 2 + 2 ^ 31 - 2 ^ 17) % 2 ^ 31, ?_, ?_, ?_⟩
  · omega
  · omega
  · simp only [Stands, sub32, add32, GRP_HEADER_SIZE]
    omega

section Several
variable {mem : Nat → UInt8} {target bar size : Nat} {d e : Decoder}

theorem SearchPast.fillLevel (past : SearchPast size target bar d) :
    fillLevel d = sub32 (size % 2 ^ 32) (add32 (d.buffer.gptr % 2 ^ 32) d.toRemove) := by
  rw [Applanix.fillLevel, readPosition, StringStream.tellp_of_good past.good,
    StringStream.tellg_of_good past.good, past.put, past.length, u32_natCast, u32_natCast]

/-- The header test cannot bring the search back to `target`. -/
theorem SearchPast.test (past : SearchPast size target bar d) (stands : Stands size bar)
    (high : target < bar) (low : bar < 2 ^ 32 - 8) (step : headerStage mem d = some e) :
    Past size target bar e := by
  have behind := past.behind
  have before := past.before
  by_cases enough : GRP_HEADER_SIZE ≤ Applanix.fillLevel d
  · have searching : Searching d := ⟨past.good, past.inside, past.idle⟩
    rcases headerStage_tests mem searching enough with
      ⟨g, n, header, found⟩ | ⟨six, _, missed⟩ | ⟨_, f, failing, failed, _⟩
    · rw [found] at step
      cases step
      apply Past.pending rfl
      change target < add32 d.toRemove GRP_HEADER_SIZE
      simp only [add32, GRP_HEADER_SIZE]
      omega
    · rw [missed] at step
      cases step
      have below : d.toRemove < bar := by
        by_contra here
        have at_bar : d.toRemove = bar := by omega
        rcases past.get with ahead | start
        · rw [past.fillLevel, ahead, at_bar] at enough
          exact absurd stands (Nat.not_lt.mpr enough)
        · omega
      have moved : (headerMissed d).toRemove = d.toRemove + 1 := by
        simp only [headerMissed, add32]
        omega
      apply Past.searching
      refine ⟨past.good, past.length, past.put, past.idle, past.free, ?_, ?_, ?_, .inl ?_⟩
      · rw [moved]
        change d.toRemove + 1 ≤ d.buffer.data.length
        omega
      · omega
      · omega
      · rw [moved]
        rfl
    · rw [failing] at step
      cases step
      exact .failed failed
  · rw [headerStage_skips (by omega)] at step
    cases step
    exact .searching past

/-- A pending record that is not decoded in this pass ends the loop. -/
theorem pass_waits (buffering : d.buffering = true) (other : decodes d = false) :
    pass mem d = some (.done d) := by
  by_cases loops : loopCondition d = true
  · have waits : waiting d = true := by
      simp only [decodes, loops, buffering, Bool.and_self, Bool.true_and,
        decide_eq_false_iff_not] at other
      simp only [waiting, buffering, Bool.true_and, decide_eq_true_eq]
      omega
    rw [pass, if_pos loops, if_pos waits]
    rfl
  · rw [pass, if_neg loops]
    rfl

/-- A pass with nothing pending that goes on is a header test. -/
theorem pass_idle (free : d.buffering = false) (step : pass mem d = some (.next e)) :
    headerStage mem d = some e := by
  by_cases loops : loopCondition d = true
  · rw [pass, if_pos loops, if_neg (by simp [waiting, free]), decodeStage_idle free] at step
    change (headerStage mem d).bind (fun f => some (Flow.next f)) = _ at step
    obtain ⟨f, stage, same⟩ := Option.bind_eq_some_iff.mp step
    cases same
    exact stage
  · rw [pass, if_neg loops] at step
    cases step

/-- Until the next payload is decoded, the search stays past `target`. -/
theorem Past.step (past : Past size target bar d) (stands : Stands size bar) (high : target < bar)
    (low : bar < 2 ^ 32 - 8) (other : decodes d = false) (step : pass mem d = some (.next e)) :
    Past size target bar e := by
  cases past with
  | searching search => exact search.test stands high low (pass_idle search.free step)
  | pending buffering _ =>
    rw [pass_waits buffering other] at step
    cases step
  | failed failed =>
    rw [pass_of_not_good failed] at step
    cases step

theorem decodeOffsets_next {fuel : Nat} (step : pass mem d = some (.next e)) :
    decodeOffsets mem (fuel + 1) d =
      (if decodes d = true then [d.toRemove] else []) ++ decodeOffsets mem fuel e := by
  simp only [decodeOffsets, heads, step, List.filter_cons]
  split <;> rfl

theorem decodeOffsets_last {fuel : Nat} (last : ∀ e, pass mem d ≠ some (.next e)) :
    decodeOffsets mem (fuel + 1) d = if decodes d = true then [d.toRemove] else [] := by
  have alone : heads (pass mem) (fuel + 1) d = [d] := by
    unfold heads
    split
    · rename_i e step
      exact absurd step (last e)
    · rfl
  rw [decodeOffsets, alone]
  cases now : decodes d <;> simp [now]

/-- The next payload that is decoded is not the one at `target`. -/
theorem Past.trace (past : Past size target bar d) (stands : Stands size bar) (high : target < bar)
    (low : bar < 2 ^ 32 - 8) (fuel : Nat) : (decodeOffsets mem fuel d).head? ≠ some target := by
  induction fuel generalizing d with
  | zero => exact nofun
  | succ fuel ih =>
    have elsewhere : decodes d = true → d.toRemove ≠ target := by
      intro now
      cases past with
      | searching search =>
        rw [decodes_idle search.free] at now
        cases now
      | pending _ behind => omega
      | failed failed =>
        rw [decodes, loopCondition_of_not_good failed] at now
        cases now
    by_cases goes : ∃ e, pass mem d = some (.next e)
    · obtain ⟨e, step⟩ := goes
      rw [decodeOffsets_next step]
      cases now : decodes d with
      | true => simpa using elsewhere now
      | false => simpa using ih (past.step stands high low now step)
    · rw [decodeOffsets_last fun e step => goes ⟨e, step⟩]
      cases now : decodes d with
      | true => simpa using elsewhere now
      | false => simp

/-- The first pass finds the first header, or stands still. -/
theorem first_step {r : Record mem} {more : Bytes}
    (step : pass mem (append fresh (r.bytes ++ more)) = some (.next e)) :
    e = append fresh (r.bytes ++ more) ∨ HeaderRead r more e := by
  have ready : Ready (append fresh (r.bytes ++ more)) := append_ready fresh_ready
  have content : (append fresh (r.bytes ++ more)).buffer.data = r.bytes ++ more := by
    rw [append_fresh]
  have position : (append fresh (r.bytes ++ more)).toRemove = 0 := by
    rw [append_fresh]
    rfl
  have idle : (append fresh (r.bytes ++ more)).buffering = false := by
    rw [append_fresh]
    rfl
  have header := r.header more
  obtain ⟨inside, group, _⟩ := headerAt_some header
  have stage := pass_idle idle step
  by_cases enough : GRP_HEADER_SIZE ≤ fillLevel (append fresh (r.bytes ++ more))
  · have searching : Searching (append fresh (r.bytes ++ more)) :=
      ⟨ready.good, ready.remove, ready.flags.trans idle⟩
    rcases headerStage_tests mem searching enough with
      ⟨g, n, header', found⟩ | ⟨_, other, _⟩ | ⟨past, _⟩
    · rw [content, position, header] at header'
      cases header'
      rw [found] at stage
      cases stage
      exact .inr (headerRead r more)
    · rw [content, position, group] at other
      cases other
    · rw [content, position] at past
      refine absurd ⟨?_, fun _ => inside⟩ past
      simp only [GRP_HEADER_SIZE] at inside
      omega
  · rw [headerStage_skips (by omega)] at stage
    cases stage
    exact .inl rfl

/-- The pass that decodes the first record leaves the search inside the second. -/
theorem HeaderRead.past {r : Record mem} {more : Bytes} (read : HeaderRead r more d)
    (second : GRP_HEADER_SIZE ≤ more.length) (now : decodes d = true)
    (stands : Stands d.buffer.data.length bar) (high : 2 ^ 17 ≤ bar) (low : bar < 2 ^ 32 - 8)
    (step : pass mem d = some (.next e)) :
    Past d.buffer.data.length (r.byteCount + 16) bar e := by
  have range : r.byteCount < 2 ^ 16 := r.range
  have count : r.byteCount = r.payload.length + 4 := rfl
  have length := read.length
  have position := read.position
  have payloadSize := read.payloadSize
  have consumed := read.consumed
  simp only [GRP_HEADER_SIZE] at length position second
  simp only [decodes, Bool.and_eq_true, decide_eq_true_eq] at now
  obtain ⟨⟨loops, buffering⟩, enough⟩ := now
  have proceeds : waiting d = false := by
    simp only [waiting, buffering, Bool.true_and, decide_eq_false_iff_not]
    omega
  rw [pass, if_pos loops, if_neg (by simp [proceeds])] at step
  rcases decodeStage_ready mem read.ready buffering read.next enough with
    ⟨endless, _⟩ | ⟨_, ⟨_, containers, _, stage⟩ | ⟨short, _⟩⟩
  · exact absurd read.ends endless
  · rw [stage] at step
    change (headerStage mem (decoded d containers (Applanix.consumed d r.group))).bind
      (fun f => some (Flow.next f)) = _ at step
    obtain ⟨f, tested, same⟩ := Option.bind_eq_some_iff.mp step
    cases same
    have moved : (decoded d containers (Applanix.consumed d r.group)).toRemove =
        r.byteCount + 12 := by
      simp only [decoded, add32, GRP_FOOTER_SIZE]
      omega
    have search : SearchPast d.buffer.data.length (r.byteCount + 16) bar
        (decoded d containers (Applanix.consumed d r.group)) := by
      refine ⟨read.ready.good, rfl, read.ready.put, rfl, rfl, ?_, ?_, ?_, .inr ?_⟩
      · change (decoded d containers (Applanix.consumed d r.group)).toRemove ≤ d.buffer.data.length
        omega
      · omega
      · omega
      · omega
    exact search.test stands (by omega) low tested
  · omega

theorem skips_second {r : Record mem} {more : Bytes} {fuel : Nat} {later : List Nat}
    (second : GRP_HEADER_SIZE ≤ more.length)
    (returns : nextString mem fuel fresh (r.bytes ++ more) = some e)
    (trace : decodeOffsets mem fuel (append fresh (r.bytes ++ more)) =
      GRP_HEADER_SIZE :: (r.byteCount + 16) :: later) : False := by
  have range : r.byteCount < 2 ^ 16 := r.range
  have idle : decodes (append fresh (r.bytes ++ more)) = false := decodes_idle rfl
  cases fuel with
  | zero => cases trace
  | succ fuel =>
    by_cases goes : ∃ s₁, pass mem (append fresh (r.bytes ++ more)) = some (.next s₁)
    · obtain ⟨s₁, first⟩ := goes
      rcases first_step first with rfl | read
      · rw [nextString, iterate_none_of_fixed first] at returns
        cases returns
      · rw [decodeOffsets_next first, idle, if_neg Bool.false_ne_true, List.nil_append] at trace
        cases fuel with
        | zero => cases trace
        | succ fuel =>
          cases now : decodes s₁ with
          | false =>
            have waits : pass mem s₁ = _ := pass_waits read.buffering now
            rw [decodeOffsets_last (fun s₂ step => by rw [waits] at step; cases step), now, if_neg Bool.false_ne_true]
              at trace
            cases trace
          | true =>
            by_cases goes : ∃ s₂, pass mem s₁ = some (.next s₂)
            · obtain ⟨s₂, step⟩ := goes
              rw [decodeOffsets_next step, now, if_pos rfl, List.singleton_append] at trace
              obtain ⟨_, tail⟩ := List.cons.inj trace
              obtain ⟨bar, high, low, stands⟩ := exists_stands s₁.buffer.data.length
              have past := read.past second now stands high (by omega) step
              have elsewhere : (decodeOffsets mem fuel s₂).head? ≠ some (r.byteCount + 16) :=
                past.trace stands (by omega) (by omega) fuel
              apply elsewhere
              rw [tail]
              rfl
            · rw [decodeOffsets_last fun s₂ step => goes ⟨s₂, step⟩, now, if_pos rfl] at trace
              simp at trace
    · rw [decodeOffsets_last fun s₁ step => goes ⟨s₁, step⟩, idle, if_neg Bool.false_ne_true]
        at trace
      cases trace

/-- A second record laid right behind the first is never decoded at its own place. -/
theorem not_sends (r₁ r₂ : Record mem) (rest : List (Record mem)) :
    ¬ SendsAll (r₁ :: r₂ :: rest) := by
  rintro ⟨fuel, e, returns, _, trace⟩
  have content : padded (r₁ :: r₂ :: rest) = r₁.bytes ++ (stream (r₂ :: rest) ++
      zeros ((stream (r₁ :: r₂ :: rest)).length + 16)) := by
    rw [padded]
    conv_lhs => rw [stream, List.flatMap_cons]
    rw [List.append_assoc]
    rfl
  have offsets : payloadOffsets 0 (r₁ :: r₂ :: rest) =
      GRP_HEADER_SIZE :: (r₁.byteCount + 16) ::
        payloadOffsets (r₁.bytes.length + r₂.bytes.length) rest := by
    simp only [payloadOffsets, Nat.zero_add, r₁.length_bytes, GRP_HEADER_SIZE]
    rw [Nat.add_comm 8 r₁.byteCount]
  rw [content, offsets] at trace
  rw [content] at returns
  have second : GRP_HEADER_SIZE ≤ (stream (r₂ :: rest) ++
      zeros ((stream (r₁ :: r₂ :: rest)).length + 16)).length := by
    simp only [List.length_append, length_zeros, GRP_HEADER_SIZE]
    omega
  generalize stream (r₂ :: rest) ++ zeros ((stream (r₁ :: r₂ :: rest)).length + 16) = more at *
  generalize payloadOffsets (r₁.bytes.length + r₂.bytes.length) rest = later at trace
  exact skips_second second returns trace

end Several

/-- The record `pulseRecord`. -/
def pulse : Record zeroMemory where
  group := .grp10003
  payload := zeros 32
  footer := zeros 4
  containers := [.grp10003 {}]
  footer_length := rfl
  range := by decide
  complete := Local.consumes rfl rfl rfl

/-- Exactly the empty list and single records are sent completely, each record from its own
place: behind every record the decoder goes on inside the next. -/
theorem sends_all_iff {mem : Nat → UInt8} (records : List (Record mem)) :
    SendsAll records ↔ records.length ≤ 1 := by
  match records with
  | [] => exact iff_of_true sends_nil (Nat.zero_le 1)
  | [r] => exact iff_of_true (sends_single r) (Nat.le_refl 1)
  | r₁ :: r₂ :: rest =>
    apply iff_of_false (not_sends r₁ r₂ rest)
    simp only [List.length_cons]
    omega

set_option maxRecDepth 8000 in
/-- Of two records only the first is sent. -/
theorem loses_second_record : ¬ ∀ (mem : Nat → UInt8) (records : List (Record mem)),
    ∃ fuel e, nextString mem fuel fresh (padded records) = some e ∧
      e.conference = records.flatMap Record.containers := by
  intro always
  obtain ⟨fuel, e, returns, sent⟩ := always zeroMemory [pulse, pulse]
  have eval : (feed zeroMemory 60 fresh [padded [pulse, pulse]]).any
      (fun d => d.conference = [.grp10003 {}]) = true := by decide +kernel
  obtain ⟨d, run, only⟩ := Run.of_eval eval
  have same := run.unique (.call fuel .fresh returns)
  rw [← same, of_decide_eq_true only] at sent
  cases sent

end OpendlvCore.Applanix
