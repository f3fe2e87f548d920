import OpendlvCore.Applanix.Compaction

/-!
# The size of the Applanix buffer

A call leaves its loop when less than a header or less than the pending payload is left
behind twice `m_toRemove`; a late `m_toRemove` then cuts the buffer at the get position. Both
together keep what a call leaves behind near the half of what it found, so that the buffer
stays below a fixed size as long as the chunks do.
-/
namespace OpendlvCore.Applanix
open CStream CBytes CLoop

/-! ## A pass writes nothing -/

section Content
variable (mem : Nat → UInt8) (payloadSize : Nat)

instance (size : Nat) : KeepsData (readLE size) := by unfold readLE; infer_instance
instance : KeepsData readU8 := by unfold readU8; infer_instance
instance : KeepsData readU16 := by unfold readU16; infer_instance
instance : KeepsData readU32 := by unfold readU32; infer_instance
instance : KeepsData readU64 := by unfold readU64; infer_instance
instance : KeepsData getTimeDistance := by unfold getTimeDistance; infer_instance
instance : KeepsData getGRP1 := by unfold getGRP1; infer_instance
instance : KeepsData getGRP2 := by unfold getGRP2; infer_instance
instance : KeepsData getGNSSReceiverChannelStatus := by
  unfold getGNSSReceiverChannelStatus; infer_instance
instance (list : List GNSSReceiverChannelStatus) : KeepsData (addChannelStatus list) := by
  unfold addChannelStatus; infer_instance
instance : KeepsData getGRP3 := by unfold getGRP3; infer_instance
instance : KeepsData (getGRP4 mem) := by unfold getGRP4; infer_instance
instance (u : Unit) : KeepsData (readPadding u) := by unfold readPadding; infer_instance
instance : KeepsData (getGRP10001 mem payloadSize) := by unfold getGRP10001; infer_instance
instance : KeepsData (getGRP10002 mem payloadSize) := by unfold getGRP10002; infer_instance
instance : KeepsData getGRP10003 := by unfold getGRP10003; infer_instance
instance : KeepsData (getGRP10009 mem payloadSize) := by unfold getGRP10009; infer_instance
instance : KeepsData (readGrpHdr mem) := by unfold readGrpHdr; infer_instance

instance readGroup_keepsData (group : Group) : KeepsData (readGroup mem group payloadSize) := by
  cases group <;> unfold readGroup <;> infer_instance

variable {mem : Nat → UInt8} {d e : Decoder}

theorem sendGroup_data (run : sendGroup mem d = some e) : e.buffer.data = d.buffer.data := by
  unfold sendGroup at run
  split at run
  · cases run
    rfl
  · obtain ⟨⟨containers, s⟩, read, rest⟩ := Option.bind_eq_some_iff.mp run
    cases rest
    exact KeepsData.keeps _ _ _ read

theorem decodeStage_data (run : decodeStage mem d = some e) : e.buffer.data = d.buffer.data := by
  unfold decodeStage at run
  split at run
  · obtain ⟨f, sent, rest⟩ := Option.bind_eq_some_iff.mp run
    cases rest
    exact (sendGroup_data sent).trans (StringStream.seekg_data _)
  · cases run
    rfl

theorem prepareReadingBuffer_data (run : prepareReadingBuffer d = some e) :
    e.buffer.data = d.buffer.data := by
  unfold prepareReadingBuffer at run
  split at run
  · obtain ⟨⟨payloadSize, s⟩, read, rest⟩ := Option.bind_eq_some_iff.mp run
    cases rest
    exact KeepsData.keeps _ _ _ read
  · cases run
    rfl

theorem decodeHeader_data (run : decodeHeader mem d = some e) : e.buffer.data = d.buffer.data := by
  unfold decodeHeader at run
  obtain ⟨⟨hdr, s⟩, read, rest⟩ := Option.bind_eq_some_iff.mp run
  have here : s.data = d.buffer.data :=
    (KeepsData.keeps _ _ _ read).trans (StringStream.seekg_data _)
  dsimp only at rest
  split at rest
  · obtain ⟨f, prepared, rest⟩ := Option.bind_eq_some_iff.mp rest
    cases rest
    exact (prepareReadingBuffer_data prepared).trans here
  · cases rest
    exact here

theorem headerStage_data (run : headerStage mem d = some e) : e.buffer.data = d.buffer.data := by
  unfold headerStage at run
  split at run
  · exact decodeHeader_data run
  · cases run
    rfl

/-- Whatever a pass does, the content of the buffer stays. -/
theorem pass_data (step : pass mem d = some (.next e)) : e.buffer.data = d.buffer.data := by
  unfold pass at step
  split at step
  · split at step
    · cases step
    · obtain ⟨f, decoded, rest⟩ := Option.bind_eq_some_iff.mp step
      obtain ⟨g, tested, rest⟩ := Option.bind_eq_some_iff.mp rest
      cases rest
      exact (headerStage_data tested).trans (decodeStage_data decoded)
  · cases step

end Content

/-! ## Where a call leaves the two positions -/

section Positions
variable {mem : Nat → UInt8} {d s t : Decoder} {data : Bytes}

/-- No reader takes more than a byte count can say. -/
theorem readLength_le {g : Group} {n : Nat} {bs : Bytes} (range : n < 2 ^ 16)
    (ends : LoopsEnd g n bs) : readLength g n bs ≤ 65535 := by
  cases g <;> simp only [readLength, LoopsEnd, GRP_FOOTER_SIZE, SIZE_OF_GNSS] at ends ⊢ <;> omega

/-- While a header is searched, the get position is at most a record behind `m_toRemove`. -/
theorem Visited.gap (visited : Visited mem d data t) (start : Ready d)
    (fits : Fits32 (append d data)) (good : t.buffer.good = true) (idle : t.buffering = false) :
    t.toRemove ≤ t.buffer.gptr + 65539 := by
  rcases visited.last_pass start fits good with rfl | ⟨s, before, step, last, _⟩
  · rw [append_eq start]
    exact Nat.le_add_right _ _
  · cases last with
    | found buffering => simp [idle] at buffering
    | missed _ _ _ remove get => omega
    | @rested g _ decodes _ _ remove get =>
      obtain ⟨ready, _⟩ := before.sound_good start fits decodes.good
      have range := (ready.pending decodes.buffering).2.1
      simp only [GRP_FOOTER_SIZE] at remove
      omega
    | retested _ _ _ remove get => omega

/-- What is known about the two positions where a loop ends. -/
structure Leaves (t : Decoder) : Prop where
  /-- A compacted buffer is little more than half as long. -/
  cut : MAX_BUFFER < t.toRemove →
    2 * (t.buffer.data.length - t.buffer.gptr) ≤ t.buffer.data.length + 65570
  /-- A buffer that is kept is short. -/
  kept : t.buffer.data.length ≤ 2 * t.toRemove + 65543

/-- The loop ends with less than a header, or less than the payload, behind the read position. -/
theorem left_behind (ready : Ready t) (fits : Fits32 t) (leaves : pass mem t = some (.done t)) :
    t.buffer.data.length ≤ t.buffer.gptr + t.toRemove + GRP_HEADER_SIZE ∨
      t.buffering = true ∧ t.buffer.data.length < 2 * t.toRemove + t.payloadSize := by
  have outcome := pass_outcome mem ready fits
  rw [leaves] at outcome
  cases outcome with
  | exits low => exact .inl low
  | waits buffering low => exact .inr ⟨buffering, low⟩

theorem Visited.leaves (visited : Visited mem d data t) (start : Ready d)
    (fits : Fits32 (append d data)) (good : t.buffer.good = true)
    (leaves : pass mem t = some (.done t)) (early : d.toRemove ≤ MAX_BUFFER) : Leaves t := by
  obtain ⟨ready, small⟩ := visited.sound_good start fits good
  have behind := left_behind ready small leaves
  simp only [GRP_HEADER_SIZE] at behind
  cases buffering : t.buffering with
  | true =>
    obtain ⟨here, range, _⟩ := ready.pending buffering
    constructor <;> omega
  | false =>
    simp only [buffering, Bool.false_eq_true, false_and, or_false] at behind
    rcases visited.last_pass start fits good with rfl | ⟨s, before, step, last, same⟩
    · rw [append_eq start] at behind ⊢
      constructor
      · exact fun late => absurd late (Nat.not_lt_of_le early)
      · simp only at behind ⊢
        omega
    · cases last with
      | found other => simp [buffering] at other
      | missed idle _ enter remove get =>
        have gap := before.gap start fits (good_of_pass step) idle
        simp only [GRP_HEADER_SIZE] at enter
        rw [← same] at enter
        constructor <;> omega
      | @rested g _ decodes _ _ remove get =>
        obtain ⟨readyS, _⟩ := before.sound_good start fits decodes.good
        have range := (readyS.pending decodes.buffering).2.1
        have size : consumed s g ≤ 65535 := readLength_le range decodes.ends
        have enough := decodes.enough
        simp only [GRP_FOOTER_SIZE] at remove
        rw [← same] at enough
        constructor <;> omega
      | retested decodes _ _ remove get =>
        obtain ⟨readyS, _⟩ := before.sound_good start fits decodes.good
        have range := (readyS.pending decodes.buffering).2.1
        have enough := decodes.enough
        simp only [GRP_FOOTER_SIZE] at remove get
        rw [← same] at enough
        constructor <;> omega

end Positions

/-! ## Runs -/

section Run
variable {mem : Nat → UInt8} {C : Nat} {chunks : List Bytes} {d e t : Decoder} {data : Bytes}

/-- What every call leaves behind when no chunk is longer than `C`. -/
structure Bounded (C : Nat) (d : Decoder) : Prop where
  ready : d.buffer.good = true → Ready d
  early : d.buffer.good = true → d.toRemove ≤ MAX_BUFFER
  short : d.buffer.good = true → d.buffer.data.length ≤ C + 131100
  length : d.buffer.data.length ≤ 2 * C + 131100

theorem fresh_bounded (C : Nat) : Bounded C fresh :=
  ⟨fun _ => fresh_ready, fun _ => Nat.zero_le _, fun _ => Nat.zero_le _, Nat.zero_le _⟩

/-- A failed stream takes no bytes. -/
theorem append_data_of_not_good (failed : d.buffer.good = false) :
    (append d data).buffer.data = d.buffer.data := by
  unfold append
  rw [StringStream.seekg_data, StringStream.seekpEnd_of_not_good failed, StringStream.write,
    if_neg (by simp [failed])]

theorem append_length_le (bounded : Bounded C d) (size : data.length ≤ C) :
    (append d data).buffer.data.length ≤ 2 * C + 131100 := by
  cases good : d.buffer.good with
  | false =>
    rw [append_data_of_not_good good]
    exact bounded.length
  | true =>
    have short := bounded.short good
    rw [append_eq (bounded.ready good), List.length_append]
    omega

theorem Visited.content (visited : Visited mem d data t) :
    t.buffer.data = (append d data).buffer.data :=
  Visits.invariant (fun u => u.buffer.data = (append d data).buffer.data) visited rfl
    fun _ _ _ same step => (pass_data step).trans same

theorem discard_length {t : Decoder} (ready : Ready t) (late : MAX_BUFFER < t.toRemove)
    (read : 0 < t.buffer.gptr) :
    (discard t).buffer.data.length = t.buffer.data.length - t.buffer.gptr := by
  rw [discard_eq ready late read, List.length_drop]

/-- One call keeps the bounds. -/
theorem bounded_call (small : C ≤ 2 ^ 20) (bounded : Bounded C d) (size : data.length ≤ C)
    {fuel : Nat} (returns : nextString mem fuel d data = some e) : Bounded C e := by
  obtain ⟨t, visited, leaves, rfl⟩ := nextString_some returns
  have whole := append_length_le bounded size
  have content : t.buffer.data.length ≤ 2 * C + 131100 := by rwa [visited.content]
  cases good : t.buffer.good with
  | false =>
    rw [discard_not_good good]
    exact ⟨fun fine => by simp [good] at fine, fun fine => by simp [good] at fine,
      fun fine => by simp [good] at fine, content⟩
  | true =>
    have start := visited.start_good good
    have ready := bounded.ready start
    have fits : Fits32 (append d data) := by
      simp only [Fits32, GRP_HEADER_SIZE]
      omega
    obtain ⟨readyT, _⟩ := visited.sound_good ready fits good
    have ends := visited.leaves ready fits good leaves (bounded.early start)
    by_cases late : MAX_BUFFER < t.toRemove
    · have get := visited.get_pos ready fits good (Nat.zero_lt_of_lt late)
      have length := discard_length readyT late get
      have cut := ends.cut late
      have removed : (discard t).toRemove = 0 := by rw [discard_eq readyT late get]
      exact ⟨fun _ => discard_ready readyT, fun _ => removed.trans_le (Nat.zero_le _),
        fun _ => by omega, by omega⟩
    · have kept := ends.kept
      have early := Nat.le_of_not_lt late
      rw [discard_id fun compacts => late compacts.2]
      simp only [MAX_BUFFER] at early
      exact ⟨fun _ => readyT, fun _ => early, fun _ => by omega, content⟩

theorem Run.bounded (small : C ≤ 2 ^ 20) (run : Run mem chunks d)
    (sizes : ∀ data ∈ chunks, data.length ≤ C) : Bounded C d := by
  induction run with
  | fresh => exact fresh_bounded C
  | @call chunks d e data fuel _ returns ih =>
    have before := ih fun chunk there => sizes chunk (List.mem_append_left _ there)
    exact bounded_call small before (sizes data (by simp)) returns

/-- However many chunks of at most `C` bytes have come and whatever they held, a call that returns
leaves at most `2 * C + 200000` bytes in the buffer. -/
theorem buffer_stays_bounded (small : C ≤ 2 ^ 20) (run : Run mem chunks d)
    (sizes : ∀ data ∈ chunks, data.length ≤ C) : d.buffer.data.length ≤ 2 * C + 200000 := by
  have bounded := (run.bounded small sizes).length
  omega

/-- A record in two chunks. -/
theorem buffer_stays_bounded_split : ∃ d,
    Run zeroMemory [pulseRecord.take 20, pulseRecord.drop 20] d ∧
      d.buffer.data.length ≤ 2 * 24 + 200000 := by
  have sizes : ∀ data ∈ [pulseRecord.take 20, pulseRecord.drop 20], data.length ≤ 24 := by decide
  have fed : (feed zeroMemory 60 fresh [pulseRecord.take 20, pulseRecord.drop 20]).any
      (fun _ => true) = true := by decide +kernel
  obtain ⟨d, run, -⟩ := Run.of_eval fed
  exact ⟨d, run, buffer_stays_bounded (by decide) run sizes⟩

end Run

end OpendlvCore.Applanix
