import OpendlvCore.Applanix.StreamHealth
import OpendlvCore.Applanix.Framing

/-!
# Chunk boundaries and the Applanix decoder

Without compaction the decoder walks one path through the delivered stream, however
it is cut: from a header over its record, from any other offset to the next. `scanPass`
is that walk on the whole stream, up to the first record that the wait conditions hold
back. Two runs over the same bytes are on one path, and neither stops before the other.
-/
namespace OpendlvCore.Applanix
open CStream CBytes CLoop

/-- The wait conditions let a record at this offset through when `size` bytes are there. -/
def Passes (offset byteCount size : Nat) : Prop :=
  2 * (offset + GRP_HEADER_SIZE) + GRP_HEADER_SIZE < size ∧
    2 * (offset + GRP_HEADER_SIZE) + byteCount ≤ size

instance (offset byteCount size : Nat) : Decidable (Passes offset byteCount size) := by
  unfold Passes
  infer_instance

/-- One step through the stream, with the containers sent so far. -/
def scanPass (mem : Nat → UInt8) (stream : Bytes) (size : Nat) :
    Nat × List Container → Option (Flow (Nat × List Container))
  | (offset, sent) =>
    match headerAt stream offset with
    | none => some (.next (offset + 1, sent))
    | some (group, byteCount) =>
      if Passes offset byteCount size then
        (readGroup mem group byteCount { data := stream.drop (offset + GRP_HEADER_SIZE) }).map
          fun (containers, _) => .next
            (offset + GRP_HEADER_SIZE + byteCount + GRP_FOOTER_SIZE, sent ++ containers)
      else some (.done (offset, sent))

section Scan
variable {mem : Nat → UInt8} {stream : Bytes} {size size' : Nat}
  {a b : Nat × List Container} {g : Group} {n : Nat}

theorem scanPass_misses (other : headerAt stream a.1 = none) :
    scanPass mem stream size a = some (.next (a.1 + 1, a.2)) := by
  simp only [scanPass, other]

theorem scanPass_reads {containers : List Container} {payload rest : Bytes}
    (header : headerAt stream a.1 = some (g, n)) (passes : Passes a.1 n size)
    (here : stream.drop (a.1 + GRP_HEADER_SIZE) = payload ++ rest)
    (consumes : Consumes (readGroup mem g n) payload containers) :
    scanPass mem stream size a =
      some (.next (a.1 + GRP_HEADER_SIZE + n + GRP_FOOTER_SIZE, a.2 ++ containers)) := by
  have read := consumes { data := stream.drop (a.1 + GRP_HEADER_SIZE) } rest rfl here
  simp only [scanPass, header, if_pos passes, read, Option.map_some]

/-- Everything one step of the walk can be. -/
theorem scanPass_next (step : scanPass mem stream size a = some (.next b)) :
    (headerAt stream a.1 = none ∧ b = (a.1 + 1, a.2)) ∨
      ∃ g n containers, headerAt stream a.1 = some (g, n) ∧ Passes a.1 n size ∧
        b = (a.1 + GRP_HEADER_SIZE + n + GRP_FOOTER_SIZE, a.2 ++ containers) := by
  obtain ⟨offset, sent⟩ := a
  cases header : headerAt stream offset with
  | none =>
    rw [scanPass_misses header] at step
    cases step
    exact .inl ⟨rfl, rfl⟩
  | some found =>
    obtain ⟨g, n⟩ := found
    simp only [scanPass, header] at step
    split at step
    · rename_i passes
      obtain ⟨⟨containers, s⟩, _, result⟩ := Option.map_eq_some_iff.mp step
      cases result
      exact .inr ⟨g, n, containers, rfl, passes, rfl⟩
    · cases step

theorem scanPass_held (header : headerAt stream a.1 = some (g, n)) (held : ¬ Passes a.1 n size) :
    scanPass mem stream size a = some (.done a) := by
  simp only [scanPass, header, if_neg held]

/-- More bytes only let more records through. -/
theorem scanPass_grows (more : size ≤ size') (step : scanPass mem stream size a = some (.next b)) :
    scanPass mem stream size' a = some (.next b) := by
  rcases scanPass_next step with ⟨other, rfl⟩ | ⟨g, n, containers, header, passes, rfl⟩
  · exact scanPass_misses other
  · have still : Passes a.1 n size' :=
      ⟨Nat.lt_of_lt_of_le passes.1 more, Nat.le_trans passes.2 more⟩
    simp only [scanPass, header, if_pos passes] at step
    simp only [scanPass, header, if_pos still]
    exact step

theorem scan_grows (more : size ≤ size') (visited : Visits (scanPass mem stream size) a b) :
    Visits (scanPass mem stream size') a b := by
  induction visited with
  | start => exact .start
  | pass _ step ih => exact .pass ih (scanPass_grows more step)

/-- A walk that sends something passes a record that is not held back. -/
theorem scan_sends (visited : Visits (scanPass mem stream size) a b) :
    a.1 ≤ b.1 ∧ (b.2 = a.2 ∨ ∃ offset n, a.1 ≤ offset ∧ Passes offset n size) := by
  induction visited with
  | start => exact ⟨Nat.le_refl _, .inl rfl⟩
  | @pass b c _ step ih =>
    obtain ⟨behind, before⟩ := ih
    rcases scanPass_next step with ⟨_, rfl⟩ | ⟨g, n, containers, _, passes, rfl⟩
    · exact ⟨Nat.le_succ_of_le behind, before⟩
    · refine ⟨?_, .inr ⟨b.1, n, behind, passes⟩⟩
      change a.1 ≤ b.1 + GRP_HEADER_SIZE + n + GRP_FOOTER_SIZE
      omega

end Scan

/-! ## The decoder on the walk -/

/-- The pass from here keeps to the bytes that are there, leaves the get position at most
16 bytes behind `toRemove`, and no compaction follows it. -/
def Steady (d : Decoder) : Prop :=
  Inside d ∧
    (∀ g, Decoding d g → consumed d g ≤ d.payloadSize + GRP_FOOTER_SIZE + 2 * GRP_HEADER_SIZE) ∧
    ¬ Compacts d

instance (d : Decoder) : Decidable (Steady d) := by
  unfold Steady Inside Compacts Retests HeaderFits
  infer_instance

/-- The decoder has received `size` bytes of the stream and stands on the walk. -/
structure OnWalk (mem : Nat → UInt8) (stream : Bytes) (size : Nat) (d : Decoder) : Prop where
  ready : Ready d
  bound : size ≤ stream.length
  content : d.buffer.data = stream.take size
  searching : d.buffering = false →
    Visits (scanPass mem stream size) (0, []) (d.toRemove, d.conference) ∧
      d.buffer.gptr ≤ d.toRemove + 2 * GRP_HEADER_SIZE
  pending : d.buffering = true → ∃ offset g, d.toRemove = offset + GRP_HEADER_SIZE ∧
    headerAt stream offset = some (g, d.payloadSize) ∧ d.nextApplanixMessage = some g ∧
    Visits (scanPass mem stream size) (0, []) (offset, d.conference)

section Walk
variable {mem : Nat → UInt8} {stream : Bytes} {size : Nat} {d e : Decoder} {g : Group}
  {containers : List Container}

/-- Six octets that announce no group make no header, whatever follows. -/
theorem headerAt_none {data more : Bytes} {offset : Nat} (six : offset + 6 ≤ data.length)
    (other : startsGroup (data.drop offset) = none) : headerAt (data ++ more) offset = none := by
  have start : ((data ++ more).drop offset).take 4 = (data.drop offset).take 4 := by
    rw [List.drop_append_of_le_length (by omega), List.take_append_of_le_length]
    rw [List.length_drop]
    omega
  have number : (((data ++ more).drop offset).drop 4).take 2 = ((data.drop offset).drop 4).take 2 := by
    rw [List.drop_drop, List.drop_drop, List.drop_append_of_le_length (by omega),
      List.take_append_of_le_length]
    rw [List.length_drop]
    omega
  have same : startsGroup ((data ++ more).drop offset) = none := by
    rw [← other, startsGroup, startsGroup, start, number]
  rw [headerAt, same]
  split <;> rfl

theorem take_append_more (bound : size ≤ stream.length) (content : d.buffer.data = stream.take size) :
    stream = d.buffer.data ++ stream.drop size ∧ d.buffer.data.length = size := by
  constructor
  · rw [content, List.take_append_drop]
  · rw [content, List.length_take]
    omega

/-- The header test takes the walk's next step, or finds where it stands. -/
theorem onWalk_of_test (bound : size ≤ stream.length) (content : d.buffer.data = stream.take size)
    (visits : Visits (scanPass mem stream size) (0, []) (d.toRemove, d.conference))
    (idle : d.buffering = false) (fits : Fits32 d) (test : HeaderTest d e) (ready : Ready e) :
    OnWalk mem stream size e := by
  obtain ⟨split, _⟩ := take_append_more bound content
  simp only [Fits32, GRP_HEADER_SIZE] at fits
  cases test with
  | @found g n header =>
    have inside := (headerAt_some header).1
    have moved : (headerFound d g n).toRemove = d.toRemove + GRP_HEADER_SIZE := by
      simp only [headerFound, add32, GRP_HEADER_SIZE] at inside ⊢
      omega
    refine ⟨ready, bound, content, fun searches => (by cases searches), fun _ => ⟨d.toRemove, g, moved, ?_, rfl, visits⟩⟩
    rw [split]
    exact headerAt_append header
  | missed six other =>
    have moved : (headerMissed d).toRemove = d.toRemove + 1 := by
      simp only [headerMissed, add32]
      omega
    refine ⟨ready, bound, content, fun _ => ⟨?_, ?_⟩, fun buffering => ?_⟩
    · rw [moved]
      apply Visits.pass visits
      apply scanPass_misses
      rw [split]
      exact headerAt_none six other
    · rw [moved]
      simp only [headerMissed, StringStream.getAt_gptr, GRP_HEADER_SIZE]
      omega
    · change d.buffering = true at buffering
      rw [idle] at buffering
      cases buffering
  | fails _ failed _ =>
    rw [ready.good] at failed
    cases failed

/-- Decoding takes the step over the record. -/
theorem OnWalk.decode (walk : OnWalk mem stream size d) (fits : Fits32 d)
    (decodes : Decodes mem d g containers) :
    Visits (scanPass mem stream size) (0, [])
      ((decoded d containers (consumed d g)).toRemove, d.conference ++ containers) := by
  obtain ⟨split, length⟩ := take_append_more walk.bound walk.content
  obtain ⟨offset, g', position, header, next, visits⟩ := walk.pending decodes.buffering
  cases Option.some.inj (decodes.next.symm.trans next)
  have enter := decodes.enter
  have enough := decodes.enough
  have passes : Passes offset d.payloadSize size := by
    rw [length, position] at enter enough
    exact ⟨enter, enough⟩
  have here : stream.drop (offset + GRP_HEADER_SIZE) =
      (pendingBytes d).take (consumed d g) ++
        ((pendingBytes d).drop (consumed d g) ++ stream.drop size) := by
    rw [← List.append_assoc, List.take_append_drop, pendingBytes, ← position]
    conv_lhs => rw [split]
    rw [List.drop_append_of_le_length (by omega)]
  rw [toRemove_decoded fits decodes.toDecoding, position]
  exact .pass visits (scanPass_reads header passes here decodes.consumes)

/-- One steady pass stays on the walk. -/
theorem OnWalk.step (walk : OnWalk mem stream size d) (fits : Fits32 d) (steady : Steady d)
    (step : pass mem d = some (.next e)) : OnWalk mem stream size e := by
  have good := pass_good_of_inside walk.ready fits steady.1 step
  have ready : Ready e := by
    rcases (pass_ready walk.ready fits step).2 with ⟨ready, _⟩ | failed
    · exact ready
    · rw [good] at failed
      cases failed
  have outcome := pass_outcome mem walk.ready fits
  rw [step] at outcome
  cases outcome with
  | searches idle _ test =>
    exact onWalk_of_test walk.bound walk.content (walk.searching idle).1 idle fits test ready
  | overruns _ _ _ failed =>
    rw [good] at failed
    cases failed
  | @rests g containers decodes _ =>
    refine ⟨ready, walk.bound, walk.content, fun _ => ⟨walk.decode fits decodes, ?_⟩, nofun⟩
    have near := steady.2.1 _ decodes.toDecoding
    rw [toRemove_decoded fits decodes.toDecoding]
    change d.toRemove + consumed d g ≤ _
    omega
  | @retests g containers _ decodes _ test =>
    exact onWalk_of_test (d := decoded d containers (consumed d g)) walk.bound walk.content
      (walk.decode fits decodes) rfl fits test ready

theorem OnWalk.append {data : Bytes} (walk : OnWalk mem stream size d)
    (bound : size + data.length ≤ stream.length)
    (content : d.buffer.data ++ data = stream.take (size + data.length)) :
    OnWalk mem stream (size + data.length) (append d data) := by
  have ready : Ready (Applanix.append d data) := append_ready walk.ready
  rw [append_eq walk.ready] at ready ⊢
  have more : size ≤ size + data.length := Nat.le_add_right _ _
  refine ⟨ready, bound, content, fun idle => ⟨?_, Nat.le_add_right _ _⟩, fun buffering => ?_⟩
  · exact scan_grows more (walk.searching idle).1
  · obtain ⟨offset, g, position, header, next, visits⟩ := walk.pending buffering
    exact ⟨offset, g, position, header, next, scan_grows more visits⟩

/-- Where a call ends with everything delivered, the walk sends nothing more. -/
theorem OnWalk.stuck (walk : OnWalk mem stream stream.length d) (fits : Fits32 d)
    (leaves : pass mem d = some (.done d)) :
    ∃ offset, Visits (scanPass mem stream stream.length) (0, []) (offset, d.conference) ∧
      ∀ b, Visits (scanPass mem stream stream.length) (offset, d.conference) b →
        b.2 = d.conference := by
  have length : d.buffer.data.length = stream.length :=
    (take_append_more walk.bound walk.content).2
  have outcome := pass_outcome mem walk.ready fits
  rw [leaves] at outcome
  cases buffering : d.buffering with
  | true =>
    obtain ⟨offset, g, position, header, _, visits⟩ := walk.pending buffering
    have here := (walk.ready.pending buffering).1
    have held : ¬ Passes offset d.payloadSize stream.length := by
      intro passes
      simp only [Passes, GRP_HEADER_SIZE] at passes position
      cases outcome with
      | exits low =>
        simp only [GRP_HEADER_SIZE] at low
        omega
      | waits _ low => omega
    refine ⟨offset, visits, fun b further => ?_⟩
    rw [Visits.of_done (scanPass_held (a := (offset, d.conference)) header held) further]
  | false =>
    obtain ⟨visits, near⟩ := walk.searching buffering
    refine ⟨d.toRemove, visits, fun b further => ?_⟩
    rcases (scan_sends further).2 with same | ⟨offset, n, behind, passes⟩
    · exact same
    · change d.toRemove ≤ offset at behind
      simp only [Passes, GRP_HEADER_SIZE] at passes near
      cases outcome with
      | exits low =>
        simp only [GRP_HEADER_SIZE] at low
        omega
      | waits waiting _ =>
        rw [buffering] at waiting
        cases waiting

end Walk

section Run
variable {mem : Nat → UInt8} {chunks chunks₁ chunks₂ : List Bytes} {d d₁ d₂ : Decoder}

theorem fresh_onWalk (stream : Bytes) : OnWalk mem stream 0 fresh where
  ready := fresh_ready
  bound := Nat.zero_le _
  content := rfl
  searching := fun _ => ⟨.start, Nat.zero_le _⟩
  pending := nofun

/-- A steady run ends on the walk through any continuation of what it received. -/
theorem Run.onWalk (run : Run mem chunks d) (small : SmallBuffers mem chunks)
    (steady : EveryPass mem Steady chunks) (later : Bytes) :
    OnWalk mem (chunks.flatten ++ later) chunks.flatten.length d ∧ Fits32 d ∧
      pass mem d = some (.done d) := by
  induction run generalizing later with
  | fresh =>
    have fits : Fits32 Applanix.fresh := by
      change 2 * 0 + 8 < 2 ^ 32
      decide
    exact ⟨fresh_onWalk later, fits, rfl⟩
  | @call chunks d e data fuel before returns ih =>
    obtain ⟨walk, _, _⟩ := ih small.init steady.init (data ++ later)
    have fits := small.last before walk.ready.good
    have content : d.buffer.data = chunks.flatten := by
      rw [walk.content, List.take_left]
    have whole : (chunks ++ [data]).flatten ++ later = chunks.flatten ++ (data ++ later) := by
      simp
    have size : (chunks ++ [data]).flatten.length = chunks.flatten.length + data.length := by
      simp
    rw [whole, size]
    have start : OnWalk mem (chunks.flatten ++ (data ++ later))
        (chunks.flatten.length + data.length) (append d data) := by
      apply walk.append
      · simp only [List.length_append]
        omega
      · rw [content, ← List.length_append, ← List.append_assoc, List.take_left]
    obtain ⟨t, visited, leaves, rfl⟩ := nextString_some returns
    have last : OnWalk mem (chunks.flatten ++ (data ++ later))
        (chunks.flatten.length + data.length) t := by
      refine Visits.invariant _ visited start ?_
      intro a b reached onWalk step
      have fitsA := fits.of_data (onWalk.content.trans start.content.symm)
      exact onWalk.step fitsA (steady.last before reached) step
    have keeps : discard t = t :=
      discard_id fun compact => (steady.last before visited).2.2 ⟨leaves_of_done leaves, compact⟩
    rw [keeps]
    exact ⟨last, fits.of_data (last.content.trans start.content.symm), leaves⟩

/-- Two ways of cutting the same bytes send the same containers, as long as no pass of
either reads past what is there or is followed by compaction. -/
theorem same_containers (run₁ : Run mem chunks₁ d₁) (run₂ : Run mem chunks₂ d₂)
    (small₁ : SmallBuffers mem chunks₁) (small₂ : SmallBuffers mem chunks₂)
    (steady₁ : EveryPass mem Steady chunks₁) (steady₂ : EveryPass mem Steady chunks₂)
    (same : chunks₁.flatten = chunks₂.flatten) : d₁.conference = d₂.conference := by
  obtain ⟨walk₁, fits₁, leaves₁⟩ := run₁.onWalk small₁ steady₁ []
  obtain ⟨walk₂, fits₂, leaves₂⟩ := run₂.onWalk small₂ steady₂ []
  rw [List.append_nil] at walk₁ walk₂
  rw [← same] at walk₂
  obtain ⟨offset₁, visits₁, last₁⟩ := walk₁.stuck fits₁ leaves₁
  obtain ⟨offset₂, visits₂, last₂⟩ := walk₂.stuck fits₂ leaves₂
  rcases visits₁.linear visits₂ with ahead | behind
  · exact (last₁ _ ahead).symm
  · exact last₂ _ behind

end Run

set_option maxRecDepth 4000 in
theorem same_containers_pulse : ∃ d₁ d₂, Run zeroMemory [pulseRecord ++ zeros 30] d₁ ∧
    Run zeroMemory [pulseRecord.take 20, pulseRecord.drop 20 ++ zeros 30] d₂ ∧
      d₁.conference = [.grp10003 {}] ∧ d₁.conference = d₂.conference := by
  have eval₁ : (feed zeroMemory 60 fresh [pulseRecord ++ zeros 30]).any
      (fun d => d.conference = [.grp10003 {}]) = true := by decide +kernel
  have eval₂ : (feed zeroMemory 60 fresh [pulseRecord.take 20, pulseRecord.drop 20 ++ zeros 30]).any
      (fun d => d.buffer.good) = true := by decide +kernel
  obtain ⟨d₁, run₁, sent₁⟩ := Run.of_eval eval₁
  obtain ⟨d₂, run₂, _⟩ := Run.of_eval eval₂
  have same := same_containers run₁ run₂ (.of_length (by decide)) (.of_length (by decide))
    (EveryPass.of_eval 60 (by decide +kernel) (by decide +kernel))
    (EveryPass.of_eval 60 (by decide +kernel) (by decide +kernel)) (by decide)
  exact ⟨d₁, d₂, run₁, run₂, of_decide_eq_true sent₁, same⟩

/-- Two records with the four bytes between them that the decoder skips, and zeros. -/
def twoRecords : Bytes := pulseRecord ++ zeros 4 ++ pulseRecord ++ zeros 120

set_option maxRecDepth 8000 in
/-- Delivered at once both records are sent; cut inside the second header the decoder is
deaf after the first. -/
theorem chunks_matter : ¬ ∀ mem chunks₁ chunks₂ d₁ d₂, Run mem chunks₁ d₁ → Run mem chunks₂ d₂ →
    chunks₁.flatten = chunks₂.flatten → d₁.conference = d₂.conference := by
  intro always
  have eval₁ : (feed zeroMemory 120 fresh [twoRecords]).any
      (fun d => d.conference = [.grp10003 {}, .grp10003 {}]) = true := by decide +kernel
  have eval₂ : (feed zeroMemory 120 fresh [twoRecords.take 52, twoRecords.drop 52]).any
      (fun d => d.conference = [.grp10003 {}]) = true := by decide +kernel
  obtain ⟨d₁, run₁, sent₁⟩ := Run.of_eval eval₁
  obtain ⟨d₂, run₂, sent₂⟩ := Run.of_eval eval₂
  have same := always _ _ _ d₁ d₂ run₁ run₂ (by decide)
  rw [of_decide_eq_true sent₁, of_decide_eq_true sent₂] at same
  cases same

end OpendlvCore.Applanix
