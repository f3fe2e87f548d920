import OpendlvCore.Applanix.Framing

/-!
# Compaction of the Applanix buffer

After a call the search goes on at `m_toRemove`, but a buffer whose consumed part is
discarded is cut at the get position. Where that is depends on the last pass of the
main loop: behind the octets of a failed header test it lies 5 bytes further, behind a
record usually 8 bytes earlier.
-/
namespace OpendlvCore.Applanix
open CStream CBytes CLoop

/-- Where a pass that leaves the stream good leaves the two positions. -/
inductive PassEnd (mem : Nat → UInt8) (s t : Decoder) : Prop
  | found : t.buffering = true → PassEnd mem s t
  | missed : s.buffering = false → t.buffering = false →
      s.buffer.gptr + s.toRemove + GRP_HEADER_SIZE < s.buffer.data.length →
      t.toRemove = s.toRemove + 1 → t.buffer.gptr = s.toRemove + 6 → PassEnd mem s t
  | rested {g : Group} {containers : List Container} : Decodes mem s g containers →
      ¬ Retests s g → t.buffering = false →
      t.toRemove = s.toRemove + s.payloadSize + GRP_FOOTER_SIZE →
      t.buffer.gptr = s.toRemove + consumed s g → PassEnd mem s t
  | retested {g : Group} {containers : List Container} : Decodes mem s g containers →
      Retests s g → t.buffering = false →
      t.toRemove = s.toRemove + s.payloadSize + GRP_FOOTER_SIZE + 1 →
      t.buffer.gptr = s.toRemove + s.payloadSize + GRP_FOOTER_SIZE + 6 → PassEnd mem s t

/-- The new content is the old one from `m_toRemove` on, the search starts at its
beginning, and what is known about a pending header stays. -/
structure LosesNothing (t e : Decoder) : Prop where
  content : e.buffer.data = t.buffer.data.drop t.toRemove
  restarts : e.toRemove = 0
  foundHeader : e.foundHeader = t.foundHeader
  buffering : e.buffering = t.buffering
  payloadSize : e.payloadSize = t.payloadSize
  next : e.nextApplanixMessage = t.nextApplanixMessage

section Positions
variable {mem : Nat → UInt8} {chunks : List Bytes} {d e s t : Decoder} {data : Bytes}

theorem readLength_ge {g : Group} {n : Nat} {bs : Bytes} (ends : LoopsEnd g n bs) :
    26 ≤ readLength g n bs := by
  cases g <;> simp only [readLength, LoopsEnd, GRP_FOOTER_SIZE] at ends ⊢ <;> omega

theorem pass_end (ready : Ready s) (fits : Fits32 s) (step : pass mem s = some (.next t))
    (good : t.buffer.good = true) : PassEnd mem s t := by
  have outcome := pass_outcome mem ready fits
  have small := fits
  simp only [Fits32, GRP_HEADER_SIZE] at small
  rw [step] at outcome
  cases outcome with
  | searches idle enter test =>
    cases test with
    | found => exact .found rfl
    | missed six =>
      refine .missed idle idle enter ?_ rfl
      simp only [headerMissed, add32]
      omega
    | fails _ failed => simp [failed] at good
  | overruns _ _ _ failed => simp [failed] at good
  | rests decodes rests =>
    exact .rested decodes rests rfl (toRemove_decoded fits decodes.toDecoding _ _) rfl
  | @retests g containers _ decodes retests test =>
    have moved := toRemove_decoded fits decodes.toDecoding containers (consumed s g)
    cases test with
    | found => exact .found rfl
    | missed six =>
      rw [moved] at six
      change _ ≤ s.buffer.data.length at six
      apply PassEnd.retested decodes retests rfl
      · simp only [headerMissed, add32, moved]
        omega
      · simp only [headerMissed, StringStream.getAt_gptr, moved]
    | fails _ failed => simp [failed] at good

/-- A state inside a call is its first one or comes from a pass. -/
theorem Visited.last (visited : Visited mem d data t) :
    t = append d data ∨ ∃ s, Visited mem d data s ∧ pass mem s = some (.next t) := by
  cases visited with
  | start => exact .inl rfl
  | pass before step => exact .inr ⟨_, before, step⟩

/-- What the passes of a call can rely on while the stream is good. -/
theorem Visited.sound_good (visited : Visited mem d data t) (start : Ready d)
    (fits : Fits32 (append d data)) (good : t.buffer.good = true) : Ready t ∧ Fits32 t := by
  rcases visited.ready start fits with ⟨ready, same⟩ | failed
  · exact ⟨ready, Visited.fits32 start fits same⟩
  · simp [failed] at good

theorem Visited.last_pass (visited : Visited mem d data t) (start : Ready d)
    (fits : Fits32 (append d data)) (good : t.buffer.good = true) :
    t = append d data ∨
      ∃ s, Visited mem d data s ∧ pass mem s = some (.next t) ∧ PassEnd mem s t ∧
        t.buffer.data = s.buffer.data := by
  rcases visited.last with first | ⟨s, before, step⟩
  · exact .inl first
  · obtain ⟨ready, small⟩ := before.sound_good start fits (good_of_pass step)
    have same := (pass_ready_of_good ready small step good).2
    exact .inr ⟨s, before, step, pass_end ready small step good, same⟩

/-- The get position is behind the start of the buffer once something is removed. -/
theorem Visited.get_pos (visited : Visited mem d data t) (start : Ready d)
    (fits : Fits32 (append d data)) (good : t.buffer.good = true) (removes : 0 < t.toRemove) :
    0 < t.buffer.gptr := by
  obtain ⟨ready, _⟩ := visited.sound_good start fits good
  rcases visited.last_pass start fits good with rfl | ⟨s, _, _, last, _⟩
  · rw [append_eq start] at removes ⊢
    exact removes
  · cases last with
    | found buffering =>
      rw [(ready.pending buffering).1]
      exact removes
    | missed _ _ _ _ get => omega
    | rested decodes _ _ _ get =>
      have size : 26 ≤ consumed s _ := readLength_ge decodes.ends
      omega
    | retested _ _ _ _ get => omega

theorem compacts_of_late (visited : Visited mem d data t) (start : Ready d)
    (fits : Fits32 (append d data)) (good : t.buffer.good = true) (late : MAX_BUFFER < t.toRemove) :
    0 < t.buffer.tellg ∧ MAX_BUFFER < t.toRemove := by
  have get := visited.get_pos start fits good (Nat.zero_lt_of_lt late)
  rw [StringStream.tellg_of_good good]
  exact ⟨Int.natCast_pos.mpr get, late⟩

/-- Between two calls `m_toRemove` is small: beyond `MAX_BUFFER` the buffer is compacted. -/
theorem Run.early (run : Run mem chunks d) (small : SmallBuffers mem chunks)
    (good : d.buffer.good = true) : d.toRemove ≤ MAX_BUFFER := by
  cases run with
  | fresh => exact Nat.zero_le _
  | @call chunks d _ data fuel before returns =>
    have start := good_of_call returns good
    have ready := before.ready small.init start
    have fits := small.last before start
    obtain ⟨t, visited, _, rfl⟩ := nextString_some returns
    by_cases late : MAX_BUFFER < t.toRemove
    · have compacts := compacts_of_late visited ready fits (discard_good_iff.mp good) late
      rw [discard, if_pos compacts]
      exact Nat.zero_le _
    · rw [discard_id fun compacts => late compacts.2]
      exact Nat.le_of_not_lt late

end Positions

section Compaction
variable {mem : Nat → UInt8} {chunks : List Bytes} {d t : Decoder} {data : Bytes}

/-- The cut is made at the get position. -/
theorem losesNothing_iff (ready : Ready t) (compacts : 0 < t.buffer.tellg ∧ MAX_BUFFER < t.toRemove) :
    LosesNothing t (discard t) ↔ t.buffer.gptr = t.toRemove := by
  have get := ready.get
  have remove := ready.remove
  have read : 0 < t.buffer.gptr := by
    have positive := compacts.1
    rw [StringStream.tellg_of_good ready.good] at positive
    omega
  rw [discard_eq ready compacts.2 read]
  constructor
  · intro keeps
    have sizes := congrArg List.length keeps.content
    simp only [List.length_drop] at sizes
    omega
  · intro same
    exact ⟨by rw [same], rfl, rfl, rfl, rfl, rfl⟩

/-- The last pass decoded a record whose reader took `m_payloadSize + GRP_FOOTER_SIZE` bytes, and
tested for no header behind it. -/
def EndsBehindRecord (mem : Nat → UInt8) (d : Decoder) (data : Bytes) (t : Decoder) : Prop :=
  ∃ s g, Visited mem d data s ∧ pass mem s = some (.next t) ∧ Decoding s g ∧ ¬ Retests s g ∧
    consumed s g = s.payloadSize + GRP_FOOTER_SIZE

/-- A call that compacts the buffer loses nothing exactly when it leaves the loop with a header
pending or right behind such a record. -/
theorem compaction_loses_nothing_iff (run : Run mem chunks d)
    (small : SmallBuffers mem (chunks ++ [data])) (visited : Visited mem d data t)
    (compacts : Compacts t) :
    LosesNothing t (discard t) ↔ t.buffering = true ∨ EndsBehindRecord mem d data t := by
  have good : t.buffer.good = true := by
    cases fine : t.buffer.good with
    | true => rfl
    | false =>
      have read := compacts.2.1
      rw [StringStream.tellg_of_not_good fine] at read
      omega
  have start := visited.start_good good
  have begin := run.ready small.init start
  have fits := small.last run start
  obtain ⟨ready, _⟩ := visited.sound_good begin fits good
  rw [losesNothing_iff ready compacts.2]
  constructor
  · intro same
    rcases visited.last_pass begin fits good with rfl | ⟨s, before, step, last, _⟩
    · -- a call that makes no pass finds `m_toRemove` as small as the one before left it
      have early := run.early small.init start
      have late := compacts.2.2
      rw [append_eq begin] at late
      exact absurd late (Nat.not_lt_of_le early)
    · cases last with
      | found buffering => exact .inl buffering
      | missed => omega
      | @rested g _ decodes rests =>
        exact .inr ⟨s, g, before, step, decodes.toDecoding, rests, by omega⟩
      | retested => omega
  · rintro (buffering | ⟨s, g, before, step, decoding, rests, size⟩)
    · exact (ready.pending buffering).1
    · have earlier := decoding.good
      obtain ⟨readyS, fitsS⟩ := before.sound_good begin fits earlier
      cases pass_end readyS fitsS step good with
      | found buffering => exact (ready.pending buffering).1
      | missed idle =>
        rw [decoding.buffering] at idle
        cases idle
      | rested decodes _ _ remove get =>
        cases Option.some.inj (decodes.next.symm.trans decoding.next)
        omega
      | retested decodes retests =>
        cases Option.some.inj (decodes.next.symm.trans decoding.next)
        exact absurd retests rests

end Compaction

/-! ## A long search -/

section Search
variable (mem : Nat → UInt8) (rest : Bytes) {n k : Nat}

theorem startsGroup_zero_cons (bs : Bytes) : startsGroup (0 :: bs) = none := by
  have other : ((0 : UInt8) :: bs).take 4 ≠ GRPSTART := by simp [GRPSTART]
  rw [startsGroup, if_neg other]

/-- The search has skipped the first bytes of the only chunk. -/
structure Skipped (content : Bytes) (k : Nat) (t : Decoder) : Prop extends Ready t where
  idle : t.buffering = false
  content : t.buffer.data = content
  position : t.toRemove = k
  tested : t.buffer.gptr = if k = 0 then 0 else k + 5

/-- Over zeros the search skips byte by byte for about half of the buffer. -/
theorem skips_zeros (size : 2 * (n + rest.length) + GRP_HEADER_SIZE < 2 ^ 32) (inside : k ≤ n)
    (enters : 2 * k + 11 < n + rest.length) :
    ∃ t, Visited mem fresh (zeros n ++ rest) t ∧ Skipped (zeros n ++ rest) k t := by
  have length : (zeros n ++ rest).length = n + rest.length := by simp
  induction k with
  | zero =>
    have ready : Ready (append fresh (zeros n ++ rest)) := append_ready fresh_ready
    refine ⟨_, .start, ?_⟩
    rw [append_fresh] at ready ⊢
    exact ⟨ready, rfl, rfl, rfl, rfl⟩
  | succ k ih =>
    obtain ⟨t, visited, skipped⟩ := ih (by omega) (by omega)
    have fits : Fits32 t := by
      rw [Fits32, skipped.content, length]
      exact size
    have here : t.buffer.data.drop t.toRemove = 0 :: ((zeros (n - k - 1)) ++ rest) := by
      have left : n - k = n - k - 1 + 1 := by omega
      rw [skipped.content, skipped.position, List.drop_append_of_le_length (by simp; omega),
        zeros_drop, left]
      rfl
    have tested := skipped.tested
    have step := pass_misses mem skipped.toReady fits skipped.idle
      (by
        rw [skipped.content, skipped.position, tested, length, GRP_HEADER_SIZE]
        split <;> omega)
      (by
        rw [here]
        exact startsGroup_zero_cons _)
    refine ⟨headerMissed t, .pass visited step.1, step.2, skipped.idle, skipped.content, ?_, ?_⟩
    · simp only [headerMissed, add32, skipped.position]
      simp only [GRP_HEADER_SIZE] at size
      omega
    · simp [headerMissed, skipped.position]

/-- The only call of a run on such a chunk. -/
theorem smallBuffers_zeros (size : 2 * (n + rest.length) + GRP_HEADER_SIZE < 2 ^ 32) :
    SmallBuffers mem ([] ++ [zeros n ++ rest]) :=
  .of_length (by simpa using size)

end Search

/-- 32768 zeros, and a GRP1 header with more bytes to come than follow. -/
def lateHeader : Bytes := GRPSTART ++ (toLE 2 Group.grp1.number ++ (toLE 2 65535 ++ zeros 32800))

theorem compaction_loses_nothing_iff_pending : ∃ t, Visited zeroMemory fresh (zeros 32768 ++ lateHeader) t ∧
    Compacts t ∧ LosesNothing t (discard t) := by
  have size : lateHeader.length = 32808 := by
    rw [lateHeader, List.length_append, List.length_append, List.length_append, length_toLE,
      length_toLE, length_zeros]
    rfl
  obtain ⟨s, before, skipped⟩ := skips_zeros zeroMemory lateHeader (n := 32768) (k := 32768)
    (by rw [size]; decide) (Nat.le_refl _) (by rw [size]; decide)
  have length : s.buffer.data.length = 65576 := by
    rw [skipped.content, List.length_append, size, length_zeros]
  have fits : Fits32 s := by
    rw [Fits32, length]
    decide
  have header : headerAt s.buffer.data s.toRemove = some (.grp1, 65535) := by
    rw [skipped.content, skipped.position, ← Nat.add_zero 32768, ← headerAt_drop,
      List.drop_left' (length_zeros _)]
    exact headerAt_written .grp1 (by decide) _
  have tested : s.buffer.gptr = 32773 := skipped.tested
  obtain ⟨t, step, test⟩ := pass_searches zeroMemory skipped.toReady fits skipped.idle
    (by rw [tested, skipped.position, length]; decide)
  have found := test.eq_found header
  have visited : Visited zeroMemory fresh (zeros 32768 ++ lateHeader) t := .pass before step
  have buffering : t.buffering = true := by rw [found]; rfl
  have remove : t.toRemove = 32776 := by
    rw [found, headerFound, skipped.position]
    rfl
  have good : t.buffer.good = true := by
    rw [found]
    exact skipped.good
  have small := smallBuffers_zeros zeroMemory lateHeader (n := 32768) (by rw [size]; decide)
  have bound := small.last .fresh rfl
  obtain ⟨ready, fitsT⟩ := visited.sound_good fresh_ready bound good
  have same : t.buffer.data.length = 65576 := by rw [found]; exact length
  have payload : t.payloadSize = 65535 := by rw [found]; rfl
  have level := ready.fillLevel_eq fitsT
  rw [(ready.pending buffering).1, remove, same] at level
  have waits : waiting t = true := by
    rw [waiting, buffering, payload, level (by decide)]
    decide
  have compacts : Compacts t := ⟨.inr waits, compacts_of_late visited fresh_ready bound good
    (by rw [remove]; decide)⟩
  exact ⟨t, visited, compacts,
    (compaction_loses_nothing_iff .fresh small visited compacts).mpr (.inl buffering)⟩

/-- A search that stops between two headers drops the bytes of its last test. -/
theorem compaction_drops_bytes : ¬ ∀ mem chunks d data t, Run mem chunks d →
    Visited mem d data t → Compacts t → LosesNothing t (discard t) := by
  intro always
  obtain ⟨t, visited, skipped⟩ := skips_zeros zeroMemory [] (n := 65550) (k := 32769)
    (by decide) (by decide) (by decide)
  have length : t.buffer.data.length = 65550 := by
    rw [skipped.content, List.append_nil, length_zeros]
  have fits : Fits32 t := by
    rw [Fits32, length]
    decide
  have tested : t.buffer.gptr = 32774 := skipped.tested
  have stops : loopCondition t = false := by
    have enters := skipped.toReady.loopCondition_iff fits
    rw [skipped.position, tested, length] at enters
    cases loops : loopCondition t with
    | false => rfl
    | true => exact absurd (enters.mp loops) (by decide)
  have compacts : Compacts t := by
    refine ⟨.inl stops, ?_, ?_⟩
    · rw [StringStream.tellg_of_good skipped.good, tested]
      decide
    · rw [skipped.position]
      decide
  have keeps := always zeroMemory [] fresh _ t .fresh visited compacts
  have same := (losesNothing_iff skipped.toReady compacts.2).mp keeps
  rw [tested, skipped.position] at same
  exact absurd same (by decide)

end OpendlvCore.Applanix
