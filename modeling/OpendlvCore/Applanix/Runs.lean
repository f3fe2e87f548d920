import OpendlvCore.Applanix.Passes

/-!
# Invariants of whole runs of the Applanix decoder

While positions fit 32 bits, every state between and inside the calls of a run is
`Ready` or has a failed stream. The rules at the end carry any property of a state
through the passes of a call and through the calls of a run.
-/
namespace OpendlvCore.Applanix
open CStream CBytes CLoop

section Pass
variable {mem : Nat → UInt8} {d e : Decoder}

theorem headerAt_some {data : Bytes} {offset : Nat} {g : Group} {n : Nat}
    (header : headerAt data offset = some (g, n)) :
    offset + GRP_HEADER_SIZE ≤ data.length ∧ startsGroup (data.drop offset) = some g ∧
      n = ofLE ((data.drop (offset + 6)).take 2) := by
  unfold headerAt at header
  split at header
  · rename_i inside
    cases group : startsGroup (data.drop offset) with
    | none => simp [group] at header
    | some g' =>
      simp only [group, Option.map_some, Option.some.injEq, Prod.mk.injEq] at header
      exact ⟨inside, header.1 ▸ rfl, header.2.symm⟩
  · cases header

theorem headerAt_lt {data : Bytes} {offset : Nat} {g : Group} {n : Nat}
    (header : headerAt data offset = some (g, n)) : n < 2 ^ 16 := by
  obtain ⟨_, _, rfl⟩ := headerAt_some header
  have bound := ofLE_lt ((data.drop (offset + 6)).take 2)
  have short : ((data.drop (offset + 6)).take 2).length ≤ 2 := List.length_take_le _ _
  exact Nat.lt_of_lt_of_le bound (Nat.pow_le_pow_right (by decide) short)

/-- A header as a unit writes it. -/
theorem headerAt_written (g : Group) {n : Nat} (range : n < 2 ^ 16) (more : Bytes) :
    headerAt (GRPSTART ++ (toLE 2 g.number ++ (toLE 2 n ++ more))) 0 = some (g, n) := by
  have number : ofLE (toLE 2 g.number) = g.number := ofLE_toLE_of_lt g.number_lt
  have count : ofLE (toLE 2 n) = n := ofLE_toLE_of_lt range
  have group : startsGroup ((GRPSTART ++ (toLE 2 g.number ++ (toLE 2 n ++ more))).drop 0) = some g := by
    change (if GRPSTART = GRPSTART then Group.ofNumber (ofLE (toLE 2 g.number)) else none) = some g
    rw [if_pos rfl, number, Group.ofNumber_number]
  rw [headerAt, if_pos (by simp [GRPSTART, GRP_HEADER_SIZE]; omega), group]
  change some (g, ofLE (toLE 2 n)) = some (g, n)
  rw [count]

/-- The header test keeps the content and the containers, and leaves a ready state
unless it ran past the end of the buffer. -/
theorem HeaderTest.ready (test : HeaderTest d e) (good : d.buffer.good = true)
    (put : d.buffer.pptr = d.buffer.data.length) (flags : d.foundHeader = d.buffering)
    (idle : d.buffering = false) (fits : Fits32 d) :
    e.conference = d.conference ∧
      ((Ready e ∧ e.buffer.data = d.buffer.data) ∨ e.buffer.good = false) := by
  simp only [Fits32, GRP_HEADER_SIZE] at fits
  cases test with
  | @found g n header =>
    obtain ⟨inside, _, _⟩ := headerAt_some header
    simp only [GRP_HEADER_SIZE] at inside
    have moved : add32 d.toRemove GRP_HEADER_SIZE = d.toRemove + 8 := by
      simp only [add32, GRP_HEADER_SIZE]
      omega
    refine ⟨rfl, .inl ⟨⟨good, put, inside, ?_, rfl, ?_⟩, rfl⟩⟩
    · change add32 d.toRemove GRP_HEADER_SIZE ≤ d.buffer.data.length
      rwa [moved]
    · exact fun _ => ⟨moved.symm, headerAt_lt header, g, rfl⟩
  | missed six other =>
    have moved : add32 d.toRemove 1 = d.toRemove + 1 := by
      simp only [add32]
      omega
    refine ⟨rfl, .inl ⟨⟨good, put, six, ?_, flags, ?_⟩, rfl⟩⟩
    · change add32 d.toRemove 1 ≤ d.buffer.data.length
      omega
    · intro buffering
      change d.buffering = true at buffering
      rw [idle] at buffering
      cases buffering
  | fails _ failed sent => exact ⟨sent, .inr failed⟩

theorem decoded_ready {g : Group} {containers : List Container}
    (ready : Ready d) (fits : Fits32 d) (decodes : Decodes mem d g containers)
    (inside : d.toRemove + d.payloadSize + GRP_FOOTER_SIZE ≤ d.buffer.data.length) :
    Ready (decoded d containers (consumed d g)) where
  good := ready.good
  put := ready.put
  get := decodes.inside
  remove := by
    rw [toRemove_decoded fits decodes.toDecoding]
    exact inside
  flags := rfl
  pending := nofun

/-- One pass keeps the content, only adds containers, and leaves a ready state unless
a read failed. -/
theorem pass_ready (ready : Ready d) (fits : Fits32 d) (step : pass mem d = some (.next e)) :
    (∃ containers, e.conference = d.conference ++ containers) ∧
      ((Ready e ∧ e.buffer.data = d.buffer.data) ∨ e.buffer.good = false) := by
  have outcome := pass_outcome mem ready fits
  rw [step] at outcome
  cases outcome with
  | searches idle _ test =>
    obtain ⟨sent, after⟩ := test.ready ready.good ready.put ready.flags idle fits
    exact ⟨⟨[], by rw [sent, List.append_nil]⟩, after⟩
  | overruns _ _ _ failed sent => exact ⟨⟨_, sent⟩, .inr failed⟩
  | @rests g containers decodes rests =>
    have low := (Decidable.not_not.mp rests).1
    exact ⟨⟨containers, rfl⟩, .inl ⟨decoded_ready ready fits decodes (by omega), rfl⟩⟩
  | @retests g containers _ decodes _ test =>
    obtain ⟨sent, after⟩ := test.ready ready.good ready.put rfl rfl fits
    exact ⟨⟨containers, sent⟩, after⟩

theorem pass_ready_of_good (ready : Ready d) (fits : Fits32 d) (step : pass mem d = some (.next e))
    (good : e.buffer.good = true) : Ready e ∧ e.buffer.data = d.buffer.data := by
  rcases (pass_ready ready fits step).2 with after | failed
  · exact after
  · simp [failed] at good

/-- A pass that has nothing pending and enough bytes tests for a header. -/
theorem pass_searches (mem : Nat → UInt8) (ready : Ready d) (fits : Fits32 d)
    (idle : d.buffering = false)
    (enter : d.buffer.gptr + d.toRemove + GRP_HEADER_SIZE < d.buffer.data.length) :
    ∃ e, pass mem d = some (.next e) ∧ HeaderTest d e := by
  have outcome := pass_outcome mem ready fits
  generalize result : pass mem d = flow at outcome
  cases outcome with
  | exits low => omega
  | waits waiting =>
    rw [idle] at waiting
    cases waiting
  | searches _ _ test => exact ⟨_, rfl, test⟩
  | hangs decoding => exact absurd decoding.buffering (by simp [idle])
  | overruns decoding => exact absurd decoding.buffering (by simp [idle])
  | rests decodes => exact absurd decodes.buffering (by simp [idle])
  | retests decodes => exact absurd decodes.buffering (by simp [idle])

theorem HeaderTest.eq_found {g : Group} {n : Nat} (test : HeaderTest d e)
    (header : headerAt d.buffer.data d.toRemove = some (g, n)) : e = headerFound d g n := by
  obtain ⟨inside, group, _⟩ := headerAt_some header
  cases test with
  | found header' =>
    rw [header] at header'
    cases header'
    rfl
  | missed _ other =>
    rw [group] at other
    cases other
  | fails past =>
    refine absurd ⟨?_, fun _ => inside⟩ past
    simp only [GRP_HEADER_SIZE] at inside
    omega

theorem HeaderTest.eq_missed (test : HeaderTest d e) (six : d.toRemove + 6 ≤ d.buffer.data.length)
    (other : startsGroup (d.buffer.data.drop d.toRemove) = none) : e = headerMissed d := by
  cases test with
  | found header =>
    rw [(headerAt_some header).2.1] at other
    cases other
  | missed => rfl
  | fails past => exact absurd ⟨six, fun group => absurd other group⟩ past

theorem zeros_drop (n k : Nat) : (zeros n).drop k = zeros (n - k) := List.drop_replicate ..

theorem startsGroup_zeros (n : Nat) : startsGroup (zeros n) = none := by
  have other : (zeros n).take 4 ≠ GRPSTART := by
    intro same
    have dollar : (0x24 : UInt8) ∈ (zeros n).take 4 := by
      rw [same]
      decide
    have zero := List.eq_of_mem_replicate (List.mem_of_mem_take dollar)
    revert zero
    decide
  rw [startsGroup, if_neg other]

/-- Where no header starts, a pass of the search skips one byte. -/
theorem pass_misses (mem : Nat → UInt8) (ready : Ready d) (fits : Fits32 d)
    (idle : d.buffering = false)
    (enter : d.buffer.gptr + d.toRemove + GRP_HEADER_SIZE < d.buffer.data.length)
    (other : startsGroup (d.buffer.data.drop d.toRemove) = none) :
    pass mem d = some (.next (headerMissed d)) ∧ Ready (headerMissed d) := by
  obtain ⟨e, step, test⟩ := pass_searches mem ready fits idle enter
  simp only [GRP_HEADER_SIZE] at enter
  have missed := test.eq_missed (by omega) other
  subst missed
  exact ⟨step, (pass_ready_of_good ready fits step ready.good).1⟩

end Pass

section Call
variable {mem : Nat → UInt8} {d e : Decoder} {data : Bytes}

theorem append_not_good (failed : d.buffer.good = false) :
    (append d data).buffer.good = false := by
  rw [append, StringStream.seekpEnd_of_not_good failed]
  exact StringStream.seekg_of_not_good _ (StringStream.write_of_not_good failed)

/-- The new bytes go behind the old ones and reading starts at `toRemove`. -/
theorem append_eq (ready : Ready d) :
    append d data = { d with
      buffer := { d.buffer with
        data := d.buffer.data ++ data
        pptr := (d.buffer.data ++ data).length
        gptr := d.toRemove } } := by
  have remove := ready.remove
  have good := ready.good
  rw [append, StringStream.seekpEnd_of_good good, StringStream.write_of_end (by exact good) rfl,
    StringStream.seekg_of_le (by exact good) (by simp only [List.length_append]; omega)]
  simp only [StringStream.getAt, List.length_append]

theorem append_ready (ready : Ready d) : Ready (append d data) := by
  rw [append_eq ready]
  have remove := ready.remove
  have inside : d.toRemove ≤ (d.buffer.data ++ data).length := by
    rw [List.length_append]
    omega
  exact ⟨ready.good, rfl, inside, inside, ready.flags,
    fun buffering => ⟨rfl, (ready.pending buffering).2⟩⟩

theorem discard_not_good (failed : d.buffer.good = false) : discard d = d := by
  rw [discard, if_neg]
  rw [StringStream.tellg_of_not_good failed]
  omega

/-- Compaction restarts the buffer at the get position. -/
theorem discard_eq (ready : Ready d) (late : MAX_BUFFER < d.toRemove) (read : 0 < d.buffer.gptr) :
    discard d = { d with
      buffer := { d.buffer with
        data := d.buffer.data.drop d.buffer.gptr
        pptr := (d.buffer.data.drop d.buffer.gptr).length
        gptr := 0 }
      toRemove := 0 } := by
  have good := ready.good
  have tell := StringStream.tellg_of_good good
  rw [discard, if_pos ⟨by rw [tell]; exact Int.natCast_pos.mpr read, late⟩, tell, Int.toNat_natCast]
  simp [StringStream.clear, StringStream.setStr, StringStream.seekpEnd, StringStream.seekg,
    StringStream.failbit_of_good good, StringStream.eofbit_of_good good]

theorem discard_id (early : ¬ (0 < d.buffer.tellg ∧ MAX_BUFFER < d.toRemove)) : discard d = d :=
  if_neg early

theorem discard_ready (ready : Ready d) : Ready (discard d) := by
  by_cases compact : 0 < d.buffer.tellg ∧ MAX_BUFFER < d.toRemove
  · have read : 0 < d.buffer.gptr := by
      have positive := compact.1
      rw [StringStream.tellg_of_good ready.good] at positive
      omega
    rw [discard_eq ready compact.2 read]
    exact ⟨ready.good, rfl, Nat.zero_le _, Nat.zero_le _, ready.flags,
      fun buffering => ⟨rfl, (ready.pending buffering).2⟩⟩
  · rwa [discard_id compact]

theorem discard_conference (d : Decoder) : (discard d).conference = d.conference := by
  unfold discard
  split <;> rfl

/-- Leaving the loop changes nothing. -/
theorem pass_done {t r : Decoder} (leaves : pass mem t = some (.done r)) : r = t := by
  unfold pass at leaves
  split at leaves
  · split at leaves
    · cases leaves
      rfl
    · cases first : decodeStage mem t with
      | none =>
        rw [first] at leaves
        cases leaves
      | some u =>
        rw [first] at leaves
        change (headerStage mem u).bind (fun f => some (Flow.next f)) = _ at leaves
        cases second : headerStage mem u <;> rw [second] at leaves <;> cases leaves
  · cases leaves
    rfl

/-- A call that returned left its main loop at some visited state. -/
theorem nextString_some {fuel : Nat} (returns : nextString mem fuel d data = some e) :
    ∃ t, Visited mem d data t ∧ pass mem t = some (.done t) ∧ e = discard t := by
  unfold nextString at returns
  cases loop : iterate (pass mem) fuel (append d data) with
  | none =>
    rw [loop] at returns
    cases returns
  | some r =>
    rw [loop] at returns
    obtain ⟨t, visited, leaves⟩ := iterate_some loop
    have same := pass_done leaves
    subst same
    exact ⟨r, visited, leaves, (Option.some.inj returns).symm⟩

end Call

/-! ## Runs -/

/-- A ready state or a failed stream. -/
def Sound (d : Decoder) : Prop := Ready d ∨ d.buffer.good = false

section Run
variable {mem : Nat → UInt8} {P : Decoder → Prop} {chunks : List Bytes} {d e t : Decoder}
  {data : Bytes}

theorem EveryPass.init (every : EveryPass mem P (chunks ++ [data])) : EveryPass mem P chunks := by
  intro before data' after d t split run visited
  exact every before data' (after ++ [data]) d t (by simp [split]) run visited

theorem EveryPass.last (every : EveryPass mem P (chunks ++ [data])) (run : Run mem chunks d)
    (visited : Visited mem d data t) : P t :=
  every chunks data [] d t rfl run visited

theorem SmallBuffers.of_prefix {before rest : List Bytes} (small : SmallBuffers mem chunks)
    (split : chunks = before ++ rest) : SmallBuffers mem before := by
  intro first data after d whole
  exact small first data (after ++ rest) d (by simp [split, whole])

theorem SmallBuffers.init (small : SmallBuffers mem (chunks ++ [data])) :
    SmallBuffers mem chunks :=
  small.of_prefix rfl

theorem SmallBuffers.last (small : SmallBuffers mem (chunks ++ [data])) (run : Run mem chunks d) :
    d.buffer.good = true → Fits32 (append d data) :=
  small chunks data [] d rfl run

theorem EveryPass.nil : EveryPass mem P [] := by
  intro before data after d t split
  simp at split

/-- Fuel only decides whether a call returns, so a run has one final state. -/
theorem Run.unique (first : Run mem chunks d) (second : Run mem chunks e) : d = e := by
  induction first generalizing e with
  | fresh =>
    generalize empty : ([] : List Bytes) = chunks at second
    cases second with
    | fresh => rfl
    | call => simp at empty
  | @call chunks d d' data fuel _ returns ih =>
    generalize whole : chunks ++ [data] = all at second
    cases second with
    | fresh => simp at whole
    | @call chunks₂ d₂ _ data₂ fuel₂ run₂ returns₂ =>
      obtain ⟨rfl, last⟩ := List.append_inj' whole rfl
      cases last
      have same := ih run₂
      subst same
      unfold nextString at returns returns₂
      cases loop : iterate (pass mem) fuel (append d data) with
      | none => rw [loop] at returns; cases returns
      | some r =>
        cases loop₂ : iterate (pass mem) fuel₂ (append d data) with
        | none => rw [loop₂] at returns₂; cases returns₂
        | some r₂ =>
          rw [loop] at returns
          rw [loop₂, ← iterate_unique loop loop₂, returns] at returns₂
          exact Option.some.inj returns₂

/-- The last call of a run, when every pass before it is covered by `EveryPass`. -/
theorem EveryPass.snoc (every : EveryPass mem P chunks) (run : Run mem chunks d)
    (last : ∀ t, Visited mem d data t → P t) : EveryPass mem P (chunks ++ [data]) := by
  intro before data' after d' t split run' visited
  rcases List.eq_nil_or_concat after with rfl | ⟨after, final, rfl⟩
  · obtain ⟨rfl, tail⟩ := List.append_inj' split rfl
    cases tail
    exact last t (run.unique run' ▸ visited)
  · have shorter : chunks = before ++ data' :: after := by
      rw [List.concat_eq_append, ← List.cons_append, ← List.append_assoc] at split
      exact (List.append_inj' split rfl).1
    exact every before data' after d' t shorter run' visited

theorem fresh_ready : Ready fresh where
  good := rfl
  put := rfl
  get := Nat.le_refl _
  remove := Nat.le_refl _
  flags := rfl
  pending := nofun

theorem append_fresh (data : Bytes) :
    append fresh data = { fresh with buffer := { data := data, pptr := data.length } } := by
  rw [append_eq fresh_ready]
  rfl

theorem discard_sound (sound : Sound d) : Sound (discard d) := by
  refine sound.imp discard_ready fun failed => ?_
  rwa [discard_not_good failed]

/-- A failed stream stays failed: no later call clears it. -/
theorem Visited.not_good (visited : Visited mem d data t) (failed : d.buffer.good = false) :
    t.buffer.good = false ∧ t.conference = d.conference := by
  refine Visits.invariant (fun u => u.buffer.good = false ∧ u.conference = d.conference)
    visited ⟨append_not_good failed, rfl⟩ ?_
  intro a b _ holds step
  rw [pass_of_not_good holds.1] at step
  cases step

theorem Visited.start_good (visited : Visited mem d data t) (good : t.buffer.good = true) :
    d.buffer.good = true := by
  cases start : d.buffer.good with
  | true => rfl
  | false =>
    rw [(visited.not_good start).1] at good
    cases good

theorem Fits32.of_data (fits : Fits32 d) (same : e.buffer.data = d.buffer.data) : Fits32 e := by
  rwa [Fits32, same]

/-- Until a read fails, the passes of a call keep a ready state over the same content. -/
theorem Visited.ready (visited : Visited mem d data t) (start : Ready d)
    (fits : Fits32 (append d data)) :
    (Ready t ∧ t.buffer.data = d.buffer.data ++ data) ∨ t.buffer.good = false := by
  have content : (append d data).buffer.data = d.buffer.data ++ data := by rw [append_eq start]
  refine Visits.invariant (fun u =>
    (Ready u ∧ u.buffer.data = d.buffer.data ++ data) ∨ u.buffer.good = false)
    visited (.inl ⟨append_ready start, content⟩) ?_
  intro a b _ sound step
  rcases sound with ⟨ready, same⟩ | failed
  · have after := pass_ready ready (fits.of_data (same.trans content.symm)) step
    exact after.2.imp (fun h => ⟨h.1, h.2.trans same⟩) id
  · rw [pass_of_not_good failed] at step
    cases step

theorem Visited.fits32 (start : Ready d) (fits : Fits32 (append d data))
    (same : t.buffer.data = d.buffer.data ++ data) : Fits32 t :=
  fits.of_data (by rw [same, append_eq start])

theorem Visited.sound (visited : Visited mem d data t) (start : Sound d)
    (fits : d.buffer.good = true → Fits32 (append d data)) : Sound t := by
  rcases start with ready | failed
  · exact (visited.ready ready (fits ready.good)).imp And.left id
  · exact .inr (visited.not_good failed).1

theorem Run.sound (run : Run mem chunks d) (small : SmallBuffers mem chunks) : Sound d := by
  induction run with
  | fresh => exact .inl fresh_ready
  | call fuel before returns ih =>
    obtain ⟨t, visited, _, rfl⟩ := nextString_some returns
    exact discard_sound (visited.sound (ih small.init) (small.last before))

theorem Run.ready (run : Run mem chunks d) (small : SmallBuffers mem chunks)
    (good : d.buffer.good = true) : Ready d := by
  rcases run.sound small with ready | failed
  · exact ready
  · rw [failed] at good
    cases good

theorem discard_good_iff : (discard t).buffer.good = true ↔ t.buffer.good = true := by
  cases good : t.buffer.good with
  | false => rw [discard_not_good good, good]
  | true =>
    have failbit := StringStream.failbit_of_good good
    have eofbit := StringStream.eofbit_of_good good
    unfold discard
    split
    · simp [StringStream.clear, StringStream.setStr, StringStream.seekpEnd, StringStream.seekg,
        StringStream.good]
    · exact iff_of_true good rfl

/-- In a call that ends with a good stream, every pass starts on one. -/
theorem Visited.good {fuel : Nat} {u : Decoder} (visited : Visited mem d data u)
    (returns : nextString mem fuel d data = some e) (good : e.buffer.good = true) :
    u.buffer.good = true := by
  obtain ⟨t, last, leaves, rfl⟩ := nextString_some returns
  cases start : u.buffer.good with
  | true => rfl
  | false =>
    have same := (visited.to_done last leaves).of_done (pass_of_not_good start)
    rw [discard_good_iff, same, start] at good
    cases good

theorem Visited.returns {fuel : Nat} {u : Decoder} (visited : Visited mem d data u)
    (returns : nextString mem fuel d data = some e) : pass mem u ≠ none := by
  intro hangs
  rw [nextString, iterate_none_of_visits visited hangs] at returns
  cases returns

theorem good_of_call {fuel : Nat} (returns : nextString mem fuel d data = some e)
    (good : e.buffer.good = true) : d.buffer.good = true := by
  obtain ⟨t, visited, _, rfl⟩ := nextString_some returns
  exact visited.start_good (discard_good_iff.mp good)

/-- Compaction only drops bytes. -/
theorem discard_length_le (ready : Ready d) :
    (discard d).buffer.data.length ≤ d.buffer.data.length := by
  by_cases compact : 0 < d.buffer.tellg ∧ MAX_BUFFER < d.toRemove
  · have read : 0 < d.buffer.gptr := by
      have positive := compact.1
      rw [StringStream.tellg_of_good ready.good] at positive
      omega
    rw [discard_eq ready compact.2 read]
    simp only [List.length_drop]
    omega
  · rw [discard_id compact]

/-- The buffer never holds more than what was delivered. -/
theorem Run.length_le (run : Run mem chunks d)
    (small : 2 * chunks.flatten.length + GRP_HEADER_SIZE < 2 ^ 32) (sound : d.buffer.good = true) :
    Ready d ∧ d.buffer.data.length ≤ chunks.flatten.length := by
  induction run with
  | fresh => exact ⟨fresh_ready, Nat.le_refl _⟩
  | @call chunks d e data fuel before returns ih =>
    rw [List.flatten_append, List.length_append, List.flatten_singleton] at small ⊢
    have start := good_of_call returns sound
    obtain ⟨ready, size⟩ := ih (by omega) start
    have fits : Fits32 (append d data) := by
      rw [append_eq ready, Fits32]
      simp only [List.length_append]
      omega
    obtain ⟨t, visited, _, rfl⟩ := nextString_some returns
    rcases visited.ready ready fits with ⟨readyT, same⟩ | failed
    · have shorter := discard_length_le readyT
      rw [same, List.length_append] at shorter
      exact ⟨discard_ready readyT, by omega⟩
    · rw [discard_not_good failed, failed] at sound
      cases sound

/-- Less than 2 GiB in all is enough to keep the positions within 32 bits. -/
theorem SmallBuffers.of_length (small : 2 * chunks.flatten.length + GRP_HEADER_SIZE < 2 ^ 32) :
    SmallBuffers mem chunks := by
  intro before data after d split run good
  have whole : chunks.flatten.length =
      before.flatten.length + data.length + after.flatten.length := by
    simp [split, Nat.add_assoc]
  obtain ⟨ready, size⟩ := run.length_le (by omega) good
  rw [append_eq ready, Fits32]
  simp only [List.length_append]
  omega

end Run

/-! ## A concrete record -/

/-- Memory that reads as zero. -/
def zeroMemory : Nat → UInt8 := fun _ => 0

/-- A `GRP10003` record of zeros: header, 32 bytes of payload, 4 bytes of footer. -/
def pulseRecord : Bytes := GRPSTART ++ toLE 2 10003 ++ toLE 2 36 ++ zeros 36

/-- The decoder after a list of chunks, computed. -/
def feed (mem : Nat → UInt8) (fuel : Nat) : Decoder → List Bytes → Option Decoder
  | d, [] => some d
  | d, data :: rest => (nextString mem fuel d data).bind fun e => feed mem fuel e rest

/-- The states at the head of all passes on the way. -/
def passHeads (mem : Nat → UInt8) (fuel : Nat) : Decoder → List Bytes → List Decoder
  | _, [] => []
  | d, data :: rest =>
    heads (pass mem) fuel (append d data) ++
      ((nextString mem fuel d data).map fun e => passHeads mem fuel e rest).getD []

section Feed
variable {mem : Nat → UInt8} {fuel : Nat} {d e : Decoder} {before chunks : List Bytes}
  {P : Decoder → Prop}

theorem Run.feed (run : Run mem before d) (fed : feed mem fuel d chunks = some e) :
    Run mem (before ++ chunks) e := by
  induction chunks generalizing before d with
  | nil =>
    cases fed
    rwa [List.append_nil]
  | cons data rest ih =>
    obtain ⟨d', returns, fed⟩ := Option.bind_eq_some_iff.mp fed
    have longer := ih (.call fuel run returns) fed
    rwa [List.append_assoc] at longer

theorem EveryPass.feed (every : EveryPass mem P before) (run : Run mem before d)
    (fed : Applanix.feed mem fuel d chunks = some e)
    (all : ∀ t ∈ passHeads mem fuel d chunks, P t) : EveryPass mem P (before ++ chunks) := by
  induction chunks generalizing before d with
  | nil => rwa [List.append_nil]
  | cons data rest ih =>
    obtain ⟨d', returns, fed⟩ := Option.bind_eq_some_iff.mp fed
    simp only [passHeads, returns, Option.map_some, Option.getD_some] at all
    have first : EveryPass mem P (before ++ [data]) := by
      refine every.snoc run fun t visited => all t (List.mem_append_left _ ?_)
      obtain ⟨r, loop, _⟩ := Option.bind_eq_some_iff.mp returns
      exact visited.mem_heads loop
    have longer := ih first (.call fuel run returns) fed
      fun t member => all t (List.mem_append_right _ member)
    rwa [List.append_assoc] at longer

/-- What feeding chunks to a fresh decoder gives, found by running it. -/
theorem Run.of_eval {Q : Decoder → Bool} (eval : (Applanix.feed mem fuel Applanix.fresh chunks).any Q = true) :
    ∃ d, Run mem chunks d ∧ Q d = true := by
  cases fed : Applanix.feed mem fuel Applanix.fresh chunks with
  | none =>
    rw [fed] at eval
    cases eval
  | some d =>
    rw [fed] at eval
    exact ⟨d, Run.feed .fresh fed, eval⟩

theorem EveryPass.of_eval (fuel : Nat)
    (eval : (Applanix.feed mem fuel Applanix.fresh chunks).isSome = true)
    (all : ∀ t ∈ passHeads mem fuel Applanix.fresh chunks, P t) : EveryPass mem P chunks := by
  obtain ⟨d, fed⟩ := Option.isSome_iff_exists.mp eval
  exact EveryPass.nil.feed .fresh fed all

end Feed

end OpendlvCore.Applanix
