import OpendlvCore.Applanix.Runs

/-!
# When the Applanix decoder goes deaf

Nothing clears a failed stream, so one read past the end of the buffer makes the
decoder drop everything that follows. `Inside` says of the state before a pass that
the pass reads no further than the buffer goes. Its second half matters: right after
a record the fill level is computed from a get position behind the payload, the
subtraction wraps, and the header test runs although too few bytes are there.
-/
namespace OpendlvCore.Applanix
open CStream CBytes CLoop

/-- A pass that decodes a record has all the bytes its reader reads in the buffer, and the
octets of the next header too if the header test runs at once. -/
def Inside (d : Decoder) : Prop :=
  ∀ g, Decoding d g → d.toRemove + consumed d g ≤ d.buffer.data.length ∧
    (Retests d g → HeaderFits d.buffer.data (d.toRemove + d.payloadSize + GRP_FOOTER_SIZE))

section Health
variable {mem : Nat → UInt8} {d e t : Decoder} {chunks : List Bytes} {data : Bytes}

/-- A header test that stays on a good stream had its octets. -/
theorem HeaderTest.fits (test : HeaderTest d e) (good : e.buffer.good = true) :
    HeaderFits d.buffer.data d.toRemove := by
  cases test with
  | found header =>
    obtain ⟨inside, _, _⟩ := headerAt_some header
    refine ⟨?_, fun _ => inside⟩
    simp only [GRP_HEADER_SIZE] at inside
    omega
  | missed six other => exact ⟨six, fun group => absurd other group⟩
  | fails _ failed _ =>
    rw [failed] at good
    cases good

theorem HeaderTest.good_of_fits (test : HeaderTest d e) (good : d.buffer.good = true)
    (fits : HeaderFits d.buffer.data d.toRemove) : e.buffer.good = true := by
  cases test with
  | found => exact good
  | missed => exact good
  | fails past => exact absurd fits past

/-- A pass that stays inside the buffer leaves the stream good. -/
theorem pass_good_of_inside (ready : Ready d) (fits : Fits32 d) (inside : Inside d)
    (step : pass mem d = some (.next e)) : e.buffer.good = true := by
  have outcome := pass_outcome mem ready fits
  rw [step] at outcome
  cases outcome with
  | searches _ enter test =>
    refine test.good_of_fits ready.good ⟨?_, fun _ => ?_⟩
    · simp only [GRP_HEADER_SIZE] at enter
      omega
    · omega
  | overruns decoding _ short =>
    have whole := (inside _ decoding).1
    omega
  | rests => exact ready.good
  | @retests g containers _ decodes retests test =>
    refine test.good_of_fits ready.good ?_
    rw [toRemove_decoded fits decodes.toDecoding]
    exact (inside g decodes.toDecoding).2 retests

/-- A pass that leaves the stream good stayed inside the buffer. -/
theorem inside_of_pass_good (ready : Ready d) (fits : Fits32 d)
    (after : ∀ e, pass mem d = some (.next e) → e.buffer.good = true)
    (returns : pass mem d ≠ none) : Inside d := by
  intro g decoding
  have outcome := pass_outcome mem ready fits
  generalize result : pass mem d = flow at outcome
  have here := (ready.pending decoding.buffering).1
  have enter := decoding.enter
  have enough := decoding.enough
  cases outcome with
  | exits low => omega
  | waits _ low => omega
  | searches idle =>
    rw [decoding.buffering] at idle
    cases idle
  | hangs => exact absurd result returns
  | overruns _ _ _ failed =>
    rw [after _ result] at failed
    cases failed
  | @rests g' containers decodes rests =>
    have same := decoding.next.symm.trans decodes.next
    cases same
    exact ⟨decodes.inside, fun retests => absurd retests rests⟩
  | @retests g' containers _ decodes _ test =>
    have same := decoding.next.symm.trans decodes.next
    cases same
    refine ⟨decodes.inside, fun _ => ?_⟩
    have header := test.fits (after _ result)
    rwa [toRemove_decoded fits decodes.toDecoding] at header

/-- One call: the stream is good after it exactly when every pass stayed inside. -/
theorem call_good_iff {fuel : Nat} (ready : Ready d) (returns : nextString mem fuel d data = some e)
    (fits : Fits32 (append d data)) :
    e.buffer.good = true ↔ ∀ t, Visited mem d data t → Inside t := by
  constructor
  · intro good u visited
    have start := visited.good returns good
    rcases visited.ready ready fits with ⟨readyU, same⟩ | failed
    · exact inside_of_pass_good readyU (Visited.fits32 ready fits same)
        (fun v step => Visited.good (.pass visited step) returns good) (visited.returns returns)
    · rw [failed] at start
      cases start
  · intro inside
    obtain ⟨t, visited, _, rfl⟩ := nextString_some returns
    rw [discard_good_iff]
    refine Visits.invariant (fun u => u.buffer.good = true) visited
      (append_ready ready).good ?_
    intro a b reached good step
    rcases Visited.ready reached ready fits with ⟨readyA, same⟩ | failed
    · exact pass_good_of_inside readyA (Visited.fits32 ready fits same) (inside a reached) step
    · rw [failed] at good
      cases good

/-- After every call of a run the buffer is in a good state exactly when no pass so far
read past its end. -/
theorem stays_good_iff_inside (run : Run mem chunks d) (small : SmallBuffers mem chunks) :
    d.buffer.good = true ↔ EveryPass mem (Inside) chunks := by
  induction run with
  | fresh => exact iff_of_true rfl EveryPass.nil
  | @call chunks d e data fuel before returns ih =>
    have earlier := ih small.init
    constructor
    · intro good
      have start := good_of_call returns good
      have last := call_good_iff (before.ready small.init start) returns (small.last before start)
      exact (earlier.mp start).snoc before (last.mp good)
    · intro inside
      have start := earlier.mpr inside.init
      have last := call_good_iff (before.ready small.init start) returns (small.last before start)
      exact last.mpr fun t visited => inside.last before visited

end Health

set_option maxRecDepth 4000 in
theorem stays_good_iff_inside_pulse :
    ∃ d, Run zeroMemory [pulseRecord ++ zeros 30] d ∧
      EveryPass zeroMemory Inside [pulseRecord ++ zeros 30] := by
  have eval : (feed zeroMemory 60 fresh [pulseRecord ++ zeros 30]).any
      (fun d => d.buffer.good) = true := by decide +kernel
  obtain ⟨d, run, good⟩ := Run.of_eval eval
  have small : SmallBuffers zeroMemory [pulseRecord ++ zeros 30] := .of_length (by decide)
  exact ⟨d, run, (stays_good_iff_inside run small).mp good⟩

set_option maxRecDepth 4000 in
/-- A record and the first eight octets of the next: the header test right behind the
record finds only four of them. -/
theorem goes_deaf : ¬ ∀ mem chunks d, Run mem chunks d → d.buffer.good = true := by
  intro always
  have eval : (feed zeroMemory 60 fresh [pulseRecord ++ pulseRecord.take 8]).any
      (fun d => !d.buffer.good) = true := by decide +kernel
  obtain ⟨d, run, deaf⟩ := Run.of_eval eval
  rw [always _ _ d run] at deaf
  cases deaf

end OpendlvCore.Applanix
