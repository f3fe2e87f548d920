import Mathlib.Data.List.Induction
import OpendlvCore.Applanix.Runs

/-!
# When the calls of the Applanix decoder return

The main loop moves `toRemove` forward in every pass until a read fails, so it ends.
The loops inside the group readers count with 8 bits up to bounds from the wire: they
end when `LoopsEnd` holds of the record that is decoded.
-/
namespace OpendlvCore.Applanix
open CStream CBytes CLoop

/-- If the pass from here decodes a record, the loops of its reader end. -/
def PassEnds (d : Decoder) : Prop :=
  ∀ g, Decoding d g → LoopsEnd g d.payloadSize (pendingBytes d)

/-- How far the main loop can still go. -/
def remaining (d : Decoder) : Nat :=
  if d.buffer.good then d.buffer.data.length - d.toRemove + 1 else 0

section Calls
variable {mem : Nat → UInt8} {chunks after : List Bytes} {d e : Decoder} {data : Bytes}

theorem HeaderTest.progress (test : HeaderTest d e) (fits : Fits32 d) :
    e.buffer.good = false ∨ d.toRemove < e.toRemove := by
  simp only [Fits32, GRP_HEADER_SIZE] at fits
  cases test with
  | found header =>
    obtain ⟨inside, _, _⟩ := headerAt_some header
    right
    simp only [headerFound, add32, GRP_HEADER_SIZE] at inside ⊢
    omega
  | missed six other =>
    right
    simp only [headerMissed, add32]
    omega
  | fails _ failed _ => exact .inl failed

/-- A pass that goes on has moved forward or has failed. -/
theorem pass_progress (ready : Ready d) (fits : Fits32 d) (step : pass mem d = some (.next e)) :
    e.buffer.good = false ∨ d.toRemove < e.toRemove := by
  have outcome := pass_outcome mem ready fits
  rw [step] at outcome
  cases outcome with
  | searches _ _ test => exact test.progress fits
  | overruns _ _ _ failed => exact .inl failed
  | rests decodes =>
    rw [toRemove_decoded fits decodes.toDecoding]
    simp only [GRP_FOOTER_SIZE]
    omega
  | retests decodes _ test =>
    have moved := test.progress fits
    rw [toRemove_decoded fits decodes.toDecoding] at moved
    exact moved.imp id (by omega)

theorem remaining_decreases (ready : Ready d) (fits : Fits32 d)
    (step : pass mem d = some (.next e)) : remaining e < remaining d := by
  have start : remaining d = d.buffer.data.length - d.toRemove + 1 := if_pos ready.good
  rw [start]
  rcases (pass_ready ready fits step).2 with ⟨after, same⟩ | failed
  · rcases pass_progress ready fits step with lost | moved
    · rw [after.good] at lost
      cases lost
    · have bound := after.remove
      rw [remaining, if_pos after.good, same]
      rw [same] at bound
      omega
  · rw [remaining, if_neg (by simp [failed])]
    omega

theorem pass_eq_none_iff (ready : Ready d) (fits : Fits32 d) :
    pass mem d = none ↔ ¬ PassEnds d := by
  have outcome := pass_outcome mem ready fits
  generalize result : pass mem d = flow at outcome
  constructor
  · intro hangs ends
    cases outcome with
    | hangs decoding endless => exact endless (ends _ decoding)
    | exits | waits | searches | overruns | rests | retests => cases hangs
  · intro endless
    by_contra returns
    refine endless fun g decoding => ?_
    have here := (ready.pending decoding.buffering).1
    have enter := decoding.enter
    have enough := decoding.enough
    have only : ∀ g', Decoding d g' → g' = g := fun g' other => by
      have same := other.next.symm.trans decoding.next
      exact Option.some.inj same
    cases outcome with
    | exits low => omega
    | waits _ low => omega
    | searches idle =>
      rw [decoding.buffering] at idle
      cases idle
    | hangs => exact absurd rfl returns
    | overruns decoding' ends => exact only _ decoding' ▸ ends
    | rests decodes => exact only _ decodes.toDecoding ▸ decodes.ends
    | retests decodes => exact only _ decodes.toDecoding ▸ decodes.ends

variable (mem) in
/-- One call: it returns exactly when every pass that decodes has loops that end. -/
theorem call_returns_iff (ready : Ready d) (fits : Fits32 (append d data)) :
    (∃ fuel e, nextString mem fuel d data = some e) ↔ ∀ t, Visited mem d data t → PassEnds t := by
  have states : ∀ t, Visited mem d data t → (Ready t ∧ Fits32 t) ∨ t.buffer.good = false := by
    intro t visited
    refine (visited.ready ready fits).imp (fun h => ⟨h.1, ?_⟩) id
    exact Visited.fits32 ready fits h.2
  constructor
  · rintro ⟨fuel, e, returns⟩ t visited
    rcases states t visited with ⟨readyT, fitsT⟩ | failed
    · by_contra endless
      exact visited.returns returns ((pass_eq_none_iff readyT fitsT).mpr endless)
    · intro g decoding
      rw [decoding.good] at failed
      cases failed
  · intro ends
    have total : ∀ t, Visits (pass mem) (append d data) t → pass mem t ≠ none := by
      intro t visited hangs
      rcases states t visited with ⟨readyT, fitsT⟩ | failed
      · exact (pass_eq_none_iff readyT fitsT).mp hangs (ends t visited)
      · rw [pass_of_not_good failed] at hangs
        cases hangs
    have decreases : ∀ t u, Visits (pass mem) (append d data) t →
        pass mem t = some (.next u) → remaining u < remaining t := by
      intro t u visited step
      rcases states t visited with ⟨readyT, fitsT⟩ | failed
      · exact remaining_decreases readyT fitsT step
      · rw [pass_of_not_good failed] at step
        cases step
    obtain ⟨fuel, r, returns⟩ := iterate_returns remaining total decreases
    exact ⟨fuel, discard r, by rw [nextString, returns]; rfl⟩

/-- On a failed stream every call returns at once. -/
theorem call_of_not_good (failed : d.buffer.good = false) :
    nextString mem 1 d data = some (discard (append d data)) := by
  rw [nextString, iterate_done (pass_of_not_good (append_not_good failed))]
  rfl

/-- Each call of a run has returned. -/
theorem Run.calls (before : List Bytes) (run : Run mem (before ++ data :: after) e) :
    ∃ d, Run mem before d ∧ ∃ fuel e', nextString mem fuel d data = some e' := by
  generalize whole : before ++ data :: after = chunks at run
  induction run generalizing after with
  | fresh => simp at whole
  | @call chunks d e last fuel earlier returns ih =>
    rcases List.eq_nil_or_concat after with rfl | ⟨rest, final, rfl⟩
    · obtain ⟨rfl, tail⟩ := List.append_inj' whole rfl
      cases tail
      exact ⟨d, earlier, fuel, e, returns⟩
    · rw [List.concat_eq_append, ← List.cons_append, ← List.append_assoc] at whole
      exact ih (List.append_inj' whole rfl).1

/-- Feeding the chunks one by one, every call returns exactly when no record that is
decoded makes a loop of its reader run for ever. -/
theorem calls_return_iff (small : SmallBuffers mem chunks) :
    (∃ d, Run mem chunks d) ↔ EveryPass mem PassEnds chunks := by
  constructor
  · rintro ⟨e, run⟩ before data after d t split start visited
    rw [split] at run
    obtain ⟨d', start', fuel, e', returns⟩ := run.calls before
    cases start.unique start'
    cases good : d.buffer.good with
    | true =>
      have ready := start.ready (small.of_prefix split) good
      exact (call_returns_iff _ ready (small before data after d split start good)).mp
        ⟨fuel, e', returns⟩ t visited
    | false =>
      intro g decoding
      have failed := (visited.not_good good).1
      rw [decoding.good] at failed
      cases failed
  · intro ends
    induction chunks using List.reverseRecOn with
    | nil => exact ⟨_, .fresh⟩
    | append_singleton chunks data ih =>
      obtain ⟨d, run⟩ := ih small.init ends.init
      cases good : d.buffer.good with
      | true =>
        have last := call_returns_iff mem (run.ready small.init good) (small.last run good)
        obtain ⟨fuel, e, returns⟩ := last.mpr fun t visited => ends.last run visited
        exact ⟨e, .call fuel run returns⟩
      | false => exact ⟨_, .call 1 run (call_of_not_good good)⟩

end Calls

set_option maxRecDepth 4000 in
theorem calls_return_iff_pulse : EveryPass zeroMemory PassEnds [pulseRecord ++ zeros 30] := by
  have eval : (feed zeroMemory 60 fresh [pulseRecord ++ zeros 30]).any
      (fun d => d.buffer.good) = true := by decide +kernel
  obtain ⟨d, run, _⟩ := Run.of_eval eval
  exact (calls_return_iff (.of_length (by decide))).mp ⟨d, run⟩

/-- A GRP3 record that counts 5120 bytes of channel status: no 8-bit counter reaches the
bound 256. -/
def channelRecord : Bytes :=
  GRPSTART ++ toLE 2 3 ++ toLE 2 76 ++ (zeros 28 ++ toLE 2 5120 ++ zeros 46)

set_option maxRecDepth 8000 in
/-- The first pass finds the header, the second never comes back. -/
theorem hangs_in_channel_loop : ¬ ∀ mem chunks, ∃ d, Run mem chunks d := by
  intro always
  obtain ⟨e, run⟩ := always zeroMemory [channelRecord ++ zeros 10]
  obtain ⟨d, start, fuel, _, returns⟩ := Run.calls [] run
  cases start.unique .fresh
  have eval : (heads (pass zeroMemory) 2 (append fresh (channelRecord ++ zeros 10))).any
      (fun t => (pass zeroMemory t).isNone) = true := by decide +kernel
  obtain ⟨t, there, hangs⟩ := List.any_eq_true.mp eval
  have visited : Visited zeroMemory fresh (channelRecord ++ zeros 10) t := .of_mem_heads there
  exact visited.returns returns (Option.isNone_iff_eq_none.mp hangs)

end OpendlvCore.Applanix
