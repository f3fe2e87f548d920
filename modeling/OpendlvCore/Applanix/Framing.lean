import Mathlib.Data.List.Induction
import OpendlvCore.Applanix.Runs

/-!
# Framing of the delivered stream

What the decoder sends, against ranges of everything delivered so far. The buffer is
a suffix of that stream; `Tracks` relates the two read positions of the decoder to
stream offsets, through header search, decoding, appending and compaction.
-/
namespace OpendlvCore.Applanix
open CStream CBytes CLoop

/-- A header and the bytes it counts, as a range of a stream. -/
structure Frame where
  offset : Nat
  group : Group
  byteCount : Nat

def Frame.finish (f : Frame) : Nat := f.offset + GRP_HEADER_SIZE + f.byteCount

def Frame.range (f : Frame) (stream : Bytes) : Bytes :=
  (stream.drop f.offset).take (GRP_HEADER_SIZE + f.byteCount)

/-- The range starts with `"$GRP"`, the group number and the byte count, and is complete. -/
structure Frame.InStream (f : Frame) (stream : Bytes) : Prop where
  header : headerAt stream f.offset = some (f.group, f.byteCount)
  inside : f.finish ≤ stream.length

/-- Every message but the generic one sent along with GRP1. -/
def Container.isGroup : Container → Bool
  | .wgs84 _ _ => false
  | _ => true

/-- The group containers are, one by one and in order, what `content` makes of pairwise
disjoint framed ranges of the stream. -/
def Framed (content : Bytes → Option Container) (stream : Bytes) (conference : List Container) :
    Prop :=
  ∃ frames : List Frame, frames.Pairwise (fun f g => f.finish ≤ g.offset) ∧
    (∀ f ∈ frames, f.InStream stream) ∧
    (conference.filter Container.isGroup).map some = frames.map fun f => content (f.range stream)

/-- The container that the decoder's reader makes of a range alone. -/
def rangeContainer (mem : Nat → UInt8) (range : Bytes) : Option Container := do
  let (group, byteCount) ← headerAt range 0
  let (containers, _) ← readGroup mem group byteCount { data := range, gptr := GRP_HEADER_SIZE }
  containers.head?

section Header
variable {stream stream' more : Bytes} {offset offset' base : Nat} {header : Group × Nat}

theorem startsGroup_take (bs : Bytes) : startsGroup (bs.take GRP_HEADER_SIZE) = startsGroup bs := by
  have start : (bs.take GRP_HEADER_SIZE).take 4 = bs.take 4 := by
    rw [List.take_take]
    rfl
  have number : ((bs.take GRP_HEADER_SIZE).drop 4).take 2 = (bs.drop 4).take 2 := by
    rw [List.drop_take, List.take_take]
    rfl
  rw [startsGroup, startsGroup, start, number]

/-- A header is read from its eight octets. -/
theorem headerAt_congr (same : (stream.drop offset).take GRP_HEADER_SIZE =
    (stream'.drop offset').take GRP_HEADER_SIZE) :
    headerAt stream offset = headerAt stream' offset' := by
  have size := congrArg List.length same
  simp only [List.length_take, List.length_drop, GRP_HEADER_SIZE] at size
  have group : startsGroup (stream.drop offset) = startsGroup (stream'.drop offset') := by
    rw [← startsGroup_take, same, startsGroup_take]
  have count : (stream.drop (offset + 6)).take 2 = (stream'.drop (offset' + 6)).take 2 := by
    have tail := congrArg (fun bs => (bs.drop 6).take 2) same
    simp only [List.drop_take, List.take_take, List.drop_drop] at tail
    exact tail
  by_cases inside : offset + GRP_HEADER_SIZE ≤ stream.length
  · have inside' : offset' + GRP_HEADER_SIZE ≤ stream'.length := by
      simp only [GRP_HEADER_SIZE] at inside ⊢
      omega
    rw [headerAt, headerAt, if_pos inside, if_pos inside', group, count]
  · have outside' : ¬ offset' + GRP_HEADER_SIZE ≤ stream'.length := by
      simp only [GRP_HEADER_SIZE] at inside ⊢
      omega
    rw [headerAt, headerAt, if_neg inside, if_neg outside']

theorem headerAt_drop : headerAt (stream.drop base) offset = headerAt stream (base + offset) :=
  headerAt_congr (by rw [List.drop_drop])

/-- Later bytes do not change a complete header. -/
theorem headerAt_append (complete : headerAt stream offset = some header) :
    headerAt (stream ++ more) offset = some header := by
  obtain ⟨group, byteCount⟩ := header
  have inside := (headerAt_some complete).1
  rw [← complete]
  apply headerAt_congr
  rw [List.drop_append_of_le_length (by omega), List.take_append_of_le_length]
  rw [List.length_drop]
  omega

theorem Frame.range_append {f : Frame} (inside : f.finish ≤ stream.length) :
    f.range (stream ++ more) = f.range stream := by
  simp only [Frame.finish] at inside
  rw [Frame.range, List.drop_append_of_le_length (by omega), List.take_append_of_le_length]
  · rfl
  · rw [List.length_drop]
    omega

theorem Frame.InStream.append {f : Frame} (there : f.InStream stream) :
    f.InStream (stream ++ more) where
  header := headerAt_append there.header
  inside := by
    rw [List.length_append]
    exact Nat.le_trans there.inside (Nat.le_add_right _ _)

/-- More bytes keep what was framed. -/
theorem Framed.append {content : Bytes → Option Container} {conference : List Container}
    (framed : Framed content stream conference) : Framed content (stream ++ more) conference := by
  obtain ⟨frames, ordered, there, sent⟩ := framed
  refine ⟨frames, ordered, fun f member => (there f member).append, sent.trans ?_⟩
  apply List.map_congr_left
  intro f member
  rw [f.range_append (there f member).inside]

end Header

section Containers
variable {mem : Nat → UInt8} {g : Group} {n : Nat} {containers : List Container}

theorem bind_pure_some {α β : Type} {m : Reader α} {f : α → β} {b : β} {s s' : StringStream}
    (run : (m >>= fun a => pure (f a)) s = some (b, s')) : ∃ a, b = f a := by
  change (m s).bind (fun p => some (f p.1, p.2)) = some (b, s') at run
  obtain ⟨p, _, result⟩ := Option.bind_eq_some_iff.mp run
  exact ⟨p.1, (congrArg Prod.fst (Option.some.inj result)).symm⟩

/-- Each record gives one group container, the first it sends. -/
theorem readGroup_group {s s' : StringStream} (run : readGroup mem g n s = some (containers, s')) :
    ∃ c, containers.head? = some c ∧ containers.filter Container.isGroup = [c] := by
  cases g <;> obtain ⟨data, rfl⟩ := bind_pure_some run <;> exact ⟨_, rfl, rfl⟩

/-- A record whose reader stays in its range is read the same from the range alone. -/
theorem rangeContainer_eq {stream : Bytes} {offset k : Nat}
    (header : headerAt stream offset = some (g, n)) (own : k ≤ n)
    (consumes : Consumes (readGroup mem g n)
      ((stream.drop (offset + GRP_HEADER_SIZE)).take k) containers) :
    rangeContainer mem ((Frame.mk offset g n).range stream) = containers.head? := by
  have here : headerAt ((Frame.mk offset g n).range stream) 0 = some (g, n) := by
    rw [← header]
    apply headerAt_congr
    simp only [Frame.range, List.drop_zero, List.take_take, GRP_HEADER_SIZE]
    congr 1
    omega
  have unread : StringStream.unread
      { data := (Frame.mk offset g n).range stream, gptr := GRP_HEADER_SIZE } =
        (stream.drop (offset + GRP_HEADER_SIZE)).take k ++
          ((stream.drop (offset + GRP_HEADER_SIZE)).drop k).take (n - k) := by
    have whole : k + (n - k) = n := by omega
    rw [StringStream.unread, Frame.range, List.drop_take, List.drop_drop, ← List.take_add, whole,
      Nat.add_sub_cancel_left]
  have read := consumes _ _ rfl unread
  simp only [rangeContainer, here, bind, Option.bind, read]

end Containers

/-! ## The decoder's positions in the stream -/

/-- The buffer is the stream from `base` on, and `frames` are the records decoded so far. -/
structure Tracks (mem : Nat → UInt8) (stream : Bytes) (base : Nat) (frames : List Frame)
    (d : Decoder) : Prop where
  bound : base ≤ stream.length
  content : d.buffer.data = stream.drop base
  ordered : frames.Pairwise (fun f g => f.finish ≤ g.offset)
  there : ∀ f ∈ frames, f.InStream stream
  sent : (d.conference.filter Container.isGroup).map some =
    frames.map fun f => rangeContainer mem (f.range stream)
  searching : d.buffering = false →
    ∀ f ∈ frames, f.finish ≤ base ∨ f.finish + GRP_FOOTER_SIZE ≤ base + d.toRemove
  pending : d.buffering = true → ∃ offset g, base + d.toRemove = offset + GRP_HEADER_SIZE ∧
    headerAt stream offset = some (g, d.payloadSize) ∧ d.nextApplanixMessage = some g ∧
    ∀ f ∈ frames, f.finish ≤ offset

/-- The call ends here and drops what lies before the get position. -/
def Compacts (d : Decoder) : Prop :=
  (loopCondition d = false ∨ waiting d = true) ∧ 0 < d.buffer.tellg ∧ MAX_BUFFER < d.toRemove

/-- The pass from here reads no further than the byte count of its record says, and no
compaction after it keeps bytes of the last record. -/
def OwnBytes (d : Decoder) : Prop :=
  (∀ g, Decoding d g → consumed d g ≤ d.payloadSize) ∧
    (Compacts d → d.toRemove ≤ d.buffer.gptr + GRP_FOOTER_SIZE)

instance (d : Decoder) : Decidable (OwnBytes d) := by
  unfold OwnBytes Compacts
  infer_instance

section Steps
variable {mem : Nat → UInt8} {stream data : Bytes} {base : Nat} {frames : List Frame}
  {d e : Decoder} {g : Group} {containers : List Container}

theorem Tracks.framed (tracks : Tracks mem stream base frames d) :
    Framed (rangeContainer mem) stream d.conference :=
  ⟨frames, tracks.ordered, tracks.there, tracks.sent⟩

/-- Searching moves the position forward; a found header lies behind all records so far. -/
theorem Tracks.test (tracks : Tracks mem stream base frames d) (idle : d.buffering = false)
    (fits : Fits32 d) (test : HeaderTest d e) :
    Tracks mem stream base frames e ∨ (e.buffer.good = false ∧ e.conference = d.conference) := by
  have searching := tracks.searching idle
  simp only [Fits32, GRP_HEADER_SIZE] at fits
  cases test with
  | @found g n header =>
    left
    have inside := (headerAt_some header).1
    have moved : (headerFound d g n).toRemove = d.toRemove + GRP_HEADER_SIZE := by
      simp only [headerFound, add32, GRP_HEADER_SIZE] at inside ⊢
      omega
    refine { tracks with
      searching := fun searches => by cases searches
      pending := fun _ => ⟨base + d.toRemove, g, ?_, ?_, rfl, ?_⟩ }
    · rw [moved, Nat.add_assoc]
    · rw [← headerAt_drop, ← tracks.content]
      exact header
    · intro f member
      have before := searching f member
      omega
  | missed six _ =>
    left
    have moved : (headerMissed d).toRemove = d.toRemove + 1 := by
      simp only [headerMissed, add32]
      omega
    refine { tracks with searching := fun _ f member => ?_, pending := fun buffering => ?_ }
    · have before := searching f member
      rw [moved]
      omega
    · change d.buffering = true at buffering
      rw [idle] at buffering
      cases buffering
  | fails _ failed same => exact .inr ⟨failed, same⟩

/-- Decoding a record whose reader keeps to its bytes adds its frame. -/
theorem Tracks.decode (tracks : Tracks mem stream base frames d) (fits : Fits32 d)
    (decodes : Decodes mem d g containers) (own : consumed d g ≤ d.payloadSize) :
    ∃ f, Tracks mem stream base (frames ++ [f]) (decoded d containers (consumed d g)) := by
  obtain ⟨offset, g', position, header, next, before⟩ := tracks.pending decodes.buffering
  cases Option.some.inj (decodes.next.symm.trans next)
  have enough := decodes.enough
  have size := congrArg List.length tracks.content
  rw [List.length_drop] at size
  have bytes : pendingBytes d = stream.drop (offset + GRP_HEADER_SIZE) := by
    rw [pendingBytes, tracks.content, List.drop_drop, position]
  have consumes := decodes.consumes
  rw [bytes] at consumes
  have content := rangeContainer_eq header own consumes
  obtain ⟨c, first, group⟩ : ∃ c, containers.head? = some c ∧
      containers.filter Container.isGroup = [c] := by
    have read := consumes { data := (stream.drop (offset + GRP_HEADER_SIZE)).take (consumed d g) }
      [] rfl (by simp [StringStream.unread])
    exact readGroup_group read
  refine ⟨⟨offset, g, d.payloadSize⟩, {
    bound := tracks.bound, content := tracks.content, ordered := ?_, there := ?_, sent := ?_
    searching := ?_, pending := fun waits => by cases waits }⟩
  · rw [List.pairwise_append]
    exact ⟨tracks.ordered, List.pairwise_singleton _ _, by simpa using before⟩
  · intro f member
    rcases List.mem_append.mp member with old | new
    · exact tracks.there f old
    · rw [List.mem_singleton] at new
      subst new
      refine ⟨header, ?_⟩
      simp only [Frame.finish]
      have bound := tracks.bound
      omega
  · simp only [decoded, List.filter_append, List.map_append, tracks.sent, group, content, first,
      List.map_cons, List.map_nil]
  · intro _ f member
    rw [toRemove_decoded fits decodes.toDecoding]
    rcases List.mem_append.mp member with old | new
    · have earlier := before f old
      simp only [GRP_FOOTER_SIZE, GRP_HEADER_SIZE] at position ⊢
      omega
    · rw [List.mem_singleton] at new
      subst new
      simp only [Frame.finish]
      omega

/-- One pass from a state that keeps to its record's bytes. -/
theorem Tracks.pass (tracks : Tracks mem stream base frames d) (ready : Ready d) (fits : Fits32 d)
    (own : OwnBytes d) (step : pass mem d = some (.next e)) :
    (∃ frames, Tracks mem stream base frames e) ∨
      (e.buffer.good = false ∧ Framed (rangeContainer mem) stream e.conference) := by
  have outcome := pass_outcome mem ready fits
  rw [step] at outcome
  cases outcome with
  | searches idle _ test =>
    rcases tracks.test idle fits test with after | ⟨failed, same⟩
    · exact .inl ⟨frames, after⟩
    · refine .inr ⟨failed, ?_⟩
      rw [same]
      exact tracks.framed
  | overruns decoding _ short =>
    have within := own.1 _ decoding
    have enough := decoding.enough
    omega
  | rests decodes _ =>
    obtain ⟨f, after⟩ := tracks.decode fits decodes (own.1 _ decodes.toDecoding)
    exact .inl ⟨_, after⟩
  | retests decodes _ test =>
    obtain ⟨f, after⟩ := tracks.decode fits decodes (own.1 _ decodes.toDecoding)
    rcases after.test rfl fits test with searched | ⟨failed, same⟩
    · exact .inl ⟨_, searched⟩
    · refine .inr ⟨failed, ?_⟩
      rw [same]
      exact after.framed

theorem Tracks.append (tracks : Tracks mem stream base frames d) (ready : Ready d) :
    Tracks mem (stream ++ data) base frames (append d data) := by
  rw [append_eq ready]
  refine { tracks with bound := ?_, content := ?_, there := ?_, sent := ?_, pending := ?_ }
  · rw [List.length_append]
    exact Nat.le_trans tracks.bound (Nat.le_add_right _ _)
  · rw [List.drop_append_of_le_length tracks.bound, ← tracks.content]
  · exact fun f member => (tracks.there f member).append
  · refine tracks.sent.trans (List.map_congr_left fun f member => ?_)
    rw [f.range_append (tracks.there f member).inside]
  · intro buffering
    obtain ⟨offset, g, position, header, next, before⟩ := tracks.pending buffering
    exact ⟨offset, g, position, headerAt_append header, next, before⟩

/-- Compaction keeps track when it does not restart inside the last record. -/
theorem Tracks.discard (tracks : Tracks mem stream base frames d) (ready : Ready d)
    (own : 0 < d.buffer.tellg ∧ MAX_BUFFER < d.toRemove →
      d.toRemove ≤ d.buffer.gptr + GRP_FOOTER_SIZE) :
    ∃ base, Tracks mem stream base frames (discard d) := by
  by_cases compact : 0 < d.buffer.tellg ∧ MAX_BUFFER < d.toRemove
  · have read : 0 < d.buffer.gptr := by
      have positive := compact.1
      rw [StringStream.tellg_of_good ready.good] at positive
      omega
    have near := own compact
    have get := ready.get
    have size := congrArg List.length tracks.content
    rw [List.length_drop] at size
    have bound := tracks.bound
    rw [discard_eq ready compact.2 read]
    refine ⟨base + d.buffer.gptr, { tracks with bound := ?_, content := ?_, searching := ?_, pending := ?_ }⟩
    · omega
    · change d.buffer.data.drop d.buffer.gptr = _
      rw [tracks.content, List.drop_drop]
    · intro idle f member
      have before := tracks.searching idle f member
      left
      omega
    · intro buffering
      obtain ⟨offset, g, position, rest⟩ := tracks.pending buffering
      refine ⟨offset, g, ?_, rest⟩
      have here := (ready.pending buffering).1
      change base + d.buffer.gptr + 0 = _
      omega
  · rw [discard_id compact]
    exact ⟨base, tracks⟩

end Steps

section Run
variable {mem : Nat → UInt8} {chunks : List Bytes} {d t : Decoder} {data stream : Bytes}

theorem leaves_of_done {r : Decoder} (leaves : pass mem t = some (.done r)) :
    loopCondition t = false ∨ waiting t = true := by
  by_contra goes
  rw [not_or] at goes
  have enters : loopCondition t = true := by simpa using goes.1
  unfold pass at leaves
  rw [if_pos enters, if_neg goes.2] at leaves
  cases first : decodeStage mem t with
  | none =>
    rw [first] at leaves
    cases leaves
  | some u =>
    rw [first] at leaves
    change (headerStage mem u).bind (fun f => some (Flow.next f)) = _ at leaves
    cases second : headerStage mem u <;> rw [second] at leaves <;> cases leaves

/-- The decoder tracks the stream, or has failed after sending framed containers only. -/
def FramedState (mem : Nat → UInt8) (stream : Bytes) (d : Decoder) : Prop :=
  (Ready d ∧ ∃ base frames, Tracks mem stream base frames d) ∨
    (d.buffer.good = false ∧ Framed (rangeContainer mem) stream d.conference)

theorem FramedState.framed (state : FramedState mem stream d) :
    Framed (rangeContainer mem) stream d.conference := by
  rcases state with ⟨_, base, frames, tracks⟩ | ⟨_, framed⟩
  · exact tracks.framed
  · exact framed

theorem FramedState.visited (state : FramedState mem stream d) (visited : Visited mem d data t)
    (fits : d.buffer.good = true → Fits32 (append d data))
    (own : ∀ u, Visited mem d data u → OwnBytes u) : FramedState mem (stream ++ data) t := by
  rcases state with ⟨ready, base, frames, tracks⟩ | ⟨failed, framed⟩
  · have start : FramedState mem (stream ++ data) (append d data) :=
      .inl ⟨append_ready ready, base, frames, tracks.append ready⟩
    refine Visits.invariant _ visited start ?_
    intro a b reached holds step
    rcases Visited.ready reached ready (fits ready.good) with ⟨readyA, same⟩ | failed
    · have fitsA := Visited.fits32 ready (fits ready.good) same
      rcases holds with ⟨_, base, frames, tracks⟩ | ⟨failed, _⟩
      · rcases tracks.pass readyA fitsA (own a reached) step with ⟨frames, after⟩ | failed
        · rcases (pass_ready readyA fitsA step).2 with ⟨readyB, _⟩ | failed
          · exact .inl ⟨readyB, base, frames, after⟩
          · exact .inr ⟨failed, after.framed⟩
        · exact .inr failed
      · rw [readyA.good] at failed
        cases failed
    · rw [pass_of_not_good failed] at step
      cases step
  · obtain ⟨still, same⟩ := visited.not_good failed
    refine .inr ⟨still, ?_⟩
    rw [same]
    exact framed.append

theorem Run.framedState (run : Run mem chunks d) (small : SmallBuffers mem chunks)
    (own : EveryPass mem OwnBytes chunks) : FramedState mem chunks.flatten d := by
  induction run with
  | fresh =>
    exact .inl ⟨fresh_ready, 0, [], {
      bound := Nat.le_refl _, content := rfl, ordered := .nil, there := nofun, sent := rfl
      searching := nofun, pending := nofun }⟩
  | @call chunks d e data fuel before returns ih =>
    have earlier := ih small.init own.init
    obtain ⟨t, visited, leaves, rfl⟩ := nextString_some returns
    have last := earlier.visited visited (small.last before) fun u reached => own.last before reached
    rw [List.flatten_append, List.flatten_singleton]
    rcases last with ⟨ready, base, frames, tracks⟩ | ⟨failed, framed⟩
    · have keeps := (own.last before visited).2
      obtain ⟨base', after⟩ :=
        tracks.discard ready fun compact => keeps ⟨leaves_of_done leaves, compact⟩
      exact .inl ⟨discard_ready ready, base', frames, after⟩
    · rw [discard_not_good failed]
      exact .inr ⟨failed, framed⟩

/-- When every record is read within its own bytes, the group containers are what the
reader makes of disjoint framed ranges of the stream, in order. -/
theorem sends_framed_ranges (run : Run mem chunks d) (small : SmallBuffers mem chunks)
    (own : EveryPass mem OwnBytes chunks) :
    Framed (rangeContainer mem) chunks.flatten d.conference :=
  (run.framedState small own).framed

end Run

set_option maxRecDepth 4000 in
theorem sends_framed_ranges_pulse :
    ∃ d, Run zeroMemory [pulseRecord ++ zeros 30] d ∧ d.conference = [.grp10003 {}] ∧
      Framed (rangeContainer zeroMemory) (pulseRecord ++ zeros 30) d.conference := by
  have eval : (feed zeroMemory 60 fresh [pulseRecord ++ zeros 30]).any
      (fun d => d.conference = [.grp10003 {}]) = true := by decide +kernel
  obtain ⟨d, run, sent⟩ := Run.of_eval eval
  have every : EveryPass zeroMemory OwnBytes [pulseRecord ++ zeros 30] :=
    EveryPass.of_eval 60 (by decide +kernel) (by decide +kernel)
  refine ⟨d, run, of_decide_eq_true sent, ?_⟩
  have framed := sends_framed_ranges run (.of_length (by decide)) every
  rwa [List.flatten_singleton] at framed

/-- A GRP10003 header that counts no bytes; the pulse counter follows behind its range. -/
def emptyRecord (pulsecount : Nat) : Bytes :=
  GRPSTART ++ toLE 2 10003 ++ toLE 2 0 ++ (zeros 26 ++ toLE 4 pulsecount ++ zeros 30)

/-- Where a stream has only one header, a single container can only come from there. -/
theorem Framed.only {content : Bytes → Option Container} {stream : Bytes} {c : Container}
    {g : Group} {n : Nat} (framed : Framed content stream [c]) (group : c.isGroup = true)
    (first : headerAt stream 0 = some (g, n))
    (alone : ∀ offset < stream.length, offset ≠ 0 → headerAt stream offset = none) :
    content ((Frame.mk 0 g n).range stream) = some c := by
  obtain ⟨frames, _, there, sent⟩ := framed
  simp only [List.filter_cons, group, if_true, List.filter_nil, List.map_cons, List.map_nil] at sent
  obtain ⟨f, rfl, value⟩ := List.map_eq_singleton_iff.mp sent.symm
  have header := (there f (List.mem_singleton_self f)).header
  have inside := (headerAt_some header).1
  have start : f.offset = 0 := by
    by_contra later
    rw [alone f.offset (by simp only [GRP_HEADER_SIZE] at inside; omega) later] at header
    cases header
  obtain ⟨offset, group', byteCount⟩ := f
  subst start
  rw [first] at header
  cases header
  exact value

set_option maxRecDepth 8000 in
/-- Two streams with the same range and different bytes behind it. -/
theorem reads_past_its_range : ¬ ∃ content : Bytes → Option Container, ∀ chunks d,
    Run zeroMemory chunks d → Framed content chunks.flatten d.conference := by
  rintro ⟨content, always⟩
  have eval₁ : (feed zeroMemory 60 fresh [emptyRecord 1]).any
      (fun d => d.conference = [.grp10003 { pulsecount := 1 }]) = true := by decide +kernel
  have eval₂ : (feed zeroMemory 60 fresh [emptyRecord 2]).any
      (fun d => d.conference = [.grp10003 { pulsecount := 2 }]) = true := by decide +kernel
  obtain ⟨d₁, run₁, sent₁⟩ := Run.of_eval eval₁
  obtain ⟨d₂, run₂, sent₂⟩ := Run.of_eval eval₂
  have framed₁ := always _ _ run₁
  have framed₂ := always _ _ run₂
  rw [of_decide_eq_true sent₁, List.flatten_singleton] at framed₁
  rw [of_decide_eq_true sent₂, List.flatten_singleton] at framed₂
  have first := framed₁.only (g := .grp10003) (n := 0) rfl (by decide) (by decide +kernel)
  have second := framed₂.only (g := .grp10003) (n := 0) rfl (by decide) (by decide +kernel)
  have same : (Frame.mk 0 .grp10003 0).range (emptyRecord 1) =
      (Frame.mk 0 .grp10003 0).range (emptyRecord 2) := by decide
  rw [same, second] at first
  cases first

end OpendlvCore.Applanix
