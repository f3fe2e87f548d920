import OpendlvCore.Applanix.Completeness
import OpendlvCore.Applanix.Compaction
import OpendlvCore.Applanix.Chunking
import OpendlvCore.Applanix.Termination

/-!
# Records with four bytes between them

The decoder adds the size of a footer to a byte count that covers the footer already: the streams
it reads are those where four more bytes follow every record. Its wait conditions count every
position twice, so as many bytes again have to follow the last record. Then nothing is lost
however the stream is cut, with one exception: a call that ends in the second half of the second
header leaves the decoder deaf.
-/
namespace OpendlvCore.Applanix
open CStream CBytes CLoop

/-- A record and the bytes behind it that the decoder skips. -/
structure Slot (mem : Nat → UInt8) extends Record mem where
  gap : Bytes
  gap_length : gap.length = GRP_FOOTER_SIZE

section Slots
variable {mem : Nat → UInt8}

def spaced (slots : List (Slot mem)) : Bytes := slots.flatMap fun s => s.bytes ++ s.gap

def sent (slots : List (Slot mem)) : List Container := slots.flatMap fun s => s.containers

/-- So many bytes end in the second half of the second header. -/
def Cut (slots : List (Slot mem)) (size : Nat) : Prop :=
  match slots with
  | first :: _ :: _ => first.byteCount + 16 ≤ size ∧ size < first.byteCount + 20
  | _ => False

/-- No call ends there. -/
def Uncut (slots : List (Slot mem)) (chunks : List Bytes) : Prop :=
  ∀ before, before <+: chunks → ¬ Cut slots before.flatten.length

/-- The buffer holds the stream but for what is still to come. -/
structure Receiving (slots : List (Slot mem)) (n : Nat) (later : Bytes) (d : Decoder) : Prop where
  ready : Ready d
  content : d.buffer.data ++ later = spaced slots ++ zeros n

/-- The places where a decoder can be that has lost nothing. -/
inductive Reached (slots : List (Slot mem)) (n : Nat) (later : Bytes) (d : Decoder) : Prop
  | searching {done : List (Slot mem)} {r : Slot mem} {left : List (Slot mem)} :
      Receiving slots n later d → slots = done ++ r :: left → d.buffering = false →
      d.toRemove = (spaced done).length → d.buffer.gptr ≤ d.toRemove →
      (done ≠ [] → d.toRemove + GRP_HEADER_SIZE ≤ d.buffer.data.length) →
      d.conference = sent done → Reached slots n later d
  | pending {done : List (Slot mem)} {r : Slot mem} {left : List (Slot mem)} :
      Receiving slots n later d → slots = done ++ r :: left → d.buffering = true →
      d.toRemove = (spaced done).length + GRP_HEADER_SIZE → d.payloadSize = r.byteCount →
      d.nextApplanixMessage = some r.group → d.conference = sent done → Reached slots n later d
  | behind : Receiving slots n later d → d.buffering = false →
      (spaced slots).length ≤ d.toRemove → d.buffer.gptr ≤ d.toRemove + 5 →
      d.conference = sent slots → Reached slots n later d
  /-- Only behind the last record of a stream of one. -/
  | deaf : slots.length ≤ 1 → d.buffer.good = false → d.conference = sent slots →
      Reached slots n later d

/-- A decoder that was cut off behind the first record. -/
def Lost (slots : List (Slot mem)) (d : Decoder) : Prop :=
  d.buffer.good = false ∧ d.conference = sent (slots.take 1)

theorem spaced_append (slots slots' : List (Slot mem)) :
    spaced (slots ++ slots') = spaced slots ++ spaced slots' := List.flatMap_append

theorem spaced_cons (r : Slot mem) (left : List (Slot mem)) :
    spaced (r :: left) = r.bytes ++ (r.gap ++ spaced left) := by
  rw [spaced, List.flatMap_cons, List.append_assoc]
  rfl

theorem sent_concat (done : List (Slot mem)) (r : Slot mem) :
    sent (done ++ [r]) = sent done ++ r.containers := by
  simp [sent]

theorem length_spaced_cons (r : Slot mem) (left : List (Slot mem)) :
    (spaced (r :: left)).length = r.byteCount + 12 + (spaced left).length := by
  rw [spaced_cons, List.length_append, List.length_append, r.length_bytes, r.gap_length]
  simp only [GRP_HEADER_SIZE, GRP_FOOTER_SIZE]
  omega

theorem length_spaced_concat (done : List (Slot mem)) (r : Slot mem) :
    (spaced (done ++ [r])).length = (spaced done).length + r.byteCount + 12 := by
  rw [spaced_append, List.length_append, length_spaced_cons]
  simp only [spaced, List.flatMap_nil, List.length_nil]
  omega

/-- No group is shorter than its time tags. -/
theorem Record.byteCount_ge (r : Record mem) : 30 ≤ r.byteCount := by
  have read : LoopsEnd r.group r.byteCount (r.payload ++ []) ∧
      readLength r.group r.byteCount (r.payload ++ []) = r.payload.length :=
    readLength_of_consumes r.range r.complete
  obtain ⟨ends, length⟩ := read
  have whole := readLength_ge ends
  rw [Record.byteCount]
  simp only [GRP_FOOTER_SIZE]
  omega

theorem Record.containers_ne_nil (r : Record mem) : r.containers ≠ [] := by
  have read := r.complete { data := r.payload } [] rfl (List.append_nil _).symm
  obtain ⟨c, head, _⟩ := readGroup_group read
  rintro none
  rw [none] at head
  cases head

end Slots

/-! ## The bytes at each place -/

section Content
variable {mem : Nat → UInt8} {slots done left : List (Slot mem)} {r : Slot mem} {n : Nat}
  {later : Bytes} {d : Decoder}

/-- What the buffer holds of the stream from the record at `spaced done` on. -/
theorem Receiving.drop (receiving : Receiving slots n later d) (split : slots = done ++ r :: left)
    {k : Nat} (inside : (spaced done).length + k ≤ d.buffer.data.length) :
    d.buffer.data.drop ((spaced done).length + k) ++ later =
      (r.bytes ++ (r.gap ++ (spaced left ++ zeros n))).drop k := by
  have whole := receiving.content
  rw [split, spaced_append, spaced_cons, List.append_assoc, List.append_assoc,
    List.append_assoc] at whole
  have dropped := congrArg (List.drop ((spaced done).length + k)) whole
  rwa [List.drop_append_of_le_length inside, List.drop_length_add_append] at dropped

theorem headerAt_spaced (done left : List (Slot mem)) (r : Slot mem) (n : Nat) :
    headerAt (spaced (done ++ r :: left) ++ zeros n) (spaced done).length =
      some (r.group, r.byteCount) := by
  rw [spaced_append, spaced_cons, List.append_assoc, List.append_assoc,
    ← r.header ((r.gap ++ spaced left) ++ zeros n)]
  apply headerAt_congr
  rw [List.drop_left, List.drop_zero]

theorem Receiving.header (receiving : Receiving slots n later d)
    (split : slots = done ++ r :: left)
    (inside : (spaced done).length + GRP_HEADER_SIZE ≤ d.buffer.data.length) :
    headerAt d.buffer.data (spaced done).length = some (r.group, r.byteCount) := by
  rw [← headerAt_spaced done left r n, ← split, ← receiving.content]
  apply headerAt_congr
  rw [List.drop_append_of_le_length (by omega), List.take_append_of_le_length]
  rw [List.length_drop]
  omega

/-- Six octets of the header are enough to see that one starts. -/
theorem Receiving.starts (receiving : Receiving slots n later d)
    (split : slots = done ++ r :: left) (inside : (spaced done).length + 6 ≤ d.buffer.data.length) :
    startsGroup (d.buffer.data.drop (spaced done).length) ≠ none := by
  intro other
  have header := headerAt_spaced done left r n
  rw [← split, ← receiving.content, headerAt_none inside other] at header
  cases header

/-- The payload is there as soon as its bytes are. -/
theorem Receiving.payload (receiving : Receiving slots n later d)
    (split : slots = done ++ r :: left)
    (position : d.toRemove = (spaced done).length + GRP_HEADER_SIZE)
    (inside : d.toRemove + r.payload.length ≤ d.buffer.data.length) :
    ∃ rest, pendingBytes d = r.payload ++ rest := by
  have here := receiving.drop split (k := GRP_HEADER_SIZE) (by omega)
  rw [r.drop_header, ← position] at here
  have start := congrArg (List.take r.payload.length) here
  rw [List.take_left, List.take_append_of_le_length (by rw [List.length_drop]; omega)] at start
  refine ⟨(pendingBytes d).drop r.payload.length, ?_⟩
  conv_lhs => rw [← List.take_append_drop r.payload.length (pendingBytes d)]
  rw [pendingBytes, start]

/-- Behind the last record no header starts. -/
theorem Receiving.zeros (receiving : Receiving slots n later d)
    {k : Nat} (behind : (spaced slots).length ≤ k) (inside : k ≤ d.buffer.data.length) :
    startsGroup (d.buffer.data.drop k) = none := by
  have whole := receiving.content
  obtain ⟨j, rfl⟩ := Nat.exists_eq_add_of_le behind
  have dropped := congrArg (List.drop ((spaced slots).length + j)) whole
  rw [List.drop_append_of_le_length inside, List.drop_length_add_append, zeros_drop] at dropped
  have start := congrArg (List.take (d.buffer.data.length - ((spaced slots).length + j))) dropped
  rw [List.take_left' List.length_drop] at start
  rw [start, CBytes.zeros, List.take_replicate]
  exact startsGroup_zeros _

end Content

/-! ## One pass -/

section Pass
variable {mem : Nat → UInt8} {slots done left : List (Slot mem)} {r : Slot mem} {n : Nat}
  {later : Bytes} {d e : Decoder} {g : Group} {containers : List Container}

theorem Receiving.next (receiving : Receiving slots n later d) (fits : Fits32 d)
    (step : pass mem d = some (.next e)) (good : e.buffer.good = true) :
    Receiving slots n later e ∧ e.buffer.data = d.buffer.data := by
  obtain ⟨ready, same⟩ := pass_ready_of_good receiving.ready fits step good
  exact ⟨⟨ready, same ▸ receiving.content⟩, same⟩

/-- A header test that does not fit into the buffer. -/
theorem HeaderTest.overruns (test : HeaderTest d e)
    (past : ¬ HeaderFits d.buffer.data d.toRemove) :
    e.buffer.good = false ∧ e.conference = d.conference := by
  cases test with
  | found header =>
    have inside := (headerAt_some header).1
    refine absurd ⟨?_, fun _ => inside⟩ past
    simp only [GRP_HEADER_SIZE] at inside
    omega
  | missed six other => exact absurd ⟨six, fun group => absurd other group⟩ past
  | fails _ failed conference => exact ⟨failed, conference⟩

/-- In front of a record a pass finds its header. -/
theorem Reached.found (receiving : Receiving slots n later d) (fits : Fits32 d)
    (split : slots = done ++ r :: left) (idle : d.buffering = false)
    (position : d.toRemove = (spaced done).length)
    (room : done ≠ [] → d.toRemove + GRP_HEADER_SIZE ≤ d.buffer.data.length)
    (conference : d.conference = sent done) (step : pass mem d = some (.next e)) :
    Reached slots n later e := by
  have outcome := pass_outcome mem receiving.ready fits
  rw [step] at outcome
  cases outcome with
  | searches _ enter test =>
    have inside : (spaced done).length + GRP_HEADER_SIZE ≤ d.buffer.data.length := by
      cases done with
      | nil =>
        change 0 + GRP_HEADER_SIZE ≤ _
        omega
      | cons => exact position ▸ room (List.cons_ne_nil _ _)
    have found := test.eq_found (position ▸ receiving.header split inside)
    subst found
    obtain ⟨after, -⟩ := receiving.next fits step receiving.ready.good
    simp only [Fits32, GRP_HEADER_SIZE] at fits inside
    have moved : add32 d.toRemove GRP_HEADER_SIZE = (spaced done).length + GRP_HEADER_SIZE := by
      simp only [add32, GRP_HEADER_SIZE]
      omega
    exact .pending after split rfl moved rfl rfl conference
  | overruns decoding => exact absurd decoding.buffering (by simp [idle])
  | rests decodes => exact absurd decodes.buffering (by simp [idle])
  | retests decodes => exact absurd decodes.buffering (by simp [idle])

/-- What a pass that decodes at its place makes of the state. -/
theorem Receiving.decodes (receiving : Receiving slots n later d)
    (split : slots = done ++ r :: left)
    (position : d.toRemove = (spaced done).length + GRP_HEADER_SIZE)
    (size : d.payloadSize = r.byteCount) (next : d.nextApplanixMessage = some r.group)
    (decoding : Decoding d g) :
    g = r.group ∧ LoopsEnd g d.payloadSize (pendingBytes d) ∧
      consumed d g = r.payload.length ∧
      d.toRemove + consumed d g ≤ d.buffer.data.length := by
  have enough := decoding.enough
  have count : r.byteCount = r.payload.length + 4 := rfl
  obtain ⟨rest, here⟩ := receiving.payload split position (by omega)
  cases Option.some.inj (next.symm.trans decoding.next)
  have ends : LoopsEnd r.group r.byteCount (r.payload ++ rest) ∧
      readLength r.group r.byteCount (r.payload ++ rest) = r.payload.length :=
    readLength_of_consumes r.range r.complete
  rw [← here] at ends
  have whole : consumed d r.group = r.payload.length := by
    rw [consumed, size]
    exact ends.2
  refine ⟨rfl, ?_, whole, by omega⟩
  rw [size]
  exact ends.1

theorem Receiving.sends (receiving : Receiving slots n later d)
    (split : slots = done ++ r :: left)
    (position : d.toRemove = (spaced done).length + GRP_HEADER_SIZE)
    (size : d.payloadSize = r.byteCount) (next : d.nextApplanixMessage = some r.group)
    (whole : Decodes mem d g containers) : containers = r.containers := by
  obtain ⟨rfl, _, count, inside⟩ := receiving.decodes split position size next whole.toDecoding
  obtain ⟨rest, here⟩ := receiving.payload split position (by omega)
  have consumes := whole.consumes
  rw [count, here, List.take_left, size] at consumes
  exact consumes.value_unique r.complete

/-- Behind a record the decoder stands in front of the next one, and lacks bytes of its header
only in the first record. -/
theorem Receiving.behind (receiving : Receiving slots n later d) (fits : Fits32 d)
    (split : slots = done ++ r :: left)
    (position : d.toRemove = (spaced done).length + GRP_HEADER_SIZE)
    (size : d.payloadSize = r.byteCount) (next : d.nextApplanixMessage = some r.group)
    (whole : Decodes mem d g containers) :
    (decoded d containers (consumed d g)).toRemove = (spaced (done ++ [r])).length ∧
      (decoded d containers (consumed d g)).buffer.gptr + GRP_HEADER_SIZE =
        (spaced (done ++ [r])).length ∧
      (done = [] ∨ (spaced (done ++ [r])).length + GRP_HEADER_SIZE ≤ d.buffer.data.length) := by
  obtain ⟨rfl, _, count, inside⟩ := receiving.decodes split position size next whole.toDecoding
  have moved := toRemove_decoded fits whole.toDecoding containers (consumed d r.group)
  have payload : r.byteCount = r.payload.length + 4 := rfl
  have length := length_spaced_concat done r
  have enough := whole.enough
  simp only [GRP_HEADER_SIZE, GRP_FOOTER_SIZE] at position moved ⊢
  refine ⟨by omega, ?_, ?_⟩
  · change d.toRemove + consumed d r.group + 8 = _
    omega
  · cases done with
    | nil => exact .inl rfl
    | cons first done =>
      have far := length_spaced_cons first done
      exact .inr (by omega)

/-- A pending record is decoded, and the next header is found at its place. -/
theorem Reached.decoded (receiving : Receiving slots n later d) (fits : Fits32 d)
    (split : slots = done ++ r :: left) (buffering : d.buffering = true)
    (position : d.toRemove = (spaced done).length + GRP_HEADER_SIZE)
    (size : d.payloadSize = r.byteCount) (next : d.nextApplanixMessage = some r.group)
    (conference : d.conference = sent done) (step : pass mem d = some (.next e)) :
    Reached slots n later e ∨ (Cut slots d.buffer.data.length ∧ Lost slots e) := by
  have large := r.byteCount_ge
  have split' : slots = (done ++ [r]) ++ left := by rw [split, List.append_assoc]; rfl
  have length := length_spaced_concat done r
  have payload : r.byteCount = r.payload.length + 4 := rfl
  have outcome := pass_outcome mem receiving.ready fits
  rw [step] at outcome
  cases outcome with
  | searches idle =>
    rw [buffering] at idle
    cases idle
  | overruns decoding _ short =>
    have inside := (receiving.decodes split position size next decoding).2.2.2
    omega
  | @rests g containers whole rests =>
    obtain ⟨after, same⟩ := receiving.next fits step receiving.ready.good
    obtain ⟨moved, get, _⟩ := receiving.behind fits split position size next whole
    obtain ⟨_, _, count, _⟩ := receiving.decodes split position size next whole.toDecoding
    have low := (Decidable.not_not.mp rests).1
    have sends : (Applanix.decoded d containers (consumed d g)).conference = sent (done ++ [r]) := by
      rw [sent_concat, ← conference, ← receiving.sends split position size next whole]
      rfl
    left
    cases left with
    | nil =>
      rw [List.append_nil] at split'
      exact .behind after rfl (by rw [split', moved]) (by omega) (by rw [split', sends])
    | cons r' left =>
      refine .searching after split' rfl moved (by omega) (fun _ => ?_) sends
      rw [same, moved]
      simp only [GRP_HEADER_SIZE, GRP_FOOTER_SIZE] at position low ⊢
      omega
  | @retests g containers _ whole _ test =>
    obtain ⟨moved, _, room⟩ := receiving.behind fits split position size next whole
    have enough := whole.enough
    have sends : (Applanix.decoded d containers (consumed d g)).conference = sent (done ++ [r]) := by
      rw [sent_concat, ← conference, ← receiving.sends split position size next whole]
      rfl
    have small : (spaced (done ++ [r])).length + GRP_HEADER_SIZE < 2 ^ 32 := by
      simp only [Fits32, GRP_HEADER_SIZE] at fits position enough ⊢
      omega
    cases left with
    | nil =>
      rw [List.append_nil] at split'
      left
      by_cases six : (spaced (done ++ [r])).length + 6 ≤ d.buffer.data.length
      · have missed := test.eq_missed (by rw [moved]; exact six)
          (by rw [moved, ← split']; exact receiving.zeros (Nat.le_refl _) (by rw [split']; omega))
        subst missed
        obtain ⟨after, -⟩ := receiving.next fits step receiving.ready.good
        have skipped : add32 (Applanix.decoded d containers (consumed d g)).toRemove 1 =
            (spaced (done ++ [r])).length + 1 := by
          simp only [GRP_HEADER_SIZE] at small
          rw [moved, add32]
          omega
        refine .behind after rfl ?_ ?_ (by rw [split']; exact sends)
        · change _ ≤ add32 _ 1
          rw [skipped, split']
          exact Nat.le_succ _
        · change (Applanix.decoded d containers (consumed d g)).toRemove + 6 ≤ add32 _ 1 + 5
          rw [skipped, moved]
      · obtain ⟨failed, conference'⟩ := test.overruns fun fits => six (moved ▸ fits.1)
        refine .deaf ?_ failed (by rw [conference', split', sends])
        rcases room with rfl | far
        · rw [split']
          exact Nat.le_refl 1
        · simp only [GRP_HEADER_SIZE] at far
          omega
    | cons r' left =>
      by_cases inside : (spaced (done ++ [r])).length + GRP_HEADER_SIZE ≤ d.buffer.data.length
      · have found := test.eq_found (moved ▸ receiving.header split' inside)
        subst found
        obtain ⟨after, -⟩ := receiving.next fits step receiving.ready.good
        refine .inl (.pending after split' rfl ?_ rfl rfl sends)
        rw [headerFound, add32, moved]
        exact Nat.mod_eq_of_lt small
      · have first : done = [] := room.resolve_right inside
        subst first
        obtain ⟨failed, conference'⟩ := test.overruns fun fits => inside
          (moved ▸ fits.2 (moved ▸ receiving.starts split' (by rw [← moved]; exact fits.1)))
        refine .inr ⟨?_, failed, ?_⟩
        · subst split
          simp only [GRP_HEADER_SIZE] at position inside
          rw [length] at inside
          simp only [spaced, List.flatMap_nil, List.length_nil] at position inside
          exact ⟨by omega, by omega⟩
        · rw [conference', split', sends]
          rfl

end Pass

/-! ## Calls and runs -/

section Run
variable {mem : Nat → UInt8} {slots : List (Slot mem)} {n size : Nat} {later data : Bytes}
  {d e : Decoder}

theorem Receiving.length (receiving : Receiving slots n later d) :
    d.buffer.data.length + later.length = (spaced slots).length + n := by
  have whole := congrArg List.length receiving.content
  rwa [List.length_append, List.length_append, length_zeros] at whole

theorem Receiving.fits (receiving : Receiving slots n later d)
    (small : (spaced slots).length + n ≤ MAX_BUFFER) : Fits32 d := by
  have length := receiving.length
  simp only [Fits32, GRP_HEADER_SIZE, MAX_BUFFER] at small ⊢
  omega

/-- A place is left for the next one, or a cut header ends the reception. -/
theorem Reached.step (reached : Reached slots n later d)
    (small : (spaced slots).length + n ≤ MAX_BUFFER)
    (received : size + later.length = (spaced slots).length + n)
    (step : pass mem d = some (.next e)) :
    Reached slots n later e ∨ (Cut slots size ∧ Lost slots e) := by
  cases reached with
  | searching receiving split idle position _ room conference =>
    exact .inl (.found receiving (receiving.fits small) split idle position room conference step)
  | pending receiving split buffering position count next conference =>
    have same : d.buffer.data.length = size := by
      have length := receiving.length
      omega
    rw [← same]
    exact Reached.decoded receiving (receiving.fits small) split buffering position count next
      conference step
  | behind receiving idle past get conference =>
    have fits := receiving.fits small
    have outcome := pass_outcome mem receiving.ready fits
    have other := receiving.zeros past receiving.ready.remove
    rw [step] at outcome
    cases outcome with
    | searches _ enter test =>
      have six : d.toRemove + 6 ≤ d.buffer.data.length := by
        simp only [GRP_HEADER_SIZE] at enter
        omega
      have missed := test.eq_missed six other
      subst missed
      obtain ⟨after, -⟩ := receiving.next fits step receiving.ready.good
      have moved : add32 d.toRemove 1 = d.toRemove + 1 := by
        simp only [Fits32, GRP_HEADER_SIZE] at fits
        rw [add32]
        omega
      refine .inl (.behind after idle ?_ ?_ conference)
      · change _ ≤ add32 d.toRemove 1
        omega
      · change d.toRemove + 6 ≤ add32 d.toRemove 1 + 5
        omega
    | overruns decoding => exact absurd decoding.buffering (by simp [idle])
    | rests decodes => exact absurd decodes.buffering (by simp [idle])
    | retests decodes => exact absurd decodes.buffering (by simp [idle])
  | deaf _ failed =>
    rw [pass_of_not_good failed] at step
    cases step

/-- The loops of the pending record's reader end. -/
theorem Reached.passEnds (reached : Reached slots n later d) : PassEnds d := by
  intro g decoding
  cases reached with
  | searching _ _ idle => exact absurd decoding.buffering (by simp [idle])
  | pending receiving split _ position count next =>
    exact (receiving.decodes split position count next decoding).2.1
  | behind _ idle => exact absurd decoding.buffering (by simp [idle])
  | deaf _ failed => exact absurd decoding.good (by simp [failed])

theorem Receiving.append (receiving : Receiving slots n (data ++ later) d) :
    Receiving slots n later (append d data) where
  ready := append_ready receiving.ready
  content := by
    rw [append_eq receiving.ready, ← receiving.content]
    exact List.append_assoc ..

theorem Reached.append (reached : Reached slots n (data ++ later) d) :
    Reached slots n later (append d data) := by
  cases reached with
  | searching receiving split idle position get room conference =>
    have more := receiving.append
    rw [append_eq receiving.ready] at more ⊢
    refine .searching more split idle position (Nat.le_refl _) (fun started => ?_) conference
    simp only [List.length_append]
    exact Nat.le_add_right_of_le (room started)
  | pending receiving split buffering position count next conference =>
    have more := receiving.append
    rw [append_eq receiving.ready] at more ⊢
    exact .pending more split buffering position count next conference
  | behind receiving idle past get conference =>
    have more := receiving.append
    rw [append_eq receiving.ready] at more ⊢
    exact .behind more idle past (Nat.le_add_right _ _) conference
  | deaf single failed conference => exact .deaf single (append_not_good failed) conference

/-- A stream that fits into the buffer is never compacted. -/
theorem Reached.discard (reached : Reached slots n later d)
    (small : (spaced slots).length + n ≤ MAX_BUFFER) : discard d = d := by
  have short : ∀ d, Receiving slots n later d → Applanix.discard d = d := by
    intro d receiving
    have length := receiving.length
    have remove := receiving.ready.remove
    exact discard_id fun compacts => by omega
  cases reached with
  | searching receiving => exact short d receiving
  | pending receiving => exact short d receiving
  | behind receiving => exact short d receiving
  | deaf _ failed => exact discard_not_good failed

/-- Every call returns, at another place or cut off. -/
theorem Reached.call (reached : Reached slots n (data ++ later) d)
    (small : (spaced slots).length + n ≤ MAX_BUFFER)
    (received : size + later.length = (spaced slots).length + n) :
    ∃ fuel e, nextString mem fuel d data = some e ∧
      (Reached slots n later e ∧ pass mem e = some (.done e) ∨ Cut slots size ∧ Lost slots e) := by
  have start := reached.append
  have places : ∀ t, Visited mem d data t →
      Reached slots n later t ∨ (Cut slots size ∧ Lost slots t) := by
    intro t visited
    refine Visits.invariant (fun t => Reached slots n later t ∨ (Cut slots size ∧ Lost slots t))
      visited (.inl start) ?_
    intro a b _ place step
    rcases place with reached | ⟨_, failed, _⟩
    · exact reached.step small received step
    · rw [pass_of_not_good failed] at step
      cases step
  have returns : ∃ fuel e, nextString mem fuel d data = some e := by
    have ends : ∀ t, Visited mem d data t → PassEnds t := by
      intro t visited
      rcases places t visited with reached | ⟨_, failed, _⟩
      · exact reached.passEnds
      · intro g decoding
        exact absurd decoding.good (by simp [failed])
    cases good : d.buffer.good with
    | false => exact ⟨1, _, call_of_not_good good⟩
    | true =>
      have receiving : Receiving slots n (data ++ later) d := by
        cases reached with
        | searching receiving => exact receiving
        | pending receiving => exact receiving
        | behind receiving => exact receiving
        | deaf _ failed => simp [good] at failed
      exact (call_returns_iff mem receiving.ready (receiving.append.fits small)).mpr ends
  obtain ⟨fuel, e, returns⟩ := returns
  obtain ⟨t, visited, leaves, rfl⟩ := nextString_some returns
  refine ⟨fuel, _, returns, ?_⟩
  rcases places t visited with reached | ⟨cut, failed, conference⟩
  · rw [reached.discard small]
    exact .inl ⟨reached, leaves⟩
  · rw [discard_not_good failed]
    exact .inr ⟨cut, failed, conference⟩

theorem Cut.exists (cut : Cut slots size) :
    ∃ first second left, slots = first :: second :: left ∧
      first.byteCount + 16 ≤ size ∧ size < first.byteCount + 20 := by
  match slots, cut with
  | first :: second :: left, ⟨low, high⟩ => exact ⟨first, second, left, rfl, low, high⟩

/-- Where a loop ends at a place, either everything was sent or the next record is held back. -/
theorem Reached.leaves (reached : Reached slots n later d)
    (small : (spaced slots).length + n ≤ MAX_BUFFER)
    (received : size + later.length = (spaced slots).length + n)
    (leaves : pass mem d = some (.done d)) :
    (d.conference = sent slots ∧ (slots.length ≤ 1 ∨ (spaced slots).length ≤ size)) ∨
      ∃ done r left, slots = done ++ r :: left ∧
        size < 2 * (spaced done).length + r.byteCount + 16 ∧
        (done ≠ [] → (spaced done).length + GRP_HEADER_SIZE ≤ size) := by
  have whole : ∀ receiving : Receiving slots n later d, d.buffer.data.length = size := by
    intro receiving
    have length := receiving.length
    omega
  cases reached with
  | @searching done r left receiving split idle position get room conference =>
    have large := r.byteCount_ge
    have outcome := pass_outcome mem receiving.ready (receiving.fits small)
    rw [leaves] at outcome
    rw [whole receiving, position] at room
    refine .inr ⟨done, r, left, split, ?_, room⟩
    cases outcome with
    | exits low =>
      rw [whole receiving] at low
      simp only [GRP_HEADER_SIZE] at low
      omega
    | waits buffering => simp [idle] at buffering
  | @pending done r left receiving split buffering position count _ conference =>
    have large := r.byteCount_ge
    have here := (receiving.ready.pending buffering).1
    have remove := receiving.ready.remove
    have outcome := pass_outcome mem receiving.ready (receiving.fits small)
    rw [leaves] at outcome
    rw [whole receiving] at remove
    refine .inr ⟨done, r, left, split, ?_, fun _ => by omega⟩
    simp only [GRP_HEADER_SIZE] at position
    cases outcome with
    | exits low =>
      rw [whole receiving] at low
      simp only [GRP_HEADER_SIZE] at low
      omega
    | waits _ low =>
      rw [whole receiving] at low
      omega
  | behind receiving _ past _ conference =>
    have remove := receiving.ready.remove
    rw [whole receiving] at remove
    exact .inl ⟨conference, .inr (by omega)⟩
  | deaf single _ conference => exact .inl ⟨conference, .inl single⟩

/-- With a cut header in the buffer the loop does not end at a place. -/
theorem Reached.goes_on (reached : Reached slots n later d)
    (small : (spaced slots).length + n ≤ MAX_BUFFER)
    (received : size + later.length = (spaced slots).length + n) (cut : Cut slots size) :
    pass mem d ≠ some (.done d) := by
  intro leaves
  obtain ⟨first, second, rest, rfl, low, high⟩ := cut.exists
  have length := length_spaced_cons first (second :: rest)
  have length' := length_spaced_cons second rest
  have large := second.byteCount_ge
  rcases reached.leaves small received leaves with
    ⟨_, single | whole⟩ | ⟨done, r, left, split, held, room⟩
  · simp at single
  · omega
  · cases done with
    | nil =>
      obtain ⟨rfl, _⟩ := List.cons.inj split
      simp only [spaced, List.flatMap_nil, List.length_nil] at held
      omega
    | cons first' done =>
      obtain ⟨rfl, _⟩ := List.cons.inj split
      have far := room (List.cons_ne_nil _ _)
      rw [length_spaced_cons] at far
      simp only [GRP_HEADER_SIZE] at far
      omega

/-- Once everything was received, everything was sent. -/
theorem Reached.finished (reached : Reached slots n [] d)
    (enough : (spaced slots).length ≤ n) (small : (spaced slots).length + n ≤ MAX_BUFFER)
    (leaves : pass mem d = some (.done d)) : d.conference = sent slots := by
  have all : (spaced slots).length + n + ([] : Bytes).length = (spaced slots).length + n := rfl
  rcases reached.leaves small all leaves with
    ⟨conference, _⟩ | ⟨done, r, left, rfl, held, _⟩
  · exact conference
  · rw [spaced_append, List.length_append, length_spaced_cons] at enough held
    omega

/-- A cut-off decoder stays deaf. -/
theorem Lost.call (lost : Lost slots d) :
    ∃ e, nextString mem 1 d data = some e ∧ Lost slots e := by
  have failed : (Applanix.append d data).buffer.good = false := append_not_good lost.1
  refine ⟨_, call_of_not_good lost.1, ?_⟩
  rw [discard_not_good failed]
  exact ⟨failed, lost.2⟩

theorem reached_fresh (whole : later = spaced slots ++ zeros n) :
    Reached slots n later fresh := by
  have receiving : Receiving slots n later fresh := ⟨fresh_ready, whole⟩
  cases slots with
  | nil => exact .behind receiving rfl (Nat.le_refl _) (Nat.zero_le _) rfl
  | cons r left =>
    have first : r :: left = [] ++ r :: left := rfl
    exact .searching receiving first rfl rfl (Nat.le_refl _) (fun started => absurd rfl started) rfl

/-- Where a run stands: at a place, or cut off since one of its calls. -/
theorem run_spaced (slots : List (Slot mem)) {n : Nat}
    (small : (spaced slots).length + n ≤ MAX_BUFFER) (chunks : List Bytes) (later : Bytes)
    (whole : chunks.flatten ++ later = spaced slots ++ zeros n) :
    ∃ d, Run mem chunks d ∧
      (Uncut slots chunks ∧ Reached slots n later d ∧ pass mem d = some (.done d) ∨
        ¬ Uncut slots chunks ∧ Lost slots d) := by
  induction chunks using List.reverseRecOn generalizing later with
  | nil =>
    refine ⟨fresh, .fresh, .inl ⟨?_, reached_fresh whole, rfl⟩⟩
    intro before within cut
    obtain ⟨first, _, _, _, low, _⟩ := cut.exists
    rw [List.prefix_nil.mp within, List.flatten_nil, List.length_nil] at low
    omega
  | append_singleton chunks data ih =>
    have whole' : chunks.flatten ++ (data ++ later) = spaced slots ++ zeros n := by
      rw [← whole, List.flatten_append, List.flatten_singleton, List.append_assoc]
    have received : (chunks ++ [data]).flatten.length + later.length =
        (spaced slots).length + n := by
      rw [← List.length_append, whole, List.length_append, length_zeros]
    obtain ⟨d, run, ⟨uncut, reached, _⟩ | ⟨cut, lost⟩⟩ := ih (data ++ later) whole'
    · obtain ⟨fuel, e, returns, ⟨reached', leaves⟩ | ⟨cut, lost⟩⟩ := reached.call small received
      · refine ⟨e, .call fuel run returns, .inl ⟨?_, reached', leaves⟩⟩
        intro before within
        rcases List.prefix_concat_iff.mp within with rfl | shorter
        · exact fun cut => reached'.goes_on small received cut leaves
        · exact uncut before shorter
      · exact ⟨e, .call fuel run returns, .inr
          ⟨fun uncut => uncut _ (List.prefix_refl _) cut, lost⟩⟩
    · obtain ⟨e, returns, lost'⟩ : ∃ e, nextString mem 1 d data = some e ∧ Lost slots e :=
        lost.call
      refine ⟨e, .call 1 run returns, .inr ⟨fun uncut => cut fun before within => ?_, lost'⟩⟩
      exact uncut before (within.trans (List.prefix_append _ _))

/-- The records behind the first one would have sent something. -/
theorem sent_of_cut {chunks : List Bytes} (cut : ¬ Uncut slots chunks) :
    sent (slots.take 1) ≠ sent slots := by
  intro same
  refine cut fun before _ there => ?_
  obtain ⟨first, second, left, rfl, _, _⟩ := there.exists
  have whole : sent (first :: second :: left) =
      sent [first] ++ (second.containers ++ sent left) := by simp [sent]
  have none := List.append_cancel_left (whole.symm.trans (same.symm.trans (List.append_nil _).symm))
  exact second.containers_ne_nil (List.append_eq_nil_iff.mp none).1

end Run

theorem length_four_zeros : (zeros 4).length = 4 := rfl

/-- The record `pulse` with four zeros behind it. -/
def pulseSlot : Slot zeroMemory where
  toRecord := pulse
  gap := zeros 4
  gap_length := length_four_zeros

/-- However the stream is cut, every call returns, and everything is sent unless a call ends in
the second half of the second header; then only the first record is. -/
theorem spaced_records_arrive {mem : Nat → UInt8} (slots : List (Slot mem)) {n : Nat}
    (enough : (spaced slots).length ≤ n) (small : (spaced slots).length + n ≤ MAX_BUFFER)
    (chunks : List Bytes) (whole : chunks.flatten = spaced slots ++ zeros n) :
    ∃ d, Run mem chunks d ∧ (d.conference = sent slots ↔ Uncut slots chunks) ∧
      (¬ Uncut slots chunks → d.conference = sent (slots.take 1)) := by
  obtain ⟨d, run, ⟨uncut, reached, leaves⟩ | ⟨cut, lost⟩⟩ :=
    run_spaced slots small chunks [] (by rw [List.append_nil, whole])
  · exact ⟨d, run, iff_of_true (reached.finished enough small leaves) uncut,
      fun cut => absurd uncut cut⟩
  · refine ⟨d, run, iff_of_false (fun all => ?_) cut, fun _ => lost.2⟩
    rw [lost.2] at all
    exact sent_of_cut cut all

/-- A stream of two records, cut behind the first one and at the end. -/
theorem spaced_records_arrive_pulses :
    ∃ d, Run zeroMemory [spaced [pulseSlot], spaced [pulseSlot] ++ zeros 120] d ∧
      (d.conference = sent [pulseSlot, pulseSlot] ↔
        Uncut [pulseSlot, pulseSlot] [spaced [pulseSlot], spaced [pulseSlot] ++ zeros 120]) ∧
      (¬ Uncut [pulseSlot, pulseSlot] [spaced [pulseSlot], spaced [pulseSlot] ++ zeros 120] →
        d.conference = sent ([pulseSlot, pulseSlot].take 1)) :=
  spaced_records_arrive [pulseSlot, pulseSlot] (n := 120) (by decide) (by decide) _
    (by decide +kernel)

end OpendlvCore.Applanix
