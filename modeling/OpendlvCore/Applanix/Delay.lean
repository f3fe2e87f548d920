import OpendlvCore.Applanix.Compaction

/-!
# What the Applanix decoder holds back

Both fill levels of the main loop add the get position and `m_toRemove`, so a record is let through
only while it lies in the first half of the buffer, and a search reads only there. A call holds
nothing back exactly if its records come early enough: each one it completes is tested for the next
header at once, and the bytes end inside a record, or a few bytes behind one.
-/
namespace OpendlvCore.Applanix
open CStream CBytes CLoop

/-- Fewer bytes than a header lie at or beyond `m_toRemove`, or fewer than the pending record has. -/
def NothingWaits (e : Decoder) : Prop :=
  if e.buffering then (pendingBytes e).length < e.payloadSize
  else (pendingBytes e).length < GRP_HEADER_SIZE

instance (e : Decoder) : Decidable (NothingWaits e) := by
  unfold NothingWaits
  infer_instance

/-- Fewer bytes than a header lie where the buffer begins after a call with these positions: behind
what is removed, or at the cut. -/
def FewLeft (size get remove : Nat) : Prop :=
  size < (if MAX_BUFFER < remove then get else remove) + GRP_HEADER_SIZE

/-- The payload of `n` bytes at `r` is early enough to be decoded, and for the test behind it. -/
structure InTime (bytes : Bytes) (g : Group) (r n : Nat) : Prop where
  enters : 2 * r + GRP_HEADER_SIZE < bytes.length
  enough : 2 * r + n ≤ bytes.length
  -- no test is made only where the decoder's own count of what is left is between 0 and 7
  tests : ¬ (2 * r + readLength g n (bytes.drop r) + n + GRP_FOOTER_SIZE ≤ bytes.length ∧
    bytes.length < 2 * r + readLength g n (bytes.drop r) + n + GRP_FOOTER_SIZE + GRP_HEADER_SIZE)

/-- The first header at or beyond `p` starts at `h`. -/
structure FirstHeader (bytes : Bytes) (p h : Nat) (g : Group) (n : Nat) : Prop where
  behind : p ≤ h
  header : headerAt bytes h = some (g, n)
  first : ∀ i, p ≤ i → i < h → headerAt bytes i = none

/-- A search from `p` comes to a header at `h`: in its first test, or early enough for all of them. -/
def Reaches (size p h : Nat) : Prop := h = p ∨ 2 * h + 13 < size

/-- From the payload of a pending record on, the records in `bytes` come early enough. -/
inductive Timely (bytes : Bytes) : Group → Nat → Nat → Prop
  /-- The bytes end inside the record. -/
  | incomplete {g : Group} {r n : Nat} : bytes.length < r + n → Timely bytes g r n
  /-- They end a few bytes behind it. -/
  | last {g : Group} {r n : Nat} : InTime bytes g r n →
      headerAt bytes (r + n + GRP_FOOTER_SIZE) = none →
      FewLeft bytes.length (r + n + GRP_FOOTER_SIZE + 6) (r + n + GRP_FOOTER_SIZE + 1) →
      Timely bytes g r n
  | next {g g' : Group} {r n h n' : Nat} : InTime bytes g r n →
      FirstHeader bytes (r + n + GRP_FOOTER_SIZE) h g' n' →
      Reaches bytes.length (r + n + GRP_FOOTER_SIZE) h →
      Timely bytes g' (h + GRP_HEADER_SIZE) n' → Timely bytes g r n

/-- A search that starts at `remove` with this get position leaves nothing: there are too few bytes
for it, or it comes to a header from which the records come early enough. -/
def TimelySearch (bytes : Bytes) (get remove : Nat) : Prop :=
  FewLeft bytes.length get remove ∨
    get + remove + GRP_HEADER_SIZE < bytes.length ∧
      ∃ h g n, FirstHeader bytes remove h g n ∧ Reaches bytes.length remove h ∧
        Timely bytes g (h + GRP_HEADER_SIZE) n

/-- What a state at the head of the loop still has to do is early enough. -/
def OnTime (d : Decoder) : Prop :=
  if d.buffering then
    ∃ g, d.nextApplanixMessage = some g ∧ Timely d.buffer.data g d.toRemove d.payloadSize
  else TimelySearch d.buffer.data d.buffer.gptr d.toRemove

/-- What the buffer and the chunk hold between them comes early enough. -/
def Prompt (d : Decoder) (data : Bytes) : Prop :=
  if d.buffering then ∃ g, d.nextApplanixMessage = some g ∧
    Timely (d.buffer.data ++ data) g d.toRemove d.payloadSize
  else TimelySearch (d.buffer.data ++ data) d.toRemove d.toRemove

section Records
variable {bytes : Bytes} {g g' : Group} {r n h n' p get : Nat}

theorem FewLeft.cases {size : Nat} (few : FewLeft size get p) :
    size < p + 8 ∨ 32768 < p ∧ size < get + 8 := by
  unfold FewLeft at few
  split at few
  · rename_i late
    exact .inr ⟨late, few⟩
  · exact .inl few

theorem FirstHeader.of_header (header : headerAt bytes p = some (g, n)) :
    FirstHeader bytes p p g n :=
  ⟨Nat.le_refl _, header, fun _ low high => absurd high (Nat.not_lt_of_le low)⟩

/-- A header where the search starts is the one it comes to. -/
theorem FirstHeader.eq_of_header (first : FirstHeader bytes p h g n)
    (header : headerAt bytes p = some (g', n')) : h = p ∧ g = g' ∧ n = n' := by
  have here : h = p := by
    by_contra other
    have none := first.first p (Nat.le_refl _) (by have := first.behind; omega)
    rw [header] at none
    cases none
  subst here
  have same := first.header.symm.trans header
  simp only [Option.some.injEq, Prod.mk.injEq] at same
  exact ⟨rfl, same⟩

/-- Where no header starts, the search goes on one byte further. -/
theorem firstHeader_succ (other : headerAt bytes p = none) :
    FirstHeader bytes p h g n ↔ FirstHeader bytes (p + 1) h g n := by
  constructor
  · rintro ⟨behind, header, first⟩
    have away : h ≠ p := by
      rintro rfl
      rw [header] at other
      cases other
    exact ⟨by omega, header, fun i low => first i (by omega)⟩
  · rintro ⟨behind, header, first⟩
    refine ⟨by omega, header, fun i _ high => ?_⟩
    by_cases here : i = p
    · rwa [here]
    · exact first i (by omega) high

/-- A record that is complete, but comes too late, is not on time. -/
theorem not_timely (whole : r + n ≤ bytes.length) (late : ¬ InTime bytes g r n) :
    ¬ Timely bytes g r n := by
  intro timely
  cases timely with
  | incomplete few => omega
  | last inTime => exact late inTime
  | next inTime => exact late inTime

theorem timely_iff_of_header (inTime : InTime bytes g r n)
    (header : headerAt bytes (r + n + GRP_FOOTER_SIZE) = some (g', n')) :
    Timely bytes g r n ↔
      Timely bytes g' (r + n + GRP_FOOTER_SIZE + GRP_HEADER_SIZE) n' := by
  constructor
  · intro timely
    cases timely with
    | incomplete few =>
      have enough := inTime.enough
      omega
    | last _ none =>
      rw [header] at none
      cases none
    | next _ first _ rest =>
      obtain ⟨rfl, rfl, rfl⟩ := first.eq_of_header header
      exact rest
  · exact .next inTime (.of_header header) (.inl rfl)

/-- Behind a missed test the search goes on at the next byte. -/
theorem timelySearch_succ (other : headerAt bytes p = none) :
    TimelySearch bytes (p + 6) (p + 1) ↔ FewLeft bytes.length (p + 6) (p + 1) ∨
      ∃ h g n, FirstHeader bytes p h g n ∧ Reaches bytes.length p h ∧
        Timely bytes g (h + GRP_HEADER_SIZE) n := by
  rw [TimelySearch]
  refine or_congr_right ?_
  constructor
  · rintro ⟨enter, h, g, n, first, reaches, timely⟩
    refine ⟨h, g, n, (firstHeader_succ other).mpr first, ?_, timely⟩
    simp only [Reaches, GRP_HEADER_SIZE] at reaches enter ⊢
    omega
  · rintro ⟨h, g, n, first, reaches, timely⟩
    have next := (firstHeader_succ other).mp first
    have behind := next.behind
    have far : 2 * h + 13 < bytes.length := by
      rcases reaches with here | far
      · omega
      · exact far
    refine ⟨?_, h, g, n, next, .inr far, timely⟩
    simp only [GRP_HEADER_SIZE]
    omega

theorem timely_iff_of_missed (inTime : InTime bytes g r n)
    (other : headerAt bytes (r + n + GRP_FOOTER_SIZE) = none) :
    Timely bytes g r n ↔
      TimelySearch bytes (r + n + GRP_FOOTER_SIZE + 6) (r + n + GRP_FOOTER_SIZE + 1) := by
  rw [timelySearch_succ other]
  constructor
  · intro timely
    cases timely with
    | incomplete few =>
      have enough := inTime.enough
      omega
    | last _ _ few => exact .inl few
    | next _ first reaches rest => exact .inr ⟨_, _, _, first, reaches, rest⟩
  · rintro (few | ⟨h, g', n', first, reaches, rest⟩)
    · exact .last inTime other few
    · exact .next inTime first reaches rest

theorem not_fewLeft (enter : get + p + GRP_HEADER_SIZE < bytes.length) :
    ¬ FewLeft bytes.length get p := by
  intro few
  have left := few.cases
  simp only [GRP_HEADER_SIZE] at enter
  omega

/-- A search that starts at a header is on time if its record is. -/
theorem timelySearch_iff_of_header (enter : get + p + GRP_HEADER_SIZE < bytes.length)
    (header : headerAt bytes p = some (g, n)) :
    TimelySearch bytes get p ↔ Timely bytes g (p + GRP_HEADER_SIZE) n := by
  constructor
  · rintro (few | ⟨_, h, g', n', first, _, timely⟩)
    · exact absurd few (not_fewLeft enter)
    · obtain ⟨rfl, rfl, rfl⟩ := first.eq_of_header header
      exact timely
  · exact fun timely => .inr ⟨enter, p, g, n, .of_header header, .inl rfl, timely⟩

/-- A search that misses is on time if the one from the next byte is. -/
theorem timelySearch_iff_of_missed (low : p ≤ get)
    (enter : get + p + GRP_HEADER_SIZE < bytes.length) (other : headerAt bytes p = none) :
    TimelySearch bytes get p ↔ TimelySearch bytes (p + 6) (p + 1) := by
  have many : ¬ FewLeft bytes.length (p + 6) (p + 1) := by
    intro few
    have left := few.cases
    simp only [GRP_HEADER_SIZE] at enter
    omega
  rw [timelySearch_succ other, or_iff_right many, TimelySearch, or_iff_right (not_fewLeft enter),
    and_iff_right enter]

end Records

/-- Where the buffer begins after the call: behind what is removed, or at the cut. -/
def cutAt (t : Decoder) : Nat := if MAX_BUFFER < t.toRemove then t.buffer.gptr else t.toRemove

section Delay
variable {mem : Nat → UInt8} {chunks : List Bytes} {d e s t : Decoder} {data : Bytes} {fuel : Nat}

theorem discard_buffering (t : Decoder) : (discard t).buffering = t.buffering := by
  unfold discard
  split <;> rfl

theorem discard_payloadSize (t : Decoder) : (discard t).payloadSize = t.payloadSize := by
  unfold discard
  split <;> rfl

/-- What lies at or beyond `m_toRemove` after the call. -/
theorem length_pendingBytes_discard (visited : Visited mem d data t) (start : Ready d)
    (fits : Fits32 (append d data)) (good : t.buffer.good = true) :
    (pendingBytes (discard t)).length = t.buffer.data.length - cutAt t := by
  obtain ⟨ready, _⟩ := visited.sound_good start fits good
  by_cases late : MAX_BUFFER < t.toRemove
  · have read := visited.get_pos start fits good (Nat.zero_lt_of_lt late)
    rw [discard_eq ready late read, cutAt, if_pos late, pendingBytes]
    simp
  · rw [discard_id fun compacts => late compacts.2, cutAt, if_neg late, pendingBytes,
      List.length_drop]

/-- The search never enters a pass with its get position before `m_toRemove`. -/
theorem Visited.get_ge (visited : Visited mem d data s) (start : Ready d)
    (fits : Fits32 (append d data)) (good : s.buffer.good = true) (idle : s.buffering = false)
    (enter : s.buffer.gptr + s.toRemove + GRP_HEADER_SIZE < s.buffer.data.length) :
    s.toRemove ≤ s.buffer.gptr := by
  rcases visited.last_pass start fits good with rfl | ⟨r, _, _, last, same⟩
  · rw [append_eq start]
  · cases last with
    | found buffering => simp [idle] at buffering
    | missed => omega
    | rested _ rests =>
      have low := (Decidable.not_not.mp rests).2
      rw [← same] at low
      omega
    | retested => omega

theorem inTime_iff {g : Group} (ready : Ready s) (buffering : s.buffering = true)
    (next : s.nextApplanixMessage = some g) :
    InTime s.buffer.data g s.toRemove s.payloadSize ↔ Decoding s g ∧ Retests s g := by
  constructor
  · rintro ⟨enters, enough, tests⟩
    exact ⟨⟨ready.good, buffering, next, enters, enough⟩, tests⟩
  · rintro ⟨decoding, tests⟩
    exact ⟨decoding.enter, decoding.enough, tests⟩

theorem onTime_pending {g : Group} (buffering : s.buffering = true)
    (next : s.nextApplanixMessage = some g) :
    OnTime s ↔ Timely s.buffer.data g s.toRemove s.payloadSize := by
  simp only [OnTime, buffering, if_true, next, Option.some.injEq, exists_eq_left']

theorem onTime_idle (idle : s.buffering = false) :
    OnTime s ↔ TimelySearch s.buffer.data s.buffer.gptr s.toRemove := by
  simp [OnTime, idle]

theorem headerAt_eq_none {bytes : Bytes} {p : Nat} (other : startsGroup (bytes.drop p) = none) :
    headerAt bytes p = none := by
  rw [headerAt, other, Option.map_none, ite_self]

/-- What the header test leaves is on time, by the header or by what lies behind a missed one. -/
theorem HeaderTest.onTime_iff (test : HeaderTest s t) (idle : s.buffering = false) (fits : Fits32 s)
    (good : t.buffer.good = true) {P : Prop}
    (found : ∀ g n, headerAt s.buffer.data s.toRemove = some (g, n) →
      (P ↔ Timely s.buffer.data g (s.toRemove + GRP_HEADER_SIZE) n))
    (missed : headerAt s.buffer.data s.toRemove = none →
      (P ↔ TimelySearch s.buffer.data (s.toRemove + 6) (s.toRemove + 1))) :
    P ↔ OnTime t := by
  simp only [Fits32, GRP_HEADER_SIZE] at fits
  cases test with
  | @found g n header =>
    have inside := (headerAt_some header).1
    have moved : (headerFound s g n).toRemove = s.toRemove + GRP_HEADER_SIZE := by
      simp only [headerFound, add32, GRP_HEADER_SIZE] at inside ⊢
      omega
    rw [onTime_pending (g := g) rfl rfl, moved]
    exact found g n header
  | missed six other =>
    have moved : (headerMissed s).toRemove = s.toRemove + 1 := by
      simp only [headerMissed, add32]
      omega
    rw [onTime_idle (s := headerMissed s) idle, moved]
    exact missed (headerAt_eq_none other)
  | fails _ failed => simp [failed] at good

/-- A pass neither makes up for a record that came too late nor delays one that did not. -/
theorem onTime_pass (ready : Ready s) (fits : Fits32 s) (step : pass mem s = some (.next t))
    (good : t.buffer.good = true)
    (low : s.buffering = false →
      s.buffer.gptr + s.toRemove + GRP_HEADER_SIZE < s.buffer.data.length →
      s.toRemove ≤ s.buffer.gptr) :
    OnTime s ↔ OnTime t := by
  have outcome := pass_outcome mem ready fits
  rw [step] at outcome
  cases outcome with
  | searches idle enter test =>
    refine test.onTime_iff idle fits good ?_ ?_
    · intro g n header
      rw [onTime_idle idle]
      exact timelySearch_iff_of_header enter header
    · intro other
      rw [onTime_idle idle]
      exact timelySearch_iff_of_missed (low idle enter) enter other
  | overruns _ _ _ failed => simp [failed] at good
  | @rests g containers decodes rests =>
    -- the search behind the record does not start, and the record fills more than a header
    have moved := toRemove_decoded fits decodes.toDecoding containers (consumed s g)
    have full := (Decidable.not_not.mp rests).1
    have whole : 26 ≤ consumed s g := readLength_ge decodes.ends
    rw [onTime_pending decodes.buffering decodes.next, onTime_idle rfl, moved]
    refine iff_of_false (not_timely ?_ ?_) ?_
    · omega
    · intro inTime
      exact rests ((inTime_iff ready decodes.buffering decodes.next).mp inTime).2
    · have few := (Decidable.not_not.mp rests).2
      simp only [decoded, StringStream.getAt_gptr, StringStream.getAt_data, GRP_FOOTER_SIZE,
        GRP_HEADER_SIZE] at full few ⊢
      rintro (left | ⟨enter, _⟩)
      · have cut := left.cases
        omega
      · simp only [GRP_HEADER_SIZE] at enter
        omega
  | @retests g containers _ decodes retests test =>
    have moved := toRemove_decoded fits decodes.toDecoding containers (consumed s g)
    have inTime := (inTime_iff ready decodes.buffering decodes.next).mpr
      ⟨decodes.toDecoding, retests⟩
    rw [onTime_pending decodes.buffering decodes.next]
    refine test.onTime_iff rfl fits good ?_ ?_
    · intro g' n' header
      rw [moved] at header ⊢
      exact timely_iff_of_header inTime header
    · intro other
      rw [moved] at other ⊢
      exact timely_iff_of_missed inTime other

/-- All passes of a call that stays good agree on whether it is on time. -/
theorem Visited.onTime_iff (visited : Visited mem d data t) (start : Ready d)
    (fits : Fits32 (append d data)) (good : t.buffer.good = true) :
    OnTime t ↔ OnTime (append d data) := by
  induction visited with
  | start => exact Iff.rfl
  | @pass s u before step ih =>
    have early := good_of_pass step
    obtain ⟨ready, small⟩ := Visited.sound_good before start fits early
    rw [← ih early]
    exact (onTime_pass ready small step good (Visited.get_ge before start fits early)).symm

theorem onTime_append (start : Ready d) : OnTime (append d data) ↔ Prompt d data := by
  rw [append_eq start]
  exact Iff.rfl

/-- Where the loop ends, what is on time has left nothing. -/
theorem nothingWaits_discard_iff (visited : Visited mem d data t)
    (leaves : pass mem t = some (.done t)) (start : Ready d) (fits : Fits32 (append d data))
    (good : t.buffer.good = true) : NothingWaits (discard t) ↔ OnTime t := by
  obtain ⟨ready, small⟩ := visited.sound_good start fits good
  have size := length_pendingBytes_discard visited start fits good
  have outcome := pass_outcome mem ready small
  have remove := ready.remove
  rw [leaves] at outcome
  rw [NothingWaits, discard_buffering, discard_payloadSize, size]
  cases buffering : t.buffering with
  | true =>
    obtain ⟨here, _, g, next⟩ := ready.pending buffering
    have late : ¬ InTime t.buffer.data g t.toRemove t.payloadSize := by
      rintro ⟨enters, enough, _⟩
      cases outcome with
      | exits low => omega
      | waits _ low => omega
    rw [onTime_pending buffering next, if_pos rfl, cutAt, here, ite_self]
    constructor
    · exact fun few => .incomplete (by omega)
    · intro timely
      by_contra many
      exact not_timely (by omega) late timely
  | false =>
    have stops : t.buffer.data.length ≤ t.buffer.gptr + t.toRemove + GRP_HEADER_SIZE := by
      cases outcome with
      | exits low => exact low
      | waits pending => simp [buffering] at pending
    rw [onTime_idle buffering, if_neg (by simp), TimelySearch, or_iff_left (by omega)]
    simp only [FewLeft, cutAt, GRP_HEADER_SIZE]
    omega

end Delay

end OpendlvCore.Applanix
