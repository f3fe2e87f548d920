import OpendlvCore.Sick.Telegrams

/-!
# What a decoder finds in a chunked stream

The drain loop never waits for the rest of a pattern, so a header that the end of a
drained buffer cuts is dropped byte by byte. Apart from these headers the decoder
finds what the scan of the whole stream finds.
-/
namespace OpendlvCore.Sick
open CBytes CStream

/-- How many bytes have been delivered each time the buffer is drained. -/
def drainOffsets : Nat → Nat → List Bytes → List Nat
  | _, _, [] => []
  | delivered, waiting, chunk :: chunks =>
    if 10 ≤ waiting + chunk.length then
      (delivered + chunk.length) :: drainOffsets (delivered + chunk.length) 0 chunks
    else drainOffsets (delivered + chunk.length) (waiting + chunk.length) chunks

/-- A header that begins at `offset` reaches over the end of a drained buffer. -/
def cutBy (drains : List Nat) (offset : Nat) : Bool :=
  drains.any fun b => decide (offset < b ∧ b < offset + 7)

/-- The payloads a decoder still has to convert, when its buffer begins at `offset`
and `after` has not been delivered. -/
def remaining (cut : Nat → Bool) (after : Bytes) (offset : Nat) (s : State) : List Bytes :=
  if s.2.header then
    pending cut (s.2.measurements.take s.1) offset (s.2.buffer.data ++ after)
  else payloads (telegrams cut 0 offset (s.2.buffer.data ++ after))

section Passes
variable {drains : List Nat} {after : Bytes} {boundary start : Nat} {all : List Bytes}
  {s t : State}

/-- The invariant of the drain loop that ends at `boundary`. -/
def Draining (drains : List Nat) (after : Bytes) (start boundary : Nat) (all : List Bytes)
    (s : State) : Prop :=
  ∃ offset, start ≤ offset ∧ offset + s.2.buffer.data.length = boundary ∧
    s.2.conversions ++ remaining (cutBy drains) after offset s = all

theorem cutBy_iff {offset : Nat} :
    cutBy drains offset = true ↔ ∃ b ∈ drains, offset < b ∧ b < offset + 7 := by
  simp [cutBy]

/-- No drain ends between the start of this one and its own end. -/
theorem cutBy_of_boundary {offset : Nat} (ends : boundary ∈ drains)
    (alone : ∀ b ∈ drains, b ≤ start ∨ boundary ≤ b) (begun : start ≤ offset)
    (before : offset < boundary) :
    cutBy drains offset = true ↔ boundary < offset + 7 := by
  rw [cutBy_iff]
  constructor
  · rintro ⟨b, drained, after, inside⟩
    have := alone b drained
    omega
  · intro inside
    exact ⟨boundary, ends, before, inside⟩

theorem draining_step (ends : boundary ∈ drains)
    (alone : ∀ b ∈ drains, b ≤ start ∨ boundary ≤ b) (sound : Sound s)
    (waiting : s.2.buffer.data ≠ []) (before : Draining drains after start boundary all s)
    (drained : Drained s s.2.buffer.data t) : Draining drains after start boundary all t := by
  obtain ⟨offset, begun, length, accounts⟩ := before
  have some_left := List.length_pos_iff.mpr waiting
  have counter := sound.counter
  have whole : offset < boundary := by omega
  have cut := cutBy_of_boundary ends alone begun whole
  have moved : ∀ n, n ≤ s.2.buffer.data.length → t.2.buffer.data = s.2.buffer.data.drop n →
      offset + n + t.2.buffer.data.length = boundary ∧
        t.2.buffer.data ++ after = (s.2.buffer.data ++ after).drop n := by
    intro n inside left
    rw [left, List.drop_append_of_le_length inside, List.length_drop]
    exact ⟨by omega, rfl⟩
  have scanned : ∀ n, s.2.header = false → t.2.header = false →
      t.2.conversions = s.2.conversions →
      telegrams (cutBy drains) 0 offset (s.2.buffer.data ++ after) =
        telegrams (cutBy drains) 0 (offset + n) ((s.2.buffer.data ++ after).drop n) →
      t.2.buffer.data ++ after = (s.2.buffer.data ++ after).drop n →
      t.2.conversions ++ remaining (cutBy drains) after (offset + n) t = all := by
    intro n idle again log same rest
    rw [← accounts, log, remaining, remaining, again, idle, rest]
    simp only [Bool.false_eq_true, if_false, same]
  cases drained with
  | stored header lacks again count left taken log =>
    obtain ⟨ending, rest⟩ := moved _ (Nat.min_le_right _ _) left
    refine ⟨_, by omega, ending, ?_⟩
    have got : (s.2.measurements.take s.1).length = s.1 := by
      rw [List.length_take, sound.room]
      omega
    have new : s.2.buffer.data.take (722 - s.1) =
        (s.2.buffer.data ++ after).take (min (722 - s.1) s.2.buffer.data.length) := by
      rw [List.take_append_of_le_length (Nat.min_le_right _ _), ← List.take_eq_take_min]
    have lacking : min (722 - s.1) s.2.buffer.data.length ≤
        722 - (s.2.measurements.take s.1).length := by
      rw [got]
      omega
    rw [← accounts, log, remaining, remaining, if_pos again, if_pos header, taken, rest, new,
      pending_store _ lacking (by simp)]
  | converted header full again count left log =>
    obtain ⟨ending, rest⟩ := moved 1 some_left left
    refine ⟨offset + 1, by omega, ending, ?_⟩
    have got : (s.2.measurements.take 722).length = 722 := by
      rw [List.length_take, sound.room]
      rfl
    have more : s.2.buffer.data ++ after ≠ [] := by simp [waiting]
    rw [← accounts, log, remaining, remaining, if_neg (by simp [again]), if_pos header, full, rest,
      ← pending_convert got more, List.append_assoc]
    rfl
  | headed header enough found again count left log =>
    obtain ⟨ending, rest⟩ := moved 7 enough left
    refine ⟨offset + 7, by omega, ending, ?_⟩
    have here : (s.2.buffer.data ++ after).take 7 = measurementHeader := by
      rw [← agrees_header_iff, agrees_append measurementHeader [] after enough, found]
    have uncut : cutBy drains offset = false := by
      rw [Bool.eq_false_iff]
      intro cuts
      have := cut.mp cuts
      omega
    rw [← accounts, log, remaining, remaining, if_pos again, if_neg (by simp [header]), count, rest,
      List.take_zero, pending_start here uncut]
  | confirmed header enough found again left log =>
    obtain ⟨ending, rest⟩ := moved 10 enough left
    refine ⟨offset + 10, by omega, ending, scanned 10 header again log ?_ rest⟩
    apply telegrams_drop_many
    apply no_header_in_response
    rwa [agrees_append startResponse [7, 8] after enough]
  | dropped header missing again left log =>
    obtain ⟨ending, rest⟩ := moved 1 some_left left
    refine ⟨offset + 1, by omega, ending, scanned 1 header again log ?_ rest⟩
    apply telegrams_drop
    rintro ⟨here, uncut⟩
    by_cases enough : 7 ≤ s.2.buffer.data.length
    · rw [← agrees_header_iff, agrees_append measurementHeader [] after enough, missing enough] at here
      cases here
    · rw [cut.mpr (by omega)] at uncut
      cases uncut

end Passes

/-! ## Calls and runs -/

section Runs
variable {drains : List Nat} {chunk : Bytes} {chunks later : List Bytes} {all : List Bytes}
  {s t : State}

theorem le_of_mem_drainOffsets {delivered waiting b : Nat}
    (drained : b ∈ drainOffsets delivered waiting chunks) : delivered ≤ b := by
  induction chunks generalizing delivered waiting with
  | nil => cases drained
  | cons chunk chunks ih =>
    rw [drainOffsets] at drained
    split at drained
    · rcases List.mem_cons.mp drained with rfl | later
      · exact Nat.le_add_right _ _
      · exact Nat.le_trans (Nat.le_add_right _ _) (ih later)
    · exact Nat.le_trans (Nat.le_add_right _ _) (ih drained)

/-- Between two calls: what was converted and what the rest of the stream holds. -/
def Accounts (drains : List Nat) (later : List Bytes) (all : List Bytes) (s : State) : Prop :=
  ∃ offset past,
    drains = past ++ drainOffsets (offset + s.2.buffer.data.length) s.2.buffer.data.length later ∧
    (∀ b ∈ past, b ≤ offset) ∧
    s.2.conversions ++ remaining (cutBy drains) later.flatten offset s = all

theorem remaining_receive {cut : Nat → Bool} (ready : Ready s) (offset : Nat) :
    remaining cut later.flatten offset (receive s chunk) =
      remaining cut (chunk :: later).flatten offset s := by
  rw [remaining, receive_data ready, List.append_assoc]
  rfl

theorem remaining_settle {cut : Nat → Bool} {after : Bytes} (good : s.2.buffer.good = true)
    (offset : Nat) : remaining cut after offset (settle s) = remaining cut after offset s := by
  rw [remaining, settle_data good]
  rfl

/-- One call keeps the account; a chunk of ten bytes leaves nothing waiting. -/
theorem nextString_accounts (ready : Ready s) (before : Accounts drains (chunk :: later) all s) :
    ∃ t, nextString s chunk = some t ∧ Ready t ∧ Accounts drains later all t ∧
      (10 ≤ chunk.length → t.2.buffer.data = []) := by
  obtain ⟨offset, past, eq, old, accounts⟩ := before
  by_cases ten : 10 ≤ (s.2.buffer.data ++ chunk).length
  · let boundary := offset + s.2.buffer.data.length + chunk.length
    rw [drainOffsets, if_pos (by rwa [List.length_append] at ten)] at eq
    change drains = past ++ boundary :: drainOffsets boundary 0 later at eq
    have alone : ∀ b ∈ drains, b ≤ offset ∨ boundary ≤ b := by
      intro b drained
      rw [eq, List.mem_append, List.mem_cons] at drained
      rcases drained with before | rfl | after
      · exact .inl (old b before)
      · exact .inr (Nat.le_refl _)
      · exact .inr (le_of_mem_drainOffsets after)
    have start : Draining drains later.flatten offset boundary all (receive s chunk) := by
      refine ⟨offset, Nat.le_refl _, ?_, ?_⟩
      · rw [receive_data ready, List.length_append, ← Nat.add_assoc]
      · rw [remaining_receive ready]
        exact accounts
    obtain ⟨t, returns, again, sound, empty, ending, -, length, holds⟩ :=
      nextString_drains (Draining drains later.flatten offset boundary all) ready ten start
        fun a b sound waiting holds drained =>
          draining_step (by simp [eq]) alone sound waiting holds drained
    have cleared : (settle t).2.buffer.data = [] := (settle_data sound.good).trans empty
    rw [empty] at length
    refine ⟨settle t, returns, again, ⟨boundary, past ++ [boundary], ?_, ?_, ?_⟩, fun _ => cleared⟩
    · rw [cleared, eq, List.append_assoc]
      rfl
    · intro b drained
      rcases List.mem_append.mp drained with before | last
      · have := old b before
        omega
      · exact Nat.le_of_eq (List.mem_singleton.mp last)
    · rw [remaining_settle sound.good, ← length]
      exact holds
  · have few : (s.2.buffer.data ++ chunk).length < 10 := by omega
    obtain ⟨returns, again⟩ := nextString_waits ready few
    refine ⟨_, returns, again, ⟨offset, past, ?_, old, ?_⟩, ?_⟩
    · rw [settle_data (receive_sound ready).good, receive_data ready, eq, drainOffsets,
        if_neg (by rwa [List.length_append] at ten), List.length_append, Nat.add_assoc]
    · rw [remaining_settle (receive_sound ready).good, remaining_receive ready]
      exact accounts
    · rw [List.length_append] at ten
      omega

theorem feed_append {first second : List Bytes} :
    feed s (first ++ second) = (feed s first).bind fun t => feed t second := by
  induction first generalizing s with
  | nil => rfl
  | cons chunk chunks ih =>
    rw [List.cons_append, feed, feed, Option.bind_assoc]
    apply congrArg
    funext t
    exact ih

theorem feed_accounts (ready : Ready s) (before : Accounts drains (chunks ++ later) all s) :
    ∃ t, feed s chunks = some t ∧ Ready t ∧ Accounts drains later all t := by
  induction chunks generalizing s with
  | nil => exact ⟨s, rfl, ready, before⟩
  | cons chunk chunks ih =>
    obtain ⟨t, call, again, after, -⟩ := nextString_accounts ready before
    obtain ⟨u, rest, last, ends⟩ := ih again after
    exact ⟨u, by rw [feed, call, Option.bind_some, rest], last, ends⟩

theorem remaining_nil {cut : Nat → Bool} (ready : Ready s) (empty : s.2.buffer.data = [])
    (offset : Nat) : remaining cut [] offset s = [] := by
  have counter := ready.counter
  have incomplete : ¬ 722 < (s.2.measurements.take s.1).length + ([] : Bytes).length := by
    simp only [List.length_take, List.length_nil]
    omega
  rw [remaining, empty, List.append_nil, pending, if_neg incomplete, telegrams_nil, telegrams_nil]
  exact ite_self _

/-- The measurements a decoder converts, once a last chunk has drained its buffer. -/
theorem feed_conversions {measurements final : Bytes} (chunks : List Bytes) (room : measurements.length = 1000)
    (ten : 10 ≤ final.length) :
    ∃ t, feed (fresh measurements) (chunks ++ [final]) = some t ∧
      t.2.conversions = payloads (telegrams (cutBy (drainOffsets 0 0 (chunks ++ [final]))) 0 0
        (chunks ++ [final]).flatten) := by
  have start : Accounts (drainOffsets 0 0 (chunks ++ [final])) (chunks ++ [final])
      (payloads (telegrams (cutBy (drainOffsets 0 0 (chunks ++ [final]))) 0 0
        (chunks ++ [final]).flatten)) (fresh measurements) :=
    ⟨0, [], rfl, nofun, rfl⟩
  obtain ⟨t, first, ready, before⟩ := feed_accounts (fresh_ready room) start
  obtain ⟨u, last, again, ⟨offset, past, -, -, accounts⟩, cleared⟩ := nextString_accounts ready before
  refine ⟨u, ?_, ?_⟩
  · rw [feed_append, first, Option.bind_some, feed, last]
    rfl
  · rw [← accounts, List.flatten_nil, remaining_nil again (cleared ten), List.append_nil]

end Runs

/-! ## Independence of the chunks -/

/-- The measurements converted when a fresh decoder receives the chunks and `n` zeros. -/
def conversions (measurements : Bytes) (chunks : List Bytes) (n : Nat) : Option (List Bytes) :=
  (feed (fresh measurements) (chunks ++ [zeros n])).map fun s => s.2.conversions

/-- The telegrams of a stream that no drain cuts. -/
def uncut (stream : Bytes) : List (Nat × Bytes) := telegrams (fun _ => false) 0 0 stream

/-- The drains of a run of chunks that ends with `n` zeros. -/
def drains (chunks : List Bytes) (n : Nat) : List Nat := drainOffsets 0 0 (chunks ++ [zeros n])

/-- What the scan finds that misses the headers cut by a drain. -/
def found (chunks : List Bytes) (n : Nat) : List (Nat × Bytes) :=
  telegrams (cutBy (drains chunks n)) 0 0 (chunks.flatten ++ zeros n)

/-- No drain ends inside the header of a complete telegram. -/
def Intact (chunks : List Bytes) (n : Nat) : Prop :=
  ∀ telegram ∈ uncut (chunks.flatten ++ zeros n), complete telegram = true →
    cutBy (drains chunks n) telegram.1 = false

instance (chunks : List Bytes) (n : Nat) : Decidable (Intact chunks n) :=
  inferInstanceAs (Decidable (∀ telegram ∈ uncut (chunks.flatten ++ zeros n),
    complete telegram = true → cutBy (drains chunks n) telegram.1 = false))

/-- The header's byte pattern does not occur inside a payload. -/
def Unnested (stream : Bytes) : Prop :=
  ∀ i, (stream.drop i).take 7 = measurementHeader → i ∈ (uncut stream).map Prod.fst

section Independence
variable {cut : Nat → Bool} {s : Bytes} {skip offset n : Nat} {chunks : List Bytes}

theorem conversions_eq {measurements : Bytes} (room : measurements.length = 1000) (ten : 10 ≤ n) :
    conversions measurements chunks n = some (payloads (found chunks n)) := by
  obtain ⟨t, returns, log⟩ :=
    feed_conversions chunks room (show 10 ≤ (zeros n).length by rwa [length_zeros])
  rw [conversions, returns, Option.map_some, log, found, drains, List.flatten_append,
    List.flatten_singleton]

theorem mem_telegrams {telegram : Nat × Bytes} (found : telegram ∈ telegrams cut skip offset s) :
    offset ≤ telegram.1 ∧ telegram.2.length + 7 ≤ s.length := by
  induction s generalizing skip offset with
  | nil => rw [telegrams_nil] at found; cases found
  | cons b rest ih =>
    have later : ∀ k, telegram ∈ telegrams cut k (offset + 1) rest →
        offset ≤ telegram.1 ∧ telegram.2.length + 7 ≤ (b :: rest).length := by
      intro k there
      obtain ⟨behind, fits⟩ := ih there
      rw [List.length_cons]
      omega
    cases skip with
    | succ skip => exact later skip found
    | zero =>
      rw [telegrams] at found
      split at found
      · rename_i header
        rcases List.mem_cons.mp found with rfl | there
        · have seven := congrArg List.length header.1
          rw [List.length_take] at seven
          change min 7 (b :: rest).length = 7 at seven
          refine ⟨Nat.le_refl _, ?_⟩
          rw [List.length_drop]
          omega
        · exact later _ there
      · exact later _ found

/-- Too few bytes for another payload. -/
theorem payloads_of_short (short : s.length ≤ 729) : payloads (telegrams cut skip offset s) = [] := by
  rw [payloads, List.map_eq_nil_iff, List.filter_eq_nil_iff]
  intro telegram there
  have fits := (mem_telegrams there).2
  simp only [complete, decide_eq_true_eq]
  omega

/-- Cuts outside the headers of complete telegrams change nothing. -/
theorem payloads_of_intact
    (intact : ∀ telegram ∈ telegrams (fun _ => false) skip offset s, complete telegram = true →
      cut telegram.1 = false) :
    payloads (telegrams cut skip offset s) = payloads (telegrams (fun _ => false) skip offset s) := by
  induction s generalizing skip offset with
  | nil => rw [telegrams_nil, telegrams_nil]
  | cons b rest ih =>
    cases skip with
    | succ skip => exact ih intact
    | zero =>
      by_cases here : (b :: rest).take 7 = measurementHeader
      · rw [telegrams, if_pos ⟨here, rfl⟩] at intact
        have later := ih fun telegram there => intact telegram (List.mem_cons_of_mem _ there)
        by_cases whole : 722 < ((b :: rest).drop 7).length
        · have kept := intact _ List.mem_cons_self (by simpa [complete] using whole)
          rw [telegrams, if_pos ⟨here, kept⟩, telegrams, if_pos ⟨here, rfl⟩, payloads_cons,
            payloads_cons, later]
        · have short : (b :: rest).length ≤ 729 := by
            rw [List.length_drop] at whole
            omega
          rw [payloads_of_short short, payloads_of_short short]
      · have passed : ∀ c : Nat → Bool,
            telegrams c 0 offset (b :: rest) = telegrams c 0 (offset + 1) rest :=
          fun c => telegrams_drop fun both => here both.1
        rw [passed] at intact
        rw [passed, passed]
        exact ih intact

/-- Without headers inside payloads, a cut header is lost and no other is found instead. -/
theorem telegrams_of_unnested {behind : Nat} (more : behind ≤ skip)
    (unnested : ∀ i, (s.drop i).take 7 = measurementHeader →
      offset + i ∈ (telegrams (fun _ => false) skip offset s).map Prod.fst) :
    telegrams cut behind offset s =
      (telegrams (fun _ => false) skip offset s).filter fun telegram => !cut telegram.1 := by
  induction s generalizing behind skip offset with
  | nil => rw [telegrams_nil, telegrams_nil]; rfl
  | cons b rest ih =>
    have head_not_later : ∀ k,
        offset ∉ (telegrams (fun _ => false) k (offset + 1) rest).map Prod.fst := by
      intro k there
      obtain ⟨telegram, found, eq⟩ := List.mem_map.mp there
      have := (mem_telegrams found).1
      omega
    have tail : ∀ k, (∀ i, (rest.drop i).take 7 = measurementHeader →
        offset + (i + 1) ∈ offset :: (telegrams (fun _ => false) k (offset + 1) rest).map Prod.fst) →
        ∀ i, (rest.drop i).take 7 = measurementHeader →
          offset + 1 + i ∈ (telegrams (fun _ => false) k (offset + 1) rest).map Prod.fst := by
      intro k nested i header
      rw [Nat.add_assoc, Nat.add_comm 1 i]
      rcases List.mem_cons.mp (nested i header) with same | there
      · omega
      · exact there
    cases skip with
    | succ skip =>
      have later := tail skip fun i header => List.mem_cons_of_mem _ (unnested (i + 1) header)
      cases behind with
      | succ behind => exact ih (by omega) later
      | zero =>
        -- A header here would be one inside a payload.
        have none : ¬ ((b :: rest).take 7 = measurementHeader ∧ cut offset = false) :=
          fun both => head_not_later skip (unnested 0 both.1)
        rw [telegrams_drop none]
        exact ih (Nat.zero_le _) later
    | zero =>
      obtain rfl : behind = 0 := Nat.le_zero.mp more
      by_cases here : (b :: rest).take 7 = measurementHeader
      · have whole : telegrams (fun _ => false) 0 offset (b :: rest) =
            (offset, (b :: rest).drop 7) :: telegrams (fun _ => false) 729 (offset + 1) rest := by
          rw [telegrams, if_pos ⟨here, rfl⟩]
        rw [whole] at unnested ⊢
        have later := tail 729 fun i header => unnested (i + 1) header
        cases lost : cut offset with
        | true =>
          rw [telegrams, if_neg (by simp [lost]), List.filter_cons_of_neg (by simp [lost])]
          exact ih (Nat.zero_le _) later
        | false =>
          rw [telegrams, if_pos ⟨here, lost⟩, List.filter_cons_of_pos (by simp [lost])]
          rw [ih (Nat.le_refl _) later]
      · have passed : ∀ c : Nat → Bool,
            telegrams c 0 offset (b :: rest) = telegrams c 0 (offset + 1) rest :=
          fun c => telegrams_drop fun both => here both.1
        rw [passed] at unnested
        rw [passed, passed]
        exact ih (Nat.le_refl _)
          (tail 0 fun i header => List.mem_cons_of_mem _ (unnested (i + 1) header))

theorem payloads_found_of_intact (intact : Intact chunks n) :
    payloads (found chunks n) = payloads (uncut (chunks.flatten ++ zeros n)) :=
  payloads_of_intact intact

/-- On an unnested stream every cut header of a complete telegram costs a payload. -/
theorem payloads_found_iff_intact (unnested : Unnested (chunks.flatten ++ zeros n)) :
    payloads (found chunks n) = payloads (uncut (chunks.flatten ++ zeros n)) ↔ Intact chunks n := by
  constructor
  · intro same telegram there whole
    have missed : found chunks n = (uncut (chunks.flatten ++ zeros n)).filter
        fun telegram => !cutBy (drains chunks n) telegram.1 :=
      telegrams_of_unnested (Nat.le_refl 0) fun i header => by
        rw [Nat.zero_add]
        exact unnested i header
    have count := congrArg List.length same
    rw [payloads, payloads, List.length_map, List.length_map, missed, List.filter_comm,
      List.length_filter_eq_length_iff] at count
    simpa using count telegram (List.mem_filter.mpr ⟨there, whole⟩)
  · exact payloads_found_of_intact

end Independence

/-- Two ways of cutting one stream lead to the same measurements exactly when the scans
that miss the cut headers find the same payloads: whenever no drain ends inside the header
of a complete telegram, and on unnested streams, against a cutting that is intact, only then. -/
theorem same_measurements {first second : Bytes} {a b : List Bytes} {n : Nat}
    (roomFirst : first.length = 1000) (roomSecond : second.length = 1000)
    (stream : a.flatten = b.flatten) (ten : 10 ≤ n) :
    (conversions first a n = conversions second b n ↔
      payloads (found a n) = payloads (found b n)) ∧
    (Intact a n → Intact b n → conversions first a n = conversions second b n) ∧
    (Unnested (a.flatten ++ zeros n) → Intact b n →
      (conversions first a n = conversions second b n ↔ Intact a n)) := by
  have same : conversions first a n = conversions second b n ↔
      payloads (found a n) = payloads (found b n) := by
    rw [conversions_eq roomFirst ten, conversions_eq roomSecond ten, Option.some_inj]
  have whole : Intact b n → payloads (found b n) = payloads (uncut (a.flatten ++ zeros n)) := by
    intro intact
    rw [payloads_found_of_intact intact, stream]
  refine ⟨same, ?_, ?_⟩
  · intro intactFirst intactSecond
    rw [same, whole intactSecond, payloads_found_of_intact intactFirst]
  · intro unnested intactSecond
    rw [same, whole intactSecond, payloads_found_iff_intact unnested]

theorem same_measurements_cut_payload :
    conversions (zeros 1000) [zeros 10 ++ measurementHeader ++ [1, 2, 3], zeros 719] 10 =
      conversions (zeros 1000) [zeros 10 ++ measurementHeader, [1, 2], 3 :: zeros 719] 10 :=
  (same_measurements (length_zeros 1000) (length_zeros 1000) (by decide +kernel) (by decide)).2.1
    (by decide +kernel) (by decide +kernel)

/-- A port that delivers three bytes of a header with what precedes it hides the telegram. -/
theorem cut_header_is_lost :
    ¬ ∀ (measurements : Bytes) (a b : List Bytes) (n : Nat), measurements.length = 1000 →
      a.flatten = b.flatten → 10 ≤ n →
        conversions measurements a n = conversions measurements b n := by
  intro always
  have same := always (zeros 1000) [zeros 10 ++ measurementHeader ++ zeros 722]
    [zeros 10 ++ measurementHeader.take 3, measurementHeader.drop 3 ++ zeros 722] 10
    (length_zeros 1000) (by decide +kernel) (by decide)
  rw [conversions_eq (length_zeros 1000) (by decide), conversions_eq (length_zeros 1000) (by decide),
    Option.some_inj] at same
  have one : (payloads (found [zeros 10 ++ measurementHeader ++ zeros 722] 10)).length = 1 := by
    decide +kernel
  rw [same] at one
  revert one
  decide +kernel

end OpendlvCore.Sick
