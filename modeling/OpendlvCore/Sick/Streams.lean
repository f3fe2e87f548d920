import OpendlvCore.Columns
import OpendlvCore.Sick.Chunking

/-!
# Streams of measurement telegrams

What the laser sends: telegrams of a header, 722 payload bytes and three bytes that trail.
The payloads arrive in order as long as no drain of the buffer ends inside a header.
-/
namespace OpendlvCore.Sick
open CBytes CStream Columns

structure Telegram where
  payload : Bytes
  length_payload : payload.length = 722
  trailer : Bytes
  length_trailer : trailer.length = 3

def Telegram.bytes (t : Telegram) : Bytes := measurementHeader ++ (t.payload ++ t.trailer)

def stream (ts : List Telegram) : Bytes := ts.flatMap Telegram.bytes

/-- Where the telegrams of a stream begin, and all bytes behind their headers. -/
def located (offset : Nat) (after : Bytes) : List Telegram → List (Nat × Bytes)
  | [] => []
  | t :: ts =>
    (offset, t.payload ++ (t.trailer ++ (stream ts ++ after))) :: located (offset + 732) after ts

/-- Bytes that do not make a header together with one or two others before them. -/
def Calm (after : Bytes) : Prop := after[0]? ≠ some 0x80 ∧ after[0]? ≠ some 0xD6

section Scan
variable {cut : Nat → Bool} {offset : Nat} {after : Bytes}

theorem length_telegram (t : Telegram) : t.bytes.length = 732 := by
  rw [Telegram.bytes, List.length_append, List.length_append, t.length_payload, t.length_trailer]
  rfl

theorem length_stream (ts : List Telegram) : (stream ts).length = 732 * ts.length :=
  length_flatMap_records Telegram.bytes ts fun t _ => length_telegram t

theorem calm_stream (calm : Calm after) (ts : List Telegram) : Calm (stream ts ++ after) := by
  cases ts with
  | nil => exact calm
  | cons t ts =>
    have first : (stream (t :: ts) ++ after)[0]? = some 0x02 := rfl
    rw [Calm, first]
    decide

theorem calm_zeros (n : Nat) : Calm (zeros n) := by
  cases n with
  | zero => exact ⟨nofun, nofun⟩
  | succ n =>
    have first : (zeros (n + 1))[0]? = some 0 := rfl
    rw [Calm, first]
    decide

/-- No header begins in the last two bytes of a telegram. -/
theorem no_header_in_trailer (calm : Calm after) {last : Bytes} (two : last.length = 2) :
    ∀ i < 2, ((last ++ after).drop i).take 7 ≠ measurementHeader := by
  intro i inside header
  obtain ⟨first, second, rfl⟩ := List.length_eq_two.mp two
  have byte : ∀ k < 7, ([first, second] ++ after)[i + k]? = measurementHeader[k]? :=
    fun k inside => getElem?_of_header header inside
  have place : after[0]? = ([first, second] ++ after)[2]? := rfl
  rcases Nat.lt_succ_iff_lt_or_eq.mp inside with before | rfl
  · obtain rfl : i = 0 := by omega
    exact calm.2 (place.trans (byte 2 (by omega)))
  · exact calm.1 (place.trans (byte 1 (by omega)))

/-- The scan of a stream with no header cut. -/
theorem telegrams_stream (offset : Nat) (ts : List Telegram) (calm : Calm after)
    (whole : ∀ k < ts.length, cut (offset + 732 * k) = false) :
    telegrams cut 0 offset (stream ts ++ after) =
      located offset after ts ++ telegrams cut 0 (offset + 732 * ts.length) after := by
  induction ts generalizing offset with
  | nil => rfl
  | cons t ts ih =>
    have later := ih (offset + 732) fun k inside => by
      have next := whole (k + 1) (by rw [List.length_cons]; omega)
      rwa [Nat.mul_succ, Nat.add_comm (732 * k), ← Nat.add_assoc] at next
    have flat : stream (t :: ts) ++ after =
        measurementHeader ++ (t.payload ++ (t.trailer ++ (stream ts ++ after))) := by
      rw [stream, List.flatMap_cons, Telegram.bytes]
      simp only [List.append_assoc]
      rfl
    have payload : (t.payload ++ (t.trailer ++ (stream ts ++ after))).drop 723 =
        t.trailer.drop 1 ++ (stream ts ++ after) := by
      rw [← List.drop_drop (i := 1) (j := 722), List.drop_left' t.length_payload,
        List.drop_append_of_le_length (by rw [t.length_trailer]; omega)]
    have two : (t.trailer.drop 1).length = 2 := by rw [List.length_drop, t.length_trailer]
    have trailing : (t.trailer.drop 1 ++ (stream ts ++ after)).drop 2 = stream ts ++ after :=
      List.drop_left' two
    have header : ∀ rest : Bytes, (measurementHeader ++ rest).drop 7 = rest := fun _ => rfl
    have first : cut offset = false := whole 0 (Nat.succ_pos _)
    have position : offset + 7 + 723 + 2 = offset + 732 := rfl
    have behind : offset + 732 + 732 * ts.length = offset + 732 * (t :: ts).length := by
      rw [List.length_cons]
      omega
    rw [flat, telegrams_found (List.take_left' rfl) first,
      header, telegrams_add 723 0, payload,
      telegrams_drop_many 2 (no_header_in_trailer (calm_stream calm ts) two), trailing, position,
      later, behind]
    rfl

/-- All telegrams of a stream are complete. -/
theorem payloads_located (ts : List Telegram) (found : List (Nat × Bytes)) :
    payloads (located offset after ts ++ found) = ts.map Telegram.payload ++ payloads found := by
  induction ts generalizing offset with
  | nil => rfl
  | cons t ts ih =>
    have complete : 722 < (t.payload ++ (t.trailer ++ (stream ts ++ after))).length := by
      rw [List.length_append, List.length_append, t.length_payload, t.length_trailer]
      omega
    rw [located, List.cons_append, payloads_cons, if_pos complete, ih, List.map_cons]
    simp only [List.take_left' t.length_payload]
    rfl

end Scan

section Nesting
variable {ts : List Telegram} {n : Nat}

theorem fst_located (offset : Nat) (after : Bytes) (ts : List Telegram) :
    (located offset after ts).map Prod.fst = (List.range ts.length).map fun k => offset + 732 * k := by
  induction ts generalizing offset with
  | nil => rfl
  | cons t ts ih =>
    rw [located, List.map_cons, ih, List.length_cons, List.range_succ_eq_map, List.map_cons,
      List.map_map]
    have later : ∀ k, offset + 732 + 732 * k = offset + 732 * (k + 1) := by
      intro k
      omega
    simp only [later, Function.comp_def]
    rfl

/-- The second byte of the header is found in headers only. -/
theorem place_of_0x80 (clear : ∀ t ∈ ts, 0x80 ∉ t.payload ++ t.trailer) {i : Nat}
    (byte : (stream ts ++ zeros n)[i]? = some 0x80) : ∃ k < ts.length, i = 732 * k + 1 := by
  induction ts generalizing i with
  | nil =>
    have zero := List.eq_of_mem_replicate (List.mem_of_getElem? byte)
    cases zero
  | cons t ts ih =>
    have flat : stream (t :: ts) ++ zeros n = t.bytes ++ (stream ts ++ zeros n) := by
      rw [stream, List.flatMap_cons, List.append_assoc]
      rfl
    have length := length_telegram t
    rw [flat] at byte
    by_cases inside : i < 732
    · rw [List.getElem?_append_left (by omega), Telegram.bytes] at byte
      by_cases header : i < 7
      · rw [List.getElem?_append_left header] at byte
        have one : ∀ i < 7, measurementHeader[i]? = some 0x80 → i = 1 := by decide
        exact ⟨0, Nat.succ_pos _, one i header byte⟩
      · rw [List.getElem?_append_right (Nat.le_of_not_lt header)] at byte
        exact absurd (List.mem_of_getElem? byte) (clear t List.mem_cons_self)
    · rw [List.getElem?_append_right (by omega), length] at byte
      obtain ⟨k, low, place⟩ := ih (fun t there => clear t (List.mem_cons_of_mem _ there)) byte
      exact ⟨k + 1, Nat.succ_lt_succ low, by omega⟩

theorem unnested_of_clear (clear : ∀ t ∈ ts, 0x80 ∉ t.payload ++ t.trailer) :
    Unnested (stream ts ++ zeros n) := by
  intro i header
  have byte := getElem?_of_header header (k := 1) (by omega)
  obtain ⟨k, inside, place⟩ := place_of_0x80 clear byte
  have scan : uncut (stream ts ++ zeros n) = located 0 (zeros n) ts ++
      telegrams (fun _ => false) 0 (0 + 732 * ts.length) (zeros n) :=
    telegrams_stream _ ts (calm_zeros n) fun _ _ => rfl
  rw [scan, List.map_append, fst_located]
  apply List.mem_append_left
  exact List.mem_map.mpr ⟨k, List.mem_range.mpr inside, by omega⟩

end Nesting

/-! ## Runs -/

section Runs
variable {measurements : Bytes} {ts : List Telegram} {chunks : List Bytes}

/-- Nothing but whole telegrams, of which no header is cut. -/
theorem feed_stream {final : Bytes} (room : measurements.length = 1000) (ten : 10 ≤ final.length)
    (whole : (chunks ++ [final]).flatten = stream ts)
    (intact : ∀ k < ts.length, cutBy (drainOffsets 0 0 (chunks ++ [final])) (732 * k) = false) :
    ∃ t, feed (fresh measurements) (chunks ++ [final]) = some t ∧
      t.2.conversions = ts.map Telegram.payload := by
  obtain ⟨t, returns, log⟩ := feed_conversions chunks room ten
  have scan : telegrams (cutBy (drainOffsets 0 0 (chunks ++ [final]))) 0 0 (stream ts ++ []) = _ :=
    telegrams_stream 0 ts (calm_zeros 0) fun k inside => by
      rw [Nat.zero_add]
      exact intact k inside
  rw [List.append_nil] at scan
  refine ⟨t, returns, ?_⟩
  rw [log, whole, scan, payloads_located, telegrams_nil]
  exact List.append_nil _

/-- Chunks of whole telegrams are drained at the ends of telegrams. -/
theorem dvd_of_mem_drainOffsets (groups : List (List Telegram)) (delivered waiting : Nat)
    (aligned : 732 ∣ delivered) {b : Nat}
    (there : b ∈ drainOffsets delivered waiting (groups.map stream)) : 732 ∣ b := by
  induction groups generalizing delivered waiting with
  | nil => cases there
  | cons group groups ih =>
    have next : 732 ∣ delivered + (stream group).length := by
      rw [length_stream]
      exact Nat.dvd_add aligned (Nat.dvd_mul_right _ _)
    rw [List.map_cons, drainOffsets] at there
    split at there
    · rcases List.mem_cons.mp there with rfl | later
      · exact next
      · exact ih _ _ next later
    · exact ih _ _ next there

theorem telegrams_zeros (cut : Nat → Bool) (offset n : Nat) : telegrams cut 0 offset (zeros n) = [] := by
  have quiet : ∀ i < n, ((zeros n).drop i).take 7 ≠ measurementHeader := by
    intro i inside header
    have byte := getElem?_of_header header (k := 0) (by omega)
    rw [zeros, List.getElem?_replicate, if_pos (by omega)] at byte
    cases byte
  rw [telegrams_drop_many n quiet, List.drop_of_length_le (by rw [length_zeros]), telegrams_nil]

/-- The telegrams of a stream that are not cut. -/
theorem payloads_filter_located {after : Bytes} (cut : Nat → Bool) (lost : Nat → Bool)
    (ts : List Telegram) (first : Nat)
    (agree : ∀ k, first ≤ k → k < first + ts.length → cut (732 * k) = lost k) :
    payloads ((located (732 * first) after ts).filter fun telegram => !cut telegram.1) =
      ((ts.zipIdx first).filter fun p => !lost p.2).map fun p => p.1.payload := by
  induction ts generalizing first with
  | nil => rfl
  | cons t ts ih =>
    rw [List.length_cons] at agree
    have here := agree first (Nat.le_refl _) (by omega)
    have later := ih (first + 1) fun k after before => agree k (by omega) (by omega)
    rw [Nat.mul_succ] at later
    have complete : 722 < (t.payload ++ (t.trailer ++ (stream ts ++ after))).length := by
      rw [List.length_append, List.length_append, t.length_payload, t.length_trailer]
      omega
    rw [located, List.zipIdx_cons]
    cases missed : lost first with
    | true =>
      rw [List.filter_cons_of_neg (by simp [here, missed]), later,
        List.filter_cons_of_neg (by simp [missed])]
    | false =>
      rw [List.filter_cons_of_pos (by simp [here, missed]), payloads_cons, if_pos complete, later,
        List.filter_cons_of_pos (by simp [missed]), List.map_cons]
      simp only [List.take_left' t.length_payload]
      rfl

/-- Single bytes are drained ten at a time. -/
theorem mem_drainOffsets_bytes {final : Bytes} (ten : 10 ≤ final.length) (bs : Bytes)
    (delivered b : Nat) :
    b ∈ drainOffsets delivered (delivered % 10) (bs.map (fun byte => [byte]) ++ [final]) ↔
      10 ∣ b ∧ delivered < b ∧ b ≤ delivered + bs.length ∨
        b = delivered + bs.length + final.length := by
  induction bs generalizing delivered with
  | nil =>
    rw [List.map_nil, List.nil_append, drainOffsets, if_pos (by omega), List.mem_cons, drainOffsets,
      List.length_nil]
    simp only [List.not_mem_nil, or_false]
    omega
  | cons byte bs ih =>
    have next := ih (delivered + 1)
    rw [List.map_cons, List.cons_append, drainOffsets]
    simp only [List.length_cons, List.length_nil, Nat.zero_add]
    split
    · have empty : (delivered + 1) % 10 = 0 := by omega
      rw [empty] at next
      rw [List.mem_cons, next]
      omega
    · have more : (delivered + 1) % 10 = delivered % 10 + 1 := by omega
      rw [more] at next
      rw [next]
      omega

end Runs

/-- Every payload arrives, in the order of the stream: however the bytes are divided, unless the
buffer is drained inside a header; and always where each chunk is a number of whole telegrams. -/
theorem stream_arrives {measurements : Bytes} (room : measurements.length = 1000) :
    (∀ (ts : List Telegram) (chunks : List Bytes) (final : Bytes), 10 ≤ final.length →
      (chunks ++ [final]).flatten = stream ts →
      (∀ k < ts.length, ∀ b ∈ drainOffsets 0 0 (chunks ++ [final]),
        ¬ (732 * k < b ∧ b < 732 * k + 7)) →
      ∃ t, feed (fresh measurements) (chunks ++ [final]) = some t ∧
        t.2.conversions = ts.map Telegram.payload) ∧
    ∀ groups : List (List Telegram), [] ∉ groups →
      ∃ t, feed (fresh measurements) (groups.map stream) = some t ∧
        t.2.conversions = groups.flatten.map Telegram.payload := by
  constructor
  · intro ts chunks final ten whole intact
    refine feed_stream room ten whole fun k inside => ?_
    rw [← Bool.not_eq_true, cutBy_iff]
    rintro ⟨b, drained, cut⟩
    exact intact k inside b drained cut
  · intro groups filled
    rcases List.eq_nil_or_concat groups with rfl | ⟨before, last, rfl⟩
    · exact ⟨fresh measurements, rfl, rfl⟩
    rw [List.concat_eq_append] at filled ⊢
    have some : last ≠ [] := by
      rintro rfl
      exact filled (List.mem_append_right _ List.mem_cons_self)
    have ten : 10 ≤ (stream last).length := by
      have := List.length_pos_iff.mpr some
      rw [length_stream]
      omega
    have whole : (before.map stream ++ [stream last]).flatten = stream (before ++ [last]).flatten := by
      have one : ∀ groups : List (List Telegram), (groups.map stream).flatten = stream groups.flatten := by
        intro groups
        rw [stream, List.flatMap_def, List.map_flatten, List.flatten_flatten, List.map_map]
        rfl
      rw [← one, List.map_append, List.map_singleton]
    have arrived := feed_stream room ten whole fun k _ => by
      rw [← Bool.not_eq_true, cutBy_iff]
      rintro ⟨b, drained, after, inside⟩
      have place : before.map stream ++ [stream last] = (before ++ [last]).map stream := by
        rw [List.map_append, List.map_singleton]
      rw [place] at drained
      obtain ⟨n, rfl⟩ := dvd_of_mem_drainOffsets _ 0 0 (Nat.dvd_zero 732) drained
      omega
    rwa [List.map_append, List.map_singleton]

/-- A telegram with equal bytes behind the header. -/
def evenTelegram (payload trailer : UInt8) : Telegram where
  payload := List.replicate 722 payload
  length_payload := List.length_replicate
  trailer := List.replicate 3 trailer
  length_trailer := List.length_replicate

/-- Two telegrams, cut within the second one's payload, and in one string each. -/
theorem stream_arrives_two :
    (∃ t, feed (fresh (zeros 1000))
        [(stream [evenTelegram 1 0, evenTelegram 2 0]).take 1000,
          (stream [evenTelegram 1 0, evenTelegram 2 0]).drop 1000] = some t ∧
      t.2.conversions = [List.replicate 722 1, List.replicate 722 2]) ∧
    ∃ t, feed (fresh (zeros 1000)) [stream [evenTelegram 1 0], stream [evenTelegram 2 0]] = some t ∧
      t.2.conversions = [List.replicate 722 1, List.replicate 722 2] := by
  obtain ⟨cut, whole⟩ := stream_arrives (length_zeros 1000)
  have length := length_stream [evenTelegram 1 0, evenTelegram 2 0]
  rw [List.length_cons, List.length_singleton] at length
  refine ⟨cut [evenTelegram 1 0, evenTelegram 2 0] [_] _ ?_ ?_ ?_,
    whole [[evenTelegram 1 0], [evenTelegram 2 0]] nofun⟩
  · rw [List.length_drop, length]
    decide
  · rw [List.singleton_append, List.flatten_cons, List.flatten_cons, List.flatten_nil,
      List.append_nil, List.take_append_drop]
  · intro k inside b drained
    have drains : drainOffsets 0 0 ([(stream [evenTelegram 1 0, evenTelegram 2 0]).take 1000] ++
        [(stream [evenTelegram 1 0, evenTelegram 2 0]).drop 1000]) = [1000, 1464] := by
      simp [drainOffsets, length]
    rw [drains] at drained
    rw [List.length_cons, List.length_singleton] at inside
    rcases List.mem_pair.mp drained with rfl | rfl <;> omega

/-- Delivered byte by byte, three telegrams out of five are lost: a header that begins between 4 and
9 bytes behind a multiple of ten is cut. -/
theorem bytewise_stream {measurements : Bytes} (room : measurements.length = 1000)
    (ts : List Telegram) {n : Nat} (ten : 10 ≤ n) (unnested : Unnested (stream ts ++ zeros n)) :
    conversions measurements ((stream ts).map fun byte => [byte]) n =
      some ((ts.zipIdx.filter fun p => !decide (2 ≤ p.2 % 5)).map fun p => p.1.payload) := by
  have bytes : ∀ bs : Bytes, (bs.map fun byte => [byte]).flatten = bs := by
    intro bs
    induction bs with
    | nil => rfl
    | cons byte bs ih => rw [List.map_cons, List.flatten_cons, ih]; rfl
  have scan : uncut (stream ts ++ zeros n) = located 0 (zeros n) ts ++
      telegrams (fun _ => false) 0 (0 + 732 * ts.length) (zeros n) :=
    telegrams_stream _ ts (calm_zeros n) fun _ _ => rfl
  have missed : found ((stream ts).map fun byte => [byte]) n =
      (uncut (stream ts ++ zeros n)).filter fun telegram =>
        !cutBy (drains ((stream ts).map fun byte => [byte]) n) telegram.1 := by
    rw [found, bytes]
    exact telegrams_of_unnested (Nat.le_refl 0) fun i header => by
      rw [Nat.zero_add]
      exact unnested i header
  have cut : ∀ k, 0 ≤ k → k < 0 + ts.length →
      cutBy (drains ((stream ts).map fun byte => [byte]) n) (732 * k) = decide (2 ≤ k % 5) := by
    intro k _ inside
    rw [Bool.eq_iff_iff, decide_eq_true_iff, cutBy_iff]
    have drained : ∀ b, b ∈ drains ((stream ts).map fun byte => [byte]) n ↔
        10 ∣ b ∧ 0 < b ∧ b ≤ 732 * ts.length ∨ b = 732 * ts.length + n := by
      intro b
      have whole := mem_drainOffsets_bytes (show 10 ≤ (zeros n).length by rwa [length_zeros])
        (stream ts) 0 b
      rwa [length_stream, length_zeros, Nat.zero_add] at whole
    have place : 732 * k = 10 * (73 * k + k / 5) + 2 * (k % 5) := by omega
    have rest : k % 5 < 5 := Nat.mod_lt k (by omega)
    generalize 73 * k + k / 5 = q, k % 5 = r at place rest ⊢
    constructor
    · rintro ⟨b, there, after, before⟩
      rcases (drained b).mp there with ⟨⟨c, rfl⟩, -, -⟩ | rfl
      · rw [place] at after before
        clear place
        omega
      · omega
    · intro late
      refine ⟨10 * (q + 1), (drained _).mpr (.inl ⟨Nat.dvd_mul_right _ _, ?_, ?_⟩), ?_, ?_⟩
      all_goals omega
  rw [conversions_eq room ten, missed, scan, telegrams_zeros, List.append_nil]
  exact congrArg some (payloads_filter_located _ _ ts 0 cut)

/-- Three telegrams, of which the last is lost. -/
theorem bytewise_stream_three :
    conversions (zeros 1000)
        ((stream [evenTelegram 1 0, evenTelegram 2 0, evenTelegram 3 0]).map fun byte => [byte]) 10 =
      some [List.replicate 722 1, List.replicate 722 2] :=
  bytewise_stream (length_zeros 1000) [evenTelegram 1 0, evenTelegram 2 0, evenTelegram 3 0]
    (Nat.le_refl 10) (unnested_of_clear (by
      intro t there byte
      simp only [List.mem_cons, List.not_mem_nil, or_false] at there
      rcases there with rfl | rfl | rfl
      all_goals
        rcases List.mem_append.mp byte with payload | trailer
        · cases List.eq_of_mem_replicate payload
        · cases List.eq_of_mem_replicate trailer))

end OpendlvCore.Sick
