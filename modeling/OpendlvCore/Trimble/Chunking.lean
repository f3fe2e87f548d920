import OpendlvCore.Trimble.Sentences

/-!
# Which fixes are delivered from a chunked stream

A chunk sees of every sentence the part that lies in it. It sends at most one
container, read from the parts that it takes for GPGGA messages.
-/
namespace OpendlvCore.Trimble
open CBytes CText

/-- What a range of bytes holds of one sentence. -/
structure Piece where
  sentence : Sentence
  /-- The range holds the first byte behind the `$`. -/
  begins : Bool
  /-- The part of the sentence's body. -/
  text : Bytes

/-- The parts of the sentences in the bytes from `start` up to `stop` of their stream. -/
def pieces (start stop : Nat) : List Sentence → List Piece
  | [] => []
  | s :: rest =>
    { sentence := s
      begins := decide (start ≤ 1 ∧ 1 < stop)
      text := (s.body.take (stop - 1)).drop (start - 1) } ::
    pieces (start - s.text.length) (stop - s.text.length) rest

/-- The parts of the sentences in each chunk. -/
def chunkPieces (sentences : List Sentence) : Nat → List Bytes → List (List Piece)
  | _, [] => []
  | start, chunk :: chunks =>
    pieces start (start + chunk.length) sentences ::
      chunkPieces sentences (start + chunk.length) chunks

/-- The messages of a chunk that are not skipped. -/
def lines (s : Bytes) : List Bytes := (getlines dollar s).filter (· ≠ [])

section Lines
variable {front back s : Bytes} {start stop : Nat}

theorem lines_dollar : lines (dollar :: s) = lines s := by
  rw [lines, getlines, if_pos rfl, List.filter_cons_of_neg (by simp)]
  rfl

theorem lines_append (free : dollar ∉ front) (next : ∀ c ∈ back.head?, c = dollar) :
    lines (front ++ back) = [front].filter (· ≠ []) ++ lines back := by
  cases back with
  | nil =>
    by_cases content : front = []
    · simp [content, lines, getlines]
    · rw [List.append_nil, lines, getlines_last free content]
      exact (List.append_nil _).symm
  | cons c back =>
    obtain rfl := next c rfl
    rw [lines_dollar, lines, getlines_append free, lines, ← List.filter_append]
    rfl

/-- The bytes from `start` up to `stop` of a sentence and what follows it. -/
theorem range_append (front back : Bytes) :
    ((front ++ back).take stop).drop start =
      (front.take stop).drop start ++
        (back.take (stop - front.length)).drop (start - front.length) := by
  rw [List.take_append, List.drop_append, List.length_take]
  by_cases short : stop ≤ front.length
  · rw [Nat.sub_eq_zero_of_le short, List.take_zero, List.drop_nil, List.drop_nil]
  · rw [Nat.min_eq_right (by omega)]

theorem head_stream (sentences : List Sentence) (n : Nat) :
    ∀ c ∈ ((stream sentences).take n).head?, c = dollar := by
  intro c head
  cases n with
  | zero => cases head
  | succ n =>
    cases sentences with
    | nil => cases head
    | cons s rest =>
      cases head
      rfl

/-- The messages of a chunk are the parts of the sentences in it. -/
theorem lines_range (sentences : List Sentence) (start stop : Nat) :
    lines (((stream sentences).take stop).drop start) =
      ((pieces start stop sentences).map Piece.text).filter (· ≠ []) := by
  induction sentences generalizing start stop with
  | nil =>
    rw [stream, List.flatMap_nil, List.take_nil, List.drop_nil]
    rfl
  | cons s rest ih =>
    have free : ∀ m n, dollar ∉ (s.body.take n).drop m :=
      fun m n inside => dollar_not_mem_body s (List.mem_of_mem_take (List.mem_of_mem_drop inside))
    have here : lines ((s.text.take stop).drop start ++
        ((stream rest).take (stop - s.text.length)).drop (start - s.text.length)) =
        [(s.body.take (stop - 1)).drop (start - 1)].filter (· ≠ []) ++
          lines (((stream rest).take (stop - s.text.length)).drop (start - s.text.length)) := by
      cases stop with
      | zero => simp [lines, getlines]
      | succ stop =>
        have next : start ≤ s.body.length →
            ∀ c ∈ (((stream rest).take (stop + 1 - s.text.length)).drop
              (start - s.text.length)).head?, c = dollar := by
          intro inside
          rw [Sentence.text, List.length_cons, Nat.sub_eq_zero_of_le (by omega : start ≤ _),
            List.drop_zero]
          exact head_stream rest _
        rw [Nat.add_sub_cancel]
        cases start with
        | zero =>
          rw [List.drop_zero, Sentence.text, List.take_succ_cons, List.cons_append, lines_dollar]
          exact lines_append (free 0 stop) (next (Nat.zero_le _))
        | succ start =>
          rw [Nat.add_sub_cancel]
          change lines ((s.body.take stop).drop start ++ _) = _
          by_cases outside : (s.body.take stop).drop start = []
          · rw [outside, List.nil_append]
            rfl
          · apply lines_append (free start stop)
            apply next
            by_contra beyond
            apply outside
            rw [List.drop_eq_nil_iff, List.length_take]
            omega
    have split : (stream (s :: rest)).take stop = (s.text ++ stream rest).take stop := rfl
    rw [split, range_append, here, ih, pieces, List.map_cons, ← List.filter_append]
    rfl

theorem gpggas_eq (s : Bytes) : gpggas s = (lines s).filter fun message => typeOf message = GPGGA := by
  rw [lines, List.filter_filter, gpggas]
  apply List.filter_congr
  intro message _
  by_cases empty : message = []
  · rw [empty]
    rfl
  · simp [empty]

end Lines

/-! ## Fixes by chunk -/

/-- A GPGGA sentence whose type begins in the range. -/
def Piece.starts (p : Piece) : Bool := p.begins && p.sentence.fix.isSome

/-- The fix that begins in the range. -/
def Piece.due (p : Piece) : Option WGS84Coordinate := if p.begins then p.sentence.fix else none

/-- A part that the decoder takes for a GPGGA message. -/
def Piece.taken (p : Piece) : Bool := typeOf p.text = GPGGA

/-- Read alone, the part gives the fix of its sentence. -/
def Piece.Reads (p : Piece) : Prop :=
  (readMessage {} p.text).gotGpgga = true ∧
    p.sentence.fix = some ⟨(readMessage {} p.text).latitude, (readMessage {} p.text).longitude⟩

/-- What the decoder sends for a chunk with these parts. -/
def reply (ps : List Piece) : Option WGS84Coordinate :=
  let messages := (ps.filter Piece.taken).map Piece.text
  if messages = [] then none
  else some ⟨(messages.foldl readMessage {}).latitude, (messages.foldl readMessage {}).longitude⟩

section Fixes
variable {sentences : List Sentence} {chunks : List Bytes} {start stop : Nat} {ps : List Piece}

theorem nextString_range :
    nextString (((stream sentences).take stop).drop start) = reply (pieces start stop sentences) := by
  have messages : gpggas (((stream sentences).take stop).drop start) =
      ((pieces start stop sentences).filter Piece.taken).map Piece.text := by
    rw [gpggas_eq, lines_range, List.filter_filter, List.filter_map]
    congr 1
    apply List.filter_congr
    intro p _
    by_cases empty : p.text = []
    · simp only [Function.comp_apply, Piece.taken, empty]
      rfl
    · simp [Piece.taken, empty]
  rw [nextString_eq, messages, reply]

theorem sent_eq (start : Nat) (chunks : List Bytes)
    (cut : chunks.flatten = (stream sentences).drop start) :
    sent chunks = (chunkPieces sentences start chunks).flatMap fun ps => (reply ps).toList := by
  induction chunks generalizing start with
  | nil => rfl
  | cons chunk chunks ih =>
    rw [List.flatten_cons] at cut
    have here : chunk = ((stream sentences).take (start + chunk.length)).drop start := by
      rw [List.drop_take, Nat.add_sub_cancel_left, ← cut, List.take_left]
    have later : chunks.flatten = (stream sentences).drop (start + chunk.length) := by
      rw [← List.drop_drop, ← cut, List.drop_left]
    have now : nextString chunk = reply (pieces start (start + chunk.length) sentences) := by
      conv_lhs => rw [here]
      exact nextString_range
    rw [chunkPieces, List.flatMap_cons, ← ih _ later, ← now, sent, List.filterMap_cons]
    cases nextString chunk <;> rfl

/-- The fixes whose type begins at `start` or later. -/
def dueFrom : Nat → List Sentence → List WGS84Coordinate
  | _, [] => []
  | start, s :: rest =>
    (if start ≤ 1 then s.fix.toList else []) ++ dueFrom (start - s.text.length) rest

theorem text_length (s : Sentence) : 2 < s.text.length := by
  have two : ∀ fields, 2 ≤ (Sentence.ending fields).length := by
    intro fields
    rw [Sentence.ending, List.length_append]
    exact Nat.le_add_left _ _
  rw [Sentence.text, List.length_cons]
  cases s with
  | gpgga time latitude longitude fields =>
    have := two fields
    simp only [Sentence.body, List.length_append, List.length_cons]
    omega
  | other type fields different =>
    have := two fields
    simp only [Sentence.body, List.length_append]
    omega

theorem due_pieces_zero (start : Nat) (sentences : List Sentence) :
    (pieces start 0 sentences).filterMap Piece.due = [] := by
  induction sentences generalizing start with
  | nil => rfl
  | cons s rest ih =>
    rw [pieces, Nat.zero_sub s.text.length, List.filterMap_cons]
    simp only [Piece.due, Nat.not_lt_zero, and_false, decide_false, Bool.false_eq_true, if_false]
    exact ih _

/-- A range takes its fixes from the front. -/
theorem due_pieces (le : start ≤ stop) :
    (pieces start stop sentences).filterMap Piece.due ++ dueFrom stop sentences =
      dueFrom start sentences := by
  induction sentences generalizing start stop with
  | nil => rfl
  | cons s rest ih =>
    have long := text_length s
    rw [pieces, List.filterMap_cons, dueFrom, dueFrom, ← ih (Nat.sub_le_sub_right le s.text.length)]
    by_cases before : stop ≤ 1
    · have gone : stop - s.text.length = 0 := by omega
      have here : Piece.due ⟨s, decide (start ≤ 1 ∧ 1 < stop),
          (s.body.take (stop - 1)).drop (start - 1)⟩ = none := by
        rw [Piece.due, if_neg (by simp; omega)]
      rw [here, gone, due_pieces_zero, if_pos before, if_pos (by omega)]
      rfl
    · have here : Piece.due ⟨s, decide (start ≤ 1 ∧ 1 < stop),
          (s.body.take (stop - 1)).drop (start - 1)⟩ = if start ≤ 1 then s.fix else none := by
        simp [Piece.due, Nat.not_le.mp before]
      rw [here, if_neg before]
      by_cases first : start ≤ 1
      · rw [if_pos first, if_pos first]
        cases s.fix <;> rfl
      · rw [if_neg first, if_neg first]
        rfl

theorem dueFrom_zero (sentences : List Sentence) : dueFrom 0 sentences = fixes sentences := by
  induction sentences with
  | nil => rfl
  | cons s rest ih =>
    rw [dueFrom, if_pos (Nat.zero_le 1), Nat.zero_sub, ih, fixes, fixes, List.filterMap_cons]
    cases s.fix <;> rfl

theorem dueFrom_end (sentences : List Sentence) :
    dueFrom (stream sentences).length sentences = [] := by
  induction sentences with
  | nil => rfl
  | cons s rest ih =>
    have long := text_length s
    have length : (stream (s :: rest)).length = s.text.length + (stream rest).length := by
      rw [stream, List.flatMap_cons, List.length_append]
      rfl
    rw [dueFrom, length, if_neg (by omega), Nat.add_sub_cancel_left, ih]
    rfl

/-- Chunk by chunk, every fix is due once. -/
theorem due_chunkPieces (start : Nat) (chunks : List Bytes) :
    (chunkPieces sentences start chunks).flatMap (List.filterMap Piece.due) ++
      dueFrom (start + chunks.flatten.length) sentences = dueFrom start sentences := by
  induction chunks generalizing start with
  | nil => rfl
  | cons chunk chunks ih =>
    rw [chunkPieces, List.flatMap_cons, List.flatten_cons, List.length_append, ← Nat.add_assoc,
      List.append_assoc, ih, due_pieces (Nat.le_add_right _ _)]

theorem fixes_eq (cut : chunks.flatten = stream sentences) :
    fixes sentences = (chunkPieces sentences 0 chunks).flatMap (List.filterMap Piece.due) := by
  have all : (chunkPieces sentences 0 chunks).flatMap (List.filterMap Piece.due) ++
      dueFrom (0 + chunks.flatten.length) sentences = dueFrom 0 sentences := due_chunkPieces 0 chunks
  rw [← dueFrom_zero, ← all, cut, Nat.zero_add, dueFrom_end, List.append_nil]

/-- Lists put together from blocks, none longer than its counterpart, are equal only if
all blocks are. -/
theorem flatMap_eq_iff {α β : Type} {xs : List α} {f g : α → List β}
    (shorter : ∀ x ∈ xs, (f x).length ≤ (g x).length) :
    xs.flatMap f = xs.flatMap g ↔ ∀ x ∈ xs, f x = g x := by
  have total : ∀ ys : List α, (∀ y ∈ ys, (f y).length ≤ (g y).length) →
      (ys.flatMap f).length ≤ (ys.flatMap g).length := by
    intro ys le
    induction ys with
    | nil => exact Nat.le_refl _
    | cons y ys ih =>
      have first := le y List.mem_cons_self
      have rest := ih fun z there => le z (List.mem_cons_of_mem _ there)
      rw [List.flatMap_cons, List.flatMap_cons, List.length_append, List.length_append]
      omega
  constructor
  · intro same
    induction xs with
    | nil => exact nofun
    | cons x xs ih =>
      have first := shorter x List.mem_cons_self
      have rest := total xs fun z there => shorter z (List.mem_cons_of_mem _ there)
      rw [List.flatMap_cons, List.flatMap_cons] at same
      have count := congrArg List.length same
      rw [List.length_append, List.length_append] at count
      obtain ⟨head, tail⟩ := List.append_inj same (by omega)
      intro y there
      rcases List.mem_cons.mp there with rfl | there
      · exact head
      · exact ih (fun z there => shorter z (List.mem_cons_of_mem _ there)) tail y there
  · exact fun same => List.flatMap_congr same

theorem due_of_starts {p : Piece} (starts : p.starts = true) :
    ∃ fix, p.due = some fix ∧ p.sentence.fix = some fix := by
  rw [Piece.starts, Bool.and_eq_true] at starts
  obtain ⟨fix, eq⟩ := Option.isSome_iff_exists.mp starts.2
  exact ⟨fix, by rw [Piece.due, if_pos starts.1, eq], eq⟩

theorem due_of_not_starts {p : Piece} (other : p.starts ≠ true) : p.due = none := by
  rw [Piece.due]
  split
  · rename_i begins
    simpa [Piece.starts, begins] using other
  · rfl

theorem filterMap_due (ps : List Piece) :
    ps.filterMap Piece.due = (ps.filter Piece.starts).filterMap Piece.due := by
  rw [List.filterMap_filter]
  apply List.filterMap_congr
  intro p _
  split
  · rfl
  · rename_i other
    exact due_of_not_starts other

theorem length_due (ps : List Piece) :
    (ps.filterMap Piece.due).length = (ps.filter Piece.starts).length := by
  induction ps with
  | nil => rfl
  | cons p ps ih =>
    by_cases starts : p.starts = true
    · obtain ⟨fix, due, -⟩ := due_of_starts starts
      rw [List.filterMap_cons_some due, List.filter_cons_of_pos starts, List.length_cons,
        List.length_cons, ih]
    · rw [List.filterMap_cons_none (due_of_not_starts starts), List.filter_cons_of_neg starts, ih]

theorem filter_taken (genuine : ∀ p ∈ ps, p.taken = true → p.starts = true) :
    ps.filter Piece.taken = (ps.filter Piece.starts).filter Piece.taken := by
  rw [List.filter_filter]
  apply List.filter_congr
  intro p there
  cases taken : p.taken with
  | true => rw [genuine p there taken]; rfl
  | false => rfl

theorem length_reply_le (genuine : ∀ p ∈ ps, p.taken = true → p.starts = true) :
    (reply ps).toList.length ≤ (ps.filterMap Piece.due).length := by
  rw [length_due, reply]
  by_cases none : (ps.filter Piece.taken).map Piece.text = []
  · rw [if_pos none]
    exact Nat.zero_le _
  · rw [if_neg none]
    apply List.length_pos_iff.mpr
    intro empty
    apply none
    rw [filter_taken genuine, empty]
    rfl

/-- What a single GPGGA message makes the decoder send. -/
theorem reads_iff {p : Piece} {fix : WGS84Coordinate} (due : p.sentence.fix = some fix) :
    p.Reads ↔ (reply [p]).toList = [fix] := by
  cases taken : p.taken with
  | true =>
    have gpgga : typeOf p.text = GPGGA := by simpa [Piece.taken] using taken
    have got : (readMessage {} p.text).gotGpgga = true := by
      rw [readMessage_gpgga gpgga]
      exact readGpgga_got _
    simp [Piece.Reads, reply, taken, got, due, eq_comm]
  | false =>
    have other : typeOf p.text ≠ GPGGA := by simpa [Piece.taken] using taken
    simp [Piece.Reads, reply, taken, readMessage_other other]

/-- A chunk sends the fixes that are due in it exactly when there is at most one, and its
part of the sentence is enough to read it. -/
theorem reply_eq_iff (genuine : ∀ p ∈ ps, p.taken = true → p.starts = true) :
    (reply ps).toList = ps.filterMap Piece.due ↔
      (ps.filter Piece.starts).length ≤ 1 ∧ ∀ p ∈ ps, p.starts = true → p.Reads := by
  have onlyStarts : reply ps = reply (ps.filter Piece.starts) := by
    rw [reply, reply, filter_taken genuine]
  have members : (∀ p ∈ ps, p.starts = true → p.Reads) ↔
      ∀ p ∈ ps.filter Piece.starts, p.Reads := by
    simp only [List.mem_filter, and_imp]
  have all : ∀ p ∈ ps.filter Piece.starts, p.starts = true := fun p there => (List.mem_filter.mp there).2
  rw [onlyStarts, filterMap_due, members]
  cases starts : ps.filter Piece.starts with
  | nil => simp [reply]
  | cons p more =>
    rw [starts] at all
    obtain ⟨fix, due, eq⟩ := due_of_starts (all p List.mem_cons_self)
    cases more with
    | nil => simp [due, reads_iff eq]
    | cons q more =>
      obtain ⟨other, dueOther, -⟩ := due_of_starts (all q (by simp))
      constructor
      · intro same
        have few : (reply (p :: q :: more)).toList.length ≤ 1 := by
          cases reply (p :: q :: more) <;> simp
        rw [same, List.filterMap_cons_some due, List.filterMap_cons_some dueOther, List.length_cons,
          List.length_cons] at few
        omega
      · rintro ⟨one, -⟩
        simp at one

end Fixes

/-! ## The stream in chunks -/

instance (p : Piece) : Decidable p.Reads := inferInstanceAs (Decidable (_ ∧ _))

/-- Only the beginning of a GPGGA sentence looks like a GPGGA message. -/
def Genuine (sentences : List Sentence) (chunks : List Bytes) : Prop :=
  ∀ ps ∈ chunkPieces sentences 0 chunks, ∀ p ∈ ps, p.taken = true → p.starts = true

instance (sentences : List Sentence) (chunks : List Bytes) : Decidable (Genuine sentences chunks) :=
  inferInstanceAs (Decidable (∀ ps ∈ chunkPieces sentences 0 chunks, _))

/-- No two GPGGA sentences begin in one chunk. -/
def Separate (sentences : List Sentence) (chunks : List Bytes) : Prop :=
  ∀ ps ∈ chunkPieces sentences 0 chunks, (ps.filter Piece.starts).length ≤ 1

instance (sentences : List Sentence) (chunks : List Bytes) : Decidable (Separate sentences chunks) :=
  inferInstanceAs (Decidable (∀ ps ∈ chunkPieces sentences 0 chunks, _))

/-- What a chunk holds of a GPGGA sentence that begins in it gives the fix. -/
def Readable (sentences : List Sentence) (chunks : List Bytes) : Prop :=
  ∀ ps ∈ chunkPieces sentences 0 chunks, ∀ p ∈ ps, p.starts = true → p.Reads

/-- A GPGGA sentence lies in one chunk from its type to the end of its longitude. -/
def Uncut (sentences : List Sentence) (chunks : List Bytes) : Prop :=
  ∀ ps ∈ chunkPieces sentences 0 chunks, ∀ p ∈ ps, p.starts = true →
    p.sentence.needed <+: p.text

instance (sentences : List Sentence) (chunks : List Bytes) : Decidable (Uncut sentences chunks) :=
  inferInstanceAs (Decidable (∀ ps ∈ chunkPieces sentences 0 chunks, _))

section Delivery
variable {sentences : List Sentence} {chunks : List Bytes}

theorem exists_range {start : Nat} {ps : List Piece} (there : ps ∈ chunkPieces sentences start chunks) :
    ∃ first stop, ps = pieces first stop sentences := by
  induction chunks generalizing start with
  | nil => cases there
  | cons chunk chunks ih =>
    rcases List.mem_cons.mp there with rfl | later
    · exact ⟨_, _, rfl⟩
    · exact ih later

theorem text_of_begins {start stop : Nat} {p : Piece} (there : p ∈ pieces start stop sentences)
    (begins : p.begins = true) : p.text <+: p.sentence.body := by
  induction sentences generalizing start stop with
  | nil => cases there
  | cons s rest ih =>
    rcases List.mem_cons.mp there with rfl | later
    · have front : start - 1 = 0 := Nat.sub_eq_zero_of_le (of_decide_eq_true begins).1
      rw [front, List.drop_zero]
      exact List.take_prefix _ _
    · exact ih later

theorem reads_of_needed {p : Piece} (starts : p.starts = true) (text : p.text <+: p.sentence.body)
    (needed : p.sentence.needed <+: p.text) : p.Reads := by
  cases eq : p.sentence with
  | other type fields different => simp [Piece.starts, eq, Sentence.fix] at starts
  | gpgga time latitude longitude fields =>
    rw [eq] at text needed
    obtain ⟨rest, split⟩ := needed
    change Sentence.significant time latitude longitude ++ rest = p.text at split
    rw [← split] at text
    have ends : ∀ c ∈ rest.head?, c = comma := by
      have behind : rest <+: comma :: (east ++ Sentence.ending fields) :=
        (List.prefix_append_right_inj _).mp text
      intro c head
      cases rest with
      | nil => cases head
      | cons d rest =>
        cases head
        exact (List.cons_prefix_cons.mp behind).1
    have read : readMessage {} p.text =
        { gotGpgga := true, latitude := some latitude.value, longitude := some longitude.value } := by
      rw [← split]
      exact readMessage_significant ends
    rw [Piece.Reads, read, eq]
    exact ⟨rfl, rfl⟩

theorem readable_of_uncut (uncut : Uncut sentences chunks) : Readable sentences chunks := by
  intro ps there p inside starts
  obtain ⟨first, stop, rfl⟩ := exists_range there
  have begins : p.begins = true := by
    rw [Piece.starts, Bool.and_eq_true] at starts
    exact starts.1
  exact reads_of_needed starts (text_of_begins inside begins) (uncut _ there p inside starts)

/-- Every fix is delivered once and unaltered exactly when each chunk begins at most one GPGGA
sentence and holds enough of it to read the fix, which all up to the longitude is. -/
theorem fixes_delivered_iff (sentences : List Sentence) (chunks : List Bytes)
    (cut : chunks.flatten = stream sentences) (genuine : Genuine sentences chunks) :
    (sent chunks = fixes sentences ↔ Separate sentences chunks ∧ Readable sentences chunks) ∧
      (Uncut sentences chunks → Readable sentences chunks) := by
  constructor
  · have whole : chunks.flatten = (stream sentences).drop 0 := cut
    rw [sent_eq 0 chunks whole, fixes_eq cut,
      flatMap_eq_iff fun ps there => length_reply_le (genuine ps there)]
    constructor
    · intro same
      exact ⟨fun ps there => ((reply_eq_iff (genuine ps there)).mp (same ps there)).1,
        fun ps there => ((reply_eq_iff (genuine ps there)).mp (same ps there)).2⟩
    · rintro ⟨separate, readable⟩ ps there
      exact (reply_eq_iff (genuine ps there)).mpr ⟨separate ps there, readable ps there⟩
  · exact readable_of_uncut

/-- 57° 42.5' N, 11° 58.25' E, and no further fields. -/
def gothenburg : Sentence :=
  .gpgga ⟨[], by decide, by decide⟩
    { degrees := [5, 7], minutes := [4, 2], fraction := [5] }
    { degrees := [0, 1, 1], minutes := [5, 8], fraction := [2, 5] } []

theorem fixes_delivered_behind_dollar :
    sent [gothenburg.text ++ [dollar], gothenburg.body] = fixes [gothenburg, gothenburg] := by
  have delivered := fixes_delivered_iff [gothenburg, gothenburg]
    [gothenburg.text ++ [dollar], gothenburg.body] (by decide +kernel) (by decide +kernel)
  exact delivered.1.mpr ⟨by decide +kernel, delivered.2 (by decide +kernel)⟩

/-- Two fixes that arrive together are merged into one container. -/
theorem fixes_in_one_chunk_merged :
    ¬ ∀ (sentences : List Sentence) (chunks : List Bytes), chunks.flatten = stream sentences →
      sent chunks = fixes sentences := by
  intro always
  have two := congrArg List.length
    (always [gothenburg, gothenburg] [stream [gothenburg, gothenburg]] (List.append_nil _))
  have one : (sent [stream [gothenburg, gothenburg]]).length ≤ 1 := List.length_filterMap_le _ _
  rw [two] at one
  revert one
  decide

end Delivery

end OpendlvCore.Trimble
