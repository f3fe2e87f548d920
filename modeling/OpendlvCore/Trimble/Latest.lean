import Mathlib.Data.List.Flatten
import OpendlvCore.Trimble.Chunking

/-!
# The latest position

Of several sentences in one chunk the last one is sent. So fixes are lost, but the container sent
last always holds the newest fix, as long as no chunk ends inside its last sentence.
-/
namespace OpendlvCore.Trimble
open CBytes CText

/-- The fix of the last GPGGA sentence that begins in a chunk. -/
def latest (ps : List Piece) : Option WGS84Coordinate := (ps.filterMap Piece.due).getLast?

/-- The fixes of the GPGGA sentences whose type begins in the first bytes of the stream. -/
def begun (sentences : List Sentence) (length : Nat) : List WGS84Coordinate :=
  (pieces 0 length sentences).filterMap Piece.due

/-- Every chunk holds the last GPGGA sentence that begins in it up to the end of its longitude. -/
def LastUncut (sentences : List Sentence) (chunks : List Bytes) : Prop :=
  ∀ ps ∈ chunkPieces sentences 0 chunks, ∀ p ∈ (ps.filter Piece.starts).getLast?,
    p.sentence.needed <+: p.text

instance (sentences : List Sentence) (chunks : List Bytes) : Decidable (LastUncut sentences chunks) :=
  inferInstanceAs (Decidable (∀ ps ∈ chunkPieces sentences 0 chunks, _))

section Chunk
variable {ps : List Piece} {p : Piece}

/-- A sentence that is there up to its longitude hides what was read before it. -/
theorem readMessage_needed (starts : p.starts = true) (text : p.text <+: p.sentence.body)
    (needed : p.sentence.needed <+: p.text) (v : Locals) :
    readMessage v p.text = readMessage {} p.text := by
  cases eq : p.sentence with
  | other type fields different => simp [Piece.starts, eq, Sentence.fix] at starts
  | gpgga time latitude longitude fields =>
    rw [eq] at text needed
    obtain ⟨rest, split⟩ := needed
    change Sentence.significant time latitude longitude ++ rest = p.text at split
    rw [← split] at text ⊢
    have behind : rest <+: comma :: (east ++ Sentence.ending fields) :=
      (List.prefix_append_right_inj _).mp text
    have ends : ∀ c ∈ rest.head?, c = comma := by
      intro c head
      cases rest with
      | nil => cases head
      | cons d rest =>
        cases head
        exact (List.cons_prefix_cons.mp behind).1
    rw [readMessage_significant ends, readMessage_significant ends]

theorem sublist_latest (ps : List Piece) : (latest ps).toList.Sublist (ps.filterMap Piece.due) := by
  rw [latest]
  cases last : (ps.filterMap Piece.due).getLast? with
  | none => exact List.nil_sublist _
  | some fix => exact List.singleton_sublist.mpr (List.mem_of_getLast? last)

theorem isSome_latest (ps : List Piece) : (latest ps).isSome = ps.any Piece.starts := by
  have count : ps.filterMap Piece.due ≠ [] ↔ ps.filter Piece.starts ≠ [] := by
    rw [← List.length_pos_iff, length_due, List.length_pos_iff]
  rw [latest, Bool.eq_iff_iff, List.getLast?_isSome, count, Ne, List.filter_eq_nil_iff,
    List.any_eq_true]
  push Not
  rfl

theorem taken_of_reads (reads : p.Reads) : p.taken = true := by
  by_contra other
  have unread : readMessage {} p.text = {} :=
    readMessage_other fun gpgga => other (by rw [Piece.taken, gpgga]; exact decide_eq_true rfl)
  have got := reads.1
  rw [unread] at got
  cases got

/-- A chunk sends the newest fix that begins in it. -/
theorem reply_eq_latest (genuine : ∀ p ∈ ps, p.taken = true → p.starts = true)
    (texts : ∀ p ∈ ps, p.begins = true → p.text <+: p.sentence.body)
    (uncut : ∀ p ∈ (ps.filter Piece.starts).getLast?, p.sentence.needed <+: p.text) :
    reply ps = latest ps := by
  have onlyStarts : reply ps = reply (ps.filter Piece.starts) := by
    rw [reply, reply, filter_taken genuine]
  rw [onlyStarts, latest, filterMap_due]
  cases last : (ps.filter Piece.starts).getLast? with
  | none =>
    rw [List.getLast?_eq_none_iff.mp last]
    rfl
  | some p =>
    obtain ⟨before, split⟩ := List.getLast?_eq_some_iff.mp last
    obtain ⟨there, starts⟩ := List.mem_filter.mp (List.mem_of_getLast? last)
    have begins : p.begins = true := (Bool.and_eq_true_iff.mp starts).1
    have text := texts p there begins
    have needed := uncut p last
    have reads : p.Reads := reads_of_needed starts text needed
    obtain ⟨fix, due, eq⟩ := due_of_starts starts
    have value := reads.2
    rw [eq, Option.some_inj] at value
    have messages : (((before ++ [p]).filter Piece.taken).map Piece.text) =
        (before.filter Piece.taken).map Piece.text ++ [p.text] := by
      rw [List.filter_append, List.filter_cons_of_pos (taken_of_reads reads), List.filter_nil,
        List.map_append, List.map_singleton]
    have some_message : (before.filter Piece.taken).map Piece.text ++ [p.text] ≠ [] :=
      List.append_ne_nil_of_right_ne_nil _ (List.cons_ne_nil _ _)
    rw [split, reply, messages, if_neg some_message, List.foldl_append, List.foldl_cons,
      List.foldl_nil, readMessage_needed starts text needed, List.filterMap_append,
      List.filterMap_cons_some due, List.filterMap_nil, List.getLast?_concat, value]

end Chunk

section Run
variable {sentences : List Sentence} {chunks : List Bytes}

theorem chunkPieces_append (start : Nat) (chunks later : List Bytes) :
    chunkPieces sentences start (chunks ++ later) =
      chunkPieces sentences start chunks ++
        chunkPieces sentences (start + chunks.flatten.length) later := by
  induction chunks generalizing start with
  | nil => rfl
  | cons chunk chunks ih =>
    rw [List.cons_append, chunkPieces, chunkPieces, ih, List.flatten_cons, List.length_append,
      Nat.add_assoc, List.cons_append]

/-- Also before the whole stream has come in. -/
theorem sent_received (received : chunks.flatten <+: stream sentences) :
    sent chunks = (chunkPieces sentences 0 chunks).flatMap fun ps => (reply ps).toList := by
  obtain ⟨rest, whole⟩ := received
  have behind : [rest].flatten = (stream sentences).drop chunks.flatten.length := by
    rw [← whole, List.drop_left]
    exact List.append_nil rest
  -- the bytes that are still to come would be one more chunk
  have all := sent_eq 0 (chunks ++ [rest]) (by simpa using whole)
  have last := sent_eq chunks.flatten.length [rest] behind
  rw [sent, List.filterMap_append, chunkPieces_append, List.flatMap_append, Nat.zero_add] at all
  change sent chunks ++ sent [rest] = _ at all
  rw [last] at all
  exact List.append_cancel_right all

theorem begun_eq (sentences : List Sentence) (chunks : List Bytes) :
    begun sentences chunks.flatten.length =
      (chunkPieces sentences 0 chunks).flatMap (List.filterMap Piece.due) := by
  have all : (chunkPieces sentences 0 chunks).flatMap (List.filterMap Piece.due) ++
      dueFrom (0 + chunks.flatten.length) sentences = dueFrom 0 sentences := due_chunkPieces 0 chunks
  rw [← due_pieces (Nat.zero_le chunks.flatten.length), Nat.zero_add] at all
  exact (List.append_cancel_right all).symm

/-- What has been sent after any number of chunks: fixes of the stream in their order, at most one
for each chunk, and last the newest one. -/
theorem latest_fix_sent (sentences : List Sentence) (chunks : List Bytes)
    (received : chunks.flatten <+: stream sentences) (genuine : Genuine sentences chunks)
    (uncut : LastUncut sentences chunks) :
    (sent chunks).Sublist (fixes sentences) ∧
      (sent chunks).getLast? = (begun sentences chunks.flatten.length).getLast? ∧
      (sent chunks).length =
        ((chunkPieces sentences 0 chunks).filter fun ps => ps.any Piece.starts).length := by
  have replies : ∀ ps ∈ chunkPieces sentences 0 chunks, reply ps = latest ps := by
    intro ps there
    obtain ⟨first, stop, rfl⟩ := exists_range there
    exact reply_eq_latest (genuine _ there) (fun p => text_of_begins) (uncut _ there)
  have ran : sent chunks = (chunkPieces sentences 0 chunks).filterMap latest := by
    rw [sent_received received, List.filterMap_eq_flatMap_toList]
    exact List.flatMap_congr fun ps there => by rw [replies ps there]
  rw [ran]
  refine ⟨?_, ?_, ?_⟩
  · have prior : begun sentences chunks.flatten.length <+: fixes sentences :=
      ⟨_, (due_pieces (Nat.zero_le _)).trans (dueFrom_zero sentences)⟩
    rw [List.filterMap_eq_flatMap_toList]
    rw [begun_eq] at prior
    exact (List.Sublist.flatMap_right _ fun ps _ => sublist_latest ps).trans prior.sublist
  · rw [begun_eq, List.filterMap_eq_flatMap_toList, List.getLast?_flatMap, List.getLast?_flatMap]
    congr 1
    funext ps
    cases h : latest ps <;> exact h.symm
  · rw [List.length_filterMap_eq_countP, List.countP_eq_length_filter]
    congr 2
    funext ps
    exact isSome_latest ps

end Run

/-- Two sentences in the first chunk, the end of the second one and a third one behind it. -/
def merged : List Bytes :=
  [gothenburg.text ++ dollar :: gothenburg.needed, gothenburg.body.drop gothenburg.needed.length,
    gothenburg.text]

theorem latest_fix_sent_merged :
    (sent merged).Sublist (fixes [gothenburg, gothenburg, gothenburg]) ∧
      (sent merged).getLast? =
        (begun [gothenburg, gothenburg, gothenburg] merged.flatten.length).getLast? ∧
      (sent merged).length = ((chunkPieces [gothenburg, gothenburg, gothenburg] 0 merged).filter
        fun ps => ps.any Piece.starts).length :=
  latest_fix_sent _ merged (by decide +kernel) (by decide +kernel) (by decide +kernel)

end OpendlvCore.Trimble
