import OpendlvCore.Bytes

/-!
# Lines through a buffer

`fgets` reads to the end of a line or until its buffer is full, so a long line arrives in several
pieces, and the last line may have no newline behind it.
-/
namespace CText
open CBytes

/-- The newline that `fgets` stops behind. -/
def lineEnd : UInt8 := 0x0A

/-- The next characters, at most `room`, to the end of the line. -/
def linePiece : Nat → Bytes → Bytes
  | 0, _ => []
  | _, [] => []
  | room + 1, c :: s => if c = lineEnd then [c] else c :: linePiece room s

/-- `fgets(buffer, size, stream)`: what is read and what is left of the stream. The last place of
the buffer is for the terminating zero. -/
def fgets (size : Nat) (stream : Bytes) : Option (Bytes × Bytes) :=
  if stream = [] then none
  else
    let piece := linePiece (size - 1) stream
    some (piece, stream.drop piece.length)

/-- The pieces that a number of calls deliver. -/
def pieces (size : Nat) : Nat → Bytes → List Bytes
  | 0, _ => []
  | calls + 1, stream =>
    match fgets size stream with
    | none => []
    | some (piece, rest) => piece :: pieces size calls rest

/-- `while (fgets(buffer, size, stream) != NULL)`: every call takes a character at least. -/
def allPieces (size : Nat) (stream : Bytes) : List Bytes := pieces size stream.length stream

/-- A `std::string` made from a character array ends in front of a zero. -/
def cString (buffer : Bytes) : Bytes := buffer.takeWhile (· ≠ 0)

/-- A line, and whether a newline ends it. -/
structure Line where
  content : Bytes
  ended : Bool
  deriving DecidableEq, Repr

namespace Line

/-- With its newline. -/
def text (line : Line) : Bytes := line.content ++ if line.ended then [lineEnd] else []

end Line

def lines : Bytes → List Line
  | [] => []
  | c :: s =>
    if c = lineEnd then { content := [], ended := true } :: lines s
    else
      match lines s with
      | [] => [{ content := [c], ended := false }]
      | line :: more => { line with content := c :: line.content } :: more

section Lines
variable {s line : Bytes}

theorem lines_append (free : lineEnd ∉ line) :
    lines (line ++ lineEnd :: s) = { content := line, ended := true } :: lines s := by
  induction line with
  | nil => rw [List.nil_append, lines, if_pos rfl]
  | cons c line ih =>
    rw [List.mem_cons, not_or] at free
    rw [List.cons_append, lines, if_neg (Ne.symm free.1), ih free.2]

theorem lines_last (free : lineEnd ∉ line) (content : line ≠ []) :
    lines line = [{ content := line, ended := false }] := by
  induction line with
  | nil => exact absurd rfl content
  | cons c line ih =>
    rw [List.mem_cons, not_or] at free
    rw [lines, if_neg (Ne.symm free.1)]
    by_cases last : line = []
    · rw [last]
      rfl
    · rw [ih free.2 last]

/-- A text is empty, or its last line, or a line and its newline in front of a text. -/
theorem lines_induction {motive : Bytes → Prop} (nil : motive [])
    (last : ∀ line, lineEnd ∉ line → line ≠ [] → motive line)
    (append : ∀ line s, lineEnd ∉ line → motive s → motive (line ++ lineEnd :: s)) (s : Bytes) :
    motive s := by
  induction size : s.length using Nat.strong_induction_on generalizing s with
  | _ n ih =>
    by_cases there : lineEnd ∈ s
    · obtain ⟨line, rest, rfl, free⟩ := List.eq_append_cons_of_mem there
      refine append line rest free (ih rest.length ?_ rest rfl)
      rw [← size, List.length_append, List.length_cons]
      omega
    · by_cases empty : s = []
      · rw [empty]
        exact nil
      · exact last s there empty

theorem mem_lines_content {line : Line} (member : line ∈ lines s) : lineEnd ∉ line.content := by
  induction s using lines_induction with
  | nil => cases member
  | last content free notEmpty =>
    rw [lines_last free notEmpty, List.mem_singleton] at member
    rw [member]
    exact free
  | append content s free ih =>
    rw [lines_append free, List.mem_cons] at member
    rcases member with rfl | member
    · exact free
    · exact ih member

end Lines

/-! ## One piece -/

section Piece
variable {room : Nat} {s line : Bytes}

theorem prefix_linePiece (room : Nat) (s : Bytes) : linePiece room s <+: s := by
  induction room generalizing s with
  | zero => exact List.nil_prefix
  | succ room ih =>
    cases s with
    | nil => exact List.nil_prefix
    | cons c s =>
      rw [linePiece]
      split
      · exact List.prefix_append [c] s
      · exact List.prefix_cons_inj c |>.mpr (ih s)

theorem length_linePiece_le (room : Nat) (s : Bytes) : (linePiece room s).length ≤ room := by
  induction room generalizing s with
  | zero => exact Nat.le_refl 0
  | succ room ih =>
    cases s with
    | nil => exact Nat.zero_le _
    | cons c s =>
      rw [linePiece]
      split
      · exact Nat.succ_le_succ (Nat.zero_le room)
      · exact Nat.succ_le_succ (ih s)

theorem linePiece_ne_nil (room : Nat) (content : s ≠ []) : linePiece (room + 1) s ≠ [] := by
  cases s with
  | nil => exact absurd rfl content
  | cons c s =>
    rw [linePiece]
    split <;> simp

/-- A line that fits is read with its newline. -/
theorem linePiece_append (free : lineEnd ∉ line) (fits : line.length < room) :
    linePiece room (line ++ lineEnd :: s) = line ++ [lineEnd] := by
  induction line generalizing room with
  | nil =>
    obtain ⟨room, rfl⟩ := Nat.exists_eq_succ_of_ne_zero (Nat.ne_of_gt fits)
    rw [List.nil_append, List.nil_append, linePiece, if_pos rfl]
  | cons c line ih =>
    rw [List.mem_cons, not_or] at free
    rw [List.length_cons] at fits
    obtain ⟨room, rfl⟩ := Nat.exists_eq_succ_of_ne_zero (by omega : room ≠ 0)
    rw [List.cons_append, linePiece, if_neg (Ne.symm free.1), ih free.2 (by omega), List.cons_append]

/-- A line that does not fit fills the buffer. -/
theorem linePiece_take (free : lineEnd ∉ line) (long : room ≤ line.length) :
    linePiece room (line ++ s) = line.take room := by
  induction line generalizing room with
  | nil =>
    obtain rfl : room = 0 := by simpa using long
    rfl
  | cons c line ih =>
    rw [List.mem_cons, not_or] at free
    cases room with
    | zero => rfl
    | succ room =>
      rw [List.length_cons] at long
      rw [List.cons_append, linePiece, if_neg (Ne.symm free.1), ih free.2 (by omega),
        List.take_succ_cons]

/-- A newline at the very end of the stream changes nothing. -/
theorem linePiece_eq_take (inner : lineEnd ∉ s.dropLast) : linePiece room s = s.take room := by
  induction s generalizing room with
  | nil => cases room <;> rfl
  | cons c s ih =>
    cases room with
    | zero => rfl
    | succ room =>
      by_cases last : s = []
      · rw [last, linePiece, List.take_succ_cons, List.take_nil]
        split
        · rfl
        · cases room <;> rfl
      · rw [List.dropLast_cons_of_ne_nil last, List.mem_cons, not_or] at inner
        rw [linePiece, if_neg (Ne.symm inner.1), ih inner.2, List.take_succ_cons]

theorem linePiece_text {line : Line} (free : lineEnd ∉ line.content) :
    linePiece room line.text = line.text.take room := by
  apply linePiece_eq_take
  unfold Line.text
  split
  · rwa [List.dropLast_concat]
  · rw [List.append_nil]
    exact fun inside => free ((List.dropLast_prefix _).subset inside)

end Piece

/-! ## All pieces -/

section Pieces
variable {room calls more : Nat} {s line : Bytes}

/-- One call for each character is enough. -/
theorem pieces_of_le (calls more : Nat) (enough : s.length ≤ calls) (enough' : s.length ≤ more) :
    pieces (room + 2) calls s = pieces (room + 2) more s := by
  induction calls generalizing more s with
  | zero =>
    obtain rfl : s = [] := List.length_eq_zero_iff.mp (Nat.le_zero.mp enough)
    cases more <;> rfl
  | succ calls ih =>
    by_cases empty : s = []
    · rw [empty]
      cases more <;> rfl
    · have taken := List.length_pos_iff.mpr (linePiece_ne_nil room empty)
      have content := List.length_pos_iff.mpr empty
      obtain ⟨more, rfl⟩ := Nat.exists_eq_succ_of_ne_zero (by omega : more ≠ 0)
      simp only [pieces, fgets, if_neg empty, Nat.add_one_sub_one]
      rw [ih more]
      · rw [List.length_drop]
        omega
      · rw [List.length_drop]
        omega

theorem allPieces_nil (size : Nat) : allPieces size [] = [] := rfl

theorem allPieces_cons (content : s ≠ []) :
    allPieces (room + 2) s =
      linePiece (room + 1) s ::
        allPieces (room + 2) (s.drop (linePiece (room + 1) s).length) := by
  have taken := List.length_pos_iff.mpr (linePiece_ne_nil room content)
  have there := List.length_pos_iff.mpr content
  rw [allPieces, ← pieces_of_le (s.length - 1 + 1) s.length (by omega) (Nat.le_refl _)]
  simp only [pieces, fgets, if_neg content, Nat.add_one_sub_one]
  rw [allPieces, pieces_of_le]
  · rw [List.length_drop]
    omega
  · exact Nat.le_refl _

/-- Behind a newline the reading starts afresh. -/
theorem allPieces_append (free : lineEnd ∉ line) :
    allPieces (room + 2) (line ++ lineEnd :: s) =
      allPieces (room + 2) (line ++ [lineEnd]) ++ allPieces (room + 2) s := by
  induction size : line.length using Nat.strong_induction_on generalizing line with
  | _ n ih =>
    have content : ∀ s, line ++ lineEnd :: s ≠ [] := by simp
    rw [allPieces_cons (content s), allPieces_cons (content [])]
    by_cases fits : line.length < room + 1
    · rw [linePiece_append free fits, linePiece_append free fits]
      simp [allPieces_nil]
    · have long := Nat.not_lt.mp fits
      have taken : (line.take (room + 1)).length = room + 1 := by
        rw [List.length_take, Nat.min_eq_left long]
      rw [linePiece_take free long, linePiece_take free long, taken,
        List.drop_append_of_le_length long, List.drop_append_of_le_length long, List.cons_append]
      have rest := ih (line.drop (room + 1)).length (by rw [List.length_drop]; omega)
        (fun inside => free (List.mem_of_mem_drop inside)) rfl
      rw [rest]

/-- The lines of a text are read one by one. -/
theorem allPieces_eq (s : Bytes) :
    allPieces (room + 2) s = (lines s).flatMap fun line => allPieces (room + 2) line.text := by
  induction s using lines_induction with
  | nil => rfl
  | last line free content =>
    rw [lines_last free content]
    simp [Line.text]
  | append line s free ih =>
    rw [allPieces_append free, lines_append free, List.flatMap_cons, ← ih]
    simp [Line.text]

theorem mem_allPieces {piece : Bytes} (member : piece ∈ allPieces (room + 2) s) :
    piece.length ≤ room + 1 ∧ ∀ c ∈ piece, c ∈ s := by
  induction size : s.length using Nat.strong_induction_on generalizing s with
  | _ n ih =>
    by_cases empty : s = []
    · rw [empty] at member
      cases member
    · rw [allPieces_cons empty, List.mem_cons] at member
      rcases member with rfl | member
      · exact ⟨length_linePiece_le _ _, fun c inside => (prefix_linePiece _ _).subset inside⟩
      · have taken := List.length_pos_iff.mpr (linePiece_ne_nil room empty)
        have there := List.length_pos_iff.mpr empty
        obtain ⟨short, inside⟩ := ih _ (by rw [← size, List.length_drop]; omega) member rfl
        exact ⟨short, fun c here => List.mem_of_mem_drop (inside c here)⟩

end Pieces

end CText
