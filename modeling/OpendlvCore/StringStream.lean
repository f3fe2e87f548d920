import OpendlvCore.Bytes

/-!
# `std::stringstream` as a value

A byte stream with one get and one put position, opened for reading and writing.
Only the operations used on binary data are here: unformatted `read` and `write`,
seeking and telling both positions, and exchanging the content. Of these, only a
short `read` sets `eofbit`, and it sets `failbit` with it; `badbit` is never set.
Positions past the content cannot be reached: seeking there fails.
-/
namespace CStream
open CBytes

/-- What the flags of a new stream have to satisfy. -/
theorem flags_clear : false = true → false = true := id

structure StringStream where
  data : Bytes := []
  gptr : Nat := 0
  pptr : Nat := 0
  eofbit : Bool := false
  failbit : Bool := false
  /-- No operation below reports the end of the stream without failing. -/
  eof_fails : eofbit = true → failbit = true := by exact flags_clear
  deriving DecidableEq, Repr

namespace StringStream

def good (s : StringStream) : Bool := !s.eofbit && !s.failbit

/-- The bytes between the get position and the end. -/
def unread (s : StringStream) : Bytes := s.data.drop s.gptr

def tellg (s : StringStream) : Int := if s.failbit then -1 else s.gptr
def tellp (s : StringStream) : Int := if s.failbit then -1 else s.pptr

/-- `seekp(0, ios_base::end)` -/
def seekpEnd (s : StringStream) : StringStream :=
  if s.failbit then s else { s with pptr := s.data.length }

/-- `write(bs, n)`: overwrites from the put position and grows the content as needed. -/
def write (s : StringStream) (bs : Bytes) : StringStream :=
  if s.good then
    { s with
      data := s.data.take s.pptr ++ bs ++ s.data.drop (s.pptr + bs.length)
      pptr := s.pptr + bs.length }
  else { s with failbit := true, eof_fails := fun _ => rfl }

/-- `seekg(pos, ios_base::beg)`: clears `eofbit`, then moves unless the stream has failed. -/
def seekg (s : StringStream) (pos : Nat) : StringStream :=
  if s.failbit then { s with eofbit := false, eof_fails := nofun }
  else if pos ≤ s.data.length then { s with gptr := pos, eofbit := false, eof_fails := nofun }
  else { s with eofbit := false, failbit := true, eof_fails := fun _ => rfl }

/-- `seekg(0, ios_base::end)` -/
def seekgEnd (s : StringStream) : StringStream := s.seekg s.data.length

/-- `read(p, n)`: the bytes that were there to be copied, at most `n`. -/
def read (s : StringStream) (n : Nat) : Bytes × StringStream :=
  if s.good then
    if s.unread.length < n then
      (s.unread, { s with
        gptr := s.gptr + s.unread.length, eofbit := true, failbit := true, eof_fails := fun _ => rfl })
    else (s.unread.take n, { s with gptr := s.gptr + n })
  else ([], { s with failbit := true, eof_fails := fun _ => rfl })

/-- `str(bs)`: new content, both positions at its beginning; the flags stay. -/
def setStr (s : StringStream) (bs : Bytes) : StringStream :=
  { s with data := bs, gptr := 0, pptr := 0 }

/-- What reads can still deliver: nothing once the stream has failed. -/
def available (s : StringStream) : Bytes := if s.good then s.unread else []

def clear (s : StringStream) : StringStream :=
  { s with eofbit := false, failbit := false, eof_fails := nofun }

/-- The same stream with its get position at `pos`. -/
def getAt (s : StringStream) (pos : Nat) : StringStream := { s with gptr := pos }

/-- The same stream after `n` bytes were read from it. -/
def advance (s : StringStream) (n : Nat) : StringStream := s.getAt (s.gptr + n)

section Lemmas
variable {s : StringStream}

theorem good_eq (s : StringStream) : s.good = !s.failbit := by
  cases eof : s.eofbit with
  | false => simp [good, eof]
  | true => simp [good, eof, s.eof_fails eof]

theorem failbit_of_good (h : s.good = true) : s.failbit = false := by
  simpa [good_eq] using h

theorem eofbit_of_good (h : s.good = true) : s.eofbit = false := by
  cases eof : s.eofbit with
  | false => rfl
  | true => rw [good, eof] at h; cases h

theorem failbit_of_not_good (h : s.good = false) : s.failbit = true := by
  simpa [good_eq] using h

@[simp] theorem advance_data (n : Nat) : (s.advance n).data = s.data := rfl
@[simp] theorem advance_gptr (n : Nat) : (s.advance n).gptr = s.gptr + n := rfl
@[simp] theorem advance_good (n : Nat) : (s.advance n).good = s.good := rfl
@[simp] theorem getAt_data (pos : Nat) : (s.getAt pos).data = s.data := rfl
@[simp] theorem getAt_gptr (pos : Nat) : (s.getAt pos).gptr = pos := rfl

theorem advance_advance (m n : Nat) : (s.advance m).advance n = s.advance (m + n) := by
  simp only [advance, getAt, Nat.add_assoc]

theorem unread_advance_drop (n : Nat) : (s.advance n).unread = s.unread.drop n := by
  simp [unread, List.drop_drop]

theorem unread_advance {bs rest : Bytes} (h : s.unread = bs ++ rest) :
    (s.advance bs.length).unread = rest := by
  rw [unread, advance_data, advance_gptr, ← List.drop_drop]
  change (s.unread.drop bs.length) = rest
  rw [h, List.drop_left]

theorem tellg_of_good (h : s.good = true) : s.tellg = s.gptr := by
  simp [tellg, failbit_of_good h]

theorem tellp_of_good (h : s.good = true) : s.tellp = s.pptr := by
  simp [tellp, failbit_of_good h]

theorem tellg_of_not_good (h : s.good = false) : s.tellg = -1 := by
  simp [tellg, failbit_of_not_good h]

theorem tellp_of_not_good (h : s.good = false) : s.tellp = -1 := by
  simp [tellp, failbit_of_not_good h]

theorem seekg_of_le {pos : Nat} (h : s.good = true) (inside : pos ≤ s.data.length) :
    s.seekg pos = s.getAt pos := by
  simp [seekg, failbit_of_good h, inside, eofbit_of_good h, getAt]

theorem seekg_good_iff {pos : Nat} :
    (s.seekg pos).good = true ↔ s.good = true ∧ pos ≤ s.data.length := by
  rw [good_eq, good_eq, seekg]
  by_cases failed : s.failbit = true
  · simp [failed]
  · by_cases inside : pos ≤ s.data.length <;> simp [failed, inside]

theorem seekg_of_not_good (pos : Nat) (h : s.good = false) : (s.seekg pos).good = false := by
  simp [good, seekg, failbit_of_not_good h]

theorem seekpEnd_of_good (h : s.good = true) :
    s.seekpEnd = { s with pptr := s.data.length } := by
  simp [seekpEnd, failbit_of_good h]

theorem seekpEnd_of_not_good (h : s.good = false) : s.seekpEnd = s := by
  simp [seekpEnd, failbit_of_not_good h]

theorem write_of_end {bs : Bytes} (h : s.good = true) (atEnd : s.pptr = s.data.length) :
    s.write bs = { s with data := s.data ++ bs, pptr := s.data.length + bs.length } := by
  simp [write, h, atEnd]

theorem write_of_not_good {bs : Bytes} (h : s.good = false) : (s.write bs).good = false := by
  rw [write, if_neg (by simp [h]), good_eq]
  rfl

theorem read_of_unread {bs rest : Bytes} (h : s.good = true) (here : s.unread = bs ++ rest) :
    s.read bs.length = (bs, s.advance bs.length) := by
  have enough : ¬ s.unread.length < bs.length := by simp [here]
  rw [read, if_pos h, if_neg enough, here, List.take_left]
  rfl

theorem read_fst (n : Nat) : (s.read n).1 = s.available.take n := by
  unfold read available
  split
  · split
    · rename_i short
      exact (List.take_of_length_le (Nat.le_of_lt short)).symm
    · rfl
  · exact List.take_nil.symm

@[simp] theorem read_data (n : Nat) : (s.read n).2.data = s.data := by
  unfold read
  split
  · split <;> rfl
  · rfl

@[simp] theorem seekg_data (pos : Nat) : (s.seekg pos).data = s.data := by
  unfold seekg
  split
  · rfl
  · split <;> rfl

theorem read_good {n : Nat} (h : (s.read n).2.good = true) :
    s.good = true ∧ n ≤ s.unread.length := by
  unfold read at h
  split at h
  · rename_i fine
    split at h
    · simp [good] at h
    · exact ⟨fine, by omega⟩
  · simp [good] at h

end Lemmas

end StringStream

end CStream
