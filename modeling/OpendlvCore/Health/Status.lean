import OpendlvCore.LastWrites
import OpendlvCore.LineBuffers
import OpendlvCore.Text
import Mathlib.Data.List.TakeWhile

/-!
# The health status

`Health::body` (`Health.cpp:58-98`). The output of the health script arrives in pieces, and a
piece with one `=` in it puts an entry into the map without the last character of its value. That
character is meant to be the newline. The class of the map is generated from
`ODVDVehicle.odvd` and a parameter here. Output and the pause between two checks are left out.
-/
namespace OpendlvCore.Health
open CBytes CText LastWrites

/-- The generated class `opendlv::system::HealthStatus`, whose map finds what was put last. -/
structure HealthStatus (M : Type) where
  empty : M
  putTo_MapOfStatus : M → Bytes → Bytes → M
  find : M → Bytes → Option Bytes
  find_empty : ∀ key, find empty key = none
  find_putTo : ∀ m key value key',
    find (putTo_MapOfStatus m key value) key' = if key = key' then some value else find m key'

def equals : UInt8 := 0x3D

/-- `sizeof(buffer)` -/
def bufferSize : Nat := 4096

section Body
variable (split : Bytes → UInt8 → List Bytes) {M : Type} (hs : HealthStatus M)

/-- The pass of the inner loop for one filled buffer. -/
def readPiece (m : M) (buffer : Bytes) : M :=
  match split (cString buffer) equals with
  | [key, value] => hs.putTo_MapOfStatus m key value.dropLast
  | _ => m

/-- The map that is sent for an output of the script. -/
def status (output : Bytes) : M :=
  (allPieces (bufferSize - 1) output).foldl (readPiece split hs) hs.empty

/-- What the passes of `body` send; `none` stands for a script that `popen` cannot run. -/
def body (runs : List (Option Bytes)) : List (Option M) :=
  runs.map fun fp => fp.map (status split hs)

end Body

/-! ## What the output says -/

/-- A line of the form `key=value`. -/
def KeyValue (content : Bytes) : Prop :=
  ∃ key value, content = key ++ equals :: value ∧ key ≠ [] ∧ value ≠ [] ∧ equals ∉ key ∧
    equals ∉ value

def WellFormed (output : Bytes) : Prop :=
  ∀ line ∈ lines output, equals ∉ line.content ∨ KeyValue line.content

def keyOf (line : Line) : Bytes := line.content.takeWhile (· ≠ equals)
def valueOf (line : Line) : Bytes := (line.content.dropWhile (· ≠ equals)).tail

def statusLines (output : Bytes) : List Line :=
  (lines output).filter fun line => equals ∈ line.content

/-- The complete value of the last line for a key. -/
def statusOf (output : Bytes) (key : Bytes) : Option Bytes :=
  lastValue key ((statusLines output).map fun line => (keyOf line, valueOf line))

/-- A line that one call of `fgets` reads with its newline, and a string keeps. -/
structure Whole (line : Line) : Prop where
  ended : line.ended = true
  fits : line.content.length < bufferSize - 2
  noZero : 0 ∉ line.content

/-! ## One piece -/

section Piece
variable {split : Bytes → UInt8 → List Bytes} {M : Type} {hs : HealthStatus M}
  {key value piece : Bytes} {entry : Bytes × Bytes}

/-- The entry that a piece puts into the map. -/
def entryOf (split : Bytes → UInt8 → List Bytes) (piece : Bytes) : Option (Bytes × Bytes) :=
  match split (cString piece) equals with
  | [key, value] => some (key, value.dropLast)
  | _ => none

theorem readPiece_eq (m : M) (piece : Bytes) :
    readPiece split hs m piece =
      ((entryOf split piece).map fun entry => hs.putTo_MapOfStatus m entry.1 entry.2).getD m := by
  unfold readPiece entryOf
  split <;> rfl

theorem foldl_readPiece (m : M) (pieces : List Bytes) :
    pieces.foldl (readPiece split hs) m =
      (pieces.filterMap (entryOf split)).foldl
        (fun m entry => hs.putTo_MapOfStatus m entry.1 entry.2) m := by
  induction pieces generalizing m with
  | nil => rfl
  | cons piece pieces ih =>
    rw [List.foldl_cons, ih, readPiece_eq, List.filterMap_cons]
    cases entryOf split piece <;> rfl

/-- The map holds the last entry for each key. -/
theorem find_status (output key : Bytes) :
    hs.find (status split hs output) key =
      lastValue key ((allPieces (bufferSize - 1) output).filterMap (entryOf split)) := by
  rw [status, foldl_readPiece]
  exact lookup_foldl hs.find_empty hs.find_putTo key _

theorem entryOf_free (splits : Splits split) (free : equals ∉ piece) : entryOf split piece = none := by
  have free : equals ∉ cString piece := fun inside => free ((List.takeWhile_prefix _).subset inside)
  unfold entryOf
  by_cases empty : cString piece = []
  · rw [empty]
    rcases splits.empty equals with none | one
    · rw [none]
    · rw [one]
  · rw [splits.single empty free]

theorem cString_append (noZero : 0 ∉ key) (value : Bytes) :
    cString (key ++ equals :: value) = key ++ equals :: cString value := by
  have clear : ∀ c ∈ key, decide (c ≠ 0) = true := by
    intro c inside
    exact decide_eq_true fun zero => noZero (zero ▸ inside)
  rw [cString, List.takeWhile_append_of_pos clear, List.takeWhile_cons, if_pos (by decide), cString]

theorem entryOf_pair (splits : Splits split) (free : equals ∉ key) (free' : equals ∉ value)
    (noZero : 0 ∉ key) :
    entryOf split (key ++ equals :: value) = some (key, (cString value).dropLast) := by
  have free' : equals ∉ cString value := fun inside => free' ((List.takeWhile_prefix _).subset inside)
  rw [entryOf, cString_append noZero, splits.pair free free']

theorem zero_not_mem_cString (buffer : Bytes) : 0 ∉ cString buffer := fun inside => by
  simpa using List.mem_takeWhile_imp inside

/-- A key is in front of an `=` and of every zero. -/
theorem key_of_entryOf (splits : Splits split) (put : entryOf split piece = some entry) :
    entry.1.length < piece.length ∧ 0 ∉ entry.1 := by
  obtain ⟨key, value, tokens⟩ : ∃ key value, split (cString piece) equals = [key, value] := by
    unfold entryOf at put
    split at put
    · exact ⟨_, _, ‹_›⟩
    · cases put
  have content : cString piece ≠ [] := by
    intro empty
    rw [empty] at tokens
    rcases splits.empty equals with none | one
    · rw [none] at tokens
      cases tokens
    · rw [one] at tokens
      cases tokens
  have text : cString piece = key ++ equals :: value := by
    have whole : [equals].intercalate ((cString piece).splitOn equals) = cString piece :=
      List.intercalate_splitOn equals
    rw [← splits.entries _ _ content, tokens] at whole
    rw [← whole]
    simp [List.intercalate]
  have noZero := zero_not_mem_cString piece
  have short : (cString piece).length ≤ piece.length := (List.takeWhile_prefix _).length_le
  rw [entryOf, tokens, Option.some.injEq] at put
  rw [text] at noZero short
  rw [← put]
  rw [List.length_append, List.length_cons] at short
  change key.length < piece.length ∧ 0 ∉ key
  exact ⟨by omega, fun inside => noZero (List.mem_append_left _ inside)⟩

end Piece

/-! ## One line -/

section Line
variable {split : Bytes → UInt8 → List Bytes} {room : Nat} {line : Line} {key value : Bytes}

/-- The entries that the pieces of a line put into the map, in a buffer with `room + 2` places. -/
def entriesOf (split : Bytes → UInt8 → List Bytes) (room : Nat) (line : Line) :
    List (Bytes × Bytes) :=
  (allPieces (room + 2) line.text).filterMap (entryOf split)

/-- What arrives of the value of a line. -/
def readValue (room : Nat) (line : Line) : Bytes :=
  (cString ((line.text.drop ((keyOf line).length + 1)).take (room - (keyOf line).length))).dropLast

theorem filterMap_pieces_free (splits : Splits split) {text : Bytes} (free : equals ∉ text) :
    (allPieces (room + 2) text).filterMap (entryOf split) = [] := by
  rw [List.filterMap_eq_nil_iff]
  intro piece member
  exact entryOf_free splits fun inside => free ((mem_allPieces member).2 _ inside)

theorem equals_not_mem_text (free : equals ∉ line.content) : equals ∉ line.text := by
  intro inside
  rcases List.mem_append.mp inside with inside | inside
  · exact free inside
  · split at inside
    · revert inside
      decide
    · cases inside

theorem entriesOf_free (splits : Splits split) (free : equals ∉ line.content) :
    entriesOf split room line = [] :=
  filterMap_pieces_free splits (equals_not_mem_text free)

/-- The key and the value of a line `key=value`. -/
theorem keyOf_eq (content : line.content = key ++ equals :: value) (free : equals ∉ key) :
    keyOf line = key ∧ valueOf line = value := by
  have before : ∀ c ∈ key, decide (c ≠ equals) = true := by
    intro c inside
    exact decide_eq_true fun same => free (same ▸ inside)
  constructor
  · rw [keyOf, content, List.takeWhile_append_of_pos before, List.takeWhile_cons, if_neg (by simp),
      List.append_nil]
  · rw [valueOf, content, List.dropWhile_append_of_pos before, List.dropWhile_cons, if_neg (by simp),
      List.tail_cons]

/-- A line `key=value` in front of its `=` and behind it, where the newline belongs to the value. -/
theorem text_eq (form : KeyValue line.content) :
    line.text = keyOf line ++ equals :: line.text.drop ((keyOf line).length + 1) ∧
      line.text.drop ((keyOf line).length + 1) =
        valueOf line ++ (if line.ended then [lineEnd] else []) := by
  obtain ⟨key, value, content, _, _, free, _⟩ := form
  obtain ⟨key_eq, value_eq⟩ := keyOf_eq content free
  have text : line.text = key ++ equals :: (value ++ if line.ended then [lineEnd] else []) := by
    rw [Line.text, content, List.append_assoc, List.cons_append]
  have behind : line.text.drop (key.length + 1) = value ++ if line.ended then [lineEnd] else [] := by
    rw [text, ← List.drop_drop, List.drop_left, List.drop_one, List.tail_cons]
  rw [key_eq, value_eq, behind]
  exact ⟨text, rfl⟩

theorem equals_not_mem_behind (form : KeyValue line.content) :
    equals ∉ keyOf line ∧ equals ∉ line.text.drop ((keyOf line).length + 1) := by
  obtain ⟨_, behind⟩ := text_eq form
  obtain ⟨key, value, content, _, _, free, free'⟩ := form
  obtain ⟨key_eq, value_eq⟩ := keyOf_eq content free
  rw [behind, value_eq, key_eq, List.mem_append, not_or]
  refine ⟨free, free', ?_⟩
  split
  · decide
  · exact List.not_mem_nil

/-- The first piece holds the key, if the key is short, and no other piece holds an entry. -/
theorem entriesOf_keyValue (splits : Splits split) (plain : lineEnd ∉ line.content)
    (form : KeyValue line.content) (short : (keyOf line).length ≤ room) (noZero : 0 ∉ keyOf line) :
    entriesOf split room line = [(keyOf line, readValue room line)] := by
  obtain ⟨text, -⟩ := text_eq form
  obtain ⟨free, free'⟩ := equals_not_mem_behind form
  unfold readValue
  generalize behind_eq : line.text.drop ((keyOf line).length + 1) = behind at *
  have content : line.text ≠ [] := by simp [text]
  have first : line.text.take (room + 1) =
      keyOf line ++ equals :: behind.take (room - (keyOf line).length) := by
    have places : room + 1 - (keyOf line).length = room - (keyOf line).length + 1 := by omega
    rw [text, List.take_append, List.take_of_length_le (by omega), places, List.take_succ_cons]
  have others : equals ∉ line.text.drop (line.text.take (room + 1)).length := by
    have long : (keyOf line).length + 1 ≤ (line.text.take (room + 1)).length := by
      rw [first, List.length_append, List.length_cons]
      omega
    rw [← Nat.add_sub_cancel' long, ← List.drop_drop, behind_eq]
    exact fun inside => free' (List.mem_of_mem_drop inside)
  have entry := entryOf_pair splits free
    (fun inside => free' (List.mem_of_mem_take inside) : equals ∉ behind.take (room - (keyOf line).length))
    noZero
  rw [entriesOf, allPieces_cons content, linePiece_text plain, List.filterMap_cons,
    filterMap_pieces_free splits others, first, entry]

theorem cString_eq {buffer : Bytes} (noZero : 0 ∉ buffer) : cString buffer = buffer := by
  rw [cString, List.takeWhile_eq_self_iff]
  intro c inside
  exact decide_eq_true fun zero => noZero (zero ▸ inside)

/-- The last character that arrives is the newline exactly when everything arrives. -/
theorem dropLast_arrived_iff {n : Nat} {ended : Bool} (content : value ≠ []) :
    (cString ((value ++ if ended then [lineEnd] else []).take n)).dropLast = value ↔
      ended = true ∧ value.length < n ∧ 0 ∉ value := by
  constructor
  · intro complete
    have noZero := zero_not_mem_cString ((value ++ if ended then [lineEnd] else []).take n)
    have short : (cString ((value ++ if ended then [lineEnd] else []).take n)).length ≤
        ((value ++ if ended then [lineEnd] else []).take n).length :=
      (List.takeWhile_prefix _).length_le
    generalize cString ((value ++ if ended then [lineEnd] else []).take n) = arrived at *
    have some := List.length_pos_iff.mpr content
    have size : arrived.length = value.length + 1 := by
      have cut := congrArg List.length complete
      rw [List.length_dropLast] at cut
      omega
    rw [List.length_take, List.length_append, size] at short
    refine ⟨?_, by omega, ?_⟩
    · cases ended with
      | true => rfl
      | false =>
        simp only [Bool.false_eq_true, if_false, List.length_nil] at short
        omega
    · rw [← complete]
      exact fun inside => noZero ((List.dropLast_prefix _).subset inside)
  · rintro ⟨rfl, fits, noZero⟩
    have noZero' : 0 ∉ value ++ [lineEnd] := by
      rw [List.mem_append, not_or]
      exact ⟨noZero, by decide⟩
    have all : (value ++ [lineEnd]).length ≤ n := by
      rw [List.length_append, List.length_singleton]
      exact fits
    rw [if_pos rfl, List.take_of_length_le all, cString_eq noZero', List.dropLast_concat]

/-- The value arrives complete exactly when the whole line does, with the newline that is cut off. -/
theorem readValue_eq_iff (form : KeyValue line.content) (short : (keyOf line).length ≤ room)
    (noZero : 0 ∉ keyOf line) :
    readValue room line = valueOf line ↔
      line.ended = true ∧ line.content.length < room + 1 ∧ 0 ∉ line.content := by
  obtain ⟨_, behind⟩ := text_eq form
  obtain ⟨key, value, content, _, notEmpty, free, _⟩ := form
  obtain ⟨key_eq, value_eq⟩ := keyOf_eq content free
  rw [key_eq] at short noZero behind
  rw [value_eq] at behind
  have zero : 0 ∉ line.content ↔ 0 ∉ value := by
    simp [content, noZero, equals]
  have fits : line.content.length < room + 1 ↔ value.length < room - key.length := by
    rw [content, List.length_append, List.length_cons]
    omega
  rw [readValue, key_eq, value_eq, behind, dropLast_arrived_iff notEmpty, zero, fits]

end Line

/-! ## The whole output -/

section Output
variable {split : Bytes → UInt8 → List Bytes} {room : Nat} {output : Bytes}

/-- Lines without an `=` put nothing into the map, the others one entry each. -/
theorem flatMap_entriesOf (splits : Splits split) (ls : List Line)
    (formed : ∀ line ∈ ls, lineEnd ∉ line.content ∧ (equals ∉ line.content ∨ KeyValue line.content))
    (short : ∀ line ∈ ls, equals ∈ line.content → (keyOf line).length ≤ room ∧ 0 ∉ keyOf line) :
    ls.flatMap (entriesOf split room) =
      (ls.filter fun line => equals ∈ line.content).map fun line =>
        (keyOf line, readValue room line) := by
  induction ls with
  | nil => rfl
  | cons line ls ih =>
    obtain ⟨plain, form⟩ := formed line List.mem_cons_self
    have rest := ih (fun line inside => formed line (List.mem_cons_of_mem _ inside))
      fun line inside => short line (List.mem_cons_of_mem _ inside)
    rw [List.flatMap_cons, rest]
    by_cases status : equals ∈ line.content
    · have form := form.resolve_left (not_not.mpr status)
      obtain ⟨fits, noZero⟩ := short line List.mem_cons_self status
      rw [List.filter_cons_of_pos (by simpa using status), List.map_cons,
        entriesOf_keyValue splits plain form fits noZero, List.singleton_append]
    · rw [List.filter_cons_of_neg (by simpa using status), entriesOf_free splits status,
        List.nil_append]

theorem filterMap_allPieces (splits : Splits split) (formed : WellFormed output)
    (short : ∀ line ∈ statusLines output, (keyOf line).length ≤ room ∧ 0 ∉ keyOf line) :
    (allPieces (room + 2) output).filterMap (entryOf split) =
      (statusLines output).map fun line => (keyOf line, readValue room line) := by
  rw [allPieces_eq, List.filterMap_flatMap]
  apply flatMap_entriesOf splits
  · exact fun line inside => ⟨mem_lines_content inside, formed line inside⟩
  · intro line inside status
    exact short line (List.mem_filter.mpr ⟨inside, by simpa using status⟩)

theorem keyValue_of_mem (formed : WellFormed output) {line : Line} (member : line ∈ statusLines output) :
    KeyValue line.content := by
  obtain ⟨inside, status⟩ := List.mem_filter.mp member
  exact (formed line inside).resolve_left (not_not.mpr (by simpa using status))

/-- A key of a piece is no longer than the piece. -/
theorem short_of_some (splits : Splits split) (output : Bytes) {key : Bytes}
    (found : (lastValue key ((allPieces (room + 2) output).filterMap (entryOf split))).isSome) :
    key.length ≤ room ∧ 0 ∉ key := by
  obtain ⟨entry, member, rfl⟩ := lastValue_isSome_iff.mp found
  obtain ⟨piece, inside, put⟩ := List.mem_filterMap.mp member
  have short := (mem_allPieces inside).1
  obtain ⟨before, noZero⟩ := key_of_entryOf splits put
  exact ⟨by omega, noZero⟩

/-- A whole line has a short key. -/
theorem short_of_whole {line : Line} (fits : line.content.length < room + 1) (noZero : 0 ∉ line.content) :
    (keyOf line).length ≤ room ∧ 0 ∉ keyOf line := by
  have inside : keyOf line <+: line.content := List.takeWhile_prefix _
  have le := inside.length_le
  exact ⟨by omega, fun zero => noZero (inside.subset zero)⟩

/-- The entries of the pieces are those of the lines exactly when the last line for each key
arrives whole: a longer or unended one loses a part of its value, and a key that does not fit is
never found. -/
theorem entries_complete_iff (room : Nat) (splits : Splits split) (formed : WellFormed output) :
    (∀ key, lastValue key ((allPieces (room + 2) output).filterMap (entryOf split)) =
        statusOf output key) ↔
      ∀ before line after, statusLines output = before ++ line :: after →
        (∀ later ∈ after, keyOf later ≠ keyOf line) →
        line.ended = true ∧ line.content.length < room + 1 ∧ 0 ∉ line.content := by
  have complete : ∀ before line after, statusLines output = before ++ line :: after →
      KeyValue line.content := by
    intro before line after parts
    exact keyValue_of_mem formed (by rw [parts]; simp)
  constructor
  · intro same
    have short : ∀ line ∈ statusLines output, (keyOf line).length ≤ room ∧ 0 ∉ keyOf line := by
      intro line member
      apply short_of_some splits output
      rw [same, statusOf, lastValue_isSome_iff]
      exact ⟨_, List.mem_map_of_mem member, rfl⟩
    rw [filterMap_allPieces splits formed short] at same
    intro before line after parts last
    obtain ⟨fits, noZero⟩ := short line (by rw [parts]; simp)
    rw [← readValue_eq_iff (complete _ _ _ parts) fits noZero]
    exact (lastValue_eq_iff _).mp same before line after parts last
  · intro whole
    have short : ∀ line ∈ statusLines output, (keyOf line).length ≤ room ∧ 0 ∉ keyOf line := by
      intro line member
      obtain ⟨before, last, after, parts, same, none⟩ := exists_last keyOf member
      rw [← same] at none ⊢
      obtain ⟨_, fits, noZero⟩ := whole before last after parts none
      exact short_of_whole fits noZero
    rw [filterMap_allPieces splits formed short]
    apply (lastValue_eq_iff _).mpr
    intro before line after parts last
    obtain ⟨fits, noZero⟩ := short line (by rw [parts]; simp)
    exact (readValue_eq_iff (complete _ _ _ parts) fits noZero).mpr (whole before line after parts last)

end Output

/-- For every output of the script the map that `body` sends is complete exactly when the last
line for each key ends with a newline, is shorter than 4094 characters and has no zero in it. -/
theorem status_complete_iff {split : Bytes → UInt8 → List Bytes} (splits : Splits split) {M : Type}
    (hs : HealthStatus M) {runs : List (Option Bytes)} {i : Nat} {output : Bytes}
    (ran : runs[i]? = some (some output)) (formed : WellFormed output) :
    (∃ m, (body split hs runs)[i]? = some (some m) ∧
        ∀ key, hs.find m key = statusOf output key) ↔
      ∀ before line after, statusLines output = before ++ line :: after →
        (∀ later ∈ after, keyOf later ≠ keyOf line) → Whole line := by
  have sent : (body split hs runs)[i]? = some (some (status split hs output)) := by
    rw [body, List.getElem?_map, ran]
    rfl
  have whole : ∀ line : Line, Whole line ↔
      line.ended = true ∧ line.content.length < 4093 + 1 ∧ 0 ∉ line.content :=
    fun line => ⟨fun whole => ⟨whole.ended, whole.fits, whole.noZero⟩,
      fun ⟨ended, fits, noZero⟩ => ⟨ended, fits, noZero⟩⟩
  simp only [whole]
  rw [← entries_complete_iff 4093 splits formed, sent]
  constructor
  · rintro ⟨m, same, complete⟩ key
    cases same
    rw [← complete, find_status]
    rfl
  · intro complete
    refine ⟨_, rfl, fun key => ?_⟩
    rw [← complete, find_status]
    rfl

/-- The map as a function. -/
def mapOfStatus : HealthStatus (Bytes → Option Bytes) where
  empty _ := none
  putTo_MapOfStatus m key value := Function.update m key (some value)
  find m key := m key
  find_empty _ := rfl
  find_putTo m key value key' := by
    by_cases same : key = key'
    · rw [same, Function.update_self, if_pos rfl]
    · rw [Function.update_of_ne (Ne.symm same), if_neg same]

/-- `a=bc` -/
def lineABC : Bytes := [0x61, 0x3D, 0x62, 0x63]

theorem keyValue_lineABC : KeyValue lineABC :=
  ⟨[0x61], [0x62, 0x63], rfl, by decide, by decide, by decide, by decide⟩

/-- Without a newline behind the last line, its value loses the last character. -/
theorem unended_line_cut :
    ¬ ∀ (split : Bytes → UInt8 → List Bytes) (M : Type) (hs : HealthStatus M)
      (runs : List (Option Bytes)) (i : Nat) (output : Bytes), Splits split →
      runs[i]? = some (some output) → WellFormed output →
      ∃ m, (body split hs runs)[i]? = some (some m) ∧
        ∀ key, hs.find m key = statusOf output key := by
  intro always
  have one : lines lineABC = [{ content := lineABC, ended := false }] := rfl
  have formed : WellFormed lineABC := by
    intro line member
    rw [one, List.mem_singleton] at member
    rw [member]
    exact .inr keyValue_lineABC
  obtain ⟨m, same, complete⟩ := always splitEverywhere _ mapOfStatus [some lineABC] 0 lineABC
    splits_splitEverywhere rfl formed
  cases same
  have whole := (entries_complete_iff 4093 splits_splitEverywhere formed).mp (fun key => by
    rw [← complete, find_status]
    rfl) [] { content := lineABC, ended := false } [] rfl (by simp)
  cases whole.1

/-- With a newline it is complete. -/
theorem status_complete_ended :
    ∃ m, (body splitEverywhere mapOfStatus [none, some (lineABC ++ [lineEnd])])[1]? = some (some m) ∧
      ∀ key, mapOfStatus.find m key = statusOf (lineABC ++ [lineEnd]) key := by
  have one : lines (lineABC ++ [lineEnd]) = [{ content := lineABC, ended := true }] := rfl
  have status : statusLines (lineABC ++ [lineEnd]) = [{ content := lineABC, ended := true }] := rfl
  have formed : WellFormed (lineABC ++ [lineEnd]) := by
    intro line member
    rw [one, List.mem_singleton] at member
    rw [member]
    exact .inr keyValue_lineABC
  apply (status_complete_iff splits_splitEverywhere mapOfStatus rfl formed).mpr
  intro before line after parts _
  have alone : line ∈ statusLines (lineABC ++ [lineEnd]) := by
    rw [parts]
    simp
  rw [status, List.mem_singleton] at alone
  rw [alone]
  exact ⟨rfl, by decide, by decide⟩

end OpendlvCore.Health
