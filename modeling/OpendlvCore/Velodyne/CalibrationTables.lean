import OpendlvCore.Velodyne.CalibrationFile
import Mathlib.Data.List.Induction

/-!
# The tables that a calibration file fills

What a whole text says is a list of entries; the reader numbers the entries of each tag in
their order. From this follow when loading terminates, when it stays inside the tables, and
what well-formed files leave in them.
-/
namespace OpendlvCore.Velodyne.CalibrationFile
open CBytes CText CLoop

/-- The three decoders. -/
inductive Decoder where
  | velodyne16 | velodyne32 | velodyne64
  deriving DecidableEq, Repr

/-- The number of tables that a decoder fills. -/
def Decoder.tables : Decoder → Nat
  | .velodyne16 => 1
  | .velodyne32 => 1
  | .velodyne64 => 5

def Decoder.format : (d : Decoder) → Format d.tables
  | .velodyne16 => CalibrationFile.velodyne16
  | .velodyne32 => CalibrationFile.velodyne32
  | .velodyne64 => CalibrationFile.velodyne64

/-! ## What a text says -/

section Text
variable {k : Nat} (f : Format k)

/-- The values of one tag, in order. -/
def values (es : List (Entry k)) (t : Fin k) : List Bytes :=
  es.filterMap fun e => if e.1 = t then some e.2 else none

def count (es : List (Entry k)) (t : Fin k) : Nat := (values es t).length

/-- What some lines have said. -/
structure Progress (k : Nat) where
  entries : List (Entry k) := []
  /-- The tag that waits for its value. -/
  waiting : Option (Fin k) := none

def Progress.line (p : Progress k) (line : Bytes) : Progress k where
  entries := p.entries ++ (scan f p.waiting line).1
  waiting := (scan f p.waiting line).2

/-- The lines up to the one behind which the tables are full, if a decoder looks for that. -/
def reached (p : Progress k) : List Bytes → List Bytes
  | [] => []
  | line :: lines => if f.more (count p.entries) then line :: reached (p.line f line) lines else []

/-- What these lines say. -/
def said (p : Progress k) (lines : List Bytes) : Progress k :=
  (reached f p lines).foldl (Progress.line f) p

/-- The lines of a text that are read. -/
def linesRead (text : Bytes) : List Bytes := reached f {} (getlines newline text)

/-- The entries of these lines. -/
def entries (text : Bytes) : List (Entry k) := (said f {} (getlines newline text)).entries

theorem values_append (es others : List (Entry k)) (t : Fin k) :
    values (es ++ others) t = values es t ++ values others t := List.filterMap_append

theorem count_append (es others : List (Entry k)) (t : Fin k) :
    count (es ++ others) t = count es t + count others t := by
  simp [count, values_append]

theorem values_last (es : List (Entry k)) (e : Entry k) (t : Fin k) :
    values (es ++ [e]) t = if e.1 = t then values es t ++ [e.2] else values es t := by
  rw [values_append]
  by_cases same : e.1 = t <;> simp [values, same]

theorem count_last (es : List (Entry k)) (e : Entry k) (t : Fin k) :
    count (es ++ [e]) t = if e.1 = t then count es t + 1 else count es t := by
  rw [count, values_last]
  split <;> simp [count]

theorem count_le_length (es : List (Entry k)) (t : Fin k) : count es t ≤ es.length :=
  List.length_filterMap_le _ _

end Text

/-! ## The reader after some entries -/

section Delivery
variable {k : Nat} {D : Type} (f : Format k) (a : Conversion D)

/-- The reader that has stored these entries, with the flag of the tag that waits. -/
def Progress.reader (p : Progress k) : Reader k D :=
  ((start a).deliverAll f a p.entries).waitFor p.waiting

theorem deliverAll_last (s : Reader k D) (es : List (Entry k)) (e : Entry k) :
    s.deliverAll f a (es ++ [e]) = (s.deliverAll f a es).deliver f a e := by
  simp [Reader.deliverAll]

theorem deliverAll_counter (s : Reader k D) (es : List (Entry k)) (t : Fin k) :
    (s.deliverAll f a es).counter t = f.next^[count es t] (s.counter t) := by
  induction es using List.reverseRecOn with
  | nil => rfl
  | append_singleton es e ih =>
    rw [deliverAll_last, count_last, deliver_counter]
    by_cases same : e.1 = t
    · subst same
      rw [Function.update_self, ih, if_pos rfl, Function.iterate_succ_apply']
    · rw [Function.update_of_ne (Ne.symm same), ih, if_neg same]

/-- No counter has wrapped: each one counts the entries of its tag. -/
def Counted (es : List (Entry k)) : Prop :=
  ∀ q, q <+: es → ∀ t, f.next^[count q t] 0 = count q t

theorem Counted.counter {es : List (Entry k)} (counted : Counted f es) (t : Fin k) :
    ((start a).deliverAll f a es).counter t = count es t := by
  rw [deliverAll_counter]
  exact counted es List.prefix_rfl t

theorem Counted.front {es others : List (Entry k)} (counted : Counted f (es ++ others)) :
    Counted f es := fun q begins => counted q (begins.trans (List.prefix_append _ _))

/-- While no counter wraps, the entries of a tag are stored at the front of its table. -/
theorem deliverAll_written {es : List (Entry k)} (counted : Counted f es) (t : Fin k) (i : Nat) :
    (t, i) ∈ ((start a).deliverAll f a es).written ↔ i < count es t := by
  induction es using List.reverseRecOn with
  | nil => simp [Reader.deliverAll, start, count, values]
  | append_singleton es e ih =>
    have earlier := Counted.front f counted
    rw [deliverAll_last, count_last, deliver_written]
    simp only [List.mem_append, List.mem_singleton, Prod.mk.injEq, ih earlier, earlier.counter f a]
    by_cases same : e.1 = t
    · subst same
      simp only [if_true, true_and]
      omega
    · simp [same, Ne.symm same]

/-- While no counter wraps, a table lists the values of its tag. -/
theorem deliverAll_tables {es : List (Entry k)} (counted : Counted f es) (t : Fin k) (i : Nat) :
    ((start a).deliverAll f a es).tables t i = ((values es t)[i]?.map a.atof).getD a.zero := by
  induction es using List.reverseRecOn with
  | nil => rfl
  | append_singleton es e ih =>
    have earlier := Counted.front f counted
    rw [deliverAll_last, values_last, deliver_tables, earlier.counter f a]
    by_cases same : e.1 = t
    · subst same
      rw [Function.update_self, if_pos rfl]
      rcases lt_trichotomy i (count es e.1) with before | here | behind
      · rw [Function.update_of_ne before.ne, ih earlier, List.getElem?_append_left before]
      · subst here
        simp [count]
      · have short : (values es e.1 ++ [e.2]).length ≤ i := by
          simpa [count, Nat.succ_le_iff] using behind
        rw [Function.update_of_ne behind.ne', ih earlier, List.getElem?_eq_none short,
          List.getElem?_eq_none behind.le]
    · rw [Function.update_of_ne (Ne.symm same), ih earlier, if_neg same]

end Delivery

/-! ## The loop over the lines -/

section Lines
variable {k : Nat} {D : Type} (f : Format k) (a : Conversion D)

theorem counted_start : Counted f ({} : Progress k).entries := by
  intro q begins t
  rw [List.prefix_nil.1 begins]
  rfl

/-- A line that the index can count makes no counter wrap. -/
theorem counted_line {p : Progress k} {line : Bytes} (counted : Counted f p.entries)
    (more : f.more (count p.entries)) (short : line.length < f.indexSize) :
    Counted f (p.line f line).entries := by
  intro q begins t
  rcases List.prefix_or_prefix_of_prefix begins (List.prefix_append p.entries _) with early | ⟨part, rfl⟩
  · exact counted q early t
  · have inside : part <+: (scan f p.waiting line).1 :=
      (List.prefix_append_right_inj p.entries).1 begins
    have few : 2 * (scan f p.waiting line).1.length ≤ line.length + 1 := by
      have long := scan_length f p.waiting line
      split at long <;> omega
    have within : 2 * count part t ≤ f.indexSize := by
      have above := count_le_length part t
      have inner := inside.length_le
      omega
    rw [count_append, Nat.add_comm, Function.iterate_add_apply, counted p.entries List.prefix_rfl t,
      f.steady (count p.entries) t _ more within, Nat.add_comm]

/-- The loop over a line ends exactly when the index can count the line. -/
theorem readLine_eq (p : Progress k) (line : Bytes) :
    readLine f a (p.reader f a) line =
      if line.length < f.indexSize then some ((p.line f line).reader f a) else none := by
  rw [readLine]
  split
  · case isTrue short =>
      rw [forIndex_eq_foldl short, Option.map_some]
      congr 1
      rw [Progress.reader, foldl_scan, Progress.reader, Progress.line, Reader.deliverAll,
        Reader.deliverAll, Reader.deliverAll, List.foldl_append]
  · case isFalse long =>
      rw [forIndex_none f.indexed (by omega)]
      rfl

theorem readLines_eq {p : Progress k} (lines : List Bytes) (counted : Counted f p.entries) :
    readLines f a (p.reader f a) lines =
      (if ∀ line ∈ reached f p lines, line.length < f.indexSize
        then some ((said f p lines).reader f a) else none) ∧
      ((∀ line ∈ reached f p lines, line.length < f.indexSize) → Counted f (said f p lines).entries) := by
  induction lines generalizing p with
  | nil => simpa [readLines, reached, said] using counted
  | cons line lines ih =>
    have counters : (p.reader f a).counter = count p.entries :=
      funext fun t => Counted.counter f a counted t
    rw [readLines, counters]
    by_cases more : f.more (count p.entries)
    · have here : said f p (line :: lines) = said f (p.line f line) lines := by
        simp [said, reached, more]
      simp only [more, if_true, readLine_eq, reached, List.forall_mem_cons, here]
      by_cases short : line.length < f.indexSize
      · simpa [short] using ih (counted_line f counted more short)
      · simp [short]
    · simpa [more, reached, said] using counted

end Lines

/-! ## When loading terminates and stays inside the tables -/

section Loading
variable {D : Type} (a : Conversion D)

theorem readCalibrationFile_eq {k : Nat} (f : Format k) (text : Bytes) :
    readCalibrationFile f a text =
      if ∀ line ∈ linesRead f text, line.length < f.indexSize
        then some ((said f {} (getlines newline text)).reader f a) else none :=
  (readLines_eq f a (getlines newline text) (counted_start f)).1

/-- Loading terminates exactly when the index can count each line that is read. -/
theorem loading_returns_iff (d : Decoder) (text : Bytes) :
    (∃ s, readCalibrationFile d.format a text = some s) ↔
      ∀ line ∈ linesRead d.format text, line.length < d.format.indexSize := by
  rw [readCalibrationFile_eq]
  split <;> simp_all

/-- A line of 256 characters, none of them of interest. -/
def longLine : Bytes := List.replicate 256 0x78

/-- The index of the VLP-16 decoder wraps before it reaches the end of a longer line. -/
theorem long_line_never_ends :
    ¬ ∀ (d : Decoder) (D : Type) (a : Conversion D) (text : Bytes),
      ∃ s, readCalibrationFile d.format a text = some s := by
  intro always
  obtain ⟨s, loaded⟩ := always .velodyne16 Double .exact longLine
  have plain : newline ∉ longLine := by
    intro inside
    cases List.eq_of_mem_replicate inside
  have length : longLine.length = 256 := List.length_replicate
  have one : getlines newline longLine = [longLine] :=
    getlines_last plain (List.ne_nil_of_length_pos (by omega))
  have read : longLine ∈ linesRead Decoder.velodyne16.format longLine := by
    rw [linesRead, one, reached, if_pos (by decide)]
    exact List.mem_cons_self
  have long : ¬ longLine.length < Decoder.velodyne16.format.indexSize := by
    rw [length]
    decide
  rw [readCalibrationFile_eq, if_neg fun short => long (short longLine read)] at loaded
  cases loaded

/-- The indices that loading writes count the entries of each tag. -/
theorem loaded_written {k : Nat} {f : Format k} {text : Bytes} {s : Reader k D}
    (loaded : readCalibrationFile f a text = some s) (t : Fin k) (i : Nat) :
    (t, i) ∈ s.written ↔ i < count (entries f text) t := by
  by_cases short : ∀ line ∈ linesRead f text, line.length < f.indexSize
  · have counted := (readLines_eq f a (getlines newline text) (counted_start f)).2 short
    rw [readCalibrationFile_eq, if_pos short] at loaded
    obtain rfl := Option.some.inj loaded
    exact deliverAll_written f a counted t i
  · rw [readCalibrationFile_eq, if_neg short] at loaded
    cases loaded

/-- Loading writes inside its tables exactly when the lines that are read have no more entries
of a tag than its table. -/
theorem loading_stays_inside_iff (d : Decoder) (text : Bytes) (s : Reader d.tables D)
    (loaded : readCalibrationFile d.format a text = some s) :
    (∀ w ∈ s.written, w.2 < d.format.size) ↔
      ∀ t, count (entries d.format text) t ≤ d.format.size := by
  constructor
  · intro inside t
    by_contra! more
    exact absurd (inside (t, d.format.size) ((loaded_written a loaded t _).2 more)) (lt_irrefl _)
  · rintro few ⟨t, i⟩ there
    exact ((loaded_written a loaded t i).1 there).trans_le (few t)

/-- `<vertCorrection_><`: an entry with an empty value, behind which another tag may follow. -/
def emptyEntry : Bytes := vertCorrection ++ [lt]

/-- A line with one entry, one with `<`, and one with two entries. -/
def threeEntries : Bytes := emptyEntry ++ newline :: lt :: newline :: (emptyEntry ++ emptyEntry)

/-- Three entries are read and stay inside. -/
theorem three_entries_stay_inside :
    ∃ s, readCalibrationFile velodyne16 .exact threeEntries = some s ∧
      ((∀ w ∈ s.written, w.2 < 16) ↔ ∀ t, count (entries velodyne16 threeEntries) t ≤ 16) := by
  have ends : (readCalibrationFile velodyne16 .exact threeEntries).isSome := by decide +kernel
  obtain ⟨s, loaded⟩ := Option.isSome_iff_exists.1 ends
  exact ⟨s, loaded, loading_stays_inside_iff .exact .velodyne16 threeEntries s loaded⟩

end Loading

/-! ## Files with whole entries -/

section Corrections
variable {k : Nat} (f : Format k)

/-- The closing tag to a tag. -/
def closing (t : Fin k) : Bytes := lt :: 0x2F :: (f.tags t).tail

/-- A line that begins with a tag has the form `<tag>v</tag>rest` without `<` in `v`. -/
def Formed (line : Bytes) : Prop :=
  ∀ t, f.tags t <+: line.dropWhile blank →
    ∃ v rest, line.dropWhile blank = f.tags t ++ (v ++ (closing f t ++ rest)) ∧ lt ∉ v

/-- The `v` of a line that begins with the tag. -/
def correctionOf (t : Fin k) (line : Bytes) : Option Bytes :=
  if f.tags t <+: line.dropWhile blank then
    some (((line.dropWhile blank).drop (f.tags t).length).takeWhile (· ≠ lt))
  else none

/-- The `v` of each line of a text that begins with the tag. -/
def corrections (t : Fin k) (text : Bytes) : List Bytes :=
  (getlines newline text).filterMap (correctionOf f t)

theorem tagOf_of_begins {text : Bytes} {t : Fin k} (begins : f.tags t <+: text) :
    tagOf f text = some t := by
  apply first_eq_some (by simpa using begins)
  intro u tagged
  have other : f.tags u <+: text := by simpa using tagged
  rcases List.prefix_or_prefix_of_prefix begins other with inside | inside
  · exact (f.alone t u inside).symm
  · exact f.alone u t inside

theorem tagOf_eq_none {c : UInt8} {text : Bytes} (other : c ≠ lt) : tagOf f (c :: text) = none := by
  apply first_eq_none
  intro t
  have opens := (f.opens t).1
  cases tag : f.tags t with
  | nil => exact absurd tag (tags_ne_nil f t)
  | cons d name =>
    rw [tag] at opens
    have first : d = lt := Option.some.inj opens
    rw [Bool.eq_false_iff, ne_eq, List.isPrefixOf_iff_prefix, List.cons_prefix_cons, first]
    exact fun begins => other begins.1.symm

/-- Blanks in front of a number do not count. -/
theorem atof_dropWhile {D : Type} (a : Conversion D) (v : Bytes) :
    a.atof (v.dropWhile blank) = a.atof v := by
  induction v with
  | nil => rfl
  | cons c v ih =>
    by_cases skipped : blank c
    · rw [List.dropWhile_cons_of_pos skipped, ih, a.skips c v skipped]
    · rw [List.dropWhile_cons_of_neg skipped]

theorem dropWhile_append_lt (v rest : Bytes) :
    (v ++ lt :: rest).dropWhile blank = v.dropWhile blank ++ lt :: rest := by
  induction v with
  | nil => rfl
  | cons c v ih =>
    rw [List.cons_append, List.dropWhile_cons, List.dropWhile_cons, ih]
    split <;> rfl

/-- A line of that form says one entry, whose value has lost the blanks in front. -/
theorem scan_formed {line v rest : Bytes} {t : Fin k}
    (split : line.dropWhile blank = f.tags t ++ (v ++ (closing f t ++ rest))) (plain : lt ∉ v) :
    scan f none line = ([(t, v.dropWhile blank)], none) := by
  have begins : f.tags t <+: line.dropWhile blank := split ▸ List.prefix_append _ _
  have body : (v ++ (closing f t ++ rest)).dropWhile blank =
      v.dropWhile blank ++ lt :: (0x2F :: (f.tags t).tail ++ rest) := dropWhile_append_lt v _
  have still : lt ∉ v.dropWhile blank := fun inside => plain (List.dropWhile_subset _ inside)
  rw [scan_tagged f (tagOf_of_begins f begins), split, List.drop_left, scan_value f t body still]
  split
  · have slash : tagOf f ((0x2F :: (f.tags t).tail ++ rest).dropWhile blank) = none :=
      tagOf_eq_none f (by decide)
    rw [scan_untagged f slash]
  · rfl

/-- A line says its correction, if it has one, and nothing else. -/
theorem scan_correction {D : Type} (a : Conversion D) {line : Bytes} (formed : Formed f line) :
    (scan f none line).2 = none ∧ ∀ t, (values (scan f none line).1 t).map a.atof =
      (correctionOf f t line).toList.map a.atof := by
  cases tagged : tagOf f (line.dropWhile blank) with
  | none =>
    have without : ∀ t, correctionOf f t line = none :=
      fun t => if_neg (not_prefix_of_tagOf f tagged t)
    rw [scan_untagged f tagged]
    exact ⟨rfl, fun t => by simp [without, values]⟩
  | some u =>
    obtain ⟨v, rest, split, plain⟩ := formed u (tagOf_begins f tagged)
    rw [scan_formed f split plain]
    refine ⟨rfl, fun t => ?_⟩
    by_cases same : u = t
    · subst same
      have front : (v ++ (closing f u ++ rest)).takeWhile (· ≠ lt) = v := (span_value _ plain).1
      have correction : correctionOf f u line = some v := by
        rw [correctionOf, if_pos (tagOf_begins f tagged), split, List.drop_left, front]
      simp [values, correction, atof_dropWhile]
    · have other : correctionOf f t line = none := by
        apply if_neg
        intro begins
        rw [tagOf_of_begins f begins] at tagged
        exact same (Option.some.inj tagged).symm
      simp [values, other, same]

/-- Lines of that form fill a table with their first corrections, if the reader stops at a full
table or they are not too many. -/
theorem said_values {D : Type} (a : Conversion D) (t : Fin k)
    (full : ∀ counter, f.more counter = false → f.size ≤ counter t) {lines : List Bytes}
    {p : Progress k} (formed : ∀ line ∈ lines, Formed f line) (idle : p.waiting = none)
    (fits : count p.entries t ≤ f.size)
    (few : (∀ counter, f.more counter = true → counter t < f.size) ∨
      count p.entries t + (lines.filterMap (correctionOf f t)).length ≤ f.size) :
    (values (said f p lines).entries t).map a.atof =
      ((values p.entries t ++ lines.filterMap (correctionOf f t)).map a.atof).take f.size := by
  induction lines generalizing p with
  | nil =>
    have short : ((values p.entries t).map a.atof).length ≤ f.size := by simpa [count] using fits
    simp [said, reached, List.take_of_length_le short]
  | cons line lines ih =>
    by_cases more : f.more (count p.entries)
    · obtain ⟨still, correction⟩ := scan_correction f a (formed line List.mem_cons_self)
      have here : said f p (line :: lines) = said f (p.line f line) lines := by
        simp [said, reached, more]
      have next : (p.line f line).waiting = none := by
        rw [Progress.line, idle]
        exact still
      have entries : (values (p.line f line).entries t).map a.atof =
          (values p.entries t).map a.atof ++ (correctionOf f t line).toList.map a.atof := by
        rw [Progress.line, values_append, List.map_append, idle, correction t]
      have split : (line :: lines).filterMap (correctionOf f t) =
          (correctionOf f t line).toList ++ lines.filterMap (correctionOf f t) := by
        cases found : correctionOf f t line <;> simp [found]
      have counts : count (p.line f line).entries t =
          count p.entries t + (correctionOf f t line).toList.length := by
        simpa [count] using congrArg List.length entries
      have one : (correctionOf f t line).toList.length ≤ 1 := by
        cases correctionOf f t line <;> simp
      rw [split, List.length_append] at few
      rw [here, ih (fun other there => formed other (List.mem_cons_of_mem line there)) next,
        split, List.map_append, entries]
      · simp
      · rcases few with stops | few
        · have below := stops _ more
          omega
        · omega
      · rcases few with stops | few
        · exact Or.inl stops
        · right
          omega
    · have enough := full _ (Bool.not_eq_true _ ▸ more)
      have whole : count p.entries t = f.size := le_antisymm fits enough
      have length : ((values p.entries t).map a.atof).length = f.size := by simpa [count] using whole
      have here : said f p (line :: lines) = p := by simp [said, reached, more]
      rw [here, List.map_append, List.take_append_of_le_length length.ge, ← length, List.take_length]

theorem reached_subset (p : Progress k) (lines : List Bytes) : reached f p lines ⊆ lines := by
  induction lines generalizing p with
  | nil => exact List.Subset.refl _
  | cons line lines ih =>
    rw [reached]
    split
    · exact List.cons_subset_cons line (ih _)
    · exact List.nil_subset _

end Corrections

/-! ## One line too many -/

/-- `n` such entries in a row. -/
def emptyEntries (n : Nat) : Bytes := (List.replicate n emptyEntry).flatten

theorem newline_not_mem_emptyEntries (n : Nat) : newline ∉ emptyEntries n := by
  intro inside
  obtain ⟨entry, there, inside⟩ := List.mem_flatten.1 inside
  rw [List.eq_of_mem_replicate there] at inside
  revert inside
  decide

theorem emptyEntries_length (n : Nat) : (emptyEntries n).length = n * 18 := by
  rw [emptyEntries, List.length_flatten, List.map_replicate, List.sum_replicate]
  rfl

theorem scan_emptyEntries (n : Nat) :
    scan velodyne16 none (emptyEntries n) = (List.replicate n (0, []), none) := by
  induction n with
  | zero => exact scan_untagged velodyne16 (by decide)
  | succ n ih =>
    have front : emptyEntries (n + 1) = vertCorrection ++ (lt :: emptyEntries n) := by
      simp [emptyEntries, List.replicate_succ, emptyEntry]
    have kept : (emptyEntries (n + 1)).dropWhile blank = vertCorrection ++ (lt :: emptyEntries n) := by
      rw [front]
      rfl
    have begins : velodyne16.tags 0 <+: (emptyEntries (n + 1)).dropWhile blank := by
      rw [kept]
      exact List.prefix_append _ _
    have behind : ((emptyEntries (n + 1)).dropWhile blank).drop (velodyne16.tags 0).length =
        lt :: emptyEntries n := by
      rw [kept]
      rfl
    have empty : (lt :: emptyEntries n).dropWhile blank = [] ++ lt :: emptyEntries n := rfl
    rw [scan_tagged velodyne16 (tagOf_of_begins velodyne16 begins), behind,
      scan_value velodyne16 0 empty (by simp), if_pos rfl, ih]
    rfl

/-- Fourteen entries in one line and three in the next. -/
def seventeenEntries : Bytes := emptyEntries 14 ++ newline :: emptyEntries 3

theorem seventeenEntries_lines :
    getlines newline seventeenEntries = [emptyEntries 14, emptyEntries 3] := by
  have content : emptyEntries 3 ≠ [] := List.ne_nil_of_length_pos (by rw [emptyEntries_length]; decide)
  rw [seventeenEntries, getlines_append (newline_not_mem_emptyEntries 14),
    getlines_last (newline_not_mem_emptyEntries 3) content]

theorem seventeenEntries_said :
    reached velodyne16 {} [emptyEntries 14, emptyEntries 3] = [emptyEntries 14, emptyEntries 3] ∧
      (said velodyne16 {} [emptyEntries 14, emptyEntries 3]).entries = List.replicate 17 (0, []) := by
  have first : Progress.line velodyne16 {} (emptyEntries 14) = ⟨List.replicate 14 (0, []), none⟩ := by
    simp [Progress.line, scan_emptyEntries]
  have second : Progress.line velodyne16 ⟨List.replicate 14 (0, []), none⟩ (emptyEntries 3) =
      ⟨List.replicate 17 (0, []), none⟩ := by
    simp [Progress.line, scan_emptyEntries, List.replicate]
  have both : reached velodyne16 {} [emptyEntries 14, emptyEntries 3] =
      [emptyEntries 14, emptyEntries 3] := by
    rw [reached, if_pos (by decide), first, reached, if_pos (by decide), second]
    rfl
  refine ⟨both, ?_⟩
  rw [said, both, List.foldl_cons, first, List.foldl_cons, second]
  rfl

/-- The check of the counter comes too late for the second line. -/
theorem seventeenth_entry_written :
    ¬ ∀ (d : Decoder) (D : Type) (a : Conversion D) (text : Bytes) (s : Reader d.tables D),
      readCalibrationFile d.format a text = some s → ∀ w ∈ s.written, w.2 < d.format.size := by
  intro always
  obtain ⟨lines, entries⟩ := seventeenEntries_said
  have short : ∀ line ∈ reached velodyne16 {} (getlines newline seventeenEntries),
      line.length < velodyne16.indexSize := by
    rw [seventeenEntries_lines, lines]
    simp [emptyEntries_length, velodyne16, single]
  obtain ⟨s, loaded⟩ : ∃ s, readCalibrationFile velodyne16 .exact seventeenEntries = some s :=
    ⟨_, (readCalibrationFile_eq .exact velodyne16 seventeenEntries).trans (if_pos short)⟩
  have many : 16 < count (CalibrationFile.entries velodyne16 seventeenEntries) 0 := by
    rw [CalibrationFile.entries, seventeenEntries_lines, entries]
    decide
  have inside := always .velodyne16 Double .exact seventeenEntries s loaded _
    ((loaded_written .exact loaded 0 16).2 many)
  exact absurd inside (by decide)

section Order
variable {D : Type} (a : Conversion D)

theorem single_more (size : Nat) (small : size ≤ 128) (t : Fin 1) (counter : Fin 1 → Nat) :
    (single size small).more counter = decide (counter t < size) := by
  rw [Subsingleton.elim t 0]
  rfl

/-- The decoders that check their counter stop exactly at a full table. -/
theorem more_or_full (d : Decoder) (t : Fin d.tables) (counter : Fin d.tables → Nat) :
    (d.format.more counter = false → d.format.size ≤ counter t) ∧
      (d ≠ .velodyne64 → d.format.more counter = true → counter t < d.format.size) := by
  cases d with
  | velodyne16 =>
    have more := single_more 16 (by decide) t counter
    exact ⟨fun stop => not_lt.1 (of_decide_eq_false (more.symm.trans stop)),
      fun _ go => of_decide_eq_true (more.symm.trans go)⟩
  | velodyne32 =>
    have more := single_more 32 (by decide) t counter
    exact ⟨fun stop => not_lt.1 (of_decide_eq_false (more.symm.trans stop)),
      fun _ go => of_decide_eq_true (more.symm.trans go)⟩
  | velodyne64 =>
    constructor
    · intro stop
      cases stop
    · exact fun other => absurd rfl other

/-- The `k`-th entry of a table is the `k`-th correction of the file, the entries behind the last
correction are 0, and nothing is written outside the tables. -/
theorem corrections_in_order (d : Decoder) (text : Bytes)
    (short : ∀ line ∈ getlines newline text, line.length < 256)
    (formed : ∀ line ∈ getlines newline text, Formed d.format line)
    (few : d = .velodyne64 → ∀ t, (corrections d.format t text).length ≤ 64) :
    ∃ s, readCalibrationFile d.format a text = some s ∧ (∀ w ∈ s.written, w.2 < d.format.size) ∧
      ∀ t k, k < d.format.size →
        s.tables t k = ((corrections d.format t text)[k]?.map a.atof).getD a.zero := by
  have index : 256 ≤ d.format.indexSize := by cases d <;> decide
  have counts : ∀ line ∈ linesRead d.format text, line.length < d.format.indexSize :=
    fun line there => (short line (reached_subset d.format _ _ there)).trans_le index
  have counted := (readLines_eq d.format a (getlines newline text) (counted_start d.format)).2 counts
  have read : ∀ t, (values (entries d.format text) t).map a.atof =
      ((corrections d.format t text).map a.atof).take d.format.size := by
    intro t
    have values := said_values d.format a t (p := {}) (fun counter => (more_or_full d t counter).1)
      formed rfl (Nat.zero_le _)
    by_cases last : d = .velodyne64
    · subst last
      exact values (Or.inr ((Nat.zero_add _).trans_le (few rfl t)))
    · exact values (Or.inl fun counter => (more_or_full d t counter).2 last)
  refine ⟨_, (readCalibrationFile_eq a d.format text).trans (if_pos counts), ?_, ?_⟩
  · rintro ⟨t, i⟩ there
    have inside := (deliverAll_written d.format a counted t i).1 there
    have most := congrArg List.length (read t)
    rw [List.length_map, List.length_take] at most
    exact inside.trans_le (le_of_eq_of_le most (min_le_left _ _))
  · intro t k inside
    have stored := deliverAll_tables d.format a counted t k
    have entry := congrArg (·[k]?) (read t)
    simp only [List.getElem?_map, List.getElem?_take_of_lt inside] at entry
    rw [← entry]
    exact stored

/-- A tab, a value between its tags, and a line end. -/
def correctionLine (value : UInt8) : Bytes :=
  0x09 :: (vertCorrection ++ value :: closing velodyne16 (Fin.last 0))

/-- `1` and `2`, with a line `<x>` before them and between them. -/
def twoCorrections : Bytes :=
  [[lt, 0x78, 0x3E], correctionLine 0x31, [lt, 0x78, 0x3E], correctionLine 0x32].flatMap (· ++ [newline])

/-- The first entries of the table are 1 and 2, and the others are 0. -/
theorem two_corrections_in_order :
    ∃ s, readCalibrationFile velodyne16 .exact twoCorrections = some s ∧
      s.tables 0 0 = some 1 ∧ s.tables 0 1 = some 2 ∧ s.tables 0 15 = some 0 := by
  have lines : getlines newline twoCorrections =
      [[lt, 0x78, 0x3E], correctionLine 0x31, [lt, 0x78, 0x3E], correctionLine 0x32] := by decide
  obtain ⟨s, loaded, -, tables⟩ := corrections_in_order .exact .velodyne16 twoCorrections
    (by rw [lines]; decide)
    (by
      rw [lines]
      simp only [List.forall_mem_cons, List.not_mem_nil, false_imp_iff, implies_true, and_true]
      refine ⟨?_, ?_, ?_, ?_⟩
      all_goals
        intro t here
        obtain rfl : t = (0 : Fin 1) := Subsingleton.elim (α := Fin 1) t 0
      · exact absurd here (by decide)
      · exact ⟨[0x31], [], by decide, by decide⟩
      · exact absurd here (by decide)
      · exact ⟨[0x32], [], by decide, by decide⟩)
    (fun other => by cases other)
  refine ⟨s, loaded, ?_, ?_, ?_⟩
  · exact (tables (0 : Fin 1) 0 (by decide)).trans (by decide +kernel)
  · exact (tables (0 : Fin 1) 1 (by decide)).trans (by decide +kernel)
  · exact (tables (0 : Fin 1) 15 (by decide)).trans (by decide +kernel)

end Order

end OpendlvCore.Velodyne.CalibrationFile
