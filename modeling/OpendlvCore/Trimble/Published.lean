import OpendlvCore.Trimble.Decoder
import Mathlib.Data.List.Induction

/-!
# What a call publishes

`nextString` over any arithmetic: `stod` may round, and may throw for a number out of the range
of `double` as for a text without a number. The decoder of exact numbers is one instance.
-/
namespace OpendlvCore.Trimble
open CBytes CText

/-- The numbers that the decoder computes with. -/
structure Arithmetic (D : Type) where
  zero : D
  /-- `none` when `stod` throws. -/
  stod : Bytes → Option D
  /-- "Convert from format dd mm,mmmm." -/
  convert : D → D

/-- The local variables of a call; `latitude` and `longitude` are also what is sent. -/
structure Position (D : Type) where
  latitude : D
  longitude : D
  gotGpgga : Bool

namespace Arithmetic
variable {D : Type} (a : Arithmetic D)

def start : Position D := { latitude := a.zero, longitude := a.zero, gotGpgga := false }

/-- `stod(fields.at(2))` -/
def latitude (fields : List Bytes) : Option D := fields[2]?.bind a.stod

/-- `stod(fields.at(4))` -/
def longitude (fields : List Bytes) : Option D := fields[4]?.bind a.stod

/-- The `try` block, which an exception leaves with what was assigned before it. -/
def readGpgga (fields : List Bytes) (v : Position D) : Position D :=
  match a.latitude fields with
  | none => { v with gotGpgga := true }
  | some latitude =>
    match a.longitude fields with
    | none => { v with gotGpgga := true, latitude }
    | some longitude =>
      { gotGpgga := true, latitude := a.convert latitude, longitude := a.convert longitude }

def readMessage (v : Position D) (message : Bytes) : Position D :=
  if message = [] then v
  else
    match getlines comma message with
    | [] => v
    | type :: fields => if type = GPGGA then a.readGpgga (type :: fields) v else v

/-- The coordinate that a call sends, if any. -/
def nextString (s : Bytes) : Option (D × D) :=
  let messages := getlines dollar s
  if messages = [] then none
  else
    let v := messages.foldl a.readMessage a.start
    if v.gotGpgga then some (v.latitude, v.longitude) else none

/-- The arithmetic of the exact decoder. -/
def exact : Arithmetic Double := { zero := some 0, stod := CText.stod, convert := Trimble.convert }

end Arithmetic

/-! ## The exact decoder -/

/-- The same variables in the exact decoder. -/
def Locals.position (v : Locals) : Position Double :=
  { latitude := v.latitude, longitude := v.longitude, gotGpgga := v.gotGpgga }

theorem readGpgga_position (fields : List Bytes) (v : Locals) :
    (readGpgga fields v).position = Arithmetic.exact.readGpgga fields v.position := by
  unfold readGpgga Arithmetic.readGpgga Arithmetic.latitude Arithmetic.longitude Arithmetic.exact
  cases fields[2]?.bind stod with
  | none => rfl
  | some latitude => cases fields[4]?.bind stod <;> rfl

theorem readMessage_position (v : Locals) (message : Bytes) :
    (readMessage v message).position = Arithmetic.exact.readMessage v.position message := by
  unfold readMessage Arithmetic.readMessage
  split
  · rfl
  · cases getlines comma message with
    | nil => rfl
    | cons type fields =>
      by_cases gpgga : type = GPGGA
      · simp only [gpgga, if_pos, readGpgga_position]
      · simp only [gpgga, if_neg, not_false_eq_true]

/-- The decoder of exact numbers is the decoder over exact arithmetic. -/
theorem exact_nextString (s : Bytes) :
    Arithmetic.exact.nextString s =
      (nextString s).map fun c => (c.latitude, c.longitude) := by
  have fold : ∀ (messages : List Bytes) (v : Locals),
      (messages.foldl readMessage v).position =
        messages.foldl Arithmetic.exact.readMessage v.position := by
    intro messages
    induction messages with
    | nil => exact fun v => rfl
    | cons message messages ih =>
      intro v
      rw [List.foldl_cons, List.foldl_cons, ih, readMessage_position]
  have same := fold (getlines dollar s) {}
  change _ = (getlines dollar s).foldl Arithmetic.exact.readMessage Arithmetic.exact.start at same
  simp only [Arithmetic.nextString, nextString, ← same, Locals.position]
  split
  · rfl
  · split <;> rfl

/-! ## One message and the next -/

namespace Arithmetic
variable {D : Type} (a : Arithmetic D)

/-- The fields of a message. -/
def fields (message : Bytes) : List Bytes := getlines comma message

/-- Both numbers of a GPGGA message can be read. -/
def Complete (message : Bytes) : Prop :=
  (a.latitude (fields message)).isSome ∧ (a.longitude (fields message)).isSome

instance (message : Bytes) : Decidable (a.Complete message) := inferInstanceAs (Decidable (_ ∧ _))

theorem readMessage_other {message : Bytes} (v : Position D) (other : typeOf message ≠ GPGGA) :
    a.readMessage v message = v := by
  unfold readMessage
  split
  · rfl
  · case isFalse content =>
      obtain ⟨fields, eq⟩ : ∃ fields, getlines comma message = typeOf message :: fields :=
        getlines_eq_cons content
      simp [eq, other]

theorem readMessage_gpgga {message : Bytes} (v : Position D) (gpgga : typeOf message = GPGGA) :
    a.readMessage v message = a.readGpgga (fields message) v := by
  have content : message ≠ [] := by
    rintro rfl
    cases gpgga
  obtain ⟨others, eq⟩ : ∃ others, getlines comma message = typeOf message :: others :=
    getlines_eq_cons content
  simp [readMessage, fields, content, eq, gpgga]

/-- The variables after GPGGA messages. -/
def last (messages : List Bytes) (v : Position D) : Position D :=
  messages.foldl (fun v message => a.readGpgga (fields message) v) v

theorem foldl_readMessage (messages : List Bytes) (v : Position D) :
    messages.foldl a.readMessage v =
      a.last (messages.filter fun message => typeOf message = GPGGA) v := by
  induction messages generalizing v with
  | nil => rfl
  | cons message messages ih =>
    by_cases gpgga : typeOf message = GPGGA
    · simp [gpgga, a.readMessage_gpgga v gpgga, ih, last]
    · simp [gpgga, a.readMessage_other v gpgga, ih]

theorem last_append (before later : List Bytes) (v : Position D) :
    a.last (before ++ later) v = a.last later (a.last before v) := List.foldl_append

theorem readGpgga_gotGpgga (fields : List Bytes) (v : Position D) :
    (a.readGpgga fields v).gotGpgga = true := by
  unfold readGpgga
  split
  · rfl
  · split <;> rfl

theorem last_gotGpgga {messages : List Bytes} (some_message : messages ≠ []) (v : Position D) :
    (a.last messages v).gotGpgga = true := by
  induction messages using List.reverseRecOn with
  | nil => exact absurd rfl some_message
  | append_singleton messages message =>
    rw [last_append]
    exact a.readGpgga_gotGpgga (fields message) _

/-- A call sends nothing without a GPGGA message, and what the last assignments left otherwise. -/
theorem nextString_eq (s : Bytes) :
    a.nextString s =
      if gpggas s = [] then none
      else some ((a.last (gpggas s) a.start).latitude, (a.last (gpggas s) a.start).longitude) := by
  have run : (getlines dollar s).foldl a.readMessage a.start = a.last (gpggas s) a.start :=
    a.foldl_readMessage (getlines dollar s) a.start
  simp only [nextString, run]
  by_cases empty : gpggas s = []
  · simp [empty, last, start]
  · have messages : getlines dollar s ≠ [] := by
      intro none
      simp [gpggas, none] at empty
    simp [messages, empty, a.last_gotGpgga empty]

/-! ## The last assignments -/

/-- A complete message decides both variables. -/
theorem readGpgga_complete {fields : List Bytes} {x y : D} (lat : a.latitude fields = some x)
    (lon : a.longitude fields = some y) (v : Position D) :
    a.readGpgga fields v =
      { latitude := a.convert x, longitude := a.convert y, gotGpgga := true } := by
  simp [readGpgga, lat, lon]

/-- An incomplete message leaves the longitude, and its raw latitude if there is one. -/
theorem readGpgga_incomplete {message : Bytes} (incomplete : ¬ a.Complete message)
    (v : Position D) :
    a.readGpgga (fields message) v =
      { latitude := (a.latitude (fields message)).getD v.latitude, longitude := v.longitude,
        gotGpgga := true } := by
  unfold readGpgga
  cases lat : a.latitude (fields message) with
  | none => rfl
  | some x =>
    cases lon : a.longitude (fields message) with
    | none => rfl
    | some y => exact absurd ⟨by simp [lat], by simp [lon]⟩ incomplete

/-- The latitude that incomplete messages leave behind, if they do. -/
def rawLatitude (later : List Bytes) : Option D :=
  (later.filterMap fun message => a.latitude (fields message)).getLast?

theorem last_incomplete {later : List Bytes} (incomplete : ∀ message ∈ later, ¬ a.Complete message)
    (v : Position D) :
    (a.last later v).latitude = (a.rawLatitude later).getD v.latitude ∧
      (a.last later v).longitude = v.longitude := by
  induction later using List.reverseRecOn with
  | nil => exact ⟨rfl, rfl⟩
  | append_singleton later message ih =>
    obtain ⟨lat, lon⟩ := ih fun other there => incomplete other (by simp [there])
    have step : a.last (later ++ [message]) v =
        { latitude := (a.latitude (fields message)).getD (a.last later v).latitude
          longitude := (a.last later v).longitude, gotGpgga := true } := by
      rw [last_append]
      exact a.readGpgga_incomplete (incomplete message (by simp)) _
    refine ⟨?_, by rw [step, lon]⟩
    rw [step, lat]
    cases read : a.latitude (fields message) <;> simp [rawLatitude, read]

/-- After the last complete message only raw latitudes can change what is sent. -/
theorem last_eq (before : List Bytes) {later : List Bytes} {message : Bytes} {x y : D}
    (lat : a.latitude (fields message) = some x) (lon : a.longitude (fields message) = some y)
    (incomplete : ∀ message ∈ later, ¬ a.Complete message) (v : Position D) :
    (a.last (before ++ message :: later) v).latitude = (a.rawLatitude later).getD (a.convert x) ∧
      (a.last (before ++ message :: later) v).longitude = a.convert y := by
  have split : before ++ message :: later = (before ++ [message]) ++ later := by simp
  have complete : a.last (before ++ [message]) v =
      { latitude := a.convert x, longitude := a.convert y, gotGpgga := true } := by
    rw [last_append]
    exact a.readGpgga_complete lat lon _
  rw [split, last_append]
  simpa only [complete] using a.last_incomplete incomplete (a.last (before ++ [message]) v)

end Arithmetic

/-- A list that has a member with a property has a last one. -/
theorem exists_last {α : Type} {p : α → Prop} {l : List α} (holds : ∃ x ∈ l, p x) :
    ∃ before x later, l = before ++ x :: later ∧ p x ∧ ∀ y ∈ later, ¬ p y := by
  induction l using List.reverseRecOn with
  | nil => simp at holds
  | append_singleton l z ih =>
    by_cases here : p z
    · exact ⟨l, z, [], rfl, here, by simp⟩
    · obtain ⟨x, inside, px⟩ := holds
      have earlier : x ∈ l := by
        rcases List.mem_append.1 inside with there | last
        · exact there
        · exact absurd (List.mem_singleton.1 last ▸ px) here
      obtain ⟨before, x, later, rfl, px, none⟩ := ih ⟨x, earlier, px⟩
      refine ⟨before, x, later ++ [z], by simp, px, fun y there => ?_⟩
      rcases List.mem_append.1 there with there | last
      · exact none y there
      · exact List.mem_singleton.1 last ▸ here

/-! ## Which calls publish a parsed position -/

namespace Arithmetic
variable {D : Type} (a : Arithmetic D)

/-- The coordinate is the conversion of the two fields of one GPGGA message. -/
def Parsed (s : Bytes) (c : D × D) : Prop :=
  ∃ message ∈ gpggas s, ∃ x y, a.latitude (fields message) = some x ∧
    a.longitude (fields message) = some y ∧ c = (a.convert x, a.convert y)

/-- Some GPGGA message is complete and none after the last complete one has a latitude; a raw
latitude that is left behind does no harm only where it is the conversion of another complete
message with the same longitude. -/
def EndsComplete (s : Bytes) : Prop :=
  ∃ before message later x y, gpggas s = before ++ message :: later ∧
    a.latitude (fields message) = some x ∧ a.longitude (fields message) = some y ∧
    (∀ other ∈ later, ¬ a.Complete other) ∧
    ∀ raw ∈ a.rawLatitude later, a.Parsed s (raw, a.convert y)

/-- A call publishes nothing but parsed positions exactly when its string has no GPGGA message,
or a complete one behind which no message leaves its raw latitude. -/
theorem publishes_parsed_iff (s : Bytes) :
    (∀ c, a.nextString s = some c → a.Parsed s c) ↔ gpggas s = [] ∨ a.EndsComplete s := by
  rw [a.nextString_eq]
  by_cases empty : gpggas s = []
  · simp [empty]
  · simp only [empty, if_false, Option.some.injEq, forall_eq', false_or]
    constructor
    · intro parsed
      have complete : ∃ message ∈ gpggas s, a.Complete message := by
        obtain ⟨message, there, x, y, lat, lon, -⟩ := parsed
        exact ⟨message, there, by simp [Complete, lat, lon]⟩
      obtain ⟨before, message, later, split, ⟨lat, lon⟩, incomplete⟩ := exists_last complete
      obtain ⟨x, lat⟩ := Option.isSome_iff_exists.1 lat
      obtain ⟨y, lon⟩ := Option.isSome_iff_exists.1 lon
      refine ⟨before, message, later, x, y, split, lat, lon, incomplete, fun raw left => ?_⟩
      obtain ⟨latitude, longitude⟩ := a.last_eq before lat lon incomplete a.start
      rw [← split, Option.mem_def.1 left, Option.getD_some] at latitude
      rw [← split] at longitude
      rwa [latitude, longitude] at parsed
    · rintro ⟨before, message, later, x, y, split, lat, lon, incomplete, harmless⟩
      obtain ⟨latitude, longitude⟩ := a.last_eq before lat lon incomplete a.start
      rw [← split] at latitude longitude
      rw [latitude, longitude]
      cases left : a.rawLatitude later with
      | none => exact ⟨message, by simp [split], x, y, lat, lon, rfl⟩
      | some raw => exact harmless raw left

/-- A GPGGA message without fields publishes the coordinate (0, 0). -/
theorem bare_sentence_published :
    ¬ ∀ (D : Type) (a : Arithmetic D) (s : Bytes) (c : D × D),
      a.nextString s = some c → a.Parsed s c := by
  intro always
  obtain ⟨message, there, x, y, lat, -⟩ :=
    always Double exact (dollar :: GPGGA) (some 0, some 0) (by decide)
  have only : gpggas (dollar :: GPGGA) = [GPGGA] := by decide
  rw [only, List.mem_singleton] at there
  subst there
  cases lat

end Arithmetic

end OpendlvCore.Trimble
