import OpendlvCore.Text

/-!
# `TrimbleStringDecoder::nextString`

Each call splits its chunk at `$` into messages and each message at commas into
fields. Nothing is kept for the next call: `m_buffer` is not used, and the static
`oldWGS84` only feeds a heading that is not sent.
-/
namespace OpendlvCore.Trimble
open CBytes CText

/-- The container that is sent. -/
structure WGS84Coordinate where
  latitude : Double
  longitude : Double
  deriving DecidableEq, Repr

/-- The local variables of one call. -/
structure Locals where
  latitude : Double := some 0
  longitude : Double := some 0
  gotGpgga : Bool := false
  deriving DecidableEq, Repr

def dollar : UInt8 := 0x24
def comma : UInt8 := 0x2C

/-- "GPGGA" -/
def GPGGA : Bytes := [0x47, 0x50, 0x47, 0x47, 0x41]

/-- Convert from format dd mm,mmmm. -/
def convert (x : Double) : Double :=
  x.map fun q => truncate (q / 100) + (q / 100 - truncate (q / 100)) * 100 / 60

/-- The `try` block. An exception leaves what was assigned before it; `stoi` of the GPS
quality comes last and sets nothing that is sent. -/
def readGpgga (fields : List Bytes) (v : Locals) : Locals :=
  match fields[2]?.bind stod with
  | none => { v with gotGpgga := true }
  | some latitude =>
    match fields[4]?.bind stod with
    | none => { v with gotGpgga := true, latitude }
    | some longitude =>
      { gotGpgga := true, latitude := convert latitude, longitude := convert longitude }

/-- One pass of the loop over the messages. -/
def readMessage (v : Locals) (message : Bytes) : Locals :=
  if message = [] then v
  else
    match getlines comma message with
    | [] => v
    | type :: fields => if type = GPGGA then readGpgga (type :: fields) v else v

def nextString (s : Bytes) : Option WGS84Coordinate :=
  let messages := getlines dollar s
  if messages = [] then none
  else
    let v := messages.foldl readMessage {}
    if v.gotGpgga then some { latitude := v.latitude, longitude := v.longitude } else none

/-- The containers sent for one chunk after the other. -/
def sent (chunks : List Bytes) : List WGS84Coordinate := chunks.filterMap nextString

/-! ## Messages that count -/

/-- What stands before the first comma. -/
def typeOf (message : Bytes) : Bytes := message.takeWhile (· ≠ comma)

/-- The messages of a chunk with the type GPGGA. -/
def gpggas (s : Bytes) : List Bytes :=
  (getlines dollar s).filter fun message => typeOf message = GPGGA

section Messages
variable {message s : Bytes} {v : Locals}

/-- Only messages of the type GPGGA change anything. -/
theorem readMessage_other (other : typeOf message ≠ GPGGA) : readMessage v message = v := by
  rw [readMessage]
  split
  · rfl
  · rename_i content
    obtain ⟨fields, eq⟩ : ∃ fields, getlines comma message = typeOf message :: fields :=
      getlines_eq_cons content
    rw [eq]
    exact if_neg other

theorem readMessage_gpgga (gpgga : typeOf message = GPGGA) :
    readMessage v message = readGpgga (getlines comma message) v := by
  have content : message ≠ [] := by
    rintro rfl
    cases gpgga
  obtain ⟨fields, eq⟩ : ∃ fields, getlines comma message = typeOf message :: fields :=
    getlines_eq_cons content
  rw [readMessage, if_neg content, eq]
  exact if_pos gpgga

theorem readGpgga_got (fields : List Bytes) : (readGpgga fields v).gotGpgga = true := by
  rw [readGpgga]
  split
  · rfl
  · split <;> rfl

theorem foldl_readMessage (messages : List Bytes) :
    messages.foldl readMessage v =
      (messages.filter fun message => typeOf message = GPGGA).foldl readMessage v := by
  induction messages generalizing v with
  | nil => rfl
  | cons message messages ih =>
    by_cases gpgga : typeOf message = GPGGA
    · rw [List.filter_cons_of_pos (by simpa using gpgga), List.foldl_cons, List.foldl_cons, ih]
    · rw [List.filter_cons_of_neg (by simpa using gpgga), List.foldl_cons, readMessage_other gpgga, ih]

theorem foldl_readMessage_got {messages : List Bytes}
    (gpgga : ∀ message ∈ messages, typeOf message = GPGGA) (some_message : messages ≠ []) :
    (messages.foldl readMessage v).gotGpgga = true := by
  induction messages generalizing v with
  | nil => exact absurd rfl some_message
  | cons message messages ih =>
    rw [List.foldl_cons]
    by_cases last : messages = []
    · rw [last, List.foldl_nil, readMessage_gpgga (gpgga message List.mem_cons_self)]
      exact readGpgga_got _
    · exact ih (fun other there => gpgga other (List.mem_cons_of_mem _ there)) last

/-- A call sends nothing without a message of the type GPGGA, and one container otherwise. -/
theorem nextString_eq (s : Bytes) :
    nextString s =
      if gpggas s = [] then none
      else some ⟨((gpggas s).foldl readMessage {}).latitude, ((gpggas s).foldl readMessage {}).longitude⟩ := by
  rw [nextString, foldl_readMessage]
  change (if getlines dollar s = [] then none else
    if ((gpggas s).foldl readMessage {}).gotGpgga then _ else none) = _
  by_cases empty : gpggas s = []
  · rw [if_pos empty, empty]
    exact ite_self _
  · have messages : getlines dollar s ≠ [] := by
      intro none
      apply empty
      rw [gpggas, none]
      rfl
    have got : ((gpggas s).foldl readMessage {}).gotGpgga = true := by
      apply foldl_readMessage_got _ empty
      intro message there
      simpa using (List.mem_filter.mp there).2
    rw [if_neg messages, if_pos got, if_neg empty]
    rfl

end Messages

end OpendlvCore.Trimble
