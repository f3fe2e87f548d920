import OpendlvCore.Applanix.Readers

/-!
# The Applanix string decoder

`ApplanixStringDecoder::nextString` (`ApplanixStringDecoder.cpp:472-668`): the main
loop as a function from the state at its head to what one pass does, and around it
appending the new bytes and discarding consumed ones. `m_conference` is the list of
containers sent so far.
-/
namespace OpendlvCore.Applanix
open CStream CBytes CLoop

structure Decoder where
  conference : List Container := []
  buffer : StringStream := {}
  foundHeader : Bool := false
  buffering : Bool := false
  payloadSize : Nat := 0
  toRemove : Nat := 0
  /-- `m_nextApplanixMessage`, where `none` is `UNKNOWN`. -/
  nextApplanixMessage : Option Group := none
  deriving DecidableEq, Repr

/-- A decoder as its constructor leaves it. -/
def fresh : Decoder := {}

/-- `static_cast<uint32_t>(m_buffer.tellg()) + m_toRemove` -/
def readPosition (d : Decoder) : Nat := add32 (u32 d.buffer.tellg) d.toRemove

/-- `static_cast<uint32_t>(m_buffer.tellp()) - (... tellg ... + m_toRemove)` -/
def fillLevel (d : Decoder) : Nat := sub32 (u32 d.buffer.tellp) (readPosition d)

/-- The condition of the main loop: 32-bit on the left, 64-bit comparison. -/
def loopCondition (d : Decoder) : Bool :=
  decide ((add32 (readPosition d) GRP_HEADER_SIZE : Int) < d.buffer.tellp)

/-- "Wait for more data if put pointer is smaller than expected buffer fill level." -/
def waiting (d : Decoder) : Bool := d.buffering && decide (fillLevel d < d.payloadSize)

def MAX_BUFFER : Nat := 32768

/-- The octets of `"$GRP"`. -/
def GRPSTART : Bytes := [0x24, 0x47, 0x52, 0x50]

section Steps
variable (mem : Nat → UInt8)

/-- The `if` of lines 501-563: nothing is read or sent for `UNKNOWN`. -/
def sendGroup (d : Decoder) : Option Decoder :=
  match d.nextApplanixMessage with
  | none => some d
  | some group => do
    let (containers, buffer) ← readGroup mem group d.payloadSize d.buffer
    return { d with conference := d.conference ++ containers, buffer }

/-- Lines 492-571: decode the pending group once enough bytes are there. -/
def decodeStage (d : Decoder) : Option Decoder :=
  if d.buffering && decide (d.payloadSize ≤ fillLevel d) then do
    let d ← sendGroup mem { d with buffer := d.buffer.seekg d.toRemove }
    return { d with
      buffering := false
      foundHeader := false
      toRemove := add32 d.toRemove (d.payloadSize + GRP_FOOTER_SIZE)
      payloadSize := 0
      nextApplanixMessage := none }
  else return d

/-- `prepareReadingBuffer:50-63` -/
def prepareReadingBuffer (d : Decoder) : Option Decoder :=
  if d.buffer.good then do
    let (payloadSize, buffer) ← readLE 2 d.buffer
    return { d with
      buffer, payloadSize
      foundHeader := true
      buffering := true
      toRemove := add32 d.toRemove GRP_HEADER_SIZE }
  else return d

/-- The four start octets and the group number, as one read. -/
def readGrpHdr : Reader (Bytes × Nat) := do
  let grpstart ← readInto (storage mem 4)
  let groupnum ← readLE 2
  return (grpstart, groupnum)

/-- Lines 581-654: read a header at `m_toRemove` and prepare for its payload, or skip
one byte. -/
def decodeHeader (d : Decoder) : Option Decoder := do
  let ((grpstart, groupnum), buffer) ← readGrpHdr mem (d.buffer.seekg d.toRemove)
  match (if grpstart = GRPSTART then Group.ofNumber groupnum else none) with
  | some group => do
    let d ← prepareReadingBuffer { d with buffer }
    return { d with nextApplanixMessage := some group }
  | none => return { d with buffer, toRemove := add32 d.toRemove 1 }

/-- Lines 573-655: "Try decoding GRP? header." -/
def headerStage (d : Decoder) : Option Decoder :=
  if !d.foundHeader && decide (GRP_HEADER_SIZE ≤ fillLevel d) then decodeHeader mem d
  else return d

/-- One evaluation of the loop condition and, if it holds, one pass of the body. -/
def pass (d : Decoder) : Option (Flow Decoder) :=
  if loopCondition d then
    if waiting d then return .done d
    else do
      let d ← decodeStage mem d
      let d ← headerStage mem d
      return .next d
  else return .done d

/-- Lines 474-478: new bytes at the end, reading from `m_toRemove`. -/
def append (d : Decoder) (data : Bytes) : Decoder :=
  { d with buffer := ((d.buffer.seekpEnd).write data).seekg d.toRemove }

/-- Lines 660-667: the new content starts at the get position. -/
def discard (d : Decoder) : Decoder :=
  if 0 < d.buffer.tellg ∧ MAX_BUFFER < d.toRemove then
    let s := d.buffer.data.drop d.buffer.tellg.toNat
    { d with
      buffer := (((d.buffer.clear).setStr s).seekpEnd).seekg 0
      toRemove := 0 }
  else d

def nextString (fuel : Nat) (d : Decoder) (data : Bytes) : Option Decoder := do
  let d ← iterate (pass mem) fuel (append d data)
  return discard d

/-- The decoder after the chunks were passed to `nextString` one by one and every
call has returned. -/
inductive Run : List Bytes → Decoder → Prop
  | fresh : Run [] fresh
  | call {chunks : List Bytes} {d e : Decoder} {data : Bytes} (fuel : Nat) :
      Run chunks d → nextString mem fuel d data = some e → Run (chunks ++ [data]) e

/-- `pass` starts at `t` in the call of `nextString` on `d` and `data`. -/
def Visited (d : Decoder) (data : Bytes) (t : Decoder) : Prop :=
  Visits (pass mem) (append d data) t

/-- Every pass of every call in feeding `chunks` to a fresh decoder starts in a
state with property `P`; a call that does not return is the last one. -/
def EveryPass (P : Decoder → Prop) (chunks : List Bytes) : Prop :=
  ∀ before data after d t, chunks = before ++ data :: after → Run mem before d →
    Visited mem d data t → P t

/-- `tellg + m_toRemove + GRP_HEADER_SIZE` cannot pass the range of `uint32_t`. -/
def Fits32 (d : Decoder) : Prop := 2 * d.buffer.data.length + GRP_HEADER_SIZE < 2 ^ 32

/-- In every call that still accepts bytes, the buffer with the new bytes stays below 2 GiB. -/
def SmallBuffers (chunks : List Bytes) : Prop :=
  ∀ before data after d, chunks = before ++ data :: after → Run mem before d →
    d.buffer.good = true → Fits32 (append d data)

end Steps

end OpendlvCore.Applanix
