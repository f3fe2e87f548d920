import OpendlvCore.Applanix.Spaced
import OpendlvCore.Applanix.RoundTrip

/-!
# From the unit's messages to the containers

A unit writes its messages as records with four bytes behind each of them. Whatever is written
comes out in order, as the readers understand it: every field but the second time type, and the
coordinate of each GRP1 once more as a generic message.
-/
namespace OpendlvCore.Applanix
open CStream CBytes CLoop

namespace GroupRecord

def group : GroupRecord → Group
  | grp1 .. => .grp1
  | grp2 .. => .grp2
  | grp3 .. => .grp3
  | grp4 .. => .grp4
  | grp10001 .. => .grp10001
  | grp10002 .. => .grp10002
  | grp10003 .. => .grp10003
  | grp10009 .. => .grp10009

/-- The record with other time tags. -/
def withTimeDistance (t : TimeDistance) : GroupRecord → GroupRecord
  | grp1 data pad => grp1 { data with timeDistance := t } pad
  | grp2 data pad => grp2 { data with timeDistance := t } pad
  | grp3 data pad => grp3 { data with timeDistance := t } pad
  | grp4 data pad => grp4 { data with timeDistance := t } pad
  | grp10001 data reserved pad => grp10001 { data with timeDistance := t } reserved pad
  | grp10002 data pad => grp10002 { data with timeDistance := t } pad
  | grp10003 data pad => grp10003 { data with timeDistance := t } pad
  | grp10009 data reserved pad => grp10009 { data with timeDistance := t } reserved pad

/-- The message, and for a GRP1 its coordinate as well. -/
def containers : GroupRecord → List Container
  | grp1 data _ => [.grp1 data, .wgs84 data.lat data.lon]
  | r => [r.message]

/-- As the readers understand it: the second time type stays in its nibble. -/
def received (r : GroupRecord) : GroupRecord := r.withTimeDistance r.timeDistance.received

end GroupRecord

/-- The time tags of a group message. -/
def Container.timeDistance : Container → Option TimeDistance
  | .grp1 data => some data.timeDistance
  | .grp2 data => some data.timeDistance
  | .grp3 data => some data.timeDistance
  | .grp4 data => some data.timeDistance
  | .grp10001 data => some data.timeDistance
  | .grp10002 data => some data.timeDistance
  | .grp10003 data => some data.timeDistance
  | .grp10009 data => some data.timeDistance
  | .wgs84 _ _ => none

/-- A message that fits its record and whose channels can be counted, with the footer of its
record and the bytes behind it. -/
structure Transmission where
  record : GroupRecord
  wellFormed : record.WellFormed
  few : record.channels ≤ 255
  footer : Bytes
  footer_length : footer.length = GRP_FOOTER_SIZE
  gap : Bytes
  gap_length : gap.length = GRP_FOOTER_SIZE

section Sizes

theorem length_writeGRP1 (d : Grp1Data) (pad : UInt8) : (writeGRP1 d pad).length = 128 := by
  simp [writeGRP1, le64, le32, le8, length_writeTimeDistance]

theorem length_writeGRP2 (d : Grp2Data) (pad : UInt16) : (writeGRP2 d pad).length = 76 := by
  simp [writeGRP2, le32, le16, length_writeTimeDistance]

theorem length_writeGRP3 (d : Grp3Data) (pad : UInt16) :
    (writeGRP3 d pad).length = 72 + SIZE_OF_GNSS * d.channelStatus.length := by
  have channels : (d.channelStatus.flatMap writeGNSSReceiverChannelStatus).length =
      SIZE_OF_GNSS * d.channelStatus.length := by
    have each : ∀ c, (writeGNSSReceiverChannelStatus c).length = SIZE_OF_GNSS := by
      intro c
      simp [writeGNSSReceiverChannelStatus, le16, le32, SIZE_OF_GNSS]
    induction d.channelStatus with
    | nil => rfl
    | cons c rest ih =>
      rw [List.flatMap_cons, List.length_append, each, ih, List.length_cons, Nat.mul_succ,
        Nat.add_comm]
  simp only [writeGRP3, List.flatten_cons, List.flatten_nil, List.length_append, List.length_nil,
    length_writeTimeDistance, channels, le8, le16, le32, le64, length_toLE]
  omega

theorem length_writeGRP4 (d : Grp4Data) (pad : UInt8) (length : d.imudata.length = LENGTH_IMUDATA) :
    (writeGRP4 d pad).length = 56 := by
  simp [writeGRP4, le16, le8, length_writeTimeDistance, length, LENGTH_IMUDATA]

theorem length_writeGRP10003 (d : Grp10003Data) (pad : UInt16) :
    (writeGRP10003 d pad).length = 32 := by
  simp [writeGRP10003, le32, le16, length_writeTimeDistance]

/-- The byte count of a well-formed record fits into its field. -/
theorem GroupRecord.byteCount_lt {r : GroupRecord} (wellFormed : r.WellFormed)
    (few : r.channels ≤ 255) : r.byteCount < 2 ^ 16 := by
  obtain ⟨_, sizes⟩ := wellFormed
  cases r with
  | grp1 d pad => exact (congrArg (· + GRP_FOOTER_SIZE) (length_writeGRP1 d pad)).trans_lt (by decide)
  | grp2 d pad => exact (congrArg (· + GRP_FOOTER_SIZE) (length_writeGRP2 d pad)).trans_lt (by decide)
  | grp3 d pad =>
    have length := length_writeGRP3 d pad
    change (writeGRP3 d pad).length + 4 < _
    change d.channelStatus.length ≤ 255 at few
    simp only [SIZE_OF_GNSS] at length
    omega
  | grp4 d pad =>
    exact (congrArg (· + GRP_FOOTER_SIZE) (length_writeGRP4 d pad sizes)).trans_lt (by decide)
  | grp10001 => exact sizes.2
  | grp10002 => exact sizes.2.2
  | grp10003 d pad =>
    exact (congrArg (· + GRP_FOOTER_SIZE) (length_writeGRP10003 d pad)).trans_lt (by decide)
  | grp10009 => exact sizes.2

end Sizes

section Faithful
variable {mem : Nat → UInt8} {t : TimeDistance}

/-- What a reader consumes is what the message made of it consumes. -/
theorem consumes_map {α β : Type} {m : Reader α} {bs : Bytes} {a : α} (f : α → β)
    (read : Consumes m bs a) : Consumes (m >>= fun a => pure (f a)) bs (f a) := by
  have both := read.bind (f := fun a => pure (f a)) (.pure (f a))
  rwa [List.append_nil] at both

/-- The readers consume exactly what was written. -/
theorem GroupRecord.complete (mem : Nat → UInt8) {r : GroupRecord} (wellFormed : r.WellFormed)
    (few : r.channels ≤ 255) :
    Consumes (readGroup mem r.group r.byteCount) r.payload r.received.containers := by
  obtain ⟨fits, sizes⟩ := wellFormed
  cases r with
  | grp1 d pad =>
    exact consumes_map (fun g => [Container.grp1 g, .wgs84 g.lat g.lon]) (consumes_getGRP1 d pad fits)
  | grp2 d pad => exact consumes_map (fun g => [Container.grp2 g]) (consumes_getGRP2 d pad fits)
  | grp3 d pad => exact consumes_map (fun g => [Container.grp3 g]) (consumes_getGRP3 d pad fits sizes few)
  | grp4 d pad => exact consumes_map (fun g => [Container.grp4 g]) (consumes_getGRP4 mem d pad fits sizes)
  | grp10001 d reserved pad =>
    obtain ⟨short, small⟩ := sizes
    have count : (GroupRecord.grp10001 d reserved pad).byteCount = _ :=
      length_writeGRP10001 d reserved pad
    rw [count] at small ⊢
    exact consumes_map (fun g => [Container.grp10001 g])
      (consumes_getGRP10001 mem d reserved pad fits small short)
  | grp10002 d pad =>
    obtain ⟨length, short, small⟩ := sizes
    have count : (GroupRecord.grp10002 d pad).byteCount = _ := length_writeGRP10002 d pad length
    rw [count] at small ⊢
    exact consumes_map (fun g => [Container.grp10002 g])
      (consumes_getGRP10002 mem d pad fits length small short)
  | grp10003 d pad => exact consumes_map (fun g => [Container.grp10003 g]) (consumes_getGRP10003 d pad fits)
  | grp10009 d reserved pad =>
    obtain ⟨short, small⟩ := sizes
    have count : (GroupRecord.grp10009 d reserved pad).byteCount = _ :=
      length_writeGRP10001 _ reserved pad
    rw [count] at small ⊢
    exact consumes_map (fun g => [Container.grp10009 g])
      (consumes_getGRP10009 mem d reserved pad fits small short)

theorem GroupRecord.timeDistance_withTimeDistance (r : GroupRecord) (t : TimeDistance) :
    (r.withTimeDistance t).timeDistance = t := by
  cases r <;> rfl

theorem GroupRecord.withTimeDistance_self (r : GroupRecord) :
    r.withTimeDistance r.timeDistance = r := by
  cases r <;> rfl

/-- The time tags can be read off what is sent. -/
theorem GroupRecord.head_containers (r : GroupRecord) :
    r.containers.head?.bind Container.timeDistance = some r.timeDistance := by
  cases r <;> rfl

/-- A message arrives as it was written exactly if its second time type is 0. -/
theorem GroupRecord.received_iff {r : GroupRecord} (wellFormed : r.WellFormed) :
    r.received.containers = r.containers ↔ r.timeDistance.time2Type = 0 := by
  rw [← received_eq_iff wellFormed.1]
  constructor
  · intro same
    have tags := congrArg (fun containers => containers.head?.bind Container.timeDistance) same
    simp only [GroupRecord.head_containers, GroupRecord.received,
      GroupRecord.timeDistance_withTimeDistance] at tags
    exact Option.some.inj tags
  · intro same
    rw [GroupRecord.received, same, GroupRecord.withTimeDistance_self]

end Faithful

namespace Transmission

/-- As it lies in the stream. -/
def slot (mem : Nat → UInt8) (t : Transmission) : Slot mem where
  group := t.record.group
  payload := t.record.payload
  footer := t.footer
  containers := t.record.received.containers
  footer_length := t.footer_length
  range := t.record.byteCount_lt t.wellFormed t.few
  complete := t.record.complete mem t.wellFormed t.few
  gap := t.gap
  gap_length := t.gap_length

/-- What a list of messages is in the stream. -/
def stream (ts : List Transmission) : Bytes :=
  ts.flatMap fun t => GRPSTART ++ (toLE 2 t.record.group.number ++ (toLE 2 t.record.byteCount ++
    (t.record.payload ++ (t.footer ++ t.gap))))

/-- No call ends in the second half of the second header. -/
def Uncut (ts : List Transmission) (chunks : List Bytes) : Prop :=
  ∀ before, before <+: chunks → ∀ first second rest, ts = first :: second :: rest →
    ¬ (first.record.byteCount + 16 ≤ before.flatten.length ∧
      before.flatten.length < first.record.byteCount + 20)

theorem spaced_slots (mem : Nat → UInt8) (ts : List Transmission) :
    spaced (ts.map (slot mem)) = stream ts := by
  rw [spaced, stream, List.flatMap_map]
  congr 1
  funext t
  simp only [Record.bytes, slot, List.append_assoc]
  rfl

theorem uncut_slots (mem : Nat → UInt8) (ts : List Transmission) (chunks : List Bytes) :
    Applanix.Uncut (ts.map (slot mem)) chunks ↔ Uncut ts chunks := by
  constructor
  · rintro uncut before within first second rest rfl
    exact uncut before within
  · intro uncut before within cut
    match ts, cut with
    | first :: second :: rest, cut => exact uncut before within first second rest rfl cut

theorem sent_slots (mem : Nat → UInt8) (ts : List Transmission) :
    sent (ts.map (slot mem)) = ts.flatMap fun t => t.record.received.containers := by
  rw [sent, List.flatMap_map]
  rfl

end Transmission

/-- What a unit writes is sent in order however it is cut, unless a call ends in the second half
of the second header; a message is sent as it was written exactly if its second time type is 0. -/
theorem messages_arrive (mem : Nat → UInt8) (ts : List Transmission) {n : Nat}
    (enough : (Transmission.stream ts).length ≤ n)
    (small : (Transmission.stream ts).length + n ≤ MAX_BUFFER) (chunks : List Bytes)
    (whole : chunks.flatten = Transmission.stream ts ++ zeros n)
    (uncut : Transmission.Uncut ts chunks) :
    (∃ d, Run mem chunks d ∧
      d.conference = ts.flatMap fun t => t.record.received.containers) ∧
    ∀ t ∈ ts, t.record.received.containers = t.record.containers ↔
      t.record.timeDistance.time2Type = 0 := by
  refine ⟨?_, fun t _ => GroupRecord.received_iff t.wellFormed⟩
  rw [← Transmission.spaced_slots mem] at enough small whole
  obtain ⟨d, run, ⟨_, reached, leaves⟩ | ⟨cut, _⟩⟩ :=
    run_spaced (ts.map (Transmission.slot mem)) small chunks [] (by rw [List.append_nil, whole])
  · exact ⟨d, run, (reached.finished enough small leaves).trans (Transmission.sent_slots mem ts)⟩
  · exact absurd ((Transmission.uncut_slots mem ts chunks).mpr uncut) cut

/-- Five pulses. -/
def pulses : Transmission where
  record := .grp10003 { timeDistance := { time1Type := 1 }, pulsecount := 5 } 0
  wellFormed := ⟨⟨by decide, by decide⟩, trivial⟩
  few := Nat.zero_le 255
  footer := zeros 4
  footer_length := length_four_zeros
  gap := zeros 4
  gap_length := length_four_zeros

set_option maxRecDepth 4000 in
/-- Two messages in one chunk. -/
theorem messages_arrive_pulses :
    (∃ d, Run zeroMemory [Transmission.stream [pulses, pulses] ++ zeros 100] d ∧
      d.conference = [pulses, pulses].flatMap fun t => t.record.received.containers) ∧
    ∀ t ∈ [pulses, pulses], t.record.received.containers = t.record.containers ↔
      t.record.timeDistance.time2Type = 0 := by
  refine messages_arrive zeroMemory [pulses, pulses] (n := 100) (by decide) (by decide) _
    (List.append_nil _) ?_
  intro before within first second rest split
  obtain ⟨rfl, _⟩ := List.cons.inj split
  have size : before.flatten.length = 0 ∨ before.flatten.length = 196 := by
    rcases List.prefix_cons_iff.mp within with rfl | ⟨more, rfl, none⟩
    · exact .inl rfl
    · rw [List.prefix_nil.mp none]
      exact .inr (by decide)
  have count : pulses.record.byteCount = 36 := by decide
  omega

end OpendlvCore.Applanix
