import OpendlvCore.Applanix.Readers

/-!
# How many bytes a group's reader reads

The readers do not look at the byte count of the header, except for the padding
loops. `LoopsEnd` says when the counted loops inside a reader end, and `readLength`
how many bytes are read then; both are functions of the group, of the byte count of
the header and of the bytes that follow it.
-/
namespace OpendlvCore.Applanix
open CStream CBytes

/-- The loop bound `channelStatusByteCount / SIZE_OF_GNSS` in the payload of a GRP3. -/
def channelCount (bs : Bytes) : Nat := ofLE ((bs.drop 28).take 2) / SIZE_OF_GNSS

/-- `byte_count`, at the same place in GRP10001, GRP10002 and GRP10009. -/
def rawByteCount (bs : Bytes) : Nat := ofLE ((bs.drop 32).take 2)

/-- Every loop of the group's reader has a bound that its 8-bit counter reaches. -/
def LoopsEnd (group : Group) (payloadSize : Nat) (bs : Bytes) : Prop :=
  match group with
  | .grp3 => channelCount bs ≤ 255
  | .grp10001 | .grp10009 =>
    38 + rawByteCount bs ≤ payloadSize ∧ payloadSize ≤ 38 + rawByteCount bs + 255
  | .grp10002 =>
    40 + rawByteCount bs ≤ payloadSize ∧ payloadSize ≤ 40 + rawByteCount bs + 255
  | _ => True

instance (group : Group) (payloadSize : Nat) (bs : Bytes) :
    Decidable (LoopsEnd group payloadSize bs) := by
  cases group <;> unfold LoopsEnd <;> infer_instance

/-- The bytes read from the stream when all loops end. -/
def readLength (group : Group) (payloadSize : Nat) (bs : Bytes) : Nat :=
  match group with
  | .grp1 => 128
  | .grp2 => 76
  | .grp3 => 72 + SIZE_OF_GNSS * channelCount bs
  | .grp4 => 56
  | .grp10001 | .grp10002 | .grp10009 => payloadSize - GRP_FOOTER_SIZE
  | .grp10003 => 32

section Widths

instance (size : Nat) : FixedWidth (readLE size) size := by
  have width : FixedWidth (readLE size) ((zeros size).length + 0) := by
    unfold readLE
    infer_instance
  rwa [length_zeros] at width

instance : FixedWidth readU8 1 := by unfold readU8; infer_instance
instance : FixedWidth readU16 2 := by unfold readU16; infer_instance
instance : FixedWidth readU32 4 := by unfold readU32; infer_instance
instance : FixedWidth readU64 8 := by unfold readU64; infer_instance
instance : FixedWidth getTimeDistance TIME_DISTANCE_FIELD_SIZE := by
  unfold getTimeDistance; infer_instance
instance : FixedWidth getGRP1 128 := by unfold getGRP1; infer_instance
instance : FixedWidth getGRP2 76 := by unfold getGRP2; infer_instance
instance : FixedWidth getGNSSReceiverChannelStatus SIZE_OF_GNSS := by
  unfold getGNSSReceiverChannelStatus; infer_instance
instance (list : List GNSSReceiverChannelStatus) : FixedWidth (addChannelStatus list) SIZE_OF_GNSS := by
  unfold addChannelStatus; infer_instance
instance : FixedWidth getGRP10003 32 := by unfold getGRP10003; infer_instance
instance (u : Unit) : FixedWidth (readPadding u) 1 := by unfold readPadding; infer_instance

instance storage_width (mem : Nat → UInt8) (n : Nat) : FixedWidth (readInto (storage mem n)) n := by
  have width : FixedWidth (readInto (storage mem n)) (storage mem n).length := inferInstance
  rwa [length_storage] at width

instance (mem : Nat → UInt8) : FixedWidth (getGRP4 mem) 56 := by
  unfold getGRP4; infer_instance

end Widths

section Values
variable {s : StringStream}

theorem readLE_run (size : Nat) (s : StringStream) :
    ∃ s', readLE size s = some (ofLE (s.available.take size), s') ∧ Skips s size s' := by
  obtain ⟨_, s', run, skips⟩ := FixedWidth.skips (m := readLE size) s
  have read := readInto_run (zeros size) s
  have value : readLE size s = some (ofLE (s.available.take size), (s.read size).2) := by
    have rest : (zeros size).drop s.available.length = zeros (size - s.available.length) :=
      List.drop_replicate ..
    rw [rest, length_zeros] at read
    rw [readLE, bind_of_run read, ofLE_append_zeros]
    rfl
  rw [value] at run
  cases run
  exact ⟨_, value, skips⟩

/-- A 16-bit count as the loops use it. -/
theorem readU16_run (s : StringStream) :
    ∃ v s', readU16 s = some (v, s') ∧ v.toNat = ofLE (s.available.take 2) ∧ Skips s 2 s' := by
  obtain ⟨s', run, skips⟩ := readLE_run 2 s
  refine ⟨UInt16.ofNat (ofLE (s.available.take 2)), s', ?_, ?_, skips⟩
  · rw [readU16, bind_of_run run]
    rfl
  · have bound := ofLE_lt (s.available.take 2)
    have short : (s.available.take 2).length ≤ 2 := List.length_take_le _ _
    have range : 256 ^ (s.available.take 2).length ≤ 256 ^ 2 := Nat.pow_le_pow_right (by decide) short
    rw [UInt16.toNat_ofNat']
    exact Nat.mod_eq_of_lt (by omega)

end Values

section Loops
variable {mem : Nat → UInt8} {s : StringStream} {n : Nat}

theorem getGRP3_loops (good : s.good = true) :
    LoopsAfter getGRP3 s (26 + (1 + (1 + (2 + 0)))) (channelCount s.available) SIZE_OF_GNSS 42 := by
  unfold getGRP3
  refine .ifGood good ?_
  refine .bind ?_
  intro _ s₁ skips₁
  refine .bind ?_
  intro _ s₂ skips₂
  refine .bind ?_
  intro _ s₃ skips₃
  obtain ⟨count, s₄, run, value, skips₄⟩ := readU16_run s₃
  have head : Skips s 28 s₃ := (skips₁.trans skips₂).trans skips₃
  have bound : count.toNat / SIZE_OF_GNSS = channelCount s.available := by
    rw [value, head.available]
    rfl
  rw [← bound]
  exact .bind_run run skips₄ (.loop ..)

theorem getGRP10001_loops (good : s.good = true) :
    LoopsAfter (getGRP10001 mem n) s (26 + (2 + (4 + (2 + (rawByteCount s.available + 0)))))
      (paddingGRP10001 n (rawByteCount s.available)) 1 0 := by
  unfold getGRP10001
  refine .ifGood good ?_
  refine .bind ?_
  intro _ s₁ skips₁
  refine .bind ?_
  intro _ s₂ skips₂
  refine .bind ?_
  intro _ s₃ skips₃
  obtain ⟨count, s₄, run, value, skips₄⟩ := readU16_run s₃
  have head : Skips s 32 s₃ := (skips₁.trans skips₂).trans skips₃
  have bound : count.toNat = rawByteCount s.available := by
    rw [value, head.available]
    rfl
  rw [← bound]
  refine .bind_run run skips₄ (.bind ?_)
  intro _ s₅ _
  exact .loop ..

theorem getGRP10002_loops (good : s.good = true) :
    LoopsAfter (getGRP10002 mem n) s (26 + (6 + (2 + (rawByteCount s.available + (2 + 0)))))
      (paddingGRP10002 n (rawByteCount s.available)) 1 0 := by
  unfold getGRP10002
  refine .ifGood good ?_
  refine .bind ?_
  intro _ s₁ skips₁
  refine .bind ?_
  intro _ s₂ skips₂
  obtain ⟨count, s₃, run, value, skips₃⟩ := readU16_run s₂
  have head : Skips s 32 s₂ := skips₁.trans skips₂
  have bound : count.toNat = rawByteCount s.available := by
    rw [value, head.available]
    rfl
  rw [← bound]
  refine .bind_run run skips₃ (.bind ?_)
  intro _ s₄ _
  refine .bind ?_
  intro _ s₅ _
  exact .loop ..

theorem getGRP10009_loops (good : s.good = true) :
    LoopsAfter (getGRP10009 mem n) s (26 + (2 + (4 + (2 + (rawByteCount s.available + 0)))))
      (paddingGRP10001 n (rawByteCount s.available)) 1 0 :=
  (getGRP10001_loops good).map _

end Loops

section Padding
variable {n count : Nat}

/-- Without wrap-around the padding fills the payload up to its footer. -/
theorem paddingGRP10001_of_le (range : n < 2 ^ 16) (room : 38 + count ≤ n) :
    paddingGRP10001 n count = n - (38 + count) := by
  simp only [paddingGRP10001, sub64, sub32, TIME_DISTANCE_FIELD_SIZE, GRP_FOOTER_SIZE]
  omega

theorem paddingGRP10002_of_le (range : n < 2 ^ 16) (room : 40 + count ≤ n) :
    paddingGRP10002 n count = n - (40 + count) := by
  simp only [paddingGRP10002, sub64, sub32, TIME_DISTANCE_FIELD_SIZE, LENGTH_IMUHEADER,
    GRP_FOOTER_SIZE]
  omega

/-- A byte count below the fixed fields wraps to a bound no 8-bit counter reaches. -/
theorem paddingGRP10001_of_gt (range : n < 2 ^ 16) (counted : count < 2 ^ 16)
    (short : n < 38 + count) : 256 ≤ paddingGRP10001 n count := by
  simp only [paddingGRP10001, sub64, sub32, TIME_DISTANCE_FIELD_SIZE, GRP_FOOTER_SIZE]
  omega

theorem paddingGRP10002_of_gt (range : n < 2 ^ 16) (counted : count < 2 ^ 16)
    (short : n < 40 + count) : 256 ≤ paddingGRP10002 n count := by
  simp only [paddingGRP10002, sub64, sub32, TIME_DISTANCE_FIELD_SIZE, LENGTH_IMUHEADER,
    GRP_FOOTER_SIZE]
  omega

/-- Outside the range of `LoopsEnd` the padding is too long, wrapped or not. -/
theorem large_padding {fixed padding : Nat} (plain : fixed ≤ n → padding = n - fixed)
    (wrapped : n < fixed → 256 ≤ padding) (outside : ¬ (fixed ≤ n ∧ n ≤ fixed + 255)) :
    256 ≤ padding := by
  rcases Nat.lt_or_ge n fixed with short | room
  · exact wrapped short
  · rw [plain room]
    omega

theorem rawByteCount_lt (bs : Bytes) : rawByteCount bs < 2 ^ 16 := by
  have bound := ofLE_lt ((bs.drop 32).take 2)
  have short : ((bs.drop 32).take 2).length ≤ 2 := List.length_take_le _ _
  exact Nat.lt_of_lt_of_le bound (Nat.pow_le_pow_right (by decide) short)

end Padding

section Group
variable {mem : Nat → UInt8} {s : StringStream} {g : Group} {n : Nat}

theorem skips_map {α β : Type} {m : Reader α} {k : Nat} (f : α → β)
    (skips : ∃ a s', m s = some (a, s') ∧ Skips s k s') :
    ∃ b s', (m >>= fun a => pure (f a)) s = some (b, s') ∧ Skips s k s' := by
  obtain ⟨a, s', run, moved⟩ := skips
  exact ⟨f a, s', bind_of_run run, moved⟩

variable (mem) in
/-- When its loops end, the group's reader reads `readLength` bytes. -/
theorem readGroup_skips (good : s.good = true) (range : n < 2 ^ 16)
    (ends : LoopsEnd g n s.available) :
    ∃ containers s', readGroup mem g n s = some (containers, s') ∧
      Skips s (readLength g n s.available) s' := by
  cases g with
  | grp1 => exact skips_map _ (FixedWidth.skips s)
  | grp2 => exact skips_map _ (FixedWidth.skips s)
  | grp3 =>
    refine skips_map _ ((getGRP3_loops good).skips ends ?_)
    simp only [readLength]
    rw [Nat.mul_comm]
    omega
  | grp4 => exact skips_map _ (FixedWidth.skips s)
  | grp10001 =>
    have padding := paddingGRP10001_of_le range ends.1
    have room := ends.2
    refine skips_map _ ((getGRP10001_loops good).skips (by omega) ?_)
    have fixed := ends.1
    simp only [readLength, GRP_FOOTER_SIZE]
    omega
  | grp10002 =>
    have padding := paddingGRP10002_of_le range ends.1
    have room := ends.2
    refine skips_map _ ((getGRP10002_loops good).skips (by omega) ?_)
    have fixed := ends.1
    simp only [readLength, GRP_FOOTER_SIZE]
    omega
  | grp10003 => exact skips_map _ (FixedWidth.skips s)
  | grp10009 =>
    have padding := paddingGRP10001_of_le range ends.1
    have room := ends.2
    refine skips_map _ ((getGRP10009_loops good).skips (by omega) ?_)
    have fixed := ends.1
    simp only [readLength, GRP_FOOTER_SIZE]
    omega

theorem hangs_map {α β : Type} {m : Reader α} (f : α → β) (hangs : m s = none) :
    (m >>= fun a => pure (f a)) s = none :=
  (bind_eq_none_iff m _).mpr hangs

variable (mem) in
theorem readGroup_hangs (good : s.good = true) (range : n < 2 ^ 16)
    (endless : ¬ LoopsEnd g n s.available) : readGroup mem g n s = none := by
  have counted := rawByteCount_lt s.available
  cases g with
  | grp1 => exact absurd trivial endless
  | grp2 => exact absurd trivial endless
  | grp3 => exact hangs_map _ ((getGRP3_loops good).hangs (Nat.lt_of_not_le endless))
  | grp4 => exact absurd trivial endless
  | grp10001 => exact hangs_map _ ((getGRP10001_loops good).hangs
      (large_padding (paddingGRP10001_of_le range) (paddingGRP10001_of_gt range counted) endless))
  | grp10002 => exact hangs_map _ ((getGRP10002_loops good).hangs
      (large_padding (paddingGRP10002_of_le range) (paddingGRP10002_of_gt range counted) endless))
  | grp10003 => exact absurd trivial endless
  | grp10009 => exact hangs_map _ ((getGRP10009_loops good).hangs
      (large_padding (paddingGRP10001_of_le range) (paddingGRP10001_of_gt range counted) endless))

/-- A group's reader runs for ever exactly when one of its loop bounds is out of range. -/
theorem readGroup_eq_none_iff (good : s.good = true) (range : n < 2 ^ 16) :
    readGroup mem g n s = none ↔ ¬ LoopsEnd g n s.available := by
  constructor
  · intro hangs ends
    obtain ⟨containers, s', run, _⟩ := readGroup_skips mem good range ends
    rw [hangs] at run
    cases run
  · exact readGroup_hangs _ good range

variable (mem) in
/-- The bytes a group's reader consumes determine its containers. -/
theorem readGroup_consumes {bs : Bytes} (range : n < 2 ^ 16) (ends : LoopsEnd g n bs)
    (enough : readLength g n bs ≤ bs.length) :
    ∃ containers, Consumes (readGroup mem g n) (bs.take (readLength g n bs)) containers := by
  have here : StringStream.available { data := bs } = bs := rfl
  obtain ⟨containers, s', run, skips⟩ :=
    readGroup_skips mem (s := { data := bs }) rfl range (here.symm ▸ ends)
  rw [here] at skips
  have moved := skips.of_enough rfl enough
  obtain ⟨_, payload, rest, split, consumes⟩ :=
    (readGroup_local mem n g).consumed _ _ _ run (by rw [moved]; rfl)
  have whole : bs = payload ++ rest := split
  have read := consumes { data := bs } rest rfl split
  rw [run, moved] at read
  have size := congrArg (fun r => r.map fun p => p.2.gptr) read
  simp only [Option.map_some, StringStream.advance_gptr, Option.some.injEq] at size
  have same : bs.take (readLength g n bs) = payload := by
    have length : readLength g n bs = payload.length := by omega
    rw [length, whole, List.take_left]
  exact ⟨containers, same ▸ consumes⟩

/-- Complete payloads are as long as `readLength` says. -/
theorem readLength_of_consumes {payload rest : Bytes} {containers : List Container}
    (range : n < 2 ^ 16) (consumes : Consumes (readGroup mem g n) payload containers) :
    LoopsEnd g n (payload ++ rest) ∧ readLength g n (payload ++ rest) = payload.length := by
  have here : StringStream.available { data := payload ++ rest } = payload ++ rest := rfl
  have read := consumes { data := payload ++ rest } rest rfl rfl
  have ends : LoopsEnd g n (payload ++ rest) := by
    by_contra endless
    have hangs := readGroup_hangs mem (s := { data := payload ++ rest }) rfl range
      (here.symm ▸ endless)
    rw [read] at hangs
    cases hangs
  refine ⟨ends, ?_⟩
  obtain ⟨containers', s', run, skips⟩ :=
    readGroup_skips mem (s := { data := payload ++ rest }) rfl range (here.symm ▸ ends)
  rw [here] at skips
  rw [read] at run
  cases run
  by_cases enough : readLength g n (payload ++ rest) ≤ (payload ++ rest).length
  · have moved := congrArg StringStream.gptr (skips.of_enough rfl enough)
    simp only [StringStream.advance_gptr] at moved
    omega
  · have failed := skips.of_short fun whole => enough whole.2
    cases failed

end Group

end OpendlvCore.Applanix
