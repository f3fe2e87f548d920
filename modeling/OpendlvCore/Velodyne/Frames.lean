import OpendlvCore.Velodyne.Blocks

/-!
# Firings received between two sends

What the scans of a run are measured against: the firings in the order of the bytes,
divided where `sendPointCloud` is called. It is called at the head of a block and between
the two firings of a block, nowhere else.
-/
namespace OpendlvCore.Velodyne
open CBytes

/-- The returns of all sensors, at the azimuth that the decoder takes them to be made at; the packet's
own is that of a `Bearing`. -/
structure Firing where
  azimuth : ℚ
  returns : List Return

/-- What was received for the scans sent, and since the last of them. -/
structure Frames (α : Type) where
  closed : List (List α) := []
  current : List α := []

namespace Frames
variable {α : Type}

def receive (f : Frames α) (firing : α) : Frames α := { f with current := f.current ++ [firing] }

def close (f : Frames α) : Frames α := { closed := f.closed ++ [f.current], current := [] }

/-- Closed if the decoder has sent something between the two states. -/
def closeIf (f : Frames α) (before after : Decoder) : Frames α :=
  if after.sent.length = before.sent.length then f else f.close

/-- Everything received has a property. -/
structure Each (P : α → Prop) (f : Frames α) : Prop where
  closed : ∀ received ∈ f.closed, ∀ firing ∈ received, P firing
  current : ∀ firing ∈ f.current, P firing

section Each
variable {P : α → Prop} {f : Frames α}

theorem Each.empty : Each P {} :=
  ⟨fun _ there => absurd there List.not_mem_nil, fun _ there => absurd there List.not_mem_nil⟩

theorem Each.receive (each : f.Each P) {firing : α} (holds : P firing) :
    (f.receive firing).Each P := by
  refine ⟨each.closed, ?_⟩
  intro other there
  rcases List.mem_append.mp there with before | last
  · exact each.current other before
  · rwa [List.mem_singleton.mp last]

theorem Each.close (each : f.Each P) : f.close.Each P := by
  refine ⟨?_, fun _ there => absurd there List.not_mem_nil⟩
  intro received there
  rcases List.mem_append.mp there with before | last
  · exact each.closed received before
  · rw [List.mem_singleton.mp last]
    exact each.current

theorem Each.closeIf (each : f.Each P) (before after : Decoder) :
    (f.closeIf before after).Each P := by
  unfold Frames.closeIf
  split
  · exact each
  · exact each.close

end Each

end Frames

section Definitions
variable (maths : Maths) (m : Device) (g : Settings)

/-- The firings of a block that a decoder receives, and the sends at its head and inside it. -/
def receiveBlock (b : Block) (d : Decoder) (f : Frames Firing) : Frames Firing :=
  let head := startBlock m g b.azimuth d
  let body := takeBlock maths m g b d
  let f := (f.closeIf d head).receive { azimuth := head.currentAzimuth, returns := b.first }
  match b.second with
  | none => f
  | some (_, returns) =>
    (f.closeIf head body).receive { azimuth := body.currentAzimuth, returns }

/-- The frames of a run. -/
def framesOf : List Block → Decoder → Frames Firing → Frames Firing
  | [], _, f => f
  | b :: rest, d, f => framesOf rest (takeBlock maths m g b d) (receiveBlock maths m g b d f)

/-- Nothing but azimuths differs. -/
structure SameClouds (d d' : Decoder) : Prop where
  spc : d'.spc = d.spc
  cpc : d'.cpc = d.cpc
  sent : d'.sent = d.sent

/-- At most one scan is sent on the way. -/
def Passes (d d' : Decoder) : Prop :=
  SameClouds d d' ∨ ∃ e, SameClouds d e ∧ SameClouds (sendPointCloud m g e) d'

/-- What holds between the state of a decoder and the firings it has received, and is kept
by everything a decoder does with them. -/
structure Kept (Inv : Decoder → Frames Firing → Prop) : Prop where
  azimuths : ∀ d d' f, SameClouds d d' → Inv d f → Inv d' f
  send : ∀ d f, Inv d f → Inv (sendPointCloud m g d) f.close
  firing : ∀ d f returns, returns.length = m.sensors → Inv d f →
    Inv (storeFiring maths m g 0 returns d) (f.receive ⟨d.currentAzimuth, returns⟩)
  /-- Firings behind the maximum number of points. -/
  ignored : ∀ d f firing, full m g d = true ∨ ¬ room m d → Inv d f → Inv d (f.receive firing)

/-- The second firing of a block is reached: the block is not skipped, and its first firing is not
broken off. -/
def ReadsOn (b : Block) (d : Decoder) : Prop :=
  room m (startBlock m g b.azimuth d) ∧
    full m g (storeFiring maths m g 0 b.first (startBlock m g b.azimuth d)) = false

/-- All sensors fire. -/
def Block.Whole (m : Device) (b : Block) : Prop :=
  b.first.length = m.sensors ∧ ∀ next returns, b.second = some (next, returns) →
    returns.length = m.sensors

end Definitions

section Steps
variable {maths : Maths} {m : Device} {g : Settings} {d : Decoder} {f : Frames Firing}

@[simp] theorem sendPointCloud_sent (d : Decoder) :
    (sendPointCloud m g d).sent = d.sent ++ [scanOf m g d] := rfl

theorem storeCPC_startAzimuth (sensorID : Nat) (r : Return) (cpc : Compact) :
    (storeCPC m g sensorID r cpc).startAzimuth = cpc.startAzimuth := by
  rw [storeCPC]
  split
  · simp only
    split <;> split <;> rfl
  · rfl

variable (maths m g) in
/-- A firing sends nothing and leaves the azimuths as they are. -/
theorem storeFiring_frame (returns : List Return) (sensorID : Nat) (d : Decoder) :
    (storeFiring maths m g sensorID returns d).sent = d.sent ∧
      (storeFiring maths m g sensorID returns d).previousAzimuth = d.previousAzimuth ∧
      (storeFiring maths m g sensorID returns d).currentAzimuth = d.currentAzimuth ∧
      (storeFiring maths m g sensorID returns d).nextAzimuth = d.nextAzimuth ∧
      (storeFiring maths m g sensorID returns d).deltaAzimuth = d.deltaAzimuth := by
  induction returns generalizing sensorID d with
  | nil => exact ⟨rfl, rfl, rfl, rfl, rfl⟩
  | cons r rest ih =>
    rw [storeFiring]
    split
    · exact ⟨rfl, rfl, rfl, rfl, rfl⟩
    · exact ih (sensorID + 1) (storeReturn maths m g sensorID r d)

/-- The ends of the clouds of a scan. -/
theorem scanOf_ends (cloud : CompactPointCloud)
    (there : cloud ∈ (scanOf m g d).noIntensity ++ (scanOf m g d).withIntensity) :
    cloud.startAzimuth = d.cpc.startAzimuth ∧ cloud.endAzimuth = d.previousAzimuth := by
  have ends : ∀ distances bits, ∀ cloud ∈ compactPointClouds m g d distances bits,
      cloud.startAzimuth = d.cpc.startAzimuth ∧ cloud.endAzimuth = d.previousAzimuth := by
    intro distances bits cloud there
    obtain ⟨i, low, rfl⟩ := List.mem_mapIdx.mp there
    exact ⟨rfl, rfl⟩
  rcases List.mem_append.mp there with there | there
  · change cloud ∈ ite _ _ _ at there
    split at there
    · exact ends _ _ cloud there
    · exact absurd there List.not_mem_nil
  · change cloud ∈ ite _ _ _ at there
    split at there
    · exact ends _ _ cloud there
    · exact absurd there List.not_mem_nil

theorem startBlock_passes (azimuth : Option ℚ) (d : Decoder) :
    Passes m g d (startBlock m g azimuth d) := by
  unfold startBlock
  simp only
  split
  · exact .inr ⟨{ d with currentAzimuth := headOf azimuth d.nextAzimuth },
      ⟨rfl, rfl, rfl⟩, ⟨rfl, rfl, rfl⟩⟩
  · exact .inl ⟨rfl, rfl, rfl⟩

/-- A head that completes no scan. -/
theorem startBlock_of_le (azimuth : Option ℚ) (d : Decoder)
    (same : ¬ headOf azimuth d.nextAzimuth < d.previousAzimuth) :
    startBlock m g azimuth d =
      { d with
        currentAzimuth := headOf azimuth d.nextAzimuth
        previousAzimuth := headOf azimuth d.nextAzimuth } := by
  unfold startBlock
  simp only [if_neg same]

/-- A head that completes a scan. -/
theorem startBlock_of_lt (azimuth : Option ℚ) (d : Decoder)
    (wraps : headOf azimuth d.nextAzimuth < d.previousAzimuth) :
    startBlock m g azimuth d =
      { sendPointCloud m g { d with currentAzimuth := headOf azimuth d.nextAzimuth } with
        previousAzimuth := headOf azimuth d.nextAzimuth } := by
  unfold startBlock
  simp only [if_pos wraps]
  rfl

theorem halfWay_same (next : Option ℚ) (d : Decoder) : SameClouds d (halfWay next d) := by
  cases next <;> exact ⟨rfl, rfl, rfl⟩

theorem interpolate_passes (next : Option ℚ) (d : Decoder) :
    Passes m g d (interpolate m g next d) := by
  obtain ⟨spc, cpc, sent⟩ := halfWay_same next d
  unfold interpolate
  simp only
  split
  · exact .inr ⟨{ halfWay next d with currentAzimuth := (halfWay next d).currentAzimuth - 360 },
      ⟨spc, cpc, sent⟩, ⟨rfl, rfl, rfl⟩⟩
  · exact .inl ⟨spc, cpc, sent⟩

theorem Passes.sent {d d' : Decoder} (passes : Passes m g d d') : d.sent <+: d'.sent := by
  rcases passes with same | ⟨e, before, after⟩
  · exact ⟨[], by rw [List.append_nil, same.sent]⟩
  · rw [after.sent, sendPointCloud_sent, before.sent]
    exact List.prefix_append _ _

variable (maths m g) in
/-- What is sent at the head of a block comes before what is sent inside it. -/
theorem takeBlock_sent (b : Block) (d : Decoder) :
    (startBlock m g b.azimuth d).sent <+: (takeBlock maths m g b d).sent := by
  have firing := fun returns d => (storeFiring_frame maths m g returns 0 d).1
  rw [takeBlock]
  generalize startBlock m g b.azimuth d = e
  by_cases space : room m e
  · rw [if_pos space, takeReturns, ← firing b.first e]
    generalize storeFiring maths m g 0 b.first e = h
    cases b.second with
    | none => exact List.prefix_refl _
    | some pair =>
      obtain ⟨next, returns⟩ := pair
      by_cases stop : full m g h = true
      · simp only [if_pos stop]
        exact List.prefix_refl _
      · simp only [if_neg stop]
        rw [firing]
        exact (interpolate_passes next h).sent
  · exact ⟨[], by rw [if_neg space, List.append_nil]⟩

/-- A block of two firings. -/
theorem takeBlock_of_readsOn {b : Block} {next : Option ℚ} {returns : List Return}
    (second : b.second = some (next, returns)) (on : ReadsOn maths m g b d) :
    takeBlock maths m g b d = storeFiring maths m g 0 returns (interpolate m g next
      (storeFiring maths m g 0 b.first (startBlock m g b.azimuth d))) := by
  rw [takeBlock, if_pos on.1, takeReturns, second]
  simp only [on.2, Bool.false_eq_true, if_false]

/-- A block of one firing, or of none. -/
theorem takeBlock_of_not_readsOn {b : Block} (off : b.second = none ∨ ¬ ReadsOn maths m g b d) :
    ∃ returns, takeBlock maths m g b d =
        storeFiring maths m g 0 returns (startBlock m g b.azimuth d) ∧
      (returns = b.first ∨ ¬ room m (startBlock m g b.azimuth d)) := by
  rw [takeBlock]
  by_cases space : room m (startBlock m g b.azimuth d)
  · refine ⟨b.first, ?_, .inl rfl⟩
    rw [if_pos space, takeReturns]
    cases second : b.second with
    | none => rfl
    | some pair =>
      have stop : full m g (storeFiring maths m g 0 b.first (startBlock m g b.azimuth d)) = true := by
        rcases off with none | off
        · rw [none] at second
          exact absurd second.symm (Option.some_ne_none pair)
        · by_contra going
          exact off ⟨space, Bool.eq_false_iff.mpr going⟩
      simp only [stop, if_true]
  · exact ⟨[], by rw [if_neg space]; rfl, .inr space⟩

/-- Scans once sent stay as they are. -/
theorem blocks_sent (blocks : List Block) (d : Decoder) :
    d.sent <+: (blocks.foldl (fun d b => takeBlock maths m g b d) d).sent := by
  induction blocks generalizing d with
  | nil => exact List.prefix_refl _
  | cons b rest ih =>
    rw [List.foldl_cons]
    exact ((startBlock_passes b.azimuth d).sent.trans (takeBlock_sent maths m g b d)).trans (ih _)

variable {Inv : Decoder → Frames Firing → Prop}

/-- The frames are closed where something is sent. -/
theorem Kept.passes (kept : Kept maths m g Inv) {d' : Decoder} (passes : Passes m g d d')
    (holds : Inv d f) : Inv d' (f.closeIf d d') := by
  rcases passes with same | ⟨e, before, after⟩
  · rw [Frames.closeIf, if_pos (by rw [same.sent])]
    exact kept.azimuths d d' f same holds
  · have sent : d'.sent = d.sent ++ [scanOf m g e] := by
      rw [after.sent, sendPointCloud_sent, before.sent]
    rw [Frames.closeIf, if_neg (by simp [sent])]
    exact kept.azimuths _ d' _ after (kept.send e f (kept.azimuths d e f before holds))

theorem closeIf_same {before after : Decoder} (same : after.sent = before.sent) :
    f.closeIf before after = f := by
  rw [Frames.closeIf, if_pos (by rw [same])]

theorem closeIf_congr {a a' b b' : Decoder} (before : a'.sent = a.sent) (after : b'.sent = b.sent) :
    f.closeIf a' b' = f.closeIf a b := by
  rw [Frames.closeIf, before, after, Frames.closeIf]

/-- One block. -/
theorem Kept.block (kept : Kept maths m g Inv) {b : Block} (whole : b.Whole m) (holds : Inv d f) :
    Inv (takeBlock maths m g b d) (receiveBlock maths m g b d f) := by
  have started := kept.passes (startBlock_passes b.azimuth d) holds
  rw [receiveBlock]
  generalize f.closeIf d (startBlock m g b.azimuth d) = f' at started ⊢
  rw [takeBlock]
  generalize startBlock m g b.azimuth d = head at started ⊢
  by_cases space : room m head
  · rw [if_pos space, takeReturns]
    have first := kept.firing head f' b.first whole.1 started
    obtain ⟨sent, -⟩ := storeFiring_frame maths m g b.first 0 head
    generalize storeFiring maths m g 0 b.first head = d₁ at first sent ⊢
    cases second : b.second with
    | none => exact first
    | some pair =>
      obtain ⟨next, returns⟩ := pair
      by_cases stop : full m g d₁ = true
      · simp only [if_pos stop]
        rw [closeIf_same sent]
        exact kept.ignored _ _ _ (.inl stop) first
      · simp only [if_neg stop]
        have passed := kept.passes (interpolate_passes next d₁) first
        have fired := kept.firing _ _ returns (whole.2 next returns second) passed
        obtain ⟨after, -, azimuth, -⟩ := storeFiring_frame maths m g returns 0
          (interpolate m g next d₁)
        rw [azimuth, closeIf_congr sent.symm after]
        exact fired
  · rw [if_neg space, closeIf_same rfl]
    have first := kept.ignored head f' ⟨head.currentAzimuth, b.first⟩ (.inr space) started
    cases second : b.second with
    | none => exact first
    | some pair => exact kept.ignored _ _ _ (.inr space) first

/-- A whole run. -/
theorem Kept.run (kept : Kept maths m g Inv) {blocks : List Block}
    (whole : ∀ b ∈ blocks, b.Whole m) (holds : Inv d f) :
    Inv (blocks.foldl (fun d b => takeBlock maths m g b d) d) (framesOf maths m g blocks d f) := by
  induction blocks generalizing d f with
  | nil => exact holds
  | cons b rest ih =>
    rw [List.foldl_cons, framesOf]
    exact ih (fun other there => whole other (List.mem_cons_of_mem _ there))
      (kept.block (whole b List.mem_cons_self) holds)

variable {P : Firing → Prop}

/-- The two firings of a block. -/
theorem receiveBlock_each {b : Block} (each : f.Each P)
    (first : P ⟨(startBlock m g b.azimuth d).currentAzimuth, b.first⟩)
    (second : ∀ next returns, b.second = some (next, returns) →
      P ⟨(takeBlock maths m g b d).currentAzimuth, returns⟩) :
    (receiveBlock maths m g b d f).Each P := by
  have received := (each.closeIf d (startBlock m g b.azimuth d)).receive first
  rw [receiveBlock]
  cases eq : b.second with
  | none => exact received
  | some pair =>
    obtain ⟨next, returns⟩ := pair
    exact (received.closeIf _ _).receive (second next returns eq)

/-- What every block gives is received. -/
theorem framesOf_whole {blocks : List Block} (whole : ∀ b ∈ blocks, b.Whole m)
    (each : f.Each fun firing => firing.returns.length = m.sensors) :
    (framesOf maths m g blocks d f).Each fun firing => firing.returns.length = m.sensors := by
  induction blocks generalizing d f with
  | nil => exact each
  | cons b rest ih =>
    have one := whole b List.mem_cons_self
    rw [framesOf]
    exact ih (fun other there => whole other (List.mem_cons_of_mem _ there))
      (receiveBlock_each each one.1 one.2)

/-- A device whose firings fill the 32 returns of a block. -/
def Device.Fits (m : Device) : Prop :=
  m.interpolates = true ∧ m.sensors = 16 ∨ m.interpolates = false ∧ m.sensors = 32

theorem fits_VLP16 : VLP16.Fits := .inl ⟨rfl, rfl⟩
theorem fits_HDL32E : HDL32E.Fits := .inr ⟨rfl, rfl⟩

theorem fits_of_mem (device : m ∈ [VLP16, HDL32E]) : m.Fits := by
  rcases List.mem_pair.mp device with rfl | rfl
  · exact fits_VLP16
  · exact fits_HDL32E

theorem blocks_whole (fits : m.Fits) (payloads : List Bytes) :
    ∀ b ∈ payloads.flatMap (blocksOf m), b.Whole m := by
  have count : ∀ payload blockID start count,
      (blockReturns payload blockID start count).length = count := by
    intro payload blockID start count
    rw [blockReturns, List.length_map, List.length_range']
  intro b there
  obtain ⟨payload, -, there⟩ := List.mem_flatMap.mp there
  obtain ⟨blockID, -, rfl⟩ := List.mem_map.mp there
  rcases fits with ⟨interpolates, sensors⟩ | ⟨plain, sensors⟩
  · rw [blockOf, if_pos interpolates]
    refine ⟨by rw [count, sensors], ?_⟩
    rintro next returns eq
    obtain ⟨rfl, rfl⟩ := Prod.mk.inj (Option.some.inj eq)
    rw [count, sensors]
  · rw [blockOf, if_neg (by simp [plain])]
    refine ⟨by rw [count, sensors], ?_⟩
    intro next returns eq
    cases eq

end Steps

end OpendlvCore.Velodyne
