import OpendlvCore.Velodyne.Bearings
import OpendlvCore.Velodyne.IntensityWords

/-!
# The ends of a compact point cloud

A cloud ends at the azimuth of the last firing received for it, stored or not, as the decoder takes
it. It starts at the azimuth at which the cloud before was sent; nothing sets the start of the first
one. What the firings themselves say is in their packets.
-/
namespace OpendlvCore.Velodyne
open CBytes

section Definitions

/-- The start and the end of a cloud are those of these firings, up to full turns. -/
structure Describes (cloud : CompactPointCloud) (bearings : List Bearing) : Prop where
  start : ∀ b, bearings.head? = some b → SameAngle cloud.startAzimuth b.azimuth
  stop : ∀ b, bearings.getLast? = some b → SameAngle cloud.endAzimuth b.azimuth

/-- Of the firings received for the scan with this number, `cap` of which fit: the azimuth that the
state before its block gives the first one is its own (in the first scan: it is at 0 degrees), and
the one that the last firing is given is that of the last one that fits. -/
structure Keeps (i cap : Nat) (bearings : List Bearing) : Prop where
  start : ∀ b, bearings.head? = some b → SameAngle (if i = 0 then 0 else b.carried) b.azimuth
  stop : ∀ last contained, bearings.getLast? = some last →
    (bearings.take cap).getLast? = some contained → SameAngle last.carried contained.azimuth

/-- What is sent instead, for the firings received for the scan with this number. -/
structure Ends (i : Nat) (firings : List Firing) (cloud : CompactPointCloud) : Prop where
  start : ∀ firing, firings.head? = some firing →
    cloud.startAzimuth = if i = 0 then 0 else firing.azimuth
  stop : ∀ firing, firings.getLast? = some firing → cloud.endAzimuth = firing.azimuth

/-- The azimuths kept for the next scan, and those sent. -/
structure Spans (d : Decoder) (f : Frames Firing) : Prop where
  start : ∀ firing, f.current.head? = some firing →
    d.cpc.startAzimuth = if f.closed = [] then 0 else firing.azimuth
  last : ∀ firing, f.current.getLast? = some firing → d.previousAzimuth = firing.azimuth
  /-- Before the first firing. -/
  idle : f.current = [] →
    f.closed = [] ∧ d.previousAzimuth = 0 ∧ 0 ≤ d.nextAzimuth ∧ d.cpc.startAzimuth = 0
  received : ∀ firings ∈ f.closed, firings ≠ []
  length : d.sent.length = f.closed.length
  sent : ∀ i scan firings, d.sent[i]? = some scan → f.closed[i]? = some firings →
    ∀ cloud ∈ scan.noIntensity ++ scan.withIntensity, Ends i firings cloud

end Definitions

section Steps
variable {maths : Maths} {m : Device} {g : Settings} {d e e' : Decoder} {f : Frames Firing}

/-- A firing for the scan that has been begun. -/
theorem Spans.receive (spans : Spans d f) (start : e.cpc.startAzimuth = d.cpc.startAzimuth)
    (sent : e.sent = d.sent) (level : e.previousAzimuth = e.currentAzimuth)
    (returns : List Return) : Spans e (f.receive ⟨e.currentAzimuth, returns⟩) where
  start firing first := by
    change (f.current ++ [_]).head? = some firing at first
    rw [start]
    cases current : f.current with
    | nil =>
      obtain ⟨closed, -, -, zero⟩ := spans.idle current
      rw [zero]
      exact (if_pos closed).symm
    | cons one rest =>
      apply spans.start
      rwa [current] at first ⊢
  last firing last := by
    change (f.current ++ [_]).getLast? = some firing at last
    rw [List.getLast?_concat] at last
    rw [level, ← Option.some.inj last]
  idle none := absurd none (List.append_ne_nil_of_right_ne_nil _ (List.cons_ne_nil _ _))
  received := spans.received
  length := by rw [sent]; exact spans.length
  sent := by rw [sent]; exact spans.sent

/-- A scan is sent, and a firing is received for the next one. -/
theorem Spans.close (spans : Spans d f) (nonempty : f.current ≠ [])
    (start : e.cpc.startAzimuth = d.cpc.startAzimuth)
    (previous : e.previousAzimuth = d.previousAzimuth)
    (sent : e'.sent = d.sent ++ [scanOf m g e])
    (start' : e'.cpc.startAzimuth = e'.currentAzimuth)
    (level : e'.previousAzimuth = e'.currentAzimuth) (returns : List Return) :
    Spans e' (f.close.receive ⟨e'.currentAzimuth, returns⟩) where
  start firing first := by
    change some (Firing.mk e'.currentAzimuth returns) = some firing at first
    have closed : (f.close.receive ⟨e'.currentAzimuth, returns⟩).closed ≠ [] :=
      List.append_ne_nil_of_right_ne_nil _ (List.cons_ne_nil _ _)
    rw [if_neg closed, start', ← Option.some.inj first]
  last firing last := by
    change some (Firing.mk e'.currentAzimuth returns) = some firing at last
    rw [level, ← Option.some.inj last]
  idle none := absurd none (List.cons_ne_nil _ _)
  received firings there := by
    rcases List.mem_append.mp there with before | last
    · exact spans.received firings before
    · rwa [List.mem_singleton.mp last]
  length := by
    change e'.sent.length = (f.closed ++ [f.current]).length
    rw [sent, List.length_append, List.length_append, spans.length]
    rfl
  sent i scan firings there there' cloud among := by
    change (f.closed ++ [f.current])[i]? = some firings at there'
    rw [sent] at there
    by_cases before : i < d.sent.length
    · rw [List.getElem?_append_left before] at there
      rw [List.getElem?_append_left (by rwa [← spans.length])] at there'
      exact spans.sent i scan firings there there' cloud among
    · obtain ⟨inside, -⟩ := List.getElem?_eq_some_iff.mp there
      rw [List.length_append, List.length_singleton] at inside
      have last : i = d.sent.length := by omega
      rw [last, List.getElem?_concat_length] at there
      rw [last, spans.length, List.getElem?_concat_length] at there'
      cases there
      cases there'
      obtain ⟨first, stop⟩ := scanOf_ends cloud among
      constructor
      · intro firing head
        rw [first, start, spans.start firing head, last, spans.length]
        simp only [List.length_eq_zero_iff]
      · intro firing head
        rw [stop, previous, spans.last firing head]

/-- The same scan, and nothing received. -/
theorem Spans.same (spans : Spans d f) (start : e.cpc.startAzimuth = d.cpc.startAzimuth)
    (sent : e.sent = d.sent) (previous : e.previousAzimuth = d.previousAzimuth)
    (nonempty : f.current ≠ []) : Spans e f where
  start := by rw [start]; exact spans.start
  last := by rw [previous]; exact spans.last
  idle none := absurd none nonempty
  received := spans.received
  length := by rw [sent]; exact spans.length
  sent := by rw [sent]; exact spans.sent

variable (maths m g) in
theorem storeFiring_startAzimuth (returns : List Return) (sensorID : Nat) (d : Decoder) :
    (storeFiring maths m g sensorID returns d).cpc.startAzimuth = d.cpc.startAzimuth := by
  induction returns generalizing sensorID d with
  | nil => rfl
  | cons r rest ih =>
    have one : (storeReturn maths m g sensorID r d).cpc.startAzimuth = d.cpc.startAzimuth :=
      storeCPC_startAzimuth sensorID r d.cpc
    rw [storeFiring]
    split
    · exact one
    · rw [ih, one]

variable (maths m g) in
theorem Spans.firing (spans : Spans d f) (nonempty : f.current ≠ []) (returns : List Return) :
    Spans (storeFiring maths m g 0 returns d) f := by
  obtain ⟨sent, previous, -⟩ := storeFiring_frame maths m g returns 0 d
  exact spans.same (storeFiring_startAzimuth maths m g returns 0 d) sent previous nonempty

variable (m) in
theorem sendPointCloud_startAzimuth (withCPC : g.withCPC = true) (d : Decoder) :
    (sendPointCloud m g d).cpc.startAzimuth = d.currentAzimuth := by
  rw [sendPointCloud, if_pos withCPC]

/-- The head of a block and its first firing. -/
theorem Spans.startBlock (spans : Spans d f) (withCPC : g.withCPC = true) {azimuth : Option ℚ}
    (encoded : ∀ a, azimuth = some a → 0 ≤ a) (returns : List Return) :
    Spans (startBlock m g azimuth d) ((f.closeIf d (startBlock m g azimuth d)).receive
      ⟨(startBlock m g azimuth d).currentAzimuth, returns⟩) := by
  by_cases wraps : headOf azimuth d.nextAzimuth < d.previousAzimuth
  · have nonempty : f.current ≠ [] := by
      intro none
      obtain ⟨-, previous, ahead, -⟩ := spans.idle none
      have head : 0 ≤ headOf azimuth d.nextAzimuth := by
        cases azimuth with
        | some a => exact encoded a rfl
        | none =>
          simp only [headOf]
          split <;> linarith
      rw [previous] at wraps
      exact absurd head (not_le.mpr wraps)
    have started := startBlock_of_lt (m := m) (g := g) azimuth d wraps
    have sent : (Velodyne.startBlock m g azimuth d).sent = d.sent ++
        [scanOf m g { d with currentAzimuth := headOf azimuth d.nextAzimuth }] := by
      rw [started]
      rfl
    rw [closeIf_send sent]
    refine spans.close nonempty ?_ ?_ sent ?_ ?_ returns
    · rfl
    · rfl
    · rw [started]
      exact sendPointCloud_startAzimuth m withCPC _
    · rw [started]
      rfl
  · have started := startBlock_of_le (m := m) (g := g) azimuth d wraps
    have sent : (Velodyne.startBlock m g azimuth d).sent = d.sent := by rw [started]
    rw [closeIf_same sent]
    refine spans.receive ?_ sent ?_ returns
    · rw [started]
    · rw [started]

/-- The middle of a block and its second firing. -/
theorem Spans.interpolate (spans : Spans d f) (nonempty : f.current ≠ []) (withCPC : g.withCPC = true)
    (next : Option ℚ) (returns : List Return) :
    Spans (interpolate m g next d) ((f.closeIf d (interpolate m g next d)).receive
      ⟨(interpolate m g next d).currentAzimuth, returns⟩) := by
  obtain ⟨-, cpc, same⟩ := halfWay_same next d
  have previous : (halfWay next d).previousAzimuth = d.previousAzimuth := by
    cases next <;> rfl
  by_cases wraps : (halfWay next d).currentAzimuth > 360
  · have behind : Velodyne.interpolate m g next d =
        { sendPointCloud m g { halfWay next d with
            currentAzimuth := (halfWay next d).currentAzimuth - 360 } with
          previousAzimuth := (halfWay next d).currentAzimuth - 360 } := by
      unfold Velodyne.interpolate
      simp only [if_pos wraps]
      rfl
    have sent : (Velodyne.interpolate m g next d).sent = d.sent ++ [scanOf m g
        { halfWay next d with currentAzimuth := (halfWay next d).currentAzimuth - 360 }] := by
      rw [behind, ← same]
      rfl
    rw [closeIf_send sent]
    refine spans.close nonempty ?_ previous sent ?_ ?_ returns
    · rw [cpc]
    · rw [behind]
      exact sendPointCloud_startAzimuth m withCPC _
    · rw [behind]
      rfl
  · have inside : Velodyne.interpolate m g next d =
        { halfWay next d with previousAzimuth := (halfWay next d).currentAzimuth } := by
      unfold Velodyne.interpolate
      simp only [if_neg wraps]
    have sent : (Velodyne.interpolate m g next d).sent = d.sent := by rw [inside, ← same]
    rw [closeIf_same sent]
    refine spans.receive ?_ sent ?_ returns
    · rw [inside, ← cpc]
    · rw [inside]

variable (maths) in
/-- One block, read to its end, broken off or skipped. -/
theorem Spans.block (spans : Spans d f) (withCPC : g.withCPC = true) {b : Block}
    (encoded : ∀ a, b.azimuth = some a → 0 ≤ a) :
    Spans (takeBlock maths m g b d) (receiveBlock maths m g b d f) := by
  have started := spans.startBlock (m := m) withCPC encoded b.first
  have level : (Velodyne.startBlock m g b.azimuth d).previousAzimuth =
      (Velodyne.startBlock m g b.azimuth d).currentAzimuth := by
    unfold Velodyne.startBlock
    simp only
  rw [receiveBlock]
  generalize f.closeIf d (Velodyne.startBlock m g b.azimuth d) = begun at started ⊢
  have nonempty : (begun.receive ⟨(Velodyne.startBlock m g b.azimuth d).currentAzimuth,
      b.first⟩).current ≠ [] := List.append_ne_nil_of_right_ne_nil _ (List.cons_ne_nil _ _)
  generalize begun.receive ⟨(Velodyne.startBlock m g b.azimuth d).currentAzimuth, b.first⟩ =
    received at started nonempty ⊢
  cases second : b.second with
  | none =>
    obtain ⟨returns, taken, -⟩ : ∃ returns, takeBlock maths m g b d =
        storeFiring maths m g 0 returns _ ∧ _ := takeBlock_of_not_readsOn (.inl second)
    rw [taken]
    exact started.firing maths m g nonempty returns
  | some pair =>
    obtain ⟨next, returns⟩ := pair
    by_cases reads : ReadsOn maths m g b d
    · have one := started.firing maths m g nonempty b.first
      have two := (one.interpolate (m := m) nonempty withCPC next returns).firing maths m g
        (List.append_ne_nil_of_right_ne_nil _ (List.cons_ne_nil _ _)) returns
      obtain ⟨before, -⟩ := storeFiring_frame maths m g b.first 0
        (Velodyne.startBlock m g b.azimuth d)
      obtain ⟨after, -, current, -⟩ := storeFiring_frame maths m g returns 0
        (Velodyne.interpolate m g next (storeFiring maths m g 0 b.first
          (Velodyne.startBlock m g b.azimuth d)))
      rw [takeBlock_of_readsOn second reads, current, closeIf_congr before.symm after]
      exact two
    · obtain ⟨stored, taken, -⟩ := takeBlock_of_not_readsOn (.inr reads)
      obtain ⟨sent, previous, current, -⟩ := storeFiring_frame maths m g stored 0
        (Velodyne.startBlock m g b.azimuth d)
      rw [taken, closeIf_same sent]
      exact started.receive (storeFiring_startAzimuth maths m g stored 0 _) sent
        (by rw [previous, current, level]) returns

variable (maths) in
/-- A whole run. -/
theorem Spans.run (withCPC : g.withCPC = true) {blocks : List Block}
    (encoded : ∀ b ∈ blocks, ∀ a, b.azimuth = some a → 0 ≤ a) (spans : Spans d f) :
    Spans (blocks.foldl (fun d b => takeBlock maths m g b d) d) (framesOf maths m g blocks d f) := by
  induction blocks generalizing d f with
  | nil => exact spans
  | cons b rest ih =>
    rw [List.foldl_cons, framesOf]
    exact ih (fun other there => encoded other (List.mem_cons_of_mem _ there))
      (spans.block maths withCPC (encoded b List.mem_cons_self))

theorem spans_fresh (memory : Nat → ℚ) : Spans (fresh memory) {} where
  start _ first := by cases first
  last _ last := by cases last
  idle _ := ⟨rfl, rfl, le_refl _, rfl⟩
  received _ there := absurd there List.not_mem_nil
  length := rfl
  sent _ _ _ there := by cases there

variable (m) in
/-- No encoded azimuth is negative. -/
theorem blocks_forward (payloads : List Bytes) :
    ∀ b ∈ payloads.flatMap (blocksOf m), ∀ a, b.azimuth = some a → 0 ≤ a := by
  have forward : ∀ payload blockID, 0 ≤ headAzimuth payload blockID := fun _ _ =>
    div_nonneg (Nat.cast_nonneg _) (by norm_num)
  intro b there a eq
  obtain ⟨payload, -, there⟩ := List.mem_flatMap.mp there
  obtain ⟨blockID, -, rfl⟩ := List.mem_map.mp there
  unfold blockOf at eq
  split at eq
  · simp only at eq
    split at eq
    · rw [← Option.some.inj eq]
      exact forward payload blockID
    · cases eq
  · rw [← Option.some.inj eq]
    exact forward payload blockID

/-- When the ends sent are those of the firings that are contained. -/
theorem Ends.describes_iff {i : Nat} {bearings : List Bearing} {cloud : CompactPointCloud} {cap : Nat}
    (ends : Ends i (bearings.map Bearing.firing) cloud) (nonempty : bearings ≠ [])
    (positive : 0 < cap) : Describes cloud (bearings.take cap) ↔ Keeps i cap bearings := by
  have contained : (bearings.take cap).head? = bearings.head? := by
    rw [List.head?_take, if_neg (Nat.pos_iff_ne_zero.mp positive)]
  have start : ∀ b, bearings.head? = some b →
      cloud.startAzimuth = if i = 0 then 0 else b.carried := by
    intro b first
    exact ends.start b.firing (by rw [List.head?_map, first]; rfl)
  have stop : ∀ last, bearings.getLast? = some last → cloud.endAzimuth = last.carried := by
    intro last there
    exact ends.stop last.firing (by rw [List.getLast?_map, there]; rfl)
  constructor
  · intro describes
    constructor
    · intro b first
      rw [← start b first]
      exact describes.start b (contained.trans first)
    · intro last b there fits
      rw [← stop last there]
      exact describes.stop b fits
  · intro keeps
    constructor
    · intro b first
      have whole := contained.symm.trans first
      rw [start b whole]
      exact keeps.start b whole
    · intro b fits
      have there := List.getLast?_eq_some_getLast nonempty
      rw [stop _ there]
      exact keeps.stop _ b there fits

end Steps

/-! ## Results -/

variable (m : Device) in
theorem placedBlocks_uniformPacket {azimuth : Nat → Nat} {r : Return}
    (low : ∀ blockID < 12, azimuth blockID < 2 ^ 16) :
    placedBlocks m (uniformPacket azimuth r) = (List.range 12).map fun blockID =>
      { block := uniformBlock m azimuth r blockID
        head := (azimuth blockID : ℚ) / 100
        middle := (azimuth blockID : ℚ) / 100 + (stepOf azimuth blockID : ℚ) / 200 } := by
  have blocks : ∀ blockID < 12, blockOf m (uniformPacket azimuth r) blockID =
      uniformBlock m azimuth r blockID := fun blockID b =>
    List.map_inj_left.mp (blocksOf_uniformPacket m low) blockID (List.mem_range.mpr b)
  have shown : ∀ blockID < 12, hundredths (uniformPacket azimuth r) blockID = azimuth blockID :=
    fun blockID b => hundredths_uniformPacket b (low blockID b)
  refine List.map_congr_left fun blockID there => ?_
  have b := List.mem_range.mp there
  have step : stepOf (hundredths (uniformPacket azimuth r)) blockID = stepOf azimuth blockID := by
    unfold stepOf
    by_cases last : blockID % 12 = 11
    · rw [if_pos last, if_pos last, shown _ (by omega), shown _ b]
    · rw [if_neg last, if_neg last, shown _ b, shown _ (by omega)]
  rw [placedOf, blocks blockID b, shown blockID b, step]

end OpendlvCore.Velodyne
