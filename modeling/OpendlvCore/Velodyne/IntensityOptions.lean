import OpendlvCore.Velodyne.CompactClouds
import OpendlvCore.Velodyne.Lockstep

/-!
# The intensity options of the compact point clouds

With option 2 a decoder sends what it sends with option 0 and what it sends with option 1.
-/
namespace OpendlvCore.Velodyne
open CBytes

def Settings.withOption (g : Settings) (option : Nat) : Settings :=
  { g with CPCIntensityOption := option }

/-- The compact point clouds of a scan, in the order in which they are sent. -/
def Scan.compact (scan : Scan) : List CompactPointCloud := scan.noIntensity ++ scan.withIntensity

/-- One kind of clouds is written and sent in the same way. -/
structure Alike (kind : Kind) (d d' : Decoder) : Prop extends SameAzimuths d d' where
  spc : d'.spc = d.spc
  startAzimuth : d'.cpc.startAzimuth = d.cpc.startAzimuth
  writer : kind.writer d'.cpc = kind.writer d.cpc
  clouds : d'.sent.map kind.clouds = d.sent.map kind.clouds

section Options
variable {maths : Maths} {m : Device} {g : Settings} {kind : Kind} {option option' : Nat}
  {d d' : Decoder}

theorem Alike.pointIndex (alike : Alike kind d d') : d'.cpc.pointIndex = d.cpc.pointIndex := by
  rw [← writer_pointIndex kind d.cpc, ← writer_pointIndex kind d'.cpc, alike.writer]

theorem compactPointClouds_congr (alike : Alike kind d d') {distances distances' : Nat → Bytes}
    (same : distances' = distances) (bits : Nat) :
    compactPointClouds m (g.withOption option') d' distances' bits =
      compactPointClouds m (g.withOption option) d distances bits := by
  simp only [compactPointClouds, alike.startAzimuth, alike.previousAzimuth, same]
  rfl

theorem scanOf_congr (on : kind.enabled (g.withOption option))
    (on' : kind.enabled (g.withOption option')) (alike : Alike kind d d') :
    kind.clouds (scanOf m (g.withOption option') d') =
      kind.clouds (scanOf m (g.withOption option) d) := by
  have streams := congrArg Writer.streams alike.writer
  cases kind with
  | noIntensity =>
    have sends : (g.withOption option).withCPC = true ∧
        (g.withOption option).CPCIntensityOption ≠ 1 := ⟨on.1, by have := on.2; omega⟩
    have sends' : (g.withOption option').withCPC = true ∧
        (g.withOption option').CPCIntensityOption ≠ 1 := ⟨on'.1, by have := on'.2; omega⟩
    simp only [Kind.clouds, scanOf, if_pos sends, if_pos sends']
    exact compactPointClouds_congr alike streams 0
  | withIntensity =>
    have sends : (g.withOption option).withCPC = true ∧
        (g.withOption option).CPCIntensityOption ≠ 0 := ⟨on.1, by have := on.2; omega⟩
    have sends' : (g.withOption option').withCPC = true ∧
        (g.withOption option').CPCIntensityOption ≠ 0 := ⟨on'.1, by have := on'.2; omega⟩
    simp only [Kind.clouds, scanOf, if_pos sends, if_pos sends']
    exact compactPointClouds_congr alike streams g.numberOfBitsForIntensity

variable (maths m) in
theorem alike_synchronous (on : kind.enabled (g.withOption option))
    (on' : kind.enabled (g.withOption option')) :
    Synchronous maths m (g.withOption option) (g.withOption option') (Alike kind) where
  same alike := alike.toSameAzimuths
  turned alike clouds clouds' azimuths :=
    { toSameAzimuths := azimuths
      spc := by rw [clouds.spc, clouds'.spc, alike.spc]
      startAzimuth := by rw [clouds.cpc, clouds'.cpc, alike.startAzimuth]
      writer := by rw [clouds.cpc, clouds'.cpc, alike.writer]
      clouds := by rw [clouds.sent, clouds'.sent, alike.clouds] }
  send {d d'} alike :=
    { toSameAzimuths :=
        ⟨alike.previousAzimuth, alike.currentAzimuth, alike.nextAzimuth, alike.deltaAzimuth⟩
      spc := by
        simp only [sendPointCloud, alike.spc]
        rfl
      startAzimuth := by
        have withCPC : g.withCPC = true := by
          cases kind <;> exact on.1
        have withCPC' : ∀ option, (g.withOption option).withCPC = true := fun _ => withCPC
        simp only [sendPointCloud, withCPC', if_true, alike.currentAzimuth]
      writer := by rw [sendPointCloud_writer on, sendPointCloud_writer on', alike.writer]
      clouds := by
        rw [sendPointCloud_sent, sendPointCloud_sent, List.map_append, List.map_append,
          alike.clouds, List.map_singleton, List.map_singleton, scanOf_congr on on' alike] }
  stored sensorID r alike :=
    { toSameAzimuths :=
        ⟨alike.previousAzimuth, alike.currentAzimuth, alike.nextAzimuth, alike.deltaAzimuth⟩
      spc := by
        simp only [storeReturn, alike.spc, alike.currentAzimuth]
        rfl
      startAzimuth := by
        simp only [storeReturn, storeCPC_startAzimuth, alike.startAzimuth]
      writer := by
        simp only [storeReturn]
        rw [storeCPC_writer on, storeCPC_writer on', alike.writer]
        rfl
      clouds := alike.clouds }
  full {d d'} alike := by
    simp only [full, alike.spc, alike.pointIndex]
    rfl
  room alike := by rw [room, room, alike.spc, alike.pointIndex]

/-- Without compact point clouds the option does not matter. -/
theorem same_synchronous (off : g.withCPC = false) :
    Synchronous maths m (g.withOption option) (g.withOption option') fun d d' => d' = d where
  same same := by subst same; exact ⟨rfl, rfl, rfl, rfl⟩
  turned {d d' e e'} same clouds clouds' azimuths := by
    subst same
    have spc : e'.spc = e.spc := clouds'.spc.trans clouds.spc.symm
    have cpc : e'.cpc = e.cpc := clouds'.cpc.trans clouds.cpc.symm
    have sent : e'.sent = e.sent := clouds'.sent.trans clouds.sent.symm
    obtain ⟨previous, current, next, delta⟩ := azimuths
    cases e
    cases e'
    simp only at previous current next delta spc cpc sent
    rw [previous, current, next, delta, spc, cpc, sent]
  send := by
    rintro d d' rfl
    simp [sendPointCloud, scanOf, Settings.withOption, off]
  stored := by
    rintro d d' sensorID r rfl
    simp [storeReturn, storeCPC, storeSPC, Settings.withOption, off]
    rfl
  full := by
    rintro d d' rfl
    rfl
  room := by
    rintro d d' rfl
    rfl

/-! ## Runs -/

variable (maths m g) in
/-- What is sent is the scan of some state. -/
theorem kept_scanOf : Kept maths m g fun d _ => ∀ scan ∈ d.sent, ∃ e, scan = scanOf m g e where
  azimuths d d' f same sent := by rwa [same.sent]
  send d f sent := by
    intro scan there
    rw [sendPointCloud_sent, List.mem_append, List.mem_singleton] at there
    rcases there with before | last
    · exact sent scan before
    · exact ⟨d, last⟩
  firing d f returns _ sent := by rwa [(storeFiring_frame maths m g returns 0 d).1]
  ignored d f firing _ sent := sent

variable (maths) in
/-- A decoder sends no clouds of the other kind. -/
theorem run_compact (fits : m.Fits) (memory : Nat → ℚ) {payloads : List Bytes}
    (length : ∀ payload ∈ payloads, payload.length = 1206)
    (ran : run maths m (g.withOption option) (fresh memory) payloads = some d) :
    ∀ scan ∈ d.sent,
      (option = 0 ∨ g.withCPC = false → scan.withIntensity = []) ∧
      (option = 1 ∨ g.withCPC = false → scan.noIntensity = []) := by
  intro scan there
  rw [run_eq payloads length, Option.some.injEq] at ran
  have all := (kept_scanOf maths m (g.withOption option)).run (blocks_whole fits payloads)
    (d := fresh memory) (f := {}) (fun _ none => absurd none List.not_mem_nil)
  rw [ran] at all
  obtain ⟨e, rfl⟩ := all scan there
  constructor
  · rintro (rfl | off)
    · exact if_neg fun sends => sends.2 rfl
    · exact if_neg fun sends => absurd (off.symm.trans sends.1) Bool.false_ne_true
  · rintro (rfl | off)
    · exact if_neg fun sends => sends.2 rfl
    · exact if_neg fun sends => absurd (off.symm.trans sends.1) Bool.false_ne_true

variable (maths kind) in
/-- Two options with clouds of one kind. -/
theorem run_alike (on : g.withCPC = true → kind.enabled (g.withOption option))
    (on' : g.withCPC = true → kind.enabled (g.withOption option')) (memory : Nat → ℚ)
    {payloads : List Bytes} (length : ∀ payload ∈ payloads, payload.length = 1206)
    (ran : run maths m (g.withOption option) (fresh memory) payloads = some d)
    (ran' : run maths m (g.withOption option') (fresh memory) payloads = some d') :
    d'.sent.map kind.clouds = d.sent.map kind.clouds := by
  rw [run_eq payloads length, Option.some.injEq] at ran ran'
  rw [← ran, ← ran']
  cases withCPC : g.withCPC with
  | true =>
    have start : Alike kind (fresh memory) (fresh memory) := ⟨⟨rfl, rfl, rfl, rfl⟩, rfl, rfl, rfl, rfl⟩
    exact ((alike_synchronous maths m (on withCPC) (on' withCPC)).blocks _ start).clouds
  | false => rw [(same_synchronous withCPC).blocks _ rfl]

end Options

/-- With option 2, each scan consists of the clouds without intensity that option 0 sends and then
the clouds with intensity that option 1 sends. -/
theorem option_two_sends_both (maths : Maths) {m : Device} (device : m ∈ [VLP16, HDL32E])
    (g : Settings) (memory : Nat → ℚ) {payloads : List Bytes}
    (length : ∀ payload ∈ payloads, payload.length = 1206) :
    ∃ d₀ d₁ d₂, run maths m (g.withOption 0) (fresh memory) payloads = some d₀ ∧
      run maths m (g.withOption 1) (fresh memory) payloads = some d₁ ∧
      run maths m (g.withOption 2) (fresh memory) payloads = some d₂ ∧
      d₀.sent.length = d₂.sent.length ∧ d₁.sent.length = d₂.sent.length ∧
      (∀ scan ∈ d₀.sent, scan.compact = scan.noIntensity) ∧
      (∀ scan ∈ d₁.sent, scan.compact = scan.withIntensity) ∧
      d₂.sent.map Scan.compact =
        List.zipWith (· ++ ·) (d₀.sent.map Scan.compact) (d₁.sent.map Scan.compact) := by
  have fits := fits_of_mem device
  have ran : ∀ option, run maths m (g.withOption option) (fresh memory) payloads =
      some ((payloads.flatMap (blocksOf m)).foldl
        (fun d b => takeBlock maths m (g.withOption option) b d) (fresh memory)) :=
    fun option => run_eq payloads length (fresh memory)
  have without := run_alike maths .noIntensity (fun on => ⟨on, .inl rfl⟩)
    (fun on => ⟨on, .inr rfl⟩) memory length (ran 0) (ran 2)
  have with' := run_alike maths .withIntensity (fun on => ⟨on, .inl rfl⟩)
    (fun on => ⟨on, .inr rfl⟩) memory length (ran 1) (ran 2)
  have only₀ := run_compact maths fits memory length (ran 0)
  have only₁ := run_compact maths fits memory length (ran 1)
  refine ⟨_, _, _, ran 0, ran 1, ran 2, ?_⟩
  generalize (payloads.flatMap (blocksOf m)).foldl
    (fun d b => takeBlock maths m (g.withOption 0) b d) (fresh memory) = d₀ at without only₀ ⊢
  generalize (payloads.flatMap (blocksOf m)).foldl
    (fun d b => takeBlock maths m (g.withOption 1) b d) (fresh memory) = d₁ at with' only₁ ⊢
  generalize (payloads.flatMap (blocksOf m)).foldl
    (fun d b => takeBlock maths m (g.withOption 2) b d) (fresh memory) = d₂ at without with' ⊢
  have compact₀ : ∀ scan ∈ d₀.sent, scan.compact = scan.noIntensity := fun scan there => by
    rw [Scan.compact, (only₀ scan there).1 (.inl rfl), List.append_nil]
  have compact₁ : ∀ scan ∈ d₁.sent, scan.compact = scan.withIntensity := fun scan there => by
    rw [Scan.compact, (only₁ scan there).2 (.inl rfl), List.nil_append]
  refine ⟨?_, ?_, compact₀, compact₁, ?_⟩
  · simpa using (congrArg List.length without).symm
  · simpa using (congrArg List.length with').symm
  · calc d₂.sent.map Scan.compact
      _ = List.zipWith (· ++ ·) (d₂.sent.map Scan.noIntensity) (d₂.sent.map Scan.withIntensity) := by
        rw [List.zipWith_map, List.zipWith_self]
        rfl
      _ = List.zipWith (· ++ ·) (d₀.sent.map Scan.noIntensity) (d₁.sent.map Scan.withIntensity) :=
        congrArg₂ (List.zipWith (· ++ ·)) without with'
      _ = _ := by rw [List.map_congr_left compact₀, List.map_congr_left compact₁]

theorem option_two_sends_both_two_packets :
    ∃ d₀ d₁ d₂,
      run .atZero HDL32E ((compactOnly HDL32E (fun i => i) 0 4 0 1).withOption 0) (fresh fun _ => 0)
        [List.replicate 1206 255, List.replicate 1206 0] = some d₀ ∧
      run .atZero HDL32E ((compactOnly HDL32E (fun i => i) 0 4 0 1).withOption 1) (fresh fun _ => 0)
        [List.replicate 1206 255, List.replicate 1206 0] = some d₁ ∧
      run .atZero HDL32E ((compactOnly HDL32E (fun i => i) 0 4 0 1).withOption 2) (fresh fun _ => 0)
        [List.replicate 1206 255, List.replicate 1206 0] = some d₂ ∧
      d₀.sent.length = d₂.sent.length ∧ d₁.sent.length = d₂.sent.length ∧
      (∀ scan ∈ d₀.sent, scan.compact = scan.noIntensity) ∧
      (∀ scan ∈ d₁.sent, scan.compact = scan.withIntensity) ∧
      d₂.sent.map Scan.compact =
        List.zipWith (· ++ ·) (d₀.sent.map Scan.compact) (d₁.sent.map Scan.compact) := by
  exact option_two_sends_both .atZero (m := HDL32E) (List.mem_cons_of_mem _ List.mem_cons_self)
    (compactOnly HDL32E (fun i => i) 0 4 0 1) (fun _ => 0) length_two_packets

end OpendlvCore.Velodyne
