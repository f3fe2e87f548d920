import OpendlvCore.Bytes
import OpendlvCore.Rounding
import Mathlib.Algebra.Order.Field.Rat
import Mathlib.Data.Rat.Floor
import Mathlib.Tactic.FieldSimp

/-!
# `ProxyLEDStrip`

Each time slice caps the angle, computes the focus from it and sends a frame to the Arduino.
Aim points arrive in a thread of their own: `m_angle` can change between any two accesses of
`body`. `float` is exact.
-/
namespace OpendlvCore.Ledstrip
open CBytes Rounding

/-- `0.785398f` -/
def limit : ℚ := 785398 / 1000000

/-- `45.0f / 180.0f * static_cast<float>(M_PI)` -/
def quarter : ℚ := 45 / 180 * (13176795 / 2 ^ 22)

def section_size : UInt8 := 50
def fade : UInt8 := 10

/-- The conversion to `uint8_t`, which is undefined for other numbers. -/
def toUInt8 (x : ℤ) : Option UInt8 := if 0 ≤ x ∧ x < 256 then some (UInt8.ofNat x.toNat) else none

/-- The centre of the lighted section, in percent. -/
def focusOf (angle : ℚ) : Option UInt8 := toUInt8 (roundAway (-angle / quarter * 50) + 50)

/-- What `body` does next. -/
inductive Phase
  | test
  | sign
  | cap (angle : ℚ)
  | send
  deriving DecidableEq, Repr

structure ProxyLEDStrip where
  m_angle : ℚ := 0
  m_R : UInt8 := 0
  m_G : UInt8 := 255
  m_B : UInt8 := 0
  phase : Phase := .test
  sent : List Bytes := []
  deriving DecidableEq, Repr

namespace ProxyLEDStrip

/-- `std::fabs(focus - 50) <= 10` -/
def isAhead (focus : UInt8) : Bool := 40 ≤ focus.toNat ∧ focus.toNat ≤ 60

/-- Green ahead, orange elsewhere. -/
def colour (focus : UInt8) : UInt8 × UInt8 × UInt8 := if isAhead focus then (0, 255, 0) else (200, 50, 5)

def ledRequest (p : ProxyLEDStrip) (focus : UInt8) : Bytes :=
  let checksum := focus ^^^ section_size ^^^ fade ^^^ p.m_R ^^^ p.m_G ^^^ p.m_B
  let (R, G, B) := colour focus
  [0xFE, 0xDE, focus, section_size, fade, R, G, B, checksum]

/-- One access of `body` to `m_angle`, and what follows up to the next one. -/
def body (p : ProxyLEDStrip) : Option ProxyLEDStrip :=
  match p.phase with
  | .test => some { p with phase := if limit ≤ |p.m_angle| then .sign else .send }
  | .sign => some { p with phase := .cap (if 0 ≤ p.m_angle then limit else -limit) }
  | .cap angle => some { p with m_angle := angle, phase := .send }
  | .send => do
    let focus ← focusOf p.m_angle
    return { p with phase := .test, sent := p.sent ++ [ledRequest p focus] }

def nextContainer (azimuthAngle : ℚ) (p : ProxyLEDStrip) : ProxyLEDStrip :=
  { p with m_angle := azimuthAngle }

end ProxyLEDStrip

/-- The two threads. -/
inductive Event
  | aimPoint (azimuthAngle : ℚ)
  | body
  deriving DecidableEq, Repr

def step (p : ProxyLEDStrip) : Event → Option ProxyLEDStrip
  | .aimPoint azimuthAngle => some (p.nextContainer azimuthAngle)
  | .body => p.body

/-- Any interleaving; `none` after an undefined conversion. -/
def run : ProxyLEDStrip → List Event → Option ProxyLEDStrip
  | p, [] => some p
  | p, event :: events => (step p event).bind fun p => run p events

/-- What the Arduino expects: the header, and a checksum over all that follows it. -/
def IsFrame (frame : Bytes) : Prop :=
  ∃ focus section_size fade R G B : UInt8, frame = [0xFE, 0xDE, focus, section_size, fade, R, G, B,
    focus ^^^ section_size ^^^ fade ^^^ R ^^^ G ^^^ B]

/-- A frame whose centre lies on the strip. -/
def OnStrip (frame : Bytes) : Prop := ∃ focus, frame[2]? = some focus ∧ focus.toNat ≤ 100

/-- Angles that round to a place on the strip. -/
def InRange (angle : ℚ) : Prop := |angle| < 101 / 100 * quarter

/-- No aim point out of range arrives between the capping and the computation of the focus. -/
def Guarded : ProxyLEDStrip → List Event → Prop
  | _, [] => True
  | p, .aimPoint azimuthAngle :: events =>
    (p.phase = .send → InRange azimuthAngle) ∧ Guarded (p.nextContainer azimuthAngle) events
  | p, .body :: events => ∀ q, p.body = some q → Guarded q events

section Focus
variable {angle : ℚ}

theorem quarter_pos : 0 < quarter := by norm_num [quarter]

theorem inRange_limit : InRange limit ∧ InRange (-limit) := by
  have positive : (0 : ℚ) ≤ limit := by norm_num [limit]
  rw [InRange, InRange, abs_neg, abs_of_nonneg positive]
  norm_num [limit, quarter]

theorem inRange_of_lt (within : |angle| < limit) : InRange angle := by
  have wider := inRange_limit.1
  rw [InRange, abs_of_nonneg (by norm_num [limit])] at wider
  exact within.trans wider

/-- Rounding reaches an integer only from half below it. -/
theorem le_roundAway_iff {x : ℚ} {n : ℤ} (positive : 0 < n) : n ≤ roundAway x ↔ (n : ℚ) - 1 / 2 ≤ x := by
  constructor
  · intro reached
    have up := roundAway_le x
    have cast : (n : ℚ) ≤ roundAway x := by exact_mod_cast reached
    linarith
  · intro near
    have one : (1 : ℚ) ≤ n := by exact_mod_cast positive
    have nonneg : 0 ≤ x := by linarith
    rw [roundAway, if_pos nonneg, Int.le_floor]
    linarith

theorem toUInt8_onStrip (x : ℤ) :
    (∃ focus, toUInt8 x = some focus ∧ focus.toNat ≤ 100) ↔ 0 ≤ x ∧ x ≤ 100 := by
  unfold toUInt8
  by_cases fits : 0 ≤ x ∧ x < 256
  · have value : (UInt8.ofNat x.toNat).toNat = x.toNat := by
      rw [UInt8.toNat_ofNat']
      omega
    rw [if_pos fits]
    simp only [Option.some.injEq, exists_eq_left', value]
    omega
  · rw [if_neg fits]
    constructor
    · rintro ⟨focus, absent, -⟩
      cases absent
    · intro inside
      exact absurd ⟨inside.1, by omega⟩ fits

/-- In halves of a percent, 1 is as far as rounding goes. -/
theorem focusOf_onStrip :
    (∃ focus, focusOf angle = some focus ∧ focus.toNat ≤ 100) ↔ InRange angle := by
  have positive := quarter_pos
  have scale : -angle / quarter * 50 = -(angle / quarter * 50) := by ring
  have right := le_roundAway_iff (x := angle / quarter * 50) (n := 51) (by norm_num)
  have left := le_roundAway_iff (x := -(angle / quarter * 50)) (n := 51) (by norm_num)
  rw [roundAway_neg] at left
  have near : InRange angle ↔ |angle / quarter * 50| < 101 / 2 := by
    rw [abs_mul, abs_div, abs_of_pos positive, abs_of_pos (show (0 : ℚ) < 50 by norm_num), InRange,
      ← lt_div_iff₀ (by norm_num), div_lt_iff₀ positive]
    norm_num
  rw [focusOf, toUInt8_onStrip, scale, roundAway_neg, near, abs_lt]
  generalize angle / quarter * 50 = x at right left
  push_cast at right left
  constructor
  · rintro ⟨low, high⟩
    constructor
    · by_contra far
      have := left.mpr (by linarith)
      omega
    · by_contra far
      have := right.mpr (by linarith)
      omega
  · rintro ⟨low, high⟩
    constructor
    · by_contra far
      have := right.mp (by omega)
      linarith
    · by_contra far
      have := left.mp (by omega)
      linarith

end Focus

section Frames
open ProxyLEDStrip
variable {p : ProxyLEDStrip}

/-- The checksum is that of the constructor's colour, and holds for the two colours sent because
these have the same sum. -/
theorem isFrame_ledRequest (p : ProxyLEDStrip) (focus : UInt8) :
    IsFrame (p.ledRequest focus) ↔ p.m_R ^^^ p.m_G ^^^ p.m_B = 255 := by
  have payload : (colour focus).1 ^^^ (colour focus).2.1 ^^^ (colour focus).2.2 = 255 := by
    rw [colour]
    split <;> rfl
  have valid : IsFrame (p.ledRequest focus) ↔
      focus ^^^ section_size ^^^ fade ^^^ p.m_R ^^^ p.m_G ^^^ p.m_B = focus ^^^ section_size ^^^ fade ^^^
        (colour focus).1 ^^^ (colour focus).2.1 ^^^ (colour focus).2.2 := by
    constructor
    · rintro ⟨_, _, _, _, _, _, frame⟩
      simp only [ledRequest, List.cons.injEq, and_true, true_and] at frame
      obtain ⟨rfl, rfl, rfl, rfl, rfl, rfl, checksum⟩ := frame
      exact checksum
    · intro checksum
      exact ⟨focus, section_size, fade, (colour focus).1, (colour focus).2.1, (colour focus).2.2,
        by rw [ledRequest, checksum]⟩
  rw [valid, UInt8.xor_assoc _ p.m_G, UInt8.xor_assoc _ p.m_R, UInt8.xor_assoc _ (colour focus).2.1,
    UInt8.xor_assoc _ (colour focus).1, ← UInt8.xor_assoc p.m_R, ← UInt8.xor_assoc (colour focus).1,
    payload, UInt8.xor_right_inj]

theorem onStrip_ledRequest (p : ProxyLEDStrip) (focus : UInt8) :
    OnStrip (p.ledRequest focus) ↔ focus.toNat ≤ 100 := by
  have second : (p.ledRequest focus)[2]? = some focus := rfl
  rw [OnStrip, second]
  simp

/-- What every access keeps. -/
structure Sound (p : ProxyLEDStrip) : Prop where
  colour : p.m_R ^^^ p.m_G ^^^ p.m_B = 255
  frames : ∀ frame ∈ p.sent, IsFrame frame

theorem Sound.step (sound : Sound p) {event : Event} {q : ProxyLEDStrip}
    (next : step p event = some q) : Sound q := by
  cases event with
  | aimPoint azimuthAngle =>
    obtain rfl := Option.some.inj next
    exact ⟨sound.colour, sound.frames⟩
  | body =>
    simp only [Ledstrip.step, body] at next
    split at next
    · obtain rfl := Option.some.inj next
      exact ⟨sound.colour, sound.frames⟩
    · obtain rfl := Option.some.inj next
      exact ⟨sound.colour, sound.frames⟩
    · obtain rfl := Option.some.inj next
      exact ⟨sound.colour, sound.frames⟩
    · obtain ⟨focus, -, sent⟩ := Option.bind_eq_some_iff.mp next
      obtain rfl := Option.some.inj sent
      refine ⟨sound.colour, fun frame there => ?_⟩
      rcases List.mem_append.mp there with before | last
      · exact sound.frames frame before
      · rw [List.mem_singleton.mp last]
        exact (isFrame_ledRequest p focus).mpr sound.colour

theorem Sound.run (sound : Sound p) {events : List Event} {q : ProxyLEDStrip}
    (ran : run p events = some q) : Sound q := by
  induction events generalizing p with
  | nil =>
    obtain rfl := Option.some.inj ran
    exact sound
  | cons event events ih =>
    obtain ⟨next, one, rest⟩ := Option.bind_eq_some_iff.mp ran
    exact ih (sound.step one) rest

/-- The angle is in range from the capping to the computation of the focus. -/
structure Capped (p : ProxyLEDStrip) : Prop where
  cap : ∀ angle, p.phase = .cap angle → InRange angle
  send : p.phase = .send → InRange p.m_angle
  frames : ∀ frame ∈ p.sent, OnStrip frame

theorem Capped.body (capped : Capped p) : ∃ q, p.body = some q ∧ Capped q := by
  rw [ProxyLEDStrip.body]
  cases phase : p.phase with
  | test =>
    by_cases wide : limit ≤ |p.m_angle|
    · refine ⟨_, rfl, ?_, ?_, capped.frames⟩
      · simp [wide]
      · simp [wide]
    · refine ⟨_, rfl, ?_, ?_, capped.frames⟩
      · simp [wide]
      · exact fun _ => inRange_of_lt (lt_of_not_ge wide)
  | sign =>
    refine ⟨_, rfl, ?_, nofun, capped.frames⟩
    rintro angle ⟨⟩
    split
    · exact inRange_limit.1
    · exact inRange_limit.2
  | cap angle => exact ⟨_, rfl, nofun, fun _ => capped.cap angle phase, capped.frames⟩
  | send =>
    obtain ⟨focus, computed, low⟩ := focusOf_onStrip.mpr (capped.send phase)
    refine ⟨{ p with phase := .test, sent := p.sent ++ [p.ledRequest focus] }, ?_, nofun, nofun, ?_⟩
    · simp only [computed, Option.bind_eq_bind, Option.bind_some, Option.pure_def]
    · intro frame there
      rcases List.mem_append.mp there with before | last
      · exact capped.frames frame before
      · rw [List.mem_singleton.mp last]
        exact (onStrip_ledRequest p focus).mpr low

theorem Capped.run (capped : Capped p) {events : List Event} (guarded : Guarded p events) :
    ∃ q, run p events = some q ∧ Capped q := by
  induction events generalizing p with
  | nil => exact ⟨p, rfl, capped⟩
  | cons event events ih =>
    cases event with
    | aimPoint azimuthAngle =>
      exact ih ⟨capped.cap, guarded.1, capped.frames⟩ guarded.2
    | body =>
      obtain ⟨q, one, next⟩ := capped.body
      obtain ⟨r, rest, last⟩ := ih next (guarded q one)
      refine ⟨r, ?_, last⟩
      rw [Ledstrip.run, step, one, Option.bind_some, rest]

theorem run_append {p : ProxyLEDStrip} (before after : List Event) :
    run p (before ++ after) = (run p before).bind fun q => run q after := by
  induction before generalizing p with
  | nil => rfl
  | cons event before ih =>
    rw [List.cons_append, Ledstrip.run, Ledstrip.run]
    cases step p event with
    | none => rfl
    | some q => exact ih

end Frames

/-- Under any interleaving with the aim points, every frame has the checksum of its bytes. If no aim
point out of range arrives behind the capping, nothing undefined happens and all frames lie on the
strip; where one arrives there, the next frame does not. -/
theorem frames_on_strip (events : List Event) :
    (∀ p, run {} events = some p → ∀ frame ∈ p.sent, IsFrame frame) ∧
    (Guarded {} events → ∃ p, run {} events = some p ∧ ∀ frame ∈ p.sent, OnStrip frame) ∧
    ∀ p, run {} events = some p → p.phase = .send → ∀ azimuthAngle,
      (∃ q focus, run {} (events ++ [.aimPoint azimuthAngle, .body]) = some q ∧
        q.sent = p.sent ++ [p.ledRequest focus] ∧ OnStrip (p.ledRequest focus)) ↔
      InRange azimuthAngle := by
  refine ⟨fun p ran => ?_, fun guarded => ?_, fun p ran phase azimuthAngle => ?_⟩
  · exact (Sound.run ⟨rfl, fun _ there => absurd there List.not_mem_nil⟩ ran).frames
  · have start : Capped {} := by
      refine ⟨?_, ?_, fun _ there => absurd there List.not_mem_nil⟩
      · rintro angle ⟨⟩
      · rintro ⟨⟩
    obtain ⟨p, ran, capped⟩ := start.run guarded
    exact ⟨p, ran, capped.frames⟩
  · have next : run {} (events ++ [.aimPoint azimuthAngle, .body]) =
        (focusOf azimuthAngle).map fun focus =>
          { p with
            m_angle := azimuthAngle, phase := .test, sent := p.sent ++ [p.ledRequest focus] } := by
      rw [run_append, ran, Option.bind_some, run, step, Option.bind_some, run, step,
        ProxyLEDStrip.body]
      simp only [ProxyLEDStrip.nextContainer, phase]
      cases focusOf azimuthAngle <;> rfl
    rw [next, ← focusOf_onStrip]
    constructor
    · rintro ⟨q, focus, sends, sent, low⟩
      obtain ⟨focus', computed, rfl⟩ := Option.map_eq_some_iff.mp sends
      have same := List.append_cancel_left sent
      rw [← List.singleton_inj.mp same, onStrip_ledRequest] at low
      exact ⟨focus', computed, low⟩
    · rintro ⟨focus, computed, low⟩
      rw [computed]
      exact ⟨_, focus, rfl, rfl, (onStrip_ledRequest p focus).mpr low⟩

/-- An aim point far to the left, which is capped before the second frame. -/
theorem frames_on_strip_left :
    ∃ p, run {} [.body, .body, .aimPoint 2, .body, .body, .body, .body] = some p ∧
      ∀ frame ∈ p.sent, OnStrip frame :=
  (frames_on_strip [.body, .body, .aimPoint 2, .body, .body, .body, .body]).2.1 (by
    have ahead : focusOf 0 = some 50 := by decide +kernel
    norm_num [Guarded, ProxyLEDStrip.body, ProxyLEDStrip.nextContainer, ahead, limit]
    exact nofun)

end OpendlvCore.Ledstrip
