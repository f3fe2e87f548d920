import OpendlvCore.Bytes

/-!
# `ProxySick`

The proxy opens the serial port at 9600 baud, sends a fixed sequence of commands at certain
time slices, has the laser change its baud rate and opens the port again in between. The laser on
the other side is a parameter, with what its commands are for.
-/
namespace OpendlvCore.Sick
open CBytes

inductive Command where
  | status | startScan | stopScan | settingsMode | setCentimeterMode | setBaudrate38400
  deriving DecidableEq, Repr

/-- What `m_sick->send` is given. -/
def Command.string : Command → Bytes
  | status => [0x02, 0x00, 0x01, 0x00, 0x31, 0x15, 0x12]
  | startScan => [0x02, 0x00, 0x02, 0x00, 0x20, 0x24, 0x34, 0x08]
  | stopScan => [0x02, 0x00, 0x02, 0x00, 0x20, 0x25, 0x35, 0x08]
  | settingsMode =>
    [0x02, 0x00, 0x0A, 0x00, 0x20, 0x00, 0x53, 0x49, 0x43, 0x4B, 0x5F, 0x4C, 0x4D, 0x53, 0xBE, 0xC5]
  | setCentimeterMode =>
    [0x02, 0x00, 0x21, 0x00, 0x77, 0x00, 0x00, 0x00, 0x00, 0x00, 0x0D, 0x00, 0x00, 0x00, 0x02, 0x02,
      0x00, 0x00, 0x00, 0x00, 0x00, 0x00, 0x00, 0x00, 0x00, 0x00, 0x00, 0x00, 0x00, 0x00, 0x00, 0x00,
      0x00, 0x00, 0x00, 0x00, 0x00, 0x20, 0xCB]
  | setBaudrate38400 => [0x02, 0x00, 0x02, 0x00, 0x20, 0x40, 0x50, 0x08]

/-- A port that has been opened; it is `listening` between `start` and `stop`. -/
structure SerialPort where
  baudRate : Nat
  listening : Bool
  deriving DecidableEq, Repr

structure ProxySick where
  /-- `none` for the null pointer. -/
  m_sick : Option SerialPort := none
  counter : Nat := 0
  /-- What has been sent, at which baud rate. -/
  sent : List (Nat × Bytes) := []
  deriving DecidableEq, Repr

def INIT_BAUD_RATE : Nat := 9600
def m_baudRate : Nat := 38400

namespace ProxySick

/-- A port that cannot be opened leaves `m_sick` as it is. -/
def openSerialPort (opens : Bool) (baudRate : Nat) (p : ProxySick) : ProxySick :=
  if opens then { p with m_sick := some { baudRate, listening := true } } else p

/-- `none` is a call through the null pointer. -/
def send (c : Command) (p : ProxySick) : Option ProxySick := do
  let port ← p.m_sick
  return { p with sent := p.sent ++ [(port.baudRate, c.string)] }

/-- `m_sick->stop()` and `m_sick->setStringListener(NULL)`. -/
def stop (p : ProxySick) : Option ProxySick := do
  let port ← p.m_sick
  return { p with m_sick := some { port with listening := false } }

def setUp (opens : Bool) : ProxySick := openSerialPort opens INIT_BAUD_RATE {}

/-- One pass of the initialization sequence, and whether it is left. -/
def pass (opens : Bool) (p : ProxySick) : Option (ProxySick × Bool) := do
  let p := { p with counter := p.counter + 1 }
  let p ← if p.counter = 10 then send .stopScan p else pure p
  let p ← if p.counter = 12 then send .status p else pure p
  let p ← if p.counter = 14 then send .setBaudrate38400 p else pure p
  let p ← if p.counter = 18 then (stop p).map (openSerialPort opens m_baudRate) else pure p
  let p ← if p.counter = 20 then send .settingsMode p else pure p
  let p ← if p.counter = 22 then send .setCentimeterMode p else pure p
  if p.counter = 24 then do
    let p ← send .startScan p
    return (p, true)
  else return (p, false)

/-- Both loops, for the time slices in which the module is running; each says whether the port
could be opened then. The second loop does nothing. -/
def body : List Bool → ProxySick → Option ProxySick
  | [], p => some p
  | opens :: slices, p => do
    let (p, left) ← pass opens p
    if left then return p else body slices p

def tearDown (p : ProxySick) : Option ProxySick := do
  let p ← send .stopScan p
  stop p

/-- A whole run of the module. -/
def session (opens : Bool) (slices : List Bool) : Option ProxySick := do
  let p ← body slices (setUp opens)
  tearDown p

end ProxySick

/-! ## The laser -/

/-- What matters of a laser. -/
structure Status where
  baudRate : Nat
  scanning : Bool
  settings : Bool
  centimeters : Bool
  deriving DecidableEq, Repr

/-- A laser with states of any kind: what a string does that comes in at a baud rate. -/
structure Laser (L : Type) where
  receive : L → Nat × Bytes → L
  status : L → Status

namespace Laser
variable {L : Type} (laser : Laser L) (l : L)

def receives (sent : List (Nat × Bytes)) : L := sent.foldl laser.receive l

/-- A command at the laser's own baud rate. -/
def hears (c : Command) : Status := laser.status (laser.receive l ((laser.status l).baudRate, c.string))

/-- What the commands are for. At another baud rate a string is noise, and units can be set in the
settings mode. -/
structure Obeys : Prop where
  noise : ∀ l baudRate string, baudRate ≠ (laser.status l).baudRate →
    laser.status (laser.receive l (baudRate, string)) = laser.status l
  status : ∀ l, laser.hears l .status = laser.status l
  startScan : ∀ l, laser.hears l .startScan = { laser.status l with scanning := true }
  stopScan : ∀ l, laser.hears l .stopScan = { laser.status l with scanning := false }
  settingsMode : ∀ l, laser.hears l .settingsMode = { laser.status l with settings := true }
  setCentimeterMode : ∀ l, (laser.status l).settings = true →
    laser.hears l .setCentimeterMode = { laser.status l with centimeters := true }
  setBaudrate38400 : ∀ l, laser.hears l .setBaudrate38400 = { laser.status l with baudRate := 38400 }

@[simp] theorem receives_append (sent : List (Nat × Bytes)) (c : Nat × Bytes) :
    laser.receives l (sent ++ [c]) = laser.receive (laser.receives l sent) c := by
  rw [receives, List.foldl_append]
  rfl

end Laser

/-- A laser that has just been switched on, or one that has been set up before. -/
def Status.Known (status : Status) : Prop := status.baudRate = 9600 ∨ status.baudRate = 38400

/-- The laser after `n` time slices. -/
def Status.started (status : Status) (again : Bool) (n : Nat) : Status where
  baudRate := if 14 ≤ n then 38400 else status.baudRate
  scanning :=
    if 24 ≤ n ∧ again then true
    else if 10 ≤ n ∧ status.baudRate = 9600 then false
    else status.scanning
  settings := if 20 ≤ n ∧ again then true else status.settings
  centimeters := if 22 ≤ n ∧ again then true else status.centimeters

/-- What holds after `n` time slices of a run in which the port could be opened at first, and for
the second time if `again`. -/
structure StartsUp {L : Type} (laser : Laser L) (l : L) (again : Bool) (n : Nat) (p : ProxySick) :
    Prop where
  counter : p.counter = n
  port : p.m_sick = some
    { baudRate := if 18 ≤ n ∧ again then 38400 else 9600, listening := n < 18 ∨ again }
  status : laser.status (laser.receives l p.sent) = (laser.status l).started again n

section Runs
open ProxySick
variable {L : Type} {laser : Laser L} {l : L} {again : Bool} {n : Nat} {p : ProxySick}

theorem startsUp_setUp (laser : Laser L) (l : L) (again : Bool) :
    StartsUp laser l again 0 (setUp true) :=
  ⟨rfl, rfl, rfl⟩

/-- A slice in which nothing happens. -/
theorem pass_idle (opens : Bool) (p : ProxySick)
    (idle : p.counter + 1 ∉ [10, 12, 14, 18, 20, 22, 24]) :
    pass opens p = some ({ p with counter := p.counter + 1 }, false) := by
  simp only [List.mem_cons, List.not_mem_nil, or_false, not_or] at idle
  obtain ⟨h10, h12, h14, h18, h20, h22, h24⟩ := idle
  simp only [ProxySick.pass, if_neg h10, if_neg h12, if_neg h14, if_neg h18, if_neg h20, if_neg h22, if_neg h24,
    Option.pure_def, Option.bind_eq_bind, Option.bind_some]

/-- A slice in which a command is sent. -/
theorem pass_sends (opens : Bool) {port : SerialPort} (opened : p.m_sick = some port) {c : Command}
    (sends : (p.counter + 1, c) ∈ [(10, .stopScan), (12, .status), (14, .setBaudrate38400),
      (20, .settingsMode), (22, .setCentimeterMode), (24, .startScan)]) :
    pass opens p = some ({ p with
      counter := p.counter + 1, sent := p.sent ++ [(port.baudRate, c.string)] },
        decide (p.counter + 1 = 24)) := by
  obtain ⟨m_sick, counter, sent⟩ := p
  obtain rfl : m_sick = some port := opened
  simp only [List.mem_cons, List.not_mem_nil, or_false, Prod.mk.injEq] at sends
  obtain ⟨slice, rfl⟩ | ⟨slice, rfl⟩ | ⟨slice, rfl⟩ | ⟨slice, rfl⟩ | ⟨slice, rfl⟩ | ⟨slice, rfl⟩ := sends
  all_goals
    obtain rfl := Nat.succ.inj slice
    rfl

/-- The slice in which the port is opened again. -/
theorem pass_reopens (opens : Bool) {port : SerialPort} (opened : p.m_sick = some port)
    (here : p.counter = 17) :
    pass opens p = some ({ p with
      counter := 18
      m_sick := some (if opens then ⟨38400, true⟩ else { port with listening := false }) }, false) := by
  obtain ⟨m_sick, counter, sent⟩ := p
  obtain rfl : m_sick = some port := opened
  obtain rfl : counter = 17 := here
  cases opens <;> rfl

/-- Nothing changes between the slices in which something is sent. -/
theorem StartsUp.idle (before : StartsUp laser l again n p)
    (idle : n + 1 ∉ [10, 12, 14, 18, 20, 22, 24]) :
    StartsUp laser l again (n + 1) { p with counter := p.counter + 1 } := by
  obtain ⟨rfl, port, status⟩ := before
  simp only [List.mem_cons, List.not_mem_nil, or_false, not_or] at idle
  have h10 : 10 ≤ p.counter + 1 ↔ 10 ≤ p.counter := by omega
  have h14 : 14 ≤ p.counter + 1 ↔ 14 ≤ p.counter := by omega
  have h18 : 18 ≤ p.counter + 1 ↔ 18 ≤ p.counter := by omega
  have h18' : p.counter + 1 < 18 ↔ p.counter < 18 := by omega
  have h20 : 20 ≤ p.counter + 1 ↔ 20 ≤ p.counter := by omega
  have h22 : 22 ≤ p.counter + 1 ↔ 22 ≤ p.counter := by omega
  have h24 : 24 ≤ p.counter + 1 ↔ 24 ≤ p.counter := by omega
  refine ⟨rfl, ?_, ?_⟩
  · simpa only [h18, h18'] using port
  · simpa only [Status.started, h10, h14, h20, h22, h24] using status

/-- The status behind a command that is heard. -/
def Status.after (status : Status) : Command → Status
  | .status => status
  | .startScan => { status with scanning := true }
  | .stopScan => { status with scanning := false }
  | .settingsMode => { status with settings := true }
  | .setCentimeterMode => { status with centimeters := true }
  | .setBaudrate38400 => { status with baudRate := 38400 }

theorem Laser.Obeys.hears_eq (obeys : laser.Obeys) (l : L) {c : Command}
    (units : c = .setCentimeterMode → (laser.status l).settings = true) :
    laser.hears l c = (laser.status l).after c := by
  cases c with
  | status => exact obeys.status l
  | startScan => exact obeys.startScan l
  | stopScan => exact obeys.stopScan l
  | settingsMode => exact obeys.settingsMode l
  | setCentimeterMode => exact obeys.setCentimeterMode l (units rfl)
  | setBaudrate38400 => exact obeys.setBaudrate38400 l

/-- A command at any baud rate. -/
theorem Laser.Obeys.receive_eq (obeys : laser.Obeys) (l : L) {c : Command} {baudRate : Nat}
    (units : baudRate = (laser.status l).baudRate → c = .setCentimeterMode →
      (laser.status l).settings = true) :
    laser.status (laser.receive l (baudRate, c.string)) =
      if baudRate = (laser.status l).baudRate then (laser.status l).after c else laser.status l := by
  split
  · rename_i same
    rw [← obeys.hears_eq l (units same), same]
    rfl
  · rename_i other
    exact obeys.noise l baudRate c.string other

/-- What becomes of the command of a slice. -/
theorem Status.Known.started_after {status : Status} (known : status.Known) {c : Command}
    (sends : (n + 1, c) ∈ [(10, .stopScan), (12, .status), (14, .setBaudrate38400),
      (20, .settingsMode), (22, .setCentimeterMode), (24, .startScan)]) :
    (if (if 18 ≤ n ∧ again then 38400 else 9600) = (status.started again n).baudRate then
        (status.started again n).after c else status.started again n) =
      status.started again (n + 1) := by
  obtain ⟨baudRate, scanning, settings, centimeters⟩ := status
  simp only [List.mem_cons, List.not_mem_nil, or_false, Prod.mk.injEq] at sends
  -- a laser at the higher rate already misses the first commands, and none of them changes it
  obtain ⟨slice, rfl⟩ | ⟨slice, rfl⟩ | ⟨slice, rfl⟩ | ⟨slice, rfl⟩ | ⟨slice, rfl⟩ | ⟨slice, rfl⟩ := sends
  all_goals
    obtain rfl := Nat.succ.inj slice
    obtain rfl | rfl : baudRate = 9600 ∨ baudRate = 38400 := known
    all_goals cases again <;> rfl

/-- The units are set behind the settings mode, or not heard. -/
theorem Status.started_units (status : Status) (again : Bool)
    (heard : (if 18 ≤ 21 ∧ again then 38400 else 9600) = (status.started again 21).baudRate) :
    (status.started again 21).settings = true := by
  cases again with
  | true => rfl
  | false => exact absurd heard (by simp [Status.started])

/-- A command, at the baud rate of the port. -/
theorem StartsUp.sends (obeys : laser.Obeys) (known : (laser.status l).Known)
    (before : StartsUp laser l again n p) {c : Command}
    (sends : (n + 1, c) ∈ [(10, .stopScan), (12, .status), (14, .setBaudrate38400),
      (20, .settingsMode), (22, .setCentimeterMode), (24, .startScan)]) :
    StartsUp laser l again (n + 1) { p with
      counter := p.counter + 1
      sent := p.sent ++ [(if 18 ≤ n ∧ again then 38400 else 9600, c.string)] } := by
  have after : _ = (laser.status l).started again (n + 1) := known.started_after sends
  have units : (if 18 ≤ n ∧ again then 38400 else 9600) =
      ((laser.status l).started again n).baudRate → c = .setCentimeterMode →
      ((laser.status l).started again n).settings = true := by
    rintro heard rfl
    obtain rfl : n = 21 := by simpa using sends
    exact (laser.status l).started_units again heard
  rw [← before.status] at units after
  have elsewhere : n + 1 ≠ 18 := by
    intro here
    rw [here] at sends
    revert sends
    cases c <;> decide
  have h18 : 18 ≤ n + 1 ↔ 18 ≤ n := by omega
  have h18' : n + 1 < 18 ↔ n < 18 := by omega
  refine ⟨congrArg (· + 1) before.counter, ?_, ?_⟩
  · simpa only [h18, h18'] using before.port
  · rw [Laser.receives_append, obeys.receive_eq _ units, after]

theorem StartsUp.reopens (before : StartsUp laser l again 17 p) :
    StartsUp laser l again 18 { p with
      counter := 18
      m_sick := some (if again then ⟨38400, true⟩ else ⟨9600, false⟩) } := by
  refine ⟨rfl, ?_, by simpa [Status.started] using before.status⟩
  cases again <;> rfl

/-- One pass of the loop. -/
theorem StartsUp.pass (obeys : laser.Obeys) (known : (laser.status l).Known)
    (before : StartsUp laser l again n p) (low : n < 24) (opens : Bool)
    (second : n = 17 → opens = again) :
    ∃ p', pass opens p = some (p', decide (n + 1 = 24)) ∧ StartsUp laser l again (n + 1) p' := by
  have counter := before.counter
  have port := before.port
  by_cases sends : ∃ c : Command, (n + 1, c) ∈ [(10, Command.stopScan), (12, .status),
      (14, .setBaudrate38400), (20, .settingsMode), (22, .setCentimeterMode), (24, .startScan)]
  · obtain ⟨c, sends⟩ := sends
    refine ⟨_, ?_, before.sends obeys known sends⟩
    rw [pass_sends opens port (by rwa [counter]), counter]
  · by_cases here : n = 17
    · subst here
      refine ⟨_, ?_, before.reopens⟩
      rw [pass_reopens opens port counter, second rfl]
      cases again <;> rfl
    · have idle : n + 1 ∉ [10, 12, 14, 18, 20, 22, 24] := by
        simp only [List.mem_cons, List.not_mem_nil, or_false, Prod.mk.injEq, not_exists, not_or] at sends ⊢
        have h10 := (sends .stopScan).1
        have h12 := (sends .status).2.1
        have h14 := (sends .setBaudrate38400).2.2.1
        have h20 := (sends .settingsMode).2.2.2.1
        have h22 := (sends .setCentimeterMode).2.2.2.2.1
        have h24 := (sends .startScan).2.2.2.2.2
        simp only [and_true] at h10 h12 h14 h20 h22 h24
        omega
      have last : ¬ n + 1 = 24 := by
        simp only [List.mem_cons, not_or] at idle
        omega
      refine ⟨_, ?_, before.idle idle⟩
      rw [pass_idle opens p (by rwa [counter]), decide_eq_false last]

/-- The rest of a run. -/
theorem StartsUp.body (obeys : laser.Obeys) (known : (laser.status l).Known) (slices : List Bool)
    (before : StartsUp laser l again n p) (low : n < 24)
    (second : ∀ opens, slices[17 - n]? = some opens → n ≤ 17 → opens = again) :
    ∃ p', body slices p = some p' ∧ StartsUp laser l again (min (n + slices.length) 24) p' := by
  induction slices generalizing n p with
  | nil => exact ⟨p, rfl, by rwa [List.length_nil, Nat.add_zero, Nat.min_eq_left (by omega)]⟩
  | cons opens slices ih =>
    obtain ⟨next, step, after⟩ := before.pass obeys known low opens fun here => by
      subst here
      exact second opens rfl (Nat.le_refl 17)
    rw [ProxySick.body, step]
    simp only [Option.bind_eq_bind, Option.bind_some]
    by_cases last : n + 1 = 24
    · rw [decide_eq_true last, if_pos rfl, List.length_cons, Nat.min_eq_right (by omega), ← last]
      exact ⟨next, rfl, after⟩
    · rw [decide_eq_false last, if_neg Bool.false_ne_true, List.length_cons, ← Nat.add_assoc,
        Nat.add_right_comm]
      refine ih after (by omega) fun opens there early => second opens ?_ (by omega)
      have place : 17 - n = 17 - (n + 1) + 1 := by omega
      rw [place, List.getElem?_cons_succ]
      exact there

/-- The port could be opened for the second time. -/
def reopens (slices : List Bool) : Bool := slices[17]?.getD false

/-- The run up to `tearDown`. -/
theorem body_startsUp (obeys : laser.Obeys) (known : (laser.status l).Known) (slices : List Bool) :
    ∃ p, body slices (setUp true) = some p ∧
      StartsUp laser l (reopens slices) (min slices.length 24) p := by
  have started := (startsUp_setUp laser l (reopens slices)).body obeys known slices (by omega)
    fun opens there _ => by
      rw [Nat.sub_zero] at there
      rw [reopens, there]
      rfl
  rwa [Nat.zero_add] at started

theorem pass_unopened (opens : Bool) (closed : p.m_sick = none) :
    pass opens p = none ∨ pass opens p = some ({ p with counter := p.counter + 1 }, false) := by
  by_cases idle : p.counter + 1 ∉ [10, 12, 14, 18, 20, 22, 24]
  · exact .inr (pass_idle opens p idle)
  · left
    obtain ⟨m_sick, counter, sent⟩ := p
    obtain rfl : m_sick = none := closed
    simp only [List.mem_cons, List.not_mem_nil, or_false, not_not] at idle
    obtain slice | slice | slice | slice | slice | slice | slice := idle
    all_goals
      obtain rfl := Nat.succ.inj slice
      rfl

/-- Without a port a run ends at the first command. -/
theorem session_unopened (slices : List Bool) : session false slices = none := by
  have closed : ∀ (slices : List Bool) (p : ProxySick), p.m_sick = none →
      ∀ p', body slices p = some p' → p'.m_sick = none := by
    intro slices
    induction slices with
    | nil =>
      rintro p closed p' ⟨⟩
      exact closed
    | cons opens slices ih =>
      intro p closed p' ran
      rw [ProxySick.body] at ran
      rcases pass_unopened opens closed with ended | goes
      · rw [ended] at ran
        cases ran
      · rw [goes] at ran
        exact ih { p with counter := p.counter + 1 } closed p' ran
  rw [session]
  cases ran : body slices (setUp false) with
  | none => rfl
  | some p =>
    simp only [Option.bind_eq_bind, Option.bind_some, tearDown, send, closed slices _ rfl p ran,
      Option.bind_none]

/-- `tearDown` stops the laser at the baud rate of the port. -/
theorem session_opened {slices : List Bool} {port : SerialPort}
    (ran : body slices (setUp true) = some p) (opened : p.m_sick = some port) :
    ∃ q, session true slices = some q ∧ q.sent = p.sent ++ [(port.baudRate, Command.stopScan.string)] := by
  rw [session, ran]
  simp only [Option.bind_eq_bind, Option.bind_some, tearDown, send, stop, opened, Option.pure_def]
  exact ⟨_, rfl, rfl⟩

variable (laser) in
/-- What a run of the module makes of the laser; a run that fails has sent nothing. -/
def afterSession (l : L) (run : Bool × List Bool) : L :=
  match session run.1 run.2 with
  | some p => laser.receives l p.sent
  | none => l

theorem Laser.Obeys.receive_stopScan (obeys : laser.Obeys) (l : L) (baudRate : Nat) :
    laser.status (laser.receive l (baudRate, Command.stopScan.string)) =
      { laser.status l with
        scanning := if baudRate = (laser.status l).baudRate then false else (laser.status l).scanning } := by
  refine Eq.trans (obeys.receive_eq l ?_) ?_
  · exact fun _ other => nomatch other
  · split <;> rfl

/-- `tearDown` on the two sides of the line. -/
theorem StartsUp.stops (obeys : laser.Obeys) (known : (laser.status l).Known)
    (started : StartsUp laser l again n p) (late : again = true → 18 ≤ n) :
    let stopped := laser.status (laser.receive (laser.receives l p.sent)
      (if 18 ≤ n ∧ again then 38400 else 9600, Command.stopScan.string))
    stopped.Known ∧ (stopped.scanning = true → (laser.status l).scanning = true ∧ again = false) := by
  simp only [obeys.receive_stopScan, started.status, Status.started, Status.Known]
  constructor
  · split
    · exact .inr rfl
    · exact known
  · cases again with
    | true =>
      have long := late rfl
      have changed : 14 ≤ n := by omega
      simp [long, changed]
    | false =>
      intro on
      refine ⟨?_, rfl⟩
      by_contra off
      rw [Bool.eq_false_iff.mpr off] at on
      simp at on

theorem afterSession_known (obeys : laser.Obeys) (known : (laser.status l).Known)
    (run : Bool × List Bool) :
    (laser.status (afterSession laser l run)).Known ∧
      ((laser.status (afterSession laser l run)).scanning = true →
        (laser.status l).scanning = true ∧ ¬ (run.1 = true ∧ reopens run.2 = true)) := by
  obtain ⟨opens, slices⟩ := run
  cases opens with
  | false =>
    rw [afterSession, session_unopened]
    exact ⟨known, fun on => ⟨on, fun both => Bool.false_ne_true both.1⟩⟩
  | true =>
    obtain ⟨p, ran, started⟩ := body_startsUp obeys known slices
    obtain ⟨q, returns, sent⟩ := session_opened ran started.port
    have late : reopens slices = true → 18 ≤ min slices.length 24 := by
      intro again
      by_contra short
      rw [reopens, List.getElem?_eq_none (by omega)] at again
      cases again
    obtain ⟨known, stops⟩ := started.stops obeys known late
    rw [afterSession, returns]
    simp only [sent, Laser.receives_append]
    refine ⟨known, fun on => ⟨(stops on).1, fun both => ?_⟩⟩
    rw [(stops on).2] at both
    exact Bool.false_ne_true both.2

end Runs

open ProxySick

section Laser
variable {L : Type} {laser : Laser L} (obeys : laser.Obeys) {l : L}
include obeys

/-- The laser scans once a run has lasted for 24 time slices, if the port could be opened twice;
then it measures in centimeters, and the decoder listens at its baud rate. -/
theorem laser_scans_iff (known : (laser.status l).Known) (quiet : (laser.status l).scanning = false)
    (slices : List Bool) :
    ∃ p, body slices (setUp true) = some p ∧
      let status := laser.status (laser.receives l p.sent)
      (status.scanning = true ↔ 24 ≤ slices.length ∧ reopens slices = true) ∧
      (status.scanning = true → status.centimeters = true ∧
        p.m_sick = some { baudRate := status.baudRate, listening := true }) := by
  obtain ⟨p, ran, started⟩ := body_startsUp obeys known slices
  have scans : ((laser.status l).started (reopens slices) (min slices.length 24)).scanning = true ↔
      24 ≤ slices.length ∧ reopens slices = true := by
    simp only [Status.started, quiet, ite_self]
    split
    · rename_i both
      exact ⟨fun _ => ⟨by omega, both.2⟩, fun _ => rfl⟩
    · rename_i short
      exact ⟨nofun, fun both => absurd ⟨by omega, both.2⟩ short⟩
  refine ⟨p, ran, ?_⟩
  simp only [started.status]
  refine ⟨scans, fun on => ?_⟩
  obtain ⟨long, again⟩ := scans.mp on
  have port := started.port
  rw [again, if_pos ⟨by omega, rfl⟩] at port
  rw [again]
  refine ⟨if_pos ⟨by omega, rfl⟩, ?_⟩
  rw [port, Status.started, if_pos (by omega)]
  simp

/-- Over any sequence of runs of the module, whichever ports could be opened: a laser that does not
scan is never left scanning, and a run that opens its port twice stops any laser. -/
theorem laser_stops (known : (laser.status l).Known) (before after : List (Bool × List Bool)) :
    ((laser.status l).scanning = false →
      (laser.status (before.foldl (afterSession laser) l)).scanning = false) ∧
    ∀ slices, reopens slices = true →
      (laser.status ((before ++ (true, slices) :: after).foldl (afterSession laser) l)).scanning =
        false := by
  have runs : ∀ (runs : List (Bool × List Bool)) (l : L), (laser.status l).Known →
      (laser.status (runs.foldl (afterSession laser) l)).Known ∧
        ((laser.status l).scanning = false →
          (laser.status (runs.foldl (afterSession laser) l)).scanning = false) := by
    intro runs
    induction runs with
    | nil => exact fun l known => ⟨known, id⟩
    | cons run runs ih =>
      intro l known
      obtain ⟨still, stops⟩ := afterSession_known obeys known run
      obtain ⟨known, quiet⟩ := ih (afterSession laser l run) still
      refine ⟨known, fun off => quiet ?_⟩
      rw [← Bool.not_eq_true]
      intro on
      rw [(stops on).1] at off
      cases off
  refine ⟨(runs before l known).2, fun slices again => ?_⟩
  obtain ⟨still, stops⟩ := afterSession_known obeys (runs before l known).1 (true, slices)
  rw [List.foldl_append, List.foldl_cons]
  apply (runs after _ still).2
  rw [← Bool.not_eq_true]
  intro on
  exact (stops on).2 ⟨rfl, again⟩

end Laser

/-- A laser that looks at every string for the six commands. -/
def attentive : Laser Status where
  receive l sent :=
    if sent.1 = l.baudRate then
      match [Command.status, .startScan, .stopScan, .settingsMode, .setCentimeterMode,
        .setBaudrate38400].find? (·.string = sent.2) with
      | some c => l.after c
      | none => l
    else l
  status l := l

theorem attentive_obeys : attentive.Obeys where
  noise _ _ _ other := if_neg other
  status _ := if_pos rfl
  startScan _ := if_pos rfl
  stopScan _ := if_pos rfl
  settingsMode _ := if_pos rfl
  setCentimeterMode _ _ := if_pos rfl
  setBaudrate38400 _ := if_pos rfl

/-- A laser that has just been switched on, and 30 time slices. -/
theorem laser_scans_thirty :
    ∃ p, body (List.replicate 30 true) (setUp true) = some p ∧
      let status := attentive.status (attentive.receives ⟨9600, false, false, false⟩ p.sent)
      (status.scanning = true ↔
        24 ≤ (List.replicate 30 true).length ∧ reopens (List.replicate 30 true) = true) ∧
      (status.scanning = true → status.centimeters = true ∧
        p.m_sick = some { baudRate := status.baudRate, listening := true }) :=
  laser_scans_iff attentive_obeys (.inl rfl) rfl (List.replicate 30 true)

/-- A run that is broken off, one that ends in time, and one whose port is missing. -/
theorem laser_stops_three :
    let before := [(true, List.replicate 20 false)]
    let after := [(false, List.replicate 5 true)]
    let l : Status := ⟨38400, true, false, false⟩
    ((attentive.status l).scanning = false →
      (attentive.status (before.foldl (afterSession attentive) l)).scanning = false) ∧
    ∀ slices, reopens slices = true →
      (attentive.status
        ((before ++ (true, slices) :: after).foldl (afterSession attentive) l)).scanning = false :=
  laser_stops attentive_obeys (.inr rfl) _ _

end OpendlvCore.Sick
