import Mathlib.Data.List.Forall2
import OpendlvCore.Camera.Capture
import OpendlvCore.LockedMemory

/-!
# From a camera to the projection tool

The `body` of the camera modules and `CameraProjection::nextContainer`, with the shared memory
between them; its lock and the conference are parameters. A container only says that a camera has captured, not what: all containers of a
camera are equal, and one is sent for every slice, with a new frame or without. The numbers on
them here are for counting. Drawing and showing the image is left out.
-/
namespace OpendlvCore.Camera
open CBytes LockedMemory

inductive Party where
  | camera | projection
  deriving DecidableEq, Repr

/-- The cameras of the repository. -/
inductive Model where
  | openCV (bpp : UInt32) (flipped : Bool)
  | axis (calibrated : Bool)
  | replay
  deriving DecidableEq, Repr

/-- The functions of OpenCV that change a frame. -/
structure OpenCV where
  cvtColor : Bytes → Bytes
  cvFlip : Bytes → Bytes
  undistort : Bytes → Bytes

def Model.driver (cv : OpenCV) : Model → Driver Image
  | openCV bpp flipped => openCVCamera cv.cvtColor cv.cvFlip bpp flipped
  | axis calibrated => axisCamera cv.undistort calibrated
  | replay => videoCapture

/-- Where the camera is in a time slice. -/
inductive Phase where
  | capturing
  | locking (image : Bytes)
  | copying
  | sending
  deriving DecidableEq, Repr

/-- Where the tool is with the container of that number. -/
inductive Viewing where
  | waiting
  | attached (number : Nat)
  | copying (number : Nat)
  deriving DecidableEq, Repr

/-- What odcore does for both modules: whom the lock of the shared memory lets in, and which of the
containers under way is delivered next, with those that are still under way behind it. -/
structure Odcore where
  grants : Memory Party UInt8 → Party → Bool
  delivers : List (SharedImage × Nat) → Option ((SharedImage × Nat) × List (SharedImage × Nat))

/-- The lock is exclusive. Containers may be lost, but none overtakes another or comes twice. -/
structure Odcore.Orderly (o : Odcore) : Prop where
  exclusive : Exclusive o.grants
  inOrder : ∀ sent c rest, o.delivers sent = some (c, rest) → (c :: rest).Sublist sent

structure System where
  device : Image := none
  memory : Memory Party UInt8
  phase : Phase := .capturing
  /-- What the slices have copied. -/
  slices : List (Option Bytes) := []
  /-- The containers that are under way, each with the number of slices before it. -/
  conference : List (SharedImage × Nat) := []
  initialized : Bool := false
  viewing : Viewing := .waiting
  /-- The images that were taken, each with the container that led to it. -/
  viewed : List (Nat × Bytes) := []

inductive Event where
  | setUp
  | capture (slice : Slice)
  | lockCamera
  | store
  | unlockCamera
  | send
  | foreign (image : SharedImage)
  | receive (isValid : Bool)
  | lockProjection
  | load
  | unlockProjection
  deriving DecidableEq, Repr

section Steps
variable (o : Odcore) (cv : OpenCV) (model : Model) (f : Format)

/-- One step of the camera, of the tool or of another camera. -/
def step (s : System) : Event → Option System
  | .setUp => some { s with initialized := true }
  | .capture slice =>
    match s.phase with
    | .capturing =>
      match (model.driver cv).capture f.size slice s.device with
      | none => none
      | some (device, none) =>
        some { s with device, slices := s.slices ++ [none], phase := .sending }
      | some (device, some image) => some { s with device, phase := .locking image }
    | _ => none
  | .lockCamera =>
    match s.phase with
    | .locking image => (s.memory.startPut o.grants .camera image).map fun memory =>
        { s with memory, phase := .copying }
    | _ => none
  | .store => (s.memory.copy .camera).map fun memory => { s with memory }
  | .unlockCamera =>
    match s.memory.task .camera, s.memory.unlock .camera with
    | .putting image _, some (memory, _) =>
      some { s with memory, slices := s.slices ++ [some image], phase := .sending }
    | _, _ => none
  | .send =>
    match s.phase with
    | .sending =>
      some { s with
        conference := s.conference ++ [(f.sharedImage, s.slices.length)]
        phase := .capturing }
    | _ => none
  | .foreign image =>
    if image.name = f.name then none
    else some { s with conference := s.conference ++ [(image, 0)] }
  | .receive isValid =>
    match s.viewing, o.delivers s.conference with
    | .waiting, some ((image, number), conference) =>
      if s.initialized = true ∧ image.name = f.name ∧ isValid = true then
        some { s with conference, viewing := .attached number }
      else some { s with conference }
    | _, _ => none
  | .lockProjection =>
    match s.viewing with
    | .attached number => (s.memory.startTake o.grants .projection f.size.toNat).map fun memory =>
        { s with memory, viewing := .copying number }
    | _ => none
  | .load => (s.memory.copy .projection).map fun memory => { s with memory }
  | .unlockProjection =>
    match s.viewing, s.memory.unlock .projection with
    | .copying number, some (memory, some image) =>
      some { s with memory, viewing := .waiting, viewed := s.viewed ++ [(number, image)] }
    | _, _ => none

def run (s : System) (events : List Event) : Option System := events.foldlM (step o cv model f) s

/-- Both modules before their first slice, and the memory as the operating system gives it. -/
def start (content : Fin f.size.toNat → UInt8) : System where
  memory := { cells := List.ofFn content }

end Steps

/-- The frame of the last slice that had one. -/
def lastFrame (content : Bytes) (slices : List (Option Bytes)) : Bytes :=
  slices.foldl (fun content slice => slice.getD content) content

/-- The numbers of the containers of this camera that were or will be looked at. -/
def System.numbers (f : Format) (s : System) : List Nat :=
  s.viewed.map Prod.fst ++
    (match s.viewing with
      | .waiting => []
      | .attached number | .copying number => [number]) ++
    (s.conference.filter fun c => c.1.name = f.name).map Prod.snd

/-- The images are the frames after so many slices, none of them older than its container. -/
structure Views (content : Bytes) (slices : List (Option Bytes)) (viewed : List (Nat × Bytes))
    (moments : List Nat) : Prop where
  sorted : moments.Pairwise (· ≤ ·)
  frames : List.Forall₂ (fun v j => v.1 ≤ j ∧ j ≤ slices.length ∧
    v.2 = lastFrame content (slices.take j)) viewed moments

/-- What every step keeps. -/
structure Fresh (f : Format) (content : Bytes) (s : System) : Prop where
  holds : Holds s.memory (lastFrame content s.slices)
  length : (lastFrame content s.slices).length = f.size.toNat
  image : ∀ image, s.phase = .locking image → image.length = f.size.toNat
  putting : ∀ image k, s.memory.task .camera = .putting image k →
    image.length = f.size.toNat ∧ s.phase = .copying
  wanted : ∀ n got, s.memory.task .projection = .taking n got → n = f.size.toNat
  increasing : (s.numbers f).Pairwise (· < ·)
  past : ∀ k ∈ s.numbers f, k ≤ s.slices.length ∧ (s.phase = .sending → k < s.slices.length)
  views : ∃ moments, Views content s.slices s.viewed moments

section Frames
variable {content : Bytes} {slices : List (Option Bytes)} {viewed : List (Nat × Bytes)}
  {moments : List Nat}

theorem lastFrame_append (slice : Option Bytes) :
    lastFrame content (slices ++ [slice]) = slice.getD (lastFrame content slices) := by
  simp [lastFrame]

theorem Views.more (views : Views content slices viewed moments) (slice : Option Bytes) :
    Views content (slices ++ [slice]) viewed moments where
  sorted := views.sorted
  frames := views.frames.imp fun v j frame => by
    rw [List.take_append_of_le_length frame.2.1, List.length_append]
    exact ⟨frame.1, Nat.le_add_right_of_le frame.2.1, frame.2.2⟩

theorem Views.bound (views : Views content slices viewed moments) :
    ∀ j ∈ moments, j ≤ slices.length := by
  have frames := views.frames
  clear views
  induction frames with
  | nil => exact fun j there => absurd there List.not_mem_nil
  | cons frame _ ih =>
    rintro j (_ | ⟨_, there⟩)
    · exact frame.2.1
    · exact ih j there

/-- The image that is taken now is the frame of all slices so far. -/
theorem Views.view (views : Views content slices viewed moments) {number : Nat}
    (past : number ≤ slices.length) :
    Views content slices (viewed ++ [(number, lastFrame content slices)])
      (moments ++ [slices.length]) where
  sorted := List.pairwise_append.mpr ⟨views.sorted, List.pairwise_singleton _ _,
    fun j there k here => List.mem_singleton.mp here ▸ views.bound j there⟩
  frames := List.rel_append views.frames
    (.cons ⟨past, Nat.le_refl _, by rw [List.take_length]⟩ .nil)

end Frames

section Step
variable {o : Odcore} {cv : OpenCV} {model : Model} {f : Format} {content : Bytes} {s s' : System}

theorem Model.driver_whole (cv : OpenCV) (model : Model) (size : UInt32) :
    (model.driver cv).Whole size := by
  cases model with
  | openCV bpp flipped => exact openCVCamera_whole cv.cvtColor cv.cvFlip bpp flipped
  | axis calibrated => exact axisCamera_whole cv.undistort calibrated
  | replay => exact videoCapture_whole

/-- The number of a container that is delivered goes on, or is dropped. -/
theorem Fresh.receive (orderly : o.Orderly) (fresh : Fresh f content s) {isValid : Bool}
    (received : step o cv model f s (.receive isValid) = some s') : Fresh f content s' := by
  simp only [step] at received
  split at received
  · rename_i image number rest waiting delivered
    have kept : ((image, number) :: rest |>.filter fun c => c.1.name = f.name).map Prod.snd |>.Sublist
        ((s.conference.filter fun c => c.1.name = f.name).map Prod.snd) :=
      ((orderly.inOrder _ _ _ delivered).filter _).map _
    have before : s.numbers f = s.viewed.map Prod.fst ++
        (s.conference.filter fun c => c.1.name = f.name).map Prod.snd := by
      rw [System.numbers, waiting, List.append_nil]
    split at received
    · rename_i looks
      cases received
      have fewer : (System.numbers f { s with conference := rest, viewing := .attached number }).Sublist
          (s.numbers f) := by
        rw [before, System.numbers, List.append_assoc]
        refine (List.Sublist.refl _).append ?_
        rwa [List.filter_cons_of_pos (by simpa using looks.2.1)] at kept
      exact ⟨fresh.holds, fresh.length, fresh.image, fresh.putting, fresh.wanted,
        fresh.increasing.sublist fewer, fun k there => fresh.past k (fewer.subset there),
        fresh.views⟩
    · cases received
      have fewer : (System.numbers f { s with conference := rest }).Sublist (s.numbers f) := by
        rw [before, System.numbers, waiting, List.append_nil]
        exact (List.Sublist.refl _).append
          ((((List.sublist_cons_self _ _).filter _).map _).trans kept)
      exact ⟨fresh.holds, fresh.length, fresh.image, fresh.putting, fresh.wanted,
        fresh.increasing.sublist fewer, fun k there => fresh.past k (fewer.subset there),
        fresh.views⟩
  · cases received

/-- A slice is over, with a new frame in the memory or without. -/
theorem Fresh.slice (fresh : Fresh f content s) (device : Image) {memory : Memory Party UInt8}
    {slice : Option Bytes} (size : ∀ image ∈ slice, image.length = f.size.toNat)
    (holds : Holds memory (lastFrame content (s.slices ++ [slice])))
    (idle : ∀ image k, memory.task .camera ≠ .putting image k)
    (wanted : memory.task .projection = s.memory.task .projection) :
    Fresh f content
      { s with device, memory, slices := s.slices ++ [slice], phase := .sending } where
  holds := holds
  length := by
    rw [lastFrame_append]
    cases slice with
    | none => exact fresh.length
    | some image => exact size image rfl
  image := nofun
  putting image k task := absurd task (idle image k)
  wanted n got task := fresh.wanted n got (wanted ▸ task)
  increasing := fresh.increasing
  past k there := by
    have before := (fresh.past k there).1
    simp only [List.length_append, List.length_singleton]
    exact ⟨Nat.le_succ_of_le before, fun _ => Nat.lt_succ_of_le before⟩
  views := by
    obtain ⟨moments, views⟩ := fresh.views
    exact ⟨moments, views.more slice⟩

theorem Fresh.capture (fresh : Fresh f content s) {slice : Slice}
    (captured : step o cv model f s (.capture slice) = some s') : Fresh f content s' := by
  simp only [step] at captured
  split at captured
  · rename_i capturing
    have idle : ∀ image k, s.memory.task .camera ≠ .putting image k := by
      intro image k task
      have copying := (fresh.putting image k task).2
      rw [capturing] at copying
      cases copying
    split at captured
    · cases captured
    · cases captured
      refine fresh.slice _ nofun ?_ idle rfl
      rw [lastFrame_append]
      exact fresh.holds
    · rename_i device image done
      cases captured
      have length := (model.driver_whole cv f.size).length_capture done
      refine ⟨fresh.holds, fresh.length, ?_, fun image k task => absurd task (idle image k),
        fresh.wanted, fresh.increasing, fun k there => ⟨(fresh.past k there).1, nofun⟩, fresh.views⟩
      rintro _ ⟨⟩
      exact length
  · cases captured

theorem Fresh.lockCamera (orderly : o.Orderly) (fresh : Fresh f content s)
    (locked : step o cv model f s .lockCamera = some s') : Fresh f content s' := by
  simp only [step] at locked
  split at locked
  · rename_i image locking
    obtain ⟨memory, started, result⟩ := Option.map_eq_some_iff.mp locked
    cases result
    have length := fresh.image image locking
    have task := lock_task started
    refine ⟨fresh.holds.startPut orderly.exclusive (length.trans fresh.length.symm) started, fresh.length, nofun,
      fun image' k put => ?_, fun n got take => fresh.wanted n got ?_, fresh.increasing,
      fun k there => ⟨(fresh.past k there).1, nofun⟩, fresh.views⟩
    · rw [task, Function.update_self] at put
      cases put
      exact ⟨length, rfl⟩
    · rwa [task, Function.update_of_ne (by decide)] at take
  · cases locked

/-- A cell copied by either of them. -/
theorem Fresh.copy (fresh : Fresh f content s) {who : Party} {memory : Memory Party UInt8}
    (copied : s.memory.copy who = some memory) : Fresh f content { s with memory } := by
  obtain ⟨t, task, before⟩ := copy_task copied
  refine ⟨fresh.holds.copy copied, fresh.length, fresh.image, fun image k put => ?_,
    fun n got take => ?_, fresh.increasing, fresh.past, fresh.views⟩
  · rcases eq_or_ne Party.camera who with rfl | other
    · rw [task, Function.update_self] at put
      rcases before with ⟨source, j, old, rfl⟩ | ⟨n, got, cell, _, rfl⟩
      · cases put
        exact fresh.putting _ _ old
      · cases put
    · rw [task, Function.update_of_ne other] at put
      exact fresh.putting _ _ put
  · rcases eq_or_ne Party.projection who with rfl | other
    · rw [task, Function.update_self] at take
      rcases before with ⟨source, j, _, rfl⟩ | ⟨m, old, cell, was, rfl⟩
      · cases take
      · cases take
        exact fresh.wanted _ _ was
    · rw [task, Function.update_of_ne other] at take
      exact fresh.wanted _ _ take

theorem Fresh.unlockCamera (fresh : Fresh f content s)
    (unlocked : step o cv model f s .unlockCamera = some s') : Fresh f content s' := by
  simp only [step] at unlocked
  split at unlocked
  · rename_i image k memory result task done
    cases unlocked
    have idle := unlock_task done
    refine fresh.slice _ ?_ ?_ ?_ ?_
    · rintro _ ⟨⟩
      exact (fresh.putting _ _ task).1
    · rw [lastFrame_append]
      rcases fresh.holds.unlock done with ⟨source, was, _, holds⟩ | ⟨_, ⟨got, was⟩, _⟩
      · rw [task] at was
        cases was
        exact holds
      · rw [task] at was
        cases was
    · intro image' k' put
      rw [idle, Function.update_self] at put
      cases put
    · rw [idle, Function.update_of_ne (by decide)]
  · cases unlocked

theorem Fresh.send (fresh : Fresh f content s) (sent : step o cv model f s .send = some s') :
    Fresh f content s' := by
  simp only [step] at sent
  split at sent
  · rename_i sending
    cases sent
    have more : System.numbers f { s with
        conference := s.conference ++ [(f.sharedImage, s.slices.length)]
        phase := .capturing } = s.numbers f ++ [s.slices.length] := by
      simp [System.numbers, Format.sharedImage]
    have idle : ∀ image k, s.memory.task .camera ≠ .putting image k := by
      intro image k task
      have copying := (fresh.putting image k task).2
      rw [sending] at copying
      cases copying
    refine ⟨fresh.holds, fresh.length, nofun, fun image k task => absurd task (idle image k),
      fresh.wanted, more ▸ ?_, more ▸ fun k there => ⟨?_, nofun⟩, fresh.views⟩
    · refine List.pairwise_append.mpr ⟨fresh.increasing, List.pairwise_singleton _ _, ?_⟩
      intro k there j here
      rw [List.mem_singleton.mp here]
      exact (fresh.past k there).2 sending
    · rcases List.mem_append.mp there with before | last
      · exact (fresh.past k before).1
      · exact Nat.le_of_eq (List.mem_singleton.mp last)
  · cases sent

theorem Fresh.foreign (fresh : Fresh f content s) {image : SharedImage}
    (sent : step o cv model f s (.foreign image) = some s') : Fresh f content s' := by
  simp only [step] at sent
  split at sent
  · cases sent
  · rename_i other
    cases sent
    have same : System.numbers f { s with conference := s.conference ++ [(image, 0)] } =
        s.numbers f := by
      simp [System.numbers, other]
    exact ⟨fresh.holds, fresh.length, fresh.image, fresh.putting, fresh.wanted,
      same ▸ fresh.increasing, same ▸ fresh.past, fresh.views⟩

theorem Fresh.lockProjection (orderly : o.Orderly) (fresh : Fresh f content s)
    (locked : step o cv model f s .lockProjection = some s') : Fresh f content s' := by
  simp only [step] at locked
  split at locked
  · rename_i number attached
    obtain ⟨memory, started, result⟩ := Option.map_eq_some_iff.mp locked
    cases result
    have task := lock_task started
    have same : System.numbers f { s with memory, viewing := .copying number } = s.numbers f := by
      simp [System.numbers, attached]
    refine ⟨fresh.holds.startTake orderly.exclusive started, fresh.length, fresh.image, fun image k put => ?_,
      fun n got take => ?_, same ▸ fresh.increasing, same ▸ fresh.past, fresh.views⟩
    · rw [task, Function.update_of_ne (by decide)] at put
      exact fresh.putting _ _ put
    · rw [task, Function.update_self] at take
      cases take
      rfl
  · cases locked

theorem Fresh.unlockProjection (fresh : Fresh f content s)
    (unlocked : step o cv model f s .unlockProjection = some s') : Fresh f content s' := by
  simp only [step] at unlocked
  split at unlocked
  · rename_i number memory image copying done
    cases unlocked
    have idle := unlock_task done
    have same : System.numbers f { s with
        memory
        viewing := .waiting
        viewed := s.viewed ++ [(number, image)] } = s.numbers f := by
      simp [System.numbers, copying]
    have past : number ≤ s.slices.length :=
      (fresh.past number (by simp [System.numbers, copying])).1
    rcases fresh.holds.unlock done with ⟨_, _, none, _⟩ | ⟨n, ⟨got, task⟩, whole, holds⟩
    · cases none
    · have all : image = lastFrame content s.slices := by
        rw [Option.some.inj whole, fresh.wanted n got task, ← fresh.length, List.take_length]
      obtain ⟨moments, views⟩ := fresh.views
      refine ⟨holds, fresh.length, fresh.image, fun image' k put => ?_, fun n' got' take => ?_,
        same ▸ fresh.increasing, same ▸ fresh.past, ⟨_, all ▸ views.view past⟩⟩
      · rw [idle, Function.update_of_ne (by decide)] at put
        exact fresh.putting _ _ put
      · rw [idle, Function.update_self] at take
        cases take
  · cases unlocked

theorem Fresh.step (orderly : o.Orderly) (fresh : Fresh f content s) {event : Event}
    (stepped : Camera.step o cv model f s event = some s') : Fresh f content s' := by
  cases event with
  | setUp =>
    cases stepped
    exact ⟨fresh.holds, fresh.length, fresh.image, fresh.putting, fresh.wanted,
      fresh.increasing, fresh.past, fresh.views⟩
  | capture slice => exact fresh.capture stepped
  | lockCamera => exact fresh.lockCamera orderly stepped
  | store =>
    obtain ⟨memory, copied, result⟩ := Option.map_eq_some_iff.mp stepped
    exact result ▸ fresh.copy copied
  | unlockCamera => exact fresh.unlockCamera stepped
  | send => exact fresh.send stepped
  | foreign image => exact fresh.foreign stepped
  | receive isValid => exact fresh.receive orderly stepped
  | lockProjection => exact fresh.lockProjection orderly stepped
  | load =>
    obtain ⟨memory, copied, result⟩ := Option.map_eq_some_iff.mp stepped
    exact result ▸ fresh.copy copied
  | unlockProjection => exact fresh.unlockProjection stepped

theorem Fresh.run (orderly : o.Orderly) (fresh : Fresh f content s) {events : List Event}
    (ran : Camera.run o cv model f s events = some s') : Fresh f content s' := by
  induction events generalizing s with
  | nil =>
    cases ran
    exact fresh
  | cons event events ih =>
    obtain ⟨t, stepped, rest⟩ := Option.bind_eq_some_iff.mp ran
    exact ih (fresh.step orderly stepped) rest

theorem fresh_start (f : Format) (content : Fin f.size.toNat → UInt8) :
    Fresh f (List.ofFn content) (start f content) where
  holds := holds_free _
  length := List.length_ofFn
  image := nofun
  putting := nofun
  wanted := nofun
  increasing := .nil
  past _ there := absurd there List.not_mem_nil
  views := ⟨[], .nil, .nil⟩

end Step

/-- Under any interleaving the tool never sees a torn image: what it takes is the frame after some
number of slices (before the first frame, what the memory held), in the order of time, and never
older than the newest one at the time its container was sent. No container is looked at twice. -/
theorem views_fresh {o : Odcore} (orderly : o.Orderly) (cv : OpenCV) (model : Model) (f : Format)
    (content : Fin f.size.toNat → UInt8) (events : List Event) {s : System}
    (ran : run o cv model f (start f content) events = some s) :
    (s.viewed.map Prod.fst).Pairwise (· < ·) ∧
      ∃ moments, Views (List.ofFn content) s.slices s.viewed moments := by
  have fresh := (fresh_start f content).run orderly ran
  refine ⟨fresh.increasing.sublist ?_, fresh.views⟩
  rw [System.numbers, List.append_assoc]
  exact List.sublist_append_left _ _

/-- A free lock lets everybody in, and the container sent first is delivered first. -/
def oneAfterAnother : Odcore where
  grants memory _ := memory.owner.isNone
  delivers sent := sent.head?.map fun c => (c, sent.tail)

theorem oneAfterAnother_orderly : oneAfterAnother.Orderly where
  exclusive _ _ granted := Option.isNone_iff_eq_none.mp granted
  inOrder sent c rest delivered := by
    cases sent with
    | nil => cases delivered
    | cons =>
      cases delivered
      exact .refl _

/-- A slice with a frame and one without, and the tool behind both of them. -/
def twoSlices : List Event :=
  [.setUp, .capture ⟨true, true, some [7], true⟩, .lockCamera, .store, .unlockCamera, .send,
    .capture ⟨true, false, none, true⟩, .send, .receive true, .lockProjection, .load,
    .unlockProjection, .receive true, .lockProjection, .load, .unlockProjection]

/-- The old frame is taken twice, once for each container. -/
theorem views_fresh_twoSlices : ∃ s,
    run oneAfterAnother ⟨id, id, id⟩ .replay ⟨"camera", 1, 1, 1⟩
        (start ⟨"camera", 1, 1, 1⟩ fun _ => 0) twoSlices = some s ∧
      s.viewed = [(1, [7]), (2, [7])] ∧ (s.viewed.map Prod.fst).Pairwise (· < ·) ∧
      ∃ moments, Views (List.ofFn fun _ : Fin 1 => (0 : UInt8)) s.slices s.viewed moments := by
  have eval : (run oneAfterAnother ⟨id, id, id⟩ .replay ⟨"camera", 1, 1, 1⟩
      (start ⟨"camera", 1, 1, 1⟩ fun _ => 0) twoSlices).map System.viewed =
        some [(1, [7]), (2, [7])] := by decide +kernel
  obtain ⟨s, ran, viewed⟩ := Option.map_eq_some_iff.mp eval
  exact ⟨s, ran, viewed, views_fresh oneAfterAnother_orderly ⟨id, id, id⟩ .replay
    ⟨"camera", 1, 1, 1⟩ (fun _ => 0) twoSlices ran⟩

end OpendlvCore.Camera
