import OpendlvCore.Bytes

/-!
# The cameras

`Camera::capture` with the two virtual functions of `OpenCVCamera` and `AxisCamera`, and
`VideoCapture` of the replay tool. A frame is the bytes behind its data pointer; what OpenCV does
to a frame is a parameter. `none` is an access behind a null pointer or past the end of a frame.
The debug windows and the calibration file of the Axis camera are left out.
-/
namespace OpendlvCore.Camera
open CBytes

structure SharedImage where
  name : String
  size : UInt32
  width : UInt32
  height : UInt32
  bytesPerPixel : UInt32
  deriving DecidableEq, Repr

/-- What the cameras are constructed with. -/
structure Format where
  name : String
  width : UInt32
  height : UInt32
  bpp : UInt32
  deriving DecidableEq, Repr

/-- `width * height * bpp` of `uint32_t` -/
def Format.size (f : Format) : UInt32 := f.width * f.height * f.bpp

def Format.sharedImage (f : Format) : SharedImage where
  name := f.name
  size := f.size
  width := f.width
  height := f.height
  bytesPerPixel := f.bpp

/-- What a time slice finds: the open device, a grabbed frame, the frame that is retrieved or a
null pointer, and a valid shared memory. -/
structure Slice where
  isOpened : Bool
  grabbed : Bool
  frame : Option Bytes
  memoryIsValid : Bool
  deriving DecidableEq, Repr

/-- The two virtual functions, on the members that they use. -/
structure Driver (σ : Type) where
  captureFrame : Slice → σ → Option (Bool × σ)
  /-- The bytes that are copied, if any. -/
  copyImageTo : UInt32 → σ → Option (σ × Option Bytes)

/-- `memcpy(dest, image, size)` -/
def memcpy (size : UInt32) (image : Bytes) : Option Bytes :=
  if size.toNat ≤ image.length then some (image.take size.toNat) else none

/-- `capture`, and what it copies to the shared memory. -/
def Driver.capture {σ : Type} (driver : Driver σ) (size : UInt32) (slice : Slice) (camera : σ) :
    Option (σ × Option Bytes) :=
  if slice.isOpened then
    match driver.captureFrame slice camera with
    | none => none
    | some (captured, camera) =>
      if captured && slice.memoryIsValid then driver.copyImageTo size camera
      else some (camera, none)
  else some (camera, none)

/-- `m_image` -/
abbrev Image := Option Bytes

section Drivers
variable (cvtColor cvFlip undistort : Bytes → Bytes)

/-- With one byte per pixel the colours are converted to grey. -/
def openCVCamera (bpp : UInt32) (flipped : Bool) : Driver Image where
  captureFrame slice image :=
    if slice.grabbed then
      if bpp = 1 then slice.frame.map fun tmpFrame => (true, some (cvtColor tmpFrame))
      else some (true, slice.frame)
    else some (false, image)
  copyImageTo size image :=
    match image with
    | some image =>
      if 0 < size then
        let image := if flipped then cvFlip image else image
        (memcpy size image).map fun copied => (some image, some copied)
      else some (some image, none)
    | none => some (none, none)

/-- `read` grabs and retrieves at once, and empties the image otherwise. -/
def videoCapture : Driver Image where
  captureFrame slice _ :=
    if slice.grabbed then some (slice.frame.isSome, slice.frame) else some (false, none)
  copyImageTo size image :=
    if 0 < size then (memcpy size (image.getD [])).map fun copied => (image, some copied)
    else some (image, none)

/-- The same with the lens corrected, if both matrices of the calibration were found. -/
def axisCamera (calibrated : Bool) : Driver Image where
  captureFrame slice image :=
    (videoCapture.captureFrame slice image).map fun (captured, image) =>
      (captured, if captured && calibrated then image.map undistort else image)
  copyImageTo := videoCapture.copyImageTo

end Drivers

/-- A driver that never copies more or less than the size of the image. -/
def Driver.Whole {σ : Type} (driver : Driver σ) (size : UInt32) : Prop :=
  ∀ camera camera' bytes, driver.copyImageTo size camera = some (camera', some bytes) →
    bytes.length = size.toNat

section Whole
variable {σ : Type} {driver : Driver σ} {size : UInt32}

theorem length_memcpy {image bytes : Bytes} (copied : memcpy size image = some bytes) :
    bytes.length = size.toNat := by
  unfold memcpy at copied
  split at copied
  · rename_i inside
    cases copied
    exact List.length_take_of_le inside
  · cases copied

theorem openCVCamera_whole (cvtColor cvFlip : Bytes → Bytes) (bpp : UInt32) (flipped : Bool) :
    (openCVCamera cvtColor cvFlip bpp flipped).Whole size := by
  intro image image' bytes copied
  cases image with
  | none => simp [openCVCamera] at copied
  | some image =>
    simp only [openCVCamera] at copied
    split at copied
    · obtain ⟨copy, done, result⟩ := Option.map_eq_some_iff.mp copied
      cases result
      exact length_memcpy done
    · cases copied

theorem videoCapture_whole : videoCapture.Whole size := by
  intro image image' bytes copied
  simp only [videoCapture] at copied
  split at copied
  · obtain ⟨copy, done, result⟩ := Option.map_eq_some_iff.mp copied
    cases result
    exact length_memcpy done
  · cases copied

theorem axisCamera_whole (undistort : Bytes → Bytes) (calibrated : Bool) :
    (axisCamera undistort calibrated).Whole size := videoCapture_whole

theorem Driver.Whole.length_capture (whole : driver.Whole size) {slice : Slice}
    {camera camera' : σ} {bytes : Bytes}
    (captured : driver.capture size slice camera = some (camera', some bytes)) :
    bytes.length = size.toNat := by
  unfold Driver.capture at captured
  split at captured
  · split at captured
    · cases captured
    · split at captured
      · exact whole _ _ _ captured
      · cases captured
  · cases captured

end Whole

end OpendlvCore.Camera
