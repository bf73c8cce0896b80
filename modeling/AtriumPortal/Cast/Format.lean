import AtriumPortal.Ipc.Schema
/-!
# Wire formats and PipeWire offers

`cast/format.rs`: how the compositor's pixel formats map to SPA formats, and
the format and buffer parameters the stream offers. A pod is the record of its
property values.
-/
open AtriumPortal.Ipc

namespace AtriumPortal.Cast

inductive VideoFormat where
  | BGRx | BGRA | RGBx | RGBA | xBGR | ABGR | xRGB | ARGB
  deriving DecidableEq, Repr

/-- `1 << SPA_DATA_DmaBuf`. -/
def dmabufDataTypeBit : Nat := 1 <<< 3
def shmPoolBuffers : Nat := 4
def drmFormatModLinear : Nat := 0

inductive AnnouncedFormat where
  | shm (spaFormat : VideoFormat)
  | dmabuf (drmFormat modifier : Nat) (spaFormat : VideoFormat)
  deriving DecidableEq, Repr

namespace AnnouncedFormat

def spaFormat : AnnouncedFormat → VideoFormat
  | .shm f => f
  | .dmabuf _ _ f => f

def isDmabuf : AnnouncedFormat → Bool
  | .shm _ => false
  | .dmabuf _ _ _ => true

end AnnouncedFormat

/-- Little-endian DRM fourcc. -/
def fourcc (a b c d : Char) : Nat :=
  a.toNat ||| (b.toNat <<< 8) ||| (c.toNat <<< 16) ||| (d.toNat <<< 24)

def spaFormatForDrm (drmFormat : Nat) : Option VideoFormat :=
  if drmFormat = fourcc 'X' 'R' '2' '4' then some .BGRx
  else if drmFormat = fourcc 'A' 'R' '2' '4' then some .BGRA
  else if drmFormat = fourcc 'X' 'B' '2' '4' then some .RGBx
  else if drmFormat = fourcc 'A' 'B' '2' '4' then some .RGBA
  else if drmFormat = fourcc 'R' 'X' '2' '4' then some .xBGR
  else if drmFormat = fourcc 'R' 'A' '2' '4' then some .ABGR
  else if drmFormat = fourcc 'B' 'X' '2' '4' then some .xRGB
  else if drmFormat = fourcc 'B' 'A' '2' '4' then some .ARGB
  else none

/-- `announced_format`; `none` is an unsupported fourcc, which fails the cast. -/
def announcedFormat : StreamPixelFormat → Option AnnouncedFormat
  | .bgra8 => some (.shm .BGRx)
  | .rgba8 => some (.shm .RGBx)
  | .dmabuf drmFormat modifier => (spaFormatForDrm drmFormat).map (.dmabuf drmFormat modifier)

/-- The fixated `SPA_PARAM_Format`. Format and geometry are only compared for a
warning; `none` in `spaFormat` is an id outside the eight offerable formats. -/
structure FixatedFormat where
  spaFormat : Option VideoFormat
  width : Nat
  height : Nat
  modifier : Option Nat
  deriving DecidableEq, Repr

structure FormatPod where
  width : Nat
  height : Nat
  spaFormat : VideoFormat
  modifier : Option Nat
  deriving DecidableEq, Repr

/-- `format_pods`: a slot stream offers its modifier entry first and the plain
entry as the fallback; everything else only the plain entry. -/
def formatPods (width height : Nat) (announced : AnnouncedFormat) (hasSlots : Bool) : List FormatPod :=
  match announced, hasSlots with
  | .dmabuf _ modifier f, true => [⟨width, height, f, some modifier⟩, ⟨width, height, f, none⟩]
  | _, _ => [⟨width, height, announced.spaFormat, none⟩]

end AtriumPortal.Cast
