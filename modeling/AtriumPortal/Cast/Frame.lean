import AtriumPortal.Cast.Format
import Mathlib.Algebra.Group.Nat.Defs
/-!
# Received compositor frames

`cast/frame.rs`: the payload a frame carries, and its validation against the
stream's announced format and geometry.
-/
open AtriumPortal.Ipc

namespace AtriumPortal.Cast

def maxFrameBytes : Nat := 256 * 1024 * 1024

inductive FramePayload where
  | descriptor (file : File) (stride : Nat) (damage : List Rect)
  | slot (slot : Nat) (damage : List Rect)
  deriving DecidableEq, Repr

def FramePayload.slot? : FramePayload → Option Nat
  | .slot k _ => some k
  | .descriptor _ _ _ => none

/-- Why a frame is ignored; only logged. -/
inductive FrameError where
  | geometry (width height : Nat)
  | stride (stride : Nat)
  | noSlotTable
  | slotRange (slot slotCount : Nat)
  | slotDescriptor
  | notPacked (stride : Nat)
  | notLinear (modifier : Nat)
  | format (wire : StreamPixelFormat) (announced : AnnouncedFormat)
  deriving DecidableEq, Repr

def i32Max : Nat := 2 ^ 31 - 1

def validateFrame (frame : StreamFrame) (width height : Nat) (announced : AnnouncedFormat)
    (slotCount : Nat) : Except FrameError FramePayload :=
  if frame.width ≠ width ∨ frame.height ≠ height then .error (.geometry frame.width frame.height)
  else
    let rowBytes := width * 4
    if frame.stride < rowBytes ∨ i32Max < frame.stride then .error (.stride frame.stride)
    else
      match frame.slot with
      | some slot =>
        if slotCount = 0 then .error .noSlotTable
        else if slotCount ≤ slot then .error (.slotRange slot slotCount)
        else if frame.payload ≠ .slot then .error .slotDescriptor
        else .ok (.slot slot frame.damage)
      | none =>
        match announced, frame.format, frame.payload with
        | .shm _, .bgra8, .memfd file | .shm _, .rgba8, .memfd file =>
          if frame.stride ≠ rowBytes then .error (.notPacked frame.stride)
          else .ok (.descriptor file frame.stride frame.damage)
        | .dmabuf drmFormat modifier f, .dmabuf frameDrm frameModifier, .dmabuf file =>
          if frameDrm = drmFormat ∧ frameModifier = modifier then
            if modifier ≠ drmFormatModLinear then .error (.notLinear modifier)
            else .ok (.descriptor file frame.stride frame.damage)
          else .error (.format (.dmabuf frameDrm frameModifier) (.dmabuf drmFormat modifier f))
        | announced, wire, _ => .error (.format wire announced)

/-- `frame_len`: a frame of a nonempty geometry within the frame limit. -/
def frameLen (width height : Nat) : Option Nat :=
  if width = 0 ∨ height = 0 ∨ maxFrameBytes < width * height * 4 then none else some (width * height * 4)

/-- An accepted slot frame names a slot of the table, the one its header names. -/
theorem validateFrame_slot {frame : StreamFrame} {w h : Nat} {announced : AnnouncedFormat} {count k : Nat}
    {damage : List Rect} (hv : validateFrame frame w h announced count = .ok (.slot k damage)) :
    frame.slot = some k ∧ k < count := by
  simp only [validateFrame] at hv
  split at hv
  · cases hv
  split at hv
  · cases hv
  split at hv
  · next slot hslot =>
    split at hv
    · cases hv
    split at hv
    · cases hv
    split at hv
    · cases hv
    simp only [Except.ok.injEq, FramePayload.slot.injEq] at hv
    exact ⟨by rw [hslot, hv.1], by omega⟩
  · split at hv <;> repeat' split at hv
    all_goals cases hv

end AtriumPortal.Cast
