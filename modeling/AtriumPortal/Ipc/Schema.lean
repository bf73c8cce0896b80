import Mathlib.Data.Nat.Notation
/-!
# The projected compositor IPC schema

The records and messages of `schema.rs` that the portal's clients exchange with
the compositor. Integers of the wire are `Nat` (`u32`, `u64`) and `Int` (`i32`).
A descriptor that crosses the socket is a `File`: what `fstat`, `F_GET_SEALS`
and `mmap` answer for it.
-/

namespace AtriumPortal.Ipc

def protocolVersion : Nat := 29
def minProtocolVersion : Nat := 24
def maxBlobBytes : Nat := 288 * 1024 * 1024

structure ConnectionCapabilities where
  query : Bool
  control : Bool
  input : Bool
  session : Bool
  interactionDomain : Bool
  deriving DecidableEq, Repr

structure LeaseGrant where
  id : Nat
  ttlMs : Nat
  renewable : Bool
  deriving DecidableEq, Repr

structure Point where
  x : Int
  y : Int
  deriving DecidableEq, Repr

structure Size where
  w : Int
  h : Int
  deriving DecidableEq, Repr

structure Rect where
  origin : Point
  size : Size
  deriving DecidableEq, Repr

structure OutputInfo where
  connector : String
  primary : Bool
  rect : Rect
  deriving DecidableEq, Repr

inductive StreamPixelFormat where
  | bgra8
  | rgba8
  | dmabuf (drmFormat modifier : Nat)
  deriving DecidableEq, Repr

inductive StreamTarget where
  | output (output : Option String)
  | window (window : Nat)
  deriving DecidableEq, Repr

inductive StreamCursorMode where
  | hidden
  | embedded
  deriving DecidableEq, Repr

inductive PickKind where
  | region | pixel | window | output
  deriving DecidableEq, Repr

inductive PickResult where
  | region (rect : Rect)
  | pixel (point : Point) (rgb : Nat × Nat × Nat)
  | window (id : Nat)
  | output (connector : Option String)
  | cancelled
  deriving DecidableEq, Repr

inductive ConfirmPickResult where
  | confirmed
  | cancelled
  deriving DecidableEq, Repr

/-- A received descriptor. `len` is `none` when it cannot be stat'ed. -/
structure File where
  fd : Nat
  regular : Bool
  len : Option Nat
  sealed : Bool
  mappable : Bool
  deriving DecidableEq, Repr

/-- The header of a `StreamFrame` event. -/
structure FrameHeader where
  streamId : Nat
  sequence : Nat
  width : Nat
  height : Nat
  stride : Nat
  format : StreamPixelFormat
  damage : List Rect
  dropped : Nat
  byteLen : Nat
  slot : Option Nat
  deriving DecidableEq, Repr

inductive Event where
  | settingsChanged (revision : Nat)
  | streamFrame (header : FrameHeader)
  | streamEnded (streamId : Nat) (reason : String)
  | streamGeometryChanged (streamId width height : Nat)
  deriving DecidableEq, Repr

inductive Request where
  | hello (version : Nat) (caps : ConnectionCapabilities) (scope : Option String) (leaseTtlMs : Option Nat)
  | getSettings
  | subscribe
  | renewLease (ttlMs : Nat)
  | enumerateOutputs
  | captureOutput (region : Option Rect)
  | streamOutputStart (maxFps : Option Nat) (target : StreamTarget) (dmabuf : Option Bool)
      (cursor : Option StreamCursorMode)
  | streamBufferRelease (streamId slot : Nat)
  | streamOutputStop (streamId : Nat)
  | pickTarget (kind : PickKind)
  | pickConfirm (title body : String) (acceptLabel : Option String)
  | setWallpaper (path : String)
  deriving DecidableEq, Repr

inductive Response where
  | hello (version : Nat) (caps : ConnectionCapabilities) (lease : Option LeaseGrant)
  | settings
  | outputs (outputs : List OutputInfo)
  | captureOutput (width height pngBytes : Nat)
  | streamOutputStarted (streamId width height : Nat) (format : StreamPixelFormat)
      (slots slotStride slotBytes : Option Nat)
  | streamBufferReleased (streamId slot : Nat)
  | streamOutputStopped (streamId : Nat)
  | picked (result : PickResult)
  | confirmPicked (result : ConfirmPickResult)
  | wallpaperSet
  | leaseRenewed (lease : LeaseGrant)
  | subscribed
  | error (message : String)
  deriving DecidableEq, Repr

/-- One JSON value on the wire: an event, a response, a value of an unknown
`type`, or a value without one. -/
inductive Message where
  | event (event : Event)
  | response (response : Response)
  | unknown (type : String)
  | untyped
  deriving DecidableEq, Repr

structure StreamSlot where
  file : File
  stride : Nat
  byteLen : Nat
  deriving DecidableEq, Repr

structure StreamStarted where
  streamId : Nat
  width : Nat
  height : Nat
  format : StreamPixelFormat
  slots : Option (List StreamSlot)
  deriving DecidableEq, Repr

inductive StreamPayload where
  | memfd (file : File)
  | dmabuf (file : File)
  | slot
  deriving DecidableEq, Repr

structure StreamFrame where
  streamId : Nat
  sequence : Nat
  width : Nat
  height : Nat
  stride : Nat
  format : StreamPixelFormat
  damage : List Rect
  dropped : Nat
  slot : Option Nat
  payload : StreamPayload
  deriving DecidableEq, Repr

inductive StreamMessage where
  | frame (frame : StreamFrame)
  | ended (streamId : Nat) (reason : String)
  | leaseRenewed
  | geometryChanged (streamId width height : Nat)
  deriving DecidableEq, Repr

end AtriumPortal.Ipc
