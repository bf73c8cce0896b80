import AtriumPortal.Cast.Frame
import AtriumPortal.Lib.Ledger
import Mathlib.Data.List.Basic
/-!
# The live cast state

`cast/state.rs`: the compositor-side transport with its slot table, the delivery
negotiation, the latest frame, and the restarts that swap the transport. `StreamData`
is everything the callbacks of the cast's main loop share, with the PipeWire
pool around it: `buffers` are the buffers PipeWire has given to the stream,
`consumer` the ones queued to the consumer and `returned` what
`dequeue_raw_buffer` would hand out, oldest first. `log` records, newest first,
what the cast was sent and what it did with slots.
-/
open AtriumPortal.Ipc

namespace AtriumPortal.Cast

/-- A `*mut pw_buffer`. -/
abbrev Buf := Nat

inductive DeliveryMode where
  | shm
  | dmabuf
  deriving DecidableEq, Repr

structure Negotiation where
  mode : DeliveryMode
  consumerDataTypes : Option Nat
  deriving DecidableEq, Repr

def Negotiation.forwardingEligible (n : Negotiation) : Bool :=
  n.mode == .dmabuf && match n.consumerDataTypes with
    | none => true
    | some mask => mask &&& dmabufDataTypeBit != 0

/-- `inFlight`: the slot's buffer is with the consumer, as far as the cast knows. -/
structure SlotBinding where
  pool : Option Buf
  inFlight : Bool
  deriving DecidableEq, Repr

def setInFlight (inFlight : Bool) (binding : SlotBinding) : SlotBinding :=
  { binding with inFlight := inFlight }

structure Transport where
  streamId : Nat
  target : StreamTarget
  cursor : StreamCursorMode
  dmabuf : Bool
  width : Nat
  height : Nat
  announced : AnnouncedFormat
  offeredModifier : Option Nat
  slotFiles : List StreamSlot
  slotBindings : List SlotBinding
  deriving DecidableEq, Repr

namespace Transport

def slotCount (t : Transport) : Nat := t.slotFiles.length

def unbound (slotCount : Nat) : List SlotBinding := List.replicate slotCount ⟨none, false⟩

/-- The modifier an offer carries: only a dmabuf slot stream has one. -/
def offerModifier (announced : AnnouncedFormat) (slotCount : Nat) : Option Nat :=
  match announced with
  | .dmabuf _ modifier _ => if 0 < slotCount then some modifier else none
  | .shm _ => none

def new (started : StreamStarted) (target : StreamTarget) (cursor : StreamCursorMode) (dmabuf : Bool) :
    Option Transport :=
  (announcedFormat started.format).map fun announced =>
    let slotFiles := started.slots.getD []
    { streamId := started.streamId, target, cursor, dmabuf,
      width := started.width, height := started.height, announced,
      offeredModifier := offerModifier announced slotFiles.length,
      slotFiles, slotBindings := unbound slotFiles.length }

def cpuMappable (t : Transport) : Bool :=
  match t.announced with
  | .shm _ => true
  | .dmabuf _ modifier _ => modifier == drmFormatModLinear

/-- `swap_restarted`: the offer (`offeredModifier`) stays as it was. -/
def swapRestarted (t : Transport) (started : StreamStarted) (dmabuf : Bool) : Option Transport :=
  (announcedFormat started.format).map fun announced =>
    let slotFiles := started.slots.getD []
    { t with
      streamId := started.streamId, width := started.width, height := started.height, dmabuf, announced,
      slotFiles, slotBindings := unbound slotFiles.length }

/-- The slot whose binding holds buffer `b`. -/
def boundSlot (t : Transport) (b : Buf) : Option Nat :=
  t.slotBindings.findIdx? (fun binding => binding.pool == some b)

def modifyBinding (t : Transport) (slot : Nat) (f : SlotBinding → SlotBinding) : Transport :=
  { t with slotBindings := t.slotBindings.modify slot f }

end Transport

/-- What made the cast give a slot back. -/
inductive Cause where
  | replaced | reclaimed | copied | unmappable | removed | teardown
  deriving DecidableEq, Repr

/-- Where copied pixels come from. -/
inductive Source where
  | descriptor
  | slot (slot : Nat)
  deriving DecidableEq, Repr

inductive Event where
  /-- A frame of the live stream arrived; `accepted` by `validate_frame` or not. -/
  | delivered (frame : StreamFrame) (accepted : Bool)
  /-- A `StreamBufferRelease`; `held` when the slot's buffer was with the consumer. -/
  | released (streamId slot : Nat) (held : Bool) (cause : Cause)
  | copied (source : Source) (buffer : Buf) (stride width height : Nat)
  /-- A buffer was queued to the consumer; `slot` is the slot it is bound to. -/
  | queued (buffer : Buf) (slot : Option Nat) (sequence : Nat) (damage : List Rect)
  | restarted
  deriving DecidableEq, Repr

structure StreamData where
  transport : Transport
  latest : Option FramePayload
  pending : Bool
  negotiation : Negotiation
  pool : List Buf
  poolMem : List (Buf × Nat)
  buffers : List Buf
  returned : List Buf
  consumer : List Buf
  sequence : Nat
  droppedFrames : Nat
  offered : List FormatPod
  quit : Bool
  ended : Bool
  log : List Event
  deriving DecidableEq, Repr

namespace StreamData

def binding (s : StreamData) (slot : Nat) : Option SlotBinding := s.transport.slotBindings[slot]?

/-- The buffer bound to the slot is with the consumer. -/
def held (s : StreamData) (slot : Nat) : Bool :=
  match s.binding slot with
  | some ⟨some b, _⟩ => s.consumer.contains b
  | _ => false

/-- Send a `StreamBufferRelease` on the live stream. -/
def sendRelease (s : StreamData) (slot : Nat) (held : Bool) (cause : Cause) : StreamData :=
  { s with log := .released s.transport.streamId slot held cause :: s.log }

/-- `release_slot`: a stream without slots has nothing to release. -/
def releaseSlot (s : StreamData) (slot : Nat) (cause : Cause) : StreamData :=
  if s.transport.slotFiles.isEmpty then s else s.sendRelease slot (s.held slot) cause

/-- `replace_latest`: store a newly arrived frame; a superseded slot frame that
was still pending is released. -/
def replaceLatest (s : StreamData) (payload : FramePayload) : StreamData :=
  let s' := match s.pending, s.latest with
    | true, some (.slot slot _) => s.releaseSlot slot .replaced
    | _, _ => s
  { s' with latest := some payload, pending := true }

/-- The compositor's answers to the stop and the start of a restart. -/
structure RestartAnswer where
  stopped : Bool
  started : Option StreamStarted
  deriving DecidableEq, Repr

/-- Swap in a restarted stream: frames of the superseded one are dropped
without releases. -/
def swapTransport (s : StreamData) (t : Transport) : StreamData :=
  { s with transport := t, latest := none, pending := false, log := .restarted :: s.log }

def wantDmabuf (t : Transport) (fixatedModifier : Option Nat) : Bool :=
  match t.offeredModifier, fixatedModifier with
  | some offered, some fixated => fixated == offered
  | _, _ => false

def needsSwitch (t : Transport) (fixatedModifier : Option Nat) : Bool :=
  if wantDmabuf t fixatedModifier then !t.announced.isDmabuf
  else t.announced.isDmabuf && !t.cpuMappable

/-- `sync_transport`; `none` is an error, which leaves the transport as it was. -/
def syncTransport (s : StreamData) (fixatedModifier : Option Nat) (answer : RestartAnswer) : Option StreamData :=
  if !needsSwitch s.transport fixatedModifier then some s
  else if !answer.stopped then none
  else
    answer.started.bind fun started =>
      if started.width ≠ s.transport.width ∨ started.height ≠ s.transport.height then none
      else
        (announcedFormat started.format).bind fun announced =>
          if announced.spaFormat ≠ s.transport.announced.spaFormat then none
          else (s.transport.swapRestarted started (wantDmabuf s.transport fixatedModifier)).map s.swapTransport

/-- The delivery mode for a fixated modifier on a transport. -/
def deliveryMode (t : Transport) (fixatedModifier : Option Nat) : DeliveryMode :=
  match t.announced, fixatedModifier with
  | .dmabuf _ modifier _, some fixated =>
    if fixated = modifier ∧ t.slotFiles ≠ [] then .dmabuf else .shm
  | _, _ => .shm

def applyFixatedFormat (s : StreamData) (fixated : FixatedFormat) (answer : RestartAnswer) : StreamData :=
  match s.syncTransport fixated.modifier answer with
  | none => { s with quit := true }
  | some s =>
    { s with negotiation := { s.negotiation with mode := deliveryMode s.transport fixated.modifier } }

/-- `restart_stream_geometry`; `none` is an error, which fails the cast. -/
def restartStreamGeometry (s : StreamData) (streamId width height : Nat) (answer : RestartAnswer) : Option StreamData :=
  if s.transport.streamId ≠ streamId then none
  else
    (frameLen width height).bind fun _ =>
      if !answer.stopped then none
      else
        answer.started.bind fun started =>
          if started.width ≠ width ∨ started.height ≠ height then none
          else
            (s.transport.swapRestarted started s.transport.dmabuf).map fun t =>
              s.swapTransport { t with offeredModifier := Transport.offerModifier t.announced t.slotCount }

end StreamData

end AtriumPortal.Cast
