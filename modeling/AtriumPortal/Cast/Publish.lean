import AtriumPortal.Cast.State
/-!
# The PipeWire process path

`cast/publish.rs` and `copy_into_pool` of `cast/copy.rs`: reclaim what the
consumer returned, then publish the pending frame, as the buffer bound to its
slot or through the copy path.
-/
open AtriumPortal.Ipc

namespace AtriumPortal.Cast.StreamData

/-- One turn of the reclaim loop, on a dequeued buffer. -/
def reclaimBuffer (s : StreamData) (b : Buf) : StreamData :=
  match s.transport.boundSlot b with
  | some slot =>
    match s.binding slot with
    | some ⟨_, true⟩ =>
      let s' := { s with transport := s.transport.modifyBinding slot (setInFlight false) }
      if s.transport.slotFiles.isEmpty then s' else s'.sendRelease slot (s.held slot) .reclaimed
    | _ => s
  | none => { s with pool := s.pool ++ [b] }

def reclaimLoop : List Buf → StreamData → StreamData
  | [], s => s
  | b :: rest, s => reclaimLoop rest (reclaimBuffer { s with returned := rest } b)

/-- `reclaim_returned_buffers`: dequeue until PipeWire has nothing left. -/
def reclaimReturnedBuffers (s : StreamData) : StreamData := reclaimLoop s.returned s

def dropFrame (s : StreamData) : StreamData := { s with droppedFrames := s.droppedFrames + 1 }

/-- `copy_into_pool` can read the rows: the descriptor stats, holds them within the
frame limit, and maps. -/
def readable (file : File) (stride width height : Nat) : Bool :=
  match file.len with
  | none => false
  | some srcLen =>
    let needed := stride * (height - 1) + width * 4
    needed ≤ srcLen && needed ≤ maxFrameBytes && file.mappable

/-- The oldest pooled buffer, or else one more dequeue. -/
def takeBuffer (s : StreamData) : Option (Buf × StreamData) :=
  match s.pool, s.returned with
  | b :: rest, _ => some (b, { s with pool := rest })
  | [], b :: rest => some (b, { s with returned := rest })
  | [], [] => none

def queueRawBuffer (s : StreamData) (b : Buf) (damage : List Rect) : StreamData :=
  { s with
    sequence := s.sequence + 1
    consumer := b :: s.consumer
    log := .queued b (s.transport.boundSlot b) s.sequence damage :: s.log }

/-- `copy_into_pool`; `false` only when there was no free buffer. -/
def copyIntoPool (s : StreamData) (source : Source) (file : File) (stride : Nat) (damage : List Rect) : StreamData × Bool :=
  let width := s.transport.width
  let height := s.transport.height
  if !readable file stride width height then (s.dropFrame, true)
  else
    match s.takeBuffer with
    | none => (s, false)
    | some (b, s) =>
      match s.poolMem.lookup b with
      | none => ({ s with pool := s.pool ++ [b] }.dropFrame, true)
      | some destCap =>
        if destCap < height * (width * 4) then ({ s with pool := s.pool ++ [b] }.dropFrame, true)
        else
          let s := { s with log := .copied source b stride width height :: s.log }
          (s.queueRawBuffer b damage, true)

/-- Queue the buffer bound to the slot. -/
def forwardSlot (s : StreamData) (slot : Nat) (b : Buf) (damage : List Rect) : StreamData :=
  { s with transport := s.transport.modifyBinding slot (setInFlight true) }.queueRawBuffer b damage

/-- `publish_slot`. -/
def publishSlot (s : StreamData) (slot : Nat) (damage : List Rect) : StreamData :=
  match s.binding slot with
  | none => s.dropFrame
  | some binding =>
    if binding.inFlight then s.dropFrame
    else
      match s.negotiation.forwardingEligible, binding.pool with
      | true, some b => s.forwardSlot slot b damage
      | _, _ =>
        if !s.transport.cpuMappable then s.dropFrame.releaseSlot slot .unmappable
        else
          match s.transport.slotFiles[slot]? with
          | none => s
          | some slotFile =>
            (s.copyIntoPool (.slot slot) slotFile.file slotFile.stride damage).1.releaseSlot slot .copied

/-- Publish the pending frame, if any. -/
def publishPending (s : StreamData) : StreamData :=
  if !s.pending then s
  else
    match s.latest with
    | none => { s with pending := false }
    | some (.descriptor file stride damage) =>
      match s.copyIntoPool .descriptor file stride damage with
      | (s, true) => { s with pending := false }
      | (s, false) => s
    | some (.slot slot damage) => { s.publishSlot slot damage with pending := false }

/-- The consumer gives a buffer back to PipeWire. -/
def returnBuffer (s : StreamData) (b : Buf) : Option StreamData :=
  if b ∈ s.consumer then some { s with consumer := s.consumer.filter (· != b), returned := s.returned ++ [b] } else none

/-- Several buffers come back, one after the other. -/
def returnBuffers : List Buf → StreamData → Option StreamData
  | [], s => some s
  | b :: rest, s => (s.returnBuffer b).bind (returnBuffers rest)

/-- `process_frame`: one PipeWire cycle. `late` are the buffers the consumer
returns after the reclaim loop saw an empty queue and before the frame is
published. -/
def processFrame (s : StreamData) (late : List Buf) : Option StreamData :=
  (returnBuffers late s.reclaimReturnedBuffers).map publishPending

end AtriumPortal.Cast.StreamData
