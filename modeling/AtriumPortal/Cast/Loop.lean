import AtriumPortal.Cast.Publish
/-!
# The callbacks of the cast's main loop

`run_cast` of `cast/mod.rs`: every loop source and stream callback is one step of
the cast. The compositor is a party of the system: it renders into a slot only
while the slot is its own, so it announces a frame in a slot of the live stream
only when it has delivered no frame in it that is not yet released.
-/
open AtriumPortal.Ipc AtriumPortal.Lib.Ledger

namespace AtriumPortal.Cast

/-- The slot side of an event, for the ledger of owned slots. -/
def Event.entry : Event → Option (Entry Nat)
  | .delivered frame _ => frame.slot.map .give
  | .released _ slot _ _ => some (.take slot)
  | .copied (.slot slot) _ _ _ _ => some (.use slot)
  | .copied .descriptor _ _ _ _ => none
  | .queued _ slot _ _ => slot.map .use
  | .restarted => some .reset

/-- The slot entries of a log. -/
def entries (log : List Event) : List (Entry Nat) := log.filterMap Event.entry

inductive StreamState where
  | error (message : String)
  | unconnected
  | connecting
  | paused
  | streaming
  deriving DecidableEq, Repr

inductive Label where
  /-- What `next_stream_message` returned, and the answers to a restart. -/
  | ipc (message : Except String StreamMessage) (answer : StreamData.RestartAnswer)
  | process (late : List Buf)
  | returnBuffer (b : Buf)
  | stateChanged (new : StreamState)
  | formatParam (fixated : FixatedFormat) (answer : StreamData.RestartAnswer)
  | buffersParam (mask : Nat)
  /-- `hasData`: the buffer has data and chunk slots; `allocated`: `PoolMem::new` succeeded. -/
  | addBuffer (b : Buf) (hasData allocated : Bool)
  | removeBuffer (b : Buf)
  | stop
  | teardown
  deriving Repr

namespace StreamData

/-- How often the cast owns a slot of the live stream. -/
def owned (s : StreamData) (slot : Nat) : Nat := balance (entries s.log) slot

/-- The IPC source on a frame. -/
def ipcFrame (s : StreamData) (frame : StreamFrame) : StreamData :=
  if frame.streamId ≠ s.transport.streamId then s
  else
    match validateFrame frame s.transport.width s.transport.height s.transport.announced s.transport.slotCount with
    | .ok payload => { s with log := .delivered frame true :: s.log }.replaceLatest payload
    | .error _ => { s with log := .delivered frame false :: s.log }

/-- The compositor may send this frame: a slot of the live stream is delivered
only when it is not owned by the cast. -/
def MaySend (s : StreamData) (frame : StreamFrame) : Prop :=
  frame.streamId = s.transport.streamId → ∀ slot, frame.slot = some slot → s.owned slot = 0

instance (s : StreamData) (frame : StreamFrame) : Decidable (s.MaySend frame) :=
  match h : frame.slot with
  | none => .isTrue fun _ slot hs => by simp [h] at hs
  | some slot =>
    decidable_of_iff (frame.streamId = s.transport.streamId → s.owned slot = 0)
      ⟨fun hf hid k hk => by simp only [h, Option.some.injEq] at hk; exact hk ▸ hf hid, fun hf hid => hf hid slot h⟩

/-- The IPC source on a geometry change. -/
def ipcGeometryChanged (s : StreamData) (streamId width height : Nat) (answer : RestartAnswer) : StreamData :=
  if streamId ≠ s.transport.streamId then s
  else
    match s.restartStreamGeometry streamId width height answer with
    | some s' => { s' with
        offered := formatPods width height s'.transport.announced (0 < s'.transport.slotCount) }
    | none => { s with quit := true }

def ipcMessage (s : StreamData) : Except String StreamMessage → RestartAnswer → StreamData
  | .ok (.frame frame), _ => s.ipcFrame frame
  | .ok .leaseRenewed, _ => s
  | .ok (.geometryChanged streamId width height), answer => s.ipcGeometryChanged streamId width height answer
  | .ok (.ended _ _), _ => { s with quit := true }
  | .error _, _ => { s with quit := true }

def stateChanged (s : StreamData) : StreamState → StreamData
  | .error _ => { s with quit := true }
  | .streaming => if s.latest.isSome then { s with pending := true } else s
  | _ => s

/-- `add_buffer`: bind the first free slot when the consumer takes dmabufs, else
back the buffer with a memfd. Afterwards the buffer can be dequeued. -/
def addBuffer (s : StreamData) (b : Buf) (hasData allocated : Bool) : StreamData :=
  let free := if s.negotiation.forwardingEligible then
    s.transport.slotBindings.findIdx? (fun binding => binding.pool.isNone) else none
  let s := { s with buffers := b :: s.buffers, returned := s.returned ++ [b] }
  match free with
  | some slot => { s with transport := s.transport.modifyBinding slot ({ · with pool := some b }) }
  | none =>
    if hasData && allocated then
      { s with poolMem := (b, s.transport.width * s.transport.height * 4) :: s.poolMem }
    else s

/-- The buffer leaves PipeWire's queues and the cast's tables. -/
def forget (s : StreamData) (b : Buf) : StreamData :=
  { s with
    buffers := s.buffers.filter (· != b)
    returned := s.returned.filter (· != b)
    consumer := s.consumer.filter (· != b)
    poolMem := s.poolMem.filter (·.1 != b)
    pool := s.pool.filter (· != b) }

/-- `remove_buffer`: forget the buffer; an in-flight slot bound to it is released. -/
def removeBuffer (s : StreamData) (b : Buf) : StreamData :=
  match s.transport.boundSlot b with
  | none => s.forget b
  | some slot =>
    let s' := { s.forget b with transport := s.transport.modifyBinding slot fun _ => ⟨none, false⟩ }
    match s.binding slot with
    | some ⟨_, true⟩ =>
      if s.transport.slotFiles.isEmpty then s' else s'.sendRelease slot (s.held slot) .removed
    | _ => s'

/-- The releases after the main loop: one for every slot still in flight. -/
def teardownReleases (s : StreamData) : List SlotBinding → Nat → List Event
  | [], _ => []
  | binding :: rest, slot =>
    if binding.inFlight then
      s.teardownReleases rest (slot + 1) ++ [.released s.transport.streamId slot (s.held slot) .teardown]
    else s.teardownReleases rest (slot + 1)

def teardown (s : StreamData) : StreamData :=
  { s with
    poolMem := []
    ended := true
    log := s.teardownReleases s.transport.slotBindings 0 ++ s.log }

/-- One callback of the cast thread, or one move of the compositor or consumer. -/
def callback (s : StreamData) : Label → Option StreamData
  | .ipc message answer =>
    match message with
    | .ok (.frame frame) => if s.MaySend frame then some (s.ipcFrame frame) else none
    | message => some (s.ipcMessage message answer)
  | .process late => s.processFrame late
  | .returnBuffer b => s.returnBuffer b
  | .stateChanged new => some (s.stateChanged new)
  | .formatParam fixated answer => some (s.applyFixatedFormat fixated answer)
  | .buffersParam mask => some { s with negotiation := { s.negotiation with consumerDataTypes := some mask } }
  | .addBuffer b hasData allocated => if b ∈ s.buffers then none else some (s.addBuffer b hasData allocated)
  | .removeBuffer b => if b ∈ s.buffers then some (s.removeBuffer b) else none
  | .stop => some { s with quit := true }
  | .teardown => if s.quit then some s.teardown else none

/-- A step of the cast; after the teardown there is none. -/
def step (s : StreamData) (l : Label) : Option StreamData :=
  if s.ended then none else s.callback l

/-- `run_cast` up to the main loop. -/
def start (started : StreamStarted) (target : StreamTarget) (cursor : StreamCursorMode) : Option StreamData :=
  (frameLen started.width started.height).bind fun _ =>
    (Transport.new started target cursor true).map fun t =>
      { transport := t
        latest := none
        pending := false
        negotiation := ⟨.shm, none⟩
        pool := []
        poolMem := []
        buffers := []
        returned := []
        consumer := []
        sequence := 0
        droppedFrames := 0
        offered := formatPods t.width t.height t.announced (0 < t.slotCount)
        quit := false
        ended := false
        log := [] }

def Init (s : StreamData) : Prop := ∃ started target cursor, start started target cursor = some s

end StreamData

end AtriumPortal.Cast
