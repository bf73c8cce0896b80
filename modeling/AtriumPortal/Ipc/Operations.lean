import AtriumPortal.Ipc.Leftover
import AtriumPortal.Lib.Devices
/-!
# Client operations as scripts

What each operation of `client.rs` asks of the connection, one read, write or
descriptor after the other. Run on a connection that holds whole items, a
script is the operation of `Client`; `Socket` runs the same scripts on bytes.
-/

open AtriumPortal.Lib.Devices

namespace AtriumPortal.Ipc

/-- What an operation does to the connection and to the client's own fields. -/
inductive SocketAction where
  | writeMsg (request : Request)
  | readMsg
  | receiveFd
  | grant (lease : LeaseGrant)
  | pushBack (message : StreamMessage)
  | popFront
  | version
  deriving DecidableEq, Repr

abbrev SocketAction.Answer : SocketAction → Type
  | .writeMsg _ | .grant _ | .pushBack _ => Unit
  | .readMsg => Message
  | .receiveFd => File
  | .popFront => Option StreamMessage
  | .version => Nat

abbrev Operation (α : Type) := Script SocketAction SocketAction.Answer IoError α

namespace Operation

def writeMsg (request : Request) : Operation Unit := Script.call (SocketAction.writeMsg request)
def readMsg : Operation Message := Script.call SocketAction.readMsg
def receiveFd : Operation File := Script.call SocketAction.receiveFd
def grant (lease : LeaseGrant) : Operation Unit := Script.call (SocketAction.grant lease)
def pushBack (message : StreamMessage) : Operation Unit := Script.call (SocketAction.pushBack message)
def popFront : Operation (Option StreamMessage) := Script.call SocketAction.popFront
def version : Operation Nat := Script.call SocketAction.version

/-! ## `blob.rs` -/

def receiveMemfdFile (expectedLen : Nat) : Operation File :=
  if !Client.validateLen expectedLen then .throw (.invalidData "blob length is outside the bounds") else do
  let file ← receiveFd
  if !file.regular || file.len != some expectedLen then
    .throw (.invalidData "capture descriptor is not a regular file of the announced length")
  else if !file.sealed then .throw (.invalidData "capture descriptor is not fully sealed")
  else pure file

def receiveDmabufFile (expectedLen : Nat) : Operation File :=
  if !Client.validateLen expectedLen then .throw (.invalidData "blob length is outside the bounds") else do
  let file ← receiveFd
  match file.len with
  | none => .throw (.invalidData "fstat")
  | some len =>
    if len < expectedLen then .throw (.invalidData "capture descriptor is shorter than announced") else pure file

/-! ## Stream messages -/

def receivePayload (header : FrameHeader) : Operation StreamPayload :=
  match header.slot with
  | some _ => pure .slot
  | none =>
    match header.format with
    | .bgra8 | .rgba8 => do
      let file ← receiveMemfdFile header.byteLen
      pure (.memfd file)
    | .dmabuf _ _ => do
      let file ← receiveDmabufFile header.byteLen
      pure (.dmabuf file)

def streamMessage : Message → Operation (Option StreamMessage)
  | .event (.streamFrame header) => do
    let payload ← receivePayload header
    pure (some (.frame (Client.frameOf header payload)))
  | .event (.streamEnded streamId reason) => pure (some (.ended streamId reason))
  | .event (.streamGeometryChanged streamId width height) => pure (some (.geometryChanged streamId width height))
  | .response (.leaseRenewed lease) => do
    grant lease
    pure (some .leaseRenewed)
  | .response (.error message) => .throw (.other message)
  | .untyped => .throw (.invalidData "Tessera IPC stream message has no type")
  | _ => pure none

/-- `if let Some(message) = .. { pending.push_back(message) }`. -/
def buffer : Option StreamMessage → Operation Unit
  | some message => pushBack message
  | none => pure ()

/-! ## Requests that read their one reply directly -/

def readResponse : Operation Response := do
  match ← readMsg with
  | .response r => pure r
  | _ => .throw .json

def renewLease (ttlMs : Nat) : Operation LeaseGrant := do
  writeMsg (.renewLease ttlMs)
  match ← readResponse with
  | .leaseRenewed lease => do
    grant lease
    pure lease
  | .error message => .throw (.other message)
  | other => .throw (.unexpected "LeaseRenewed" other)

def subscribe : Operation Unit := do
  writeMsg .subscribe
  match ← readResponse with
  | .subscribed => pure ()
  | .error message => .throw (.other message)
  | other => .throw (.unexpected "Subscribed" other)

def enumerateOutputs : Operation (List OutputInfo) := do
  writeMsg .enumerateOutputs
  match ← readResponse with
  | .outputs outputs => pure outputs
  | .error message => .throw (.other message)
  | other => .throw (.unexpected "Outputs" other)

/-- `capture_output_region`, up to the sealed file whose bytes it then reads. -/
def captureOutputRegion (region : Option Rect) : Operation (Nat × Nat × File) := do
  writeMsg (.captureOutput region)
  match ← readResponse with
  | .captureOutput width height pngBytes => do
    let file ← receiveMemfdFile pngBytes
    pure (width, height, file)
  | .error message => .throw (.other message)
  | other => .throw (.unexpected "CaptureOutput" other)

def pickTarget (kind : PickKind) : Operation PickResult := do
  writeMsg (.pickTarget kind)
  match ← readResponse with
  | .picked result => pure result
  | .error message => .throw (.other message)
  | other => .throw (.unexpected "Picked" other)

def pickConfirm (title body : String) (acceptLabel : Option String) : Operation ConfirmPickResult := do
  writeMsg (.pickConfirm title body acceptLabel)
  match ← readResponse with
  | .confirmPicked result => pure result
  | .error message => .throw (.other message)
  | other => .throw (.unexpected "ConfirmPicked" other)

/-! ## Starting, stopping and reading the stream -/

def receiveSlots (stride bytes : Nat) : Nat → Operation (List StreamSlot)
  | 0 => pure []
  | count + 1 => do
    let file ← receiveDmabufFile bytes
    let table ← receiveSlots stride bytes count
    pure (⟨file, stride, bytes⟩ :: table)

def startedSlots : StreamPixelFormat → Option Nat → Option Nat → Option Nat → Operation (Option (List StreamSlot))
  | .dmabuf _ _, some count, some stride, some bytes => do
    let table ← receiveSlots stride bytes count
    pure (some table)
  | .dmabuf _ _, none, none, none => pure none
  | .dmabuf _ _, _, _, _ => .throw (.invalidData "dmabuf stream announcement with a partial slot table")
  | _, none, none, none => pure none
  | _, _, _, _ => .throw (.invalidData "SHM stream announcement carried partial slot metadata")

/-- One turn of the loop of `start_output_stream`. -/
def startTurn : Operation (Option StreamStarted) := do
  match ← readMsg with
  | .response (.streamOutputStarted streamId width height format slots slotStride slotBytes) => do
    let table ← startedSlots format slots slotStride slotBytes
    pure (some ⟨streamId, width, height, format, table⟩)
  | m => do
    let message ← streamMessage m
    buffer message
    pure none

/-- `fuel` bounds the turns of the loop. -/
def startOutputStream (fuel : Nat) (maxFps : Option Nat) (target : StreamTarget) (dmabuf : Bool)
    (cursor : Option StreamCursorMode) : Operation StreamStarted := do
  let version ← version
  let dmabuf := dmabuf && 25 ≤ version
  let cursor := cursor.filter fun _ => 29 ≤ version
  if version < 29 && Client.perOutput target then
    .throw (.unsupported "per-output stream targets need protocol 29")
  else do
    writeMsg (.streamOutputStart maxFps target (if dmabuf then some true else none) cursor)
    repeatUntil .timedOut startTurn fuel

/-- One turn of the loop of `stop_output_stream`. -/
def stopTurn (streamId : Nat) : Operation (Option Unit) := do
  match ← readMsg with
  | .response (.streamOutputStopped stopped) =>
    if stopped = streamId then pure (some ())
    else .throw (.unexpected "StreamOutputStopped" (.streamOutputStopped stopped))
  | m => do
    let message ← streamMessage m
    buffer message
    pure none

def stopOutputStream (fuel streamId : Nat) : Operation Unit := do
  writeMsg (.streamOutputStop streamId)
  repeatUntil .timedOut (stopTurn streamId) fuel

def releaseStreamBuffer (streamId slot : Nat) : Operation Unit := writeMsg (.streamBufferRelease streamId slot)

def requestLeaseRenewal (ttlMs : Nat) : Operation Unit := writeMsg (.renewLease ttlMs)

/-- One turn of the loop of `next_stream_message`. -/
def nextTurn : Operation (Option StreamMessage) := do
  let m ← readMsg
  streamMessage m

def nextStreamMessage (fuel : Nat) : Operation StreamMessage := do
  match ← popFront with
  | some message => pure message
  | none => repeatUntil .timedOut nextTurn fuel

end Operation

/-! ## On a connection of whole items -/

namespace Client

def act : Device Client SocketAction SocketAction.Answer IoError
  | c, .writeMsg request => c.writeMsg request
  | c, .readMsg => c.readMsg
  | c, .receiveFd => c.receiveFd
  | c, .grant lease => (.ok (), { c with lease := some lease })
  | c, .pushBack message => (.ok (), { c with pending := c.pending ++ [message] })
  | c, .popFront =>
    match c.pending with
    | message :: rest => (.ok (some message), { c with pending := rest })
    | [] => (.ok none, c)
  | c, .version => (.ok c.version, c)

theorem run_writeMsg (c : Client) (request : Request) : (Operation.writeMsg request).run act c = c.writeMsg request :=
  Script.run_call _ _

theorem run_readMsg (c : Client) : Operation.readMsg.run act c = c.readMsg := Script.run_call _ _

theorem run_receiveFd (c : Client) : Operation.receiveFd.run act c = c.receiveFd := Script.run_call _ _

theorem run_receiveMemfdFile (c : Client) (expectedLen : Nat) :
    (Operation.receiveMemfdFile expectedLen).run act c = c.receiveMemfdFile expectedLen := by
  unfold Operation.receiveMemfdFile receiveMemfdFile
  split
  · rfl
  · rw [Script.run_bind, run_receiveFd]
    rcases c.receiveFd with ⟨e | file, c'⟩
    · rfl
    · simp only
      split
      · rfl
      · split <;> rfl

theorem run_receiveDmabufFile (c : Client) (expectedLen : Nat) :
    (Operation.receiveDmabufFile expectedLen).run act c = c.receiveDmabufFile expectedLen := by
  unfold Operation.receiveDmabufFile receiveDmabufFile
  split
  · rfl
  · rw [Script.run_bind, run_receiveFd]
    rcases c.receiveFd with ⟨e | file, c'⟩
    · rfl
    · cases hlen : file.len with
      | none => simp only [hlen]; rfl
      | some len =>
        simp only [hlen]
        split <;> rfl

theorem run_receivePayload (c : Client) (header : FrameHeader) :
    (Operation.receivePayload header).run act c = c.receivePayload header := by
  unfold Operation.receivePayload receivePayload
  cases header.slot with
  | some slot => rfl
  | none =>
    cases header.format with
    | bgra8 | rgba8 =>
      simp only
      rw [Script.run_bind, run_receiveMemfdFile]
      rcases c.receiveMemfdFile header.byteLen with ⟨e | file, c'⟩ <;> rfl
    | dmabuf drmFormat modifier =>
      simp only
      rw [Script.run_bind, run_receiveDmabufFile]
      rcases c.receiveDmabufFile header.byteLen with ⟨e | file, c'⟩ <;> rfl

theorem run_streamMessage (c : Client) (m : Message) : (Operation.streamMessage m).run act c = c.streamMessage m := by
  cases m with
  | event e =>
    cases e with
    | streamFrame header =>
      simp only [Operation.streamMessage, streamMessage]
      rw [Script.run_bind, run_receivePayload]
      rcases c.receivePayload header with ⟨e | payload, c'⟩ <;> rfl
    | _ => rfl
  | response response => cases response <;> rfl
  | _ => rfl

theorem run_buffer (c : Client) (message : Option StreamMessage) :
    (Operation.buffer message).run act c = (.ok (), c.buffer message) := by
  cases message <;> rfl

theorem run_readResponse (c : Client) : Operation.readResponse.run act c = c.readResponse := by
  unfold Operation.readResponse readResponse
  rw [Script.run_bind, run_readMsg]
  rcases c.readMsg with ⟨e | m, c'⟩
  · rfl
  · cases m <;> rfl

theorem run_renewLease (c : Client) (ttlMs : Nat) : (Operation.renewLease ttlMs).run act c = c.renewLease ttlMs := by
  unfold Operation.renewLease renewLease
  rw [Script.run_bind, run_writeMsg]
  rcases c.writeMsg (.renewLease ttlMs) with ⟨e | -, c'⟩
  · rfl
  · simp only
    rw [Script.run_bind, run_readResponse]
    rcases c'.readResponse with ⟨e | response, c''⟩
    · rfl
    · cases response <;> rfl

theorem run_enumerateOutputs (c : Client) : Operation.enumerateOutputs.run act c = c.enumerateOutputs := by
  unfold Operation.enumerateOutputs enumerateOutputs
  rw [Script.run_bind, run_writeMsg]
  rcases c.writeMsg .enumerateOutputs with ⟨e | -, c'⟩
  · rfl
  · simp only
    rw [Script.run_bind, run_readResponse]
    rcases c'.readResponse with ⟨e | response, c''⟩
    · rfl
    · cases response <;> rfl

theorem run_receiveSlots (stride bytes count : Nat) (c : Client) :
    (Operation.receiveSlots stride bytes count).run act c = c.receiveSlots stride bytes count := by
  induction count generalizing c with
  | zero => rfl
  | succ count ih =>
    rw [Operation.receiveSlots, receiveSlots, Script.run_bind, run_receiveDmabufFile]
    rcases c.receiveDmabufFile bytes with ⟨e | file, c'⟩
    · rfl
    · simp only
      rw [Script.run_bind, ih]
      rcases c'.receiveSlots stride bytes count with ⟨e | table, c''⟩ <;> rfl

theorem run_startedSlots (c : Client) (format : StreamPixelFormat) (slots stride bytes : Option Nat) :
    (Operation.startedSlots format slots stride bytes).run act c = c.startedSlots format slots stride bytes := by
  cases format with
  | dmabuf drmFormat modifier =>
    cases slots <;> cases stride <;> cases bytes
    case some.some.some count stride bytes =>
      simp only [Operation.startedSlots, startedSlots]
      rw [Script.run_bind, run_receiveSlots]
      rcases c.receiveSlots stride bytes count with ⟨e | table, c'⟩ <;> rfl
    all_goals rfl
  | _ => cases slots <;> cases stride <;> cases bytes <;> rfl

/-! ### The loops -/

/-- A message that is not the reply is buffered if it is one of a stream. -/
theorem run_skipped {α : Type} (c : Client) (m : Message) :
    (do let message ← Operation.streamMessage m; Operation.buffer message; pure none : Operation (Option α)).run act c =
      match c.streamMessage m with
      | (.error e, c) => (.error e, c)
      | (.ok message, c) => (.ok none, c.buffer message) := by
  rw [Script.run_bind, run_streamMessage]
  rcases c.streamMessage m with ⟨e | message, c'⟩
  · rfl
  · simp only
    rw [Script.run_bind, run_buffer]
    rfl

theorem run_startTurn (c : Client) : Operation.startTurn.run act c = match c.readMsg with
    | (.error e, c) => (.error e, c)
    | (.ok (.response (.streamOutputStarted streamId width height format slots slotStride slotBytes)), c) =>
      match c.startedSlots format slots slotStride slotBytes with
      | (.error e, c) => (.error e, c)
      | (.ok table, c) => (.ok (some ⟨streamId, width, height, format, table⟩), c)
    | (.ok m, c) =>
      match c.streamMessage m with
      | (.error e, c) => (.error e, c)
      | (.ok message, c) => (.ok none, c.buffer message) := by
  rw [Operation.startTurn, Script.run_bind, run_readMsg]
  rcases c.readMsg with ⟨e | m, c'⟩
  · rfl
  · cases m with
    | event e => exact run_skipped c' (.event e)
    | unknown type => exact run_skipped c' (.unknown type)
    | untyped => exact run_skipped c' .untyped
    | response response =>
      cases response with
      | streamOutputStarted streamId width height format slots slotStride slotBytes =>
        simp only
        rw [Script.run_bind, run_startedSlots]
        rcases c'.startedSlots format slots slotStride slotBytes with ⟨e | table, c''⟩ <;> rfl
      | _ => exact run_skipped c' _

theorem run_stopTurn (c : Client) (streamId : Nat) : (Operation.stopTurn streamId).run act c = match c.readMsg with
    | (.error e, c) => (.error e, c)
    | (.ok (.response (.streamOutputStopped stopped)), c) =>
      if stopped = streamId then (.ok (some ()), c)
      else (.error (.unexpected "StreamOutputStopped" (.streamOutputStopped stopped)), c)
    | (.ok m, c) =>
      match c.streamMessage m with
      | (.error e, c) => (.error e, c)
      | (.ok message, c) => (.ok none, c.buffer message) := by
  rw [Operation.stopTurn, Script.run_bind, run_readMsg]
  rcases c.readMsg with ⟨e | m, c'⟩
  · rfl
  · cases m with
    | event e => exact run_skipped c' (.event e)
    | unknown type => exact run_skipped c' (.unknown type)
    | untyped => exact run_skipped c' .untyped
    | response response =>
      cases response with
      | streamOutputStopped stopped =>
        simp only
        split <;> rfl
      | _ => exact run_skipped c' _

theorem run_nextTurn (c : Client) : Operation.nextTurn.run act c = match c.readMsg with
    | (.error e, c) => (.error e, c)
    | (.ok m, c) => c.streamMessage m := by
  rw [Operation.nextTurn, Script.run_bind, run_readMsg]
  rcases c.readMsg with ⟨e | m, c'⟩
  · rfl
  · exact run_streamMessage c' m

theorem run_startLoop (fuel : Nat) (c : Client) :
    (repeatUntil .timedOut Operation.startTurn fuel).run act c = c.startLoop fuel := by
  induction fuel generalizing c with
  | zero => rfl
  | succ fuel ih =>
    rw [repeatUntil_succ, run_startTurn, startLoop]
    rcases c.readMsg with ⟨e | m, c'⟩
    · rfl
    · cases m with
      | response response =>
        cases response with
        | streamOutputStarted streamId width height format slots slotStride slotBytes =>
          simp only
          rcases c'.startedSlots format slots slotStride slotBytes with ⟨e | table, c''⟩ <;> rfl
        | _ =>
          simp only
          generalize c'.streamMessage _ = out
          rcases out with ⟨e | message, c''⟩
          · rfl
          · exact ih _
      | _ =>
        simp only
        generalize c'.streamMessage _ = out
        rcases out with ⟨e | message, c''⟩
        · rfl
        · exact ih _

theorem run_stopLoop (streamId fuel : Nat) (c : Client) :
    (repeatUntil .timedOut (Operation.stopTurn streamId) fuel).run act c = c.stopLoop streamId fuel := by
  induction fuel generalizing c with
  | zero => rfl
  | succ fuel ih =>
    rw [repeatUntil_succ, run_stopTurn, stopLoop]
    rcases c.readMsg with ⟨e | m, c'⟩
    · rfl
    · cases m with
      | response response =>
        cases response with
        | streamOutputStopped stopped =>
          simp only
          by_cases hid : stopped = streamId
          · rw [if_pos hid, if_pos hid]
          · rw [if_neg hid, if_neg hid]
        | _ =>
          simp only
          generalize c'.streamMessage _ = out
          rcases out with ⟨e | message, c''⟩
          · rfl
          · exact ih _
      | _ =>
        simp only
        generalize c'.streamMessage _ = out
        rcases out with ⟨e | message, c''⟩
        · rfl
        · exact ih _

theorem run_nextLoop (fuel : Nat) (c : Client) :
    (repeatUntil .timedOut Operation.nextTurn fuel).run act c = c.nextLoop fuel := by
  induction fuel generalizing c with
  | zero => rfl
  | succ fuel ih =>
    rw [repeatUntil_succ, run_nextTurn, nextLoop]
    rcases c.readMsg with ⟨e | m, c'⟩
    · rfl
    · simp only
      rcases c'.streamMessage m with ⟨e | _ | message, c''⟩
      · rfl
      · exact ih c''
      · rfl

/-! ### Turns take a message each -/

theorem buffer_wire (c : Client) (message : Option StreamMessage) : (c.buffer message).wire = c.wire := by
  cases message <;> rfl

theorem streamMessage_length (c : Client) (m : Message) : (c.streamMessage m).2.wire.length ≤ c.wire.length := by
  obtain ⟨_, _, hdrops⟩ := Leftover.streamMessage_drops c m
  exact hdrops.suffix.length_le

/-- A turn that reads a message and takes it for one of the stream. -/
theorem skipped_shorter {α : Type} {c c' c'' : Client} {m : Message} (hread : c.readMsg = (.ok m, c'))
    (h : (match c'.streamMessage m with
      | (.error e, c) => ((.error e, c) : Outcome (Option α))
      | (.ok message, c) => (.ok none, c.buffer message)) = (.ok none, c'')) : c''.wire.length < c.wire.length := by
  have hless : c'.wire.length < c.wire.length := by
    rcases Leftover.readMsg_cases c with ⟨e, -, hr⟩ | ⟨m', rest, hw, hr⟩ | ⟨e, file, rest, -, hw, hr⟩
    · rw [hr] at hread
      cases hread
    · rw [hr] at hread
      obtain ⟨-, rfl⟩ := Prod.mk.inj hread
      rw [hw, List.length_cons]
      exact Nat.lt_succ_self _
    · rw [hr] at hread
      cases hread
  have hleft := streamMessage_length c' m
  rcases hm : c'.streamMessage m with ⟨e | message, c₁⟩
  · rw [hm] at h
    cases h
  · rw [hm] at h hleft
    obtain ⟨-, rfl⟩ := Prod.mk.inj h
    rw [buffer_wire]
    exact Nat.lt_of_le_of_lt hleft hless

theorem startTurn_shorter (c c' : Client) (h : Operation.startTurn.run act c = (.ok none, c')) :
    c'.wire.length < c.wire.length := by
  rw [run_startTurn] at h
  rcases hread : c.readMsg with ⟨e | m, c₁⟩
  · rw [hread] at h
    cases h
  · rw [hread] at h
    cases m with
    | response response =>
      cases response with
      | streamOutputStarted streamId width height format slots slotStride slotBytes =>
        simp only at h
        rcases hslots : c₁.startedSlots format slots slotStride slotBytes with ⟨e | table, c₂⟩ <;>
          · rw [hslots] at h
            cases h
      | _ => exact skipped_shorter hread h
    | _ => exact skipped_shorter hread h

theorem stopTurn_shorter (streamId : Nat) (c c' : Client) (h : (Operation.stopTurn streamId).run act c = (.ok none, c')) :
    c'.wire.length < c.wire.length := by
  rw [run_stopTurn] at h
  rcases hread : c.readMsg with ⟨e | m, c₁⟩
  · rw [hread] at h
    cases h
  · rw [hread] at h
    cases m with
    | response response =>
      cases response with
      | streamOutputStopped stopped =>
        simp only at h
        split at h <;> cases h
      | _ => exact skipped_shorter hread h
    | _ => exact skipped_shorter hread h

theorem nextTurn_shorter (c c' : Client) (h : Operation.nextTurn.run act c = (.ok none, c')) :
    c'.wire.length < c.wire.length := by
  rw [run_nextTurn] at h
  rcases hread : c.readMsg with ⟨e | m, c₁⟩
  · rw [hread] at h
    cases h
  · rw [hread] at h
    refine skipped_shorter (α := Unit) hread ?_
    simp only at h
    rw [h]
    rfl

/-! ### Operations with loops -/

theorem run_startOutputStream (c : Client) {fuel : Nat} (hfuel : c.wire.length < fuel) (maxFps : Option Nat)
    (target : StreamTarget) (dmabuf : Bool) (cursor : Option StreamCursorMode) :
    (Operation.startOutputStream fuel maxFps target dmabuf cursor).run act c =
      c.startOutputStream maxFps target dmabuf cursor := by
  unfold Operation.startOutputStream startOutputStream
  rw [Script.run_bind]
  simp only [Operation.version, Script.run_call, act]
  split
  · rfl
  · rw [Script.run_bind, run_writeMsg]
    cases hwr : c.writable with
    | false => rw [Framing.writeMsg_not_writable hwr]
    | true =>
      rw [Framing.writeMsg_writable hwr]
      simp only
      rw [← run_startLoop]
      exact repeatUntil_enough (fun c => c.wire.length) startTurn_shorter hfuel (Nat.lt_succ_self _)

theorem run_stopOutputStream (c : Client) {fuel : Nat} (hfuel : c.wire.length < fuel) (streamId : Nat) :
    (Operation.stopOutputStream fuel streamId).run act c = c.stopOutputStream streamId := by
  unfold Operation.stopOutputStream stopOutputStream
  rw [Script.run_bind, run_writeMsg]
  cases hwr : c.writable with
  | false => rw [Framing.writeMsg_not_writable hwr]
  | true =>
    rw [Framing.writeMsg_writable hwr]
    simp only
    rw [← run_stopLoop]
    exact repeatUntil_enough (fun c => c.wire.length) (stopTurn_shorter streamId) hfuel (Nat.lt_succ_self _)

theorem run_nextStreamMessage (c : Client) {fuel : Nat} (hfuel : c.wire.length < fuel) :
    (Operation.nextStreamMessage fuel).run act c = c.nextStreamMessage := by
  unfold Operation.nextStreamMessage nextStreamMessage
  rw [Script.run_bind, Operation.popFront, Script.run_call]
  simp only [act]
  cases c.pending with
  | cons message rest => rfl
  | nil =>
    simp only
    rw [← run_nextLoop]
    exact repeatUntil_enough (fun c => c.wire.length) nextTurn_shorter hfuel (Nat.lt_succ_self _)

end Client
end AtriumPortal.Ipc
