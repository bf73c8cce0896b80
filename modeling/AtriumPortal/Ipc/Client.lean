import AtriumPortal.Ipc.Schema
/-!
# The synchronous IPC client

`client.rs` and the receiving half of `blob.rs`. The unread part of the socket
is a list of items: a length-prefixed JSON message, or the marker byte of a
descriptor. A read that starts at the wrong kind of item takes bytes out of the
middle of a message; from then on the byte stream is not `aligned` and every
further read fails.
-/

namespace AtriumPortal.Ipc

inductive Item where
  | message (message : Message)
  | descriptor (file : File)
  deriving DecidableEq, Repr

inductive IoError where
  | timedOut
  | write
  | json
  | misframed
  | invalidData (text : String)
  | unsupported (text : String)
  | unexpected (expected : String) (got : Response)
  | other (message : String)
  deriving DecidableEq, Repr

/-- A connected client after its handshake. `wire` is what the socket holds
unread, `sent` the requests written, newest last. -/
structure Client where
  version : Nat
  lease : Option LeaseGrant
  pending : List StreamMessage
  wire : List Item
  aligned : Bool
  writable : Bool
  sent : List Request
  deriving DecidableEq, Repr

namespace Client

/-- The result of a client operation and the client after it. -/
abbrev Outcome (α : Type) := Except IoError α × Client

/-! ## Reading and writing the socket -/

def writeMsg (c : Client) (request : Request) : Outcome Unit :=
  if c.writable then (.ok (), { c with sent := c.sent ++ [request] }) else (.error .write, c)

/-- `read_msg` of a JSON value. -/
def readMsg (c : Client) : Outcome Message :=
  if !c.aligned then (.error .misframed, c) else
  match c.wire with
  | [] => (.error .timedOut, c)
  | .message m :: rest => (.ok m, { c with wire := rest })
  | .descriptor _ :: rest => (.error .misframed, { c with wire := rest, aligned := false })

/-- `receive_fd`: one marker byte with its descriptor. -/
def receiveFd (c : Client) : Outcome File :=
  if !c.aligned then (.error .misframed, c) else
  match c.wire with
  | [] => (.error .timedOut, c)
  | .descriptor file :: rest => (.ok file, { c with wire := rest })
  | .message _ :: rest =>
    (.error (.invalidData "missing or truncated capture descriptor"), { c with wire := rest, aligned := false })

def validateLen (length : Nat) : Bool := 0 < length && length ≤ maxBlobBytes

/-- `receive_memfd_file`: a sealed regular file of exactly the announced length. -/
def receiveMemfdFile (c : Client) (expectedLen : Nat) : Outcome File :=
  if !validateLen expectedLen then (.error (.invalidData "blob length is outside the bounds"), c) else
  match c.receiveFd with
  | (.error e, c) => (.error e, c)
  | (.ok file, c) =>
    if !file.regular || file.len != some expectedLen then
      (.error (.invalidData "capture descriptor is not a regular file of the announced length"), c)
    else if !file.sealed then (.error (.invalidData "capture descriptor is not fully sealed"), c)
    else (.ok file, c)

/-- `receive_dmabuf_file`: a descriptor of at least the announced length. -/
def receiveDmabufFile (c : Client) (expectedLen : Nat) : Outcome File :=
  if !validateLen expectedLen then (.error (.invalidData "blob length is outside the bounds"), c) else
  match c.receiveFd with
  | (.error e, c) => (.error e, c)
  | (.ok file, c) =>
    match file.len with
    | none => (.error (.invalidData "fstat"), c)
    | some len =>
      if len < expectedLen then (.error (.invalidData "capture descriptor is shorter than announced"), c)
      else (.ok file, c)

/-! ## Stream messages -/

/-- The payload behind a frame header, with the descriptor it consumes. -/
def receivePayload (c : Client) (header : FrameHeader) : Outcome StreamPayload :=
  match header.slot with
  | some _ => (.ok .slot, c)
  | none =>
    match header.format with
    | .bgra8 | .rgba8 =>
      match c.receiveMemfdFile header.byteLen with
      | (.error e, c) => (.error e, c)
      | (.ok file, c) => (.ok (.memfd file), c)
    | .dmabuf _ _ =>
      match c.receiveDmabufFile header.byteLen with
      | (.error e, c) => (.error e, c)
      | (.ok file, c) => (.ok (.dmabuf file), c)

def frameOf (header : FrameHeader) (payload : StreamPayload) : StreamFrame where
  streamId := header.streamId
  sequence := header.sequence
  width := header.width
  height := header.height
  stride := header.stride
  format := header.format
  damage := header.damage
  dropped := header.dropped
  slot := header.slot
  payload := payload

/-- `stream_message`: a message as a stream event; `none` for what the stream
reader skips. -/
def streamMessage (c : Client) : Message → Outcome (Option StreamMessage)
  | .event (.streamFrame header) =>
    match c.receivePayload header with
    | (.error e, c) => (.error e, c)
    | (.ok payload, c) => (.ok (some (.frame (frameOf header payload))), c)
  | .event (.streamEnded streamId reason) => (.ok (some (.ended streamId reason)), c)
  | .event (.streamGeometryChanged streamId width height) =>
    (.ok (some (.geometryChanged streamId width height)), c)
  | .response (.leaseRenewed lease) => (.ok (some .leaseRenewed), { c with lease := some lease })
  | .response (.error message) => (.error (.other message), c)
  | .untyped => (.error (.invalidData "Tessera IPC stream message has no type"), c)
  | _ => (.ok none, c)

/-- Buffer a stream event that raced ahead of a reply. -/
def buffer (c : Client) : Option StreamMessage → Client
  | some message => { c with pending := c.pending ++ [message] }
  | none => c

/-! ## Requests that read their one reply directly -/

/-- `read_msg::<_, Response>`: what is not a response does not decode. -/
def readResponse (c : Client) : Outcome Response :=
  match c.readMsg with
  | (.error e, c) => (.error e, c)
  | (.ok (.response r), c) => (.ok r, c)
  | (.ok _, c) => (.error .json, c)

def renewLease (c : Client) (ttlMs : Nat) : Outcome LeaseGrant :=
  match c.writeMsg (.renewLease ttlMs) with
  | (.error e, c) => (.error e, c)
  | (.ok (), c) =>
    match c.readResponse with
    | (.error e, c) => (.error e, c)
    | (.ok (.leaseRenewed lease), c) => (.ok lease, { c with lease := some lease })
    | (.ok (.error message), c) => (.error (.other message), c)
    | (.ok other, c) => (.error (.unexpected "LeaseRenewed" other), c)

def enumerateOutputs (c : Client) : Outcome (List OutputInfo) :=
  match c.writeMsg .enumerateOutputs with
  | (.error e, c) => (.error e, c)
  | (.ok (), c) =>
    match c.readResponse with
    | (.error e, c) => (.error e, c)
    | (.ok (.outputs outputs), c) => (.ok outputs, c)
    | (.ok (.error message), c) => (.error (.other message), c)
    | (.ok other, c) => (.error (.unexpected "Outputs" other), c)

/-! ## Starting, stopping and reading the stream -/

/-- The slot table behind a start reply: `count` descriptors in slot order. -/
def receiveSlots (c : Client) (stride bytes : Nat) : Nat → Outcome (List StreamSlot)
  | 0 => (.ok [], c)
  | count + 1 =>
    match c.receiveDmabufFile bytes with
    | (.error e, c) => (.error e, c)
    | (.ok file, c) =>
      match c.receiveSlots stride bytes count with
      | (.error e, c) => (.error e, c)
      | (.ok table, c) => (.ok (⟨file, stride, bytes⟩ :: table), c)

/-- The slot metadata of a start reply, checked against its pixel format. -/
def startedSlots (c : Client) : StreamPixelFormat → Option Nat → Option Nat → Option Nat →
    Outcome (Option (List StreamSlot))
  | .dmabuf _ _, some count, some stride, some bytes =>
    match c.receiveSlots stride bytes count with
    | (.error e, c) => (.error e, c)
    | (.ok table, c) => (.ok (some table), c)
  | .dmabuf _ _, none, none, none => (.ok none, c)
  | .dmabuf _ _, _, _, _ =>
    (.error (.invalidData "dmabuf stream announcement with a partial slot table"), c)
  | _, none, none, none => (.ok none, c)
  | _, _, _, _ => (.error (.invalidData "SHM stream announcement carried partial slot metadata"), c)

/-- The loop of `start_output_stream`. Every turn takes a message off the wire,
so the number of unread items bounds the turns. -/
def startLoop (c : Client) : Nat → Outcome StreamStarted
  | 0 => (.error .timedOut, c)
  | fuel + 1 =>
    match c.readMsg with
    | (.error e, c) => (.error e, c)
    | (.ok (.response (.streamOutputStarted streamId width height format slots slotStride slotBytes)), c) =>
      match c.startedSlots format slots slotStride slotBytes with
      | (.error e, c) => (.error e, c)
      | (.ok table, c) => (.ok ⟨streamId, width, height, format, table⟩, c)
    | (.ok m, c) =>
      match c.streamMessage m with
      | (.error e, c) => (.error e, c)
      | (.ok message, c) => (c.buffer message).startLoop fuel

/-- `matches!(target, StreamTarget::Output { output: Some(_) })`. -/
def perOutput : StreamTarget → Bool
  | .output (some _) => true
  | _ => false

def startOutputStream (c : Client) (maxFps : Option Nat) (target : StreamTarget) (dmabuf : Bool)
    (cursor : Option StreamCursorMode) : Outcome StreamStarted :=
  let dmabuf := dmabuf && 25 ≤ c.version
  let cursor := cursor.filter fun _ => 29 ≤ c.version
  if c.version < 29 && perOutput target then
    (.error (.unsupported "per-output stream targets need protocol 29"), c)
  else
    match c.writeMsg (.streamOutputStart maxFps target (if dmabuf then some true else none) cursor) with
    | (.error e, c) => (.error e, c)
    | (.ok (), c) => c.startLoop (c.wire.length + 1)

/-- The loop of `stop_output_stream`. -/
def stopLoop (c : Client) (streamId : Nat) : Nat → Outcome Unit
  | 0 => (.error .timedOut, c)
  | fuel + 1 =>
    match c.readMsg with
    | (.error e, c) => (.error e, c)
    | (.ok (.response (.streamOutputStopped stopped)), c) =>
      if stopped = streamId then (.ok (), c)
      else (.error (.unexpected "StreamOutputStopped" (.streamOutputStopped stopped)), c)
    | (.ok m, c) =>
      match c.streamMessage m with
      | (.error e, c) => (.error e, c)
      | (.ok message, c) => (c.buffer message).stopLoop streamId fuel

def stopOutputStream (c : Client) (streamId : Nat) : Outcome Unit :=
  match c.writeMsg (.streamOutputStop streamId) with
  | (.error e, c) => (.error e, c)
  | (.ok (), c) => c.stopLoop streamId (c.wire.length + 1)

/-- Fire and forget: the reply is skipped by whoever reads the stream next. -/
def releaseStreamBuffer (c : Client) (streamId slot : Nat) : Outcome Unit :=
  c.writeMsg (.streamBufferRelease streamId slot)

def requestLeaseRenewal (c : Client) (ttlMs : Nat) : Outcome Unit :=
  c.writeMsg (.renewLease ttlMs)

/-- The loop of `next_stream_message`. -/
def nextLoop (c : Client) : Nat → Outcome StreamMessage
  | 0 => (.error .timedOut, c)
  | fuel + 1 =>
    match c.readMsg with
    | (.error e, c) => (.error e, c)
    | (.ok m, c) =>
      match c.streamMessage m with
      | (.error e, c) => (.error e, c)
      | (.ok (some message), c) => (.ok message, c)
      | (.ok none, c) => c.nextLoop fuel

def nextStreamMessage (c : Client) : Outcome StreamMessage :=
  match c.pending with
  | message :: rest => (.ok message, { c with pending := rest })
  | [] => c.nextLoop (c.wire.length + 1)

end Client

end AtriumPortal.Ipc
