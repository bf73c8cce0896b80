import AtriumPortal.Ipc.Client
import AtriumPortal.Lib.Interact
/-!
# The portal's capture client

`PortalCapture` of `ipc.rs` and the `Client` requests it makes, one write and one
read each. The compositor answers the requests of a connection in their order, so
the other end of a connection is the list of the requests it owes a reply. Every
request has a number, which is not on the wire; a reply carries the number of the
request it answers.
-/
open AtriumPortal.Lib.Interact

namespace AtriumPortal.Ipc

def localPortalScope : String := "atrium-portal"
def leaseTtlMs : Nat := 900000

def ConnectionCapabilities.privileged (c : ConnectionCapabilities) : Bool :=
  c.control || c.input || c.session || c.interactionDomain

namespace Capture

/-- A client after its handshake. -/
structure Connected where
  version : Nat
  caps : ConnectionCapabilities
  lease : Option LeaseGrant
  deriving DecidableEq, Repr

/-- What a read returns: a reply, with the number of the request it answers where there is one. -/
inductive Read where
  | reply (answers : Option Nat) (response : Response)
  | error (e : IoError)
  deriving DecidableEq, Repr

inductive Action where
  /-- Connect a new socket, write a `Hello` and read the reply to it. -/
  | greet (hello : Request)
  | setIoTimeout
  /-- Whether half of the lease's time is over. -/
  | leaseAged
  | write (request : Request)
  | read
  /-- The sealed file behind a capture reply. -/
  | receiveBlob (length : Nat)
  deriving DecidableEq, Repr

@[reducible] def Action.Answer : Action → Type
  | .greet _ => Except IoError Response
  | .setIoTimeout => Except IoError Unit
  | .leaseAged => Bool
  | .write _ => Except IoError Nat
  | .read => Read
  | .receiveBlob _ => Except IoError (List UInt8)

abbrev Work (R : Type) : Type := Prog Action Action.Answer R

/-! ## Requests -/

/-- What a request returned, the number of the request, and that of the request the reply answers. -/
structure Answered (α : Type) where
  value : α
  request : Nat
  reply : Option Nat
  deriving DecidableEq, Repr

/-- Write a request and read one reply: every request of the client but the handshake. -/
def roundTrip {α : Type} (request : Request) (expected : String) (decode : Response → Option α) :
    Work (Except IoError (Answered α)) :=
  .ask (.write request) fun
    | .error error => .ret (.error error)
    | .ok number =>
      .ask .read fun
        | .error error => .ret (.error error)
        | .reply answers response =>
          match decode response, response with
          | some value, _ => .ret (.ok ⟨value, number, answers⟩)
          | none, .error message => .ret (.error (.other message))
          | none, other => .ret (.error (.unexpected expected other))

def renewLease (ttlMs : Nat) : Work (Except IoError (Answered LeaseGrant)) :=
  roundTrip (.renewLease ttlMs) "LeaseRenewed" fun
    | .leaseRenewed lease => some lease
    | _ => none

def enumerateOutputs : Work (Except IoError (Answered (List OutputInfo))) :=
  roundTrip .enumerateOutputs "Outputs" fun
    | .outputs outputs => some outputs
    | _ => none

def pickTarget (kind : PickKind) : Work (Except IoError (Answered PickResult)) :=
  roundTrip (.pickTarget kind) "Picked" fun
    | .picked result => some result
    | _ => none

def pickConfirm (title body : String) (acceptLabel : Option String) :
    Work (Except IoError (Answered ConfirmPickResult)) :=
  roundTrip (.pickConfirm title body acceptLabel) "ConfirmPicked" fun
    | .confirmPicked result => some result
    | _ => none

/-- The pixels come behind the reply. -/
def captureOutputRegion (region : Option Rect) : Work (Except IoError (Answered (Nat × Nat × List UInt8))) :=
  (roundTrip (.captureOutput region) "CaptureOutput" fun
      | .captureOutput width height pngBytes => some (width, height, pngBytes)
      | _ => none).bind fun
    | .error error => .ret (.error error)
    | .ok ⟨(width, height, pngBytes), request, reply⟩ =>
      .ask (.receiveBlob pngBytes) fun
        | .error error => .ret (.error error)
        | .ok png => .ret (.ok ⟨(width, height, png), request, reply⟩)

/-! ## Connecting -/

/-- One handshake; the inner error is a refusal. -/
def handshake (requested : ConnectionCapabilities) (scope : Option String) (version : Nat) :
    Work (Except IoError (Except IoError Connected)) :=
  let lease := if requested.privileged then some leaseTtlMs else none
  .ask (.greet (.hello version requested scope lease)) fun
    | .error error => .ret (.error error)
    | .ok (.hello replied caps lease) =>
      if replied ≤ version then .ret (.ok (.ok ⟨replied, caps, lease⟩))
      else .ret (.ok (.error (.unsupported s!"Tessera IPC server replied a newer protocol than offered ({version})")))
    | .ok (.error message) => .ret (.ok (.error (.other message)))
    | .ok other => .ret (.ok (.error (.unexpected "Hello" other)))

/-- The loop of `connect_inner`, for a version `older` steps above the oldest. -/
def connectInner (requested : ConnectionCapabilities) (scope : Option String) : Nat → Work (Except IoError Connected)
  | 0 =>
    (handshake requested scope minProtocolVersion).bind fun
      | .error error => .ret (.error error)
      | .ok (.ok client) => .ret (.ok client)
      | .ok (.error error) => .ret (.error error)
  | older + 1 =>
    (handshake requested scope (minProtocolVersion + older + 1)).bind fun
      | .error error => .ret (.error error)
      | .ok (.ok client) => .ret (.ok client)
      | .ok (.error _) => connectInner requested scope older

def portalCapabilities : ConnectionCapabilities := ⟨true, true, false, false, false⟩

def connectCompositor : Work (Except IoError Connected) :=
  (connectInner portalCapabilities (some localPortalScope) (protocolVersion - minProtocolVersion)).bind fun
    | .error error => .ret (.error error)
    | .ok client =>
      if !client.caps.control || !(client.lease.map (·.renewable)).getD false then
        .ret (.error (.other "Tessera did not grant the Portal scope a renewable control lease"))
      else .ask .setIoTimeout fun
        | .error error => .ret (.error error)
        | .ok () => .ret (.ok client)

/-! ## PortalCapture -/

structure PortalCapture where
  client : Option Connected
  deriving DecidableEq, Repr

/-- A result, and the `PortalCapture` after it. -/
abbrev Outcome (α : Type) : Type := Except IoError α × PortalCapture

namespace PortalCapture

def new : PortalCapture := ⟨none⟩

/-- Connect where there is no client. -/
def connected : PortalCapture → Work (Outcome Connected)
  | ⟨some client⟩ => .ret (.ok client, ⟨some client⟩)
  | ⟨none⟩ =>
    connectCompositor.bind fun
      | .error error => .ret (.error error, ⟨none⟩)
      | .ok client => .ret (.ok client, ⟨some client⟩)

/-- `client()`: renew an ageing lease, or reconnect. -/
def getClient (c : PortalCapture) : Work (Outcome Connected) :=
  match c.client with
  | none => connected c
  | some client =>
    .ask .setIoTimeout fun
      | .error error => .ret (.error error, c)
      | .ok () =>
        .ask .leaseAged fun aged =>
          if aged then
            (renewLease leaseTtlMs).bind fun
              | .ok lease => connected ⟨some { client with lease := some lease.value }⟩
              | .error _ => connected ⟨none⟩
          else connected c

/-- `self.client()?` and then `next`. -/
def withClient {α : Type} (c : PortalCapture) (next : Connected → PortalCapture → Work (Outcome α)) :
    Work (Outcome α) :=
  c.getClient.bind fun
    | (.error error, c) => .ret (.error error, c)
    | (.ok client, c) => next client c

/-- A request with one reconnect and retry. -/
def retried {α : Type} (c : PortalCapture) (request : Work (Except IoError α)) : Work (Outcome α) :=
  c.withClient fun _ c =>
    request.bind fun
      | .ok value => .ret (.ok value, c)
      | .error _ => withClient ⟨none⟩ fun _ c => request.bind fun result => .ret (result, c)

/-- A request that waits for the user: no retry. -/
def interactive {α : Type} (c : PortalCapture) (request : Work (Except IoError α)) : Work (Outcome α) :=
  c.withClient fun _ c =>
    .ask .setIoTimeout fun
      | .error error => .ret (.error error, c)
      | .ok () => request.bind fun result => .ret (result, c)

end PortalCapture

inductive Op where
  | protocolVersion
  | enumerateOutputs
  | pick (kind : PickKind)
  | pickConfirm (title body : String) (acceptLabel : Option String)
  | capturePng
  | captureRegionPng (region : Rect)
  deriving DecidableEq, Repr

inductive Value where
  | version (version : Nat)
  | outputs (outputs : List OutputInfo)
  | picked (result : PickResult)
  | confirmPicked (result : ConfirmPickResult)
  | png (png : List UInt8)
  deriving DecidableEq, Repr

/-- What an operation returns; the version comes from the handshake, the rest from replies. -/
inductive Returned where
  | known (value : Value)
  | replied (answered : Answered Value)
  deriving DecidableEq, Repr

/-- The value of a reply as an operation returns it. -/
def replied {α : Type} (f : α → Value) (work : Work (Outcome (Answered α))) : Work (Outcome Returned) :=
  work.bind fun
    | (.error error, c) => .ret (.error error, c)
    | (.ok ⟨value, request, reply⟩, c) => .ret (.ok (.replied ⟨f value, request, reply⟩), c)

def Op.run (c : PortalCapture) : Op → Work (Outcome Returned)
  | .protocolVersion => c.withClient fun client c => .ret (.ok (.known (.version client.version)), c)
  | .enumerateOutputs => replied .outputs (c.retried Capture.enumerateOutputs)
  | .pick kind => replied .picked (c.interactive (pickTarget kind))
  | .pickConfirm title body acceptLabel =>
    replied .confirmPicked (c.interactive (Capture.pickConfirm title body acceptLabel))
  | .capturePng => replied (fun x => .png x.2.2) (c.retried (captureOutputRegion none))
  | .captureRegionPng region => replied (fun x => .png x.2.2) (c.retried (captureOutputRegion (some region)))

/-! ## The connection -/

/-- The requests the compositor owes a reply, oldest first. A read or write that
failed inside a message leaves the connection `torn`; `blob` is the descriptor
behind a capture reply, as long as it is unread. -/
structure Link where
  owed : List Nat
  torn : Bool
  blob : Bool
  /-- The number of the next request. -/
  next : Nat
  deriving DecidableEq, Repr

def isCapture : Response → Bool
  | .captureOutput _ _ _ => true
  | _ => false

/-- The environment says which error an action meets, or what the compositor
replies; whom a reply answers follows from the connection. -/
def wire : Machine Link Empty Action Action.Answer where
  move l _ := l
  answer l a b :=
    match a, b with
    -- A new socket.
    | .greet _, .ok response => (.ok response, { l with owed := [], torn := false, blob := false })
    | .write _, .ok _ => (.ok l.next, { l with owed := l.owed ++ [l.next], next := l.next + 1 })
    | .write _, .error error => (.error error, { l with torn := true })
    | .read, .reply _ response =>
      -- What is read from the middle of a message answers nothing.
      if l.torn || l.blob then (.reply none response, { l with torn := true })
      else
        match l.owed with
        | [] => (.error .timedOut, l)
        | number :: owed => (.reply (some number) response, { l with owed := owed, blob := isCapture response })
    | .read, .error .timedOut => (.error .timedOut, l)
    -- A whole message that does not decode.
    | .read, .error .json => (.error .json, { l with owed := l.owed.tail })
    | .read, .error error => (.error error, { l with torn := true })
    | .receiveBlob _, .ok bytes => (.ok bytes, { l with blob := false })
    | .receiveBlob _, .error error => (.error error, { l with torn := true })
    | _, b => (b, l)

end Capture

end AtriumPortal.Ipc
