import AtriumPortal.Lib.Fields
/-!
# The client of the sigil daemon

`native.rs`: one connection for each request, one request frame on it, and one frame of the
daemon's back. A frame is a header of eight bytes and its payload.
-/
open AtriumPortal.Lib.Path (Bytes bytes join)
open AtriumPortal.Lib.Stream (Reader Writer readExact)
open AtriumPortal.Lib.Fields

namespace AtriumPortal.Secret

def socketSubpath : String := "sigil/native.sock"

/-- `SIGL` -/
def wireMagic : Bytes := [83, 73, 71, 76]
def wireVersion : UInt8 := 2
def headerLen : Nat := 8
def maxPayloadSize : Nat := 4096

def opGetApplicationSecret : UInt8 := 1

def statusSecret : UInt8 := 1
def statusLocked : UInt8 := 3
def statusCancelled : UInt8 := 5
def statusAccessDenied : UInt8 := 6
def statusError : UInt8 := 7

/-- An I/O error: one that the client makes, or one of the socket. -/
inductive IoError where
  | notFound (text : String)
  | invalidInput (text : String)
  | invalidData (text : String)
  | unexpectedEof (text : String)
  | socket (error : Lib.Stream.Error)
  deriving DecidableEq, Repr

inductive NativeError where
  | locked
  | cancelled
  | accessDenied (message : String)
  | daemon (message : String)
  | io (error : IoError)
  | unexpected
  deriving DecidableEq, Repr

/-- A connected socket: what the daemon sends, and what was sent to it. -/
structure Socket where
  reader : Reader
  writer : Writer

/-! ## The request -/

def appendStr (out : Bytes) (s : String) : Except NativeError Bytes :=
  if 65535 < (bytes s).length then .error (.io (.invalidInput "String exceeds max u16 length"))
  else .ok (out ++ toBe 2 ((bytes s).length % 2 ^ 16) ++ bytes s)

/-- The frame that `get_application_secret` builds before it writes anything. -/
def requestFrame («namespace» subject purpose : String) : Except NativeError Bytes := do
  let payload ← appendStr [] «namespace»
  let payload ← appendStr payload subject
  let payload ← appendStr payload purpose
  if maxPayloadSize < payload.length then .error (.io (.invalidData "Request payload exceeds max frame size"))
  else .ok (wireMagic ++ [wireVersion, opGetApplicationSecret] ++ toBe 2 (payload.length % 2 ^ 16) ++ payload)

/-! ## The response -/

section
-- The text of a `Utf8Error`.
variable (utf8Error : Bytes → String)

def decodeString (buf : Bytes) : Except NativeError String :=
  match buf with
  | first :: second :: rest =>
    let len := fromBe [first, second]
    if rest.length < len then .error (.io (.unexpectedEof "Truncated string in response payload"))
    else
      match String.fromUTF8? ⟨(rest.take len).toArray⟩ with
      | some message => .ok message
      | none => .error (.io (.invalidData (utf8Error (rest.take len))))
  | _ => .ok ""

/-- What a response of this status and this payload comes to. -/
def answer (status : UInt8) (payload : Bytes) : Except NativeError Bytes :=
  if status = statusSecret then .ok payload
  else if status = statusLocked then .error .locked
  else if status = statusCancelled then .error .cancelled
  else if status = statusAccessDenied then do
    let message ← decodeString utf8Error payload
    .error (.accessDenied message)
  else if status = statusError then do
    let message ← decodeString utf8Error payload
    .error (.daemon message)
  else .error .unexpected

/-- The second half of `get_application_secret`, on what the daemon sends. -/
def readResponse (r : Reader) : Except NativeError Bytes × Reader :=
  match readExact headerLen r with
  | (.error error, r) => (.error (.io (.socket error)), r)
  | (.ok header, r) =>
    if header.take 4 ≠ wireMagic then (.error (.io (.invalidData "Invalid sigil wire magic")), r)
    else if header.getD 4 0 ≠ wireVersion then
      (.error (.io (.invalidData s!"Unsupported sigil wire version: {(header.getD 4 0).toNat}")), r)
    else
      let status := header.getD 5 0
      let payloadLen := fromBe [header.getD 6 0, header.getD 7 0]
      if maxPayloadSize < payloadLen then
        (.error (.io (.invalidData "Response payload exceeds max frame size")), r)
      else
        match readExact payloadLen r with
        | (.error error, r) => (.error (.io (.socket error)), r)
        | (.ok payload, r) => (answer utf8Error status payload, r)

/-- `get_application_secret` behind the connect. -/
def Socket.exchange (s : Socket) («namespace» subject purpose : String) : Except NativeError Bytes × Socket :=
  match requestFrame «namespace» subject purpose with
  | .error error => (.error error, s)
  | .ok frame =>
    match s.writer.writeAll frame with
    | (.error error, w) => (.error (.io (.socket error)), { s with writer := w })
    | (.ok (), w) =>
      match w.flushed with
      | .error error => (.error (.io (.socket error)), { s with writer := w })
      | .ok () => ((readResponse utf8Error s.reader).1, ⟨(readResponse utf8Error s.reader).2, w⟩)

/-- `get_application_secret`, with the socket as it is left. -/
def getApplicationSecret (connected : Except Lib.Stream.Error Socket) («namespace» subject purpose : String) :
    Except NativeError Bytes × Option Socket :=
  match connected with
  | .error error => (.error (.io (.socket error)), none)
  | .ok socket =>
    ((socket.exchange utf8Error «namespace» subject purpose).1,
      some (socket.exchange utf8Error «namespace» subject purpose).2)
end

/-- `connect_default`: where the daemon's socket is. -/
def connectDefault (runtimeDir : Option Bytes) : Except NativeError Bytes :=
  match runtimeDir.filter (· ≠ []) with
  | some dir => .ok (join dir (bytes socketSubpath))
  | none => .error (.io (.notFound "XDG_RUNTIME_DIR is unset"))

end AtriumPortal.Secret
