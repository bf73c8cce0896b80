import AtriumPortal.Ipc.Codec
import AtriumPortal.Ipc.Operations
/-!
# The client on a socket of bytes

The same operations run on what the connection really is: bytes that arrive in
chunks, some with a descriptor attached, and a writer. A message is a frame of
`codec.rs`, a descriptor the marker byte that `recvmsg` of `blob.rs` takes it
with. As long as whole items arrive and the client reads each as what it is,
its replies and its state are those of the connection that holds items.
-/

open AtriumPortal.Lib.Devices
open AtriumPortal.Lib.Path (Bytes)
open AtriumPortal.Lib.Stream

namespace AtriumPortal.Ipc

/-- `BLOB_MARKER`. -/
def blobMarker : UInt8 := 0xfd

/-- `unread` is what the socket has to give until a read times out, `fds` the
descriptor attached to each byte of it. -/
structure Socket where
  version : Nat
  lease : Option LeaseGrant
  pending : List StreamMessage
  unread : Reader
  fds : List (Option File)
  out : Writer

/-- An exhausted socket is one whose read times out. -/
def ioError : Error → IoError
  | .unexpectedEof => .timedOut
  | .writeZero => .write
  | .invalidData text => .invalidData text
  | .other code => .other (toString code)

namespace Socket

section
variable (encode : Request → Except String Bytes) (decode : Bytes → Except String Message)

def writeMsg (s : Socket) (request : Request) : Except IoError Unit × Socket :=
  let (result, out) := Codec.writeMsg encode s.out request
  (result.mapError ioError, { s with out := out })

/-- A plain read drops the descriptors of the bytes it takes. -/
def readMsg (s : Socket) : Except IoError Message × Socket :=
  let (result, unread) := Codec.readMsg decode s.unread
  (result.mapError ioError,
    { s with unread := unread, fds := s.fds.drop ((content s.unread).length - (content unread).length) })

/-- `receive_fd`: one `recvmsg` of one byte, which is not repeated. -/
def receiveFd (s : Socket) : Except IoError File × Socket :=
  match s.unread with
  | [] => (.error .timedOut, s)
  | .interrupted :: unread => (.error (.other "EINTR"), { s with unread := unread })
  | .failed e :: unread => (.error (ioError e), { s with unread := unread })
  | .data [] :: unread =>
    (.error (.invalidData "missing or truncated capture descriptor"), { s with unread := unread })
  | .data (marker :: chunk) :: unread =>
    let s' := { s with unread := putBack chunk unread, fds := s.fds.tail }
    match s.fds.head?.join with
    | none => (.error (.invalidData "missing or truncated capture descriptor"), s')
    | some file =>
      if marker = blobMarker then (.ok file, s')
      else (.error (.invalidData "missing or truncated capture descriptor"), s')

def act : Device Socket SocketAction SocketAction.Answer IoError
  | s, .writeMsg request => s.writeMsg encode request
  | s, .readMsg => s.readMsg decode
  | s, .receiveFd => s.receiveFd
  | s, .grant lease => (.ok (), { s with lease := some lease })
  | s, .pushBack message => (.ok (), { s with pending := s.pending ++ [message] })
  | s, .popFront =>
    match s.pending with
    | message :: rest => (.ok (some message), { s with pending := rest })
    | [] => (.ok none, s)
  | s, .version => (.ok s.version, s)

end

/-! ## Items as bytes -/

/-- The items, the bytes they cross the socket as and the descriptors attached to these. -/
inductive Carries (decode : Bytes → Except String Message) : List Item → Bytes → List (Option File) → Prop where
  | nil : Carries decode [] [] []
  | message {m : Message} {bytes : Bytes} {attached : List (Option File)} {wire : List Item} {rest : Bytes}
      {fds : List (Option File)} (hdecode : decode bytes = .ok m) (hle : bytes.length ≤ Codec.maxFrame)
      (hattached : attached.length = (Codec.frame bytes).length) (h : Carries decode wire rest fds) :
      Carries decode (.message m :: wire) (Codec.frame bytes ++ rest) (attached ++ fds)
  | descriptor {file : File} {wire : List Item} {rest : Bytes} {fds : List (Option File)}
      (h : Carries decode wire rest fds) : Carries decode (.descriptor file :: wire) (blobMarker :: rest) (some file :: fds)

/-- Chunks that only ever deliver bytes. -/
def Delivering (r : Reader) : Prop := ∀ a ∈ r, ∃ b chunk, a = .data (b :: chunk)

variable {encode : Request → Except String Bytes} {decode : Bytes → Except String Message}

namespace Carries

variable {wire more : List Item} {bytes bytes' : Bytes} {fds fds' : List (Option File)}

theorem append (h : Carries decode wire bytes fds) (h' : Carries decode more bytes' fds') :
    Carries decode (wire ++ more) (bytes ++ bytes') (fds ++ fds') := by
  induction h with
  | nil => exact h'
  | message hdecode hle hattached _ ih =>
    rw [List.append_assoc, List.append_assoc]
    exact .message hdecode hle hattached ih
  | descriptor _ ih => exact .descriptor ih

/-- Every item takes a byte at least. -/
theorem length_le (h : Carries decode wire bytes fds) : wire.length ≤ bytes.length := by
  induction h with
  | nil => exact Nat.le_refl _
  | message _ _ _ _ ih =>
    rw [List.length_cons, List.length_append, Codec.frame, List.length_append, length_toLe]
    omega
  | descriptor _ ih => exact Nat.succ_le_succ ih

end Carries

namespace Delivering

variable {r r' : Reader}

theorem calm (h : Delivering r) : Calm r := fun a ha => .inr (h a ha)

theorem append (h : Delivering r) (h' : Delivering r') : Delivering (r ++ r') := by
  intro a ha
  rcases List.mem_append.1 ha with ha | ha
  · exact h a ha
  · exact h' a ha

theorem putBack {chunk : Bytes} (h : Delivering r) : Delivering (putBack chunk r) := by
  unfold Lib.Stream.putBack
  split
  · exact h
  · next hne =>
    obtain ⟨b, rest, rfl⟩ := List.exists_cons_of_ne_nil hne
    intro a ha
    rcases List.mem_cons.1 ha with rfl | ha
    · exact ⟨b, rest, rfl⟩
    · exact h a ha

theorem readExact (h : Delivering r) (n : Nat) : Delivering (readExact n r).2 := by
  fun_induction Lib.Stream.readExact n r with
  | case1 r => exact h
  | case2 n => exact h
  | case3 n r ih => exact ih fun a ha => h a (List.mem_cons_of_mem _ ha)
  | case4 n e r => exact fun a ha => h a (List.mem_cons_of_mem _ ha)
  | case5 n r => exact fun a ha => h a (List.mem_cons_of_mem _ ha)
  | case6 n b chunk r hlt =>
    intro a ha
    rcases List.mem_cons.1 ha with rfl | ha
    · obtain ⟨c, left, hdrop⟩ : ∃ c left, chunk.drop n = c :: left :=
        List.exists_cons_of_length_pos (by simp; omega)
      exact ⟨c, left, by rw [hdrop]⟩
    · exact h a (List.mem_cons_of_mem _ ha)
  | case7 n b chunk r hlt rest r₁ hrest ih =>
    have hleft := ih fun a ha => h a (List.mem_cons_of_mem _ ha)
    rw [hrest] at hleft
    exact hleft
  | case8 n b chunk r hlt e r₁ hrest ih =>
    have hleft := ih fun a ha => h a (List.mem_cons_of_mem _ ha)
    rw [hrest] at hleft
    exact hleft

theorem readMsg (h : Delivering r) : Delivering (Codec.readMsg decode r).2 := by
  unfold Codec.readMsg
  have hlength := h.readExact 4
  split
  · next hread =>
    rw [hread] at hlength
    exact hlength
  · next length r₁ hread =>
    rw [hread] at hlength
    split
    · exact hlength
    · have hbytes := Delivering.readExact hlength (fromLe length)
      split <;>
        · next hrest =>
          rw [hrest] at hbytes
          exact hbytes

theorem eq_nil (h : Delivering r) (hc : content r = []) : r = [] := by
  cases r with
  | nil => rfl
  | cons a r =>
    obtain ⟨b, chunk, rfl⟩ := h a List.mem_cons_self
    cases hc

/-- The next byte is the first of a chunk. -/
theorem eq_cons (h : Delivering r) {b : UInt8} {rest : Bytes} (hc : content r = b :: rest) :
    ∃ chunk r', r = .data (b :: chunk) :: r' ∧ chunk ++ content r' = rest := by
  cases r with
  | nil => cases hc
  | cons a r =>
    obtain ⟨b', chunk, rfl⟩ := h a List.mem_cons_self
    obtain ⟨rfl, hrest⟩ := List.cons.inj hc
    exact ⟨chunk, r, rfl, hrest⟩

end Delivering

/-! ## The two connections side by side -/

/-- The socket holds what the connection of items holds. -/
structure Carried (encode : Request → Except String Bytes) (decode : Bytes → Except String Message) (c : Client)
    (s : Socket) : Prop where
  aligned : c.aligned = true
  writable : c.writable = true
  version : s.version = c.version
  lease : s.lease = c.lease
  pending : s.pending = c.pending
  delivering : Delivering s.unread
  unread : Carries decode c.wire (content s.unread) s.fds
  steady : s.out.Steady
  written : s.out.written = Codec.frames encode c.sent

/-- A read began within an item. -/
def Lost (c : Client) : Prop := c.aligned = false

/-- What is written fits a frame. -/
def Sendable (encode : Request → Except String Bytes) : SocketAction → Prop
  | .writeMsg request => Codec.Fits encode request
  | _ => True

variable {c : Client} {s : Socket}

theorem lost_stays (c : Client) (a : SocketAction) (h : Lost c) : Lost (Client.act c a).2 := by
  cases a with
  | writeMsg request =>
    simp only [Client.act, Client.writeMsg]
    split <;> exact h
  | readMsg =>
    simp only [Client.act]
    rcases Leftover.readMsg_cases c with ⟨e, -, hr⟩ | ⟨m, rest, -, hr⟩ | ⟨e, file, rest, -, -, hr⟩ <;> rw [hr]
    · exact h
    · exact h
    · exact rfl
  | receiveFd =>
    simp only [Client.act, Client.receiveFd]
    split
    · exact h
    · split
      · exact h
      · exact h
      · exact rfl
  | grant lease => exact h
  | pushBack message => exact h
  | popFront =>
    simp only [Client.act]
    split <;> exact h
  | version => exact h

theorem writeMsg_carried (h : Carried encode decode c s) {request : Request} (hfits : Codec.Fits encode request) :
    (c.writeMsg request).1 = (s.writeMsg encode request).1 ∧
      Carried encode decode (c.writeMsg request).2 (s.writeMsg encode request).2 := by
  obtain ⟨out, hwrite, hsteady⟩ := Codec.writeMsg_steady h.steady hfits
  obtain ⟨bytes, hencode, -, hwritten⟩ := Codec.writeMsg_written hwrite
  rw [Framing.writeMsg_writable h.writable, writeMsg, hwrite]
  refine ⟨rfl, { h with steady := hsteady, written := ?_ }⟩
  show out.written = Codec.frames encode (c.sent ++ [request])
  rw [hwritten, h.written, Codec.frames, Codec.frames, List.flatMap_append, List.flatMap_singleton, hencode]

theorem readMsg_exhausted (hunread : s.unread = []) (hfds : s.fds = []) : s.readMsg decode = (.error .timedOut, s) := by
  cases s
  cases hunread
  cases hfds
  rfl

theorem readMsg_carried (h : Carried encode decode c s) :
    Lost c.readMsg.2 ∨ c.readMsg.1 = (s.readMsg decode).1 ∧ Carried encode decode c.readMsg.2 (s.readMsg decode).2 := by
  have hleft : Delivering (s.readMsg decode).2.unread := h.delivering.readMsg
  have hunread := h.unread
  rw [Client.readMsg, h.aligned]
  cases hw : c.wire with
  | nil =>
    right
    rw [hw] at hunread
    generalize hcontent : content s.unread = bytes at hunread
    generalize hfds : s.fds = fds at hunread
    cases hunread
    rw [readMsg_exhausted (h.delivering.eq_nil hcontent) hfds]
    exact ⟨rfl, h⟩
  | cons item rest =>
    cases item with
    | descriptor file => exact .inl rfl
    | message m =>
      right
      rw [hw] at hunread
      generalize hcontent : content s.unread = bytes at hunread
      generalize hfds : s.fds = fds at hunread
      cases hunread with
      | @message _ bytes attached _ left fds hdecode hle hattached htail =>
        obtain ⟨unread, hread, -, hbehind⟩ := Codec.readMsg_frame h.delivering.calm hcontent hle hdecode
        have hdropped : s.fds.drop ((content s.unread).length - (content unread).length) = fds := by
          rw [hcontent, hbehind, hfds, List.length_append, Nat.add_sub_cancel, ← hattached, List.drop_left]
        have hout : s.readMsg decode = (.ok m, { s with unread := unread, fds := fds }) := by
          rw [readMsg, hread]
          show (Except.ok m, { s with unread := unread, fds := _ }) = _
          rw [hdropped]
        rw [hout] at hleft ⊢
        exact ⟨rfl, { h with aligned := rfl, delivering := hleft, unread := hbehind ▸ htail }⟩

theorem receiveFd_carried (h : Carried encode decode c s) :
    Lost c.receiveFd.2 ∨ c.receiveFd.1 = s.receiveFd.1 ∧ Carried encode decode c.receiveFd.2 s.receiveFd.2 := by
  have hunread := h.unread
  rw [Client.receiveFd, h.aligned]
  cases hw : c.wire with
  | nil =>
    right
    rw [hw] at hunread
    generalize hcontent : content s.unread = bytes at hunread
    generalize s.fds = fds at hunread
    cases hunread
    rw [receiveFd, h.delivering.eq_nil hcontent]
    exact ⟨rfl, h⟩
  | cons item rest =>
    cases item with
    | message m => exact .inl rfl
    | descriptor file =>
      right
      rw [hw] at hunread
      generalize hcontent : content s.unread = bytes at hunread
      generalize hfds : s.fds = fds at hunread
      cases hunread with
      | @descriptor _ _ left fds htail =>
        obtain ⟨chunk, unread, hdata, hbehind⟩ := h.delivering.eq_cons hcontent
        have hout : s.receiveFd = (.ok file, { s with unread := putBack chunk unread, fds := fds }) := by
          rw [receiveFd, hdata, hfds]
          rfl
        rw [hout]
        have hrest : Delivering unread := fun a ha => h.delivering a (hdata ▸ List.mem_cons_of_mem _ ha)
        have hcarries : Carries decode rest (content (putBack chunk unread)) fds := by
          rw [content_putBack, hbehind]
          exact htail
        exact ⟨rfl, { h with aligned := rfl, delivering := hrest.putBack, unread := hcarries }⟩

theorem act_matches : Matches (Carried encode decode) Lost (Sendable encode) Client.act (act encode decode) where
  stays := lost_stays
  answers c s a h hsendable := by
    cases a with
    | writeMsg request => exact .inr (writeMsg_carried h hsendable)
    | readMsg => exact readMsg_carried h
    | receiveFd => exact receiveFd_carried h
    | grant lease => exact .inr ⟨rfl, { h with lease := rfl }⟩
    | pushBack message =>
      refine .inr ⟨rfl, { h with pending := ?_ }⟩
      show s.pending ++ [message] = c.pending ++ [message]
      rw [h.pending]
    | popFront =>
      right
      have hpending := h.pending
      simp only [Client.act, act]
      cases hc : c.pending with
      | nil =>
        rw [hc] at hpending
        rw [hpending]
        exact ⟨rfl, h⟩
      | cons message rest =>
        rw [hc] at hpending
        rw [hpending]
        exact ⟨rfl, { h with pending := rfl }⟩
    | version => exact .inr ⟨congrArg Except.ok h.version.symm, h⟩

end Socket

/-! ## Sessions -/

/-- The operations of a connected client. -/
inductive ClientCall where
  | renewLease (ttlMs : Nat)
  | subscribe
  | enumerateOutputs
  | captureOutputRegion (region : Option Rect)
  | pickTarget (kind : PickKind)
  | pickConfirm (title body : String) (acceptLabel : Option String)
  | startOutputStream (maxFps : Option Nat) (target : StreamTarget) (dmabuf : Bool) (cursor : Option StreamCursorMode)
  | stopOutputStream (streamId : Nat)
  | releaseStreamBuffer (streamId slot : Nat)
  | requestLeaseRenewal (ttlMs : Nat)
  | nextStreamMessage
  deriving DecidableEq, Repr

inductive ClientReply where
  | done
  | lease (lease : LeaseGrant)
  | outputs (outputs : List OutputInfo)
  | capture (width height : Nat) (file : File)
  | picked (result : PickResult)
  | confirmPicked (result : ConfirmPickResult)
  | started (started : StreamStarted)
  | message (message : StreamMessage)
  deriving DecidableEq, Repr

namespace ClientCall

def op (fuel : Nat) : ClientCall → Operation ClientReply
  | .renewLease ttlMs => do pure (.lease (← Operation.renewLease ttlMs))
  | .subscribe => do Operation.subscribe; pure .done
  | .enumerateOutputs => do pure (.outputs (← Operation.enumerateOutputs))
  | .captureOutputRegion region => do
    let (width, height, file) ← Operation.captureOutputRegion region
    pure (.capture width height file)
  | .pickTarget kind => do pure (.picked (← Operation.pickTarget kind))
  | .pickConfirm title body acceptLabel => do pure (.confirmPicked (← Operation.pickConfirm title body acceptLabel))
  | .startOutputStream maxFps target dmabuf cursor => do
    pure (.started (← Operation.startOutputStream fuel maxFps target dmabuf cursor))
  | .stopOutputStream streamId => do Operation.stopOutputStream fuel streamId; pure .done
  | .releaseStreamBuffer streamId slot => do Operation.releaseStreamBuffer streamId slot; pure .done
  | .requestLeaseRenewal ttlMs => do Operation.requestLeaseRenewal ttlMs; pure .done
  | .nextStreamMessage => do pure (.message (← Operation.nextStreamMessage fuel))

/-- What the call writes, by the version of the protocol. -/
def request (version : Nat) : ClientCall → Option Request
  | .renewLease ttlMs | .requestLeaseRenewal ttlMs => some (.renewLease ttlMs)
  | .subscribe => some .subscribe
  | .enumerateOutputs => some .enumerateOutputs
  | .captureOutputRegion region => some (.captureOutput region)
  | .pickTarget kind => some (.pickTarget kind)
  | .pickConfirm title body acceptLabel => some (.pickConfirm title body acceptLabel)
  | .startOutputStream maxFps target dmabuf cursor =>
    some (.streamOutputStart maxFps target (if dmabuf && 25 ≤ version then some true else none)
      (cursor.filter fun _ => 29 ≤ version))
  | .stopOutputStream streamId => some (.streamOutputStop streamId)
  | .releaseStreamBuffer streamId slot => some (.streamBufferRelease streamId slot)
  | .nextStreamMessage => none

end ClientCall

/-- The reply of a call, where the call returns one. -/
def Client.replied {α : Type} (f : α → ClientReply) (out : Client.Outcome α) : Client.Outcome ClientReply :=
  (out.1.map f, out.2)

/-- A call on a connection of items. -/
def Client.reply (c : Client) : ClientCall → Client.Outcome ClientReply
  | .renewLease ttlMs => Client.replied .lease (c.renewLease ttlMs)
  | .enumerateOutputs => Client.replied .outputs c.enumerateOutputs
  | .startOutputStream maxFps target dmabuf cursor =>
    Client.replied .started (c.startOutputStream maxFps target dmabuf cursor)
  | .stopOutputStream streamId => Client.replied (fun _ => .done) (c.stopOutputStream streamId)
  | .releaseStreamBuffer streamId slot => Client.replied (fun _ => .done) (c.releaseStreamBuffer streamId slot)
  | .requestLeaseRenewal ttlMs => Client.replied (fun _ => .done) (c.requestLeaseRenewal ttlMs)
  | .nextStreamMessage => Client.replied .message c.nextStreamMessage
  | call => (call.op 0).run Client.act c

/-- What happens to a connection: the compositor's items arrive, as some chunks of bytes
with descriptors attached, and the client makes a call. -/
inductive SocketMove where
  | arrive (items : List Item) (chunks : Reader) (fds : List (Option File))
  | call (call : ClientCall)

def Client.session (c : Client) : List SocketMove → List (Except IoError ClientReply) × Client
  | [] => ([], c)
  | .arrive items _ _ :: moves => { c with wire := c.wire ++ items }.session moves
  | .call call :: moves =>
    let (replies, c') := (c.reply call).2.session moves
    ((c.reply call).1 :: replies, c')

section
variable (encode : Request → Except String Bytes) (decode : Bytes → Except String Message)

/-- A call on a socket. The unread bytes bound the turns of its loops. -/
def Socket.reply (s : Socket) (call : ClientCall) : Except IoError ClientReply × Socket :=
  (call.op ((content s.unread).length + 1)).run (Socket.act encode decode) s

def Socket.session (s : Socket) : List SocketMove → List (Except IoError ClientReply) × Socket
  | [] => ([], s)
  | .arrive _ chunks fds :: moves => { s with unread := s.unread ++ chunks, fds := s.fds ++ fds }.session moves
  | .call call :: moves =>
    let (replies, s') := (s.reply encode decode call).2.session moves
    ((s.reply encode decode call).1 :: replies, s')

/-- The chunks that arrive carry the items, and a request fits a frame. -/
def SocketMove.Whole : SocketMove → Prop
  | .arrive items chunks fds => Socket.Carries decode items (content chunks) fds ∧ Socket.Delivering chunks
  | .call c => ∀ version, ∀ request ∈ c.request version, Codec.Fits encode request

end

variable {encode : Request → Except String Bytes} {decode : Bytes → Except String Message}

theorem run_replied {α : Type} (p : Operation α) (f : α → ClientReply) (c : Client) :
    (do pure (f (← p)) : Operation ClientReply).run Client.act c = Client.replied f (p.run Client.act c) := by
  rw [Script.run_bind, Client.replied]
  rcases p.run Client.act c with ⟨e | r, c'⟩ <;> rfl

/-- On a connection of items the script of a call is the operation of the client. -/
theorem run_op (c : Client) {fuel : Nat} (hfuel : c.wire.length < fuel) (call : ClientCall) :
    (call.op fuel).run Client.act c = c.reply call := by
  cases call with
  | renewLease ttlMs => exact (run_replied _ _ c).trans (congrArg _ (Client.run_renewLease c ttlMs))
  | enumerateOutputs => exact (run_replied _ _ c).trans (congrArg _ (Client.run_enumerateOutputs c))
  | startOutputStream maxFps target dmabuf cursor =>
    exact (run_replied _ _ c).trans (congrArg _ (Client.run_startOutputStream c hfuel maxFps target dmabuf cursor))
  | stopOutputStream streamId =>
    exact (run_replied _ _ c).trans (congrArg _ (Client.run_stopOutputStream c hfuel streamId))
  | releaseStreamBuffer streamId slot => exact (run_replied _ _ c).trans (congrArg _ (Client.run_writeMsg c _))
  | requestLeaseRenewal ttlMs => exact (run_replied _ _ c).trans (congrArg _ (Client.run_writeMsg c _))
  | nextStreamMessage => exact (run_replied _ _ c).trans (congrArg _ (Client.run_nextStreamMessage c hfuel))
  | subscribe => rfl
  | captureOutputRegion region => rfl
  | pickTarget kind => rfl
  | pickConfirm title body acceptLabel => rfl

/-! ### What the calls write -/

namespace Socket

theorem uses_writeMsg {request : Request} (h : Codec.Fits encode request) :
    (Operation.writeMsg request).Uses (Sendable encode) := Script.uses_call.2 h

theorem uses_readMsg : Operation.readMsg.Uses (Sendable encode) := Script.uses_call.2 trivial

theorem uses_receiveMemfdFile (expectedLen : Nat) : (Operation.receiveMemfdFile expectedLen).Uses (Sendable encode) := by
  unfold Operation.receiveMemfdFile
  split
  · trivial
  · refine Script.Uses.bind (Script.uses_call.2 trivial) fun file => ?_
    split
    · trivial
    · split <;> trivial

theorem uses_receiveDmabufFile (expectedLen : Nat) : (Operation.receiveDmabufFile expectedLen).Uses (Sendable encode) := by
  unfold Operation.receiveDmabufFile
  split
  · trivial
  · refine Script.Uses.bind (Script.uses_call.2 trivial) fun file => ?_
    cases file.len with
    | none => trivial
    | some len =>
      simp only
      split <;> trivial

theorem uses_streamMessage (m : Message) : (Operation.streamMessage m).Uses (Sendable encode) := by
  cases m with
  | event e =>
    cases e with
    | streamFrame header =>
      refine Script.Uses.bind ?_ fun payload => trivial
      unfold Operation.receivePayload
      cases header.slot with
      | some slot => trivial
      | none =>
        cases header.format with
        | bgra8 | rgba8 => exact (uses_receiveMemfdFile _).bind fun file => trivial
        | dmabuf drmFormat modifier => exact (uses_receiveDmabufFile _).bind fun file => trivial
    | _ => trivial
  | response response =>
    cases response with
    | leaseRenewed lease => exact Script.Uses.bind (Script.uses_call.2 trivial) fun _ => trivial
    | _ => trivial
  | _ => trivial

theorem uses_buffer (message : Option StreamMessage) : (Operation.buffer message).Uses (Sendable encode) := by
  cases message with
  | none => trivial
  | some message => exact Script.uses_call.2 trivial

theorem uses_skipped {α : Type} (m : Message) :
    (do let message ← Operation.streamMessage m; Operation.buffer message; pure none :
      Operation (Option α)).Uses (Sendable encode) :=
  (uses_streamMessage m).bind fun message => (uses_buffer message).bind fun _ => trivial

theorem uses_readResponse : Operation.readResponse.Uses (Sendable encode) :=
  uses_readMsg.bind fun m => by cases m <;> trivial

theorem uses_receiveSlots (stride bytes count : Nat) : (Operation.receiveSlots stride bytes count).Uses (Sendable encode) := by
  induction count with
  | zero => trivial
  | succ count ih => exact (uses_receiveDmabufFile bytes).bind fun file => ih.bind fun table => trivial

theorem uses_startTurn : Operation.startTurn.Uses (Sendable encode) := by
  refine uses_readMsg.bind fun m => ?_
  cases m with
  | response response =>
    cases response with
    | streamOutputStarted streamId width height format slots slotStride slotBytes =>
      refine Script.Uses.bind ?_ fun table => trivial
      cases format <;> cases slots <;> cases slotStride <;> cases slotBytes
      case dmabuf.some.some.some => exact (uses_receiveSlots _ _ _).bind fun table => trivial
      all_goals trivial
    | _ => exact uses_skipped _
  | _ => exact uses_skipped _

theorem uses_stopTurn (streamId : Nat) : (Operation.stopTurn streamId).Uses (Sendable encode) := by
  refine uses_readMsg.bind fun m => ?_
  cases m with
  | response response =>
    cases response with
    | streamOutputStopped stopped =>
      simp only
      split <;> trivial
    | _ => exact uses_skipped _
  | _ => exact uses_skipped _

/-- A call writes its request and nothing else. -/
theorem uses_op {call : ClientCall} (h : ∀ version, ∀ request ∈ call.request version, Codec.Fits encode request)
    (fuel : Nat) : (call.op fuel).Uses (Sendable encode) := by
  have hwrite : ∀ request, call.request 0 = some request → (Operation.writeMsg request).Uses (Sendable encode) :=
    fun request hr => uses_writeMsg (h 0 request hr)
  cases call with
  | renewLease ttlMs =>
    refine Script.Uses.bind ((hwrite _ rfl).bind fun _ => uses_readResponse.bind fun response => ?_) fun _ => trivial
    cases response with
    | leaseRenewed lease => exact Script.Uses.bind (Script.uses_call.2 trivial) fun _ => trivial
    | _ => trivial
  | subscribe =>
    refine Script.Uses.bind ((hwrite _ rfl).bind fun _ => uses_readResponse.bind fun response => ?_) fun _ => trivial
    cases response <;> trivial
  | enumerateOutputs =>
    refine Script.Uses.bind ((hwrite _ rfl).bind fun _ => uses_readResponse.bind fun response => ?_) fun _ => trivial
    cases response <;> trivial
  | captureOutputRegion region =>
    refine Script.Uses.bind ((hwrite _ rfl).bind fun _ => uses_readResponse.bind fun response => ?_) fun _ => trivial
    cases response with
    | captureOutput width height pngBytes => exact (uses_receiveMemfdFile pngBytes).bind fun file => trivial
    | _ => trivial
  | pickTarget kind =>
    refine Script.Uses.bind ((hwrite _ rfl).bind fun _ => uses_readResponse.bind fun response => ?_) fun _ => trivial
    cases response <;> trivial
  | pickConfirm title body acceptLabel =>
    refine Script.Uses.bind ((hwrite _ rfl).bind fun _ => uses_readResponse.bind fun response => ?_) fun _ => trivial
    cases response <;> trivial
  | startOutputStream maxFps target dmabuf cursor =>
    refine Script.Uses.bind ?_ fun _ => trivial
    refine Script.Uses.bind (Script.uses_call.2 trivial) fun (version : Nat) => ?_
    simp only
    split
    · trivial
    · exact (uses_writeMsg (h version _ rfl)).bind fun _ => uses_startTurn.repeatUntil fuel
  | stopOutputStream streamId =>
    exact Script.Uses.bind ((hwrite _ rfl).bind fun _ => (uses_stopTurn streamId).repeatUntil fuel) fun _ => trivial
  | releaseStreamBuffer streamId slot => exact (hwrite _ rfl).bind fun _ => trivial
  | requestLeaseRenewal ttlMs => exact (hwrite _ rfl).bind fun _ => trivial
  | nextStreamMessage =>
    refine Script.Uses.bind ?_ fun _ => trivial
    refine Script.Uses.bind (Script.uses_call.2 trivial) fun (message : Option StreamMessage) => ?_
    cases message with
    | some message => trivial
    | none =>
      have hturn : Operation.nextTurn.Uses (Sendable encode) := uses_readMsg.bind fun m => uses_streamMessage m
      exact hturn.repeatUntil fuel

end Socket

/-! ### The refinement -/

theorem reply_lost {c : Client} (h : Socket.Lost c) (call : ClientCall) : Socket.Lost (c.reply call).2 := by
  rw [← run_op c (Nat.lt_succ_self _) call]
  exact run_lost Socket.lost_stays _ h

theorem session_lost (moves : List SocketMove) {c : Client} (h : Socket.Lost c) : Socket.Lost (c.session moves).2 := by
  induction moves generalizing c with
  | nil => exact h
  | cons move moves ih =>
    cases move with
    | arrive items chunks fds => exact ih (c := { c with wire := c.wire ++ items }) h
    | call call => exact ih (reply_lost h call)

/-- One call, on the items and on the bytes that carry them. -/
theorem reply_carried {c : Client} {s : Socket} (h : Socket.Carried encode decode c s) {call : ClientCall}
    (hfits : ∀ version, ∀ request ∈ call.request version, Codec.Fits encode request)
    (haligned : (c.reply call).2.aligned = true) :
    (c.reply call).1 = (s.reply encode decode call).1 ∧
      Socket.Carried encode decode (c.reply call).2 (s.reply encode decode call).2 := by
  have hfuel : c.wire.length < (content s.unread).length + 1 := Nat.lt_succ_of_le h.unread.length_le
  have hrun := run_matches Socket.act_matches (Socket.uses_op hfits ((content s.unread).length + 1)) h
  rw [run_op c hfuel call] at hrun
  rcases hrun with hlost | hboth
  · rw [Socket.Lost, haligned] at hlost
    cases hlost
  · exact hboth

theorem Socket.Carried.arrive {c : Client} {s : Socket} (h : Socket.Carried encode decode c s) {items : List Item}
    {chunks : Reader} {fds : List (Option File)} (hcarries : Socket.Carries decode items (content chunks) fds)
    (hdelivering : Socket.Delivering chunks) :
    Socket.Carried encode decode { c with wire := c.wire ++ items }
      { s with unread := s.unread ++ chunks, fds := s.fds ++ fds } := by
  refine { h with delivering := h.delivering.append hdelivering, unread := ?_ }
  show Socket.Carries decode (c.wire ++ items) (content (s.unread ++ chunks)) (s.fds ++ fds)
  rw [content, List.flatMap_append]
  exact h.unread.append hcarries

/-- A session on bytes has the replies of the session on items and carries its state, as long
as that one reads every item as what it is. -/
theorem session_refines {c : Client} {s : Socket} (h : Socket.Carried encode decode c s) {moves : List SocketMove}
    (hmoves : ∀ move ∈ moves, move.Whole encode decode) (haligned : (c.session moves).2.aligned = true) :
    (s.session encode decode moves).1 = (c.session moves).1 ∧
      Socket.Carried encode decode (c.session moves).2 (s.session encode decode moves).2 := by
  induction moves generalizing c s with
  | nil => exact ⟨rfl, h⟩
  | cons move moves ih =>
    have hrest : ∀ move ∈ moves, move.Whole encode decode := fun m hm => hmoves m (List.mem_cons_of_mem _ hm)
    have hmove := hmoves move List.mem_cons_self
    cases move with
    | arrive items chunks fds => exact ih (h.arrive hmove.1 hmove.2) hrest haligned
    | call call =>
      have hkept : (c.reply call).2.aligned = true := by
        by_contra hlost
        have hend := session_lost moves (c := (c.reply call).2) ((Bool.not_eq_true _).mp hlost)
        exact absurd (hend.symm.trans haligned) Bool.false_ne_true
      obtain ⟨hreply, hcarried⟩ := reply_carried h hmove hkept
      obtain ⟨hreplies, hend⟩ := ih hcarried hrest haligned
      exact ⟨congrArg₂ List.cons hreply.symm hreplies, hend⟩

/-! ## A frame that races its start reply -/

namespace Socket

def memfd : File where
  fd := 5
  regular := true
  len := some 16
  sealed := true
  mappable := true

def plane : File where
  fd := 6
  regular := false
  len := some 64
  sealed := false
  mappable := true

def racingFrame : FrameHeader := ⟨3, 1, 2, 2, 8, .bgra8, [], 0, 16, none⟩

def racingDecode (bytes : Bytes) : Except String Message :=
  if bytes = [1] then .ok (.event (.streamFrame racingFrame))
  else if bytes = [2] then .ok (.response (.streamOutputStarted 4 4 4 (.dmabuf 1 0) (some 1) (some 16) (some 64)))
  else .error "expected value at line 1 column 1"

def racingEncode (_ : Request) : Except String Bytes := .ok [3]

/-- The frame, its memory, the start reply and its slot, cut within a length and before a marker. -/
def racing : List SocketMove := [
  .arrive [.message (.event (.streamFrame racingFrame)), .descriptor memfd,
      .message (.response (.streamOutputStarted 4 4 4 (.dmabuf 1 0) (some 1) (some 16) (some 64))), .descriptor plane]
    [.data [1, 0], .data [0, 0, 1, 0xfd, 1, 0, 0, 0, 2], .data [0xfd]]
    [none, none, none, none, none, some memfd, none, none, none, none, none, some plane],
  .call (.startOutputStream none (.output none) true none), .call .nextStreamMessage]

def racingClient : Client := ⟨29, none, [], [], true, true, []⟩

def racingSocket : Socket := ⟨29, none, [], [], [], ⟨[], [.takes 2, .interrupted], .ok ()⟩⟩

theorem session_refines_racing : (racingSocket.session racingEncode racingDecode racing).1 =
    [.ok (.started ⟨4, 4, 4, .dmabuf 1 0, some [⟨plane, 16, 64⟩]⟩),
      .ok (.message (.frame (Client.frameOf racingFrame (.memfd memfd))))] := by
  have hcarried : Socket.Carried racingEncode racingDecode racingClient racingSocket :=
    ⟨rfl, rfl, rfl, rfl, rfl, nofun, .nil, ⟨by simp [racingSocket], rfl⟩, rfl⟩
  have hfits : ∀ request, Codec.Fits racingEncode request := fun _ => ⟨[3], rfl, by decide⟩
  have hwhole : ∀ move ∈ racing, move.Whole racingEncode racingDecode := by
    intro move hmove
    simp only [racing, List.mem_cons, List.not_mem_nil, or_false] at hmove
    rcases hmove with rfl | rfl | rfl
    · refine ⟨?_, ?_⟩
      · have hstarted := @Socket.Carries.message racingDecode _ [2] [none, none, none, none, none] _ _ _ rfl (by decide) rfl
          (@Socket.Carries.descriptor _ plane _ _ _ .nil)
        exact @Socket.Carries.message racingDecode _ [1] [none, none, none, none, none] _ _ _ rfl (by decide) rfl
          (.descriptor hstarted)
      · intro a ha
        simp only [List.mem_cons, List.not_mem_nil, or_false] at ha
        rcases ha with rfl | rfl | rfl <;> exact ⟨_, _, rfl⟩
    · exact fun version request hr => hfits request
    · exact fun version request hr => hfits request
  exact (session_refines hcarried hwhole rfl).1.trans rfl

end Socket
end AtriumPortal.Ipc
