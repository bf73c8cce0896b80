import AtriumPortal.Secret.Portal
import AtriumPortal.Secret.Requests
/-!
# Responses

What a response says is its first frame. `responses_exact`: the responses that are parsed as
they are documented are those that do not start with a secret of another length than 32.
-/
open AtriumPortal.Lib
open AtriumPortal.Lib.Path (Bytes bytes)
open AtriumPortal.Lib.Fields
open AtriumPortal.Lib.Stream (Calm content readExact readExact_calm readExact_takes)

namespace AtriumPortal.Secret

/-! ## The documented layout -/

/-- The stream starts with a whole frame of this status and this payload. -/
def Begins (stream : Bytes) (status : UInt8) (payload : Bytes) : Prop :=
  payload.length ≤ maxPayloadSize ∧ ∃ rest, stream = frame status payload ++ rest

/-- The text in a payload, which may be missing. -/
def Message (payload : Bytes) (message : String) : Prop :=
  payload.length < 2 ∧ message = "" ∨ ∃ rest, readText payload = some (message, rest)

/-- The errors, by what the daemon sent. -/
inductive Documented (stream : Bytes) : NativeError → Prop where
  | locked {payload : Bytes} (begins : Begins stream statusLocked payload) : Documented stream .locked
  | cancelled {payload : Bytes} (begins : Begins stream statusCancelled payload) : Documented stream .cancelled
  | accessDenied {payload : Bytes} {message : String} (begins : Begins stream statusAccessDenied payload)
      (text : Message payload message) : Documented stream (.accessDenied message)
  | daemon {payload : Bytes} {message : String} (begins : Begins stream statusError payload)
      (text : Message payload message) : Documented stream (.daemon message)
  | unexpected {status : UInt8} {payload : Bytes} (begins : Begins stream status payload)
      (unknown : status ∉ [statusSecret, statusLocked, statusCancelled, statusAccessDenied, statusError]) :
      Documented stream .unexpected
  | framing {error : IoError} (broken : ∀ status payload, ¬ Begins stream status payload) : Documented stream (.io error)
  | message {error : IoError} {status : UInt8} {payload : Bytes} (begins : Begins stream status payload)
      (texts : status ∈ [statusAccessDenied, statusError]) (broken : ∀ message, ¬ Message payload message) :
      Documented stream (.io error)

theorem Begins.lt {stream payload : Bytes} {status : UInt8} (h : Begins stream status payload) : payload.length < 256 ^ 2 :=
  Nat.lt_of_le_of_lt h.1 (by decide)

/-- A stream starts with one frame at most. -/
theorem Begins.unique {stream payload payload' : Bytes} {status status' : UInt8} (h : Begins stream status payload)
    (h' : Begins stream status' payload') : status = status' ∧ payload = payload' := by
  obtain ⟨rest, rfl⟩ := h.2
  obtain ⟨rest', heq⟩ := h'.2
  have hstatus : (frame status payload ++ rest)[5]? = (frame status' payload' ++ rest')[5]? := by rw [heq]
  obtain rfl : status = status' := Option.some.inj hstatus
  have hread := readFrame_frame h.lt status rest
  rw [heq, readFrame_frame h'.lt] at hread
  cases hread
  exact ⟨rfl, rfl⟩

/-! ## Reading a frame -/

theorem toBe_two (a b : UInt8) : toBe 2 (fromBe [a, b]) = [a, b] := toBe_fromBe [a, b]

/-- The eight bytes of a header. -/
theorem header_eq {header : Bytes} (h : header.length = headerLen) :
    header = header.take 4 ++ [header.getD 4 0, header.getD 5 0] ++
      toBe 2 (fromBe [header.getD 6 0, header.getD 7 0]) := by
  obtain ⟨a, b, c, d, e, f, g, i, rfl⟩ : ∃ a b c d e f g i, header = [a, b, c, d, e, f, g, i] := by
    match header, h with
    | [a, b, c, d, e, f, g, i], _ => exact ⟨a, b, c, d, e, f, g, i, rfl⟩
  rw [toBe_two]
  rfl

/-- What a header says of a stream that starts with a frame. -/
theorem Begins.header {header left payload : Bytes} {status : UInt8} (h : Begins (header ++ left) status payload)
    (hlen : header.length = headerLen) : header.take 4 = wireMagic ∧ header.getD 4 0 = wireVersion ∧
      header.getD 5 0 = status ∧ fromBe [header.getD 6 0, header.getD 7 0] = payload.length ∧ payload <+: left := by
  obtain ⟨rest, heq⟩ := h.2
  rw [frame, field, ← List.append_assoc, List.append_assoc _ payload] at heq
  have hsize : header.length = (wireMagic ++ [wireVersion, status] ++ toBe 2 payload.length).length := by
    rw [List.length_append, length_toBe]
    exact hlen
  obtain ⟨hheader, hleft⟩ := List.append_inj heq hsize
  have hnumber := fromBe_toBe h.lt
  obtain ⟨a, b, hab⟩ : ∃ a b, toBe 2 payload.length = [a, b] := List.length_eq_two.1 (length_toBe 2 _)
  rw [hab] at hheader hnumber
  rw [hheader, hleft]
  exact ⟨rfl, rfl, rfl, hnumber, rest, rfl⟩

/-- A response is the answer of the frame that the stream starts with, or an error of the framing.
A reader that only delivers has no other framing error than a stream without a frame. -/
theorem readResponse_frame (utf8Error : Bytes → String) (r : Stream.Reader) :
    (∃ status payload, Begins (content r) status payload ∧
        (readResponse utf8Error r).1 = answer utf8Error status payload) ∨
      (∃ error, (readResponse utf8Error r).1 = .error (.io error)) ∧
        (Calm r → ∀ status payload, ¬ Begins (content r) status payload) := by
  unfold readResponse
  rcases hheader : readExact headerLen r with ⟨error | header, r₁⟩
  · refine .inr ⟨⟨.socket error, rfl⟩, fun hcalm status payload hbegins => ?_⟩
    obtain ⟨rest, hrest⟩ := hbegins.2
    have hlong : headerLen ≤ (content r).length := by
      rw [hrest, List.length_append, length_frame]
      omega
    obtain ⟨r', hread, -⟩ := readExact_calm headerLen hcalm hlong
    rw [hheader] at hread
    cases hread
  · obtain ⟨hcontent, hlen⟩ := readExact_takes hheader
    have hbegun : ∀ status payload, Begins (content r) status payload → Begins (header ++ content r₁) status payload :=
      fun status payload hbegins => hcontent ▸ hbegins
    dsimp only
    split
    · next hmagic =>
      exact .inr ⟨⟨_, rfl⟩, fun _ status payload hbegins => hmagic ((hbegun _ _ hbegins).header hlen).1⟩
    · next hmagic =>
      split
      · next hversion =>
        exact .inr ⟨⟨_, rfl⟩, fun _ status payload hbegins => hversion ((hbegun _ _ hbegins).header hlen).2.1⟩
      · next hversion =>
        split
        -- a size past the limit is an error before the payload is read
        · next hlarge =>
          refine .inr ⟨⟨_, rfl⟩, fun _ status payload hbegins => ?_⟩
          rw [((hbegun _ _ hbegins).header hlen).2.2.2.1] at hlarge
          exact Nat.not_lt.2 hbegins.1 hlarge
        · next hsmall =>
          rcases hpayload : readExact (fromBe [header.getD 6 0, header.getD 7 0]) r₁ with ⟨error | payload, r₂⟩
          · refine .inr ⟨⟨.socket error, rfl⟩, fun hcalm status payload hbegins => ?_⟩
            obtain ⟨-, -, -, hsize, hleft⟩ := (hbegun _ _ hbegins).header hlen
            -- the whole frame is in the stream, so neither read fails
            obtain ⟨r', hread, hcalm', -⟩ := readExact_calm headerLen hcalm (by rw [hcontent, List.length_append]; omega)
            obtain rfl : r₁ = r' := congrArg Prod.snd (hheader.symm.trans hread)
            obtain ⟨r'', hread', -⟩ := readExact_calm _ hcalm' (hsize ▸ hleft.length_le)
            rw [hpayload] at hread'
            cases hread'
          · obtain ⟨hcontent₁, hsize⟩ := readExact_takes hpayload
            refine .inl ⟨header.getD 5 0, payload, ⟨hsize ▸ Nat.not_lt.1 hsmall, content r₂, ?_⟩, rfl⟩
            have heq := header_eq hlen
            rw [Decidable.not_not.1 hmagic, Decidable.not_not.1 hversion, ← hsize] at heq
            rw [hcontent, hcontent₁, frame, field, ← List.append_assoc, ← List.append_assoc, ← heq]

/-! ## What a frame comes to -/

/-- A text behind its two bytes of length. -/
theorem readText_two (a b : UInt8) (rest : Bytes) : readText (a :: b :: rest) =
    if rest.length < fromBe [a, b] then none
    else (String.fromUTF8? ⟨(rest.take (fromBe [a, b])).toArray⟩).map (·, rest.drop (fromBe [a, b])) := by
  have hfield : readField 2 (a :: b :: rest) =
      if rest.length < fromBe [a, b] then none else some (rest.take (fromBe [a, b]), rest.drop (fromBe [a, b])) := by
    unfold readField
    simp only [List.take_succ_cons, List.take_zero, List.drop_succ_cons, List.drop_zero, List.length_cons,
      ← List.drop_drop]
    congr 1
    exact propext ⟨fun h => by omega, fun h => by omega⟩
  rw [readText, hfield]
  split
  · rfl
  · simp only [Option.bind_eq_bind, Option.bind_some]
    cases String.fromUTF8? ⟨(rest.take (fromBe [a, b])).toArray⟩ <;> rfl

/-- A text is read as it was written, and only a broken one is an error. -/
theorem decodeString_text (utf8Error : Bytes → String) (payload : Bytes) :
    (∃ message, decodeString utf8Error payload = .ok message ∧ Message payload message) ∨
      (∃ error, decodeString utf8Error payload = .error (.io error)) ∧ ∀ message, ¬ Message payload message := by
  match payload with
  | [] => exact .inl ⟨"", rfl, .inl ⟨Nat.zero_lt_succ _, rfl⟩⟩
  | [a] => exact .inl ⟨"", rfl, .inl ⟨Nat.lt_succ_self _, rfl⟩⟩
  | a :: b :: rest =>
    have hlong : ∀ {message}, Message (a :: b :: rest) message → ∃ left, readText (a :: b :: rest) = some (message, left) :=
      fun htext => htext.resolve_left fun hshort => absurd hshort.1 (by simp only [List.length_cons]; omega)
    rw [readText_two] at hlong
    simp only [decodeString]
    split
    · next hcut =>
      refine .inr ⟨⟨_, rfl⟩, fun message htext => ?_⟩
      obtain ⟨left, hread⟩ := hlong htext
      rw [if_pos hcut] at hread
      cases hread
    · next hwhole =>
      cases htext : String.fromUTF8? ⟨(rest.take (fromBe [a, b])).toArray⟩ with
      | some message =>
        refine .inl ⟨message, rfl, .inr ⟨rest.drop (fromBe [a, b]), ?_⟩⟩
        rw [readText_two, if_neg hwhole, htext]
        rfl
      | none =>
        refine .inr ⟨⟨_, rfl⟩, fun message hmessage => ?_⟩
        obtain ⟨left, hread⟩ := hlong hmessage
        rw [if_neg hwhole, htext] at hread
        cases hread

/-- A frame is a secret by its status alone. -/
theorem answer_eq_ok {utf8Error : Bytes → String} {status : UInt8} {payload secret : Bytes} :
    answer utf8Error status payload = .ok secret ↔ status = statusSecret ∧ payload = secret := by
  unfold answer
  constructor
  · intro h
    split at h
    · next hstatus => exact ⟨hstatus, Except.ok.inj h⟩
    · -- a text is read first, for an error
      have htext : ∀ kind : String → NativeError,
          (decodeString utf8Error payload >>= fun message => (.error (kind message) : Except NativeError Bytes)) ≠
            .ok secret := by
        intro kind hkind
        obtain ⟨message, -, hmessage⟩ := Checks.bind_eq_ok.1 hkind
        cases hmessage
      repeat' split at h
      · cases h
      · cases h
      · exact absurd h (htext .accessDenied)
      · exact absurd h (htext .daemon)
      · cases h
  · rintro ⟨rfl, rfl⟩
    rfl

/-- An error with a text, or without one that can be read. -/
theorem Documented.of_text {utf8Error : Bytes → String} {stream payload : Bytes} {status : UInt8} {error : NativeError}
    {kind : String → NativeError} (h : Begins stream status payload) (htexts : status ∈ [statusAccessDenied, statusError])
    (hkind : ∀ {message}, Message payload message → Documented stream (kind message))
    (herror : (decodeString utf8Error payload >>= fun message => (.error (kind message) : Except NativeError Bytes)) =
      .error error) : Documented stream error := by
  rcases decodeString_text utf8Error payload with ⟨message, hmessage, htext⟩ | ⟨⟨broken, hbroken⟩, htext⟩
  · rw [hmessage] at herror
    cases herror
    exact hkind htext
  · rw [hbroken] at herror
    cases herror
    exact .message h htexts htext

/-- Every other frame is a documented error. -/
theorem answer_documented {utf8Error : Bytes → String} {stream payload : Bytes} {status : UInt8} {error : NativeError}
    (h : Begins stream status payload) (herror : answer utf8Error status payload = .error error) :
    Documented stream error := by
  unfold answer at herror
  split at herror
  · cases herror
  · next hsecret =>
    split at herror
    · next hlocked =>
      cases herror
      exact .locked (hlocked ▸ h)
    · next hlocked =>
      split at herror
      · next hcancelled =>
        cases herror
        exact .cancelled (hcancelled ▸ h)
      · next hcancelled =>
        split at herror
        · next hdenied =>
          subst hdenied
          exact .of_text h (List.mem_cons_self ..) (.accessDenied h) herror
        · next hdenied =>
          split at herror
          · next hfailed =>
            subst hfailed
            exact .of_text h (List.mem_cons_of_mem _ (List.mem_cons_self ..)) (.daemon h) herror
          · next hfailed =>
            cases herror
            refine .unexpected h fun hknown => ?_
            simp only [List.mem_cons, List.not_mem_nil, or_false] at hknown
            rcases hknown with h | h | h | h | h
            · exact hsecret h
            · exact hlocked h
            · exact hcancelled h
            · exact hdenied h
            · exact hfailed h

/-! ## What a call comes to -/

/-- A socket on which the request goes out and the daemon sends this stream. -/
structure Sends (socket : Socket) (stream : Bytes) : Prop where
  steady : socket.writer.Steady
  calm : Calm socket.reader
  content : content socket.reader = stream

/-- When the request goes out, a call comes to what the response comes to. -/
theorem Sends.comes {socket : Socket} {stream built : Bytes} (h : Sends socket stream) {«namespace» subject purpose : String}
    (hbuilt : requestFrame «namespace» subject purpose = .ok built) (utf8Error : Bytes → String) :
    (getApplicationSecret utf8Error (.ok socket) «namespace» subject purpose).1 = (readResponse utf8Error socket.reader).1 := by
  obtain ⟨w, hwrite, hsteady⟩ := h.steady.writeAll built
  simp only [getApplicationSecret, Socket.exchange, hbuilt, hwrite, hsteady.2]

/-- A secret is a response's, whatever the socket does. -/
theorem getApplicationSecret_eq_ok {utf8Error : Bytes → String} {connected : Except Stream.Error Socket}
    {«namespace» subject purpose : String} {secret : Bytes}
    (h : (getApplicationSecret utf8Error connected «namespace» subject purpose).1 = .ok secret) :
    ∃ socket, connected = .ok socket ∧ (readResponse utf8Error socket.reader).1 = .ok secret := by
  cases connected with
  | error error => cases h
  | ok socket =>
    refine ⟨socket, rfl, ?_⟩
    have hends := exchange_ends utf8Error socket «namespace» subject purpose
    simp only [getApplicationSecret] at h
    generalize socket.exchange utf8Error «namespace» subject purpose = ended at h hends
    cases hends with
    | unbuilt hbuilt => cases h
    | unwritten hbuilt hwrite => cases h
    | unflushed hbuilt hwrite hflush => cases h
    | read hbuilt hwrite hflush => exact h

theorem readResponse_secret {utf8Error : Bytes → String} {r : Stream.Reader} {secret : Bytes}
    (h : (readResponse utf8Error r).1 = .ok secret) : Begins (content r) statusSecret secret := by
  rcases readResponse_frame utf8Error r with ⟨status, payload, hbegins, hanswer⟩ | ⟨⟨error, herror⟩, -⟩
  · rw [hanswer] at h
    obtain ⟨rfl, rfl⟩ := answer_eq_ok.1 h
    exact hbegins
  · rw [herror] at h
    cases h

/-- A secret frame comes to its payload, of whatever length it is. -/
theorem Sends.secret {socket : Socket} {stream built : Bytes} (h : Sends socket stream) {«namespace» subject purpose : String}
    (hbuilt : requestFrame «namespace» subject purpose = .ok built) {utf8Error : Bytes → String} {secret : Bytes} :
    (getApplicationSecret utf8Error (.ok socket) «namespace» subject purpose).1 = .ok secret ↔
      Begins stream statusSecret secret := by
  rw [h.comes hbuilt]
  constructor
  · intro hsecret
    exact h.content ▸ readResponse_secret hsecret
  · intro hsecret
    rw [← h.content] at hsecret
    rcases readResponse_frame utf8Error socket.reader with ⟨status, payload, hbegins, hanswer⟩ | ⟨-, hnone⟩
    · obtain ⟨rfl, rfl⟩ := hsecret.unique hbegins
      rw [hanswer]
      exact answer_eq_ok.2 ⟨rfl, rfl⟩
    · exact absurd hsecret (hnone h.calm _ _)

theorem Sends.error {socket : Socket} {stream built : Bytes} (h : Sends socket stream) {«namespace» subject purpose : String}
    (hbuilt : requestFrame «namespace» subject purpose = .ok built) {utf8Error : Bytes → String} {error : NativeError}
    (herror : (getApplicationSecret utf8Error (.ok socket) «namespace» subject purpose).1 = .error error) :
    Documented stream error := by
  rw [h.comes hbuilt] at herror
  rcases readResponse_frame utf8Error socket.reader with ⟨status, payload, hbegins, hanswer⟩ | ⟨⟨broken, hbroken⟩, hnone⟩
  · rw [hanswer] at herror
    exact answer_documented (h.content ▸ hbegins) herror
  · rw [hbroken] at herror
    cases herror
    exact .framing (h.content ▸ hnone h.calm)

/-- An answer of 0 comes after a secret frame, whose payload is in the descriptor. -/
theorem retrieveSecret_code {utf8Error : Bytes → String} {iface : SecretIface} {registered : Except String Unit}
    {handle appId : String} {fd : Descriptor} {response : Portal.PortalResponse}
    (hresponse : (iface.retrieveSecret utf8Error registered handle appId fd).1 = .ok response) (hcode : response.code = 0) :
    ∃ path socket secret, iface.connect path = .ok socket ∧ Begins (content socket.reader) statusSecret secret ∧
      (iface.retrieveSecret utf8Error registered handle appId fd).2.writer.written = fd.writer.written ++ secret := by
  cases registered with
  | error error => cases hresponse
  | ok registered =>
    have hzero : (iface.run utf8Error handle appId fd).1.code = 0 := by
      rw [← hcode]
      exact congrArg (·.code) (Except.ok.inj hresponse)
    obtain ⟨path, secret, hsecret, hwritten⟩ := SecretIface.run_code hzero
    obtain ⟨socket, hconnect, hread⟩ := getApplicationSecret_eq_ok hsecret
    exact ⟨path, socket, secret, hconnect, readResponse_secret hread, hwritten⟩

/-- A socket that sends a stream at once. -/
def atOnce (stream : Bytes) : Socket := ⟨[.data stream], ⟨[], [], .ok ()⟩⟩

theorem atOnce_sends {stream : Bytes} (h : stream ≠ []) : Sends (atOnce stream) stream := by
  obtain ⟨b, chunk, rfl⟩ := List.exists_cons_of_ne_nil h
  refine ⟨⟨fun a ha => (List.not_mem_nil ha).elim, rfl⟩, fun a ha => ?_, List.append_nil _⟩
  exact .inr ⟨b, chunk, List.mem_singleton.1 ha⟩

/-- Every request that is answered with this stream comes to what the stream says. -/
structure ParsesExactly (utf8Error : Bytes → String) (stream : Bytes) : Prop where
  secret : ∀ (socket : Socket) («namespace» subject purpose : String) (built secret : Bytes), Sends socket stream →
    requestFrame «namespace» subject purpose = .ok built →
    ((getApplicationSecret utf8Error (.ok socket) «namespace» subject purpose).1 = .ok secret ↔
      Begins stream statusSecret secret ∧ secret.length = 32)
  error : ∀ (socket : Socket) («namespace» subject purpose : String) (built : Bytes) (error : NativeError),
    Sends socket stream → requestFrame «namespace» subject purpose = .ok built →
    (getApplicationSecret utf8Error (.ok socket) «namespace» subject purpose).1 = .error error → Documented stream error
  /-- Whatever the daemon's socket and the descriptor do, an answer of 0 comes after the 32 bytes. -/
  retrieve : ∀ (iface : SecretIface) (registered : Except String Unit) (handle appId : String) (fd : Descriptor)
    (response : Portal.PortalResponse),
    (∀ path socket, iface.connect path = .ok socket → Stream.content socket.reader = stream) →
    (iface.retrieveSecret utf8Error registered handle appId fd).1 = .ok response → response.code = 0 →
    ∃ secret, Begins stream statusSecret secret ∧ secret.length = 32 ∧
      (iface.retrieveSecret utf8Error registered handle appId fd).2.writer.written = fd.writer.written ++ secret

theorem responses_exact (utf8Error : Bytes → String) (stream : Bytes) :
    ParsesExactly utf8Error stream ↔ ∀ secret, Begins stream statusSecret secret → secret.length = 32 := by
  constructor
  · intro h secret hbegins
    obtain ⟨built, hbuilt⟩ : ∃ built, requestFrame "" "" "" = .ok built := ⟨_, rfl⟩
    have hne : stream ≠ [] := by
      rintro rfl
      obtain ⟨rest, hrest⟩ := hbegins.2
      cases hrest
    have hsends := atOnce_sends hne
    exact ((h.secret _ _ _ _ _ secret hsends hbuilt).1 ((hsends.secret hbuilt).2 hbegins)).2
  · intro h
    refine ⟨fun socket a b c built secret hsends hbuilt => ?_, fun socket a b c built error hsends hbuilt herror => ?_, ?_⟩
    · rw [hsends.secret hbuilt]
      exact ⟨fun hbegins => ⟨hbegins, h secret hbegins⟩, fun hbegins => hbegins.1⟩
    · exact hsends.error hbuilt herror
    · intro iface registered handle appId fd response hstream hresponse hcode
      obtain ⟨path, socket, secret, hconnect, hbegins, hwritten⟩ := retrieveSecret_code hresponse hcode
      rw [hstream path socket hconnect] at hbegins
      exact ⟨secret, hbegins, h secret hbegins, hwritten⟩

/-- A secret frame without a payload. -/
def emptySecret : Bytes := wireMagic ++ [wireVersion, statusSecret, 0, 0]

def emptyServed : SecretIface := ⟨⟨∅, ∅⟩, some [47], fun _ => .ok (atOnce emptySecret)⟩

def pipe : Descriptor := ⟨.ok (), ⟨[], [], .ok ()⟩, .ok false, .ok ()⟩

/-- It is taken for a secret, and the caller gets an answer of 0 and an empty descriptor. -/
theorem empty_secret_served : emptyServed.getApplicationSecret (fun _ => "") [47] "org.example.App" = .ok [] ∧
    (emptyServed.retrieveSecret (fun _ => "") (.ok ()) "/request/1" "org.example.App" pipe).1 = .ok ⟨0, []⟩ ∧
    (emptyServed.retrieveSecret (fun _ => "") (.ok ()) "/request/1" "org.example.App" pipe).2.writer.written = [] ∧
    ¬ ParsesExactly (fun _ => "") emptySecret := by
  refine ⟨rfl, rfl, rfl, fun h => ?_⟩
  have hsends : Sends (atOnce emptySecret) emptySecret := atOnce_sends (List.cons_ne_nil _ _)
  exact absurd ((h.secret _ "" "" "" _ [] hsends rfl).1 rfl).2 (by decide)

end AtriumPortal.Secret
