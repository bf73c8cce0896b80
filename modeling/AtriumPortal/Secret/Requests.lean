import AtriumPortal.Lib.Checks
import AtriumPortal.Lib.Text
import AtriumPortal.Secret.Native
/-!
# Request frames

`requests_apart`: a call writes nothing or one frame, the layout decodes the frame to what was
asked for, and no two requests have the same frame.
-/
open AtriumPortal.Lib
open AtriumPortal.Lib.Path (Bytes bytes)
open AtriumPortal.Lib.Fields

namespace AtriumPortal.Secret

variable {«namespace» subject purpose : String}

/-! ## The documented layout -/

/-- A frame: the header with an opcode or a status, and the payload behind its length. -/
def frame (kind : UInt8) (payload : Bytes) : Bytes := wireMagic ++ [wireVersion, kind] ++ field 2 payload

def readFrame (kind : UInt8) (stream : Bytes) : Option (Bytes × Bytes) :=
  if stream.take 6 = wireMagic ++ [wireVersion, kind] then readField 2 (stream.drop 6) else none

def readText (payload : Bytes) : Option (String × Bytes) := do
  let (text, rest) ← readField 2 payload
  let text ← String.fromUTF8? ⟨text.toArray⟩
  return (text, rest)

/-- A request frame and nothing behind it, as a namespace, a subject and a purpose. -/
def decodeRequest (stream : Bytes) : Option (String × String × String) := do
  let (payload, behind) ← readFrame opGetApplicationSecret stream
  let (a, payload) ← readText payload
  let (b, payload) ← readText payload
  let (c, payload) ← readText payload
  if payload = [] ∧ behind = [] then some (a, b, c) else none

theorem length_frame (kind : UInt8) (payload : Bytes) : (frame kind payload).length = headerLen + payload.length := by
  rw [frame, field, ← List.append_assoc, List.length_append, List.length_append, length_toBe]
  rfl

theorem readFrame_frame {payload : Bytes} (h : payload.length < 256 ^ 2) (kind : UInt8) (rest : Bytes) :
    readFrame kind (frame kind payload ++ rest) = some (payload, rest) := by
  have hsix : (wireMagic ++ [wireVersion, kind]).length = 6 := rfl
  rw [readFrame, frame, List.append_assoc, List.take_left' hsix, List.drop_left' hsix, if_pos rfl]
  exact readField_field h rest

theorem readFrame_eq_some {kind : UInt8} {stream payload rest : Bytes} :
    readFrame kind stream = some (payload, rest) ↔ stream = frame kind payload ++ rest ∧ payload.length < 256 ^ 2 := by
  constructor
  · intro h
    unfold readFrame at h
    split at h
    · next hhead =>
      obtain ⟨hfield, hlt⟩ := readField_eq_some.1 h
      refine ⟨?_, hlt⟩
      rw [← List.take_append_drop 6 stream, hhead, hfield, frame, ← List.append_assoc]
    · cases h
  · rintro ⟨rfl, hlt⟩
    exact readFrame_frame hlt kind rest

theorem readText_field {s : String} (h : (bytes s).length < 256 ^ 2) (rest : Bytes) :
    readText (field 2 (bytes s) ++ rest) = some (s, rest) := by
  simp only [readText, readField_field h, Option.bind_eq_bind, Option.bind_some, Text.fromUTF8?_eq_some.2 rfl]
  rfl

/-! ## What is encoded -/

theorem appendStr_eq_ok {out out' : Bytes} {s : String} :
    appendStr out s = .ok out' ↔ (bytes s).length < 256 ^ 2 ∧ out' = out ++ field 2 (bytes s) := by
  unfold appendStr
  constructor
  · intro h
    split at h
    · cases h
    · next hle =>
      cases h
      have hlt : (bytes s).length < 256 ^ 2 := by omega
      rw [Nat.mod_eq_of_lt (show _ < 2 ^ 16 from hlt), List.append_assoc]
      exact ⟨hlt, rfl⟩
  · rintro ⟨hlt, rfl⟩
    rw [if_neg (by omega), Nat.mod_eq_of_lt (show _ < 2 ^ 16 from hlt), List.append_assoc]
    rfl

/-- What was built is a frame with the three texts. -/
theorem requestFrame_eq_ok {built : Bytes} (h : requestFrame «namespace» subject purpose = .ok built) :
    ∃ payload, payload.length < 256 ^ 2 ∧ built = frame opGetApplicationSecret payload ∧
      payload = field 2 (bytes «namespace») ++ (field 2 (bytes subject) ++ field 2 (bytes purpose)) ∧
      (bytes «namespace»).length < 256 ^ 2 ∧ (bytes subject).length < 256 ^ 2 ∧ (bytes purpose).length < 256 ^ 2 := by
  obtain ⟨payload, h₁, h⟩ := Checks.bind_eq_ok.1 h
  obtain ⟨payload, h₂, h⟩ := Checks.bind_eq_ok.1 h
  obtain ⟨payload, h₃, h⟩ := Checks.bind_eq_ok.1 h
  obtain ⟨hspace, rfl⟩ := appendStr_eq_ok.1 h₁
  obtain ⟨hsubject, rfl⟩ := appendStr_eq_ok.1 h₂
  obtain ⟨hpurpose, rfl⟩ := appendStr_eq_ok.1 h₃
  split at h
  · cases h
  · next hle =>
    cases h
    generalize hpayload : [] ++ field 2 (bytes «namespace») ++ field 2 (bytes subject) ++ field 2 (bytes purpose) = payload
      at hle ⊢
    have hlt : payload.length < 256 ^ 2 := Nat.lt_of_le_of_lt (Nat.not_lt.1 hle) (by decide)
    refine ⟨payload, hlt, ?_, ?_, hspace, hsubject, hpurpose⟩
    · rw [Nat.mod_eq_of_lt (show _ < 2 ^ 16 from hlt), frame, field, List.append_assoc]
    · rw [← hpayload, List.nil_append, List.append_assoc]

/-- The layout reads a frame that was built as what was asked for. -/
theorem decodeRequest_requestFrame {built : Bytes} (h : requestFrame «namespace» subject purpose = .ok built) :
    decodeRequest built = some («namespace», subject, purpose) := by
  obtain ⟨payload, hlt, rfl, rfl, hspace, hsubject, hpurpose⟩ := requestFrame_eq_ok h
  have hframe := readFrame_frame hlt opGetApplicationSecret []
  have hlast := readText_field hpurpose []
  rw [List.append_nil] at hframe hlast
  simp only [decodeRequest, hframe, readText_field hspace, readText_field hsubject, hlast, Option.bind_eq_bind,
    Option.bind_some, and_self, if_true]

/-- No proper start of a request frame is one. -/
theorem decodeRequest_start {sent more : Bytes} {t t' : String × String × String} (h : decodeRequest (sent ++ more) = some t)
    (h' : decodeRequest sent = some t') : more = [] := by
  have hread : ∀ {stream t}, decodeRequest stream = some t →
      ∃ payload, readFrame opGetApplicationSecret stream = some (payload, []) := by
    intro stream t h
    obtain ⟨⟨payload, behind⟩, hframe, h⟩ := Option.bind_eq_some_iff.1 h
    obtain ⟨⟨a, p₁⟩, -, h⟩ := Option.bind_eq_some_iff.1 h
    obtain ⟨⟨b, p₂⟩, -, h⟩ := Option.bind_eq_some_iff.1 h
    obtain ⟨⟨c, p₃⟩, -, h⟩ := Option.bind_eq_some_iff.1 h
    dsimp only at h
    split at h
    · next hends => exact ⟨payload, by rw [hframe, hends.2]⟩
    · cases h
  obtain ⟨payload, hwhole⟩ := hread h
  obtain ⟨payload', hsent⟩ := hread h'
  obtain ⟨hsent, hlt⟩ := readFrame_eq_some.1 hsent
  rw [List.append_nil] at hsent
  rw [hsent, readFrame_frame hlt] at hwhole
  cases hwhole
  rfl

/-- What lacks some of a request frame is not one. -/
theorem decodeRequest_cut {sent all : Bytes} {t : String × String × String} (h : decodeRequest all = some t)
    (hstart : sent <+: all) (hne : sent ≠ all) : decodeRequest sent = none := by
  obtain ⟨more, rfl⟩ := hstart
  cases hsent : decodeRequest sent with
  | none => rfl
  | some t' =>
    have hmore := decodeRequest_start h hsent
    exact absurd (by rw [hmore, List.append_nil]) hne

/-! ## How a call ends -/

/-- The ways an exchange ends, with the socket as it is left. -/
inductive Ends (utf8Error : Bytes → String) (socket : Socket) (built : Except NativeError Bytes) :
    Except NativeError Bytes × Socket → Prop where
  | unbuilt {error : NativeError} (hbuilt : built = .error error) : Ends utf8Error socket built (.error error, socket)
  | unwritten {all : Bytes} {error : Stream.Error} {w : Stream.Writer} (hbuilt : built = .ok all)
      (hwrite : socket.writer.writeAll all = (.error error, w)) :
      Ends utf8Error socket built (.error (.io (.socket error)), { socket with writer := w })
  | unflushed {all : Bytes} {error : Stream.Error} {w : Stream.Writer} (hbuilt : built = .ok all)
      (hwrite : socket.writer.writeAll all = (.ok (), w)) (hflush : w.flushed = .error error) :
      Ends utf8Error socket built (.error (.io (.socket error)), { socket with writer := w })
  | read {all : Bytes} {w : Stream.Writer} (hbuilt : built = .ok all)
      (hwrite : socket.writer.writeAll all = (.ok (), w)) (hflush : w.flushed = .ok ()) :
      Ends utf8Error socket built
        ((readResponse utf8Error socket.reader).1, ⟨(readResponse utf8Error socket.reader).2, w⟩)

theorem exchange_ends (utf8Error : Bytes → String) (socket : Socket) («namespace» subject purpose : String) :
    Ends utf8Error socket (requestFrame «namespace» subject purpose)
      (socket.exchange utf8Error «namespace» subject purpose) := by
  unfold Socket.exchange
  cases hbuilt : requestFrame «namespace» subject purpose with
  | error error => exact .unbuilt rfl
  | ok all =>
    rcases hwrite : socket.writer.writeAll all with ⟨_ | _, w⟩
    · simp only [hwrite]
      exact .unwritten rfl hwrite
    · cases hflush : w.flushed with
      | error error =>
        simp only [hwrite, hflush]
        exact .unflushed rfl hwrite hflush
      | ok flushed =>
        simp only [hwrite, hflush]
        exact .read rfl hwrite hflush

/-- What the encoding of requests promises. -/
structure RequestsApart (utf8Error : Bytes → String) : Prop where
  /-- A call fails with nothing written, or writes one frame; or the socket fails in the middle,
  and then the call fails and what the socket took is no frame. -/
  written : ∀ (socket : Socket) («namespace» subject purpose : String), ∃ left sent,
    (getApplicationSecret utf8Error (.ok socket) «namespace» subject purpose).2 = some left ∧
      left.writer.written = socket.writer.written ++ sent ∧
      ((∃ error, (getApplicationSecret utf8Error (.ok socket) «namespace» subject purpose).1 = .error error) ∧ sent = [] ∨
        decodeRequest sent = some («namespace», subject, purpose) ∨
        ∃ all error, requestFrame «namespace» subject purpose = .ok all ∧
          (socket.writer.writeAll all).1 = .error error ∧
          (getApplicationSecret utf8Error (.ok socket) «namespace» subject purpose).1 = .error (.io (.socket error)) ∧
          sent <+: all ∧ decodeRequest sent = none)
  /-- Without a connection there is nothing to write on. -/
  unconnected : ∀ (error : Stream.Error) («namespace» subject purpose : String),
    getApplicationSecret utf8Error (.error error) «namespace» subject purpose = (.error (.io (.socket error)), none)
  /-- Different requests have different frames. -/
  apart : ∀ (a b c a' b' c' : String) (built : Bytes), requestFrame a b c = .ok built → requestFrame a' b' c' = .ok built →
    (a, b, c) = (a', b', c')

theorem requests_apart (utf8Error : Bytes → String) : RequestsApart utf8Error where
  written socket a b c := by
    have hends := exchange_ends utf8Error socket a b c
    simp only [getApplicationSecret]
    generalize socket.exchange utf8Error a b c = ended at hends
    cases hends with
    | unbuilt hbuilt => exact ⟨_, [], rfl, (List.append_nil _).symm, .inl ⟨⟨_, rfl⟩, rfl⟩⟩
    | @unwritten all error w hbuilt hwrite =>
      have htaken : w.written = socket.writer.written ++ (Stream.writeLoop all socket.writer.answers).2.1 :=
        congrArg (·.2.written) hwrite.symm
      have hstart := Stream.writeLoop_prefix all socket.writer.answers
      refine ⟨_, _, rfl, htaken, .inr ?_⟩
      -- the error may have come behind the last byte
      by_cases hall : (Stream.writeLoop all socket.writer.answers).2.1 = all
      · rw [hall]
        exact .inl (decodeRequest_requestFrame hbuilt)
      · have hcut := decodeRequest_cut (decodeRequest_requestFrame hbuilt) hstart hall
        exact .inr ⟨all, error, hbuilt, congrArg Prod.fst hwrite, rfl, hstart, hcut⟩
    | @unflushed all error w hbuilt hwrite hflush =>
      have hwritten := (Stream.Writer.writeAll_written hwrite).1
      exact ⟨_, all, rfl, hwritten, .inr (.inl (decodeRequest_requestFrame hbuilt))⟩
    | @read all w hbuilt hwrite hflush =>
      have hwritten := (Stream.Writer.writeAll_written hwrite).1
      exact ⟨_, all, rfl, hwritten, .inr (.inl (decodeRequest_requestFrame hbuilt))⟩
  unconnected _ _ _ _ := rfl
  apart a b c a' b' c' built h h' := by
    have hdecode := decodeRequest_requestFrame h
    rw [decodeRequest_requestFrame h'] at hdecode
    exact (Option.some.inj hdecode).symm

/-- A socket that takes three bytes and then breaks has a start of a frame. -/
theorem request_cut_short : ¬ ∀ (socket : Socket) («namespace» subject purpose : String), ∃ left sent,
    (getApplicationSecret (fun _ => "") (.ok socket) «namespace» subject purpose).2 = some left ∧
      left.writer.written = socket.writer.written ++ sent ∧
      ((∃ error, (getApplicationSecret (fun _ => "") (.ok socket) «namespace» subject purpose).1 = .error error) ∧
          sent = [] ∨
        decodeRequest sent = some («namespace», subject, purpose)) := by
  intro h
  obtain ⟨left, sent, hleft, hwritten, hend⟩ :=
    h ⟨[], ⟨[], [.takes 3, .failed (.other 32)], .ok ()⟩⟩ "atrium.portal.Secret/v1" "org.example.App" "master-secret"
  obtain rfl := Option.some.inj hleft
  obtain rfl : [83, 73, 71] = sent := hwritten
  rcases hend with ⟨-, hnone⟩ | hframe
  · cases hnone
  · cases hframe

end AtriumPortal.Secret
