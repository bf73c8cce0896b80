import AtriumPortal.Prompter.NotifyFrames
/-!
# Events of the notification stream

`notify.rs`: the event envelope, one JSON line each. `decode_event`: the line of an event is
read back exactly when the event passes its checks, and a valid event's line always fits.
-/
open AtriumPortal.Lib AtriumPortal.Lib.Checks AtriumPortal.Lib.JsonText
open AtriumPortal.Lib.Path (Bytes)

namespace AtriumPortal.Prompter

structure EventFrame where
  v : UInt32
  event : NotifyEvent
  deriving DecidableEq, Repr

def EventFrame.new (event : NotifyEvent) : EventFrame := ⟨notifyStreamVersion, event⟩

namespace NotifyEvents

open NotifyFrames (writeKey readKey readKey_write size_writeKey)

/-- An event, tagged with its kind. -/
def writeEvent : NotifyEvent → List Char
  | .actionInvoked key action =>
    text "\x7b\"kind\":\"" ++ quoted "action_invoked" ++ writeKey key ++ text ",\"action\":\"" ++ quoted action ++ ['}']
  | .closed key => text "\x7b\"kind\":\"" ++ quoted "closed" ++ writeKey key ++ ['}']

def write (frame : EventFrame) : List Char :=
  text "\x7b\"v\":" ++ Nat.toDigits 10 frame.v.toNat ++ ',' :: text "\"event\":" ++ writeEvent frame.event ++ ['}']

def toVec (frame : EventFrame) : Bytes := Path.bytes (String.ofList (write frame))

def readEvent : Reader NotifyEvent := fun input => do
  let rest ← skip (text "\x7b\"kind\":\"") input
  let (kind, rest) ← readString rest
  let (key, rest) ← readKey rest
  if kind = "action_invoked" then
    let rest ← skip (text ",\"action\":\"") rest
    let (action, rest) ← readString rest
    return (.actionInvoked key action, ← skip ['}'] rest)
  else if kind = "closed" then return (.closed key, ← skip ['}'] rest)
  else none

/-- A frame, with the newline behind it. -/
def read (input : List Char) : Option EventFrame := do
  let rest ← skip (text "\x7b\"v\":") input
  let (v, rest) ← readBelow (2 ^ 32) rest
  let rest ← skip (',' :: text "\"event\":") rest
  let (event, rest) ← readEvent rest
  let rest ← skip ['}'] rest
  if rest = ['\n'] then some ⟨.ofNat v, event⟩ else none

/-- `serde_json` on the lines the daemon writes. -/
def fromSlice (line : Bytes) : Except String EventFrame :=
  match (String.fromUTF8? ⟨line.toArray⟩).bind fun text => read text.toList with
  | some frame => .ok frame
  | none => .error "no frame"

/-! ## The round trip -/

theorem readEvent_write (event : NotifyEvent) (rest : List Char) :
    readEvent (writeEvent event ++ rest) = some (event, rest) := by
  have hclosed : ¬ "closed" = "action_invoked" := by decide
  cases event with
  | actionInvoked key action =>
    simp only [readEvent, writeEvent, List.append_assoc, List.singleton_append, skip_append, skip_singleton,
      readString_quoted, readKey_write, if_true, Option.bind_eq_bind, Option.bind_some, Option.pure_def]
  | closed key =>
    simp only [readEvent, writeEvent, List.append_assoc, List.singleton_append, skip_append, skip_singleton,
      readString_quoted, readKey_write, if_true, if_false, hclosed, Option.bind_eq_bind, Option.bind_some,
      Option.pure_def]

theorem read_write (frame : EventFrame) : read (write frame ++ ['\n']) = some frame := by
  have hcomma : ','.isDigit = false := by decide
  simp only [read, write, List.append_assoc, List.cons_append, skip_append, skip_cons_append, skip_singleton,
    readBelow_toDigits frame.v.toNat_lt hcomma, readEvent_write, List.nil_append, if_true, Option.bind_eq_bind,
    Option.bind_some, UInt32.ofNat_toNat]

/-- `serde_json` reads what it wrote, also with the newline behind it. -/
def Inverts (fromSlice : Bytes → Except String EventFrame) : Prop :=
  ∀ frame : EventFrame, fromSlice (toVec frame ++ [newline]) = .ok frame

theorem fromSlice_inverts : Inverts fromSlice := by
  intro frame
  have htext : ∀ s : String, String.fromUTF8? s.toByteArray = some s := fun s => by
    simp [String.fromUTF8?, String.isValidUTF8, String.fromUTF8]
  have hnewline : toVec frame ++ [newline] = Path.bytes (String.ofList (write frame ++ ['\n'])) := by
    rw [toVec, Path.bytes_eq, Path.bytes_eq, String.toList_ofList, String.toList_ofList, List.flatMap_append]
    rfl
  have hline : (⟨(toVec frame ++ [newline]).toArray⟩ : ByteArray) = (String.ofList (write frame ++ ['\n'])).toByteArray := by
    rw [hnewline]
    rfl
  rw [fromSlice, hline, htext, Option.bind_some, String.toList_ofList, read_write]

/-! ## One line, that fits -/

theorem newline_write (frame : EventFrame) : '\n' ∉ write frame := by
  cases hevent : frame.event with
  | actionInvoked key action => simp [write, hevent, writeEvent, writeKey]
  | closed key => simp [write, hevent, writeEvent, writeKey]

theorem newline_toVec (frame : EventFrame) : newline ∉ toVec frame := fun h =>
  newline_write frame (Text.ascii_mem_bytes (by decide) h)

theorem size_writeEvent {event : NotifyEvent} (h : event.check = .ok ()) :
    Text.size (writeEvent event) ≤ 6 * (maxAppIdBytes + maxNotificationIdBytes + maxActionBytes) + 100 := by
  have hfixed : "\x7b\"kind\":\"".utf8ByteSize = 9 ∧ ",\"action\":\"".utf8ByteSize = 11 ∧ Text.size ['}'] = 1 ∧
      Text.size (quoted "action_invoked") = 15 ∧ Text.size (quoted "closed") = 7 := by
    decide +kernel
  obtain ⟨h1, h2, h3, h4, h5⟩ := hfixed
  cases event with
  | actionInvoked key action =>
    obtain ⟨haction, hkey⟩ := andThen_eq_ok.1 h
    have hk := size_writeKey hkey
    have ha := (bounded_eq_ok.1 haction).2.1
    have hq := size_quoted action
    simp only [writeEvent, Text.size_append, size_text, h1, h2, h3, h4]
    omega
  | closed key =>
    have hk := size_writeKey h
    simp only [writeEvent, Text.size_append, size_text, h1, h3, h5]
    omega

theorem length_line {event : NotifyEvent} (h : event.check = .ok ()) :
    (toVec (.new event) ++ [newline]).length ≤ maxNotifyLineBytes := by
  have hevent := size_writeEvent h
  have hfixed : "\x7b\"v\":".utf8ByteSize = 5 ∧ "\"event\":".utf8ByteSize = 8 ∧ Text.size ['}'] = 1 ∧ ','.utf8Size = 1 ∧
      Text.size (Nat.toDigits 10 notifyStreamVersion.toNat) = 1 := by
    decide +kernel
  obtain ⟨h1, h2, h3, h4, h5⟩ := hfixed
  rw [List.length_append, toVec, Text.length_bytes, Text.utf8ByteSize_ofList]
  simp only [write, EventFrame.new, Text.size_cons, Text.size_append, size_text, h1, h2, h3, h4, h5]
  simp only [maxAppIdBytes, maxNotificationIdBytes, maxActionBytes] at hevent
  unfold maxNotifyLineBytes
  rw [List.length_singleton]
  omega

end NotifyEvents

open NotifyEvents

/-! ## Encoding and decoding -/

/-- One line, with the newline behind it. -/
def EventFrame.encode (frame : EventFrame) : Except String Bytes := .ok (toVec frame ++ [newline])

/-- Decode and validate one line. -/
def EventFrame.decode (fromSlice : Bytes → Except String EventFrame) (line : Bytes) : Except String EventFrame :=
  if line = [] ∨ maxNotifyLineBytes < line.length then .error "event line is empty or oversized"
  else
    match fromSlice line with
    | .error error => .error s!"invalid event JSON: {error}"
    | .ok frame =>
      if frame.v ≠ notifyStreamVersion then
        .error s!"unsupported notification stream version {frame.v}; expected {notifyStreamVersion}"
      else do
        frame.event.check
        return frame

end AtriumPortal.Prompter
