import AtriumPortal.Lib.JsonText
import AtriumPortal.Prompter.Notify
import AtriumPortal.Prompter.NotifyLines
/-!
# Frames of the notification stream

`notify.rs`: the command envelope, one JSON line each, as `serde_json` derives it.
`decode_encode`: a frame whose line fits is read back exactly when its content passes
the checks. Reading JSON is a parameter of which only `Inverts` is used; `fromSlice`
reads what `toVec` writes and shows that the assumption can be met.
-/
open AtriumPortal.Lib AtriumPortal.Lib.Checks AtriumPortal.Lib.JsonText
open AtriumPortal.Lib.Path (Bytes)

namespace AtriumPortal.Prompter

def notifyStreamVersion : UInt32 := 2

structure CommandFrame where
  v : UInt32
  cmd : NotifyCommand
  deriving DecidableEq, Repr

def CommandFrame.new (cmd : NotifyCommand) : CommandFrame := ⟨notifyStreamVersion, cmd⟩

namespace NotifyFrames

/-! ## Writing -/

def priorityName : Priority → String
  | .low => "low"
  | .normal => "normal"
  | .high => "high"
  | .urgent => "urgent"

def colorSchemeName : PromptColorScheme → String
  | .system => "system"
  | .dark => "dark"
  | .light => "light"

def writeString (s : String) : List Char := '"' :: quoted s

def writeButton (b : NotifyButton) : List Char :=
  '{' :: text "\"action\":\"" ++ quoted b.action ++ text ",\"label\":\"" ++ quoted b.label ++ ['}']

def writeAccent (a : PromptAccent) : List Char :=
  '{' :: text "\"red\":" ++ Nat.toDigits 10 a.red.toNat ++ ',' :: text "\"green\":" ++ Nat.toDigits 10 a.green.toNat ++
    ',' :: text "\"blue\":" ++ Nat.toDigits 10 a.blue.toNat ++ ['}']

def writeAppearance (a : PromptAppearance) : List Char :=
  text "\x7b\"color_scheme\":\"" ++ quoted (colorSchemeName a.colorScheme) ++ text ",\"accent_color\":" ++
    writeOption writeAccent a.accentColor ++ text ",\"high_contrast\":" ++ writeBool a.highContrast ++
    text ",\"reduced_motion\":" ++ writeBool a.reducedMotion ++ ['}']

def writeKey (key : CardKey) : List Char :=
  text ",\"app_id\":\"" ++ quoted key.1 ++ text ",\"id\":\"" ++ quoted key.2

/-- The fields of a notification, behind its key. -/
def writeContent (n : Notification) : List Char :=
  text ",\"title\":\"" ++ quoted n.title ++ text ",\"body\":\"" ++ quoted n.body ++ text ",\"priority\":\"" ++
    quoted (priorityName n.priority) ++ text ",\"default_action\":" ++ writeOption writeString n.defaultAction ++
    text ",\"buttons\":[" ++ writeList writeButton n.buttons ++ text ",\"expire_hint\":" ++
    writeOption (Nat.toDigits 10) n.expireHint

/-- A command, tagged with its kind. -/
def writeCommand : NotifyCommand → List Char
  | .notify n => text "\x7b\"kind\":\"" ++ quoted "notify" ++ writeKey n.key ++ writeContent n ++ ['}']
  | .close key => text "\x7b\"kind\":\"" ++ quoted "close" ++ writeKey key ++ ['}']
  | .setAppearance a =>
    text "\x7b\"kind\":\"" ++ quoted "set_appearance" ++ text ",\"appearance\":" ++ writeAppearance a ++ ['}']
  | .shutdown => text "\x7b\"kind\":\"" ++ quoted "shutdown" ++ ['}']

def write (frame : CommandFrame) : List Char :=
  text "\x7b\"v\":" ++ Nat.toDigits 10 frame.v.toNat ++ ',' :: text "\"cmd\":" ++ writeCommand frame.cmd ++ ['}']

def toVec (frame : CommandFrame) : Bytes := Path.bytes (String.ofList (write frame))

/-! ## Reading -/

def readPriority : Reader Priority := fun input => do
  let (name, rest) ← readString input
  match [Priority.low, .normal, .high, .urgent].find? (priorityName · = name) with
  | some priority => some (priority, rest)
  | none => none

def readColorScheme : Reader PromptColorScheme := fun input => do
  let (name, rest) ← readString input
  match [PromptColorScheme.system, .dark, .light].find? (colorSchemeName · = name) with
  | some scheme => some (scheme, rest)
  | none => none

def readQuotedString : Reader String := fun input => do
  let rest ← skip ['"'] input
  readString rest

def readButton : Reader NotifyButton := fun input => do
  let rest ← skip ('{' :: text "\"action\":\"") input
  let (action, rest) ← readString rest
  let rest ← skip (text ",\"label\":\"") rest
  let (label, rest) ← readString rest
  return (⟨action, label⟩, ← skip ['}'] rest)

def readByte : Reader UInt8 := fun input => (readBelow (2 ^ 8) input).map fun (n, rest) => (.ofNat n, rest)

def readAccent : Reader PromptAccent := fun input => do
  let rest ← skip ('{' :: text "\"red\":") input
  let (red, rest) ← readByte rest
  let rest ← skip (',' :: text "\"green\":") rest
  let (green, rest) ← readByte rest
  let rest ← skip (',' :: text "\"blue\":") rest
  let (blue, rest) ← readByte rest
  return (⟨red, green, blue⟩, ← skip ['}'] rest)

def readAppearance : Reader PromptAppearance := fun input => do
  let rest ← skip (text "\x7b\"color_scheme\":\"") input
  let (scheme, rest) ← readColorScheme rest
  let rest ← skip (text ",\"accent_color\":") rest
  let (accent, rest) ← readOption readAccent rest
  let rest ← skip (text ",\"high_contrast\":") rest
  let (contrast, rest) ← readBool rest
  let rest ← skip (text ",\"reduced_motion\":") rest
  let (motion, rest) ← readBool rest
  return (⟨scheme, accent, contrast, motion⟩, ← skip ['}'] rest)

def readKey : Reader CardKey := fun input => do
  let rest ← skip (text ",\"app_id\":\"") input
  let (appId, rest) ← readString rest
  let rest ← skip (text ",\"id\":\"") rest
  let (id, rest) ← readString rest
  return ((appId, id), rest)

def readContent (key : CardKey) : Reader Notification := fun input => do
  let rest ← skip (text ",\"title\":\"") input
  let (title, rest) ← readString rest
  let rest ← skip (text ",\"body\":\"") rest
  let (body, rest) ← readString rest
  let rest ← skip (text ",\"priority\":\"") rest
  let (priority, rest) ← readPriority rest
  let rest ← skip (text ",\"default_action\":") rest
  let (defaultAction, rest) ← readOption readQuotedString rest
  let rest ← skip (text ",\"buttons\":[") rest
  let (buttons, rest) ← readList readButton rest
  let rest ← skip (text ",\"expire_hint\":") rest
  let (expireHint, rest) ← readOption (readBelow (2 ^ 64)) rest
  return (⟨key.1, key.2, title, body, priority, defaultAction, buttons, expireHint⟩, rest)

def readCommand : Reader NotifyCommand := fun input => do
  let rest ← skip (text "\x7b\"kind\":\"") input
  let (kind, rest) ← readString rest
  if kind = "notify" then
    let (key, rest) ← readKey rest
    let (n, rest) ← readContent key rest
    return (.notify n, ← skip ['}'] rest)
  else if kind = "close" then
    let (key, rest) ← readKey rest
    return (.close key, ← skip ['}'] rest)
  else if kind = "set_appearance" then
    let rest ← skip (text ",\"appearance\":") rest
    let (a, rest) ← readAppearance rest
    return (.setAppearance a, ← skip ['}'] rest)
  else if kind = "shutdown" then return (.shutdown, ← skip ['}'] rest)
  else none

/-- A frame, with the newline behind it. -/
def read (input : List Char) : Option CommandFrame := do
  let rest ← skip (text "\x7b\"v\":") input
  let (v, rest) ← readBelow (2 ^ 32) rest
  let rest ← skip (',' :: text "\"cmd\":") rest
  let (cmd, rest) ← readCommand rest
  let rest ← skip ['}'] rest
  if rest = ['\n'] then some ⟨.ofNat v, cmd⟩ else none

/-- `serde_json` on the lines this program writes. -/
def fromSlice (line : Bytes) : Except String CommandFrame :=
  match (String.fromUTF8? ⟨line.toArray⟩).bind fun text => read text.toList with
  | some frame => .ok frame
  | none => .error "no frame"

/-! ## The round trip -/

theorem readPriority_write (priority : Priority) (rest : List Char) :
    readPriority (quoted (priorityName priority) ++ rest) = some (priority, rest) := by
  unfold readPriority
  rw [readString_quoted]
  cases priority <;> rfl

theorem readColorScheme_write (scheme : PromptColorScheme) (rest : List Char) :
    readColorScheme (quoted (colorSchemeName scheme) ++ rest) = some (scheme, rest) := by
  unfold readColorScheme
  rw [readString_quoted]
  cases scheme <;> rfl

theorem readQuotedString_write (s : String) (rest : List Char) :
    readQuotedString (writeString s ++ rest) = some (s, rest) := by
  simp only [readQuotedString, writeString, List.cons_append, skip_singleton, readString_quoted, Option.bind_eq_bind,
    Option.bind_some]

theorem readButton_write (b : NotifyButton) (rest : List Char) : readButton (writeButton b ++ rest) = some (b, rest) := by
  simp only [readButton, writeButton, List.append_assoc, List.cons_append, List.nil_append, skip_append, skip_cons_append,
    skip_singleton, readString_quoted, Option.bind_eq_bind, Option.bind_some, Option.pure_def]

theorem readByte_toDigits (b : UInt8) {c : Char} (hc : c.isDigit = false) (rest : List Char) :
    readByte (Nat.toDigits 10 b.toNat ++ c :: rest) = some (b, c :: rest) := by
  rw [readByte, readBelow_toDigits b.toNat_lt hc, Option.map_some]
  simp only [UInt8.ofNat_toNat]

theorem readAccent_write (a : PromptAccent) (rest : List Char) : readAccent (writeAccent a ++ rest) = some (a, rest) := by
  have hcomma : ','.isDigit = false := by decide
  have hbrace : '}'.isDigit = false := by decide
  simp only [readAccent, writeAccent, List.append_assoc, List.cons_append, List.nil_append, skip_cons_append,
    skip_singleton, readByte_toDigits _ hcomma, readByte_toDigits _ hbrace, Option.bind_eq_bind, Option.bind_some,
    Option.pure_def]

theorem readAppearance_write (a : PromptAppearance) (rest : List Char) :
    readAppearance (writeAppearance a ++ rest) = some (a, rest) := by
  have haccent : ∀ rest, readOption readAccent (writeOption writeAccent a.accentColor ++ rest) = some (a.accentColor, rest) :=
    fun rest => readOption_write (fun accent _ => readAccent_write accent rest) (fun _ _ => by simp [writeAccent])
  simp only [readAppearance, writeAppearance, List.append_assoc, skip_append, readColorScheme_write, haccent, readBool_write,
    List.singleton_append, skip_singleton, Option.bind_eq_bind, Option.bind_some, Option.pure_def]

theorem readKey_write (key : CardKey) (rest : List Char) : readKey (writeKey key ++ rest) = some (key, rest) := by
  simp only [readKey, writeKey, List.append_assoc, skip_append, readString_quoted, Option.bind_eq_bind, Option.bind_some,
    Option.pure_def]

/-- The time a card stays fits the type of its field. -/
def Representable : NotifyCommand → Prop
  | .notify n => ∀ seconds, n.expireHint = some seconds → seconds < 2 ^ 64
  | _ => True

theorem readContent_write {n : Notification} (h : Representable (.notify n)) (rest : List Char) :
    readContent n.key (writeContent n ++ '}' :: rest) = some (n, '}' :: rest) := by
  have haction : ∀ rest, readOption readQuotedString (writeOption writeString n.defaultAction ++ rest) =
      some (n.defaultAction, rest) :=
    fun rest => readOption_write (fun s _ => readQuotedString_write s rest) (fun _ _ => by simp [writeString])
  have hbuttons : ∀ rest, readList readButton (writeList writeButton n.buttons ++ rest) = some (n.buttons, rest) :=
    readList_write (fun b _ => readButton_write b) (fun _ _ _ => by simp [writeButton])
  have hhint : readOption (readBelow (2 ^ 64)) (writeOption (Nat.toDigits 10) n.expireHint ++ '}' :: rest) =
      some (n.expireHint, '}' :: rest) := by
    refine readOption_write (fun seconds hs => readBelow_toDigits (h seconds hs) (by decide) rest) fun seconds _ => ?_
    obtain ⟨d, hd, hdigit⟩ := head?_toDigits seconds ('}' :: rest)
    rw [hd]
    rintro ⟨⟩
    cases hdigit
  simp only [readContent, writeContent, List.append_assoc, skip_append, readString_quoted, readPriority_write, haction,
    hbuttons, hhint, Option.bind_eq_bind, Option.bind_some, Option.pure_def, Notification.key]

theorem readCommand_write {cmd : NotifyCommand} (h : Representable cmd) (rest : List Char) :
    readCommand (writeCommand cmd ++ rest) = some (cmd, rest) := by
  have hclose : ¬ "close" = "notify" := by decide
  have happearance : ¬ "set_appearance" = "notify" ∧ ¬ "set_appearance" = "close" := by decide
  have hshutdown : ¬ "shutdown" = "notify" ∧ ¬ "shutdown" = "close" ∧ ¬ "shutdown" = "set_appearance" := by decide
  cases cmd with
  | notify n =>
    simp only [readCommand, writeCommand, List.append_assoc, List.singleton_append, skip_append, skip_singleton,
      readString_quoted, if_true, readKey_write, readContent_write h, Option.bind_eq_bind, Option.bind_some, Option.pure_def]
  | close key =>
    simp only [readCommand, writeCommand, List.append_assoc, List.singleton_append, skip_append, skip_singleton,
      readString_quoted, if_true, if_false, hclose, readKey_write, Option.bind_eq_bind, Option.bind_some, Option.pure_def]
  | setAppearance a =>
    simp only [readCommand, writeCommand, List.append_assoc, List.singleton_append, skip_append, skip_singleton,
      readString_quoted, if_true, if_false, happearance, readAppearance_write, Option.bind_eq_bind, Option.bind_some,
      Option.pure_def]
  | shutdown =>
    simp only [readCommand, writeCommand, List.append_assoc, List.singleton_append, skip_append, skip_singleton,
      readString_quoted, if_true, if_false, hshutdown, Option.bind_eq_bind, Option.bind_some, Option.pure_def]

theorem read_write {frame : CommandFrame} (h : Representable frame.cmd) : read (write frame ++ ['\n']) = some frame := by
  have hcomma : ','.isDigit = false := by decide
  simp only [read, write, List.append_assoc, List.cons_append, skip_append, skip_cons_append, skip_singleton,
    readBelow_toDigits frame.v.toNat_lt hcomma, readCommand_write h, List.nil_append, if_true, Option.bind_eq_bind,
    Option.bind_some, UInt32.ofNat_toNat]

/-- `serde_json` reads what it wrote, also with the newline behind it. -/
def Inverts (fromSlice : Bytes → Except String CommandFrame) : Prop :=
  ∀ frame : CommandFrame, Representable frame.cmd → fromSlice (toVec frame ++ [newline]) = .ok frame

theorem toVec_newline (frame : CommandFrame) :
    toVec frame ++ [newline] = Path.bytes (String.ofList (write frame ++ ['\n'])) := by
  rw [toVec, Path.bytes_eq, Path.bytes_eq, String.toList_ofList, String.toList_ofList, List.flatMap_append]
  rfl

theorem fromSlice_inverts : Inverts fromSlice := by
  intro frame h
  have htext : ∀ s : String, String.fromUTF8? s.toByteArray = some s := fun s => by
    simp [String.fromUTF8?, String.isValidUTF8, String.fromUTF8]
  have hline : (⟨(toVec frame ++ [newline]).toArray⟩ : ByteArray) = (String.ofList (write frame ++ ['\n'])).toByteArray := by
    rw [toVec_newline]
    rfl
  rw [fromSlice, hline, htext, Option.bind_some, String.toList_ofList, read_write h]

/-! ## One line -/

theorem newline_writeAppearance (a : PromptAppearance) : '\n' ∉ writeAppearance a := by
  have haccent : '\n' ∉ writeOption writeAccent a.accentColor := newline_writeOption fun accent _ => by simp [writeAccent]
  simp [writeAppearance, haccent]

theorem newline_writeContent (n : Notification) : '\n' ∉ writeContent n := by
  have haction : '\n' ∉ writeOption writeString n.defaultAction := newline_writeOption fun s _ => by simp [writeString]
  have hbuttons : '\n' ∉ writeList writeButton n.buttons := newline_writeList fun b _ => by simp [writeButton]
  have hhint : '\n' ∉ writeOption (Nat.toDigits 10) n.expireHint := newline_writeOption fun _ _ => newline_toDigits _
  simp [writeContent, haction, hbuttons, hhint]

theorem newline_writeCommand (cmd : NotifyCommand) : '\n' ∉ writeCommand cmd := by
  cases cmd with
  | notify n => simp [writeCommand, writeKey, newline_writeContent]
  | close key => simp [writeCommand, writeKey]
  | setAppearance a => simp [writeCommand, newline_writeAppearance]
  | shutdown => simp [writeCommand]

theorem newline_write (frame : CommandFrame) : '\n' ∉ write frame := by
  simp [write, newline_writeCommand]

/-! ## The size of a line -/

theorem size_writeButton {b : NotifyButton} (h : b.validate = .ok ()) :
    Text.size (writeButton b) ≤ 6 * (maxActionBytes + maxLabelBytes) + 24 := by
  obtain ⟨haction, hlabel⟩ := andThen_eq_ok.1 h
  have ha := (bounded_eq_ok.1 haction).2.1
  have hl := (bounded_eq_ok.1 hlabel).2.1
  have hqa := size_quoted b.action
  have hql := size_quoted b.label
  have hfixed : "\"action\":\"".utf8ByteSize = 10 ∧ ",\"label\":\"".utf8ByteSize = 10 ∧ Text.size ['}'] = 1 ∧
      '{'.utf8Size = 1 := by
    decide
  obtain ⟨h1, h2, h3, h4⟩ := hfixed
  simp only [writeButton, List.cons_append, Text.size_cons, Text.size_append, size_text, h1, h2, h3, h4]
  omega

theorem size_writeKey {key : CardKey} (h : checkKey key = .ok ()) :
    Text.size (writeKey key) ≤ 6 * (maxAppIdBytes + maxNotificationIdBytes) + 21 := by
  obtain ⟨happ, hid⟩ := andThen_eq_ok.1 h
  have ha := (bounded_eq_ok.1 happ).2.1
  have hi := (bounded_eq_ok.1 hid).2.1
  have hqa := size_quoted key.1
  have hqi := size_quoted key.2
  have hfixed : ",\"app_id\":\"".utf8ByteSize = 11 ∧ ",\"id\":\"".utf8ByteSize = 7 := by decide
  simp only [writeKey, Text.size_append, size_text, hfixed]
  omega

theorem size_writeOption {α : Type} {write : α → List Char} {o : Option α} {bound : Nat} (hbound : 4 ≤ bound)
    (h : ∀ a, o = some a → Text.size (write a) ≤ bound) : Text.size (writeOption write o) ≤ bound := by
  cases o with
  | none =>
    have hnull : "null".utf8ByteSize = 4 := by decide
    rwa [writeOption, size_text, hnull]
  | some a => exact h a rfl

theorem size_writeContent {n : Notification} (h : n.validate = .ok ()) (hr : Representable (.notify n)) :
    Text.size (writeContent n) ≤
      6 * (maxTitleBytes + maxBodyBytes + maxActionBytes) + maxButtons * (6 * (maxActionBytes + maxLabelBytes) + 25) + 200 := by
  obtain ⟨-, htexts, -, hdefault, hcount, hbuttons⟩ := Notification.validate_eq_ok.1 h
  rw [Notification.checkTexts, refuse_eq_ok] at htexts
  simp only [not_or, Nat.not_lt] at htexts
  have hqt := size_quoted n.title
  have hqb := size_quoted n.body
  have hqp : Text.size (quoted (priorityName n.priority)) ≤ 7 := by cases n.priority <;> decide +kernel
  have haction : Text.size (writeOption writeString n.defaultAction) ≤ 6 * maxActionBytes + 2 := by
    refine size_writeOption (by decide) fun action ha => ?_
    have hsize := (bounded_eq_ok.1 (hdefault action ha)).2.1
    have hq := size_quoted action
    rw [writeString, Text.size_cons, show '"'.utf8Size = 1 from rfl]
    omega
  have hlist : Text.size (writeList writeButton n.buttons) ≤
      n.buttons.length * (6 * (maxActionBytes + maxLabelBytes) + 24 + 1) + 1 :=
    size_writeList fun b hb => size_writeButton (hbuttons b hb)
  have hlength : n.buttons.length ≤ maxButtons := Nat.le_of_not_lt (refuse_eq_ok.1 hcount)
  have hbutton := Nat.mul_le_mul_right (6 * (maxActionBytes + maxLabelBytes) + 24 + 1) hlength
  have hhint : Text.size (writeOption (Nat.toDigits 10) n.expireHint) ≤ 20 :=
    size_writeOption (by decide) fun seconds hs => size_toDigits (by decide) ((hr seconds hs).trans (by decide))
  have hfixed : ",\"title\":\"".utf8ByteSize = 10 ∧ ",\"body\":\"".utf8ByteSize = 9 ∧
      ",\"priority\":\"".utf8ByteSize = 13 ∧ ",\"default_action\":".utf8ByteSize = 18 ∧
      ",\"buttons\":[".utf8ByteSize = 12 ∧ ",\"expire_hint\":".utf8ByteSize = 15 := by
    decide
  simp only [writeContent, Text.size_append, size_text, hfixed]
  simp only [maxTitleBytes, maxBodyBytes, maxActionBytes, maxButtons, maxLabelBytes] at htexts haction hlist hbutton hlength ⊢
  omega

/-- A valid notification's line fits, whatever is escaped in it. -/
theorem length_line {n : Notification} (h : n.validate = .ok ()) (hr : Representable (.notify n)) :
    (toVec (.new (.notify n)) ++ [newline]).length ≤ maxNotifyLineBytes := by
  have hkey := size_writeKey (Notification.validate_eq_ok.1 h).1
  have hcontent := size_writeContent h hr
  have hfixed : Text.size (quoted "notify") = 7 ∧ "\x7b\"kind\":\"".utf8ByteSize = 9 ∧ "\x7b\"v\":".utf8ByteSize = 5 ∧
      "\"cmd\":".utf8ByteSize = 6 ∧ Text.size ['}'] = 1 ∧ ','.utf8Size = 1 ∧
      Text.size (Nat.toDigits 10 notifyStreamVersion.toNat) = 1 := by
    decide +kernel
  obtain ⟨h1, h2, h3, h4, h5, h6, h7⟩ := hfixed
  have hwrite : Text.size (write (.new (.notify n))) ≤ maxNotifyLineBytes - 1 := by
    simp only [write, writeCommand, CommandFrame.new, Text.size_cons, Text.size_append, size_text, h1, h2, h3, h4, h5,
      h6, h7]
    simp only [maxAppIdBytes, maxNotificationIdBytes, maxTitleBytes, maxBodyBytes, maxActionBytes, maxButtons,
      maxLabelBytes] at hkey hcontent
    unfold maxNotifyLineBytes
    omega
  rw [List.length_append, toVec, Text.length_bytes, Text.utf8ByteSize_ofList]
  have hpos : 0 < maxNotifyLineBytes := by decide
  exact (Nat.add_le_add_right hwrite 1).trans (Nat.le_of_eq (Nat.sub_add_cancel hpos))

end NotifyFrames

open NotifyFrames

/-! ## Encoding and decoding -/

/-- One line, with the newline behind it. -/
def CommandFrame.encode (frame : CommandFrame) : Except String Bytes := .ok (toVec frame ++ [newline])

/-- Decode and validate one line. -/
def CommandFrame.decode (fromSlice : Bytes → Except String CommandFrame) (line : Bytes) : Except String CommandFrame :=
  if line = [] ∨ maxNotifyLineBytes < line.length then .error "command line is empty or oversized"
  else
    match fromSlice line with
    | .error error => .error s!"invalid command JSON: {error}"
    | .ok frame =>
      if frame.v ≠ notifyStreamVersion then
        .error s!"unsupported notification stream version {frame.v}; expected {notifyStreamVersion}"
      else do
        frame.cmd.check
        return frame

/-- A line holds no newline before its own. -/
theorem newline_toVec (frame : CommandFrame) : newline ∉ toVec frame := fun h =>
  newline_write frame (Text.ascii_mem_bytes (by decide) h)

/-- A line that fits gives its frame back iff the frame passes its checks. -/
theorem decode_encode {fromSlice : Bytes → Except String CommandFrame} (hinv : Inverts fromSlice) {cmd : NotifyCommand}
    (hr : Representable cmd) (hfits : (toVec (.new cmd) ++ [newline]).length ≤ maxNotifyLineBytes) :
    CommandFrame.decode fromSlice (toVec (.new cmd) ++ [newline]) = (cmd.check).map fun _ => .new cmd := by
  have hline : ¬ (toVec (.new cmd) ++ [newline] = [] ∨ maxNotifyLineBytes < (toVec (.new cmd) ++ [newline]).length) := by
    rw [not_or, Nat.not_lt]
    exact ⟨List.append_ne_nil_of_right_ne_nil _ (List.cons_ne_nil _ _), hfits⟩
  unfold CommandFrame.decode
  rw [if_neg hline, hinv (.new cmd) hr]
  show (if notifyStreamVersion ≠ notifyStreamVersion then _ else do cmd.check; return CommandFrame.new cmd) = _
  rw [if_neg (not_not.2 rfl)]
  cases cmd.check <;> rfl

end AtriumPortal.Prompter
