import AtriumPortal.Prompter.Appearance
/-!
# The notification stream

`notify.rs`: the commands and events of the notification daemon, and what decoding
one checks.
-/
open AtriumPortal.Lib.Checks

namespace AtriumPortal.Prompter

def maxAppIdBytes : Nat := 255
def maxNotificationIdBytes : Nat := 255
def maxTitleBytes : Nat := 1024
def maxBodyBytes : Nat := 4 * 1024
def maxActionBytes : Nat := 255
def maxLabelBytes : Nat := 256
def maxButtons : Nat := 8

inductive Priority where
  | low
  | normal
  | high
  | urgent
  deriving DecidableEq, Repr

structure NotifyButton where
  action : String
  label : String
  deriving DecidableEq, Repr

structure Notification where
  appId : String
  id : String
  title : String
  body : String
  priority : Priority
  defaultAction : Option String
  buttons : List NotifyButton
  expireHint : Option Nat
  deriving DecidableEq, Repr

/-- Cards are keyed by application and id. -/
abbrev CardKey : Type := String × String

instance : LawfulBEq CardKey := inferInstance

def Notification.key (n : Notification) : CardKey := (n.appId, n.id)

/-! ## Validation -/

def bounded (name value : String) (limit : Nat) : Except String Unit :=
  if value = "" ∨ limit < value.utf8ByteSize ∨ hasNul value then .error s!"{name} is empty, oversized, or contains NUL"
  else .ok ()

def Notification.checkTexts (n : Notification) : Except String Unit :=
  if maxTitleBytes < n.title.utf8ByteSize ∨ maxBodyBytes < n.body.utf8ByteSize ∨ hasNul n.title ∨ hasNul n.body then
    .error "notification title/body is oversized or contains NUL"
  else .ok ()

def Notification.checkSomeText (n : Notification) : Except String Unit :=
  if Blank n.title ∧ Blank n.body then .error "notification has neither a title nor a body" else .ok ()

def Notification.checkButtonCount (n : Notification) : Except String Unit :=
  if maxButtons < n.buttons.length then .error s!"notification has more than {maxButtons} buttons" else .ok ()

def NotifyButton.validate (b : NotifyButton) : Except String Unit := do
  bounded "button action" b.action maxActionBytes
  bounded "button label" b.label maxLabelBytes

def Notification.validate (n : Notification) : Except String Unit := do
  bounded "app id" n.appId maxAppIdBytes
  bounded "notification id" n.id maxNotificationIdBytes
  n.checkTexts
  n.checkSomeText
  checkSome (bounded "default action" · maxActionBytes) n.defaultAction
  n.checkButtonCount
  checkAll NotifyButton.validate n.buttons

/-! ## Frames -/

inductive NotifyCommand where
  | notify (n : Notification)
  | close (key : CardKey)
  | setAppearance (appearance : PromptAppearance)
  | shutdown
  deriving DecidableEq, Repr

inductive NotifyEvent where
  /-- A button or the default action fired; the card is closed. -/
  | actionInvoked (key : CardKey) (action : String)
  /-- The card closed for any other reason. -/
  | closed (key : CardKey)
  deriving DecidableEq, Repr

def NotifyEvent.key : NotifyEvent → CardKey
  | .actionInvoked key _ => key
  | .closed key => key

def checkKey (key : CardKey) : Except String Unit := do
  bounded "app id" key.1 maxAppIdBytes
  bounded "notification id" key.2 maxNotificationIdBytes

/-- The checks of `CommandFrame::decode` on a frame of this version. -/
def NotifyCommand.check : NotifyCommand → Except String Unit
  | .notify n => n.validate
  | .close key => checkKey key
  | .setAppearance appearance => appearance.validate
  | .shutdown => .ok ()

/-- The checks of `EventFrame::decode` on a frame of this version. -/
def NotifyEvent.check : NotifyEvent → Except String Unit
  | .actionInvoked key action => do
    bounded "action" action maxActionBytes
    checkKey key
  | .closed key => checkKey key

theorem bounded_eq_ok {name value : String} {limit : Nat} :
    bounded name value limit = .ok () ↔ value ≠ "" ∧ value.utf8ByteSize ≤ limit ∧ hasNul value = false := by
  simp [bounded]

/-- The actions a card can report. -/
def Notification.actions (n : Notification) : List String := n.defaultAction.toList ++ n.buttons.map (·.action)

theorem Notification.validate_eq_ok {n : Notification} : n.validate = .ok () ↔
    checkKey n.key = .ok () ∧ n.checkTexts = .ok () ∧ n.checkSomeText = .ok () ∧
      (∀ action, n.defaultAction = some action → bounded "default action" action maxActionBytes = .ok ()) ∧
      n.checkButtonCount = .ok () ∧ ∀ b ∈ n.buttons, b.validate = .ok () := by
  simp only [Notification.validate, checkKey, Notification.key, andThen_eq_ok, checkSome_eq_ok, checkAll_eq_ok, and_assoc]

/-- A valid card's key and actions make valid events. -/
theorem Notification.check_event {n : Notification} (h : n.validate = .ok ()) :
    (NotifyEvent.closed n.key).check = .ok () ∧
      ∀ action ∈ n.actions, (NotifyEvent.actionInvoked n.key action).check = .ok () := by
  obtain ⟨hkey, -, -, hdefault, -, hbuttons⟩ := Notification.validate_eq_ok.1 h
  refine ⟨hkey, fun action ha => andThen_eq_ok.2 ⟨?_, hkey⟩⟩
  rw [bounded_eq_ok]
  cases List.mem_append.1 ha with
  | inl hd => exact bounded_eq_ok.1 (hdefault action (Option.mem_toList.1 hd))
  | inr hb =>
    obtain ⟨b, hin, rfl⟩ := List.mem_map.1 hb
    exact bounded_eq_ok.1 (andThen_eq_ok.1 (hbuttons b hin)).1

end AtriumPortal.Prompter
