import AtriumPortal.Lib.Quota
import AtriumPortal.Lib.Runs
import AtriumPortal.Lib.Text
import AtriumPortal.Prompter.Cards
/-!
# Notifications

`notification.rs`: translating the portal's dictionary, the live ids, and the daemon
manager. Its mutex serializes the calls; the pump that reads the daemon's events and
the daemon itself run next to the call in progress, so a call is taken in steps.
-/
open AtriumPortal.Lib AtriumPortal.Lib.Checks AtriumPortal.Prompter

namespace AtriumPortal.Portal.Notifications

def maxIdBytes : Nat := 255
def maxTitleChars : Nat := 256
def maxLabelChars : Nat := 256
def maxIdsPerApp : Nat := 64
def maxTotalIds : Nat := 256

/-! ## The dictionary -/

/-- A value of the notification dictionary; a button is read by its string values. -/
inductive NotifyValue where
  | str (value : String)
  | strings (values : List String)
  | dicts (values : List (String → Option String))
  | other

abbrev Vardict : Type := String → Option NotifyValue

def Vardict.string (map : Vardict) (key : String) : Option String :=
  match map key with
  | some (.str value) => some value
  | _ => none

/-- `char::is_control`. -/
def isControl (c : Char) : Bool := c.toNat < 32 || (127 ≤ c.toNat && c.toNat < 160)

/-- Portal ids become stream keys: bounded and control-free. -/
def validId (value : String) : Except String Unit :=
  if value = "" ∨ maxIdBytes < value.utf8ByteSize ∨ value.toList.any isControl then
    .error "id is empty, oversized, or contains control characters"
  else .ok ()

/-- Drop every tag, `inTag` telling whether one is open. -/
def stripMarkup (inTag : Bool) : List Char → List Char
  | [] => []
  | c :: rest =>
    if c = '<' then stripMarkup true rest
    else if inTag then stripMarkup (c ≠ '>') rest
    else c :: stripMarkup false rest

def checkTitle (title : String) : Except String Unit :=
  if maxTitleChars < title.length ∨ hasNul title then .error "title is oversized or contains NUL" else .ok ()

def bodyOf (map : Vardict) : String :=
  if (map.string "body").getD "" = "" then
    match map.string "markup-body" with
    | some markup => String.ofList (stripMarkup false markup.toList)
    | none => ""
  else (map.string "body").getD ""

def checkBody (body : String) : Except String Unit :=
  if maxBodyBytes < body.utf8ByteSize ∨ hasNul body then .error "body is oversized or contains NUL" else .ok ()

def checkSomeText (title body : String) : Except String Unit :=
  if Blank title ∧ Blank body then .error "notification has neither a title nor a body" else .ok ()

def priorityOf (map : Vardict) : Priority :=
  match map.string "priority" with
  | some "low" => .low
  | some "high" => .high
  | some "urgent" => .urgent
  | _ => .normal

def checkLabel (label : String) : Except String Unit :=
  if maxLabelChars < label.length ∨ hasNul label then .error "button label is oversized or contains NUL" else .ok ()

/-- A button without an action or a label is dropped. -/
def buttonOf (button : String → Option String) : Except String (List NotifyButton) :=
  match (button "action").filter (· ≠ "") with
  | none => .ok []
  | some action => do
    validId action
    match (button "label").filter (· ≠ "") with
    | none => .ok []
    | some label => do
      checkLabel label
      return [⟨action, label⟩]

def buttonsOf : List (String → Option String) → Except String (List NotifyButton)
  | [] => .ok []
  | button :: rest => do
    let shown ← buttonOf button
    let others ← buttonsOf rest
    return shown ++ others

def parseButtons (map : Vardict) : Except String (List NotifyButton) :=
  match map "buttons" with
  | none => .ok []
  | some (.dicts wire) => if maxButtons < wire.length then .error s!"more than {maxButtons} buttons" else buttonsOf wire
  | some _ => .error "buttons is not an array of vardicts"

def hintsOf (map : Vardict) : List String :=
  match map "display-hint" with
  | some (.strings hints) => hints
  | _ => []

/-- The seconds a card stays: the priority's, unless a hint says otherwise. -/
def expireHint (priority : Priority) (hints : List String) : Option Nat :=
  let ofPriority := match priority with
    | .low => some 5
    | .normal => some 10
    | .high | .urgent => none
  hints.foldl (fun expire hint =>
    if hint = "transient" then some 5 else if hint = "persistent" then none else expire) ofPriority

def parseNotification (appId id : String) (map : Vardict) : Except String Notification := do
  validId appId
  validId id
  checkTitle ((map.string "title").getD "")
  checkBody (bodyOf map)
  checkSomeText ((map.string "title").getD "") (bodyOf map)
  checkSome validId ((map.string "default-action").filter (· ≠ ""))
  let buttons ← parseButtons map
  return {
    appId := appId
    id := id
    title := (map.string "title").getD ""
    body := bodyOf map
    priority := priorityOf map
    defaultAction := (map.string "default-action").filter (· ≠ "")
    buttons := buttons
    expireHint := expireHint (priorityOf map) (hintsOf map) }

/-! ## What parsing accepts -/

theorem validId_eq_ok {value : String} : validId value = .ok () ↔
    value ≠ "" ∧ value.utf8ByteSize ≤ maxIdBytes ∧ ∀ c ∈ value.toList, isControl c = false := by
  simp [validId]

/-- An id without control characters has no NUL. -/
theorem validId_bounded {name value : String} {limit : Nat} (h : validId value = .ok ()) (hlimit : maxIdBytes ≤ limit) :
    bounded name value limit = .ok () := by
  obtain ⟨hne, hsize, hcontrol⟩ := validId_eq_ok.1 h
  refine bounded_eq_ok.2 ⟨hne, hsize.trans hlimit, ?_⟩
  rw [hasNul, List.any_eq_false]
  intro c hc hnul
  have := hcontrol c hc
  simp only [beq_iff_eq] at hnul
  simp [isControl, hnul] at this

theorem validId_checkKey {key : CardKey} (happ : validId key.1 = .ok ()) (hid : validId key.2 = .ok ()) :
    checkKey key = .ok () :=
  andThen_eq_ok.2 ⟨validId_bounded happ (Nat.le_refl _), validId_bounded hid (Nat.le_refl _)⟩

/-- A button that was parsed. -/
structure ButtonParsed (b : NotifyButton) : Prop where
  action : validId b.action = .ok ()
  labelled : b.label ≠ ""
  label : checkLabel b.label = .ok ()

theorem buttonOf_parsed {button : String → Option String} {l : List NotifyButton} (h : buttonOf button = .ok l) :
    l.length ≤ 1 ∧ ∀ b ∈ l, ButtonParsed b := by
  unfold buttonOf at h
  split at h
  · cases h
    exact ⟨Nat.zero_le _, nofun⟩
  · next action _ =>
    rw [andThen_eq_ok] at h
    obtain ⟨haction, h⟩ := h
    split at h
    · cases h
      exact ⟨Nat.zero_le _, nofun⟩
    · next label hlabel =>
      rw [andThen_eq_ok] at h
      obtain ⟨hchecked, h⟩ := h
      cases h
      have hne : label ≠ "" := by simpa using (Option.filter_eq_some_iff.1 hlabel).2
      refine ⟨Nat.le_refl _, fun b hb => ?_⟩
      cases List.mem_singleton.1 hb
      exact ⟨haction, hne, hchecked⟩

theorem buttonsOf_parsed {wire : List (String → Option String)} {l : List NotifyButton} (h : buttonsOf wire = .ok l) :
    l.length ≤ wire.length ∧ ∀ b ∈ l, ButtonParsed b := by
  induction wire generalizing l with
  | nil =>
    cases h
    exact ⟨Nat.le_refl _, nofun⟩
  | cons button wire ih =>
    simp only [buttonsOf, bind_eq_ok] at h
    obtain ⟨shown, hshown, others, hothers, h⟩ := h
    cases h
    obtain ⟨hone, hb⟩ := buttonOf_parsed hshown
    obtain ⟨hrest, hbs⟩ := ih hothers
    constructor
    · rw [List.length_append, List.length_cons]
      omega
    · intro b hin
      exact (List.mem_append.1 hin).elim (hb b) (hbs b)

theorem parseButtons_parsed {map : Vardict} {l : List NotifyButton} (h : parseButtons map = .ok l) :
    l.length ≤ maxButtons ∧ ∀ b ∈ l, ButtonParsed b := by
  unfold parseButtons at h
  split at h
  · cases h
    exact ⟨Nat.zero_le _, nofun⟩
  · rw [refuseThen_eq_ok] at h
    obtain ⟨hcount, h⟩ := h
    obtain ⟨hlength, hb⟩ := buttonsOf_parsed h
    exact ⟨hlength.trans (Nat.le_of_not_lt hcount), hb⟩
  · cases h

/-- What holds of every notification that was parsed. -/
structure Parsed (n : Notification) : Prop where
  appId : validId n.appId = .ok ()
  id : validId n.id = .ok ()
  title : checkTitle n.title = .ok ()
  body : checkBody n.body = .ok ()
  someText : checkSomeText n.title n.body = .ok ()
  defaultAction : ∀ action, n.defaultAction = some action → validId action = .ok ()
  buttonCount : n.buttons.length ≤ maxButtons
  buttons : ∀ b ∈ n.buttons, ButtonParsed b

theorem parseNotification_parsed {appId id : String} {map : Vardict} {n : Notification}
    (h : parseNotification appId id map = .ok n) : Parsed n := by
  simp only [parseNotification, bind_eq_ok] at h
  obtain ⟨_, happ, _, hid, _, htitle, _, hbody, _, hsome, _, hdefault, buttons, hbuttons, h⟩ := h
  cases h
  obtain ⟨hcount, hb⟩ := parseButtons_parsed hbuttons
  exact ⟨happ, hid, htitle, hbody, hsome, checkSome_eq_ok.1 hdefault, hcount, hb⟩

theorem utf8ByteSize_le (value : String) : value.utf8ByteSize ≤ 4 * value.length := by
  have := Text.utf8ByteSize_ofList_le value.toList
  rwa [String.ofList_toList, String.length_toList] at this

theorem utf8ByteSize_replicate (n : Nat) (c : Char) : (String.ofList (List.replicate n c)).utf8ByteSize = n * c.utf8Size := by
  rw [Text.utf8ByteSize_ofList, Text.size, List.map_replicate, List.sum_replicate_nat]

theorem checkLabel_replicate {n : Nat} {c : Char} (hn : n ≤ maxLabelChars) (hc : c.toNat ≠ 0) :
    checkLabel (String.ofList (List.replicate n c)) = .ok () := by
  have hnul : hasNul (String.ofList (List.replicate n c)) = false := by
    rw [hasNul, String.toList_ofList, List.any_replicate]
    simp [hc]
  rw [checkLabel, refuse_eq_ok, String.length_ofList, List.length_replicate, hnul]
  simp [hn]

/-- The daemon accepts a parsed notification iff no label is longer in bytes than the
portal allows in characters. -/
theorem Parsed.validate_iff {n : Notification} (h : Parsed n) :
    n.validate = .ok () ↔ ∀ b ∈ n.buttons, b.label.utf8ByteSize ≤ maxLabelBytes := by
  have htitle : n.title.utf8ByteSize ≤ maxTitleBytes ∧ hasNul n.title = false := by
    have := h.title
    simp only [checkTitle, refuse_eq_ok, not_or, Nat.not_lt, Bool.not_eq_true] at this
    exact ⟨(utf8ByteSize_le n.title).trans (Nat.mul_le_mul_left 4 this.1), this.2⟩
  have hbody : n.body.utf8ByteSize ≤ maxBodyBytes ∧ hasNul n.body = false := by
    have := h.body
    simpa only [checkBody, refuse_eq_ok, not_or, Nat.not_lt, Bool.not_eq_true] using this
  have htexts : n.checkTexts = .ok () := by
    rw [Notification.checkTexts, refuse_eq_ok]
    simp [htitle, hbody]
  have hsome : n.checkSomeText = .ok () := by
    have := h.someText
    rw [checkSomeText, refuse_eq_ok] at this
    rwa [Notification.checkSomeText, refuse_eq_ok]
  have hdefault : ∀ action, n.defaultAction = some action → bounded "default action" action maxActionBytes = .ok () :=
    fun action ha => validId_bounded (h.defaultAction action ha) (Nat.le_refl _)
  have hcount : n.checkButtonCount = .ok () := refuse_eq_ok.2 (Nat.not_lt.2 h.buttonCount)
  have hbutton : ∀ b ∈ n.buttons, b.validate = .ok () ↔ b.label.utf8ByteSize ≤ maxLabelBytes := by
    intro b hb
    have hlabel : hasNul b.label = false := by
      have := (h.buttons b hb).label
      simp only [checkLabel, refuse_eq_ok, not_or, Bool.not_eq_true] at this
      exact this.2
    have haction : bounded "button action" b.action maxActionBytes = .ok () :=
      validId_bounded (h.buttons b hb).action (Nat.le_refl _)
    simp [NotifyButton.validate, andThen_eq_ok, haction, bounded_eq_ok, (h.buttons b hb).labelled, hlabel]
  have hkey : checkKey n.key = .ok () := @validId_checkKey n.key h.appId h.id
  rw [Notification.validate_eq_ok]
  constructor
  · rintro ⟨-, -, -, -, -, hbuttons⟩ b hb
    exact (hbutton b hb).1 (hbuttons b hb)
  · exact fun hl => ⟨hkey, htexts, hsome, hdefault, hcount, fun b hb => (hbutton b hb).2 (hl b hb)⟩

end AtriumPortal.Portal.Notifications
