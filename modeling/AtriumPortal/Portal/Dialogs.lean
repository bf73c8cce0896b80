import AtriumPortal.Portal.Workers
import AtriumPortal.Prompter.Appearance
/-!
# The consent dialogs

`access.rs`, `account.rs` and `settings.rs`: the confirmations that AccessDialog and
GetUserInformation build, and the compositor preferences they are stamped with.
`consent_accepted_iff` says exactly which of them the prompter accepts.
-/
open AtriumPortal.Lib.Checks AtriumPortal.Prompter

namespace AtriumPortal.Portal

abbrev Options : Type := String → Option PortalValue

/-- `String::try_from` on the value under a key. -/
def Options.string (options : Options) (key : String) : Option String :=
  match options key with
  | some (.str value) => some value
  | _ => none

/-- A value of an options dictionary, by what it converts to. -/
inductive OptionValue where
  | bool (value : Bool)
  | str (value : String)
  | strings (values : List String)
  | other

abbrev OptionMap : Type := String → Option OptionValue

namespace OptionMap

def bool (options : OptionMap) (key : String) : Bool :=
  match options key with
  | some (.bool value) => value
  | _ => false

def string (options : OptionMap) (key : String) : Option String :=
  match options key with
  | some (.str value) => some value
  | _ => none

def strings (options : OptionMap) (key : String) : List String :=
  match options key with
  | some (.strings values) => values
  | _ => []

end OptionMap

/-- The parent window of a request; D-Bus has the empty string for none. -/
def parentWindow (window : String) : Option String := if window = "" then none else some window

/-! ## The compositor's preferences -/

inductive ColorScheme where
  | system
  | dark
  | light
  deriving DecidableEq, Repr

inductive Contrast where
  | normal
  | high
  deriving DecidableEq, Repr

structure AccentColor where
  red : UInt8
  green : UInt8
  blue : UInt8
  deriving DecidableEq, Repr

/-- The preferences a dialog is rendered with. -/
structure DesktopPreferences where
  colorScheme : ColorScheme
  accentColor : Option AccentColor
  contrast : Contrast
  reducedMotion : Bool
  deriving DecidableEq, Repr

def promptAppearance (preferences : DesktopPreferences) : PromptAppearance where
  colorScheme := match preferences.colorScheme with
    | .system => .system
    | .dark => .dark
    | .light => .light
  accentColor := preferences.accentColor.map fun accent => ⟨accent.red, accent.green, accent.blue⟩
  highContrast := preferences.contrast = .high
  reducedMotion := preferences.reducedMotion

/-! ## Access -/

namespace Access

def maxDialogTextBytes : Nat := 16 * 1024
def maxLabelBytes : Nat := 256

def checkText (name text : String) : Except String Unit :=
  if maxDialogTextBytes < text.utf8ByteSize ∨ hasNul text then .error s!"{name} is oversized or contains NUL"
  else .ok ()

def checkSomeText (title subtitle body : String) : Except String Unit :=
  if Blank title ∧ Blank subtitle ∧ Blank body then .error "title, subtitle, and body are all empty" else .ok ()

def label (options : Options) (name : String) : Except String (Option String) :=
  match options.string name with
  | some value =>
    if maxLabelBytes < value.utf8ByteSize ∨ hasNul value then .error s!"{name} label is oversized or contains NUL"
    else .ok (some value)
  | none => .ok none

/-- Title and body of the dialog: the subtitle leads the body. -/
def texts (title subtitle body : String) : String × String :=
  if Blank title then (subtitle, body)
  else if Blank subtitle then (title, body)
  else if Blank body then (title, subtitle)
  else (title, subtitle ++ "\n\n" ++ body)

def dialogRequest (window title subtitle body : String) (options : Options) : Except String ConfirmRequest := do
  checkText "title" title
  checkText "subtitle" subtitle
  checkText "body" body
  checkSomeText title subtitle body
  let denyLabel ← label options "deny_label"
  let grantLabel ← label options "grant_label"
  return {
    title := (texts title subtitle body).1
    body := (texts title subtitle body).2
    acceptLabel := grantLabel
    denyLabel := denyLabel
    modal := match options "modality" with
      | some (.bool modal) => modal
      | _ => true
    parentWindow := parentWindow window }

end Access

/-! ## Account -/

namespace Account

def maxReasonBytes : Nat := 16 * 1024

def accountReason (options : Options) : Except String (Option String) :=
  if (options.string "reason").any (maxReasonBytes < ·.utf8ByteSize) then
    .error s!"reason exceeds the {maxReasonBytes}-byte limit"
  else .ok (options.string "reason")

end Account

/-! ## When the prompter accepts them -/

/-- A served call that asks for a confirmation. -/
inductive ConsentCall where
  | accessDialog (window title subtitle body : String) (options : Options)
  | getUserInformation (appId window : String) (options : Options)

/-- The confirmation it asks for, or why it is refused. -/
def ConsentCall.request : ConsentCall → Except String ConfirmRequest
  | .accessDialog window title subtitle body options => Access.dialogRequest window title subtitle body options
  | .getUserInformation appId window options =>
    (Account.accountReason options).map (Account.consentRequest appId (parentWindow window))

/-- What is left for a call's arguments to meet, once the call accepts them. -/
def ConsentCall.Fits : ConsentCall → Prop
  | .accessDialog window title subtitle body options =>
    Bounded window ∧
      -- The dialog has a title and a body.
      ((¬ Blank title ∧ ¬ Blank subtitle) ∨ (¬ Blank title ∧ ¬ Blank body) ∨ (¬ Blank subtitle ∧ ¬ Blank body)) ∧
      (¬ Blank title → ¬ Blank subtitle → ¬ Blank body →
        subtitle.utf8ByteSize + 2 + body.utf8ByteSize ≤ maxPromptTextBytes) ∧
      ∀ label, options.string "grant_label" = some label → ¬ Blank label
  | .getUserInformation appId window options =>
    Bounded window ∧ hasNul appId = false ∧ (∀ reason, options.string "reason" = some reason → hasNul reason = false) ∧
      88 + appId.utf8ByteSize + ((options.string "reason").elim 0 fun reason => 1 + reason.utf8ByteSize) ≤
        maxPromptTextBytes

theorem parentWindow_bounded_iff {window : String} :
    (∀ parent, parentWindow window = some parent → Bounded parent) ↔ Bounded window := by
  unfold parentWindow
  split
  · next h => simp [h, bounded_empty]
  · simp

theorem Access.checkText_eq_ok {name text : String} : checkText name text = .ok () ↔ Bounded text := by
  rw [checkText, refuse_eq_ok]
  simp only [not_or, Nat.not_lt, Bool.not_eq_true]
  exact ⟨fun ⟨hsize, hnul⟩ => ⟨hsize, hnul⟩, fun h => ⟨h.size, h.noNul⟩⟩

/-- An accepted label is the option's, and bounded. -/
theorem Access.label_eq_ok {options : Options} {name : String} {value : Option String}
    (h : label options name = .ok value) : value = options.string name ∧ ∀ text, value = some text → Bounded text := by
  unfold label at h
  split at h
  · next text htext =>
    obtain ⟨hfits, h⟩ := refuseThen_eq_ok.1 h
    simp only [not_or, Nat.not_lt, Bool.not_eq_true] at hfits
    cases h
    refine ⟨htext.symm, fun _ ht => ?_⟩
    cases ht
    exact ⟨hfits.1.trans (by decide), hfits.2⟩
  · next hnone =>
    cases h
    exact ⟨hnone.symm, nofun⟩

/-- A text that starts with a non-blank part is not blank. -/
theorem not_blank_append {a b : String} (h : ¬ Blank a) : ¬ Blank (a ++ b) := by
  intro hab
  simp only [Blank, String.toList_append, List.all_append, Bool.and_eq_true] at hab
  exact h hab.1

namespace Access

variable {title subtitle body : String}

theorem texts_bounded (htitle : Bounded title) (hsubtitle : Bounded subtitle) (hbody : Bounded body) :
    Bounded (texts title subtitle body).1 ∧ (Bounded (texts title subtitle body).2 ↔
      (¬ Blank title → ¬ Blank subtitle → ¬ Blank body →
        subtitle.utf8ByteSize + 2 + body.utf8ByteSize ≤ maxPromptTextBytes)) := by
  unfold texts
  split
  · next h => simp [h, hsubtitle, hbody]
  · split
    · next h => simp [h, htitle, hbody]
    · split
      · next h => simp [h, htitle, hsubtitle]
      · next ht hs hb =>
        have hnul : hasNul (subtitle ++ "\n\n" ++ body) = false := by
          simp only [hasNul_append, hsubtitle.noNul, hbody.noNul]
          decide
        have hsize : (subtitle ++ "\n\n" ++ body).utf8ByteSize = subtitle.utf8ByteSize + 2 + body.utf8ByteSize := by
          simp only [String.utf8ByteSize_append]
          rfl
        refine ⟨htitle, fun h _ _ _ => hsize ▸ h.size, fun h => ⟨?_, hnul⟩⟩
        rw [hsize]
        exact h ht hs hb

/-- The dialog has a title and a body iff two of the three texts are not blank. -/
theorem texts_not_blank :
    (¬ Blank (texts title subtitle body).1 ∧ ¬ Blank (texts title subtitle body).2) ↔
      (¬ Blank title ∧ ¬ Blank subtitle) ∨ (¬ Blank title ∧ ¬ Blank body) ∨ (¬ Blank subtitle ∧ ¬ Blank body) := by
  unfold texts
  split
  · next h => simp [h]
  · next ht =>
    split
    · next h => simp [h, ht]
    · next hs =>
      split
      · next h => simp [h, ht, hs]
      · have hjoined : ¬ Blank (subtitle ++ "\n\n" ++ body) := not_blank_append (not_blank_append hs)
        simp [ht, hs, hjoined]

/-- What the prompter makes of an accepted AccessDialog. -/
theorem dialogRequest_validate_iff {window : String} {options : Options} {prompt : ConfirmRequest}
    (h : dialogRequest window title subtitle body options = .ok prompt) :
    prompt.validate = .ok () ↔ (ConsentCall.accessDialog window title subtitle body options).Fits := by
  simp only [dialogRequest, bind_eq_ok] at h
  obtain ⟨_, htitle, _, hsubtitle, _, hbody, _, -, denyLabel, hdeny, grantLabel, hgrant, hprompt⟩ := h
  cases hprompt
  obtain ⟨-, hdeny⟩ := label_eq_ok hdeny
  obtain ⟨rfl, hgrant⟩ := label_eq_ok hgrant
  obtain ⟨hfirst, hsecond⟩ :=
    texts_bounded (checkText_eq_ok.1 htitle) (checkText_eq_ok.1 hsubtitle) (checkText_eq_ok.1 hbody)
  have hshown := @texts_not_blank title subtitle body
  rw [ConfirmRequest.validate_eq_ok]
  dsimp only
  rw [parentWindow_bounded_iff]
  constructor
  · rintro ⟨⟨ht, -⟩, ⟨hb, hsize⟩, haccept, -, hwindow⟩
    exact ⟨hwindow, hshown.1 ⟨ht, hb⟩, hsecond.1 hsize, fun text htext => (haccept text htext).1⟩
  · rintro ⟨hwindow, htwo, hsize, haccept⟩
    obtain ⟨ht, hb⟩ := hshown.2 htwo
    exact ⟨⟨ht, hfirst⟩, ⟨hb, hsecond.2 hsize⟩, fun text htext => ⟨haccept text htext, hgrant text htext⟩, hdeny,
      hwindow⟩

end Access

namespace Account

theorem consentBody_eq (appId : String) (reason : Option String) : consentBody appId reason =
    "The application '" ++ appId ++ "' requests access to your personal information (name and avatar photo)." ++
      reason.elim "" fun reason => " " ++ reason := by
  cases reason <;> rfl

theorem consentBody_size (appId : String) (reason : Option String) : (consentBody appId reason).utf8ByteSize =
    88 + appId.utf8ByteSize + reason.elim 0 fun reason => 1 + reason.utf8ByteSize := by
  rw [consentBody_eq]
  have hhead : "The application '".utf8ByteSize = 17 := by decide
  have htail : "' requests access to your personal information (name and avatar photo).".utf8ByteSize = 71 := by decide
  cases reason with
  | none =>
    have hempty : "".utf8ByteSize = 0 := rfl
    simp only [String.utf8ByteSize_append, hhead, htail, hempty, Option.elim]
    omega
  | some reason =>
    have hspace : " ".utf8ByteSize = 1 := rfl
    simp only [String.utf8ByteSize_append, hhead, htail, hspace, Option.elim]
    omega

theorem consentBody_noNul (appId : String) (reason : Option String) : hasNul (consentBody appId reason) = false ↔
    hasNul appId = false ∧ ∀ text, reason = some text → hasNul text = false := by
  rw [consentBody_eq]
  have hhead : hasNul "The application '" = false := by decide
  have htail : hasNul "' requests access to your personal information (name and avatar photo)." = false := by decide
  cases reason with
  | none =>
    simp only [hasNul_append, hhead, htail, Option.elim]
    simp [hasNul]
  | some reason =>
    have hspace : hasNul " " = false := by decide
    simp [hasNul_append, hhead, htail, hspace]

theorem consentBody_not_blank (appId : String) (reason : Option String) : ¬ Blank (consentBody appId reason) := by
  rw [consentBody_eq]
  exact not_blank_append (not_blank_append (not_blank_append (by decide)))

/-- What the prompter makes of an accepted GetUserInformation. -/
theorem consentRequest_validate_iff {appId window : String} {options : Options} :
    (consentRequest appId (parentWindow window) (options.string "reason")).validate = .ok () ↔
      (ConsentCall.getUserInformation appId window options).Fits := by
  have htitle : ¬ Blank "Share Personal Information" ∧ Bounded "Share Personal Information" :=
    ⟨by decide, by decide, by decide⟩
  have haccept : ¬ Blank "_Share" ∧ Bounded "_Share" := ⟨by decide, by decide, by decide⟩
  rw [ConfirmRequest.validate_eq_ok]
  simp only [consentRequest, ConsentCall.Fits, parentWindow_bounded_iff]
  constructor
  · rintro ⟨-, ⟨-, hbody⟩, -, -, hwindow⟩
    obtain ⟨happ, hreason⟩ := (consentBody_noNul _ _).1 hbody.noNul
    exact ⟨hwindow, happ, hreason, consentBody_size appId _ ▸ hbody.size⟩
  · rintro ⟨hwindow, happ, hreason, hsize⟩
    have hbody : Bounded (consentBody appId (options.string "reason")) :=
      ⟨consentBody_size appId _ ▸ hsize, (consentBody_noNul _ _).2 ⟨happ, hreason⟩⟩
    refine ⟨htitle, ⟨consentBody_not_blank _ _, hbody⟩, fun label hl => ?_, nofun, hwindow⟩
    cases hl
    exact haccept

end Account

/-- The prompter accepts a served call's stamped confirmation iff the arguments fit and the accent is not black. -/
theorem consent_accepted_iff {call : ConsentCall} {prompt : ConfirmRequest} (preferences : DesktopPreferences)
    (h : call.request = .ok prompt) :
    ((PrompterRequest.confirm prompt).withAppearance (promptAppearance preferences)).validate = .ok () ↔
      call.Fits ∧ preferences.accentColor ≠ some ⟨0, 0, 0⟩ := by
  have haccent :
      (promptAppearance preferences).accentColor = some ⟨0, 0, 0⟩ ↔ preferences.accentColor = some ⟨0, 0, 0⟩ := by
    cases hc : preferences.accentColor with
    | none => simp [promptAppearance, hc]
    | some accent =>
      obtain ⟨red, green, blue⟩ := accent
      simp [promptAppearance, hc]
  have hprompt : prompt.validate = .ok () ↔ call.Fits := by
    cases call with
    | accessDialog window title subtitle body options => exact Access.dialogRequest_validate_iff h
    | getUserInformation appId window options =>
      simp only [ConsentCall.request, Account.accountReason] at h
      split at h
      · cases h
      · cases h
        exact Account.consentRequest_validate_iff
  rw [PrompterRequest.confirm, withAppearance_validate_eq_ok, PromptRequest.validate, hprompt, Ne, haccent]
  exact and_comm

def darkBlue : DesktopPreferences := ⟨.dark, some ⟨0, 0, 139⟩, .normal, false⟩

/-- A dialog with all three texts and its own grant label. -/
theorem consent_accepted_full :
    ∃ prompt, (ConsentCall.accessDialog "wayland:1" "Camera" "App wants the camera" "Video only"
      fun key => if key = "grant_label" then some (.str "_Allow") else none).request = .ok prompt ∧
      ((PrompterRequest.confirm prompt).withAppearance (promptAppearance darkBlue)).validate = .ok () := by
  refine ⟨⟨"Camera", "App wants the camera\n\nVideo only", some "_Allow", none, true, some "wayland:1"⟩,
    by decide +kernel, ?_⟩
  refine (@consent_accepted_iff (.accessDialog "wayland:1" "Camera" "App wants the camera" "Video only"
    fun key => if key = "grant_label" then some (.str "_Allow") else none) _ darkBlue (by decide +kernel)).2
    ⟨⟨⟨by decide, by decide⟩, .inl ⟨by decide, by decide⟩, fun _ _ _ => by decide, fun label hl => ?_⟩, by decide⟩
  have hlabel : "_Allow" = label := by simpa [Options.string] using hl
  rw [← hlabel]
  decide

/-- AccessDialog accepts the call, and the prompter refuses what it asks for. -/
def Refused (call : ConsentCall) (preferences : DesktopPreferences) : Prop :=
  ∃ prompt error, call.request = .ok prompt ∧
    ((PrompterRequest.confirm prompt).withAppearance (promptAppearance preferences)).validate = .error error

/-- A dialog with a title alone, one with a blank grant label, and any dialog under a black accent. -/
theorem consent_refused :
    Refused (.accessDialog "" "Title" "" "" fun _ => none) darkBlue ∧
      Refused (.accessDialog "" "Title" "Sub" "" fun key => if key = "grant_label" then some (.str " ") else none)
        darkBlue ∧
      Refused (.getUserInformation "org.app" "" fun _ => none) ⟨.system, some ⟨0, 0, 0⟩, .normal, false⟩ := by
  refine ⟨⟨⟨"Title", "", none, none, true, none⟩, "confirmation body is empty, oversized, or contains NUL", ?_⟩,
    ⟨⟨"Title", "Sub", some " ", none, true, none⟩, "confirmation accept label is empty, oversized, or contains NUL", ?_⟩,
    ⟨Account.consentRequest "org.app" none none, "appearance accent colour must not be black-transparent", ?_⟩⟩
  all_goals decide +kernel

end AtriumPortal.Portal
