import AtriumPortal.Lib.Text
import AtriumPortal.Portal.Dialogs
import AtriumPortal.Portal.Notification
/-!
# The background consent

`background.rs`: how RequestBackground is validated, and the text of its dialog.
`consent_tells_iff` says exactly when that text announces what a confirmation grants.
-/
open AtriumPortal.Lib.Checks AtriumPortal.Lib.Text AtriumPortal.Prompter
open AtriumPortal.Portal.Notifications (isControl)

namespace AtriumPortal.Portal.Background

/-- The app id becomes a filename. -/
def maxAppIdBytes : Nat := 255
def maxReasonBytes : Nat := 16 * 1024
def maxCommandlineArgs : Nat := 64
def maxArgBytes : Nat := 4 * 1024
/-- The prompter contract's per-text cap. -/
def maxBodyBytes : Nat := 16 * 1024

def checkAppId (appId : String) : Except String Unit :=
  if appId = "" ∨ maxAppIdBytes < appId.utf8ByteSize ∨ appId.toList.any (fun c => c = '/' || c = '\\' || isControl c) then
    .error "app id is empty, oversized, or contains separators/NUL"
  else .ok ()

def checkReason (reason : String) : Except String Unit :=
  if maxReasonBytes < reason.utf8ByteSize ∨ hasNul reason then .error "reason is oversized or contains NUL" else .ok ()

def checkCommandline (commandline : List String) : Except String Unit :=
  if maxCommandlineArgs < commandline.length ∨
      commandline.any (fun arg => arg = "" || decide (maxArgBytes < arg.utf8ByteSize) || hasNul arg) then
    .error "commandline is empty-arg, oversized, or contains NUL"
  else .ok ()

/-- An autostart entry is asked for, with a command to run. -/
def autostarts (options : OptionMap) : Bool := options.bool "autostart" && options.strings "commandline" ≠ []

def autostartSpec (options : OptionMap) : Option AutostartSpec :=
  if autostarts options then some ⟨options.strings "commandline", options.bool "dbus-activatable"⟩ else none

/-! ## The dialog -/

def introduction (appId : String) : String := s!"The application '{appId}' wants to run in the background."

def autostartSentence : String := "The application also wants to start automatically when you log in."

/-- The parts of the body, before it is cut. -/
def wholeBody (appId reason : String) (autostart : Bool) : String :=
  introduction appId ++ (if Blank reason then "" else "\n\n" ++ reason) ++
    if autostart then "\n\n" ++ autostartSentence else ""

/-- The dialog's body, cut at a character boundary with room for the ellipsis. -/
def consentBody (appId reason : String) (autostart : Bool) : String :=
  if maxBodyBytes < (wholeBody appId reason autostart).utf8ByteSize then
    String.ofList (takeBytes (maxBodyBytes - 3) (wholeBody appId reason autostart).toList ++ ['…'])
  else wholeBody appId reason autostart

def consentRequest (appId window reason : String) (autostart : Bool) : ConfirmRequest where
  title := "Run in Background"
  body := consentBody appId reason autostart
  acceptLabel := some "_Allow"
  denyLabel := none
  modal := true
  parentWindow := parentWindow window

def parseRequest (appId window reason : String) (options : OptionMap) :
    Except String (ConfirmRequest × Option AutostartSpec) := do
  checkAppId appId
  checkReason reason
  checkCommandline (options.strings "commandline")
  (consentRequest appId window reason (options.bool "autostart")).validate.mapError
    fun error => s!"composed prompt is invalid: {error}"
  return (consentRequest appId window reason (options.bool "autostart"), autostartSpec options)

/-! ## What is accepted -/

/-- What an accepted request has. -/
structure Accepted (appId window reason : String) (options : OptionMap) (prompt : ConfirmRequest)
    (autostart : Option AutostartSpec) : Prop where
  appIdSize : appId.utf8ByteSize ≤ maxAppIdBytes
  appIdClean : ∀ c ∈ appId.toList, isControl c = false
  argsNonempty : ∀ arg ∈ options.strings "commandline", arg ≠ ""
  prompt_eq : prompt = consentRequest appId window reason (options.bool "autostart")
  autostart_eq : autostart = autostartSpec options

theorem parseRequest_accepted {appId window reason : String} {options : OptionMap} {prompt : ConfirmRequest}
    {autostart : Option AutostartSpec} (h : parseRequest appId window reason options = .ok (prompt, autostart)) :
    Accepted appId window reason options prompt autostart := by
  simp only [parseRequest, andThen_eq_ok] at h
  obtain ⟨happ, -, hcommand, -, h⟩ := h
  obtain ⟨rfl, rfl⟩ := Prod.mk.inj (Except.ok.inj h)
  rw [checkAppId, refuse_eq_ok] at happ
  rw [checkCommandline, refuse_eq_ok] at hcommand
  simp only [not_or, Nat.not_lt, Bool.not_eq_true, List.any_eq_false, Bool.or_eq_true, decide_eq_true_eq] at happ hcommand
  refine ⟨happ.2.1, fun c hc => ?_, fun arg harg => (hcommand.2 arg harg).1.1, rfl, rfl⟩
  exact (happ.2.2 c hc).2

/-! ## What the body tells -/

/-- The body fits the prompter's bound and names the application; where an autostart entry
would be written, it says so. -/
structure Tells (appId body : String) (autostart : Option AutostartSpec) : Prop where
  fits : body.utf8ByteSize ≤ maxPromptTextBytes
  names : appId.toList <:+: body.toList
  announces : autostart.isSome = true → autostartSentence.toList <:+: body.toList

theorem introduction_toList (appId : String) : (introduction appId).toList =
    "The application ".toList ++ '\'' :: (appId.toList ++ '\'' :: " wants to run in the background.".toList) := by
  have heq : introduction appId = "The application '" ++ appId ++ "' wants to run in the background." := rfl
  rw [heq, String.toList_append, String.toList_append]
  simp

theorem introduction_size (appId : String) : size (introduction appId).toList = 50 + appId.utf8ByteSize := by
  have hhead : size "The application ".toList = 16 := by decide
  have htail : size " wants to run in the background.".toList = 32 := by decide
  have hquote : Char.utf8Size '\'' = 1 := by decide
  rw [introduction_toList, size_append, size_cons, size_append, size_cons, hhead, htail, hquote, utf8ByteSize_eq]
  omega

theorem autostartSpec_isSome (options : OptionMap) : (autostartSpec options).isSome = autostarts options := by
  unfold autostartSpec
  split
  · next h => exact h.symm
  · next h => exact (Bool.not_eq_true _ ▸ h).symm

theorem sentence_size : size autostartSentence.toList = 66 := by decide

/-- The bytes of the body with a reason and the announcement. -/
def bodySize (appId reason : String) : Nat := 50 + appId.utf8ByteSize + 2 + reason.utf8ByteSize + 2 + 66

theorem wholeBody_toList (appId reason : String) (autostart : Bool) : (wholeBody appId reason autostart).toList =
    (introduction appId).toList ++ (if Blank reason then [] else '\n' :: '\n' :: reason.toList) ++
      if autostart then '\n' :: '\n' :: autostartSentence.toList else [] := by
  rw [wholeBody, String.toList_append, String.toList_append]
  split <;> split <;> simp

theorem wholeBody_size (appId reason : String) : (wholeBody appId reason true).utf8ByteSize =
    if Blank reason then 50 + appId.utf8ByteSize + 2 + 66 else bodySize appId reason := by
  have hbreak : Char.utf8Size '\n' = 1 := by decide
  rw [utf8ByteSize_eq, wholeBody_toList, if_pos rfl]
  simp only [size_append, size_cons, introduction_size, hbreak, sentence_size]
  split
  · rw [size_nil]
  · simp only [size_cons, hbreak, ← utf8ByteSize_eq, bodySize]
    omega

theorem wholeBody_names (appId reason : String) (autostart : Bool) :
    (introduction appId).toList <+: (wholeBody appId reason autostart).toList := by
  rw [wholeBody_toList, List.append_assoc]
  exact List.prefix_append ..

theorem introduction_names (appId : String) : appId.toList <:+: (introduction appId).toList := by
  rw [introduction_toList]
  exact ⟨"The application '".toList, '\'' :: " wants to run in the background.".toList, by simp⟩

/-- The body always fits. -/
theorem consentBody_fits (appId reason : String) (autostart : Bool) :
    (consentBody appId reason autostart).utf8ByteSize ≤ maxPromptTextBytes := by
  unfold consentBody
  split
  · have hellipsis : Char.utf8Size '…' = 3 := by decide
    have hcut := size_takeBytes_le (maxBodyBytes - 3) (wholeBody appId reason autostart).toList
    rw [utf8ByteSize_ofList, size_append, size_cons, size_nil, hellipsis]
    simp only [maxBodyBytes, maxPromptTextBytes] at hcut ⊢
    omega
  · next h => exact Nat.not_lt.1 h

/-- The introduction is never cut. -/
theorem consentBody_introduction {appId : String} (h : appId.utf8ByteSize ≤ maxAppIdBytes) (reason : String)
    (autostart : Bool) : (introduction appId).toList <+: (consentBody appId reason autostart).toList := by
  have hwhole := wholeBody_names appId reason autostart
  unfold consentBody
  split
  · obtain ⟨rest, hrest⟩ := hwhole
    have hkept : (introduction appId).toList <+: takeBytes (maxBodyBytes - 3) ((introduction appId).toList ++ rest) := by
      apply prefix_takeBytes
      rw [introduction_size]
      simp only [maxAppIdBytes, maxBodyBytes] at h ⊢
      omega
    rw [hrest] at hkept
    rw [String.toList_ofList]
    exact hkept.trans (List.prefix_append ..)
  · exact hwhole

theorem consentBody_names {appId : String} (h : appId.utf8ByteSize ≤ maxAppIdBytes) (reason : String) (autostart : Bool) :
    appId.toList <:+: (consentBody appId reason autostart).toList :=
  (introduction_names appId).trans (consentBody_introduction h reason autostart).isInfix

theorem not_infix_of_short {part text : List Char} (h : size text < size part) : ¬ part <:+: text := by
  rintro ⟨a, b, rfl⟩
  rw [size_append, size_append] at h
  omega

/-- Where the announcement can stand in the whole body: in the app id, in the reason, at the end. -/
theorem announced_in {appId reason : String} (hreason : ¬ Blank reason) {a b : List Char}
    (h : (wholeBody appId reason true).toList = a ++ autostartSentence.toList ++ b) :
    autostartSentence.toList <:+: appId.toList ∨
      (∃ c d, reason.toList = c ++ autostartSentence.toList ++ d ∧ size a = 50 + appId.utf8ByteSize + 2 + size c) ∨
      size a + 66 = bodySize appId reason := by
  have hquote : '\'' ∉ autostartSentence.toList := by decide
  have hbreak : '\n' ∉ autostartSentence.toList := by decide
  have hone : Char.utf8Size '\'' = 1 ∧ Char.utf8Size '\n' = 1 := by decide
  have hshort : ¬ autostartSentence.toList <:+: " wants to run in the background.".toList := not_infix_of_short (by decide)
  rw [wholeBody_toList, if_neg hreason, if_pos rfl, introduction_toList] at h
  simp only [List.append_assoc, List.cons_append] at h
  rw [← List.append_assoc a] at h
  rcases split_around hquote h with ⟨c, hc⟩ | ⟨a₁, ha, h⟩
  · exact absurd ⟨a, c, hc.symm⟩ (not_infix_of_short (by decide))
  rcases split_around hquote h with ⟨c, hc⟩ | ⟨a₂, ha₁, h⟩
  · exact .inl ⟨a₁, c, hc.symm⟩
  rcases split_around hbreak h with ⟨c, hc⟩ | ⟨a₃, ha₂, h⟩
  · exact absurd ⟨a₂, c, hc.symm⟩ (not_infix_of_short (by decide))
  rcases split_around (x := []) hbreak h with ⟨c, hc⟩ | ⟨a₄, ha₃, h⟩
  · exact absurd ⟨a₃, c, hc.symm⟩ (not_infix_of_short (by decide))
  -- The announcement is past the blank line behind the introduction.
  have hstart : size a = 50 + appId.utf8ByteSize + 2 + size a₄ := by
    have hhead : size "The application ".toList = 16 := by decide
    have htail : size " wants to run in the background.".toList = 32 := by decide
    rw [ha, ha₁, ha₂, ha₃, utf8ByteSize_eq]
    simp only [size_append, size_cons, size_nil, hone, hhead, htail]
    omega
  rcases split_around hbreak h with ⟨c, hc⟩ | ⟨a₅, ha₄, h⟩
  · exact .inr (.inl ⟨a₄, c, hc, hstart⟩)
  rcases split_around (x := []) hbreak h with ⟨c, hc⟩ | ⟨a₆, ha₅, h⟩
  · exact absurd ⟨a₅, c, hc.symm⟩ (not_infix_of_short (by decide))
  · refine .inr (.inr ?_)
    have hsize := congrArg size h
    rw [size_append, size_append] at hsize
    rw [hstart, ha₄, ha₅, bodySize, utf8ByteSize_eq reason]
    simp only [size_append, size_cons, size_nil, hone]
    omega

section

variable {appId reason : String} (happ : ∀ c ∈ appId.toList, c.toNat ≠ 0) (hreason : ∀ c ∈ reason.toList, c.toNat ≠ 0)

include happ hreason

theorem wholeBody_noNul (autostart : Bool) : ∀ c ∈ (wholeBody appId reason autostart).toList, c.toNat ≠ 0 := by
  have hhead : ("The application ".toList ++ '\'' :: '\'' :: " wants to run in the background.".toList ++
      '\n' :: '\n' :: autostartSentence.toList).all (fun c => c.toNat ≠ 0) = true := by decide +kernel
  intro c hc
  rw [wholeBody_toList, introduction_toList] at hc
  have hcases : c ∈ appId.toList ∨ c ∈ reason.toList ∨ c ∈ "The application ".toList ++ '\'' :: '\'' ::
      " wants to run in the background.".toList ++ '\n' :: '\n' :: autostartSentence.toList := by
    simp only [List.mem_append, List.mem_cons] at hc ⊢
    grind
  rcases hcases with hin | hin | hin
  · exact happ c hin
  · exact hreason c hin
  · exact of_decide_eq_true (List.all_eq_true.1 hhead c hin)

theorem consentBody_noNul (autostart : Bool) : hasNul (consentBody appId reason autostart) = false := by
  simp only [hasNul, List.any_eq_false, beq_iff_eq]
  intro c hc
  unfold consentBody at hc
  split at hc
  · rw [String.toList_ofList, List.mem_append, List.mem_singleton] at hc
    rcases hc with hc | rfl
    · exact wholeBody_noNul happ hreason autostart c ((takeBytes_start ..).subset hc)
    · decide
  · exact wholeBody_noNul happ hreason autostart c hc

end

/-- The prompter accepts every dialog that the checks let through. -/
theorem consentRequest_valid {appId window reason : String} (happ : checkAppId appId = .ok ())
    (hreason : checkReason reason = .ok ()) (hwindow : Bounded window) (autostart : Bool) :
    (consentRequest appId window reason autostart).validate = .ok () := by
  rw [checkAppId, refuse_eq_ok] at happ
  rw [checkReason, refuse_eq_ok] at hreason
  simp only [not_or, Nat.not_lt, Bool.not_eq_true, List.any_eq_false, Bool.or_eq_true] at happ hreason
  obtain ⟨-, happSize, happClean⟩ := happ
  have happNul : ∀ c ∈ appId.toList, c.toNat ≠ 0 := by
    intro c hc hzero
    have hcontrol : isControl c = true := by simp [isControl, hzero]
    rw [(happClean c hc).2] at hcontrol
    cases hcontrol
  have hreasonNul : ∀ c ∈ reason.toList, c.toNat ≠ 0 := by simpa [hasNul] using hreason.2
  have hbody := consentBody_noNul happNul hreasonNul autostart
  have hshown : ¬ Blank (consentBody appId reason autostart) := by
    intro hblank
    have hT : 'T' ∈ (introduction appId).toList := by simp [introduction_toList]
    have := List.all_eq_true.1 hblank 'T' ((consentBody_introduction happSize reason autostart).subset hT)
    revert this
    decide
  have htitle : ¬ Blank "Run in Background" ∧ Bounded "Run in Background" := ⟨by decide, by decide, by decide⟩
  have haccept : ¬ Blank "_Allow" ∧ Bounded "_Allow" := ⟨by decide, by decide, by decide⟩
  refine ConfirmRequest.validate_eq_ok.2 ⟨htitle, ⟨hshown, consentBody_fits .., hbody⟩, ?_, ?_,
    parentWindow_bounded_iff.2 hwindow⟩
  · rintro label ⟨⟩
    exact haccept
  · rintro label ⟨⟩

/-- A request that the checks let through is accepted. -/
theorem parseRequest_of_checks {appId window reason : String} {options : OptionMap} (happ : checkAppId appId = .ok ())
    (hreason : checkReason reason = .ok ()) (hcommand : checkCommandline (options.strings "commandline") = .ok ())
    (hwindow : Bounded window) : parseRequest appId window reason options =
      .ok (consentRequest appId window reason (options.bool "autostart"), autostartSpec options) := by
  have hvalid := consentRequest_valid happ hreason hwindow (options.bool "autostart")
  simp only [parseRequest, happ, hreason, hcommand, hvalid]
  rfl

/-- In a body that is cut the sentence stands in the app id, or in the reason in front of the cut. -/
theorem consentBody_cut_iff {appId reason : String} (happ : appId.utf8ByteSize ≤ maxAppIdBytes) (hreason : ¬ Blank reason)
    (hcut : maxBodyBytes < bodySize appId reason) : autostartSentence.toList <:+: (consentBody appId reason true).toList ↔
      autostartSentence.toList <:+: appId.toList ∨ ∃ a b, reason.toList = a ++ autostartSentence.toList ++ b ∧
        50 + appId.utf8ByteSize + 2 + size a + 66 ≤ maxBodyBytes - 3 := by
  have hbody : (consentBody appId reason true).toList =
      takeBytes (maxBodyBytes - 3) (wholeBody appId reason true).toList ++ ['…'] := by
    rw [consentBody, if_pos (by rw [wholeBody_size, if_neg hreason]; exact hcut), String.toList_ofList]
  constructor
  · rintro ⟨a, b, hab⟩
    have hkept : autostartSentence.toList <:+: takeBytes (maxBodyBytes - 3) (wholeBody appId reason true).toList := by
      rw [hbody] at hab
      -- the ellipsis is no character of the sentence
      rcases split_around (by decide) hab.symm with ⟨b', hb⟩ | ⟨a', -, hend⟩
      · exact ⟨a, b', hb.symm⟩
      · exact absurd ⟨a', b, hend.symm⟩ (not_infix_of_short (by decide))
    obtain ⟨a, b, hab, hle⟩ := infix_takeBytes_iff.1 hkept
    rw [sentence_size] at hle
    rcases announced_in hreason hab with happId | ⟨c, d, hcd, hsize⟩ | hend
    · exact .inl happId
    · exact .inr ⟨c, d, hcd, by omega⟩
    · omega
  · rintro (happId | ⟨a, b, hab, hle⟩)
    · exact happId.trans (consentBody_names happ reason true)
    · have hkept : autostartSentence.toList <:+: takeBytes (maxBodyBytes - 3) (wholeBody appId reason true).toList := by
        refine infix_takeBytes_iff.2 ⟨(introduction appId).toList ++ '\n' :: '\n' :: a,
          b ++ '\n' :: '\n' :: autostartSentence.toList, ?_, ?_⟩
        · rw [wholeBody_toList, if_neg hreason, if_pos rfl, hab]
          simp
        · have hbreak : Char.utf8Size '\n' = 1 := by decide
          rw [size_append, introduction_size, size_cons, size_cons, hbreak, sentence_size]
          omega
      rw [hbody]
      exact hkept.trans (List.prefix_append ..).isInfix

/-- The body announces autostart iff it is not cut, or the announcement is in what is kept. -/
theorem consentBody_announces_iff {appId reason : String} (happ : appId.utf8ByteSize ≤ maxAppIdBytes) :
    autostartSentence.toList <:+: (consentBody appId reason true).toList ↔
      (Blank reason ∨ bodySize appId reason ≤ maxBodyBytes) ∨ autostartSentence.toList <:+: appId.toList ∨
        ∃ a b, reason.toList = a ++ autostartSentence.toList ++ b ∧
          50 + appId.utf8ByteSize + 2 + size a + 66 ≤ maxBodyBytes - 3 := by
  by_cases hcut : maxBodyBytes < (wholeBody appId reason true).utf8ByteSize
  · have hreason : ¬ Blank reason := by
      intro hblank
      rw [wholeBody_size, if_pos hblank] at hcut
      simp only [maxAppIdBytes, maxBodyBytes] at happ hcut
      omega
    rw [wholeBody_size, if_neg hreason] at hcut
    rw [consentBody_cut_iff happ hreason hcut]
    exact (or_iff_right fun h => h.elim hreason (Nat.not_le.2 hcut)).symm
  · have hfits : Blank reason ∨ bodySize appId reason ≤ maxBodyBytes := by
      rw [wholeBody_size] at hcut
      by_cases hblank : Blank reason
      · exact .inl hblank
      · rw [if_neg hblank] at hcut
        exact .inr (Nat.not_lt.1 hcut)
    refine iff_of_true ?_ (.inl hfits)
    rw [consentBody, if_neg hcut, wholeBody_toList, if_pos rfl]
    exact ((List.suffix_append ['\n', '\n'] autostartSentence.toList).trans (List.suffix_append ..)).isInfix

/-- The consent text tells what is granted exactly when no autostart entry is asked for, or the
announcement is not cut off, or the app id or the kept start of the reason contains it. -/
theorem consent_tells_iff {appId window reason : String} {options : OptionMap} {prompt : ConfirmRequest}
    {autostart : Option AutostartSpec} (h : parseRequest appId window reason options = .ok (prompt, autostart)) :
    Tells appId prompt.body autostart ↔ autostarts options = false ∨
      (Blank reason ∨ bodySize appId reason ≤ maxBodyBytes) ∨ autostartSentence.toList <:+: appId.toList ∨
        ∃ a b, reason.toList = a ++ autostartSentence.toList ++ b ∧
          50 + appId.utf8ByteSize + 2 + size a + 66 ≤ maxBodyBytes - 3 := by
  have haccepted := parseRequest_accepted h
  have happ := haccepted.appIdSize
  rw [haccepted.prompt_eq, haccepted.autostart_eq]
  cases hasked : autostarts options with
  | false =>
    refine iff_of_true ⟨consentBody_fits .., consentBody_names happ .., fun hsome => ?_⟩ (.inl rfl)
    rw [autostartSpec_isSome, hasked] at hsome
    cases hsome
  | true =>
    have hbool : options.bool "autostart" = true := (Bool.and_eq_true_iff.1 hasked).1
    rw [consentRequest, hbool, ← consentBody_announces_iff happ]
    constructor
    · exact fun htells => .inr (htells.announces (by rw [autostartSpec_isSome, hasked]))
    · rintro (hno | hsays)
      · cases hno
      · exact ⟨consentBody_fits .., consentBody_names happ .., fun _ => hsays⟩


/-- Autostart with a command. -/
def loginOptions : OptionMap
  | "autostart" => some (.bool true)
  | "commandline" => some (.strings ["run"])
  | _ => none

/-- A short reason leaves the announcement in the dialog. -/
theorem consent_tells_iff_short : Tells "org.app" (consentRequest "org.app" "" "To sync." true).body
    (some ⟨["run"], false⟩) := by
  have hok : parseRequest "org.app" "" "To sync." loginOptions = .ok (_, some ⟨["run"], false⟩) :=
    parseRequest_of_checks (by decide) (by decide) (by decide) bounded_empty
  exact (consent_tells_iff hok).2 (.inr (.inl (.inr (by decide))))

/-- A reason as long as it may be takes the announcement's place. -/
theorem consent_cut : ∃ prompt spec,
    parseRequest "org.app" "" (String.ofList (List.replicate maxReasonBytes 'a')) loginOptions = .ok (prompt, some spec) ∧
      ¬ Tells "org.app" prompt.body (some spec) := by
  have hsize : ∀ n, size (List.replicate n 'a') = n := by
    intro n
    have hone : Char.utf8Size 'a' = 1 := by decide
    induction n with
    | zero => rfl
    | succ n ih => rw [List.replicate_succ, size_cons, ih, hone, Nat.add_comm]
  obtain ⟨n, hn⟩ : ∃ n, n = maxReasonBytes := ⟨_, rfl⟩
  rw [← hn]
  have hreason : checkReason (String.ofList (List.replicate n 'a')) = .ok () := by
    rw [checkReason, refuse_eq_ok, utf8ByteSize_ofList, hsize, ← hn]
    simp [hasNul]
  have hcut : ¬ autostartSentence.toList <:+: (consentBody "org.app" (String.ofList (List.replicate n 'a')) true).toList := by
    have hpositive : n ≠ 0 := by
      rintro rfl
      cases hn
    have hshown : ¬ Blank (String.ofList (List.replicate n 'a')) := by
      simp [Blank, hpositive]
      decide
    rw [consentBody_announces_iff (by decide)]
    rintro ((hblank | hfits) | happ | ⟨a, b, hab, -⟩)
    · exact hshown hblank
    · rw [bodySize, utf8ByteSize_ofList (List.replicate n 'a'), hsize] at hfits
      simp only [maxBodyBytes, maxReasonBytes] at hfits hn
      omega
    · exact absurd happ (not_infix_of_short (by decide))
    · -- The reason has no capital T.
      have hT : 'T' ∈ List.replicate n 'a' := by
        rw [← String.toList_ofList (l := List.replicate n 'a'), hab]
        exact List.mem_append_left b (List.mem_append_right a (by decide))
      cases List.eq_of_mem_replicate hT
  have hok : parseRequest "org.app" "" (String.ofList (List.replicate n 'a')) loginOptions = .ok (_, _) :=
    parseRequest_of_checks (by decide) hreason (by decide) bounded_empty
  have hasked : loginOptions.bool "autostart" = true := rfl
  have hspec : autostartSpec loginOptions = some ⟨["run"], false⟩ := rfl
  rw [hasked, hspec] at hok
  refine ⟨_, _, hok, fun htells => ?_⟩
  exact hcut (htells.announces rfl)

end AtriumPortal.Portal.Background
