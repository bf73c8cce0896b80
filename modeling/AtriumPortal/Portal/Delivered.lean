import AtriumPortal.Portal.Notification
import AtriumPortal.Prompter.NotifyFrames
/-!
# Notifications on the stream

A notification that the portal accepts, written as a command frame and read by the
daemon. `arrives_iff`: it arrives as it is exactly when no shown label is longer than
256 bytes; the portal counts 256 characters.
-/
open AtriumPortal.Lib.Checks AtriumPortal.Lib.Stream
open AtriumPortal.Prompter AtriumPortal.Prompter.NotifyFrames
open AtriumPortal.Lib.JsonText (quoted writeList)
open AtriumPortal.Lib.Path (Bytes)

namespace AtriumPortal.Portal.Notifications

/-! ## The labels that are shown -/

/-- A button with an action and a label is shown. -/
def shownLabel (button : String → Option String) : Option String :=
  match (button "action").filter (· ≠ "") with
  | none => none
  | some _ => (button "label").filter (· ≠ "")

/-- The labels of the shown buttons of a dictionary. -/
def shownLabels (map : Vardict) : List String :=
  match map "buttons" with
  | some (.dicts wire) => wire.filterMap shownLabel
  | _ => []

theorem buttonOf_label {button : String → Option String} {l : List NotifyButton} (h : buttonOf button = .ok l) :
    l.map (·.label) = (shownLabel button).toList := by
  unfold buttonOf at h
  split at h
  · next haction =>
    cases h
    rw [shownLabel, haction]
    rfl
  · next action haction =>
    rw [shownLabel, haction]
    obtain ⟨-, h⟩ := andThen_eq_ok.1 h
    split at h
    · next hlabel =>
      cases h
      rw [hlabel]
      rfl
    · next label hlabel =>
      obtain ⟨-, h⟩ := andThen_eq_ok.1 h
      cases h
      rw [hlabel]
      rfl

theorem buttonsOf_labels {wire : List (String → Option String)} {l : List NotifyButton} (h : buttonsOf wire = .ok l) :
    l.map (·.label) = wire.filterMap shownLabel := by
  induction wire generalizing l with
  | nil =>
    cases h
    rfl
  | cons button wire ih =>
    simp only [buttonsOf, bind_eq_ok] at h
    obtain ⟨shown, hshown, others, hothers, h⟩ := h
    cases h
    rw [List.map_append, buttonOf_label hshown, ih hothers, List.filterMap_cons]
    cases shownLabel button <;> rfl

theorem parseButtons_labels {map : Vardict} {l : List NotifyButton} (h : parseButtons map = .ok l) :
    l.map (·.label) = shownLabels map := by
  unfold parseButtons at h
  unfold shownLabels
  split at h
  · next hnone =>
    cases h
    rw [hnone]
    rfl
  · next wire hwire =>
    rw [hwire]
    exact buttonsOf_labels (refuseThen_eq_ok.1 h).2
  · cases h

/-- A card is closed after ten seconds at most, or never. -/
theorem expireHint_le {priority : Priority} {hints : List String} {seconds : Nat}
    (h : expireHint priority hints = some seconds) : seconds ≤ 10 := by
  have hstep : ∀ (hints : List String) (start : Option Nat), (∀ s, start = some s → s ≤ 10) → ∀ s,
      hints.foldl (fun expire hint =>
        if hint = "transient" then some 5 else if hint = "persistent" then none else expire) start = some s → s ≤ 10 := by
    -- the last of the two hints counts, so the bound is carried along
    intro hints
    induction hints with
    | nil => exact fun start hstart => hstart
    | cons hint hints ih =>
      intro start hstart
      refine ih _ fun s hs => ?_
      dsimp only at hs
      split at hs
      · cases hs
        decide
      · split at hs
        · cases hs
        · exact hstart s hs
  refine hstep hints _ (fun s hs => ?_) seconds h
  cases priority <;> cases hs <;> decide

theorem parseNotification_content {appId id : String} {map : Vardict} {n : Notification}
    (h : parseNotification appId id map = .ok n) :
    n.buttons.map (·.label) = shownLabels map ∧ Representable (.notify n) := by
  simp only [parseNotification, bind_eq_ok] at h
  obtain ⟨_, -, _, -, _, -, _, -, _, -, _, -, buttons, hbuttons, h⟩ := h
  cases h
  exact ⟨parseButtons_labels hbuttons, fun seconds hs => Nat.lt_of_le_of_lt (expireHint_le hs) (by decide)⟩

/-! ## Arriving -/

/-- The notification's frame is one line, which a call returns whole wherever the stream goes on with
it, and it decodes to the same notification. -/
def Arrives (fromSlice : Bytes → Except String CommandFrame) (n : Notification) : Prop :=
  ∃ line, (CommandFrame.new (.notify n)).encode = .ok (line ++ [newline]) ∧ newline ∉ line ∧
    (∀ r rest, Calm r → content r = line ++ newline :: rest →
      ∃ r', readLineBounded r = (.ok (some (.ok (line ++ [newline]))), r') ∧ Calm r' ∧ content r' = rest) ∧
    CommandFrame.decode fromSlice (line ++ [newline]) = .ok (.new (.notify n))

theorem arrives_of_valid {fromSlice : Bytes → Except String CommandFrame} (hinv : Inverts fromSlice) {n : Notification}
    (h : n.validate = .ok ()) (hr : Representable (.notify n)) : Arrives fromSlice n := by
  have hfits := length_line h hr
  refine ⟨toVec (.new (.notify n)), rfl, newline_toVec _, fun r rest hcalm hr => ?_, ?_⟩
  · rw [List.length_append] at hfits
    exact readLineBounded_calm hcalm (hr ▸ nextLine_short (newline_toVec _) (by omega) rest)
  · rw [decode_encode hinv hr hfits]
    show (n.validate).map _ = _
    rw [h]
    rfl

/-- What decodes has passed the daemon's checks. -/
theorem valid_of_decode {fromSlice : Bytes → Except String CommandFrame} {line : Bytes} {n : Notification}
    (h : CommandFrame.decode fromSlice line = .ok (.new (.notify n))) : n.validate = .ok () := by
  unfold CommandFrame.decode at h
  split at h
  · cases h
  split at h
  · cases h
  · next frame _ =>
    split at h
    · cases h
    · obtain ⟨hcheck, hframe⟩ := andThen_eq_ok.1 h
      cases hframe
      exact hcheck

/-- An accepted notification reaches the daemon intact exactly when every shown label is at most
256 bytes long. -/
theorem arrives_iff {fromSlice : Bytes → Except String CommandFrame} (hinv : Inverts fromSlice) {appId id : String}
    {map : Vardict} {n : Notification} (h : parseNotification appId id map = .ok n) :
    Arrives fromSlice n ↔ ∀ label ∈ shownLabels map, label.utf8ByteSize ≤ maxLabelBytes := by
  obtain ⟨hlabels, hr⟩ := parseNotification_content h
  rw [← hlabels, List.forall_mem_map, ← (parseNotification_parsed h).validate_iff]
  constructor
  · rintro ⟨line, -, -, -, hdecode⟩
    exact valid_of_decode hdecode
  · exact fun hvalid => arrives_of_valid hinv hvalid hr

/-- A card with one button. -/
def card (label : String) : Vardict := fun key =>
  if key = "title" then some (.str "New \"mail\"")
  else if key = "buttons" then
    some (.dicts [fun key => if key = "action" then some "open" else if key = "label" then some label else none])
  else none

def cardNotification (label : String) : Notification :=
  ⟨"org.app", "n1", "New \"mail\"", "", .normal, none, [⟨"open", label⟩], some 10⟩

theorem arrives_iff_card : Arrives fromSlice (cardNotification "Öffnen\n") :=
  (arrives_iff fromSlice_inverts (show parseNotification "org.app" "n1" (card "Öffnen\n") = .ok (cardNotification "Öffnen\n")
    by decide +kernel)).2 (by decide +kernel)

/-- 129 characters of two bytes each. -/
def accented : String := String.ofList (List.replicate 129 'é')

theorem parse_card {label : String} (hne : label ≠ "") (hlabel : checkLabel label = .ok ()) :
    parseNotification "org.app" "n1" (card label) = .ok (cardNotification label) := by
  have hbuttons : parseButtons (card label) = .ok [⟨"open", label⟩] := by
    have haction : validId "open" = .ok () := by decide +kernel
    simp [parseButtons, card, buttonsOf, buttonOf, maxButtons, haction, hlabel, hne, Option.filter]
    rfl
  have happ : validId "org.app" = .ok () := by decide +kernel
  have hid : validId "n1" = .ok () := by decide +kernel
  have htitle : checkTitle "New \"mail\"" = .ok () := by decide +kernel
  have hbody : checkBody "" = .ok () := by decide +kernel
  have hsome : checkSomeText "New \"mail\"" "" = .ok () := by decide +kernel
  have hmail : (card label).string "title" = some "New \"mail\"" := rfl
  have hempty : bodyOf (card label) = "" := rfl
  have hdefault : (card label).string "default-action" = none := rfl
  rw [parseNotification, happ, hid, hmail, hempty, hdefault, hbuttons, Option.getD_some, htitle, hbody, hsome]
  rfl

theorem cardNotification_refused {label : String} (hsize : maxLabelBytes < label.utf8ByteSize) :
    (cardNotification label).validate = .error "button label is empty, oversized, or contains NUL" := by
  have happ : bounded "app id" "org.app" maxAppIdBytes = .ok () := by decide +kernel
  have hid : bounded "notification id" "n1" maxNotificationIdBytes = .ok () := by decide +kernel
  have htexts : (cardNotification label).checkTexts = .ok () := by
    have hbounded : ¬(maxTitleBytes < "New \"mail\"".utf8ByteSize ∨ maxBodyBytes < "".utf8ByteSize ∨
        hasNul "New \"mail\"" = true ∨ hasNul "" = true) := by decide +kernel
    exact if_neg hbounded
  have hsome : (cardNotification label).checkSomeText = .ok () := by
    have htitled : ¬(Blank "New \"mail\"" ∧ Blank "") := by decide +kernel
    exact if_neg htitled
  have hcount : (cardNotification label).checkButtonCount = .ok () := rfl
  have haction : bounded "button action" "open" maxActionBytes = .ok () := by decide +kernel
  have hlabel : bounded "button label" label maxLabelBytes = .error "button label is empty, oversized, or contains NUL" :=
    if_pos (.inr (.inl hsize))
  rw [Notification.validate, htexts, hsome, hcount]
  simp only [cardNotification, happ, hid, checkSome, checkAll, NotifyButton.validate, haction, hlabel]
  rfl

theorem accented_size : accented.utf8ByteSize = 258 := utf8ByteSize_replicate 129 'é'

theorem quoted_accented : quoted accented = List.replicate 129 'é' ++ ['"'] := by
  have haccented : accented = String.ofList (List.replicate 129 'é') := rfl
  rw [haccented, quoted, String.toList_ofList]
  decide +kernel

/-- The daemon refuses a notification that the portal accepts. -/
theorem card_refused : Inverts fromSlice ∧ parseNotification "org.app" "n1" (card accented) = .ok (cardNotification accented) ∧
    (∃ line, (CommandFrame.new (.notify (cardNotification accented))).encode = .ok line ∧
      CommandFrame.decode fromSlice line = .error "button label is empty, oversized, or contains NUL") ∧
    ¬ Arrives fromSlice (cardNotification accented) := by
  have hrefused : (cardNotification accented).validate = .error "button label is empty, oversized, or contains NUL" :=
    cardNotification_refused (by rw [accented_size]; decide)
  have hparse : parseNotification "org.app" "n1" (card accented) = .ok (cardNotification accented) := by
    have hne : accented ≠ "" := by
      intro hempty
      have hsize := accented_size
      rw [hempty] at hsize
      cases hsize
    exact parse_card hne (checkLabel_replicate (show 129 ≤ maxLabelChars by decide) (show 'é'.toNat ≠ 0 by decide))
  have hr : Representable (.notify (cardNotification accented)) := by
    rintro seconds ⟨⟩
    decide
  have hfits : (toVec (.new (.notify (cardNotification accented))) ++ [newline]).length ≤ maxNotifyLineBytes := by
    rw [List.length_append, toVec, Lib.Text.length_bytes, Lib.Text.utf8ByteSize_ofList]
    simp only [write, CommandFrame.new, writeCommand, writeContent, cardNotification, writeList, writeButton, quoted_accented]
    decide +kernel
  refine ⟨fromSlice_inverts, hparse, ⟨_, rfl, ?_⟩, ?_⟩
  · rw [decode_encode fromSlice_inverts hr hfits]
    show ((cardNotification accented).validate).map _ = _
    rw [hrefused]
    rfl
  · rintro ⟨line, -, -, -, hdecode⟩
    have hvalid := valid_of_decode hdecode
    rw [hrefused] at hvalid
    cases hvalid

end AtriumPortal.Portal.Notifications
