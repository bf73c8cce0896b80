import AtriumPortal.ScreenCast.Consent
/-!
# What a request may arm

Whether a SelectSources call that replies 0 armed a source of a requested type,
which the negotiated protocol can stream with its cursor mode. The desktop is
offered to every client, and a stored selection is restored as it is, so the
answer depends on what is restored and chosen.
-/
open AtriumPortal.Lib.Interact AtriumPortal.Lib.Runs AtriumPortal.Prompter

namespace AtriumPortal.ScreenCast

/-- The source type bit Start reports for a source. -/
def CastSource.typeBit : CastSource → Nat
  | .monitor _ => SelectSources.sourceTypeMonitor
  | .window _ => SelectSources.sourceTypeWindow

/-- The sources a protocol can stream: older ones capture the whole desktop only. -/
def CastSource.streamable (protocol : Nat) : CastSource → Bool
  | .monitor none => true
  | .monitor (some _) => SelectSources.perSourceProtocol ≤ protocol
  | .window _ => SelectSources.perSourceProtocol ≤ protocol

namespace SelectSources

/-- The selection is one the client asked for and the protocol serves. -/
structure Serves (options : SelectOptions) (protocol : Nat) (selection : StartSelection) : Prop where
  requested : options.sourceTypes &&& selection.source.typeBit ≠ 0
  streamable : selection.source.streamable protocol = true
  cursor : cursorServable protocol selection.cursorMode = true

/-! ## What a call is given -/

/-- The outcome of the version query, the outputs the chooser lists, the chooser's
answer, and what validating the presented token restores. -/
structure Given where
  version : Except String Nat
  outputs : List Ipc.OutputInfo
  answer : Except InvokeError PromptResult
  restored : Option (Nat × StoredSelection)

/-- A stored entry that `validate` can return for the application. -/
def Restorable (appId : String) (protocol : Nat) (x : Nat × StoredSelection) : Prop :=
  (x.1 = 1 ∨ x.1 = 2) ∧ x.2.appId = appId ∧ (sourceOfStored x.2.source).streamable protocol = true

namespace Given

variable (g : Given) (appId : String) (options : SelectOptions)

def protocol : Nat := negotiated g.version

def chooser : ChooseSourceRequest :=
  chooserRequest appId (choices options g.protocol g.outputs) (0 < options.persistMode)

/-- An action of the call is answered as given. -/
def fits : (a : Action) → a.Answer → Prop
  | .protocolVersion, b => b = g.version
  | .validate _ _ _ _, b => b.restored = g.restored
  | .invoke request, b => request = .chooseSource (g.chooser appId options) ∧ b = g.answer
  | _, _ => True

def Met (t : List (Sigma Action.Answer)) : Prop := ∀ x ∈ t, g.fits appId options x.1 x.2

/-- What a token restores: only a client that asks for persistence presents one. -/
def presented : Option (Nat × StoredSelection) :=
  if options.restoreToken.isSome ∧ 0 < options.persistMode then g.restored else none

/-- The chooser's answer is accepted, and names the desktop or an output. -/
def ChoosesMonitor : Prop :=
  (g.chooser appId options).validate = .ok () ∧ ∃ id remember,
    g.answer = .ok (.chooseSource (.selected id remember)) ∧
      (ChooseSourceResponse.selected id remember).validateFor (g.chooser appId options) = .ok () ∧ id ≠ "window"

/-- A call that arms a session arms what was requested: it is refused, or what it
restores fits, or it restores nothing and monitors are requested or not chosen. -/
def Keeps : Prop :=
  validateSelect options g.protocol = .ok () →
    match g.presented options with
    | some x =>
      Restorable appId g.protocol x →
        options.sourceTypes &&& sourceTypeMonitor ≠ 0 ∧ cursorServable g.protocol x.2.cursorMode = true
    | none => options.sourceTypes &&& sourceTypeMonitor ≠ 0 ∨ ¬ g.ChoosesMonitor appId options

end Given

/-! ## Validated options -/

theorem validateSelect_eq_ok {options : SelectOptions} {protocol : Nat} (h : validateSelect options protocol = .ok ()) :
    validateSelectShape options = .ok () ∧ options.sourceTypes &&& availableTypes protocol ≠ 0 ∧
      cursorServable protocol options.cursorMode = true := by
  unfold validateSelect at h
  split at h
  · cases h
  · next hshape =>
    split at h
    · cases h
    · next htypes =>
      split at h
      · next hcursor => exact ⟨hshape, htypes, hcursor⟩
      · cases h

/-- A client that does not take monitors is offered its windows, or refused. -/
theorem windowOffered_of_no_monitor {options : SelectOptions} {protocol : Nat}
    (h : validateSelect options protocol = .ok ()) (hno : options.sourceTypes &&& sourceTypeMonitor = 0) :
    windowOffered options protocol = true := by
  obtain ⟨-, htypes, -⟩ := validateSelect_eq_ok h
  unfold availableTypes at htypes
  split at htypes
  · next hp =>
    rw [Nat.and_or_distrib_left, hno, Nat.zero_or] at htypes
    simp [windowOffered, hp, htypes]
  · exact absurd hno htypes

theorem length_choices_of_window {options : SelectOptions} {protocol : Nat} (h : windowOffered options protocol = true)
    (outputs : List Ipc.OutputInfo) : (choices options protocol outputs).length ≠ 1 := by
  simp [choices, h]

/-! ## What each part arms -/

/-- An action that arms no session with anything but these selections. -/
def Arming (P : StartSelection → Prop) : Action → Prop
  | .markSourcesSelected _ _ selection => P selection
  | _ => True

/-- The parts before `mark_selected` arm nothing. -/
abbrev Quiet : Action → Prop := Arming fun _ => False

theorem markSelected_uses (sessionPath appId : String) (selection : StartSelection) :
    (markSelected sessionPath appId selection).Uses (Arming (· = selection)) := by
  refine ⟨trivial, fun closed => ?_⟩
  cases closed with
  | true => trivial
  | false => exact ⟨rfl, fun answer => by cases answer <;> trivial⟩

theorem Passive.quiet {a : Action} (h : Passive a) : Quiet a := by
  cases a <;> trivial

theorem Restoring.quiet {a : Action} (h : Restoring a) : Quiet a := by
  cases a <;> trivial

theorem grant_uses (appId : String) (options : SelectOptions) (sender : Option String) (remember : Bool)
    (source : CastSource) {P : StartSelection → Prop} :
    (grant appId options sender remember source).Uses (Arming P) := by
  unfold grant
  split
  · split
    · exact ⟨trivial, fun _ => trivial⟩
    · trivial
  · trivial

/-- What is confirmed is armed, with the cursor mode of the request. -/
theorem confirm_uses (sessionPath appId : String) (options : SelectOptions) (sender : Option String) (remember : Bool)
    (source : CastSource) :
    (confirm sessionPath appId options sender remember source).Uses
      (Arming fun selection => selection.source = source ∧ selection.cursorMode = options.cursorMode) := by
  refine ⟨trivial, fun answer => ?_⟩
  rcases answer with _ | _ | _
  · trivial
  · refine ⟨trivial, fun closed => ?_⟩
    cases closed with
    | true => trivial
    | false =>
      refine Prog.Uses.bind (grant_uses appId options sender remember source) fun grant => ?_
      refine (markSelected_uses sessionPath appId _).mono fun a ha => ?_
      cases a with
      | markSourcesSelected sessionPath appId selection =>
        obtain rfl : selection = _ := ha
        exact ⟨rfl, rfl⟩
      | _ => trivial
  · trivial

/-! ## What the parts return -/

/-- The validations of a run found only what a store can hold for the application. -/
def sound : (a : Action) → a.Answer → Prop
  | .validate _ appId protocol _, b => ∀ x, b.restored = some x → Restorable appId protocol x
  | _, _ => True

/-- What the parts of a call may take from its earlier actions. -/
def Given.Holds (g : Given) (appId : String) (options : SelectOptions) (t : List (Sigma Action.Answer)) : Prop :=
  ∀ x ∈ t, g.fits appId options x.1 x.2 ∧ sound x.1 x.2

theorem restore_returns (g : Given) (appId : String) (options : SelectOptions) :
    (restore appId options g.protocol).Ends fun t restored => g.Holds appId options t →
      restored.map (·.2) = g.presented options ∧ ∀ x, g.presented options = some x → Restorable appId g.protocol x := by
  unfold restore Given.presented
  split
  · next hno =>
    intro _
    simp [hno]
  · next token htoken =>
    split
    · next hpersist =>
      refine Prog.Ends.bind_any fun enumerating outputs validated written hholds => ?_
      have hfits := hholds ⟨.validate token appId g.protocol outputs, validated⟩ (by simp)
      have hrestored : validated.restored = g.restored := hfits.1
      simp only [htoken, hpersist, Option.isSome_some, and_self, if_true, Option.map_map, ← hrestored]
      exact ⟨Option.map_id' , hfits.2⟩
    · next hpersist =>
      intro _
      simp [hpersist]

/-- The desktop and the outputs are monitors, the window is what was picked. -/
theorem selectedSource_returns (options : SelectOptions) (protocol : Nat) (selected : String) :
    (selectedSource options protocol selected).Ends fun _ result => ∀ source, result = .ok source →
      source.streamable protocol = true ∧
        (source.typeBit = sourceTypeMonitor ∧ selected ≠ "window" ∨
          source.typeBit = sourceTypeWindow ∧ windowOffered options protocol = true) := by
  unfold selectedSource
  split
  · next h =>
    rintro source ⟨⟩
    exact ⟨rfl, .inl ⟨rfl, by rw [h]; decide⟩⟩
  · split
    · next h =>
      have hp : perSourceProtocol ≤ protocol := by simpa [windowOffered] using (Bool.and_eq_true_iff.1 h.2).1
      refine Prog.Ends.bind fun answer => ?_
      rcases answer with _ | _ | _ | id | _ | _
      case ok.window =>
        rintro source ⟨⟩
        exact ⟨by simpa [CastSource.streamable] using hp, .inr ⟨rfl, h.2⟩⟩
      all_goals exact fun source hs => nomatch hs
    · split
      · next h =>
        rintro source ⟨⟩
        refine ⟨by simpa [CastSource.streamable] using h.2, .inl ⟨rfl, ?_⟩⟩
        rintro rfl
        exact absurd h.1 (by decide)
      · exact fun source hs => nomatch hs

/-- Without a chooser no window was offered; else the chooser's answer was accepted. -/
theorem choose_returns (g : Given) (appId : String) (options : SelectOptions) :
    (choose appId options g.protocol).Ends fun t chosen => g.Holds appId options t → ∀ selected remember,
      chosen = .ok (selected, remember) →
        windowOffered options g.protocol = false ∨ selected = "window" ∨ g.ChoosesMonitor appId options := by
  refine Prog.Ends.bind_any fun enumerating outputs => ?_
  split
  · next hone =>
    intro _ _ _ _
    refine .inl (Bool.eq_false_iff.2 fun hw => ?_)
    exact length_choices_of_window hw outputs hone
  · unfold chooseSource
    split
    · exact fun _ _ _ h => nomatch h
    · next hvalid =>
      intro answer
      rcases answer with (_ | _) | (_ | _ | _ | _ | response | _ | _)
      case ok.chooseSource =>
        intro closed
        cases closed with
        | true => exact fun _ _ _ h => nomatch h
        | false =>
          simp only [Bool.false_eq_true, if_false]
          split
          · exact fun _ _ _ h => nomatch h
          · next haccepted =>
            split
            · next source remember =>
              intro hholds selected remember' heq
              cases heq
              by_cases hw : source = "window"
              · exact .inr (.inl hw)
              · obtain ⟨⟨hrequest, hanswer⟩, -⟩ := hholds _ (List.mem_append_right _ List.mem_cons_self)
                have hchooser : chooserRequest appId (choices options g.protocol outputs) (0 < options.persistMode)
                    = g.chooser appId options := by simpa [PrompterRequest.chooseSource] using hrequest
                rw [hchooser] at hvalid haccepted
                exact .inr (.inr ⟨hvalid, source, remember, hanswer.symm, haccepted, hw⟩)
            · exact fun _ _ _ h => nomatch h
      all_goals exact fun _ _ _ h => nomatch h

/-! ## A call that is given the right things -/

variable {g : Given} {appId : String} {options : SelectOptions}

theorem Given.Holds.right {t t' : List (Sigma Action.Answer)} (h : g.Holds appId options (t ++ t')) :
    g.Holds appId options t' :=
  fun x hx => h x (List.mem_append_right _ hx)

theorem Given.Holds.left {t t' : List (Sigma Action.Answer)} (h : g.Holds appId options (t ++ t')) :
    g.Holds appId options t :=
  fun x hx => h x (List.mem_append_left _ hx)

/-- Every selection the actions arm serves the request. -/
def AllServe (options : SelectOptions) (protocol : Nat) (t : List (Sigma Action.Answer)) : Prop :=
  ∀ x ∈ t, Arming (Serves options protocol) x.1

theorem AllServe.after {protocol : Nat} {u t : List (Sigma Action.Answer)} (hq : ∀ x ∈ u, Quiet x.1)
    (h : AllServe options protocol t) : AllServe options protocol (u ++ t) := by
  intro x hx
  rcases List.mem_append.1 hx with hx | hx
  · have hquiet := hq x hx
    obtain ⟨a, b⟩ := x
    cases a with
    | markSourcesSelected sessionPath appId selection => exact hquiet.elim
    | _ => trivial
  · exact h x hx

/-- With monitors requested, or not chosen, the dialogs arm what was requested. -/
theorem interactive_serves (hvalid : validateSelect options g.protocol = .ok ())
    (hm : options.sourceTypes &&& sourceTypeMonitor ≠ 0 ∨ ¬ g.ChoosesMonitor appId options) (sessionPath : String)
    (sender : Option String) :
    (interactive sessionPath appId options sender g.protocol).Ends fun t _ =>
      g.Holds appId options t → AllServe options g.protocol t := by
  have hcursor := (validateSelect_eq_ok hvalid).2.2
  have hchoosing := ((choose_passive appId options g.protocol).mono fun _ => Passive.quiet).ends
  refine Prog.Ends.bind (((choose_returns g appId options).and hchoosing).mono ?_)
  rintro choosing chosen ⟨hchosen, hq⟩
  rcases chosen with code | ⟨selected, remember⟩
  · intro _
    exact AllServe.after hq fun x hx => nomatch hx
  · intro closed
    cases closed with
    | true => exact fun _ => AllServe.after hq fun x hx => by obtain rfl := List.mem_singleton.1 hx; trivial
    | false =>
      have hpicking := ((selectedSource_passive options g.protocol selected).mono fun _ => Passive.quiet).ends
      refine Prog.Ends.bind (((selectedSource_returns options g.protocol selected).and hpicking).mono ?_)
      rintro picking result ⟨hsource, hq'⟩
      have hquiet : ∀ x ∈ choosing ++ ⟨.wasClosed, false⟩ :: picking, Quiet x.1 := by
        intro x hx
        rcases List.mem_append.1 hx with hx | hx
        · exact hq x hx
        · rcases List.mem_cons.1 hx with rfl | hx
          · trivial
          · exact hq' x hx
      cases result with
      | error code => exact fun _ => by simpa using AllServe.after hquiet (t := []) fun x hx => nomatch hx
      | ok source =>
        refine (confirm_uses sessionPath appId options sender remember source).ends.mono fun t _ harms hholds => ?_
        obtain ⟨hstream, htype⟩ := hsource source rfl
        have hbit : options.sourceTypes &&& source.typeBit ≠ 0 := by
          rcases htype with ⟨hbit, hnot⟩ | ⟨hbit, hoffered⟩
          · -- A monitor: it was requested, or neither the shortcut nor the chooser chose it.
            rw [hbit]
            intro hno
            rcases hchosen hholds.left selected remember rfl with hw | hw | hw
            · exact absurd (windowOffered_of_no_monitor hvalid hno) (by simp [hw])
            · exact hnot hw
            · exact hm.elim (· hno) (· hw)
          · rw [hbit]
            simpa using (Bool.and_eq_true_iff.1 hoffered).2
        have hserve : AllServe options g.protocol t := by
          intro x hx
          have hx := harms x hx
          obtain ⟨a, b⟩ := x
          cases a with
          | markSourcesSelected sessionPath appId selection =>
            obtain ⟨rfl, hmode⟩ := hx
            exact ⟨hbit, hstream, hmode ▸ hcursor⟩
          | _ => trivial
        simpa using AllServe.after hquiet hserve

theorem selectSources_serves (hk : g.Keeps appId options) (sessionPath : String) (sender : Option String) :
    (selectSources sessionPath appId options sender).Ends fun t _ =>
      g.Holds appId options t → AllServe options g.protocol t := by
  intro closed
  cases closed with
  | true => exact fun _ x hx => by obtain rfl := List.mem_singleton.1 hx; trivial
  | false =>
    intro version
    by_cases hversion : version = g.version
    case neg => exact (Prog.ends_trivial _).mono fun t _ _ hholds => absurd (hholds ⟨.protocolVersion, version⟩ (by simp)).1 hversion
    subst hversion
    have hstart : ∀ x ∈ ([⟨.wasClosed, false⟩, ⟨.protocolVersion, g.version⟩] : List (Sigma Action.Answer)), Quiet x.1 := by
      simp [Quiet, Arming]
    dsimp only
    split
    · exact fun _ => AllServe.after hstart (t := []) fun x hx => nomatch hx
    · next hvalid =>
      have hkeeps := hk hvalid
      have hrestoring := ((restore_uses appId options g.protocol).mono fun _ => Restoring.quiet).ends
      refine Prog.Ends.bind (((restore_returns g appId options).and hrestoring).mono ?_)
      rintro restoring restored ⟨hreturns, hq⟩
      rcases restored with _ | ⟨token, mode, stored⟩
      · by_cases hpresented : g.presented options = none
        · rw [hpresented] at hkeeps
          refine (interactive_serves hvalid hkeeps sessionPath sender).mono fun t _ hserve hholds => ?_
          have hholds : g.Holds appId options (restoring ++ t) := hholds.right (t := [_, _])
          exact AllServe.after hstart (AllServe.after hq (hserve hholds.right))
        · refine (Prog.ends_trivial _).mono fun t _ _ hholds => absurd ?_ hpresented
          have hholds : g.Holds appId options (restoring ++ t) := hholds.right (t := [_, _])
          exact (hreturns hholds.left).1.symm
      · refine (markSelected_uses sessionPath appId _).ends.mono fun t _ harms hholds => ?_
        have hholds : g.Holds appId options (restoring ++ t) := hholds.right (t := [_, _])
        obtain ⟨hpresented, hrestorable⟩ := hreturns hholds.left
        have hpresented : g.presented options = some (mode, stored) := hpresented.symm
        rw [hpresented] at hkeeps
        obtain ⟨hmonitor, hcursor⟩ := hkeeps (hrestorable _ hpresented)
        refine AllServe.after hstart (AllServe.after hq fun x hx => ?_)
        have hx := harms x hx
        obtain ⟨a, b⟩ := x
        cases a with
        | markSourcesSelected sessionPath appId selection =>
          obtain rfl : selection = _ := hx
          have hbit : (sourceOfStored stored.source).typeBit = sourceTypeMonitor := by cases stored.source <;> rfl
          exact ⟨hbit ▸ hmonitor, (hrestorable _ hpresented).2.2, hcursor⟩
        | _ => trivial

/-- Under the condition, whatever a call arms serves its request. -/
theorem run_serves {map : OptionsMap} (hk : g.Keeps appId (parseSelectOptions map)) (sessionPath : String)
    (sender : Option String) :
    (run sessionPath appId map sender).Ends fun t _ =>
      g.Holds appId (parseSelectOptions map) t → AllServe (parseSelectOptions map) g.protocol t := by
  have hquiet : ∀ t : List (Sigma Action.Answer), (∀ x ∈ t, Opening x.1) → ∀ x ∈ t, Quiet x.1 :=
    fun t h x hx => (h x hx).passive.quiet
  refine run_ends (fun t _ hopening _ _ => ?_) fun start hopening => ?_
  · simpa using AllServe.after (hquiet t hopening) (t := []) fun x hx => nomatch hx
  · refine (selectSources_serves hk sessionPath sender).mono fun t code hserve hholds => ?_
    exact AllServe.after (hquiet start hopening) (hserve hholds.right)

end SelectSources

end AtriumPortal.ScreenCast
