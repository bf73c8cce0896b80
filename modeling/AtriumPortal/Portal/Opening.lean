import AtriumPortal.Apps.SetDefault
import AtriumPortal.Lib.Cancel
import AtriumPortal.Portal.Choosers
import AtriumPortal.Portal.OpenUri
import AtriumPortal.Portal.Workers
/-!
# Opening and choosing applications

The workers of `open_uri.rs` and `app_chooser.rs`: look at the tracker, read the
desktop entries, show the chooser, launch, and record the default. What is launched
is the default or was chosen among the applications offered, once; what is recorded
was chosen with the checkbox ticked; and a remembered choice opens without a dialog.
-/
open AtriumPortal.Apps AtriumPortal.Lib.Interact AtriumPortal.Prompter

namespace AtriumPortal.Portal.Opening

inductive ChooseAppResponse where
  | selected (app : String) (choices : List (String × String))
  | cancelled
  deriving DecidableEq, Repr

/-- The selected application was offered, and each choice is answered with one of its values. -/
def ChooseAppResponse.validateFor (request : ChooseAppRequest) : ChooseAppResponse → Except String Unit
  | .selected app choices =>
    if request.apps.any (·.id = app) then validateChoiceAnswers choices request.choices
    else .error s!"prompter returned an app that was not offered: {repr app}"
  | .cancelled => .ok ()

/-- What a worker asks its surroundings for. `invoke` is `prompter::invoke` with all it does;
`none` is an answer of another kind. -/
inductive Action where
  | wasClosed
  /-- `AppDirs::from_env` and what is read of the directories before the next action. -/
  | fromEnv
  | invoke (request : ChooseAppRequest)
  | spawn (program : String) (args : List String)
  | setDefaultApp (contentType desktopId : String)
  deriving DecidableEq, Repr

@[reducible] def Action.Answer : Action → Type
  | .wasClosed => Bool
  | .fromEnv => AppDirs
  | .invoke _ => Except InvokeError (Option ChooseAppResponse)
  | .spawn _ _ => Except String Unit
  | .setDefaultApp _ _ => Except IoError Unit

abbrev Work (R : Type) : Type := Prog Action Action.Answer R
abbrev Trace : Type := List (Sigma Action.Answer)

/-! ## OpenURI -/

/-- A tick in a checkbox that means "make this the default". -/
def remembers (choices : List (String × String)) : Bool :=
  choices.any fun (id, value) => id ∈ AppChooser.rememberIds && value = "true"

def launchApp (app : AppInfo) (uri : String) : Work (Except String Unit) :=
  if app.terminal then
    .ret (.error s!"default application '{app.id}' needs a terminal, which the portal does not launch")
  else
    match launch app.exec [uri] with
    | .error _ => .ret (.error s!"could not launch '{app.id}'")
    | .ok (program, args) =>
      .ask (.spawn program args) fun
        | .ok () => .ret (.ok ())
        | .error error => .ret (.error s!"could not launch '{app.id}': {error}")

/-- What is done with an accepted selection. -/
def openSelected (uri contentType app : String) (choices : List (String × String)) : Work PortalResponse :=
  .ask .fromEnv fun dirs =>
    match dirs.appById app with
    | none => .ret ⟨2, []⟩
    | some appInfo =>
      (launchApp appInfo uri).bind fun
        | .error _ => .ret ⟨2, []⟩
        | .ok () =>
          -- a default that cannot be recorded is only reported
          if remembers choices then .ask (.setDefaultApp contentType app) fun _ => .ret ⟨0, []⟩ else .ret ⟨0, []⟩

/-- The answer of a chooser: what both workers make of it, up to the selection. -/
def answered (request : ChooseAppRequest) (selected : String → List (String × String) → Work PortalResponse) :
    Except InvokeError (Option ChooseAppResponse) → Work PortalResponse
  | .ok (some response) =>
    -- Request.Close wins a race with a completed child response.
    .ask .wasClosed fun closed =>
      if closed then .ret ⟨1, []⟩
      else
        match response.validateFor request with
        | .error _ => .ret ⟨2, []⟩
        | .ok () =>
          match response with
          | .selected app choices => selected app choices
          | .cancelled => .ret ⟨1, []⟩
  | .error .cancelled => .ret ⟨1, []⟩
  | .ok none => .ret ⟨2, []⟩
  | .error (.failed _) => .ret ⟨2, []⟩

def runChooser (appId uri contentType : String) (parentWindow : Option String) (candidates : List AppChoice) :
    Work PortalResponse :=
  let request := OpenUri.chooserRequest appId contentType parentWindow candidates
  match request.validate with
  | .error _ => .ret ⟨2, []⟩
  | .ok () => .ask (.invoke request) (answered request (openSelected uri contentType))

def runOpen (appId uri contentType : String) (parentWindow : Option String) (ask : Bool) : Work PortalResponse :=
  .ask .wasClosed fun closed =>
    if closed then .ret ⟨1, []⟩
    else .ask .fromEnv fun dirs =>
      match OpenUri.decide dirs contentType ask with
      | .launch app =>
        (launchApp app uri).bind fun
          | .ok () => .ret ⟨0, []⟩
          | .error _ => .ret ⟨2, []⟩
      | .nothing => .ret ⟨2, []⟩
      | .choose candidates => runChooser appId uri contentType parentWindow candidates

/-! ## AppChooser -/

/-- What is done with an accepted selection: it is relayed. -/
def relaySelected (contentType app : String) (choices : List (String × String)) : Work PortalResponse :=
  if remembers choices then .ask (.setDefaultApp contentType app) fun _ => .ret ⟨0, [("choice", .str app)]⟩
  else .ret ⟨0, [("choice", .str app)]⟩

def runDialog (request : ChooseAppRequest) : Work PortalResponse :=
  .ask .wasClosed fun closed =>
    if closed then .ret ⟨1, []⟩ else .ask (.invoke request) (answered request (relaySelected request.contentType))

/-! ## What a trace did -/

/-- The command of an attempt to launch. -/
def attempt : Sigma Action.Answer → Option (String × List String)
  | ⟨.spawn program args, _⟩ => some (program, args)
  | _ => none

/-- The command of an attempt that succeeded. -/
def launched : Sigma Action.Answer → Option (String × List String)
  | ⟨.spawn program args, .ok ()⟩ => some (program, args)
  | _ => none

/-- The default that was asked to be recorded. -/
def recorded : Sigma Action.Answer → Option (String × String)
  | ⟨.setDefaultApp contentType desktopId, _⟩ => some (contentType, desktopId)
  | _ => none

def prompt : Sigma Action.Answer → Option ChooseAppRequest
  | ⟨.invoke request, _⟩ => some request
  | _ => none

/-- The user chose the application in a dialog that offered it. -/
def Chosen (t : Trace) (app : String) (choices : List (String × String)) : Prop :=
  ∃ request, ⟨.invoke request, .ok (some (.selected app choices))⟩ ∈ t ∧ app ∈ request.apps.map (·.id)

/-- The entry runs as this command on the URI. -/
def Runs (app : AppInfo) (uri : String) (command : String × List String) : Prop :=
  app.terminal = false ∧ launch app.exec [uri] = .ok command

/-- What a chooser's worker does around its dialog, and what it records. -/
structure Asks (contentType : String) (t : Trace) (r : PortalResponse) : Prop where
  once : (t.filterMap prompt).length ≤ 1
  /-- The tracker is looked at again before an answer is used. -/
  rechecked : ∀ pre post request response, t = pre ++ ⟨.invoke request, .ok (some response)⟩ :: post →
    ∃ closed rest, post = ⟨.wasClosed, closed⟩ :: rest
  /-- A Close that is seen ends the request with nothing done. -/
  closed : ⟨.wasClosed, true⟩ ∈ t → r.code = 1 ∧ t.filterMap attempt = [] ∧ t.filterMap recorded = []
  /-- What is recorded was chosen with the box ticked, of a request that succeeds. -/
  recorded : ∀ record ∈ t.filterMap recorded, r.code = 0 ∧
    ∃ app choices, record = (contentType, app) ∧ Chosen t app choices ∧ remembers choices = true

/-- What OpenURI does: it launches the default without asking, or what was chosen among the
applications that can open the content type. -/
structure Opens (uri contentType : String) (ask : Bool) (t : Trace) (r : PortalResponse) : Prop extends
    Asks contentType t r where
  single : (t.filterMap attempt).length ≤ 1
  replies : r.code = 0 ↔ t.filterMap launched ≠ []
  source : ∀ command ∈ t.filterMap attempt, ∃ dirs app, ⟨.fromEnv, dirs⟩ ∈ t ∧ Runs app uri command ∧
    ((ask = false ∧ t.filterMap prompt = [] ∧ dirs.defaultApp contentType = some app) ∨
      ((∃ choices, Chosen t app.id choices) ∧ dirs.appById app.id = some app))
  offered : ∀ request ∈ t.filterMap prompt, ∃ dirs, ⟨.fromEnv, dirs⟩ ∈ t ∧
    ∀ choice ∈ request.apps, ∃ app ∈ dirs.appsForContentType contentType, app.terminal = false ∧ choice = appChoice app

/-- What AppChooser does: it launches nothing and relays what was chosen. -/
structure Relays (contentType : String) (t : Trace) (r : PortalResponse) : Prop extends Asks contentType t r where
  idle : t.filterMap attempt = []
  relays : r.code = 0 → ∃ app choices, r.results = [("choice", .str app)] ∧ Chosen t app choices

/-! ## The dialog -/

variable {uri contentType : String} {request : ChooseAppRequest}

theorem launchApp_ends (app : AppInfo) (uri : String) : (launchApp app uri).Ends fun t r =>
    (t = [] ∧ (∃ error, r = .error error) ∧ ∀ command, ¬ Runs app uri command) ∨ ∃ command, Runs app uri command ∧
      ((t = [⟨.spawn command.1 command.2, .ok ()⟩] ∧ r = .ok ()) ∨
        ∃ error error', t = [⟨.spawn command.1 command.2, .error error⟩] ∧ r = .error error') := by
  unfold launchApp
  cases hterminal : app.terminal with
  | true => exact .inl ⟨rfl, ⟨_, rfl⟩, fun command hruns => by cases hterminal.symm.trans hruns.1⟩
  | false =>
    simp only [Bool.false_eq_true, if_false]
    cases hlaunch : launch app.exec [uri] with
    | error error => exact .inl ⟨rfl, ⟨_, rfl⟩, fun command hruns => by cases hlaunch.symm.trans hruns.2⟩
    | ok command =>
      intro spawned
      cases spawned with
      | ok _ => exact .inr ⟨command, ⟨hterminal, hlaunch⟩, .inl ⟨rfl, rfl⟩⟩
      | error error => exact .inr ⟨command, ⟨hterminal, hlaunch⟩, .inr ⟨error, _, rfl, rfl⟩⟩

/-- What is done with a selection, once it is accepted. -/
structure Acts (contentType app : String) (choices : List (String × String)) (t : Trace) (r : PortalResponse) : Prop where
  silent : t.filterMap prompt = []
  unlooked : ∀ closed, ⟨.wasClosed, closed⟩ ∉ t
  recorded : ∀ record ∈ t.filterMap recorded, r.code = 0 ∧ record = (contentType, app) ∧ remembers choices = true

/-- The outcome of a dialog: nothing is done, or what is done with a selection. -/
def Outcome (request : ChooseAppRequest) (selected : String → List (String × String) → Trace → PortalResponse → Prop)
    (t : Trace) (r : PortalResponse) : Prop :=
  (∃ answer, t = [⟨.invoke request, answer⟩] ∧ (∀ response, answer ≠ .ok (some response)) ∧ r.code ≠ 0) ∨
  (∃ response, t = [⟨.invoke request, .ok (some response)⟩, ⟨.wasClosed, true⟩] ∧ r.code = 1) ∨
  (∃ response, t = [⟨.invoke request, .ok (some response)⟩, ⟨.wasClosed, false⟩] ∧ r.code ≠ 0) ∨
  ∃ app choices t', t = ⟨.invoke request, .ok (some (.selected app choices))⟩ :: ⟨.wasClosed, false⟩ :: t' ∧
    app ∈ request.apps.map (·.id) ∧ selected app choices t' r

theorem dialog_ends {selected : String → List (String × String) → Work PortalResponse}
    {Q : String → List (String × String) → Trace → PortalResponse → Prop}
    (h : ∀ app choices, (selected app choices).Ends (Q app choices)) :
    (Prog.ask (.invoke request) (answered request selected) : Work PortalResponse).Ends (Outcome request Q) := by
  intro answer
  rcases answer with (_ | message) | (_ | response)
  · exact .inl ⟨_, rfl, nofun, by decide⟩
  · exact .inl ⟨_, rfl, nofun, by decide⟩
  · exact .inl ⟨_, rfl, nofun, by decide⟩
  · intro closed
    cases closed with
    | true => exact .inr (.inl ⟨response, rfl, rfl⟩)
    | false =>
      simp only [Bool.false_eq_true, if_false]
      cases hvalid : response.validateFor request with
      | error error => exact .inr (.inr (.inl ⟨response, rfl, by decide⟩))
      | ok _ =>
        cases response with
        | cancelled => exact .inr (.inr (.inl ⟨_, rfl, by decide⟩))
        | selected app choices =>
          have hoffered : app ∈ request.apps.map (·.id) := by
            rw [ChooseAppResponse.validateFor] at hvalid
            split at hvalid
            · next hany =>
              obtain ⟨choice, hin, hid⟩ := List.any_eq_true.1 hany
              exact List.mem_map.2 ⟨choice, hin, of_decide_eq_true hid⟩
            · cases hvalid
          exact (h app choices).mono fun t r hq => .inr (.inr (.inr ⟨app, choices, t, rfl, hoffered, hq⟩))

/-- A selection of OpenURI is launched at most once, and recorded only behind that. -/
structure OpensSelected (uri contentType app : String) (choices : List (String × String)) (t : Trace)
    (r : PortalResponse) : Prop extends Acts contentType app choices t r where
  single : (t.filterMap attempt).length ≤ 1
  replies : r.code = 0 ↔ t.filterMap launched ≠ []
  source : ∀ command ∈ t.filterMap attempt, ∃ dirs info, ⟨.fromEnv, dirs⟩ ∈ t ∧ Runs info uri command ∧
    dirs.appById app = some info

theorem openSelected_ends (uri contentType app : String) (choices : List (String × String)) :
    (openSelected uri contentType app choices).Ends (OpensSelected uri contentType app choices) := by
  intro dirs
  cases happ : dirs.appById app with
  | none =>
    simp only [happ]
    exact Prog.ends_ret.2 ⟨⟨rfl, by simp, nofun⟩, Nat.zero_le _, by simp [launched], nofun⟩
  | some info =>
    simp only [happ]
    refine Prog.Ends.bind ((launchApp_ends info uri).mono ?_)
    rintro t r (⟨rfl, ⟨error, rfl⟩, -⟩ | ⟨command, hruns, ⟨rfl, rfl⟩ | ⟨error, error', rfl, rfl⟩⟩)
    · exact Prog.ends_ret.2 ⟨⟨rfl, by simp, nofun⟩, Nat.zero_le _, by simp [launched], nofun⟩
    · have hsource : ∀ t : Trace, ∀ launch ∈ [command], ∃ dirs' info', ⟨.fromEnv, dirs'⟩ ∈ ⟨.fromEnv, dirs⟩ :: t ∧
          Runs info' uri launch ∧ dirs'.appById app = some info' := by
        intro t launch hlaunch
        obtain rfl := List.mem_singleton.1 hlaunch
        exact ⟨dirs, info, List.mem_cons_self, hruns, happ⟩
      simp only
      split
      · next htick =>
        intro result
        refine Prog.ends_ret.2 ⟨⟨rfl, by simp, fun record hrecord => ?_⟩, Nat.le_refl _, by simp [launched], hsource _⟩
        obtain rfl : (contentType, app) = record := by simpa [recorded] using hrecord
        exact ⟨rfl, rfl, htick⟩
      · exact Prog.ends_ret.2 ⟨⟨rfl, by simp, nofun⟩, Nat.le_refl _, by simp [launched], hsource _⟩
    · refine Prog.ends_ret.2 ⟨⟨rfl, by simp, nofun⟩, Nat.le_refl _, by simp [launched], ?_⟩
      intro launch hlaunch
      obtain rfl : command = launch := by simpa [attempt] using hlaunch
      exact ⟨dirs, info, List.mem_cons_self, hruns, happ⟩

/-! ## From the dialog to the request -/

theorem Chosen.append {t : Trace} {app : String} {choices : List (String × String)} (h : Chosen t app choices)
    (before : Trace) : Chosen (before ++ t) app choices := by
  obtain ⟨request, hin, hoffered⟩ := h
  exact ⟨request, List.mem_append_right before hin, hoffered⟩

/-- Without a prompt there is no answer to one. -/
theorem not_invoke {t : Trace} (h : t.filterMap prompt = []) (request : ChooseAppRequest)
    (answer : Except InvokeError (Option ChooseAppResponse)) : ⟨.invoke request, answer⟩ ∉ t := by
  intro hin
  have hprompt : request ∈ t.filterMap prompt := List.mem_filterMap.2 ⟨_, hin, rfl⟩
  rw [h] at hprompt
  cases hprompt

/-- What comes before the dialog: looks that find no Close, and the directories. -/
def Before (before : Trace) : Prop := ∀ x ∈ before, x = ⟨.wasClosed, false⟩ ∨ ∃ dirs, x = ⟨.fromEnv, dirs⟩

theorem Before.nothing {X : Type} {before : Trace} (h : Before before) (f : Sigma Action.Answer → Option X)
    (hlook : f ⟨.wasClosed, false⟩ = none) (hdirs : ∀ dirs, f ⟨.fromEnv, dirs⟩ = none) : before.filterMap f = [] := by
  rw [List.filterMap_eq_nil_iff]
  intro x hx
  rcases h x hx with rfl | ⟨dirs, rfl⟩
  · exact hlook
  · exact hdirs dirs

theorem Before.prompt {before : Trace} (h : Before before) : before.filterMap prompt = [] :=
  h.nothing _ rfl fun _ => rfl

theorem Asks.behind {before t : Trace} {r : PortalResponse} (hbefore : Before before) (h : Asks contentType t r) :
    Asks contentType (before ++ t) r where
  once := by
    rw [List.filterMap_append, hbefore.prompt]
    exact h.once
  rechecked pre post request response heq := by
    rcases append_eq_mid_iff.1 heq with ⟨mid, hin, -⟩ | ⟨mid, -, ht⟩
    · exact absurd (hin ▸ List.mem_append_right pre List.mem_cons_self) (not_invoke hbefore.prompt _ _)
    · exact h.rechecked mid post request response ht
  closed hin := by
    have hin : ⟨.wasClosed, true⟩ ∈ t := by
      rcases List.mem_append.1 hin with hin | hin
      · rcases hbefore _ hin with heq | ⟨dirs, heq⟩ <;> cases heq
      · exact hin
    rw [List.filterMap_append, List.filterMap_append, hbefore.nothing attempt rfl fun _ => rfl,
      hbefore.nothing Opening.recorded rfl fun _ => rfl]
    exact h.closed hin
  recorded record hrecord := by
    rw [List.filterMap_append, hbefore.nothing Opening.recorded rfl fun _ => rfl] at hrecord
    obtain ⟨hcode, app, choices, hsame, hchosen, htick⟩ := h.recorded record hrecord
    exact ⟨hcode, app, choices, hsame, hchosen.append before, htick⟩

/-- A request that ends before its dialog. -/
theorem asks_before {before : Trace} (hbefore : Before before) (r : PortalResponse) : Asks contentType before r where
  once := by
    rw [hbefore.prompt]
    exact Nat.zero_le _
  rechecked pre post request response heq :=
    absurd (heq ▸ List.mem_append_right pre List.mem_cons_self) (not_invoke hbefore.prompt _ _)
  closed hin := by rcases hbefore _ hin with heq | ⟨dirs, heq⟩ <;> cases heq
  recorded record hrecord := by
    rw [hbefore.nothing Opening.recorded rfl fun _ => rfl] at hrecord
    cases hrecord

/-- In a dialog that is answered the tracker is looked at next. -/
theorem dialog_rechecked {answer : Except InvokeError (Option ChooseAppResponse)} {closed : Bool} {t pre post : Trace}
    {shown : ChooseAppRequest} {response : ChooseAppResponse} (hsilent : t.filterMap prompt = [])
    (h : ⟨.invoke request, answer⟩ :: ⟨.wasClosed, closed⟩ :: t = pre ++ ⟨.invoke shown, .ok (some response)⟩ :: post) :
    ∃ closed rest, post = ⟨.wasClosed, closed⟩ :: rest := by
  cases pre with
  | nil =>
    cases h
    exact ⟨closed, t, rfl⟩
  | cons x pre =>
    have hrest : ⟨.wasClosed, closed⟩ :: t = pre ++ ⟨.invoke shown, .ok (some response)⟩ :: post := (List.cons.inj h).2
    have hin : ⟨.invoke shown, .ok (some response)⟩ ∈ (⟨.wasClosed, closed⟩ :: t : Trace) :=
      hrest ▸ List.mem_append_right pre List.mem_cons_self
    rcases List.mem_cons.1 hin with heq | hin
    · cases heq
    · exact absurd hin (not_invoke hsilent _ _)

theorem Outcome.asks {Q : String → List (String × String) → Trace → PortalResponse → Prop} {t : Trace} {r : PortalResponse}
    (hq : ∀ app choices t r, Q app choices t r → Acts contentType app choices t r) (h : Outcome request Q t r) :
    Asks contentType t r := by
  rcases h with ⟨answer, rfl, hanswer, -⟩ | ⟨response, rfl, hcode⟩ | ⟨response, rfl, -⟩ | ⟨app, choices, t', rfl, hoffered, h⟩
  · refine ⟨Nat.le_refl _, fun pre post _ response heq => ?_, by simp, nofun⟩
    cases pre with
    | nil =>
      cases heq
      exact absurd rfl (hanswer response)
    | cons x pre => simp at heq
  · exact ⟨Nat.le_refl _, fun _ _ _ _ heq => dialog_rechecked rfl heq, fun _ => ⟨hcode, rfl, rfl⟩, nofun⟩
  · exact ⟨Nat.le_refl _, fun _ _ _ _ heq => dialog_rechecked rfl heq, by simp, nofun⟩
  · have hacts := hq app choices t' r h
    refine ⟨?_, fun _ _ _ _ heq => dialog_rechecked hacts.silent heq, fun hin => ?_, fun record hrecord => ?_⟩
    · have hprompt : (⟨.invoke request, .ok (some (.selected app choices))⟩ :: ⟨.wasClosed, false⟩ :: t' : Trace).filterMap
          prompt = request :: t'.filterMap prompt := rfl
      rw [hprompt, hacts.silent]
      exact Nat.le_refl _
    · simp only [List.mem_cons, Sigma.mk.injEq, reduceCtorEq, false_and, true_and, false_or, heq_eq_eq,
        Bool.true_eq_false] at hin
      exact absurd hin (hacts.unlooked true)
    · obtain ⟨hcode, rfl, htick⟩ := hacts.recorded record hrecord
      exact ⟨hcode, app, choices, rfl, ⟨request, List.mem_cons_self, hoffered⟩, htick⟩

/-! ## OpenURI -/

theorem candidates_offered {dirs : AppDirs} {contentType : String} {ask : Bool} {candidates : List AppChoice}
    (h : OpenUri.decide dirs contentType ask = .choose candidates) :
    ∀ choice ∈ candidates, ∃ app ∈ dirs.appsForContentType contentType, app.terminal = false ∧ choice = appChoice app := by
  have hchoose : OpenUri.choose dirs contentType = .choose candidates := by
    unfold OpenUri.decide at h
    split at h
    · split at h
      · exact h
      · cases h
    · exact h
  unfold OpenUri.choose at hchoose
  split at hchoose
  · cases hchoose
  · cases hchoose
    intro choice hchoice
    obtain ⟨app, happ, rfl⟩ := List.mem_map.1 ((orderCandidates_perm _ _).mem_iff.1 hchoice)
    obtain ⟨hin, hterminal⟩ := List.mem_filter.1 happ
    exact ⟨app, hin, by simpa using hterminal, rfl⟩

theorem decide_launch {dirs : AppDirs} {contentType : String} {ask : Bool} {app : AppInfo}
    (h : OpenUri.decide dirs contentType ask = .launch app) : ask = false ∧ dirs.defaultApp contentType = some app := by
  unfold OpenUri.decide at h
  split at h
  · next hdefault =>
    split at h
    · unfold OpenUri.choose at h
      split at h <;> cases h
    · next hask =>
      cases h
      exact ⟨by simpa using hask, hdefault⟩
  · unfold OpenUri.choose at h
    split at h <;> cases h

/-- A request that launches nothing and fails. -/
theorem opens_nothing {ask : Bool} {before : Trace} (hbefore : Before before) {r : PortalResponse} (hr : r.code ≠ 0) :
    Opens uri contentType ask before r where
  toAsks := asks_before hbefore r
  single := by
    rw [hbefore.nothing attempt rfl fun _ => rfl]
    exact Nat.zero_le _
  replies := by
    rw [hbefore.nothing launched rfl fun _ => rfl]
    exact ⟨fun h => absurd h hr, fun h => absurd rfl h⟩
  source command hcommand := by
    rw [hbefore.nothing attempt rfl fun _ => rfl] at hcommand
    cases hcommand
  offered request hrequest := by
    rw [hbefore.prompt] at hrequest
    cases hrequest

theorem before_dirs (dirs : AppDirs) : Before [⟨.wasClosed, false⟩, ⟨.fromEnv, dirs⟩] := by
  intro x hx
  simp only [List.mem_cons, List.not_mem_nil, or_false] at hx
  rcases hx with rfl | rfl
  · exact .inl rfl
  · exact .inr ⟨dirs, rfl⟩

/-- The default is launched without a dialog. -/
theorem opens_default {dirs : AppDirs} {app : AppInfo} {command : String × List String} {spawned : Except String Unit}
    {r : PortalResponse} (hdefault : dirs.defaultApp contentType = some app) (hruns : Runs app uri command)
    (hr : r.code = 0 ↔ spawned = .ok ()) :
    Opens uri contentType false [⟨.wasClosed, false⟩, ⟨.fromEnv, dirs⟩, ⟨.spawn command.1 command.2, spawned⟩] r where
  once := Nat.zero_le _
  rechecked pre post request response heq := by
    have hin : ⟨.invoke request, .ok (some response)⟩ ∈ ([⟨.wasClosed, false⟩, ⟨.fromEnv, dirs⟩,
        ⟨.spawn command.1 command.2, spawned⟩] : Trace) := heq ▸ List.mem_append_right pre List.mem_cons_self
    exact absurd hin (not_invoke rfl _ _)
  closed hin := by simp at hin
  recorded := nofun
  single := Nat.le_refl _
  replies := by
    rw [hr]
    cases spawned <;> simp [launched]
  source launch hlaunch := by
    obtain rfl : command = launch := by simpa [attempt] using hlaunch
    exact ⟨dirs, app, by simp, hruns, .inl ⟨rfl, rfl, hdefault⟩⟩
  offered := nofun

/-- What the dialog's answer comes to, behind the reading of the directories. -/
theorem opens_chosen {dirs : AppDirs} {ask : Bool} {t : Trace} {r : PortalResponse}
    (hoffered : ∀ choice ∈ request.apps, ∃ app ∈ dirs.appsForContentType contentType,
      app.terminal = false ∧ choice = appChoice app)
    (h : Outcome request (OpensSelected uri contentType) t r) :
    Opens uri contentType ask ([⟨.wasClosed, false⟩, ⟨.fromEnv, dirs⟩] ++ t) r := by
  have hasks : Asks contentType ([⟨.wasClosed, false⟩, ⟨.fromEnv, dirs⟩] ++ t) r :=
    (h.asks fun app choices t r hq => hq.toActs).behind (before_dirs dirs)
  have hprompts : ∀ shown ∈ ([⟨.wasClosed, false⟩, ⟨.fromEnv, dirs⟩] ++ t : Trace).filterMap prompt, shown = request := by
    intro shown hshown
    have hshown : shown ∈ t.filterMap prompt := hshown
    rcases h with ⟨answer, rfl, -, -⟩ | ⟨response, rfl, -⟩ | ⟨response, rfl, -⟩ | ⟨app, choices, t', rfl, -, hq⟩
    · exact List.mem_singleton.1 hshown
    · exact List.mem_singleton.1 hshown
    · exact List.mem_singleton.1 hshown
    · have hprompt : (⟨.invoke request, .ok (some (.selected app choices))⟩ :: ⟨.wasClosed, false⟩ :: t' : Trace).filterMap
          prompt = request :: t'.filterMap prompt := rfl
      rw [hprompt, hq.silent] at hshown
      exact List.mem_singleton.1 hshown
  have hshown : ∀ shown ∈ ([⟨.wasClosed, false⟩, ⟨.fromEnv, dirs⟩] ++ t : Trace).filterMap prompt, ∃ dirs',
      ⟨.fromEnv, dirs'⟩ ∈ ([⟨.wasClosed, false⟩, ⟨.fromEnv, dirs⟩] ++ t : Trace) ∧ ∀ choice ∈ shown.apps,
        ∃ app ∈ dirs'.appsForContentType contentType, app.terminal = false ∧ choice = appChoice app := by
    intro shown hin
    rw [hprompts shown hin]
    exact ⟨dirs, by simp, hoffered⟩
  rcases h with ⟨answer, rfl, -, hr⟩ | ⟨response, rfl, hr⟩ | ⟨response, rfl, hr⟩ | ⟨app, choices, t', rfl, hin, hq⟩
  · exact ⟨hasks, Nat.zero_le _, by simp [launched, hr], nofun, hshown⟩
  · exact ⟨hasks, Nat.zero_le _, by simp [launched, hr], nofun, hshown⟩
  · exact ⟨hasks, Nat.zero_le _, by simp [launched, hr], nofun, hshown⟩
  · refine ⟨hasks, hq.single, hq.replies, fun command hcommand => ?_, hshown⟩
    obtain ⟨dirs', info, hdirs, hruns, hfound⟩ := hq.source command hcommand
    have hid : info.id = app := appById_id hfound
    refine ⟨dirs', info, by simp [hdirs], hruns, .inr ⟨⟨choices, request, by simp [hid], hid ▸ hin⟩, hid ▸ hfound⟩⟩

theorem runOpen_ends (appId uri contentType : String) (parentWindow : Option String) (ask : Bool) :
    (runOpen appId uri contentType parentWindow ask).Ends (Opens uri contentType ask) := by
  intro closed
  cases closed with
  | true =>
    refine Prog.ends_ret.2 ⟨⟨Nat.zero_le _, ?_, fun _ => ⟨rfl, rfl, rfl⟩, nofun⟩, Nat.zero_le _, by simp [launched], nofun,
      nofun⟩
    intro pre post request response heq
    cases pre <;> simp at heq
  | false =>
    intro dirs
    have hbefore := before_dirs dirs
    cases hdecide : OpenUri.decide dirs contentType ask with
    | nothing =>
      simp only [hdecide]
      exact Prog.ends_ret.2 (opens_nothing hbefore (by decide))
    | launch app =>
      obtain ⟨rfl, hdefault⟩ := decide_launch hdecide
      simp only [hdecide]
      refine Prog.Ends.bind ((launchApp_ends app uri).mono ?_)
      rintro t r (⟨rfl, ⟨error, rfl⟩, -⟩ | ⟨command, hruns, ⟨rfl, rfl⟩ | ⟨error, error', rfl, rfl⟩⟩)
      · exact Prog.ends_ret.2 (opens_nothing hbefore (by decide))
      · exact Prog.ends_ret.2 (opens_default hdefault hruns ⟨fun _ => rfl, fun _ => rfl⟩)
      · exact Prog.ends_ret.2 (opens_default hdefault hruns ⟨nofun, nofun⟩)
    | choose candidates =>
      simp only [hdecide, runChooser]
      cases hvalid : (OpenUri.chooserRequest appId contentType parentWindow candidates).validate with
      | error error => exact Prog.ends_ret.2 (opens_nothing hbefore (by decide))
      | ok _ =>
        refine (dialog_ends fun app choices => openSelected_ends uri contentType app choices).mono fun t r h => ?_
        exact opens_chosen (candidates_offered hdecide) h

/-! ## AppChooser -/

/-- A selection of AppChooser is relayed. -/
structure RelaysSelected (contentType app : String) (choices : List (String × String)) (t : Trace) (r : PortalResponse) :
    Prop extends Acts contentType app choices t r where
  idle : t.filterMap attempt = []
  relays : r.results = [("choice", .str app)]

theorem relaySelected_ends (contentType app : String) (choices : List (String × String)) :
    (relaySelected contentType app choices).Ends (RelaysSelected contentType app choices) := by
  unfold relaySelected
  split
  · next htick =>
    intro result
    refine Prog.ends_ret.2 ⟨⟨rfl, by simp, fun record hrecord => ?_⟩, rfl, rfl⟩
    obtain rfl : record = (contentType, app) := by simpa [recorded] using hrecord
    exact ⟨rfl, rfl, htick⟩
  · exact Prog.ends_ret.2 ⟨⟨rfl, by simp, nofun⟩, rfl, rfl⟩

theorem runDialog_ends (request : ChooseAppRequest) : (runDialog request).Ends (Relays request.contentType) := by
  intro closed
  cases closed with
  | true =>
    refine Prog.ends_ret.2 ⟨⟨Nat.zero_le _, ?_, fun _ => ⟨rfl, rfl, rfl⟩, nofun⟩, rfl, nofun⟩
    intro pre post request response heq
    cases pre <;> simp at heq
  | false =>
    refine (dialog_ends fun app choices => relaySelected_ends request.contentType app choices).mono fun t r h => ?_
    have hbefore : Before [⟨.wasClosed, false⟩] := fun x hx => .inl (List.mem_singleton.1 hx)
    have hasks : Asks request.contentType ([⟨.wasClosed, false⟩] ++ t) r :=
      (h.asks fun app choices t r hq => hq.toActs).behind hbefore
    rcases h with ⟨answer, rfl, -, hr⟩ | ⟨response, rfl, hr⟩ | ⟨response, rfl, hr⟩ | ⟨app, choices, t', rfl, hin, hq⟩
    · exact ⟨hasks, rfl, fun h => absurd h hr⟩
    · exact ⟨hasks, rfl, fun h => by omega⟩
    · exact ⟨hasks, rfl, fun h => absurd h hr⟩
    · exact ⟨hasks, hq.idle, fun _ => ⟨app, choices, hq.relays, request, by simp, hin⟩⟩

/-! ## The desk -/

/-- What the workers run on: the tracker, and the directories the desktop entries and the defaults are in. -/
structure Desk where
  tracker : RequestTracker
  home : Directory
  configs : List Directory
  applications : List Directory

def Desk.dirs (d : Desk) : AppDirs := dirsWith d.home d.configs d.applications

/-- What others do: to the tracker, or to the files. -/
inductive DeskMove where
  | tracker (m : TrackerMove)
  | files (home : Directory) (configs applications : List Directory)

/-- The tracker and the directories answer for themselves; the environment decides about the dialog,
the launch, and whether the system refuses a write. -/
def desk (path : String) : Machine Desk DeskMove Action Action.Answer where
  move d m := match m with
    | .tracker m => { d with tracker := m.apply path d.tracker }
    | .files home configs applications => { d with home := home, configs := configs, applications := applications }
  answer d a b := match a, b with
    | .wasClosed, _ => (d.tracker.wasClosed path, d)
    | .fromEnv, _ => (d.dirs, d)
    | .setDefaultApp contentType desktopId, .ok () =>
      match setDefaultApp ⟨none, none, none, none⟩ d.home contentType desktopId with
      | .ok home => (.ok (), { d with home := home })
      | .error error => (.error error, d)
    | .setDefaultApp _ _, .error error => (.error error, d)
    | .invoke _, b => (b, d)
    | .spawn _ _, b => (b, d)

/-- A request of one of the two interfaces. -/
inductive Request where
  | openUri (appId uri contentType : String) (parentWindow : Option String) (ask : Bool)
  | chooseApplication (request : ChooseAppRequest)

def Request.run : Request → Work PortalResponse
  | .openUri appId uri contentType parentWindow ask => runOpen appId uri contentType parentWindow ask
  | .chooseApplication request => runDialog request

/-- In every run OpenURI and AppChooser launch and record as the user chose. -/
theorem request_done (request : Request) (path : String) (env : Env DeskMove Action Action.Answer) (i : Nat) (d : Desk) :
    match request with
    | .openUri _ uri contentType _ ask => Opens uri contentType ask (acts ((desk path).exec env i d request.run).trace)
        ((desk path).exec env i d request.run).result
    | .chooseApplication request => Relays request.contentType
        (acts ((desk path).exec env i d (runDialog request)).trace) ((desk path).exec env i d (runDialog request)).result := by
  cases request with
  | openUri appId uri contentType parentWindow ask =>
    exact (desk path).exec_ends (runOpen_ends appId uri contentType parentWindow ask) env i d
  | chooseApplication request => exact (desk path).exec_ends (runDialog_ends request) env i d

/-! ## A remembered choice -/

/-- Recording a default is the last thing that is done. -/
def EndsRecording (t : Trace) : Prop :=
  ∃ before, before.filterMap recorded = [] ∧
    (t = before ∨ ∃ contentType app result, t = before ++ [⟨.setDefaultApp contentType app, result⟩])

theorem EndsRecording.none {t : Trace} (h : t.filterMap recorded = []) : EndsRecording t := ⟨t, h, .inl rfl⟩

theorem EndsRecording.behind {t before : Trace} (hbefore : before.filterMap recorded = []) (h : EndsRecording t) :
    EndsRecording (before ++ t) := by
  obtain ⟨mid, hmid, h⟩ := h
  refine ⟨before ++ mid, by rw [List.filterMap_append, hbefore, hmid, List.append_nil], ?_⟩
  rcases h with rfl | ⟨contentType, app, result, rfl⟩
  · exact .inl rfl
  · exact .inr ⟨contentType, app, result, (List.append_assoc before mid _).symm⟩

theorem launchApp_records (app : AppInfo) (uri : String) : (launchApp app uri).Ends fun t _ => t.filterMap recorded = [] := by
  refine (launchApp_ends app uri).mono ?_
  rintro t r (⟨rfl, -⟩ | ⟨command, -, ⟨rfl, -⟩ | ⟨error, error', rfl, -⟩⟩) <;> rfl

theorem answered_records {selected : String → List (String × String) → Work PortalResponse}
    (h : ∀ app choices, (selected app choices).Ends fun t _ => EndsRecording t)
    (answer : Except InvokeError (Option ChooseAppResponse)) :
    (answered request selected answer).Ends fun t _ => EndsRecording t := by
  rcases answer with (_ | message) | (_ | response)
  · exact EndsRecording.none rfl
  · exact EndsRecording.none rfl
  · exact EndsRecording.none rfl
  · intro closed
    cases closed with
    | true => exact EndsRecording.none rfl
    | false =>
      simp only [Bool.false_eq_true, if_false]
      cases response.validateFor request with
      | error error => exact EndsRecording.none rfl
      | ok _ =>
        cases response with
        | cancelled => exact EndsRecording.none rfl
        | selected app choices =>
          exact (h app choices).mono fun t r ht => ht.behind (show [_].filterMap recorded = [] from rfl)

theorem openSelected_records (uri contentType app : String) (choices : List (String × String)) :
    (openSelected uri contentType app choices).Ends fun t _ => EndsRecording t := by
  intro dirs
  cases happ : dirs.appById app with
  | none =>
    simp only [happ]
    exact EndsRecording.none rfl
  | some info =>
    simp only [happ]
    refine Prog.Ends.bind ((launchApp_records info uri).mono fun t r ht => ?_)
    have hbefore : (⟨.fromEnv, dirs⟩ :: t : Trace).filterMap recorded = [] := ht
    cases r with
    | error error => exact Prog.ends_ret.2 ((EndsRecording.none rfl).behind hbefore)
    | ok _ =>
      simp only
      split
      · exact fun result => ⟨_, hbefore, .inr ⟨contentType, app, result, rfl⟩⟩
      · exact Prog.ends_ret.2 ((EndsRecording.none rfl).behind hbefore)

theorem Request.records (request : Request) : request.run.Ends fun t _ => EndsRecording t := by
  cases request with
  | openUri appId uri contentType parentWindow ask =>
    intro closed
    cases closed with
    | true => exact EndsRecording.none rfl
    | false =>
      intro dirs
      have hbefore : ([⟨.wasClosed, false⟩, ⟨.fromEnv, dirs⟩] : Trace).filterMap recorded = [] := rfl
      cases hdecide : OpenUri.decide dirs contentType ask with
      | nothing =>
        simp only [hdecide]
        exact EndsRecording.none rfl
      | launch app =>
        simp only [hdecide]
        refine Prog.Ends.bind ((launchApp_records app uri).mono fun t r ht => ?_)
        cases r <;> exact Prog.ends_ret.2 (((EndsRecording.none rfl).behind ht).behind hbefore)
      | choose candidates =>
        simp only [hdecide, runChooser]
        cases (OpenUri.chooserRequest appId contentType parentWindow candidates).validate with
        | error error => exact EndsRecording.none rfl
        | ok _ =>
          exact fun answer => (answered_records (openSelected_records uri contentType) answer).mono fun t r ht =>
            ht.behind (show [_, _, _].filterMap recorded = [] from rfl)
  | chooseApplication request =>
    intro closed
    cases closed with
    | true => exact EndsRecording.none rfl
    | false =>
      refine fun answer => (answered_records (fun app choices => ?_) answer).mono fun t r ht =>
        ht.behind (show [_, _].filterMap recorded = [] from rfl)
      unfold relaySelected
      split
      · exact fun result => ⟨[], rfl, .inr ⟨request.contentType, app, result, rfl⟩⟩
      · exact EndsRecording.none rfl

/-- Others leave the directories alone. -/
def Quiet (env : Env DeskMove Action Action.Answer) : Prop := ∀ k, ∀ m ∈ env.moves k, ∃ x, m = .tracker x

/-- The same directories. -/
def SameFiles (d d' : Desk) : Prop := d'.home = d.home ∧ d'.configs = d.configs ∧ d'.applications = d.applications

theorem SameFiles.trans {d d' d'' : Desk} (h : SameFiles d d') (h' : SameFiles d' d'') : SameFiles d d'' :=
  ⟨h'.1.trans h.1, h'.2.1.trans h.2.1, h'.2.2.trans h.2.2⟩

theorem SameFiles.dirs {d d' : Desk} (h : SameFiles d d') : d'.dirs = d.dirs := by
  rw [Desk.dirs, Desk.dirs, h.1, h.2.1, h.2.2]

theorem quiet_moves (path : String) {ms : List DeskMove} (h : ∀ m ∈ ms, ∃ x, m = .tracker x) (d : Desk) :
    SameFiles d (ms.foldl (desk path).move d) := by
  induction ms generalizing d with
  | nil => exact ⟨rfl, rfl, rfl⟩
  | cons m ms ih =>
    obtain ⟨x, rfl⟩ := h m List.mem_cons_self
    exact ih (fun m hm => h m (List.mem_cons_of_mem _ hm)) _

/-- Only a default that is recorded changes the directories. -/
theorem answer_files (path : String) (d : Desk) (a : Action) (b : a.Answer)
    (h : recorded ⟨a, ((desk path).answer d a b).1⟩ = none) : SameFiles d ((desk path).answer d a b).2 := by
  cases a with
  | setDefaultApp contentType app => cases h
  | _ => exact ⟨rfl, rfl, rfl⟩

/-- The last action of a run that others do not disturb meets the directories of its start. -/
theorem exec_last_files {path : String} {env : Env DeskMove Action Action.Answer} (hquiet : Quiet env) {R : Type}
    {p : Work R} {i : Nat} {d : Desk} {before : Trace} {x : Sigma Action.Answer}
    (h : acts ((desk path).exec env i d p).trace = before ++ [x]) (hbefore : before.filterMap recorded = []) :
    ∃ here b, SameFiles d here ∧ (desk path).answer here x.1 b = (x.2, ((desk path).exec env i d p).state) := by
  induction p generalizing i d before with
  | ret r => simp [Machine.exec, acts] at h
  | ask a k ih =>
    simp only [Machine.exec, acts_moves, acts] at h
    have hmoves := quiet_moves path (hquiet i) d
    cases before with
    | nil =>
      obtain ⟨hx, hrest⟩ := List.cons.inj h
      subst hx
      refine ⟨_, env.answer i a, hmoves, ?_⟩
      simp only [Machine.exec]
      -- without another action the run is over
      generalize k _ = rest at hrest ⊢
      cases rest with
      | ret r => rfl
      | ask a' k' => simp [Machine.exec, acts_moves, acts] at hrest
    | cons y before =>
      obtain ⟨hy, hrest⟩ := List.cons.inj h
      subst hy
      obtain ⟨hfirst, hbefore⟩ := List.filterMap_eq_nil_iff.1 hbefore |> List.forall_mem_cons.1
      obtain ⟨here, b, hsame, hlast⟩ := ih _ hrest (List.filterMap_eq_nil_iff.2 hbefore)
      exact ⟨here, b, (hmoves.trans (answer_files path _ a (env.answer i a) hfirst)).trans hsame, hlast⟩

/-- The default that was just recorded, where the list of defaults can be read back. -/
theorem recorded_default {refusals : Refusals} {home home' : Directory} {contentType app : String} {info : AppInfo}
    {configs applications : List Directory} (hset : setDefaultApp refusals home contentType app = .ok home')
    (hlegible : Legible (existing home) contentType app)
    (hfound : (dirsWith home' configs applications).appById app = some info) :
    (dirsWith home' configs applications).defaultApp contentType = some info := by
  obtain ⟨hct, hid⟩ : validContentType contentType = true ∧ validDesktopId app = true := by
    unfold setDefaultApp at hset
    split at hset
    · cases hset
    · next hvalid => simpa using hvalid
  obtain ⟨rfl, -⟩ := setDefaultApp_ok hset
  obtain ⟨others, hfirst⟩ := hlegible.first hct hid
  rw [defaultApp_dirsWith hct, listed_written, if_pos (hlegible.size_le hct hid), hfirst, Option.getD_some,
    List.cons_append, List.findSome?_cons, hfound]

theorem answer_recorded {path : String} {d d' : Desk} {contentType app : String} {b : Except IoError Unit}
    (h : (desk path).answer d (.setDefaultApp contentType app) b = (.ok (), d')) :
    ∃ home, setDefaultApp ⟨none, none, none, none⟩ d.home contentType app = .ok home ∧ d' = { d with home := home } := by
  cases b with
  | error error => cases h
  | ok _ =>
    have h : (match setDefaultApp ⟨none, none, none, none⟩ d.home contentType app with
      | .ok home => ((.ok (), { d with home := home }) : Except IoError Unit × Desk)
      | .error error => (.error error, d)) = (.ok (), d') := h
    split at h
    · next home hhome =>
      cases h
      exact ⟨home, hhome, rfl⟩
    · cases h

/-- The desk after a run that recorded a default. -/
theorem recorded_desk {path : String} {env : Env DeskMove Action Action.Answer} (hquiet : Quiet env) {first : Request}
    {i : Nat} {d : Desk} {contentType app : String} {info : AppInfo}
    (hset : ⟨.setDefaultApp contentType app, .ok ()⟩ ∈ acts ((desk path).exec env i d first.run).trace)
    (hlegible : Legible (existing d.home) contentType app) (hfound : d.dirs.appById app = some info) :
    ((desk path).exec env i d first.run).state.dirs.defaultApp contentType = some info := by
  obtain ⟨before, hbefore, htrace⟩ := (desk path).exec_ends first.records env i d
  have hnot : ⟨.setDefaultApp contentType app, .ok ()⟩ ∉ before := by
    intro hin
    have hrecord := List.filterMap_eq_nil_iff.1 hbefore _ hin
    cases hrecord
  rcases htrace with htrace | ⟨contentType', app', result, htrace⟩
  · exact absurd (htrace ▸ hset) hnot
  · obtain ⟨here, b, hsame, hlast⟩ := exec_last_files hquiet htrace hbefore
    rw [htrace] at hset
    have hx := List.mem_singleton.1 ((List.mem_append.1 hset).resolve_left hnot)
    cases hx
    obtain ⟨home, hhome, hstate⟩ := answer_recorded hlast
    rw [hstate]
    rw [hsame.1] at hhome
    refine recorded_default hhome hlegible ?_
    rw [hsame.2.2]
    exact hfound

/-- A launch, and the reply. -/
theorem launch_ends (info : AppInfo) (uri : String) : ((launchApp info uri).bind fun
    | .ok () => .ret ⟨0, []⟩
    | .error _ => .ret ⟨2, []⟩ : Work PortalResponse).Ends fun t _ =>
    t.filterMap prompt = [] ∧ ∀ command, command ∈ t.filterMap attempt ↔ Runs info uri command := by
  refine Prog.Ends.bind ((launchApp_ends info uri).mono ?_)
  have hone : ∀ command, Runs info uri command → ∀ other, other ∈ [command] ↔ Runs info uri other := by
    intro command hruns other
    rw [List.mem_singleton]
    constructor
    · rintro rfl
      exact hruns
    · intro hother
      exact Except.ok.inj (hother.2.symm.trans hruns.2)
  rintro t r (⟨rfl, ⟨error, rfl⟩, hnone⟩ | ⟨command, hruns, ⟨rfl, rfl⟩ | ⟨error, error', rfl, rfl⟩⟩)
  · exact Prog.ends_ret.2 ⟨rfl, fun command => ⟨nofun, fun h => absurd h (hnone command)⟩⟩
  · exact Prog.ends_ret.2 ⟨rfl, hone command hruns⟩
  · exact Prog.ends_ret.2 ⟨rfl, hone command hruns⟩

/-- A request that finds the default to be this application. -/
theorem default_opened {appId uri contentType : String} {parentWindow : Option String} {info : AppInfo} {path : String}
    {env : Env DeskMove Action Action.Answer} (hquiet : Quiet env) {i : Nat} {d : Desk}
    (hdefault : d.dirs.defaultApp contentType = some info) :
    let t := acts ((desk path).exec env i d (runOpen appId uri contentType parentWindow false)).trace
    t.filterMap prompt = [] ∧ ((⟨.wasClosed, true⟩ ∈ t ∧ t.filterMap attempt = []) ∨
      ∀ command, command ∈ t.filterMap attempt ↔ Runs info uri command) := by
  have hmoves := quiet_moves path (hquiet i) d
  generalize hhere : (env.moves i).foldl (desk path).move d = here at hmoves
  have hmoves' := quiet_moves path (hquiet (i + 1)) here
  generalize hthere : (env.moves (i + 1)).foldl (desk path).move here = there at hmoves'
  have hdirs : there.dirs = d.dirs := (hmoves.trans hmoves').dirs
  have hlook : (desk path).answer here .wasClosed (env.answer i .wasClosed) = (here.tracker.wasClosed path, here) := rfl
  have hread : (desk path).answer there .fromEnv (env.answer (i + 1) .fromEnv) = (there.dirs, there) := rfl
  have hlaunch : OpenUri.decide there.dirs contentType false = .launch info := by
    rw [hdirs, OpenUri.decide, hdefault]
    rfl
  simp only [runOpen, Machine.exec, hhere, hlook, acts_moves, acts]
  cases hclosed : here.tracker.wasClosed path with
  | true => exact ⟨rfl, .inl ⟨List.mem_cons_self, rfl⟩⟩
  | false =>
    simp only [Bool.false_eq_true, if_false, Machine.exec, hthere, hread, acts_moves, acts, hlaunch]
    obtain ⟨hsilent, hopens⟩ := (desk path).exec_ends (launch_ends info uri) env (i + 1 + 1) there
    exact ⟨hsilent, .inr hopens⟩

/-- After a choice that was recorded the same kind of content opens with it, and without a dialog:
as long as others leave the directories alone and the recorded list can be read back. -/
theorem remembered_opens {path path' : String} {env env' : Env DeskMove Action Action.Answer} (hquiet : Quiet env)
    (hquiet' : Quiet env') {first : Request} {i i' : Nat} {d : Desk} {contentType app : String} {info : AppInfo}
    (hset : ⟨.setDefaultApp contentType app, .ok ()⟩ ∈ acts ((desk path).exec env i d first.run).trace)
    (hlegible : Legible (existing d.home) contentType app) (hfound : d.dirs.appById app = some info)
    (appId uri : String) (parentWindow : Option String) :
    let left := ((desk path).exec env i d first.run).state
    let t := acts ((desk path').exec env' i' left (runOpen appId uri contentType parentWindow false)).trace
    t.filterMap prompt = [] ∧ ((⟨.wasClosed, true⟩ ∈ t ∧ t.filterMap attempt = []) ∨
      ∀ command, command ∈ t.filterMap attempt ↔ Runs info uri command) :=
  default_opened hquiet' (recorded_desk hquiet hset hlegible hfound)

def editorDialog : ChooseAppRequest where
  appId := "org.example.Files"
  title := "Open with"
  contentType := "text/plain"
  parentWindow := none
  apps := [⟨"editor.desktop", "Editor", none⟩]
  choices := [AppChooser.rememberChoice]

/-- A desk with one application and no defaults. -/
def editorDesk : Desk where
  tracker := ⟨∅, ∅⟩
  home := ⟨none, fun _ => none⟩
  configs := []
  applications := [onlyApp "editor.desktop"]

/-- The user chooses the editor and ticks the box, and everything succeeds. -/
def remembering : Env DeskMove Action Action.Answer where
  moves _ := []
  answer _ a := match a with
    | .wasClosed => false
    | .fromEnv => editorDesk.dirs
    | .invoke _ => .ok (some (.selected "editor.desktop" [("remember", "true")]))
    | .spawn _ _ => .ok ()
    | .setDefaultApp _ _ => .ok ()

theorem remembered_opens_editor : ∃ info, editorDesk.dirs.appById "editor.desktop" = some info ∧
    let left := ((desk "/r/1").exec remembering 0 editorDesk (Request.chooseApplication editorDialog).run).state
    let t := acts ((desk "/r/2").exec remembering 0 left (runOpen "org.example.Mail" "file:///a" "text/plain" none false)).trace
    t.filterMap prompt = [] ∧ ((⟨.wasClosed, true⟩ ∈ t ∧ t.filterMap attempt = []) ∨
      ∀ command, command ∈ t.filterMap attempt ↔ Runs info "file:///a" command) := by
  have hquiet : Quiet remembering := fun k m hm => nomatch hm
  have hvalid : (ChooseAppResponse.selected "editor.desktop" [("remember", "true")]).validateFor editorDialog = .ok () := by
    decide +kernel
  have htick : remembers [("remember", "true")] = true := by decide +kernel
  have hset := @setDefaultApp_unrefused editorDesk.home "text/plain" "editor.desktop" (by decide +kernel) (by decide +kernel)
    nofun
  have hlegible : Legible (existing editorDesk.home) "text/plain" "editor.desktop" := by
    refine ⟨plainType_plain.toKeyType, ⟨by decide, by decide⟩, .inl ⟨fun h => h.1 rfl, by decide, ?_⟩⟩
    decide +kernel
  obtain ⟨info, hfound⟩ := @onlyApp_found "editor.desktop" (by decide +kernel) editorDesk.home
  refine ⟨info, hfound, remembered_opens hquiet hquiet ?_ hlegible hfound "org.example.Mail" "file:///a" none⟩
  have hrun : acts ((desk "/r/1").exec remembering 0 editorDesk (runDialog editorDialog)).trace =
      [⟨.wasClosed, false⟩, ⟨.invoke editorDialog, .ok (some (.selected "editor.desktop" [("remember", "true")]))⟩,
        ⟨.wasClosed, false⟩, ⟨.setDefaultApp "text/plain" "editor.desktop", .ok ()⟩] := by
    have hlook : editorDesk.tracker.wasClosed "/r/1" = false := by decide +kernel
    simp only [runDialog, Machine.exec, remembering, List.foldl_nil, List.map_nil, List.nil_append, acts, desk, hlook,
      Bool.false_eq_true, if_false, answered, hvalid, relaySelected, htick, if_true]
    rw [show editorDialog.contentType = "text/plain" from rfl, hset]
  rw [Request.run, hrun]
  simp

end AtriumPortal.Portal.Opening
