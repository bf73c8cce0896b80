import AtriumPortal.ScreenCast.Casts
import AtriumPortal.ScreenCast.Persist
import AtriumPortal.Prompter.Invoke
import AtriumPortal.Portal.Tracker
import Mathlib.Data.List.Perm.Basic
/-!
# SelectSources

`screencast.rs`: the bus method checks the shape of the options and queues a job;
a worker of its own (`select_sources`) then restores a stored selection, or lets
the user choose and confirm a source, and arms the session. The worker runs next
to everything else that changes the tracker, the restore store and the sessions.
-/
open AtriumPortal.Lib.Interact AtriumPortal.Prompter AtriumPortal.Portal

namespace AtriumPortal.ScreenCast.SelectSources

def sourceTypeMonitor : Nat := 1
def sourceTypeWindow : Nat := 2
def cursorModeHidden : Nat := 1
def cursorModeEmbedded : Nat := 2
def perSourceProtocol : Nat := 29
def maxActiveCastRequests : Nat := 32

/-! ## Options -/

structure SelectOptions where
  sourceTypes : Nat
  cursorMode : Nat
  persistMode : Nat
  restoreToken : Option String
  deriving DecidableEq, Repr

/-- The value under each key of the options argument. -/
abbrev OptionsMap : Type := String → Option PortalValue

def u32? : PortalValue → Option Nat
  | .u32 value => some value
  | _ => none

def string? : PortalValue → Option String
  | .str value => some value
  | _ => none

def parseSelectOptions (options : OptionsMap) : SelectOptions where
  sourceTypes := ((options "types").bind u32?).getD sourceTypeMonitor
  cursorMode := ((options "cursor_mode").bind u32?).getD 1
  persistMode := ((options "persist_mode").bind u32?).getD 0
  restoreToken := ((options "restore_token").bind string?).filter (· ≠ "")

/-- How `format!` prints a number with `#b`. -/
def binary (value : Nat) : String := "0b" ++ String.ofList (Nat.toDigits 2 value)

/-- `validate_select_shape`. The two defined bits are the lowest. -/
def validateSelectShape (options : SelectOptions) : Except String Unit :=
  if options.sourceTypes >>> 2 ≠ 0 then .error s!"source types {binary options.sourceTypes} name undefined bits"
  else if 2 < options.persistMode then
    .error s!"persist_mode {options.persistMode} is not defined by the ScreenCast contract"
  else .ok ()

/-- The source types a protocol can serve. -/
def availableTypes (protocol : Nat) : Nat :=
  if perSourceProtocol ≤ protocol then sourceTypeMonitor ||| sourceTypeWindow else sourceTypeMonitor

def cursorServable (protocol mode : Nat) : Bool :=
  mode == cursorModeHidden || (mode == cursorModeEmbedded && perSourceProtocol ≤ protocol)

def validateSelect (options : SelectOptions) (protocol : Nat) : Except String Unit :=
  match validateSelectShape options with
  | .error error => .error error
  | .ok () =>
    if options.sourceTypes &&& availableTypes protocol = 0 then
      .error (if perSourceProtocol ≤ protocol then "only monitor and window sources are supported"
        else "only monitor sources are supported")
    else if cursorServable protocol options.cursorMode then .ok ()
    else
      let served := if perSourceProtocol ≤ protocol then "Hidden or Embedded" else "Hidden only"
      .error s!"cursor_mode {options.cursorMode} is not supported ({served})"

/-! ## Sources -/

/-- The source of a stored selection. -/
def sourceOfStored : StoredSource → CastSource
  | .desktop => .monitor none
  | .output connector => .monitor (some connector)

/-- A window id is not stable, so windows are not stored. -/
def storedSource? : CastSource → Option StoredSource
  | .monitor none => some .desktop
  | .monitor (some connector) => some (.output connector)
  | .window _ => none

def servableSource (source : StoredSource) (protocol : Nat) (outputs : List Ipc.OutputInfo) : Bool :=
  match source with
  | .desktop => true
  | .output connector => perSourceProtocol ≤ protocol && outputs.any (·.connector == connector)

def desktopChoice : SourceChoice := ⟨"desktop", "Entire desktop", none⟩
def windowChoice : SourceChoice := ⟨"window", "Window…", none⟩

def outputChoice (output : Ipc.OutputInfo) : SourceChoice :=
  let primary := if output.primary then ", primary" else ""
  ⟨"output:" ++ output.connector, output.connector, some s!"{output.rect.size.w}×{output.rect.size.h}{primary}"⟩

def windowOffered (options : SelectOptions) (protocol : Nat) : Bool :=
  perSourceProtocol ≤ protocol && options.sourceTypes &&& sourceTypeWindow ≠ 0

/-- The chooser's options: the desktop always. -/
def choices (options : SelectOptions) (protocol : Nat) (outputs : List Ipc.OutputInfo) : List SourceChoice :=
  desktopChoice ::
    ((if perSourceProtocol ≤ protocol && 1 < outputs.length then outputs.map outputChoice else []) ++
      if windowOffered options protocol then [windowChoice] else [])

/-- `trim_start_matches("output:")` takes the prefix off as often as it is there. -/
def trimOutput : List Char → List Char
  | 'o' :: 'u' :: 't' :: 'p' :: 'u' :: 't' :: ':' :: rest => trimOutput rest
  | id => id

def isOutputId (id : String) : Bool := "output:".toList.isPrefixOf id.toList

def confirmBody (appId : String) : CastSource → String
  | .monitor none => s!"Allow {appId} to record the entire desktop?"
  | .monitor (some connector) => s!"Allow {appId} to record output {connector}?"
  | .window _ => s!"Allow {appId} to record the selected window?"

/-! ## The worker -/

/-- What `validate` found, and the order in which it went through the memory lists. -/
structure Validated where
  order : List (List StoredEntry)
  restored : Option (Nat × StoredSelection)

/-- What `issue` drew and returned, and whether its write to the disk succeeded. -/
structure Issued where
  drawn : String
  written : Bool
  granted : Option String

inductive Action where
  | contains (path : String)
  | register
  | enqueue
  | countActive
  | spawnTask
  | wasClosed
  | protocolVersion
  | enumerateOutputs
  | validate (token appId : String) (protocol : Nat) (outputs : List Ipc.OutputInfo)
  | prune (protocol : Nat) (outputs : List Ipc.OutputInfo)
  | invoke (request : PrompterRequest)
  | pick (kind : Ipc.PickKind)
  | pickConfirm (title body : String) (acceptLabel : Option String)
  | issue (mode : Nat) (owner : String) (selection : StoredSelection)
  /-- The answer names the incarnation of the session that is armed. -/
  | markSourcesSelected (path appId : String) (selection : StartSelection)
  deriving DecidableEq

@[reducible] def Action.Answer : Action → Type
  | .contains _ => Bool
  | .register => Except String Unit
  | .enqueue => Except String Bool
  | .countActive => Nat
  | .spawnTask => Except String Unit
  | .wasClosed => Bool
  | .protocolVersion => Except String Nat
  | .enumerateOutputs => Except String (List Ipc.OutputInfo)
  | .validate _ _ _ _ => Validated
  | .prune _ _ => Bool
  | .invoke _ => Except InvokeError PromptResult
  | .pick _ => Except String Ipc.PickResult
  | .pickConfirm _ _ _ => Except String Ipc.ConfirmPickResult
  | .issue _ _ _ => Issued
  | .markSourcesSelected _ _ _ => Except String Nat

abbrev Work (R : Type) : Type := Prog Action Action.Answer R

/-- A failed enumeration yields no entries. -/
def enumerateOutputs (protocol : Nat) : Work (List Ipc.OutputInfo) :=
  if protocol < perSourceProtocol then .ret []
  else .ask .enumerateOutputs fun
    | .ok outputs => .ret outputs
    | .error _ => .ret []

def chooserRequest (appId : String) (options : List SourceChoice) (rememberOffered : Bool) : ChooseSourceRequest where
  appId := appId
  title := "Share Your Screen"
  options := options
  rememberOffered := rememberOffered
  parentWindow := none

/-- The chooser; an error is a response code. -/
def chooseSource (request : ChooseSourceRequest) : Work (Except Nat (String × Bool)) :=
  match request.validate with
  | .error _ => .ret (.error 2)
  | .ok () =>
    .ask (.invoke (.chooseSource request)) fun
      | .ok (.chooseSource response) =>
        .ask .wasClosed fun closed =>
          if closed then .ret (.error 1)
          else
            match response.validateFor request with
            | .error _ => .ret (.error 2)
            | .ok () =>
              match response with
              | .selected source remember => .ret (.ok (source, remember))
              | .cancelled => .ret (.error 1)
      | .error .cancelled => .ret (.error 1)
      | .ok _ => .ret (.error 2)
      | .error (.failed _) => .ret (.error 2)

def pickWindow : Work (Except Nat Nat) :=
  .ask (.pick .window) fun
    | .ok (.window id) => .ret (.ok id)
    | .ok .cancelled => .ret (.error 1)
    | .ok _ => .ret (.error 2)
    | .error _ => .ret (.error 2)

/-- The source the user selected. -/
def selectedSource (options : SelectOptions) (protocol : Nat) (selected : String) : Work (Except Nat CastSource) :=
  if selected = "desktop" then .ret (.ok (.monitor none))
  else if selected = "window" ∧ windowOffered options protocol then
    pickWindow.bind fun
      | .ok window => .ret (.ok (.window window))
      | .error code => .ret (.error code)
  else if isOutputId selected ∧ perSourceProtocol ≤ protocol then
    .ret (.ok (.monitor (some (String.ofList (trimOutput selected.toList)))))
  else .ret (.error 2)

/-- Record the armed selection on the session. -/
def markSelected (sessionPath appId : String) (selection : StartSelection) : Work Nat :=
  .ask .wasClosed fun closed =>
    if closed then .ret 1
    else .ask (.markSourcesSelected sessionPath appId selection) fun
      | .ok _ => .ret 0
      | .error _ => .ret 2

/-- What a presented token restores, with the token. -/
def restore (appId : String) (options : SelectOptions) (protocol : Nat) :
    Work (Option (String × Nat × StoredSelection)) :=
  match options.restoreToken with
  | none => .ret none
  | some token =>
    if 0 < options.persistMode then
      (enumerateOutputs protocol).bind fun outputs =>
        .ask (.validate token appId protocol outputs) fun validated =>
          .ask (.prune protocol outputs) fun _ => .ret (validated.restored.map fun x => (token, x))
    else .ret none

/-- Only monitor selections are restorable. -/
def grant (appId : String) (options : SelectOptions) (sender : Option String) (remember : Bool) (source : CastSource) :
    Work (Option (Nat × String)) :=
  if remember && 0 < options.persistMode then
    match storedSource? source with
    | some stored =>
      .ask (.issue options.persistMode (sender.getD "") ⟨appId, stored, options.cursorMode⟩) fun issued =>
        .ret (issued.granted.map fun token => (options.persistMode, token))
    | none => .ret none
  else .ret none

/-- Let the user choose the source. A single option skips the chooser. -/
def choose (appId : String) (options : SelectOptions) (protocol : Nat) : Work (Except Nat (String × Bool)) :=
  (enumerateOutputs protocol).bind fun outputs =>
    if (choices options protocol outputs).length = 1 then .ret (.ok ("desktop", false))
    else chooseSource (chooserRequest appId (choices options protocol outputs) (0 < options.persistMode))

/-- Ask the compositor for consent to one source, and arm the session with it. -/
def confirm (sessionPath appId : String) (options : SelectOptions) (sender : Option String) (remember : Bool)
    (source : CastSource) : Work Nat :=
  .ask (.pickConfirm "Share Your Screen" (confirmBody appId source) (some "Share")) fun
    | .ok .confirmed =>
      .ask .wasClosed fun closed =>
        if closed then .ret 1
        else (grant appId options sender remember source).bind fun grant =>
          markSelected sessionPath appId ⟨source, options.cursorMode, options.persistMode, grant⟩
    | .ok .cancelled => .ret 1
    | .error _ => .ret 2

/-- The dialogs of `select_sources`. -/
def interactive (sessionPath appId : String) (options : SelectOptions) (sender : Option String) (protocol : Nat) :
    Work Nat :=
  (choose appId options protocol).bind fun
    | .error code => .ret code
    | .ok (selected, remember) =>
      .ask .wasClosed fun closed =>
        if closed then .ret 1
        else (selectedSource options protocol selected).bind fun
          | .error code => .ret code
          | .ok source => confirm sessionPath appId options sender remember source

/-- The protocol the worker goes by: an unreachable compositor counts as the oldest. -/
def negotiated (version : Except String Nat) : Nat := version.toOption.getD Ipc.minProtocolVersion

/-- `select_sources`. Response codes: 0 ok, 1 cancelled, 2 refused. -/
def selectSources (sessionPath appId : String) (options : SelectOptions) (sender : Option String) : Work Nat :=
  .ask .wasClosed fun closed =>
    if closed then .ret 1
    else .ask .protocolVersion fun version =>
      match validateSelect options (negotiated version) with
      | .error _ => .ret 2
      | .ok () =>
        (restore appId options (negotiated version)).bind fun
          | some (token, mode, stored) =>
            markSelected sessionPath appId ⟨sourceOfStored stored.source, stored.cursorMode, mode, some (mode, token)⟩
          | none => interactive sessionPath appId options sender (negotiated version)

/-! ## What the parts of the worker ask for -/

/-- Actions that reach neither the restore store nor a session. -/
def Passive : Action → Prop
  | .validate .. | .prune .. | .issue .. | .markSourcesSelected .. => False
  | _ => True

/-- `restore` lists the outputs, looks a token up and prunes. -/
def Restoring : Action → Prop
  | .enumerateOutputs | .validate .. | .prune .. => True
  | _ => False

/-- What the bus method does before a worker runs. -/
def Opening : Action → Prop
  | .contains _ | .register | .enqueue | .countActive | .spawnTask => True
  | _ => False

theorem Opening.passive {a : Action} (h : Opening a) : Passive a := by
  cases a <;> trivial

theorem enumerateOutputs_uses (protocol : Nat) : (enumerateOutputs protocol).Uses (· = .enumerateOutputs) := by
  unfold enumerateOutputs
  split
  · trivial
  · exact ⟨rfl, fun answer => by cases answer <;> trivial⟩

theorem restore_uses (appId : String) (options : SelectOptions) (protocol : Nat) :
    (restore appId options protocol).Uses Restoring := by
  unfold restore
  split
  · trivial
  · split
    · refine ((enumerateOutputs_uses protocol).mono fun a ha => ?_).bind fun _ => ?_
      · rw [ha]
        trivial
      · exact ⟨trivial, fun _ => ⟨trivial, fun _ => trivial⟩⟩
    · trivial

theorem choose_passive (appId : String) (options : SelectOptions) (protocol : Nat) :
    (choose appId options protocol).Uses Passive := by
  refine ((enumerateOutputs_uses protocol).mono fun a ha => by rw [ha]; trivial).bind fun outputs => ?_
  split
  · trivial
  · unfold chooseSource
    split
    · trivial
    · refine ⟨trivial, fun answer => ?_⟩
      rcases answer with (_ | _) | (_ | _ | _ | _ | response | _ | _)
      case ok.chooseSource =>
        refine ⟨trivial, fun closed => ?_⟩
        cases closed with
        | true => trivial
        | false =>
          simp only [Bool.false_eq_true, if_false]
          split
          · trivial
          · split <;> trivial
      all_goals trivial

theorem selectedSource_passive (options : SelectOptions) (protocol : Nat) (selected : String) :
    (selectedSource options protocol selected).Uses Passive := by
  unfold selectedSource
  split
  · trivial
  · split
    · refine ⟨trivial, fun answer => ?_⟩
      rcases answer with _ | _ | _ | _ | _ | _ <;> trivial
    · split <;> trivial

/-! ## The bus method -/

inductive Reply where
  | failed (message : String)
  | invalidArgs (message : String)
  | response (code : Nat)
  deriving DecidableEq, Repr

/-- The dispatcher's bound on running workers, and a worker of its own. -/
def dispatched (task : Work Nat) : Work Reply :=
  .ask .countActive fun active =>
    if maxActiveCastRequests ≤ active then .ret (.response 2)
    else .ask .spawnTask fun
      | .error _ => .ret (.response 2)
      | .ok () => task.bind fun code => .ret (.response code)

/-- `ScreenCastIface::select_sources`. -/
def run (sessionPath appId : String) (options : OptionsMap) (sender : Option String) : Work Reply :=
  .ask (.contains sessionPath) fun known =>
    if !known then .ret (.failed s!"unknown session {sessionPath}")
    else
      match validateSelectShape (parseSelectOptions options) with
      | .error error => .ret (.invalidArgs error)
      | .ok () =>
        .ask .register fun
          | .error error => .ret (.failed error)
          | .ok () =>
            .ask .enqueue fun
              | .error error => .ret (.failed error)
              | .ok false => .ret (.response 2)
              | .ok true => dispatched (selectSources sessionPath appId (parseSelectOptions options) sender)

/-- A call is refused before its worker runs, or replies what the worker returns. -/
theorem run_ends {sessionPath appId : String} {options : OptionsMap} {sender : Option String}
    {Q : List (Sigma Action.Answer) → Reply → Prop}
    (hrefused : ∀ t reply, (∀ x ∈ t, Opening x.1) → reply ≠ .response 0 → Q t reply)
    (hworks : ∀ start, (∀ x ∈ start, Opening x.1) →
      (selectSources sessionPath appId (parseSelectOptions options) sender).Ends fun t code => Q (start ++ t) (.response code)) :
    (run sessionPath appId options sender).Ends Q := by
  intro known
  cases known with
  | false => exact hrefused _ _ (by simp [Opening]) (by simp)
  | true =>
    simp only [Bool.not_true, Bool.false_eq_true, if_false]
    split
    · exact hrefused _ _ (by simp [Opening]) (by simp)
    · intro registered
      rcases registered with error | _
      · exact hrefused _ _ (by simp [Opening]) (by simp)
      · intro queued
        rcases queued with error | _ | _
        · exact hrefused _ _ (by simp [Opening]) (by simp)
        · exact hrefused _ _ (by simp [Opening]) (by simp)
        · intro active
          dsimp only
          split
          · exact hrefused _ _ (by simp [Opening]) (by simp)
          · intro spawned
            rcases spawned with error | _
            · exact hrefused _ _ (by simp [Opening]) (by simp)
            · have hopening : ∀ x ∈ ([⟨.contains sessionPath, true⟩, ⟨.register, .ok ()⟩, ⟨.enqueue, .ok true⟩,
                  ⟨.countActive, active⟩, ⟨.spawnTask, .ok ()⟩] : List (Sigma Action.Answer)), Opening x.1 := by
                simp [Opening]
              refine Prog.Ends.bind ((hworks _ hopening).mono fun t code h => ?_)
              simpa [Prog.Ends] using h

/-! ## What it runs on -/

structure Desk where
  tracker : RequestTracker
  store : RestoreStore
  casts : Casts

/-- What the other threads do meanwhile, other SelectSources workers among them. -/
inductive Move where
  | tracker (move : TrackerMove)
  | store (op : RestoreStore.Op)
  | casts (step : Casts.Step)

def Move.apply (json : Json) (path : String) (d : Desk) : Move → Desk
  | .tracker move => { d with tracker := move.apply path d.tracker }
  | .store op => { d with store := d.store.apply json op }
  | .casts step => { d with casts := (d.casts.step step).getD d.casts }

instance (s : RestoreStore) (values : List (List StoredEntry)) : Decidable (s.Iterates values) :=
  inferInstanceAs (Decidable (values.Perm _))

/-- The order proposed for the memory lists, where it is one. -/
def orderOf (s : RestoreStore) (proposed : List (List StoredEntry)) : List (List StoredEntry) :=
  if s.Iterates proposed then proposed else s.memory.entries.map (·.2)

/-- Serve the request at `path`: the tracker, the store and the sessions answer, the rest is the environment's. -/
def desk (json : Json) (path : String) : Machine Desk Move Action Action.Answer where
  move := Move.apply json path
  answer d a b :=
    match a, b with
    | .contains session, _ => (d.casts.registry.contains session, d)
    | .register, .ok () => (.ok (), { d with tracker := d.tracker.activate path })
    | .wasClosed, _ => (d.tracker.wasClosed path, d)
    | .validate token appId protocol outputs, b =>
      let order := orderOf d.store b.order
      (⟨order, d.store.validate order token appId (servableSource · protocol outputs)⟩, d)
    | .prune protocol outputs, written =>
      (written, { d with store := d.store.prune json (servableSource · protocol outputs) written })
    | .issue mode owner selection, b =>
      let issued := d.store.issue json b.drawn mode owner selection b.written
      (⟨b.drawn, b.written, issued.2⟩, { d with store := issued.1 })
    | .markSourcesSelected session appId selection, _ =>
      match d.casts.select session appId selection with
      | .ok casts => (.ok (d.casts.registry.incarnationAt session), { d with casts := casts })
      | .error error => (.error error, d)
    | _, b => (b, d)

/-- Only `prune` and `issue` write to the store. -/
theorem desk_store (json : Json) (path : String) (d : Desk) {a : Action} (b : a.Answer)
    (hprune : ∀ protocol outputs, a ≠ .prune protocol outputs) (hissue : ∀ mode owner selection, a ≠ .issue mode owner selection) :
    ((desk json path).answer d a b).2.store = d.store := by
  cases a with
  | prune protocol outputs => exact (hprune _ _ rfl).elim
  | issue mode owner selection => exact (hissue _ _ _ rfl).elim
  | register => cases b <;> rfl
  | markSourcesSelected session appId selection =>
    dsimp only [desk]
    split <;> rfl
  | _ => rfl

end AtriumPortal.ScreenCast.SelectSources
