import AtriumPortal.Portal.Tracker
import AtriumPortal.Prompter.Invoke
/-!
# The workers of the consent and data interfaces

`access.rs`, `background.rs`, `account.rs`, `print.rs` and the secret crate's
`portal.rs`: each worker is a program that looks at the request tracker, talks to
the prompter, the file system or the secret daemon, and returns the reply.
-/
open AtriumPortal.Lib.Interact AtriumPortal.Prompter

namespace AtriumPortal.Portal

/-- Each interface's `MAX_ACTIVE_..._REQUESTS`. -/
def maxActiveRequests : Nat := 32
def maxPrintBytes : Nat := 256 * 1024 * 1024

structure AutostartSpec where
  commandline : List String
  dbusActivatable : Bool
  deriving DecidableEq, Repr

structure Identity where
  id : String
  name : String
  avatarUri : Option String
  deriving DecidableEq, Repr

inductive NativeError where
  | locked
  | cancelled
  | accessDenied (message : String)
  | daemon (message : String)
  | io (message : String)
  | unexpected
  deriving DecidableEq, Repr

/-- What `write_all` did: the bytes that reached the descriptor, and its result. -/
structure Wrote where
  written : Nat
  result : Except String Unit

inductive Action where
  | countActive
  | spawnTask
  | wasClosed
  | prompter (io : Io)
  /-- Not an action of the code: the worker looks at the dialog's answer here. -/
  | interpret (answer : Except InvokeError PromptResult)
  | writeAutostart (appId : String) (spec : AutostartSpec)
  | currentIdentity
  | createSpool
  | copyInto (file : String)
  | fileLength (file : String)
  | removeFile (file : String)
  | submit (lp title file : String)
  | cloneFd
  | connectDefault
  | getApplicationSecret (scope subject purpose : String)
  | writeAll (secret : List UInt8)
  | isFile
  | syncAll

@[reducible] def Action.Answer : Action → Type
  | .countActive => Nat
  | .spawnTask => Except String Unit
  | .wasClosed => Bool
  | .prompter io => io.Answer
  | .interpret _ => Unit
  | .writeAutostart _ _ => Bool
  | .currentIdentity => Identity
  | .createSpool => Except String String
  | .copyInto _ => Except String Unit
  | .fileLength _ => Except String Nat
  | .removeFile _ => Except String Unit
  | .submit _ _ _ => Except String Unit
  | .cloneFd => Except String Unit
  | .connectDefault => Except NativeError Unit
  | .getApplicationSecret _ _ _ => Except NativeError (List UInt8)
  | .writeAll _ => Wrote
  | .isFile => Except String Bool
  | .syncAll => Except String Unit

abbrev Work (R : Type) : Type := Prog Action Action.Answer R

/-! ## Dialogs -/

/-- What the consent workers make of the dialog's answer: `none` grants, a code refuses. -/
def refusal : Except InvokeError PromptResult → Option Nat
  | .ok (.confirm .confirmed) => none
  | .ok (.confirm .cancelled) => some 1
  | .error .cancelled => some 1
  | .ok _ => some 2
  | .error (.failed _) => some 2

section
variable (decode : Decode) (host : Host)

/-- The consent workers: the entry check, the dialog, and what to do once it is granted. -/
def consent (prompt : ConfirmRequest) (granted : Work PortalResponse) : Work PortalResponse :=
  .ask .wasClosed fun closed =>
    if closed then .ret ⟨1, []⟩
    else ((invokeRaw decode host (.confirm prompt)).lift Action.prompter fun _ b => b).bind fun answer =>
      .ask (.interpret answer) fun _ =>
        match refusal answer with
        | some code => .ret ⟨code, []⟩
        | none => granted

/-- Access: the choice is relayed. -/
def runDialog (prompt : ConfirmRequest) : Work PortalResponse := consent decode host prompt (.ret ⟨0, []⟩)

namespace Background

/-- The results dictionary for a grant. -/
def results (autostart : Bool) : List (String × PortalValue) :=
  [("background", .bool true), ("autostart", .bool autostart)]

/-- Honour the grant: a failed autostart write is only reported. -/
def autostarted (appId : String) : Option AutostartSpec → Work PortalResponse
  | some spec => .ask (.writeAutostart appId spec) fun granted => .ret ⟨0, results granted⟩
  | none => .ret ⟨0, results false⟩

def runRequest (appId : String) (prompt : ConfirmRequest) (autostart : Option AutostartSpec) : Work PortalResponse :=
  consent decode host prompt <|
    -- Request.Close wins a race with a completed child response.
    .ask .wasClosed fun closed => if closed then .ret ⟨1, []⟩ else autostarted appId autostart

end Background

namespace Account

def consentBody (appId : String) (reason : Option String) : String :=
  s!"The application '{appId}' requests access to your personal information (name and avatar photo)." ++
    match reason with
    | some reason => " " ++ reason
    | none => ""

def consentRequest (appId : String) (parentWindow reason : Option String) : ConfirmRequest where
  title := "Share Personal Information"
  body := consentBody appId reason
  acceptLabel := some "_Share"
  denyLabel := none
  modal := true
  parentWindow := parentWindow

def identityResults (identity : Identity) : List (String × PortalValue) :=
  [("id", .str identity.id), ("name", .str identity.name)] ++
    match identity.avatarUri with
    | some image => [("image", .str image)]
    | none => []

def runRequest (appId : String) (parentWindow reason : Option String) : Work PortalResponse :=
  consent decode host (consentRequest appId parentWindow reason) <|
    .ask .wasClosed fun closed =>
      if closed then .ret ⟨1, []⟩
      else .ask .currentIdentity fun identity => .ret ⟨0, identityResults identity⟩

end Account

end

/-! ## Print -/

/-- Read the print descriptor into a bounded temp file. -/
def spoolFd : Work (Except String String) :=
  .ask .createSpool fun
    | .error error => .ret (.error s!"could not create the spool file: {error}")
    | .ok path =>
      .ask (.copyInto path) fun
        | .error error =>
          .ask (.removeFile path) fun _ => .ret (.error s!"could not spool the print data: {error}")
        | .ok () =>
          .ask (.fileLength path) fun
            | .error error => .ret (.error error)
            | .ok length =>
              if length = 0 ∨ maxPrintBytes < length then
                .ask (.removeFile path) fun _ =>
                  .ret (.error s!"print data length {length} is outside 1..={maxPrintBytes}")
              else .ret (.ok path)

def runPrint (lp title : String) (token : Nat) : Work PortalResponse :=
  .ask .wasClosed fun closed =>
    if closed then .ret ⟨1, []⟩
    else spoolFd.bind fun
      | .error _ => .ret ⟨2, []⟩
      | .ok spool =>
        .ask (.submit lp title spool) fun submission =>
          .ask (.removeFile spool) fun _ =>
            match submission with
            | .ok () => .ret ⟨0, [("token", .u32 token)]⟩
            | .error _ => .ret ⟨2, []⟩

/-! ## Secret -/

def secretScope : String := "atrium.portal.Secret/v1"
def secretPurpose : String := "master-secret"

/-- Only regular files are synced. -/
def syncFile : Work (Except String Unit) :=
  .ask .isFile fun
    | .ok true => .ask .syncAll .ret
    | .ok false => .ret (.ok ())
    | .error error => .ret (.error error)

/-- The reply once the write and the sync are done. -/
def written (wrote : Wrote) (synced : Except String Unit) : Work PortalResponse :=
  match wrote.result, synced with
  | .error _, _ => .ret ⟨2, []⟩
  | .ok (), .error _ => .ret ⟨2, []⟩
  | .ok (), .ok () => .ret ⟨0, []⟩

def SecretIface.run (appId : String) : Work PortalResponse :=
  .ask .wasClosed fun closed =>
    if closed then .ret ⟨1, []⟩
    else .ask .cloneFd fun
      | .error _ => .ret ⟨2, []⟩
      | .ok () =>
        .ask .connectDefault fun
          | .error _ => .ret ⟨2, []⟩
          | .ok () =>
            .ask (.getApplicationSecret secretScope appId secretPurpose) fun
              | .ok secret =>
                .ask (.writeAll secret) fun wrote => syncFile.bind (written wrote)
              | .error .locked => .ret ⟨1, []⟩
              | .error .cancelled => .ret ⟨1, []⟩
              | .error _ => .ret ⟨2, []⟩

/-! ## The workers together -/

/-- Whether the loop of a worker starts a task: their number is bounded, and each has its own thread. -/
def admission : Work Bool :=
  .ask .countActive fun active =>
    if maxActiveRequests ≤ active then .ret false
    else .ask .spawnTask fun
      | .error _ => .ret false
      | .ok () => .ret true

def dispatched (task : Work PortalResponse) : Work PortalResponse :=
  admission.bind fun admitted => if admitted then task else .ret ⟨2, []⟩

/-- One job of an interface, as its method queued it. -/
inductive Job where
  | access (prompt : ConfirmRequest)
  | background (appId : String) (prompt : ConfirmRequest) (autostart : Option AutostartSpec)
  | account (appId : String) (parentWindow reason : Option String)
  | print (title : String) (token : Nat)
  | secret (appId : String)

/-- Serve a job; Secret's method does its work itself. -/
def Job.serve (decode : Decode) (host : Host) (lp : String) : Job → Work PortalResponse
  | .access prompt => dispatched (runDialog decode host prompt)
  | .background appId prompt autostart => dispatched (Background.runRequest decode host appId prompt autostart)
  | .account appId parentWindow reason => dispatched (Account.runRequest decode host appId parentWindow reason)
  | .print title token => dispatched (runPrint lp title token)
  | .secret appId => SecretIface.run appId

/-- The tracker answers the looks at the request of `path`; the rest is the environment's. -/
def serving (path : String) : Machine RequestTracker TrackerMove Action Action.Answer where
  move t m := m.apply path t
  answer t a b :=
    match a, b with
    | .wasClosed, _ => (t.wasClosed path, t)
    | .prompter .cancelled, _ => (t.wasClosed path, t)
    | _, b => (b, t)

end AtriumPortal.Portal
