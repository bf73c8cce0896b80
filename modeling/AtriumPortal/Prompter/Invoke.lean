import AtriumPortal.Prompter.Contract
import AtriumPortal.Lib.Interact
/-!
# One prompter process

`prompter.rs`: spawn the prompter, send it one request, poll for its end and for
the cancellation of the portal request, and read its answer.
-/
open AtriumPortal.Lib.Interact

namespace AtriumPortal.Prompter

def maxMessageBytes : Nat := 8 * 1024 * 1024

inductive InvokeError where
  | cancelled
  | failed (message : String)
  deriving DecidableEq, Repr

/-- What the executable is looked up in. -/
structure Host where
  env : String → Option String
  /-- The directory of the running executable. -/
  exeDir : Option String
  isFile : String → Bool

def joinPath (directory name : String) : String :=
  if directory.endsWith "/" then directory ++ name else directory ++ "/" ++ name

def prompterEnv : String := "ATRIUM_PORTAL_PROMPTER"

def executable (host : Host) : Except String String :=
  match (host.env prompterEnv).filter (· ≠ "") with
  | some path => .ok path
  | none =>
    match (host.exeDir.map (joinPath · "atrium-portal-prompter")).filter (host.isFile ·) with
    | some sibling => .ok sibling
    | none =>
      match ["/usr/libexec/atrium-portal-prompter", "/usr/lib/atrium-portal-prompter"].find? (host.isFile ·) with
      | some installed => .ok installed
      | none =>
        .error ("atrium-portal-prompter was not found beside the backend or in the standard libexec directories; set " ++
          prompterEnv)

/-- `child.try_wait()`: `text` is how the status prints. -/
structure ExitStatus where
  code : Option Int
  text : String
  deriving DecidableEq, Repr

/-- A spawned prompter: which pipes it has, and the polls that find it running. -/
structure Child where
  stdin : Bool
  stdout : Bool
  polls : Nat
  deriving DecidableEq, Repr

/-- What the threads that drain the child's pipes return. -/
structure Drained where
  /-- `none` when the reader panicked. -/
  bytes : Option (Except String (List UInt8))
  /-- `stderr_diagnostic` of the retained tail. -/
  diagnostic : Option String

inductive Io where
  | spawn (executable : String)
  | send (request : PrompterRequest)
  | cancelled
  /-- A poll that finds the child running. -/
  | running
  | tryWait
  | terminate
  | join
  deriving DecidableEq, Repr

@[reducible] def Io.Answer : Io → Type
  | .spawn _ => Except String Child
  | .send _ => Except String Unit
  | .cancelled => Bool
  | .running => Unit
  | .tryWait => Except String ExitStatus
  | .terminate => Unit
  | .join => Drained

/-- `serde_json` on the response. -/
abbrev Decode := List UInt8 → Except String PrompterResponse

def isBrokenPipe (error : String) : Bool :=
  (error.splitOn "Broken pipe").length > 1 || (error.splitOn "broken pipe").length > 1 ||
    (error.toLower.splitOn "epipe").length > 1

/-- Read what the exited child answered. -/
def readAnswer (decode : Decode) (status : ExitStatus) (drained : Drained) : Except InvokeError PromptResult :=
  match drained.bytes with
  | none => .error (.failed "prompter response reader panicked")
  | some (.error error) => .error (.failed s!"could not read prompter response: {error}")
  | some (.ok bytes) =>
    if maxMessageBytes < bytes.length then
      .error (.failed "prompter response exceeds the 8 MiB process-contract limit")
    else if bytes.isEmpty then
      match drained.diagnostic.filter fun _ => status.code = some 127 with
      | some diagnostic => .error (.failed s!"prompter exited with {status.text}: {diagnostic}")
      | none => .error (.failed s!"prompter exited with {status.text} and no response")
    else
      match decode bytes with
      | .error error => .error (.failed s!"prompter exited with {status.text} and returned invalid JSON: {error}")
      | .ok response =>
        match response.intoResult with
        | .error error => .error (.failed error)
        | .ok (.failed message) => .error (.failed message)
        | .ok result => .ok result

/-- Look for a cancellation, else go on. -/
def poll (next : Prog Io Io.Answer (Except InvokeError PromptResult)) : Prog Io Io.Answer (Except InvokeError PromptResult) :=
  .ask .cancelled fun cancelled =>
    if cancelled then .ask .terminate fun _ => .ret (.error .cancelled) else next

/-- The wait loop, for a child that `polls` polls still find running. -/
def waitLoop (decode : Decode) : Nat → Prog Io Io.Answer (Except InvokeError PromptResult)
  | polls + 1 => poll (.ask .running fun _ => waitLoop decode polls)
  | 0 =>
    poll <| .ask .tryWait fun
      | .error error => .ask .terminate fun _ => .ret (.error (.failed s!"could not wait for prompter: {error}"))
      | .ok status => .ask .join fun drained => .ret (readAnswer decode status drained)

def invokeRaw (decode : Decode) (host : Host) (request : PrompterRequest) :
    Prog Io Io.Answer (Except InvokeError PromptResult) :=
  match executable host with
  | .error error => .ret (.error (.failed error))
  | .ok executable =>
    .ask (.spawn executable) fun
      | .error error => .ret (.error (.failed s!"could not start {executable}: {error}"))
      | .ok child =>
        if !child.stdin then
          .ask .terminate fun _ => .ret (.error (.failed "prompter stdin was not piped"))
        else if !child.stdout then
          .ask .terminate fun _ => .ret (.error (.failed "prompter stdout was not piped"))
        else
          .ask (.send request) fun
            | .ok () => waitLoop decode child.polls
            | .error error =>
              -- A child that died before it read its request shows in its exit status.
              if isBrokenPipe error then waitLoop decode child.polls
              else .ask .terminate fun _ => .ret (.error (.failed s!"could not send prompter request: {error}"))

end AtriumPortal.Prompter
