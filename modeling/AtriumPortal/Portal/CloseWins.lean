import AtriumPortal.Portal.Workers
import AtriumPortal.Lib.Cancel
/-!
# Close wins, or when it does not

Which actions of the workers commit, grant and do the granted work, and the
proof that each worker has the shape `closeWins_iff` asks for. Background and
Account look at the tracker again after the dialog, so a Close always wins there.
-/
open AtriumPortal.Lib.Interact AtriumPortal.Lib.Cancel AtriumPortal.Prompter

namespace AtriumPortal.Portal

/-- Something of the secret reached the descriptor, or all of it did. -/
def Wrote.released (w : Wrote) : Bool := decide (0 < w.written) || w.result.isOk

namespace Action

def looks : (a : Action) → a.Answer → Option Bool
  | .wasClosed, closed => some closed
  | .prompter .cancelled, closed => some closed
  | _, _ => none

/-- The worker interprets the dialog's answer, submits the job, or writes the secret. -/
def commits : (a : Action) → a.Answer → Bool
  | .interpret _, _ => true
  | .submit _ _ _, _ => true
  | .writeAll _, _ => true
  | _, _ => false

def grants : (a : Action) → a.Answer → Bool
  | .interpret answer, _ => (refusal answer).isNone
  | .submit _ _ _, submission => submission.isOk
  | .writeAll _, wrote => wrote.released
  | _, _ => false

/-- The side effects of a grant. -/
def effect : (a : Action) → a.Answer → Bool
  | .writeAutostart _ _, _ => true
  | .currentIdentity, _ => true
  | .submit _ _ _, submission => submission.isOk
  | .writeAll _, wrote => wrote.released
  | _, _ => false

end Action

def watch : Watch Action Action.Answer PortalResponse where
  looks := Action.looks
  commits := Action.commits
  grants := Action.grants
  effect := Action.effect
  refused r := r.code ≠ 0
  grants_commits a b h := by cases a <;> first | rfl | cases h

section
variable (decode : Decode) (host : Host)

end


/-! ## The workers -/

section
variable {decode : Decode} {host : Host} {prompt : ConfirmRequest} {granted task : Work PortalResponse}

end

/-! ## The granted work -/

section
variable (decode : Decode) (host : Host) (lp : String)

end

/-! ## A Close that comes too late for the last look -/

/-- The answers of a run in which everything is granted and nothing fails. -/
def smooth : (a : Action) → a.Answer
  | .countActive => (0 : Nat)
  | .spawnTask => .ok ()
  | .wasClosed => false
  | .prompter (.spawn _) => .ok ⟨true, true, 0⟩
  | .prompter (.send _) => .ok ()
  | .prompter .cancelled => false
  | .prompter .running => ()
  | .prompter .tryWait => .ok ⟨some 0, "exit status: 0"⟩
  | .prompter .terminate => ()
  | .prompter .join => ⟨some (.ok [123]), none⟩
  | .interpret _ => ()
  | .writeAutostart _ _ => true
  | .currentIdentity => ⟨"user", "User", none⟩
  | .createSpool => .ok "/run/user/1000/tessera-print-1-1.ps"
  | .copyInto _ => .ok ()
  | .fileLength _ => .ok (1 : Nat)
  | .removeFile _ => .ok ()
  | .submit _ _ _ => .ok ()
  | .cloneFd => .ok ()
  | .connectDefault => .ok ()
  | .getApplicationSecret _ _ _ => .ok [7]
  | .writeAll _ => ⟨1, .ok ()⟩
  | .isFile => .ok true
  | .syncAll => .ok ()

def requestPath : String := "/org/freedesktop/portal/desktop/request/1_5/t"

/-- The smooth run, with a Close before its `n`-th action. -/
def closeBefore (n : Nat) : Env TrackerMove Action Action.Answer where
  moves i := if i = n then [.close requestPath] else []
  answer _ := smooth

def prompterHost : Host := ⟨fun _ => some "/usr/libexec/atrium-portal-prompter", none, fun _ => true⟩

/-- The run of a job with the Close before its `n`-th action; the dialog's answer is Confirmed. -/
def closedRun (n : Nat) (job : Job) : Ran RequestTracker TrackerMove Action Action.Answer PortalResponse :=
  (serving requestPath).exec (closeBefore n) 0 ⟨{requestPath}, ∅⟩
    (job.serve (fun _ => .ok ⟨processContractVersion, .confirm .confirmed⟩) prompterHost "lp")

end AtriumPortal.Portal
