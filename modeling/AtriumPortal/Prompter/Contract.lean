import Mathlib.Data.List.Nodup
/-!
# The prompter's process contract

The requests and responses of `atrium-portal-prompter` that the workers here
send and read. The payloads of the other prompt kinds are left out: a worker
that gets one only sees that it is the wrong kind.
-/

namespace AtriumPortal.Prompter

/-- Version of the private stdin/stdout contract. -/
def processContractVersion : Nat := 6
def maxPromptTextBytes : Nat := 16 * 1024
/-- Source-chooser list cap. -/
def maxChooseSourceOptions : Nat := 16

structure ConfirmRequest where
  title : String
  body : String
  acceptLabel : Option String
  denyLabel : Option String
  modal : Bool
  parentWindow : Option String
  deriving DecidableEq, Repr

structure SourceChoice where
  id : String
  label : String
  description : Option String
  deriving DecidableEq, Repr

structure ChooseSourceRequest where
  appId : String
  title : String
  options : List SourceChoice
  rememberOffered : Bool
  parentWindow : Option String
  deriving DecidableEq, Repr

inductive PromptRequest where
  | confirm (request : ConfirmRequest)
  | chooseSource (request : ChooseSourceRequest)
  deriving DecidableEq, Repr

structure PrompterRequest where
  version : Nat
  prompt : PromptRequest
  deriving DecidableEq, Repr

namespace PrompterRequest

def confirm (request : ConfirmRequest) : PrompterRequest := ⟨processContractVersion, .confirm request⟩
def chooseSource (request : ChooseSourceRequest) : PrompterRequest := ⟨processContractVersion, .chooseSource request⟩

end PrompterRequest

inductive ConfirmResponse where
  | confirmed
  | cancelled
  deriving DecidableEq, Repr

inductive ChooseSourceResponse where
  | selected (source : String) (remember : Bool)
  | cancelled
  deriving DecidableEq, Repr

inductive PromptResult where
  | fileChooser
  | confirm (response : ConfirmResponse)
  | secret
  | chooseApp
  | chooseSource (response : ChooseSourceResponse)
  | launcherEdit
  | failed (message : String)
  deriving DecidableEq, Repr

structure PrompterResponse where
  version : Nat
  result : PromptResult
  deriving DecidableEq, Repr

def PrompterResponse.intoResult (r : PrompterResponse) : Except String PromptResult :=
  if r.version ≠ processContractVersion then
    .error s!"unsupported prompter response version {r.version}; expected {processContractVersion}"
  else .ok r.result

/-! ## Validation -/

/-- The characters `str::trim` takes off. -/
def isWhitespace (c : Char) : Bool :=
  (9 ≤ c.toNat && c.toNat ≤ 13) || (0x2000 ≤ c.toNat && c.toNat ≤ 0x200A) ||
    [0x20, 0x85, 0xA0, 0x1680, 0x2028, 0x2029, 0x202F, 0x205F, 0x3000].contains c.toNat

def hasNul (value : String) : Bool := value.toList.any (·.toNat == 0)

def validatePromptText (name value : String) (allowEmpty : Bool) : Except String Unit :=
  if (!allowEmpty && value.toList.all isWhitespace) || decide (maxPromptTextBytes < value.utf8ByteSize) || hasNul value
  then .error s!"{name} is empty, oversized, or contains NUL"
  else .ok ()

/-- The checks of one option, `seen` being the ids before it. -/
def validateOption (seen : List String) (option : SourceChoice) : Except String Unit := do
  if option.id.isEmpty || decide (maxPromptTextBytes < option.id.utf8ByteSize) || hasNul option.id then
    .error "source ids must be non-empty, bounded, and NUL-free"
  else if option.id ∈ seen then .error s!"duplicate source id {repr option.id}"
  else
    validatePromptText "source label" option.label false
    match option.description with
    | some description => validatePromptText "source description" description true
    | none => .ok ()

def validateOptions : List String → List SourceChoice → Except String Unit
  | _, [] => .ok ()
  | seen, option :: rest => do
    validateOption seen option
    validateOptions (option.id :: seen) rest

def ChooseSourceRequest.validate (r : ChooseSourceRequest) : Except String Unit := do
  validatePromptText "source chooser title" r.title false
  match r.parentWindow with
  | some parent => validatePromptText "source chooser parent window" parent true
  | none => .ok ()
  if r.options.isEmpty ∨ maxChooseSourceOptions < r.options.length then
    .error s!"source chooser needs 1..={maxChooseSourceOptions} options"
  else validateOptions [] r.options

/-- The child's answer against the exact request. -/
def ChooseSourceResponse.validateFor (request : ChooseSourceRequest) : ChooseSourceResponse → Except String Unit
  | .cancelled => .ok ()
  | .selected source remember =>
    if ¬ request.options.any (·.id = source) then
      .error s!"prompter returned a source that was not offered: {repr source}"
    else if remember && !request.rememberOffered then
      .error "prompter remembered a source without the checkbox"
    else .ok ()

/-- An accepted answer names an offered source, and remembers it only where asked. -/
theorem ChooseSourceResponse.validateFor_selected {request : ChooseSourceRequest} {source : String} {remember : Bool} :
    validateFor request (.selected source remember) = .ok () ↔
      (∃ option ∈ request.options, option.id = source) ∧ (remember = true → request.rememberOffered = true) := by
  simp only [validateFor]
  split
  · next h =>
    have hno : ∀ option ∈ request.options, option.id ≠ source := by simpa using h
    simpa using fun option ho hs => absurd hs (hno option ho)
  · next h =>
    have hin : ∃ option ∈ request.options, option.id = source := by simpa using h
    split
    · next hr => simp_all
    · next hr => simp_all

end AtriumPortal.Prompter
