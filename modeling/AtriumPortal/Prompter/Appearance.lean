import AtriumPortal.Lib.Checks
import AtriumPortal.Prompter.Contract
/-!
# The request as it is sent

The appearance snapshot that `prompter::invoke` puts on every request, and the
envelope's `validate`: exactly when it accepts.
-/
open AtriumPortal.Lib.Checks

namespace AtriumPortal.Prompter

inductive PromptColorScheme where
  | system
  | dark
  | light
  deriving DecidableEq, Repr

structure PromptAccent where
  red : UInt8
  green : UInt8
  blue : UInt8
  deriving DecidableEq, Repr

structure PromptAppearance where
  colorScheme : PromptColorScheme
  accentColor : Option PromptAccent
  highContrast : Bool
  reducedMotion : Bool
  deriving DecidableEq, Repr

def PromptAppearance.validate (a : PromptAppearance) : Except String Unit :=
  if a.accentColor = some ⟨0, 0, 0⟩ then .error "appearance accent colour must not be black-transparent" else .ok ()

def ConfirmRequest.validate (r : ConfirmRequest) : Except String Unit := do
  validatePromptText "confirmation title" r.title false
  validatePromptText "confirmation body" r.body false
  checkSome (validatePromptText "confirmation accept label" · false) r.acceptLabel
  checkSome (validatePromptText "confirmation deny label" · true) r.denyLabel
  checkSome (validatePromptText "confirmation parent window" · true) r.parentWindow

def PromptRequest.validate : PromptRequest → Except String Unit
  | .confirm request => request.validate
  | .chooseSource request => request.validate

/-- The request with the appearance it is sent with. -/
structure StampedRequest where
  request : PrompterRequest
  appearance : Option PromptAppearance
  deriving DecidableEq, Repr

def PrompterRequest.withAppearance (request : PrompterRequest) (appearance : PromptAppearance) : StampedRequest :=
  ⟨request, some appearance⟩

def StampedRequest.validate (r : StampedRequest) : Except String Unit := do
  if r.request.version ≠ processContractVersion then
    .error s!"unsupported prompter request version {r.request.version}; expected {processContractVersion}"
  checkSome PromptAppearance.validate r.appearance
  r.request.prompt.validate

/-! ## When the checks accept -/

/-- `str::trim` leaves nothing. -/
def Blank (value : String) : Prop := value.toList.all isWhitespace

instance (value : String) : Decidable (Blank value) := inferInstanceAs (Decidable (_ = true))

/-- Within the text bound and without NUL. -/
structure Bounded (value : String) : Prop where
  size : value.utf8ByteSize ≤ maxPromptTextBytes
  noNul : hasNul value = false

instance (value : String) : Decidable (Bounded value) :=
  decidable_of_iff (value.utf8ByteSize ≤ maxPromptTextBytes ∧ hasNul value = false)
    ⟨fun h => ⟨h.1, h.2⟩, fun h => ⟨h.size, h.noNul⟩⟩

theorem bounded_empty : Bounded "" := ⟨by decide, rfl⟩

theorem hasNul_append (a b : String) : hasNul (a ++ b) = (hasNul a || hasNul b) := by
  simp [hasNul, String.toList_append]

theorem validatePromptText_eq_ok {name value : String} {allowEmpty : Bool} :
    validatePromptText name value allowEmpty = .ok () ↔ (allowEmpty = false → ¬ Blank value) ∧ Bounded value := by
  rw [validatePromptText, refuse_eq_ok]
  simp only [Bool.or_eq_true, Bool.and_eq_true, Bool.not_eq_true', decide_eq_true_eq, not_or, not_and, Nat.not_lt,
    Bool.not_eq_true, Blank]
  exact ⟨fun ⟨⟨hblank, hsize⟩, hnul⟩ => ⟨hblank, hsize, hnul⟩, fun ⟨hblank, hsize, hnul⟩ => ⟨⟨hblank, hsize⟩, hnul⟩⟩

theorem ConfirmRequest.validate_eq_ok {r : ConfirmRequest} : r.validate = .ok () ↔
    (¬ Blank r.title ∧ Bounded r.title) ∧ (¬ Blank r.body ∧ Bounded r.body) ∧
      (∀ label, r.acceptLabel = some label → ¬ Blank label ∧ Bounded label) ∧
      (∀ label, r.denyLabel = some label → Bounded label) ∧ ∀ parent, r.parentWindow = some parent → Bounded parent := by
  simp [ConfirmRequest.validate, andThen_eq_ok, checkSome_eq_ok, validatePromptText_eq_ok]

theorem PromptAppearance.validate_eq_ok {a : PromptAppearance} : a.validate = .ok () ↔ a.accentColor ≠ some ⟨0, 0, 0⟩ :=
  refuse_eq_ok

/-- A stamped request is accepted iff its appearance and its prompt are. -/
theorem withAppearance_validate_eq_ok {prompt : PromptRequest} {a : PromptAppearance} :
    ((⟨processContractVersion, prompt⟩ : PrompterRequest).withAppearance a).validate = .ok () ↔
      a.accentColor ≠ some ⟨0, 0, 0⟩ ∧ prompt.validate = .ok () := by
  simp [StampedRequest.validate, PrompterRequest.withAppearance, checkSome, andThen_eq_ok, PromptAppearance.validate_eq_ok]

end AtriumPortal.Prompter
