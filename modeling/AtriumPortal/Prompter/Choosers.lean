import AtriumPortal.Prompter.Appearance
/-!
# The application chooser's request

`ChooseAppRequest` of the process contract and the choices embedded in it, with
exactly the requests that `validate` accepts.
-/
open AtriumPortal.Lib.Checks

namespace AtriumPortal.Prompter

def maxChooseAppCandidates : Nat := 64

structure AppChoice where
  id : String
  name : String
  icon : Option String
  deriving DecidableEq, Repr

/-- An embedded choice: a checkbox when it has no options. -/
structure Choice where
  id : String
  label : String
  options : List (String × String)
  selected : String
  deriving DecidableEq, Repr

structure ChooseAppRequest where
  appId : String
  title : String
  contentType : String
  parentWindow : Option String
  apps : List AppChoice
  choices : List Choice
  deriving DecidableEq, Repr

/-! ## Validation -/

def Choice.checkTexts (choice : Choice) : Except String Unit :=
  if choice.id = "" ∨ choice.label = "" then .error "choice ids and labels must not be empty" else .ok ()

def Choice.checkOptions (choice : Choice) : Except String Unit :=
  if choice.options.any fun (id, label) => id = "" ∨ label = "" then
    .error s!"choice {repr choice.id} contains an empty option"
  else if ¬ (choice.options.map (·.1)).Nodup then .error s!"choice {repr choice.id} has duplicate option ids"
  else if choice.options = [] then
    if choice.selected ∈ ["", "true", "false"] then .ok ()
    else .error s!"boolean choice {repr choice.id} has invalid value {repr choice.selected}"
  else if choice.selected ≠ "" ∧ choice.selected ∉ choice.options.map (·.1) then
    .error s!"choice {repr choice.id} selects unknown option {repr choice.selected}"
  else .ok ()

def validateChoices : List Choice → Except String Unit :=
  checkDistinct (·.id) Choice.checkTexts (fun choice => s!"duplicate choice id {repr choice.id}") Choice.checkOptions []

/-- `true` or `false` for a checkbox, one of the option ids otherwise. -/
def Choice.offers (choice : Choice) (value : String) : Bool :=
  if choice.options = [] then value = "true" || value = "false" else choice.options.any (·.1 = value)

/-- The loop over the answers and the choices they belong to. -/
def validateAnswers : List (String × String) → List Choice → Except String Unit
  | (id, selected) :: answers, requested :: choices => do
    if id ≠ requested.id then .error s!"prompter returned unexpected choice id {repr id}"
    else if requested.offers selected then validateAnswers answers choices
    else .error s!"prompter returned invalid value {repr selected} for choice {repr id}"
  | _, _ => .ok ()

def validateChoiceAnswers (answers : List (String × String)) (choices : List Choice) : Except String Unit :=
  if answers.length ≠ choices.length then .error "prompter returned the wrong number of choices"
  else validateAnswers answers choices

def AppChoice.checkId (app : AppChoice) : Except String Unit :=
  if app.id = "" ∨ maxPromptTextBytes < app.id.utf8ByteSize ∨ hasNul app.id then
    .error "app ids must be non-empty, bounded, and NUL-free"
  else .ok ()

def AppChoice.checkTexts (app : AppChoice) : Except String Unit := do
  validatePromptText "app name" app.name false
  checkSome (validatePromptText "app icon" · true) app.icon

def ChooseAppRequest.checkCount (r : ChooseAppRequest) : Except String Unit :=
  if r.apps = [] ∨ maxChooseAppCandidates < r.apps.length then
    .error s!"app chooser needs 1..={maxChooseAppCandidates} candidates"
  else .ok ()

def ChooseAppRequest.validate (r : ChooseAppRequest) : Except String Unit := do
  validatePromptText "app chooser title" r.title false
  validatePromptText "app chooser content type" r.contentType false
  checkSome (validatePromptText "app chooser parent window" · true) r.parentWindow
  r.checkCount
  checkDistinct (·.id) AppChoice.checkId (fun app => s!"duplicate app id {repr app.id}") AppChoice.checkTexts [] r.apps
  validateChoices r.choices

/-! ## What is accepted -/

/-- A candidate with something to show in its row. -/
structure AppChoice.Presentable (app : AppChoice) : Prop where
  named : ¬ Blank app.name
  name : Bounded app.name
  icon : ∀ icon, app.icon = some icon → Bounded icon

theorem AppChoice.checkTexts_eq_ok {app : AppChoice} : app.checkTexts = .ok () ↔ app.Presentable := by
  simp only [AppChoice.checkTexts, andThen_eq_ok, checkSome_eq_ok, validatePromptText_eq_ok, Bool.true_eq_false,
    false_imp_iff, true_and, true_imp_iff]
  exact ⟨fun ⟨⟨h, hn⟩, hi⟩ => ⟨h, hn, hi⟩, fun h => ⟨⟨h.named, h.name⟩, h.icon⟩⟩

theorem AppChoice.checkId_eq_ok {app : AppChoice} : app.checkId = .ok () ↔ app.id ≠ "" ∧ Bounded app.id := by
  simp only [AppChoice.checkId, refuse_eq_ok, not_or, Nat.not_lt, Bool.not_eq_true]
  exact ⟨fun ⟨h, hs, hn⟩ => ⟨h, hs, hn⟩, fun ⟨h, hs, hn⟩ => ⟨h, hs, hn⟩⟩

theorem ChooseAppRequest.validate_eq_ok {r : ChooseAppRequest} : r.validate = .ok () ↔
    (¬ Blank r.title ∧ Bounded r.title) ∧ (¬ Blank r.contentType ∧ Bounded r.contentType) ∧
      (∀ parent, r.parentWindow = some parent → Bounded parent) ∧
      (r.apps ≠ [] ∧ r.apps.length ≤ maxChooseAppCandidates) ∧
      (∀ app ∈ r.apps, (app.id ≠ "" ∧ Bounded app.id) ∧ app.Presentable) ∧ (r.apps.map (·.id)).Nodup ∧
      validateChoices r.choices = .ok () := by
  simp only [ChooseAppRequest.validate, andThen_eq_ok, checkSome_eq_ok, validatePromptText_eq_ok, Bool.true_eq_false,
    false_imp_iff, true_and, true_imp_iff, ChooseAppRequest.checkCount, refuse_eq_ok, not_or, Nat.not_lt,
    checkDistinct_eq_ok, AppChoice.checkId_eq_ok, AppChoice.checkTexts_eq_ok, List.not_mem_nil, not_false_eq_true,
    implies_true, and_true, and_assoc, ne_eq]

/-- What the source chooser asks of each of its options. -/
structure SourceChoice.Presentable (option : SourceChoice) : Prop where
  id : option.id ≠ "" ∧ Bounded option.id
  label : ¬ Blank option.label ∧ Bounded option.label
  description : ∀ description, option.description = some description → Bounded description

theorem validateOption_eq_ok {seen : List String} {option : SourceChoice} :
    validateOption seen option = .ok () ↔ option.Presentable ∧ option.id ∉ seen := by
  have hid : (option.id.isEmpty || decide (maxPromptTextBytes < option.id.utf8ByteSize) || hasNul option.id) = true ↔
      ¬ (option.id ≠ "" ∧ Bounded option.id) := by
    have hbounded : Bounded option.id ↔ option.id.utf8ByteSize ≤ maxPromptTextBytes ∧ hasNul option.id = false :=
      ⟨fun h => ⟨h.size, h.noNul⟩, fun h => ⟨h.1, h.2⟩⟩
    rw [hbounded]
    simp
    grind
  have hshown : option.Presentable ↔ (option.id ≠ "" ∧ Bounded option.id) ∧ (¬ Blank option.label ∧ Bounded option.label) ∧
      ∀ description, option.description = some description → Bounded description :=
    ⟨fun h => ⟨h.id, h.label, h.description⟩, fun h => ⟨h.1, h.2.1, h.2.2⟩⟩
  rw [hshown, validateOption]
  simp only [hid, refuseThen_eq_ok, andThen_eq_ok, validatePromptText_eq_ok, true_imp_iff, not_not]
  cases option.description with
  | none => simp; grind
  | some description => simp [validatePromptText_eq_ok]; grind

theorem validateOptions_eq_ok {seen : List String} {options : List SourceChoice} :
    validateOptions seen options = .ok () ↔
    (∀ option ∈ options, option.Presentable) ∧ (options.map (·.id)).Nodup ∧ ∀ option ∈ options, option.id ∉ seen := by
  induction options generalizing seen with
  | nil => simp [validateOptions]
  | cons option options ih =>
    simp only [validateOptions, andThen_eq_ok, validateOption_eq_ok, ih, List.map_cons, List.nodup_cons, List.mem_map,
      List.mem_cons, not_or, not_exists, not_and]
    grind

theorem ChooseSourceRequest.validate_eq_ok {r : ChooseSourceRequest} : r.validate = .ok () ↔
    (¬ Blank r.title ∧ Bounded r.title) ∧ (∀ parent, r.parentWindow = some parent → Bounded parent) ∧
      (r.options ≠ [] ∧ r.options.length ≤ maxChooseSourceOptions) ∧
      (∀ option ∈ r.options, option.Presentable) ∧ (r.options.map (·.id)).Nodup := by
  obtain ⟨appId, title, options, rememberOffered, parent⟩ := r
  cases parent with
  | none =>
    simp [ChooseSourceRequest.validate, andThen_eq_ok, validatePromptText_eq_ok, refuseThen_eq_ok, validateOptions_eq_ok,
      List.isEmpty_iff]
  | some parent =>
    simp [ChooseSourceRequest.validate, andThen_eq_ok, validatePromptText_eq_ok, refuseThen_eq_ok, validateOptions_eq_ok,
      List.isEmpty_iff]

end AtriumPortal.Prompter
