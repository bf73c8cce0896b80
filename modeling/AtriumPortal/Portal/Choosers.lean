import AtriumPortal.Apps.Lookup
import AtriumPortal.Portal.Dialogs
import AtriumPortal.Prompter.Choosers
import AtriumPortal.ScreenCast.Select
import Mathlib.Algebra.Group.Int.Defs
/-!
# The chooser dialogs

`open_uri.rs`, `app_chooser.rs` and `screencast.rs`: the choosers that are built from
what the system has, its desktop entries and its outputs. `chooser_accepted_iff`
says exactly when the prompter accepts one.
-/
open AtriumPortal.Apps AtriumPortal.Lib.Checks AtriumPortal.Prompter AtriumPortal.ScreenCast

namespace AtriumPortal.Portal

def appChoice (app : AppInfo) : AppChoice := ⟨app.id, app.name, app.icon⟩

/-! ## AppChooser -/

namespace AppChooser

/-- Candidate and embedded-choice caps, mirroring the prompter contract. -/
def maxCandidates : Nat := 64
def maxChoices : Nat := 16
/-- The choice ids treated as "make this the default application". -/
def rememberIds : List String := ["remember", "always"]

def rememberChoice : Choice := ⟨"remember", "Remember this choice", [], "false"⟩

/-- The first entry of each id. -/
def firstOfId : List String → List AppInfo → List AppInfo
  | _, [] => []
  | seen, app :: rest => if app.id ∈ seen then firstOfId seen rest else app :: firstOfId (app.id :: seen) rest

/-- The frontend's ids, or every application registered for the content type. -/
def resolveCandidates (dirs : AppDirs) (supplied : List String) (contentType : String) : List AppChoice :=
  let resolved :=
    if supplied = [] then dirs.appsForContentType contentType
    else (supplied.filterMap dirs.appById).filter (·.exec ≠ "")
  ((firstOfId [] resolved).take maxCandidates).map appChoice

/-- Move the preferred candidate to the front. -/
def orderCandidates (apps : List AppChoice) (preferred : Option String) : List AppChoice :=
  match preferred with
  | none => apps
  | some id =>
    match apps.find? (·.id = id) with
    | some app => app :: apps.eraseP (·.id = id)
    | none => apps

/-- The embedded choices; `supplied` are the frontend's, where they have the wire shape. -/
def prompterChoices (supplied : Option (List Choice)) : List Choice :=
  let choices := (supplied.getD []).take maxChoices
  if choices.any (·.id ∈ rememberIds) then choices else choices ++ [rememberChoice]

def preferred (dirs : AppDirs) (contentType : String) (lastChoice : Option String) (apps : List AppChoice) :
    Option String :=
  (lastChoice.filter fun id => apps.any (·.id = id)).or
    (((dirs.defaultApp contentType).map (·.id)).filter fun id => apps.any (·.id = id))

/-- The request of `build_request` before it is validated. -/
def request (dirs : AppDirs) (appId window : String) (supplied : List String) (contentType : String)
    (lastChoice : Option String) (choices : Option (List Choice)) : Except String ChooseAppRequest :=
  if resolveCandidates dirs supplied contentType = [] then .error s!"no application can open {repr contentType}"
  else .ok {
    appId := appId
    title := "Open with"
    contentType := contentType
    parentWindow := parentWindow window
    apps := orderCandidates (resolveCandidates dirs supplied contentType)
      (preferred dirs contentType lastChoice (resolveCandidates dirs supplied contentType))
    choices := prompterChoices choices }

def buildRequest (dirs : AppDirs) (appId window : String) (supplied : List String) (contentType : String)
    (lastChoice : Option String) (choices : Option (List Choice)) : Except String ChooseAppRequest := do
  let request ← request dirs appId window supplied contentType lastChoice choices
  request.validate
  return request

end AppChooser

/-! ## OpenURI -/

namespace OpenUri

inductive Decision where
  | launch (app : AppInfo)
  | choose (candidates : List AppChoice)
  | nothing
  deriving DecidableEq, Repr

/-- What the chooser offers: applications that need a terminal cannot be launched. -/
def candidates (dirs : AppDirs) (contentType : String) : List AppInfo :=
  (dirs.appsForContentType contentType).filter (!·.terminal)

def choose (dirs : AppDirs) (contentType : String) : Decision :=
  if candidates dirs contentType = [] then .nothing
  else .choose (AppChooser.orderCandidates ((candidates dirs contentType).map appChoice)
    ((dirs.defaultApp contentType).map (·.id)))

/-- Without `ask` a configured default launches directly. -/
def decide (dirs : AppDirs) (contentType : String) (ask : Bool) : Decision :=
  match dirs.defaultApp contentType with
  | some app => if ask then choose dirs contentType else .launch app
  | none => choose dirs contentType

/-- The request of `run_chooser`. -/
def chooserRequest (appId contentType : String) (parentWindow : Option String) (candidates : List AppChoice) :
    ChooseAppRequest where
  appId := appId
  title := "Open With"
  contentType := contentType
  parentWindow := parentWindow
  apps := candidates
  choices := [AppChooser.rememberChoice]

end OpenUri

/-! ## The calls -/

/-- A size as it travels. -/
def Sized (size : Ipc.Size) : Prop := (-2 ^ 31 ≤ size.w ∧ size.w < 2 ^ 31) ∧ -2 ^ 31 ≤ size.h ∧ size.h < 2 ^ 31

instance (size : Ipc.Size) : Decidable (Sized size) := inferInstanceAs (Decidable (_ ∧ _))

/-- A call whose chooser is built from what the system has. ChooseApplication comes
without choices of the frontend; SelectSources got its outputs from the compositor. -/
inductive ChooserCall where
  | openUri (dirs : AppDirs) (appId window contentType : String) (ask : Bool)
  | chooseApplication (dirs : AppDirs) (appId window contentType : String) (lastChoice : Option String)
  | selectSources (appId : String) (options : SelectSources.SelectOptions) (protocol : Nat)
      (outputs : List Ipc.OutputInfo) (sized : ∀ output ∈ outputs, Sized output.rect.size)

inductive ChooserRequest where
  | app (request : ChooseAppRequest)
  | source (request : ChooseSourceRequest)
  deriving DecidableEq, Repr

def ChooserRequest.validate : ChooserRequest → Except String Unit
  | .app request => request.validate
  | .source request => request.validate

/-- The request a call builds, where it comes to a chooser. -/
def ChooserCall.request : ChooserCall → Option ChooserRequest
  | .openUri dirs appId window contentType ask =>
    match OpenUri.decide dirs contentType ask with
    | .choose candidates => some (.app (OpenUri.chooserRequest appId contentType (parentWindow window) candidates))
    | _ => none
  | .chooseApplication dirs appId window contentType lastChoice =>
    match AppChooser.request dirs appId window [] contentType lastChoice none with
    | .ok request => some (.app request)
    | .error _ => none
  | .selectSources appId options protocol outputs _ =>
    if (SelectSources.choices options protocol outputs).length = 1 then none
    else some (.source (SelectSources.chooserRequest appId (SelectSources.choices options protocol outputs)
      (0 < options.persistMode)))

/-! ## When the prompter accepts them -/

/-- An entry with a name and, if it has one, an icon that the prompter takes. -/
structure Listable (app : AppInfo) : Prop where
  named : app.name ≠ ""
  name : hasNul app.name = false
  icon : ∀ icon, app.icon = some icon → Bounded icon

/-- Outputs that fit into one chooser, next to the desktop and the window pick. -/
structure OutputsFit (options : SelectSources.SelectOptions) (protocol : Nat) (outputs : List Ipc.OutputInfo) :
    Prop where
  count : outputs.length + (if SelectSources.windowOffered options protocol then 2 else 1) ≤ maxChooseSourceOptions
  distinct : (outputs.map (·.connector)).Nodup
  connector : ∀ output ∈ outputs, ¬ Blank output.connector ∧ hasNul output.connector = false ∧
    "output:".utf8ByteSize + output.connector.utf8ByteSize ≤ maxPromptTextBytes

def ChooserCall.Fits : ChooserCall → Prop
  | .openUri dirs _ window contentType _ => Bounded window ∧ ∀ app ∈ OpenUri.candidates dirs contentType, Listable app
  | .chooseApplication dirs _ window contentType _ =>
    Bounded window ∧ ∀ app ∈ dirs.appsForContentType contentType, Listable app
  | .selectSources _ options protocol outputs _ =>
    SelectSources.perSourceProtocol ≤ protocol → 1 < outputs.length → OutputsFit options protocol outputs

theorem presentable_iff {app : AppInfo} (h : AppDirs.Loaded app) : (appChoice app).Presentable ↔ Listable app := by
  obtain ⟨_, file, hfile⟩ := h
  obtain ⟨hblank, hsize⟩ := parseDesktopFile_name hfile
  constructor
  · exact fun h => ⟨fun hn => h.named (hblank.2 hn), h.name.noNul, h.icon⟩
  · exact fun h => ⟨fun hn => h.named (hblank.1 hn), ⟨hsize, h.name⟩, h.icon⟩

theorem loaded_id {app : AppInfo} (h : AppDirs.Loaded app) : app.id ≠ "" ∧ Bounded app.id := by
  have hvalid := h.1
  simp only [validDesktopId, decide_eq_true_eq] at hvalid
  exact ⟨hvalid.1, hvalid.2.1.trans (by decide), hvalid.2.2.2.2.1⟩

/-- A valid content type has something before its slash. -/
theorem validContentType_text {contentType : String} (h : validContentType contentType = true) :
    ¬ Blank contentType ∧ Bounded contentType := by
  unfold validContentType at h
  split at h
  · next kind subtype hsplit =>
    simp only [decide_eq_true_eq] at h
    have hslash : '/' ∈ contentType.toList := by
      by_contra hno
      rw [List.splitOn_eq_singleton hno] at hsplit
      cases hsplit
    refine ⟨?_, h.1.trans (by decide), h.2.1⟩
    intro hblank
    exact absurd (List.all_eq_true.1 hblank '/' hslash) (by decide)
  · exact absurd h (by decide)

/-- What was found, and the list without it. -/
theorem find_cons_eraseP {α : Type} {p : α → Bool} {l : List α} {a : α} (h : l.find? p = some a) :
    (a :: l.eraseP p).Perm l := by
  induction l with
  | nil => cases h
  | cons b l ih =>
    cases hb : p b with
    | true =>
      rw [List.find?_cons_of_pos hb] at h
      cases h
      rw [List.eraseP_cons_of_pos hb]
    | false =>
      rw [List.find?_cons_of_neg (by simp [hb])] at h
      rw [List.eraseP_cons_of_neg (by simp [hb])]
      exact (List.Perm.swap b a _).trans ((ih h).cons b)

theorem orderCandidates_perm (apps : List AppChoice) (preferred : Option String) :
    (AppChooser.orderCandidates apps preferred).Perm apps := by
  unfold AppChooser.orderCandidates
  split
  · exact .refl _
  · next id =>
    split
    · next app hfind => exact find_cons_eraseP hfind
    · exact .refl _

theorem firstOfId_of_nodup {apps : List AppInfo} {seen : List String} (h : (apps.map (·.id)).Nodup)
    (hseen : ∀ app ∈ apps, app.id ∉ seen) : AppChooser.firstOfId seen apps = apps := by
  induction apps generalizing seen with
  | nil => rfl
  | cons app apps ih =>
    rw [List.map_cons, List.nodup_cons] at h
    have hrest : ∀ other ∈ apps, other.id ∉ app.id :: seen := by
      intro other ho
      rw [List.mem_cons, not_or]
      exact ⟨fun he => h.1 (List.mem_map.2 ⟨other, ho, he⟩), hseen other (List.mem_cons_of_mem _ ho)⟩
    rw [AppChooser.firstOfId, if_neg (hseen app (List.mem_cons_self ..)), ih h.2 hrest]

theorem resolveCandidates_nil (dirs : AppDirs) (contentType : String) :
    AppChooser.resolveCandidates dirs [] contentType = (dirs.appsForContentType contentType).map appChoice := by
  obtain ⟨hnodup, hlength, _, _⟩ := dirs.appsForContentType_spec contentType
  rw [AppChooser.resolveCandidates, if_pos rfl, firstOfId_of_nodup hnodup (by simp),
    List.take_of_length_le (show _ ≤ AppChooser.maxCandidates from hlength)]

/-- A chooser over a selection of the registered applications, in any order. -/
theorem validate_chooser {dirs : AppDirs} {contentType title appId window : String} {apps : List AppInfo}
    {choices : List AppChoice} (happs : apps.Sublist (dirs.appsForContentType contentType)) (hne : apps ≠ [])
    (hperm : choices.Perm (apps.map appChoice))
    (htitle : ¬ Blank title ∧ Bounded title) :
    (ChooseAppRequest.mk appId title contentType (parentWindow window) choices [AppChooser.rememberChoice]).validate =
      .ok () ↔ Bounded window ∧ ∀ app ∈ apps, Listable app := by
  obtain ⟨hnodup, hlength, hloaded, htype⟩ := dirs.appsForContentType_spec contentType
  have hloaded' : ∀ app ∈ apps, AppDirs.Loaded app := fun app happ => hloaded app (happs.subset happ)
  have hcontent : ¬ Blank contentType ∧ Bounded contentType :=
    validContentType_text (htype fun hnil => hne (List.sublist_nil.1 (hnil ▸ happs)))
  have hchoices : choices ≠ [] ∧ choices.length ≤ maxChooseAppCandidates := by
    constructor
    · intro hnil
      rw [hnil] at hperm
      exact hne (List.map_eq_nil_iff.1 hperm.nil_eq.symm)
    · rw [hperm.length_eq, List.length_map]
      exact happs.length_le.trans hlength
  have hids : (choices.map (·.id)).Nodup := by
    rw [(hperm.map _).nodup_iff, List.map_map]
    exact (happs.map (·.id)).nodup hnodup
  have hremember : validateChoices [AppChooser.rememberChoice] = .ok () := by decide
  have hshown : (∀ choice ∈ choices, (choice.id ≠ "" ∧ Bounded choice.id) ∧ choice.Presentable) ↔
      ∀ app ∈ apps, Listable app := by
    constructor
    · intro h app happ
      exact (presentable_iff (hloaded' app happ)).1 (h _ (hperm.mem_iff.2 (List.mem_map_of_mem happ))).2
    · intro h choice hc
      obtain ⟨app, happ, rfl⟩ := List.mem_map.1 (hperm.mem_iff.1 hc)
      exact ⟨loaded_id (hloaded' app happ), (presentable_iff (hloaded' app happ)).2 (h app happ)⟩
  rw [ChooseAppRequest.validate_eq_ok]
  simp only [htitle, hcontent, parentWindow_bounded_iff, hchoices, hshown, hids, hremember, not_false_eq_true, and_true,
    true_and, ne_eq]

/-! ## Outputs -/

/-- A number of 32 bits prints as a sign and ten digits at most. -/
theorem printed_int {n : Int} (hlow : -2 ^ 31 ≤ n) (hhigh : n < 2 ^ 31) :
    (toString n).utf8ByteSize ≤ 41 ∧ hasNul (toString n) = false := by
  have hnat : ∀ m : Nat, m < 10 ^ 10 → m.repr.utf8ByteSize ≤ 40 ∧ hasNul m.repr = false := by
    intro m hm
    constructor
    · rw [Nat.repr_eq_ofList_toDigits]
      have hdigits : (Nat.toDigits 10 m).length ≤ 10 := (Nat.length_toDigits_le_iff (by decide) (by decide)).2 hm
      exact (Lib.Text.utf8ByteSize_ofList_le _).trans (Nat.mul_le_mul_left 4 hdigits)
    · rw [hasNul, Nat.toList_repr, List.any_eq_false]
      intro c hc
      have hdigit := Nat.isDigit_of_mem_toDigits (by decide) (by decide) hc
      simp only [Char.isDigit, Bool.and_eq_true, decide_eq_true_eq] at hdigit
      have : 48 ≤ c.toNat := hdigit.1
      simp only [beq_iff_eq]
      omega
  rw [Int.toString_eq_repr, Int.repr_eq_if]
  split
  · obtain ⟨hsize, hnul⟩ := hnat n.toNat (by omega)
    exact ⟨by omega, hnul⟩
  · obtain ⟨hsize, hnul⟩ := hnat (-n).toNat (by omega)
    rw [String.utf8ByteSize_append, hasNul_append, hnul]
    exact ⟨Nat.add_le_add_left hsize 1, rfl⟩

theorem description_bounded {output : Ipc.OutputInfo} (h : Sized output.rect.size) :
    ∀ description, (SelectSources.outputChoice output).description = some description → Bounded description := by
  rintro description hd
  obtain ⟨⟨hw, hw'⟩, hh, hh'⟩ := h
  obtain ⟨hwsize, hwnul⟩ := printed_int hw hw'
  obtain ⟨hhsize, hhnul⟩ := printed_int hh hh'
  cases hd
  have hprimary : (if output.primary then ", primary" else "").utf8ByteSize ≤ 9 ∧
      hasNul (if output.primary then ", primary" else "") = false := by
    cases output.primary <;> decide
  constructor
  · simp only [String.utf8ByteSize_append]
    calc _ ≤ 41 + 2 + 41 + 9 :=
          Nat.add_le_add (Nat.add_le_add (Nat.add_le_add hwsize (by decide)) hhsize) hprimary.1
      _ ≤ maxPromptTextBytes := by decide
  · have hsign : hasNul (toString "×") = false := by decide
    simp only [hasNul_append, hwnul, hsign, hhnul, Bool.false_or]
    exact hprimary.2

theorem outputChoice_presentable {output : Ipc.OutputInfo} (h : Sized output.rect.size) :
    (SelectSources.outputChoice output).Presentable ↔ ¬ Blank output.connector ∧ hasNul output.connector = false ∧
      "output:".utf8ByteSize + output.connector.utf8ByteSize ≤ maxPromptTextBytes := by
  constructor
  · intro hp
    have hsize := hp.id.2.size
    rw [SelectSources.outputChoice, String.utf8ByteSize_append] at hsize
    exact ⟨hp.label.1, hp.label.2.noNul, hsize⟩
  · rintro ⟨hblank, hnul, hsize⟩
    refine ⟨⟨?_, ?_, ?_⟩, ⟨hblank, (Nat.le_add_left ..).trans hsize, hnul⟩, description_bounded h⟩
    · intro he
      have := congrArg String.utf8ByteSize he
      rw [SelectSources.outputChoice, String.utf8ByteSize_append] at this
      simp at this
    · rw [SelectSources.outputChoice, String.utf8ByteSize_append]
      exact hsize
    · rw [SelectSources.outputChoice, hasNul_append, hnul]
      rfl

theorem fixed_presentable : SelectSources.desktopChoice.Presentable ∧ SelectSources.windowChoice.Presentable :=
  ⟨⟨⟨by decide, ⟨by decide, by decide⟩⟩, ⟨by decide, ⟨by decide, by decide⟩⟩, nofun⟩,
    ⟨⟨by decide, ⟨by decide, by decide⟩⟩, ⟨by decide, ⟨by decide, by decide⟩⟩, nofun⟩⟩

/-- An output's id is not one of the fixed ids. -/
theorem outputChoice_id_ne {output : Ipc.OutputInfo} {id : String} (h : SelectSources.isOutputId id = false) :
    (SelectSources.outputChoice output).id ≠ id := by
  rintro rfl
  simp [SelectSources.isOutputId, SelectSources.outputChoice, String.toList_append] at h

/-- The source chooser's options: what the outputs and the window pick add to the desktop. -/
theorem choices_presentable {options : SelectSources.SelectOptions} {protocol : Nat} {outputs : List Ipc.OutputInfo}
    (hsized : ∀ output ∈ outputs, Sized output.rect.size) :
    (((SelectSources.choices options protocol outputs).length ≤ maxChooseSourceOptions ∧
      (∀ option ∈ SelectSources.choices options protocol outputs, option.Presentable)) ∧
        ((SelectSources.choices options protocol outputs).map (·.id)).Nodup) ↔
      (SelectSources.perSourceProtocol ≤ protocol → 1 < outputs.length → OutputsFit options protocol outputs) := by
  by_cases hmany : SelectSources.perSourceProtocol ≤ protocol ∧ 1 < outputs.length
  · have hids : (outputs.map fun output => (SelectSources.outputChoice output).id).Nodup ↔
        (outputs.map (·.connector)).Nodup := by
      have hmap : outputs.map (fun output => (SelectSources.outputChoice output).id) =
          (outputs.map (·.connector)).map ("output:" ++ ·) := by simp [SelectSources.outputChoice]
      rw [hmap]
      exact List.nodup_map_iff fun a b hab => (String.append_right_inj "output:").1 hab
    have hoption : (∀ output ∈ outputs, (SelectSources.outputChoice output).Presentable) ↔
        ∀ output ∈ outputs, ¬ Blank output.connector ∧ hasNul output.connector = false ∧
          "output:".utf8ByteSize + output.connector.utf8ByteSize ≤ maxPromptTextBytes :=
      forall₂_congr fun output ho => outputChoice_presentable (hsized output ho)
    have hdesktop : ∀ output ∈ outputs, (SelectSources.outputChoice output).id ≠ SelectSources.desktopChoice.id :=
      fun output _ => outputChoice_id_ne (by decide)
    have hwindow : ∀ output ∈ outputs, (SelectSources.outputChoice output).id ≠ SelectSources.windowChoice.id :=
      fun output _ => outputChoice_id_ne (by decide)
    have hfit : OutputsFit options protocol outputs ↔
        (outputs.length + (if SelectSources.windowOffered options protocol then 2 else 1) ≤ maxChooseSourceOptions ∧
          ∀ output ∈ outputs, (SelectSources.outputChoice output).Presentable) ∧
            (outputs.map fun output => (SelectSources.outputChoice output).id).Nodup := by
      rw [hids, hoption]
      exact ⟨fun h => ⟨⟨h.count, h.connector⟩, h.distinct⟩, fun h => ⟨h.1.1, h.2, h.1.2⟩⟩
    simp only [hmany, true_imp_iff, hfit, SelectSources.choices, decide_true, Bool.and_self, if_true]
    have hne : SelectSources.desktopChoice.id ≠ SelectSources.windowChoice.id := by decide
    obtain ⟨hdesk, hwin⟩ := fixed_presentable
    cases SelectSources.windowOffered options protocol with
    | true =>
      simp only [if_true, List.length_cons, List.length_append, List.length_map, List.length_nil, List.forall_mem_cons,
        List.forall_mem_append, List.forall_mem_map, List.map_cons, List.map_append, List.map_map, List.nodup_cons,
        List.nodup_append]
      grind
    | false =>
      simp
      grind
  · have hchoices : SelectSources.choices options protocol outputs =
        SelectSources.desktopChoice ::
          if SelectSources.windowOffered options protocol then [SelectSources.windowChoice] else [] := by
      have : (decide (SelectSources.perSourceProtocol ≤ protocol) && decide (1 < outputs.length)) = false := by
        simpa using hmany
      simp [SelectSources.choices, this]
    refine ⟨fun _ hp hl => absurd ⟨hp, hl⟩ hmany, fun _ => ?_⟩
    obtain ⟨hdesk, hwin⟩ := fixed_presentable
    rw [hchoices]
    cases SelectSources.windowOffered options protocol with
    | true => exact ⟨⟨by decide, by simp [hdesk, hwin]⟩, by decide⟩
    | false => exact ⟨⟨by decide, by simp [hdesk]⟩, by decide⟩

/-- **The choosers that are accepted.** A chooser over desktop entries is accepted iff
each of them has a name and texts that the prompter takes; one over outputs, iff they
fit into it and their connectors differ and can be shown. -/
theorem chooser_accepted_iff (call : ChooserCall) (request : ChooserRequest) (h : call.request = some request) :
    request.validate = .ok () ↔ call.Fits := by
  cases call with
  | openUri dirs appId window contentType ask =>
    have hchoose : ∀ candidates, OpenUri.decide dirs contentType ask = .choose candidates →
        OpenUri.choose dirs contentType = .choose candidates := by
      intro candidates hd
      unfold OpenUri.decide at hd
      split at hd
      · split at hd
        · exact hd
        · cases hd
      · exact hd
    simp only [ChooserCall.request] at h
    split at h
    · next candidates hd =>
      have hc := hchoose candidates hd
      rw [OpenUri.choose] at hc
      split at hc
      · cases hc
      · next hne =>
        cases hc
        cases h
        exact validate_chooser List.filter_sublist hne (orderCandidates_perm _ _) (by decide)
    · cases h
  | chooseApplication dirs appId window contentType lastChoice =>
    simp only [ChooserCall.request, AppChooser.request, resolveCandidates_nil] at h
    split at h
    · next hreq =>
      split at hreq
      · cases hreq
      · next hne =>
        cases hreq
        cases h
        exact validate_chooser (List.Sublist.refl _) (fun hnil => hne (by rw [hnil]; rfl)) (orderCandidates_perm _ _)
          (by decide)
    · cases h
  | selectSources appId options protocol outputs sized =>
    simp only [ChooserCall.request] at h
    split at h
    · cases h
    · cases h
      have htitle : ¬ Blank "Share Your Screen" ∧ Bounded "Share Your Screen" := by decide
      have hsome : SelectSources.choices options protocol outputs ≠ [] := List.cons_ne_nil _ _
      rw [ChooserRequest.validate, ChooseSourceRequest.validate_eq_ok, ChooserCall.Fits, ← choices_presentable sized]
      simp [SelectSources.chooserRequest, htitle, hsome, and_assoc]

/-- Two editors, the second under the given name. -/
def editorFile (name : String) : List UInt8 :=
  ("[Desktop Entry]\nName=" ++ name ++ "\nExec=edit %U\nMimeType=text/plain;\n").toUTF8.toList

def editors (name : String) : AppDirs where
  applications := [{
    listing := some ["editor.desktop", "viewer.desktop"]
    file := fun id =>
      if id = "editor.desktop" then some (editorFile "Editor")
      else if id = "viewer.desktop" then some (editorFile name)
      else none }]
  configs := []

def openText (name : String) : ChooserCall := .openUri (editors name) "org.example.Files" "" "text/plain" false

theorem chooser_accepted_editors : ∃ request, (openText "Viewer").request = some request ∧ request.validate = .ok () ∧
    (openText "Viewer").Fits := by
  have hrun : (openText "Viewer").request.map ChooserRequest.validate = some (.ok ()) := by decide +kernel
  obtain ⟨request, hrequest, hok⟩ := Option.map_eq_some_iff.1 hrun
  exact ⟨request, hrequest, hok, (chooser_accepted_iff _ request hrequest).1 hok⟩

/-- As many outputs as the chooser has room for, and the desktop next to them. -/
def wall : List Ipc.OutputInfo :=
  ["A", "B", "C", "D", "E", "F", "G", "H", "I", "J", "K", "L", "M", "N", "O", "P"].map (⟨·, false, ⟨⟨0, 0⟩, ⟨1920, 1080⟩⟩⟩)

def shareWall : ChooserCall :=
  .selectSources "org.example.Meet" ⟨1, 2, 0, none⟩ 29 wall (by
    intro output ho
    obtain ⟨_, _, rfl⟩ := List.mem_map.1 ho
    exact show Sized ⟨1920, 1080⟩ by decide)

/-- One entry without a name, or one output too many, and there is no chooser at all. -/
theorem chooser_refused :
    (openText "").request.map ChooserRequest.validate = some (.error "app name is empty, oversized, or contains NUL") ∧
      shareWall.request.map ChooserRequest.validate = some (.error "source chooser needs 1..=16 options") := by
  decide +kernel

end AtriumPortal.Portal
