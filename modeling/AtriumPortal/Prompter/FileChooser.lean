import AtriumPortal.Lib.Path
import AtriumPortal.Prompter.Choosers
/-!
# The file chooser's request

`FileChooserRequest` and `FileChooserResponse` of the process contract, and how the
prompter turns the folder that was chosen for `SaveFiles` into one path for each
suggested name. A name is checked by its components, and given a suffix by its bytes.
-/
open AtriumPortal.Lib.Checks AtriumPortal.Lib.Path

namespace AtriumPortal.Prompter

inductive FileChooserMode where
  | openFile
  | openDirectory
  | saveFile
  | saveFiles
  deriving DecidableEq, Repr

inductive FilterRuleKind where
  | glob
  | mime
  deriving DecidableEq, Repr

structure FilterRule where
  kind : FilterRuleKind
  value : String
  deriving DecidableEq, Repr

structure FileFilter where
  label : String
  rules : List FilterRule
  deriving DecidableEq, Repr

structure FileChooserRequest where
  mode : FileChooserMode
  appId : String
  title : String
  acceptLabel : Option String
  modal : Bool
  parentWindow : Option String
  multiple : Bool
  currentFolder : Option Bytes
  currentName : Option String
  currentFile : Option Bytes
  filters : List FileFilter
  currentFilter : Option FileFilter
  choices : List Choice
  /-- Suggested basenames for `SaveFiles`, in request order. -/
  files : List Bytes
  deriving DecidableEq, Repr

/-! ## Validation -/

/-- `{:?}` of a path. -/
def debugPath (path : Bytes) : String :=
  match String.fromUTF8? ⟨path.toArray⟩ with
  | some text => reprStr text
  | none => reprStr path

def validateAbsolutePath (name : String) (path : Bytes) : Except String Unit :=
  if isAbsolute path = false ∨ 0 ∈ path then .error s!"{name} is not a valid absolute Unix path" else .ok ()

def validateBasename (path : Bytes) : Except String Unit :=
  if 0 ∈ path then .error "SaveFiles basenames must not contain NUL"
  else
    match components path with
    | [.normal (_ :: _)] => .ok ()
    | _ => .error s!"SaveFiles name {debugPath path} is not a single non-empty basename"

def FileChooserRequest.checkFiles (r : FileChooserRequest) : Except String Unit :=
  if r.mode ≠ .saveFiles ∧ r.files ≠ [] then .error "suggested files are valid only for SaveFiles"
  else if r.mode = .saveFiles ∧ r.files = [] then .error "SaveFiles requires at least one suggested basename"
  else .ok ()

def FileFilter.check (filter : FileFilter) : Except String Unit :=
  if filter.label = "" ∨ filter.rules.any (·.value = "") then .error "filter labels and rules must not be empty"
  else .ok ()

def FileChooserRequest.validate (r : FileChooserRequest) : Except String Unit := do
  checkSome (validateAbsolutePath "current_folder") r.currentFolder
  checkSome (validateAbsolutePath "current_file") r.currentFile
  r.checkFiles
  checkAll validateBasename r.files
  checkAll FileFilter.check (r.filters ++ r.currentFilter.toList)
  validateChoices r.choices

/-! ## The paths of `SaveFiles` -/

/-- What `symlink_metadata` says of a path. -/
inductive Lookup where
  | found
  | notFound
  | failed
  deriving DecidableEq, Repr

/-- Failures must not be interpreted as a free name. -/
def pathOccupied (lstat : Bytes → Lookup) (path : Bytes) : Bool :=
  match lstat path with
  | .found => true
  | .notFound => false
  | .failed => true

/-- The index of the last byte that is `b`. -/
def rposition (b : UInt8) (name : Bytes) : Option Nat :=
  (name.reverse.findIdx? (· == b)).map (name.length - 1 - ·)

def splitExtension (name : Bytes) : Bytes × Option Bytes :=
  match rposition dot name with
  | none => (name, none)
  | some i => if i = 0 ∨ i + 1 = name.length then (name, none) else (name.take i, some (name.drop (i + 1)))

/-- A number in decimal. -/
def decimal (n : Nat) : Bytes := (Nat.toDigits 10 n).map fun c => c.toNat.toUInt8

/-- The name with a suffix in front of its extension. -/
def numbered (name : Bytes) (suffix : Nat) : Bytes :=
  let (stem, extension) := splitExtension name
  stem ++ bytes "(" ++ decimal suffix ++ bytes ")" ++
    match extension with
    | some extension => dot :: extension
    | none => []

/-- `u32::MAX`, the last suffix. -/
def maxSuffix : Nat := 4294967295

/-- The suffixes from `suffix` on, as many as are left. -/
def firstFree (free : Bytes → Bool) (candidate : Nat → Bytes) : Nat → Nat → Option Bytes
  | 0, _ => none
  | left + 1, suffix =>
    if free (candidate suffix) then some (candidate suffix) else firstFree free candidate left (suffix + 1)

/-- Neither in the set of reserved paths, which compares components, nor on the disk. -/
def isFree (lstat : Bytes → Lookup) (reserved : List Bytes) (path : Bytes) : Bool :=
  !reserved.any (fun other => components other == components path) && !pathOccupied lstat path

def uniqueChild (lstat : Bytes → Lookup) (folder name : Bytes) (reserved : List Bytes) : Except String Bytes := do
  validateBasename name
  if isFree lstat reserved (join folder name) then .ok (join folder name)
  else
    match firstFree (isFree lstat reserved) (fun suffix => join folder (numbered name suffix)) maxSuffix 1 with
    | some path => .ok path
    | none => .error s!"could not construct a unique filename for {debugPath name}"

/-- The loop of `finish_paths`, with the paths reserved so far. -/
def finishLoop (lstat : Bytes → Lookup) (folder : Bytes) : List Bytes → List Bytes → Except String (List Bytes)
  | [], _ => .ok []
  | name :: names, reserved => do
    let path ← uniqueChild lstat folder name reserved
    let paths ← finishLoop lstat folder names (path :: reserved)
    .ok (path :: paths)

def FileChooserRequest.finishPaths (r : FileChooserRequest) (lstat : Bytes → Lookup) (selected : List Bytes) :
    Except String (List Bytes) :=
  if r.mode ≠ .saveFiles then .ok selected
  else
    match selected with
    | [] => .error "SaveFiles returned no selected folder"
    | folder :: _ => finishLoop lstat folder r.files []

/-! ## The response -/

inductive FileChooserResponse where
  | selected (paths : List Bytes) (currentFilter : Option FileFilter) (choices : List (String × String))
  | cancelled
  | failed (message : String)
  deriving DecidableEq, Repr

/-- `{:?}` of a mode. -/
def FileChooserMode.debug : FileChooserMode → String
  | .openFile => "OpenFile"
  | .openDirectory => "OpenDirectory"
  | .saveFile => "SaveFile"
  | .saveFiles => "SaveFiles"

/-- The number of paths that the request asks for; `none` where it may be any but 0. -/
def FileChooserRequest.expectedPaths (r : FileChooserRequest) : Option Nat :=
  match r.mode with
  | .saveFile => some 1
  | .saveFiles => some r.files.length
  | .openFile | .openDirectory => if r.multiple then none else some 1

def FileChooserRequest.checkPathCount (r : FileChooserRequest) (paths : List Bytes) : Except String Unit :=
  if paths = [] ∨ r.expectedPaths.any (paths.length ≠ ·) then
    .error s!"prompter returned {paths.length} path(s), incompatible with {r.mode.debug}"
  else .ok ()

def validateLocalPath (path : Bytes) : Except String Unit :=
  if isAbsolute path = false ∨ 0 ∈ path then .error s!"prompter returned an invalid local path {debugPath path}" else .ok ()

/-- A listed filter, or the current one of a request that lists none. -/
def FileChooserRequest.Offers (r : FileChooserRequest) (filter : FileFilter) : Prop :=
  filter ∈ r.filters ∨ r.filters = [] ∧ r.currentFilter = some filter

instance (r : FileChooserRequest) (filter : FileFilter) : Decidable (r.Offers filter) :=
  inferInstanceAs (Decidable (_ ∨ _))

def FileChooserRequest.checkFilter (r : FileChooserRequest) (filter : FileFilter) : Except String Unit :=
  if r.Offers filter then .ok () else .error "prompter returned a filter that was not offered"

/-- The child's answer against the exact request. -/
def FileChooserResponse.validateFor (request : FileChooserRequest) : FileChooserResponse → Except String Unit
  | .cancelled | .failed _ => .ok ()
  | .selected paths currentFilter choices => do
    request.checkPathCount paths
    checkAll validateLocalPath paths
    checkSome request.checkFilter currentFilter
    validateChoiceAnswers choices request.choices

end AtriumPortal.Prompter
