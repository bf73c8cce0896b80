import AtriumPortal.Lib.Percent
import AtriumPortal.Prompter.FileChooser
import AtriumPortal.Screenshot.Jobs
/-!
# The file chooser

`file_chooser.rs`: the task of one request, from its entry check to the results of
its reply, and `files.rs`' file URIs. `runPick_translates`: what an accepted answer
of the prompter becomes.
-/
open AtriumPortal.Lib AtriumPortal.Lib.Interact AtriumPortal.Lib.Path AtriumPortal.Lib.Checks
open AtriumPortal.Prompter
open AtriumPortal.Screenshot (fileUri unreserved hexDigits)

namespace AtriumPortal.Portal

/-! ## File URIs -/

def stripPrefix (head text : Bytes) : Option Bytes := if head.isPrefixOf text then some (text.drop head.length) else none

/-- The path that stands behind `file://`; a remote authority is refused. -/
def filePart (uri : Bytes) : Option Bytes :=
  ((stripPrefix (bytes "file://localhost/") uri).map (slash :: ·)).or (stripPrefix (bytes "file://") uri)

/-- `path_from_file_uri`. -/
def pathFromFileUri (uri : String) : Option Bytes := do
  let rest ← filePart (bytes uri)
  if rest.head? ≠ some slash then none
  else
    let path ← Percent.decode rest
    if 0 ∈ path then none else some path

/-- The escapes of `file_uri` are those that `path_from_file_uri` reads. -/
theorem encoded_byte (b : UInt8) :
    (if unreserved b then [Char.ofNat b.toNat] else '%' :: hexDigits b).flatMap String.utf8EncodeChar =
      Percent.encodeByte unreserved b := by
  have hall : ∀ n < 256, (if unreserved n.toUInt8 then [Char.ofNat n.toUInt8.toNat] else
      '%' :: hexDigits n.toUInt8).flatMap String.utf8EncodeChar = Percent.encodeByte unreserved n.toUInt8 := by
    decide +kernel
  have hb : b.toNat.toUInt8 = b := by simp
  exact hb ▸ hall b.toNat b.toNat_lt

theorem bytes_fileUri (path : Bytes) : bytes (fileUri path) = bytes "file://" ++ Percent.encode unreserved path := by
  rw [fileUri, bytes_append]
  refine congrArg _ ?_
  rw [bytes_eq, String.toList_ofList, List.flatMap_assoc, Percent.encode]
  exact List.flatMap_congr fun b _ => encoded_byte b

/-- A local path is read back byte for byte. -/
theorem pathFromFileUri_fileUri {path : Bytes} (habs : isAbsolute path = true) (hnul : 0 ∉ path) :
    pathFromFileUri (fileUri path) = some path := by
  have hslash : path.head? = some slash := by simpa [isAbsolute] using habs
  obtain ⟨rest, rfl⟩ : ∃ rest, path = slash :: rest := by
    cases path with
    | nil => cases hslash
    | cons b rest =>
      cases hslash
      exact ⟨rest, rfl⟩
  have hencode : Percent.encode unreserved (slash :: rest) = slash :: Percent.encode unreserved rest := by
    rw [Percent.encode, List.flatMap_cons]
    rfl
  have hpart : filePart (bytes (fileUri (slash :: rest))) = some (Percent.encode unreserved (slash :: rest)) := by
    have hfile : bytes "file://" = [102, 105, 108, 101, 58, 47, 47] := by decide
    have hlocal : bytes "file://localhost/" = bytes "file://" ++ 108 :: bytes "ocalhost/" := by decide
    rw [bytes_fileUri, hencode, filePart, hlocal, hfile]
    rfl
  rw [pathFromFileUri, hpart]
  simp only [Option.bind_eq_bind, Option.bind_some]
  rw [if_neg (by rw [hencode]; simp), Percent.decode_encode (by decide), Option.bind_some, if_neg hnul]

/-! ## The task of one request -/

namespace FileChooser

/-- What a reply's dictionary holds. -/
inductive Value where
  | strings (values : List String)
  | pairs (values : List (String × String))
  | filter (label : String) (rules : List (Nat × String))
  deriving DecidableEq, Repr

abbrev Results : Type := List (String × Value)

/-- A reply: its code and its dictionary. -/
abbrev Reply : Type := Nat × Results

def cancelled : Reply := (1, [])
def failed : Reply := (2, [])

inductive Action where
  | wasClosed
  /-- The child runs, and is stopped when the request is closed. -/
  | prompt (request : FileChooserRequest)
  deriving DecidableEq

/-- The prompter's answer; `none` is an answer to another kind of request. -/
@[reducible] def Action.Answer : Action → Type
  | .wasClosed => Bool
  | .prompt _ => Except InvokeError (Option FileChooserResponse)

abbrev Work (R : Type) : Type := Prog Action Action.Answer R

def Results.uris (results : Results) : List String :=
  match results.lookup "uris" with
  | some (.strings uris) => uris
  | _ => []

def Results.choices (results : Results) : List (String × String) :=
  match results.lookup "choices" with
  | some (.pairs choices) => choices
  | _ => []

theorem validateFor_selected {request : FileChooserRequest} {paths : List Bytes} {currentFilter : Option FileFilter}
    {choices : List (String × String)} :
    (FileChooserResponse.selected paths currentFilter choices).validateFor request = .ok () ↔
      (paths ≠ [] ∧ ∀ n, request.expectedPaths = some n → paths.length = n) ∧
        (∀ path ∈ paths, isAbsolute path = true ∧ 0 ∉ path) ∧ (∀ filter, currentFilter = some filter → request.Offers filter) ∧
        validateChoiceAnswers choices request.choices = .ok () := by
  have hcount : request.checkPathCount paths = .ok () ↔
      paths ≠ [] ∧ ∀ n, request.expectedPaths = some n → paths.length = n := by
    rw [FileChooserRequest.checkPathCount, refuse_eq_ok, not_or]
    cases request.expectedPaths <;> simp
  have hpath : ∀ path, validateLocalPath path = .ok () ↔ isAbsolute path = true ∧ 0 ∉ path := by
    intro path
    rw [validateLocalPath, refuse_eq_ok, not_or, Bool.not_eq_false]
  have hfilter : ∀ filter, request.checkFilter filter = .ok () ↔ request.Offers filter := by
    intro filter
    unfold FileChooserRequest.checkFilter
    split <;> simp [*]
  simp only [FileChooserResponse.validateFor, andThen_eq_ok, hcount, checkAll_eq_ok, hpath, checkSome_eq_ok, hfilter]

end FileChooser

end AtriumPortal.Portal
