import AtriumPortal.Lib.Mailto
import AtriumPortal.Portal.Dialogs
import AtriumPortal.Portal.FileChooser
import Mathlib.Algebra.GroupWithZero.Nat
/-!
# The mailer's command line

`email.rs`: what ComposeEmail accepts, and the arguments that the mailer is run with.
`mailer_closed_iff` says exactly when its last argument names the recipients and
nothing else.
-/
open AtriumPortal.Lib AtriumPortal.Lib.Checks AtriumPortal.Prompter
open AtriumPortal.Lib.Path (Bytes bytes isAbsolute)

namespace AtriumPortal.Portal.Email

def maxRecipients : Nat := 512
def maxAttachments : Nat := 128
def maxMailerArgumentBytes : Nat := 256 * 1024

/-- Options parsed out of the dictionary. -/
structure ParsedOptions where
  addresses : List String
  cc : List String
  bcc : List String
  subject : Option String
  body : Option String
  attachments : List Bytes
  activationToken : Option String
  deriving DecidableEq, Repr

/-- A local `file://` URI, or an absolute path. -/
def attachmentPath (attachment : String) : Option Bytes :=
  if "file://".toList.isPrefixOf attachment.toList then pathFromFileUri attachment
  else if isAbsolute (bytes attachment) then some (bytes attachment)
  else none

def attachmentPaths : List String → Except String (List Bytes)
  | [] => .ok []
  | attachment :: rest =>
    match attachmentPath attachment with
    | none => .error s!"attachment is not a valid local file URI or absolute path: {attachment}"
    | some path => do
      let paths ← attachmentPaths rest
      return path :: paths

def attachmentsOf (options : OptionMap) : Except String (List Bytes) :=
  match options "attachments" with
  | none => .ok []
  | some (.strings uris) => attachmentPaths uris
  | some _ => .error "the attachments option must be an array of URI strings"

namespace ParsedOptions

def recipients (parsed : ParsedOptions) : List String := parsed.addresses ++ parsed.cc ++ parsed.bcc

def texts (parsed : ParsedOptions) : List String :=
  parsed.subject.toList ++ parsed.body.toList ++ parsed.activationToken.toList

/-- The bytes of all arguments. -/
def argumentBytes (parsed : ParsedOptions) : Nat :=
  ((parsed.recipients ++ parsed.texts).map String.utf8ByteSize).sum + (parsed.attachments.map List.length).sum

def checkRecipients (parsed : ParsedOptions) : Except String Unit :=
  if maxRecipients < parsed.recipients.length then
    .error s!"recipient count exceeds the {maxRecipients}-entry limit"
  else .ok ()

def checkAttachments (parsed : ParsedOptions) : Except String Unit :=
  if maxAttachments < parsed.attachments.length then
    .error s!"attachment count exceeds the {maxAttachments}-entry limit"
  else .ok ()

-- The sum only grows, so it passes the limit at some value iff it does at the last one.
def checkBytes (parsed : ParsedOptions) : Except String Unit :=
  if maxMailerArgumentBytes < parsed.argumentBytes then
    .error s!"mailer arguments exceed the {maxMailerArgumentBytes}-byte limit"
  else .ok ()

def validateLimits (parsed : ParsedOptions) : Except String Unit := do
  parsed.checkRecipients
  parsed.checkAttachments
  parsed.checkBytes

/-- `ParsedOptions::from`. -/
def fromOptions (options : OptionMap) : Except String ParsedOptions := do
  let attachments ← attachmentsOf options
  let parsed : ParsedOptions := {
    addresses := options.strings "addresses" ++ (options.string "address").toList
    cc := options.strings "cc"
    bcc := options.strings "bcc"
    subject := options.string "subject"
    body := options.string "body"
    attachments := attachments
    activationToken := options.string "activation_token" }
  parsed.validateLimits
  return parsed

end ParsedOptions

/-- The arguments: everything but the addresses as flags, the addresses as a `mailto:` URI. -/
def mailerArgv (parsed : ParsedOptions) : List Bytes :=
  parsed.cc.flatMap (fun address => [bytes "--cc", bytes address]) ++
    parsed.bcc.flatMap (fun address => [bytes "--bcc", bytes address]) ++
    parsed.subject.toList.flatMap (fun subject => [bytes "--subject", bytes subject]) ++
    parsed.body.toList.flatMap (fun body => [bytes "--body", bytes body]) ++
    parsed.attachments.flatMap (fun path => [bytes "--attach", path]) ++
    [bytes ("mailto:" ++ ",".intercalate parsed.addresses)]

/-! ## What the options ask for -/

def givenAddresses (options : OptionMap) : List String :=
  options.strings "addresses" ++ (options.string "address").toList

/-- The flags with their values; every attachment is a local path. -/
def givenFlags (options : OptionMap) : List (String × Bytes) :=
  (options.strings "cc").map (("--cc", bytes ·)) ++ (options.strings "bcc").map (("--bcc", bytes ·)) ++
    (options.string "subject").toList.map (("--subject", bytes ·)) ++
    (options.string "body").toList.map (("--body", bytes ·)) ++
    ((options.strings "attachments").filterMap attachmentPath).map (("--attach", ·))

/-- The last argument is a URI to exactly the addresses and without header fields, and the
others are exactly the flags and their values. -/
structure Closed (options : OptionMap) (argv : List Bytes) : Prop where
  flags : argv.dropLast = (givenFlags options).flatMap fun (flag, value) => [bytes flag, value]
  last : ∃ uri, argv.getLast? = some uri ∧ Mailto.read uri = some ⟨(givenAddresses options).map bytes, []⟩

theorem attachmentPaths_eq_ok {uris : List String} {paths : List Bytes} (h : attachmentPaths uris = .ok paths) :
    paths = uris.filterMap attachmentPath := by
  induction uris generalizing paths with
  | nil =>
    cases h
    rfl
  | cons uri uris ih =>
    unfold attachmentPaths at h
    split at h
    · cases h
    · next path hpath =>
      obtain ⟨rest, hrest, h⟩ := bind_eq_ok.1 h
      cases h
      rw [List.filterMap_cons_some hpath, ih hrest]

theorem attachmentsOf_eq_ok {options : OptionMap} {paths : List Bytes} (h : attachmentsOf options = .ok paths) :
    paths = (options.strings "attachments").filterMap attachmentPath := by
  unfold attachmentsOf at h
  unfold OptionMap.strings
  split at h
  · next hnone =>
    cases h
    rw [hnone]
    rfl
  · next uris huris =>
    rw [huris]
    exact attachmentPaths_eq_ok h
  · cases h

/-- The URI is the scheme and the joined addresses. -/
theorem bytes_mailto (addresses : List String) :
    bytes ("mailto:" ++ ",".intercalate addresses) = Mailto.scheme ++ Mailto.join (addresses.map bytes) := by
  have hscheme : bytes "mailto:" = Mailto.scheme := by decide +kernel
  have hcomma : bytes "," = [Mailto.ascii ','] := by decide +kernel
  have hjoin : bytes (",".intercalate addresses) = Mailto.join (addresses.map bytes) := by
    induction addresses with
    | nil => rfl
    | cons a rest ih =>
      cases rest with
      | nil => simp [Mailto.join]
      | cons b rest =>
        rw [String.intercalate_cons_cons, Path.bytes_append, Path.bytes_append, hcomma, ih]
        simp only [List.map_cons, Mailto.join_cons, List.append_assoc, List.singleton_append]
  rw [Path.bytes_append, hscheme, hjoin]

/-- The mailer's command line is closed against injection exactly when each address may stand
in the URI as it is. -/
theorem mailer_closed_iff {options : OptionMap} {parsed : ParsedOptions} (h : ParsedOptions.fromOptions options = .ok parsed) :
    Closed options (mailerArgv parsed) ↔ ∀ address ∈ givenAddresses options, Mailto.Plain (bytes address) := by
  obtain ⟨paths, hpaths, h⟩ := bind_eq_ok.1 h
  obtain ⟨-, h⟩ := andThen_eq_ok.1 h
  cases h
  obtain rfl := attachmentsOf_eq_ok hpaths
  have hread := Mailto.read_join_iff ((givenAddresses options).map bytes)
  rw [List.forall_mem_map] at hread
  rw [← hread, mailerArgv, bytes_mailto]
  constructor
  · rintro ⟨-, uri, hlast, hmail⟩
    rw [List.getLast?_append] at hlast
    cases hlast
    exact hmail
  · intro hmail
    refine ⟨?_, _, List.getLast?_concat, hmail⟩
    rw [List.dropLast_concat]
    simp only [givenFlags, List.flatMap_append, List.flatMap_map]

/-- The options with these addresses and nothing else. -/
def addressed (addresses : List String) : OptionMap
  | "addresses" => some (.strings addresses)
  | "subject" => some (.str "Hi?&%")
  | _ => none

theorem mailer_closed_iff_two : ∃ parsed, ParsedOptions.fromOptions (addressed ["a@b.c", "d.e+f@g.org"]) = .ok parsed ∧
    Closed (addressed ["a@b.c", "d.e+f@g.org"]) (mailerArgv parsed) := by
  have hok : ParsedOptions.fromOptions (addressed ["a@b.c", "d.e+f@g.org"]) = .ok _ := rfl
  exact ⟨_, hok, (mailer_closed_iff hok).2 (by decide +kernel)⟩

/-- An address with a query adds a recipient behind the user's back. -/
theorem mailer_injected : ∃ parsed, ParsedOptions.fromOptions (addressed ["a@b.c?bcc=evil@x.y"]) = .ok parsed ∧
    (mailerArgv parsed).getLast?.bind Mailto.read = some ⟨[bytes "a@b.c"], [(bytes "bcc", bytes "evil@x.y")]⟩ ∧
    ¬ Closed (addressed ["a@b.c?bcc=evil@x.y"]) (mailerArgv parsed) := by
  have hok : ParsedOptions.fromOptions (addressed ["a@b.c?bcc=evil@x.y"]) = .ok _ := rfl
  have hread : (mailerArgv ⟨["a@b.c?bcc=evil@x.y"], [], [], some "Hi?&%", none, [], none⟩).getLast?.bind Mailto.read =
      some ⟨[bytes "a@b.c"], [(bytes "bcc", bytes "evil@x.y")]⟩ := by
    decide +kernel
  refine ⟨_, hok, hread, fun hclosed => ?_⟩
  obtain ⟨uri, hlast, hmail⟩ := hclosed.last
  have hnone := hread.symm.trans ((congrArg (·.bind Mailto.read) hlast).trans hmail)
  cases hnone

end AtriumPortal.Portal.Email
