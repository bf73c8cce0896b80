import AtriumPortal.Apps.Lookup
import AtriumPortal.Apps.Recorded
import AtriumPortal.Lib.Checks
/-!
# Setting a default application

`set_default_app` of `apps.rs` against `default_app`. `takesEffect_iff`: the new default
is found and the other content types keep theirs exactly when the edited file can be
read back.
-/
open AtriumPortal.Lib AtriumPortal.Lib.Checks AtriumPortal.Lib.Text AtriumPortal.Lib.Sections AtriumPortal.Prompter

namespace AtriumPortal.Apps

inductive IoError where
  | invalidInput (text : String)
  | invalidData (text : String)
  | os (code : Nat)
  deriving DecidableEq, Repr

/-- What the operating system refuses. `unreadable` is an error other than a missing file. -/
structure Refusals where
  unreadable : Option Nat
  createDir : Option Nat
  write : Option Nat
  rename : Option Nat

def attempt (refused : Option Nat) : Except IoError Unit :=
  match refused with
  | some code => .error (.os code)
  | none => .ok ()

/-- The text of `mimeapps.list`; a missing file is empty. -/
def readExisting (refusals : Refusals) (home : Directory) : Except IoError (List Char) :=
  match home.file "mimeapps.list" with
  | some bytes =>
    if bytes.length ≤ maxEntryBytes then .ok (fromUtf8Lossy bytes)
    else .error (.invalidData "mimeapps.list exceeds the size cap")
  | none =>
    match refusals.unreadable with
    | some code => .error (.os code)
    | none => .ok []

/-- The directory with the text as its `mimeapps.list`. -/
def Directory.withMimeapps (home : Directory) (text : List Char) : Directory where
  listing := some (AppDirs.pushNew (home.listing.getD []) "mimeapps.list")
  file name := if name = "mimeapps.list" then some (Path.bytes (String.ofList text)) else home.file name

/-- The configuration home after the write. -/
def setDefaultApp (refusals : Refusals) (home : Directory) (contentType desktopId : String) : Except IoError Directory :=
  if !validContentType contentType || !validDesktopId desktopId then
    .error (.invalidInput "invalid content type or desktop id")
  else do
    let existing ← readExisting refusals home
    attempt refusals.createDir
    attempt refusals.write
    attempt refusals.rename
    return home.withMimeapps (updateDefaultApplications existing contentType desktopId)

/-- The directories with this configuration home. -/
def dirsWith (home : Directory) (configs applications : List Directory) : AppDirs := ⟨applications, home :: configs⟩

/-- After every write that succeeds, whatever the other directories hold, the default is the application of
the id if there is one, and other content types have the default they had. -/
def TakesEffect (home : Directory) (contentType desktopId : String) : Prop :=
  ∀ refusals home', setDefaultApp refusals home contentType desktopId = .ok home' → ∀ configs applications,
    (∀ app, (dirsWith home' configs applications).appById desktopId = some app →
      (dirsWith home' configs applications).defaultApp contentType = some app) ∧
    ∀ another, another ≠ contentType →
      (dirsWith home' configs applications).defaultApp another = (dirsWith home configs applications).defaultApp another

/-- The text that is there. -/
def existing (home : Directory) : List Char :=
  match home.file "mimeapps.list" with
  | some bytes => fromUtf8Lossy bytes
  | none => []

/-- The bytes of the text's lines with the default set. A line of the key gets the id before its others; where the
first `[Default Applications]` group has no such line, or there is no group, lines are added. -/
def sizeWith (text : List Char) (contentType desktopId : String) : Nat :=
  let kind := lineKind contentType.toList
  let added := size (keyLine contentType.toList desktopId.toList)
  ((kept kind false (rows text)).map (size · + 1)).sum +
    ((entries kind false (rows text)).map fun body =>
      size (keyLine contentType.toList (withFallbacks desktopId.toList (valueOf body)))).sum +
    if HasGoal kind (rows text) then if lacking kind false (rows text) then added else 0
    else (if rows text = [] then 0 else 1) + size "[Default Applications]\n".toList + added

/-- The text with the default set can be read back: its key and id, and its size. Behind a dangling text the
key still stands on a line of its own if the last line is blank. -/
structure Legible (text : List Char) (contentType desktopId : String) : Prop where
  key : KeyType contentType
  item : PlainId desktopId
  place : (¬ Dangling text contentType ∧ contentType.toList.head? ≠ some '#' ∧
      sizeWith text contentType desktopId ≤ maxEntryBytes) ∨
    (Dangling text contentType ∧ (∀ last, (rows text).getLast? = some last → ∀ c ∈ last, isWhitespace c = true) ∧
      size (text ++ keyLine contentType.toList desktopId.toList) ≤ maxEntryBytes)

/-! ## The size of the edited text -/

theorem size_unlines (bodies : List (List Char)) : size (unlines bodies) = (bodies.map (size · + 1)).sum := by
  have hnewline : '\n'.utf8Size = 1 := by decide
  induction bodies with
  | nil => rfl
  | cons body bodies ih => simp [unlines_cons, ih, hnewline, Nat.add_assoc]

theorem size_update {text : List Char} {contentType : String} (h : ¬ Dangling text contentType) (desktopId : String) :
    size (updateDefaultApplications text contentType desktopId) = sizeWith text contentType desktopId := by
  have hkeyLine : ∀ value, size (keyLine contentType.toList value) = size (row contentType.toList value) + 1 := by
    intro value
    rw [keyLine_eq, size_append]
    rfl
  rw [update_eq h, size_unlines, setRows, sum_setKey, sizeWith]
  simp only [hkeyLine]
  rfl

/-! ## Lines of other content types -/

theorem lineKind_header (contentType another body : List Char) (goal : Bool) :
    lineKind another body = .header goal ↔ lineKind contentType body = .header goal :=
  lineKind_header_iff.trans lineKind_header_iff.symm

/-- An entry of one content type is none of another. -/
theorem readerKind_another {contentType another body : List Char} (hne : another ≠ contentType)
    (h : lineKind contentType body = .entry) : readerKind another body = .other := by
  obtain ⟨-, key, value, hsplit, hkey⟩ := lineKind_entry_iff.1 h
  cases hread : readerKind another body with
  | header goal =>
    rw [(lineKind_header another contentType body goal).2 ((readerKind_header _ _ _).1 hread)] at h
    cases h
  | other => rfl
  | entry =>
    obtain ⟨-, -, key', value', hsplit', hkey', -⟩ := readerKind_entry_iff.1 hread
    obtain ⟨rfl, rfl⟩ := Prod.mk.inj (Option.some.inj (hsplit.symm.trans hsplit'))
    exact absurd (hkey'.symm.trans hkey) hne

/-! ## A blank line before the key -/

section

variable {contentType : String} {last value : List Char}

theorem splitOnce_front_row (h : '=' ∉ contentType.toList) (hlast : '=' ∉ last) :
    splitOnce '=' (last ++ row contentType.toList value) = some (last ++ contentType.toList, value ++ [';']) := by
  have hnone : '=' ∉ last ++ contentType.toList := fun hin => (List.mem_append.1 hin).elim hlast h
  have hrow : last ++ row contentType.toList value = (last ++ contentType.toList) ++ '=' :: (value ++ [';']) := by
    simp [row]
  rw [hrow, splitOnce_append hnone]

theorem headerOf_front_row : headerOf (last ++ row contentType.toList value) = none := by
  rw [row, ← List.append_assoc]
  exact headerOf_semicolon _

/-- Behind a blank start of a line the key is read, even one that begins like a comment. -/
theorem readLine_blank_row (h : KeyType contentType) (hblank : ∀ c ∈ last, isWhitespace c = true) (hne : last ≠ []) :
    readLine (last ++ row contentType.toList value) =
      .pair contentType.toList (trimEnd isWhitespace (value ++ [';'])) := by
  have hequals : '=' ∉ last := fun hin => absurd (hblank _ hin) (by decide)
  have hcomment : (trimEnd isWhitespace (last ++ row contentType.toList value)).head? ≠ some '#' := by
    have hrow : last ++ row contentType.toList value = (last ++ contentType.toList) ++ '=' :: (value ++ [';']) := by
      simp [row]
    obtain ⟨c, rest, rfl⟩ := List.exists_cons_of_ne_nil hne
    rw [hrow, trimEnd_append (by decide), List.cons_append, List.cons_append, List.head?_cons]
    rintro ⟨⟩
    exact absurd (hblank '#' List.mem_cons_self) (by decide)
  rw [readLine_header, headerOf_front_row, splitOnce_front_row h.noEquals hequals]
  dsimp only
  rw [if_neg hcomment, trim_leading hblank, h.trimmed]

theorem readerKind_blank {key : List Char} (hblank : ∀ c ∈ last, isWhitespace c = true) : readerKind key last = .other := by
  have htrim : trimEnd isWhitespace last = [] := List.rdropWhile_eq_nil_iff.2 hblank
  have hline : readLine last = .other := by
    rw [readLine, htrim]
    rfl
  rw [readerKind, hline]

theorem readerKind_blank_row (h : KeyType contentType) (hct : contentType.toList ≠ [])
    (hblank : ∀ c ∈ last, isWhitespace c = true) (hne : last ≠ []) :
    readerKind contentType.toList (last ++ row contentType.toList value) = .entry := by
  rw [readerKind, readLine_blank_row h hblank hne]
  exact if_pos ⟨rfl, hct, h.noBracket⟩

theorem idsOf_blank_row (h : KeyType contentType) (hblank : ∀ c ∈ last, isWhitespace c = true) (hne : last ≠ []) :
    idsOf (last ++ row contentType.toList value) = (items isWhitespace ';' value).map String.ofList := by
  have hsep : isWhitespace ';' = false := by decide
  rw [idsOf, readLine_blank_row h hblank hne]
  dsimp only
  rw [items_trimEnd hsep, items_append_sep, items_nil, List.append_nil]

/-- A line with the content type before its first `=` is an entry: it opens no group. -/
theorem lineKind_of_key {front back : List Char} (hfront : '=' ∉ front) (htrim : trim isWhitespace front = contentType.toList)
    (hbracket : '[' ∉ contentType.toList) : lineKind contentType.toList (front ++ '=' :: back) = .entry := by
  refine lineKind_entry_iff.2 ⟨?_, front, back, splitOnce_append hfront back, htrim⟩
  cases hheader : headerOf (front ++ '=' :: back) with
  | none => rfl
  | some name =>
    exfalso
    have hopen : (trimEnd isWhitespace (front ++ '=' :: back)).head? = some '[' := by
      unfold headerOf bracketed at hheader
      split at hheader
      · next heq =>
        rw [heq]
        rfl
      · cases hheader
    rw [trimEnd_append (by decide)] at hopen
    cases front with
    | nil => cases hopen
    | cons c rest =>
      cases hopen
      refine hbracket (htrim ▸ ?_)
      rw [trim, List.dropWhile_cons_of_neg (by decide)]
      exact List.mem_of_mem_head? (congrArg List.head? (trimEnd_append (by decide) [] rest))

/-- A line behind which the key is read is blank. -/
theorem blank_of_read (hkind : lineKind contentType.toList last = .header true ∨ lineKind contentType.toList last = .other)
    (h : readerKind contentType.toList (last ++ row contentType.toList value) = .entry) :
    KeyType contentType ∧ ∀ c ∈ last, isWhitespace c = true := by
  obtain ⟨-, -, front, found, hsplit, htrim, hne, hbracket⟩ := readerKind_entry_iff.1 h
  obtain ⟨-, hfront⟩ := splitOnce_eq_some hsplit
  have hlast : '=' ∉ last := by
    -- its own key would be read, and would be an entry of the edit as well
    intro hin
    obtain ⟨a, b, rfl, ha⟩ := List.eq_append_cons_of_mem hin
    obtain rfl : front = a := by
      rw [List.append_assoc, List.cons_append, splitOnce_append ha] at hsplit
      cases hsplit
      rfl
    rw [lineKind_of_key hfront htrim hbracket] at hkind
    rcases hkind with h | h <;> cases h
  have hnoEquals : '=' ∉ contentType.toList := by
    intro hin
    obtain ⟨a, b, hcons, ha⟩ := List.eq_append_cons_of_mem hin
    have hnone : '=' ∉ last ++ a := fun hin => (List.mem_append.1 hin).elim hlast ha
    have hrow : last ++ row contentType.toList value = (last ++ a) ++ '=' :: (b ++ '=' :: (value ++ [';'])) := by
      simp [row, hcons]
    rw [hrow, splitOnce_append hnone] at hsplit
    cases hsplit
    rw [← htrim] at hin
    exact hfront (trim_subset _ hin)
  rw [splitOnce_front_row hnoEquals hlast] at hsplit
  cases hsplit
  refine ⟨⟨hnoEquals, hbracket, ?_⟩, blank_front htrim hne⟩
  rw [← htrim, trim_trim]

end

/-! ## The edited text, read back -/

section

variable {text : List Char} {contentType desktopId : String} (hct : validContentType contentType = true)
  (hid : validDesktopId desktopId = true)

include hct hid

/-- The new default comes first. -/
theorem Legible.first (h : Legible text contentType desktopId) : ∃ others,
    defaultIds (updateDefaultApplications text contentType desktopId) contentType = some (desktopId :: others) := by
  have hitems : (items isWhitespace ';' desktopId.toList).map String.ofList = [desktopId] := by
    rw [items_single h.item.noSeparator h.item.trimmed (validId_noNewline hid).2]
    simp
  rcases h.place with ⟨hdangling, hcomment, -⟩ | ⟨hdangling, hblank, -⟩
  · rw [defaultIds_update hct hid ⟨h.key, hcomment⟩ hdangling, hitems]
    exact ⟨_, rfl⟩
  · obtain ⟨rs, last, -, hne, hrows, -, hresult⟩ := rows_update_open hct hid hdangling
    have hlast : ∀ c ∈ last, isWhitespace c = true := hblank last (by rw [hrows, List.getLast?_concat])
    have hopen := hdangling.open_read
    rw [hrows] at hopen
    rw [defaultIds_eq, hresult, hopen.entries_concat (readerKind_blank hlast)
      (readerKind_blank_row h.key (valid_noNewline hct).2 hlast hne)]
    refine ⟨[], ?_⟩
    rw [List.getLast?_singleton, Option.map_some, idsOf_blank_row h.key hlast hne, hitems]

/-- Other content types keep their list. -/
theorem Legible.another (h : Legible text contentType desktopId) {another : String} (hanother : another ≠ contentType) :
    defaultIds (updateDefaultApplications text contentType desktopId) another = defaultIds text another := by
  have hne : another.toList ≠ contentType.toList := fun heq => hanother (String.toList_inj.1 heq)
  have hwritten : ∀ value, readerKind another.toList (row contentType.toList value) = .other :=
    fun value => readerKind_another hne (lineKind_row h.key.noEquals h.key.trimmed value)
  rw [defaultIds_eq, defaultIds_eq]
  rcases h.place with ⟨hdangling, -, -⟩ | ⟨hdangling, hblank, -⟩
  · have hsame : entries (readerKind another.toList) false (setRows contentType.toList desktopId.toList (rows text)) =
        entries (readerKind another.toList) false (rows text) :=
      entries_setKey_another (fun l goal => (readerKind_header _ l goal).trans (lineKind_header _ _ l goal))
        (fun l hl => readerKind_another hne hl) (hwritten _) (fun _ _ => hwritten _) (lineKind_opening _)
        (readerKind_blank (List.forall_mem_nil _)) _
    rw [rows_update hct hid hdangling, hsame]
  · obtain ⟨rs, last, -, hlastne, hrows, -, hresult⟩ := rows_update_open hct hid hdangling
    have hlast : ∀ c ∈ last, isWhitespace c = true := hblank last (by rw [hrows, List.getLast?_concat])
    have hentry := readerKind_entry
      (@readerKind_blank_row contentType last desktopId.toList h.key (valid_noNewline hct).2 hlast hlastne)
    rw [hresult, hrows, entries_concat_other (readerKind_another hne hentry), entries_concat_other (readerKind_blank hlast)]

/-- Behind a dangling text the key follows at once. -/
theorem update_dangling (h : Dangling text contentType) : updateDefaultApplications text contentType desktopId =
    text ++ keyLine contentType.toList desktopId.toList := by
  obtain ⟨rs, last, htext, -, -, hupdate, -⟩ := rows_update_open hct hid h
  rw [hupdate, htext, unlines_append, keyLine_eq]
  simp [unlines]

/-- A list with the id is read from a legible text only. -/
theorem legible_of_read (hsize : size (updateDefaultApplications text contentType desktopId) ≤ maxEntryBytes)
    {ids : List String} (hread : defaultIds (updateDefaultApplications text contentType desktopId) contentType = some ids)
    (hin : desktopId ∈ ids) : Legible text contentType desktopId := by
  -- the id stands in a list of its own items, or it was filtered out
  have hitem : desktopId ∈ (items isWhitespace ';' desktopId.toList).map String.ofList → PlainId desktopId := by
    intro hmem
    obtain ⟨item, hitem, heq⟩ := List.mem_map.1 hmem
    obtain ⟨-, hsep, htrim, -⟩ := mem_items hitem
    obtain rfl : item = desktopId.toList := by rw [← heq, String.toList_ofList]
    exact ⟨hsep, htrim⟩
  by_cases hdangling : Dangling text contentType
  · obtain ⟨rs, last, -, hne, hrows, -, hresult⟩ := rows_update_open hct hid hdangling
    have hopen := hdangling.2.2
    have hnone : entries (readerKind contentType.toList) false rs = [] := by
      have hall := hdangling.open_read.entries
      rw [hrows] at hall
      obtain ⟨tail, heq, -⟩ := @entries_concat _ (readerKind contentType.toList) false rs last
      rw [heq] at hall
      exact (List.append_eq_nil_iff.1 hall).1
    rw [hrows] at hopen
    obtain ⟨tail, htail, hcases⟩ := @entries_concat _ (readerKind contentType.toList) false rs
      (last ++ row contentType.toList desktopId.toList)
    rw [hnone, List.nil_append] at htail
    rw [defaultIds_eq, hresult, htail] at hread
    -- the line with the key behind it is the only one that can be an entry
    rcases hcases with rfl | rfl
    · cases hread
    · have hentry : readerKind contentType.toList (last ++ row contentType.toList desktopId.toList) = .entry :=
        entries_kind (htail ▸ List.mem_singleton_self _)
      obtain ⟨hkey, hblank⟩ := blank_of_read hopen.last hentry
      rw [List.getLast?_singleton, Option.map_some, idsOf_blank_row hkey hblank hne, Option.some.injEq] at hread
      refine ⟨hkey, hitem (hread ▸ hin), .inr ⟨hdangling, ?_, update_dangling hct hid hdangling ▸ hsize⟩⟩
      rw [hrows, List.getLast?_concat]
      rintro last ⟨⟩
      exact hblank
  · have hplain := plainType_of_read hct hid hdangling hread
    rw [defaultIds_update hct hid hplain hdangling, Option.some.injEq] at hread
    rw [← hread, List.mem_append, List.mem_filter] at hin
    have hown := hin.resolve_right fun h => by simp at h
    exact ⟨hplain.toKeyType, hitem hown, .inl ⟨hdangling, hplain.noComment, size_update hdangling desktopId ▸ hsize⟩⟩

theorem Legible.size_le (h : Legible text contentType desktopId) :
    size (updateDefaultApplications text contentType desktopId) ≤ maxEntryBytes := by
  rcases h.place with ⟨hdangling, -, hsize⟩ | ⟨hdangling, -, hsize⟩
  · rwa [size_update hdangling]
  · rwa [update_dangling hct hid hdangling]

end

/-! ## The files, read in order -/

theorem listed_default (contentType : String) (file : Option (List UInt8)) :
    AppDirs.listed "Default Applications" contentType file =
      ((readText file).bind (defaultIds · contentType)).getD [] := by
  rw [AppDirs.listed, parseGroupedLists]
  cases readText file <;> rfl

theorem readText_some (bytes : List UInt8) :
    readText (some bytes) = if bytes.length ≤ maxEntryBytes then some (fromUtf8Lossy bytes) else none := by
  rw [readText, Option.filter_some]
  split <;> simp_all

theorem readText_written (text : List Char) : readText (some (Path.bytes (String.ofList text))) =
    if size text ≤ maxEntryBytes then some text else none := by
  rw [readText_some, length_bytes, utf8ByteSize_ofList, fromUtf8Lossy_bytes, String.toList_ofList]

/-- The list of the file that is there. -/
theorem listed_existing {home : Directory}
    (hread : ∀ bytes, home.file "mimeapps.list" = some bytes → bytes.length ≤ maxEntryBytes) (contentType : String) :
    AppDirs.listed "Default Applications" contentType (home.file "mimeapps.list") =
      (defaultIds (existing home) contentType).getD [] := by
  rw [listed_default, existing]
  cases hfile : home.file "mimeapps.list" with
  | none => rfl
  | some bytes =>
    rw [readText_some, if_pos (hread bytes hfile)]
    rfl

/-- The list of the file that was written. -/
theorem listed_written (home : Directory) (text : List Char) (contentType : String) :
    AppDirs.listed "Default Applications" contentType ((home.withMimeapps text).file "mimeapps.list") =
      if size text ≤ maxEntryBytes then (defaultIds text contentType).getD [] else [] := by
  have hfile : (home.withMimeapps text).file "mimeapps.list" =
      if "mimeapps.list" = "mimeapps.list" then some (Path.bytes (String.ofList text)) else home.file "mimeapps.list" := rfl
  rw [listed_default, hfile, if_pos rfl, readText_written]
  split <;> rfl

theorem readExisting_ok {refusals : Refusals} {home : Directory} {text : List Char}
    (h : readExisting refusals home = .ok text) :
    text = existing home ∧ ∀ bytes, home.file "mimeapps.list" = some bytes → bytes.length ≤ maxEntryBytes := by
  unfold readExisting at h
  unfold existing
  cases hfile : home.file "mimeapps.list" with
  | none =>
    rw [hfile] at h
    dsimp only at h
    split at h <;> cases h
    exact ⟨rfl, nofun⟩
  | some bytes =>
    rw [hfile] at h
    dsimp only at h
    split at h
    · next hlength =>
      cases h
      refine ⟨rfl, ?_⟩
      rintro _ ⟨⟩
      exact hlength
    · cases h

theorem setDefaultApp_ok {refusals : Refusals} {home home' : Directory} {contentType desktopId : String}
    (h : setDefaultApp refusals home contentType desktopId = .ok home') :
    home' = home.withMimeapps (updateDefaultApplications (existing home) contentType desktopId) ∧
      ∀ bytes, home.file "mimeapps.list" = some bytes → bytes.length ≤ maxEntryBytes := by
  unfold setDefaultApp at h
  split at h
  · cases h
  · simp only [bind_eq_ok] at h
    obtain ⟨text, htext, -, -, -, -, -, -, h⟩ := h
    obtain ⟨rfl, hread⟩ := readExisting_ok htext
    cases h
    exact ⟨rfl, hread⟩

/-- Where nothing is refused the text is written. -/
theorem setDefaultApp_unrefused {home : Directory} {contentType desktopId : String}
    (hct : validContentType contentType = true) (hid : validDesktopId desktopId = true)
    (hread : ∀ bytes, home.file "mimeapps.list" = some bytes → bytes.length ≤ maxEntryBytes) :
    setDefaultApp ⟨none, none, none, none⟩ home contentType desktopId =
      .ok (home.withMimeapps (updateDefaultApplications (existing home) contentType desktopId)) := by
  have htext : readExisting ⟨none, none, none, none⟩ home = .ok (existing home) := by
    unfold readExisting existing
    cases hfile : home.file "mimeapps.list" with
    | none => rfl
    | some bytes => exact if_pos (hread bytes hfile)
  unfold setDefaultApp
  rw [hct, hid, htext]
  rfl

theorem appById_id {dirs : AppDirs} {id : String} {app : AppInfo} (h : dirs.appById id = some app) : app.id = id := by
  unfold AppDirs.appById at h
  split at h
  · obtain ⟨dir, -, happ⟩ := List.exists_of_findSome?_eq_some h
    exact parseDesktopFile_id happ
  · cases h

/-! ## A directory with one application -/

def onlyEntry : List UInt8 := Path.bytes "[Desktop Entry]\nName=a\nExec=a\n"

/-- A directory with an application of the id and nothing else. -/
def onlyApp (desktopId : String) : Directory where
  listing := some [desktopId]
  file name := if name = desktopId then some onlyEntry else none

theorem onlyApp_file (desktopId name : String) :
    (onlyApp desktopId).file name = if name = desktopId then some onlyEntry else none := rfl

theorem onlyApp_found {desktopId : String} (h : validDesktopId desktopId = true) (home : Directory) :
    ∃ app, (dirsWith home [] [onlyApp desktopId]).appById desktopId = some app := by
  have hread : ((readText (some onlyEntry)).bind (entryLines .empty ∘ lines)).map (fun entry => (entry.name, entry.exec)) =
      some (some ['a'], some "a") := by decide +kernel
  obtain ⟨entry, hentry, hpair⟩ := Option.map_eq_some_iff.1 hread
  obtain ⟨hname, hexec⟩ := Prod.mk.inj hpair
  obtain ⟨text, htext, hlines⟩ := Option.bind_eq_some_iff.1 hentry
  have happ : ∃ app, parseDesktopFile (some onlyEntry) desktopId = some app := by
    rw [parseDesktopFile, htext]
    simp [Function.comp_apply ▸ hlines, Entry.app, hname, hexec]
  obtain ⟨app, happ⟩ := happ
  refine ⟨app, ?_⟩
  have hfound : AppDirs.entryAt (onlyApp desktopId) desktopId = some app := by
    rw [AppDirs.entryAt, onlyApp_file, if_pos rfl, happ]
  rw [AppDirs.appById, if_pos h, dirsWith, List.findSome?_cons, hfound]

/-- It lists no defaults, even under the name of the list. -/
theorem onlyApp_listed (desktopId contentType : String) :
    AppDirs.listed "Default Applications" contentType ((onlyApp desktopId).file "mimeapps.list") = [] := by
  have hgroups : parseGroupedLists (some onlyEntry) =
      [(("Desktop Entry", "Exec"), ["a"]), (("Desktop Entry", "Name"), ["a"])] := by decide +kernel
  rw [AppDirs.listed, onlyApp_file]
  split
  · have hne : ∀ key, (("Default Applications", contentType) == ("Desktop Entry", key)) = false :=
      fun key => beq_eq_false_iff_ne.2 fun h => absurd (Prod.mk.inj h).1 (by decide)
    rw [hgroups, Groups.get, List.lookup_cons, hne, List.lookup_cons, hne]
    rfl
  · rfl

/-! ## When a default takes effect -/

theorem defaultApp_dirsWith {contentType : String} (h : validContentType contentType = true) (home : Directory)
    (configs applications : List Directory) : (dirsWith home configs applications).defaultApp contentType =
      (AppDirs.listed "Default Applications" contentType (home.file "mimeapps.list") ++
        (configs.map (·.file "mimeapps.list") ++ applications.map (·.file "mimeapps.list")).flatMap
          (AppDirs.listed "Default Applications" contentType)).findSome? (dirsWith home configs applications).appById := by
  rw [AppDirs.defaultApp, if_pos h]
  rfl

/-- A default takes effect, and the others stay, exactly when the text with it is legible. -/
theorem takesEffect_iff {home : Directory} {contentType desktopId : String} (hct : validContentType contentType = true)
    (hid : validDesktopId desktopId = true)
    (hread : ∀ bytes, home.file "mimeapps.list" = some bytes → bytes.length ≤ maxEntryBytes) :
    TakesEffect home contentType desktopId ↔ Legible (existing home) contentType desktopId := by
  constructor
  · intro h
    -- nothing is refused, and the only application is the new default
    have hok := setDefaultApp_unrefused hct hid hread
    obtain ⟨app, happ⟩ := onlyApp_found hid (home.withMimeapps (updateDefaultApplications (existing home) contentType desktopId))
    have hdefault := (h _ _ hok [] [onlyApp desktopId]).1 app happ
    rw [defaultApp_dirsWith hct] at hdefault
    obtain ⟨id, hin, hsame⟩ := List.exists_of_findSome?_eq_some hdefault
    -- an application is found under its own id only
    obtain rfl : id = desktopId := (appById_id hsame).symm.trans (appById_id happ)
    rw [List.map_nil, List.nil_append, List.map_singleton, List.flatMap_singleton, onlyApp_listed, List.append_nil,
      listed_written] at hin
    split at hin
    · next hsize =>
      cases hids : defaultIds (updateDefaultApplications (existing home) contentType id) contentType with
      | none =>
        rw [hids] at hin
        cases hin
      | some ids =>
        rw [hids] at hin
        exact legible_of_read hct hid hsize hids hin
    · cases hin
  · intro h refusals home' hok configs applications
    obtain ⟨rfl, -⟩ := setDefaultApp_ok hok
    have hwritten : ∀ another, AppDirs.listed "Default Applications" another
        ((home.withMimeapps (updateDefaultApplications (existing home) contentType desktopId)).file "mimeapps.list") =
          (defaultIds (updateDefaultApplications (existing home) contentType desktopId) another).getD [] := by
      intro another
      rw [listed_written, if_pos (h.size_le hct hid)]
    constructor
    · intro app happ
      obtain ⟨others, hfirst⟩ := h.first hct hid
      rw [defaultApp_dirsWith hct, hwritten, hfirst, Option.getD_some, List.cons_append, List.findSome?_cons, happ]
    · intro another hanother
      by_cases hvalid : validContentType another = true
      · rw [defaultApp_dirsWith hvalid, defaultApp_dirsWith hvalid, hwritten, h.another hct hid hanother,
          listed_existing hread]
        rfl
      · rw [AppDirs.defaultApp, AppDirs.defaultApp, if_neg hvalid, if_neg hvalid]

/-- A configuration home with the text as its `mimeapps.list`. -/
def homeOf (text : String) : Directory where
  listing := some ["mimeapps.list"]
  file name := if name = "mimeapps.list" then some (Path.bytes text) else none

theorem existing_homeOf (text : String) : existing (homeOf text) = text.toList := fromUtf8Lossy_bytes text

theorem takesEffect_iff_plain :
    TakesEffect (homeOf "[Default Applications]\ntext/plain=editor.desktop;\n") "text/plain" "writer.desktop" := by
  refine (takesEffect_iff (by decide +kernel) (by decide +kernel) ?_).2 ⟨plainType_plain.toKeyType, ⟨by decide, by decide⟩,
    .inl ⟨?_, by decide, ?_⟩⟩
  · rintro bytes ⟨⟩
    decide +kernel
  · rw [existing_homeOf]
    exact fun h => h.2.1 (by decide)
  · rw [existing_homeOf]
    decide +kernel

/-- The new default is lost in the value of an entry whose line is not terminated. -/
theorem default_lost : validContentType "text/plain" = true ∧ validDesktopId "editor.desktop" = true ∧
    (∀ bytes, (homeOf "[Default Applications]\ntext/html=browser.desktop").file "mimeapps.list" = some bytes →
      bytes.length ≤ maxEntryBytes) ∧
    ¬ TakesEffect (homeOf "[Default Applications]\ntext/html=browser.desktop") "text/plain" "editor.desktop" := by
  refine ⟨by decide +kernel, by decide +kernel, ?_, fun h => ?_⟩
  · rintro bytes ⟨⟩
    decide +kernel
  · have hok : setDefaultApp ⟨none, none, none, none⟩ (homeOf "[Default Applications]\ntext/html=browser.desktop") "text/plain"
        "editor.desktop" = .ok ((homeOf "[Default Applications]\ntext/html=browser.desktop").withMimeapps
          "[Default Applications]\ntext/html=browser.desktoptext/plain=editor.desktop;\n".toList) := by
      rw [setDefaultApp_unrefused (by decide +kernel) (by decide +kernel)]
      · rw [existing_homeOf]
        refine congrArg (fun text => Except.ok (Directory.withMimeapps _ text)) ?_
        decide +kernel
      · rintro bytes ⟨⟩
        decide +kernel
    obtain ⟨app, happ⟩ := @onlyApp_found "editor.desktop" (by decide +kernel) ((homeOf
      "[Default Applications]\ntext/html=browser.desktop").withMimeapps
        "[Default Applications]\ntext/html=browser.desktoptext/plain=editor.desktop;\n".toList)
    have hdefault := (h _ _ hok [] [onlyApp "editor.desktop"]).1 app happ
    have hnone : (dirsWith ((homeOf "[Default Applications]\ntext/html=browser.desktop").withMimeapps
        "[Default Applications]\ntext/html=browser.desktoptext/plain=editor.desktop;\n".toList) []
          [onlyApp "editor.desktop"]).defaultApp "text/plain" = none := by decide +kernel
    rw [hnone] at hdefault
    cases hdefault

end AtriumPortal.Apps
