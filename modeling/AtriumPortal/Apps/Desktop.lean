import AtriumPortal.Lib.Text
import AtriumPortal.Prompter.Appearance
/-!
# Desktop entries

`apps/desktop.rs`: which ids and content types are valid, the grouped lists of
`mimeapps.list` and `mimeinfo.cache`, and one `.desktop` file.
-/
open AtriumPortal.Lib.Text AtriumPortal.Prompter

namespace AtriumPortal.Apps

/-- Desktop files and association files past this size are skipped. -/
def maxEntryBytes : Nat := 256 * 1024
def maxExecBytes : Nat := 8 * 1024
def maxIdBytes : Nat := 256
def maxNameChars : Nat := 256

/-- One resolved desktop entry. -/
structure AppInfo where
  id : String
  name : String
  exec : String
  icon : Option String
  terminal : Bool
  noDisplay : Bool
  mimeTypes : List String
  deriving DecidableEq, Repr

def validDesktopId (id : String) : Bool :=
  id ≠ "" ∧ id.utf8ByteSize ≤ maxIdBytes ∧ '/' ∉ id.toList ∧ '\\' ∉ id.toList ∧ hasNul id = false ∧ '\n' ∉ id.toList

def validContentType (contentType : String) : Bool :=
  match contentType.toList.splitOn '/' with
  | [kind, subtype] =>
    contentType.utf8ByteSize ≤ maxIdBytes ∧ hasNul contentType = false ∧ '\n' ∉ contentType.toList ∧
      trim isWhitespace kind ≠ [] ∧ trim isWhitespace subtype ≠ []
  | _ => false

/-! ## Files -/

/-- The text of a file, unless it cannot be read or is too large. -/
def readText (file : Option (List UInt8)) : Option (List Char) :=
  (file.filter (·.length ≤ maxEntryBytes)).map fromUtf8Lossy

/-- One line of a grouped file: a group's name, or a key with its value. -/
inductive Line where
  | group (name : List Char)
  | pair (key value : List Char)
  | other

def readLine (line : List Char) : Line :=
  match bracketed (trimEnd isWhitespace line) with
  | some name => .group (trim isWhitespace name)
  | none =>
    if (trimEnd isWhitespace line).head? = some '#' then .other
    else match splitOnce '=' (trimEnd isWhitespace line) with
      | some (key, value) => .pair (trim isWhitespace key) value
      | none => .other

/-- A line with a key that is no comment and no group. -/
theorem readLine_pair {key : List Char} (h : '=' ∉ key) (hfirst : key.head? ≠ some '[' ∧ key.head? ≠ some '#')
    (value : List Char) : readLine (key ++ '=' :: value) = .pair (trim isWhitespace key) (trimEnd isWhitespace value) := by
  have hline : trimEnd isWhitespace (key ++ '=' :: value) = key ++ '=' :: trimEnd isWhitespace value :=
    trimEnd_append (by decide) key value
  have hgroup : bracketed (key ++ '=' :: trimEnd isWhitespace value) = none := by
    cases key with
    | nil => rfl
    | cons c key =>
      have hc : c ≠ '[' := fun hc => hfirst.1 (congrArg some hc)
      rw [List.cons_append, bracketed]
      simp [hc]
  have hcomment : (key ++ '=' :: trimEnd isWhitespace value).head? ≠ some '#' := by
    cases key with
    | nil => simp
    | cons c key => exact hfirst.2
  rw [readLine, hline, hgroup]
  simp only [hcomment, if_false, splitOnce_append h]

/-! ## Grouped lists -/

/-- The lists by group and key, the newest first. -/
abbrev Groups : Type := List ((String × String) × List String)

def Groups.get (groups : Groups) (group key : String) : Option (List String) := groups.lookup (group, key)

def groupLines (group : List Char) (groups : Groups) : List (List Char) → Groups
  | [] => groups
  | line :: rest =>
    match readLine line with
    | .group name => groupLines name groups rest
    | .other => groupLines group groups rest
    | .pair key value =>
      if group = [] ∨ key = [] ∨ '[' ∈ key then groupLines group groups rest
      else groupLines group
        (((String.ofList group, String.ofList key), (items isWhitespace ';' value).map String.ofList) :: groups) rest

def parseGroupedLists (file : Option (List UInt8)) : Groups :=
  match readText file with
  | some text => groupLines [] [] (lines text)
  | none => []

/-! ## Desktop files -/

/-- What was read of a `[Desktop Entry]` so far. -/
structure Entry where
  inEntry : Bool
  name : Option (List Char)
  exec : Option String
  icon : Option String
  noDisplay : Bool
  terminal : Bool
  mimeTypes : List String

def Entry.empty : Entry := ⟨false, none, none, none, false, false, []⟩

/-- One key of the entry; `Hidden=true` deletes the entry. -/
def Entry.set (entry : Entry) (key : String) (value : List Char) : Option Entry :=
  match key with
  | "Name" => some { entry with name := some value }
  | "Exec" =>
    if (String.ofList value).utf8ByteSize ≤ maxExecBytes then some { entry with exec := some (String.ofList value) }
    else some entry
  | "Icon" => if value ≠ [] then some { entry with icon := some (String.ofList value) } else some entry
  | "NoDisplay" => some { entry with noDisplay := value = "true".toList }
  | "Hidden" => if value = "true".toList then none else some entry
  | "Terminal" => some { entry with terminal := value = "true".toList }
  | "MimeType" => some { entry with mimeTypes := (items isWhitespace ';' value).map String.ofList }
  | _ => some entry

def entryLines (entry : Entry) : List (List Char) → Option Entry
  | [] => some entry
  | line :: rest =>
    match readLine line with
    | .group name => entryLines { entry with inEntry := name = "Desktop Entry".toList } rest
    | .other => entryLines entry rest
    | .pair key value =>
      if entry.inEntry then
        match entry.set (String.ofList key) (trim isWhitespace value) with
        | some entry => entryLines entry rest
        | none => none
      else entryLines entry rest

/-- The entry as an application; it must have a name and a command. -/
def Entry.app (entry : Entry) (id : String) : Option AppInfo := do
  let name ← entry.name
  let exec ← entry.exec
  some {
    id := id
    name := String.ofList (name.take maxNameChars)
    exec := exec
    icon := entry.icon
    terminal := entry.terminal
    noDisplay := entry.noDisplay
    mimeTypes := entry.mimeTypes }

def parseDesktopFile (file : Option (List UInt8)) (id : String) : Option AppInfo := do
  let text ← readText file
  let entry ← entryLines .empty (lines text)
  entry.app id

/-! ## What an entry can hold -/

/-- The name is what trimming left of a value. -/
def Entry.Named (entry : Entry) : Prop := ∀ name, entry.name = some name → ∃ value, name = trim isWhitespace value

theorem Entry.set_named {entry entry' : Entry} {key : String} {value : List Char}
    (hset : entry.set key (trim isWhitespace value) = some entry') (h : entry.Named) : entry'.Named := by
  unfold Entry.set at hset
  split at hset
  · cases hset
    rintro name hname
    cases hname
    exact ⟨value, rfl⟩
  all_goals
    try split at hset
    all_goals
      cases hset
      try exact h

theorem entryLines_named {entry entry' : Entry} {text : List (List Char)} (hrun : entryLines entry text = some entry')
    (h : entry.Named) : entry'.Named := by
  fun_induction entryLines entry text with
  | case1 entry =>
    cases hrun
    exact h
  | case2 entry line rest name hline ih => exact ih hrun h
  | case3 entry line rest hline ih => exact ih hrun h
  | case4 entry line rest key value hline hin next hnext ih => exact ih hrun (Entry.set_named hnext h)
  | case5 => cases hrun
  | case6 entry line rest key value hline hin ih => exact ih hrun h

theorem parseDesktopFile_id {file : Option (List UInt8)} {id : String} {app : AppInfo}
    (h : parseDesktopFile file id = some app) : app.id = id := by
  simp only [parseDesktopFile, Entry.app, Option.bind_eq_bind, Option.bind_eq_some_iff, Option.some.injEq] at h
  obtain ⟨_, _, _, _, _, _, _, _, rfl⟩ := h
  rfl

/-- An entry's name is blank only where it is empty, and it is never long. -/
theorem parseDesktopFile_name {file : Option (List UInt8)} {id : String} {app : AppInfo}
    (h : parseDesktopFile file id = some app) :
    (Blank app.name ↔ app.name = "") ∧ app.name.utf8ByteSize ≤ maxPromptTextBytes := by
  simp only [parseDesktopFile, Entry.app, Option.bind_eq_bind, Option.bind_eq_some_iff, Option.some.injEq] at h
  obtain ⟨text, _, entry, hentry, name, hname, _, _, rfl⟩ := h
  obtain ⟨value, rfl⟩ := entryLines_named hentry (by nofun) name hname
  constructor
  · constructor
    · intro hblank
      by_cases htrim : trim isWhitespace value = []
      · rw [htrim]
        rfl
      · obtain ⟨c, rest, heq, hc⟩ := trim_head htrim
        simp [Blank, heq, maxNameChars, hc] at hblank
    · intro hempty
      rw [hempty]
      rfl
  · calc (String.ofList ((trim isWhitespace value).take maxNameChars)).utf8ByteSize
        ≤ 4 * ((trim isWhitespace value).take maxNameChars).length := utf8ByteSize_ofList_le _
      _ ≤ 4 * maxNameChars := Nat.mul_le_mul_left 4 (List.length_take_le ..)
      _ ≤ maxPromptTextBytes := by decide

end AtriumPortal.Apps
