import AtriumPortal.Apps.Desktop
import Mathlib.Data.Char
import Mathlib.Data.List.Lex
import Mathlib.Data.List.Sort
/-!
# Looking applications up

`apps.rs`: the XDG directories, shadowing by desktop id, and the applications that
are registered for a content type.
-/
open AtriumPortal.Prompter

namespace AtriumPortal.Apps

def maxListedApps : Nat := 64
def maxEntriesPerDir : Nat := 1024

/-- A directory as it is read: its file names that are text, and its files. -/
structure Directory where
  listing : Option (List String)
  file : String → Option (List UInt8)

/-- The `applications` directories, nearest first, and the configuration directories. -/
structure AppDirs where
  applications : List Directory
  configs : List Directory

namespace AppDirs

/-- `mimeapps.list` files, most preferred first. -/
def mimeappsFiles (dirs : AppDirs) : List (Option (List UInt8)) :=
  dirs.configs.map (·.file "mimeapps.list") ++ dirs.applications.map (·.file "mimeapps.list")

def entryAt (dir : Directory) (id : String) : Option AppInfo := parseDesktopFile (dir.file id) id

def appById (dirs : AppDirs) (id : String) : Option AppInfo :=
  if validDesktopId id then dirs.applications.findSome? (entryAt · id) else none

def isDesktopFile (name : String) : Bool := ".desktop".toList.isSuffixOf name.toList

/-- The ids of a directory, in order. -/
def entryNames (names : List String) : List String :=
  ((names.filter fun name => isDesktopFile name && validDesktopId name).take maxEntriesPerDir).insertionSort
    (·.toList ≤ ·.toList)

/-- The entries of one directory that no nearer one has. -/
def loadNames (dir : Directory) (seen : List String) : List String → List String × List AppInfo
  | [] => (seen, [])
  | id :: rest =>
    if id ∈ seen then loadNames dir seen rest
    else
      let (seen', apps) := loadNames dir (id :: seen) rest
      (seen', (entryAt dir id).toList ++ apps)

def loadDirs (seen : List String) : List Directory → List AppInfo
  | [] => []
  | dir :: rest =>
    match dir.listing with
    | none => loadDirs seen rest
    | some names =>
      let (seen', apps) := loadNames dir seen (entryNames names)
      apps ++ loadDirs seen' rest

def loadAll (dirs : AppDirs) : List AppInfo := loadDirs [] dirs.applications

/-- The map from ids to entries keeps the last. -/
def byId (apps : List AppInfo) (id : String) : Option AppInfo := apps.reverse.find? (·.id = id)

/-- Append unless it is there. -/
def pushNew (ids : List String) (id : String) : List String := if id ∈ ids then ids else ids ++ [id]

/-- The ids a group of a file lists for a content type. -/
def listed (group contentType : String) (file : Option (List UInt8)) : List String :=
  ((parseGroupedLists file).get group contentType).getD []

def added (dirs : AppDirs) (contentType : String) : List String :=
  (dirs.mimeappsFiles.flatMap (listed "Added Associations" contentType)).foldl pushNew []

def removed (dirs : AppDirs) (contentType : String) : List String :=
  dirs.mimeappsFiles.flatMap (listed "Removed Associations" contentType)

/-- The ids registered for a content type, best first. -/
def ordered (dirs : AppDirs) (contentType : String) : List String :=
  let cached := dirs.applications.flatMap fun dir => listed "MIME Cache" contentType (dir.file "mimeinfo.cache")
  let declared := (dirs.loadAll.filter (·.mimeTypes.contains contentType)).map (·.id)
  (cached ++ declared).foldl pushNew (dirs.added contentType)

/-- The applications registered for a content type, best first. -/
def appsForContentType (dirs : AppDirs) (contentType : String) : List AppInfo :=
  if validContentType contentType then
    ((((dirs.ordered contentType).filter (· ∉ dirs.removed contentType)).filterMap (byId dirs.loadAll)).filter
      fun app => !app.noDisplay && app.exec ≠ "").take maxListedApps
  else []

/-- The configured default: the first id listed that resolves. -/
def defaultApp (dirs : AppDirs) (contentType : String) : Option AppInfo :=
  if validContentType contentType then
    (dirs.mimeappsFiles.flatMap (listed "Default Applications" contentType)).findSome? dirs.appById
  else none

/-! ## What is listed -/

theorem pushNew_nodup {ids : List String} (id : String) (h : ids.Nodup) : (pushNew ids id).Nodup := by
  unfold pushNew
  split
  · exact h
  · next hnew => simpa using h.concat hnew

theorem foldl_pushNew_nodup {ids : List String} (more : List String) (h : ids.Nodup) :
    (more.foldl pushNew ids).Nodup := by
  induction more generalizing ids with
  | nil => exact h
  | cons id more ih => exact ih (pushNew_nodup id h)

theorem ordered_nodup (dirs : AppDirs) (contentType : String) : (dirs.ordered contentType).Nodup :=
  foldl_pushNew_nodup _ (foldl_pushNew_nodup _ List.nodup_nil)

/-- An entry that was read from a file under a valid id. -/
def Loaded (app : AppInfo) : Prop := validDesktopId app.id = true ∧ ∃ file, parseDesktopFile file app.id = some app

theorem loadNames_loaded {dir : Directory} {seen names : List String} {app : AppInfo}
    (hvalid : ∀ id ∈ names, validDesktopId id = true) (h : app ∈ (loadNames dir seen names).2) : Loaded app := by
  fun_induction loadNames dir seen names with
  | case1 => cases h
  | case2 seen id rest _ ih => exact ih (fun id hid => hvalid id (List.mem_cons_of_mem _ hid)) h
  | case3 seen id rest _ seen' apps _ ih =>
    simp only [List.mem_append, Option.mem_toList] at h
    cases h with
    | inl happ =>
      have hid := parseDesktopFile_id happ
      rw [Loaded, hid]
      exact ⟨hvalid id (List.mem_cons_self ..), dir.file id, happ⟩
    | inr happ => simp_all

theorem loadAll_loaded {dirs : AppDirs} {app : AppInfo} (h : app ∈ dirs.loadAll) : Loaded app := by
  unfold loadAll at h
  revert h
  fun_induction loadDirs [] dirs.applications with
  | case1 => nofun
  | case2 seen dir rest _ ih => exact ih
  | case3 seen dir rest names _ seen' apps happs ih =>
    intro h
    cases List.mem_append.1 h with
    | inl hin =>
      have hvalid : ∀ id ∈ entryNames names, validDesktopId id = true := by
        intro id hid
        have := List.mem_of_mem_take ((List.mem_insertionSort _).1 hid)
        simp only [List.mem_filter, Bool.and_eq_true] at this
        exact this.2.2
      exact loadNames_loaded hvalid (by rw [happs]; exact hin)
    | inr hin => exact ih hin

theorem byId_eq_some {apps : List AppInfo} {id : String} {app : AppInfo} (h : byId apps id = some app) :
    app.id = id ∧ app ∈ apps :=
  ⟨by simpa using List.find?_some h, List.mem_reverse.1 (List.mem_of_find?_eq_some h)⟩

theorem filterMap_byId_ids {apps : List AppInfo} {ids : List String} :
    ((ids.filterMap (byId apps)).map (·.id)).Sublist ids := by
  induction ids with
  | nil => exact .slnil
  | cons id ids ih =>
    cases hid : byId apps id with
    | none =>
      rw [List.filterMap_cons_none hid]
      exact ih.cons _
    | some app =>
      rw [List.filterMap_cons_some hid, List.map_cons, (byId_eq_some hid).1]
      exact ih.cons_cons _

/-- The candidates are different entries of the directories, a screenful of them. -/
theorem appsForContentType_spec (dirs : AppDirs) (contentType : String) :
    ((dirs.appsForContentType contentType).map (·.id)).Nodup ∧
      (dirs.appsForContentType contentType).length ≤ maxListedApps ∧
      (∀ app ∈ dirs.appsForContentType contentType, Loaded app) ∧
      (dirs.appsForContentType contentType ≠ [] → validContentType contentType = true) := by
  unfold appsForContentType
  split
  · next hvalid =>
    refine ⟨?_, List.length_take_le .., ?_, fun _ => hvalid⟩
    · have hsub := ((List.take_sublist maxListedApps _).trans
        (List.filter_sublist (p := fun app : AppInfo => !app.noDisplay && app.exec ≠ "")
          (l := ((dirs.ordered contentType).filter (· ∉ dirs.removed contentType)).filterMap (byId dirs.loadAll)))).map
        (·.id)
      exact ((hsub.trans filterMap_byId_ids).trans List.filter_sublist).nodup (ordered_nodup dirs contentType)
    · intro app happ
      obtain ⟨id, _, hid⟩ := List.mem_filterMap.1 (List.mem_filter.1 (List.mem_of_mem_take happ)).1
      exact loadAll_loaded (byId_eq_some hid).2
  · exact ⟨List.nodup_nil, Nat.zero_le _, by nofun, fun h => absurd rfl h⟩

end AppDirs

end AtriumPortal.Apps
