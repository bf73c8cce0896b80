import AtriumPortal.Apps.Lookup
/-!
# One id and the full scan

`apps.rs`: `app_by_id` takes the nearest entry that can be used, `load_all` the nearest
file of a name. Where a nearer file is hidden or broken the two part.
-/

namespace AtriumPortal.Apps.AppDirs

/-- The directory has a file of that name. -/
def lists (id : String) (dir : Directory) : Bool := dir.listing.any (·.contains id)

/-- The scan reads every desktop file of the directory. -/
def Small (dir : Directory) : Prop :=
  ∀ names, dir.listing = some names → (names.filter isDesktopFile).length ≤ maxEntriesPerDir

/-- The entry of an id in the nearest directory that has a file of that name. -/
def shadowing (id : String) (dirs : List Directory) : Option AppInfo :=
  (dirs.find? (lists id)).bind (entryAt · id)

theorem mem_entryNames {names : List String} (hsmall : (names.filter isDesktopFile).length ≤ maxEntriesPerDir)
    {id : String} (hvalid : validDesktopId id = true) (hdesktop : isDesktopFile id = true) :
    id ∈ entryNames names ↔ id ∈ names := by
  have hlen : (names.filter fun name => isDesktopFile name && validDesktopId name).length ≤ maxEntriesPerDir := by
    rw [← List.filter_filter]
    refine le_trans ?_ hsmall
    rw [List.filter_comm]
    exact List.length_filter_le ..
  rw [entryNames, List.mem_insertionSort, List.take_of_length_le hlen, List.mem_filter]
  simp [hvalid, hdesktop]

/-! ## What a scan finds of one id -/

theorem loadNames_seen (dir : Directory) (seen names : List String) (id : String) :
    id ∈ (loadNames dir seen names).1 ↔ id ∈ seen ∨ id ∈ names := by
  fun_induction loadNames dir seen names with
  | case1 => simp
  | case2 seen name rest hseen ih =>
    rw [ih, List.mem_cons]
    constructor
    · rintro (h | h)
      · exact Or.inl h
      · exact Or.inr (Or.inr h)
    · rintro (h | rfl | h)
      · exact Or.inl h
      · exact Or.inl hseen
      · exact Or.inr h
  | case3 seen name rest _ seen' apps hrest ih =>
    rw [hrest] at ih
    rw [ih, List.mem_cons, List.mem_cons, or_assoc, or_left_comm]

theorem loadNames_mem (dir : Directory) (seen names : List String) (id : String) (app : AppInfo) :
    app ∈ (loadNames dir seen names).2 ∧ app.id = id ↔ id ∉ seen ∧ id ∈ names ∧ entryAt dir id = some app := by
  fun_induction loadNames dir seen names with
  | case1 => simp
  | case2 seen name rest hseen ih =>
    rw [ih, List.mem_cons]
    constructor
    · rintro ⟨hnew, hin, hat⟩
      exact ⟨hnew, Or.inr hin, hat⟩
    · rintro ⟨hnew, rfl | hin, hat⟩
      · exact absurd hseen hnew
      · exact ⟨hnew, hin, hat⟩
  | case3 seen name rest hnew seen' apps hrest ih =>
    rw [hrest] at ih
    simp only [List.mem_append, Option.mem_toList, List.mem_cons] at ih ⊢
    constructor
    · rintro ⟨happ | happ, hid⟩
      · have hname : app.id = name := parseDesktopFile_id happ
        rw [← hid, hname]
        exact ⟨hnew, Or.inl rfl, happ⟩
      · obtain ⟨h, hin, hat⟩ := ih.1 ⟨happ, hid⟩
        exact ⟨fun hs => h (Or.inr hs), Or.inr hin, hat⟩
    · rintro ⟨hns, hin, hat⟩
      -- the scan keeps the entry where the name stands first
      by_cases hname : id = name
      · rw [hname] at hat ⊢
        exact ⟨Or.inl hat, parseDesktopFile_id hat⟩
      · obtain ⟨happ, hid⟩ := ih.2 ⟨fun h => h.elim hname hns, hin.resolve_left hname, hat⟩
        exact ⟨Or.inr happ, hid⟩

theorem loadDirs_mem {dirs : List Directory} (hsmall : ∀ dir ∈ dirs, Small dir) {id : String}
    (hvalid : validDesktopId id = true) (hdesktop : isDesktopFile id = true) (seen : List String) (app : AppInfo) :
    app ∈ loadDirs seen dirs ∧ app.id = id ↔ id ∉ seen ∧ shadowing id dirs = some app := by
  fun_induction loadDirs seen dirs with
  | case1 => simp [shadowing]
  | case2 seen dir rest hlisting ih =>
    have hskip : shadowing id (dir :: rest) = shadowing id rest := by simp [shadowing, lists, hlisting]
    rw [hskip]
    exact ih fun d hd => hsmall d (List.mem_cons_of_mem _ hd)
  | case3 seen dir rest names hlisting seen' apps hnames ih =>
    have hin := mem_entryNames (hsmall dir (List.mem_cons_self ..) names hlisting) hvalid hdesktop
    have hmem := loadNames_mem dir seen (entryNames names) id app
    have hseen := loadNames_seen dir seen (entryNames names) id
    rw [hnames, hin] at hmem hseen
    have hrest := ih fun d hd => hsmall d (List.mem_cons_of_mem _ hd)
    rw [List.mem_append, or_and_right, hmem, hrest, hseen]
    by_cases hid : id ∈ names
    · have hfirst : shadowing id (dir :: rest) = entryAt dir id := by simp [shadowing, lists, hlisting, hid]
      simp only [hfirst, hid, true_and, or_true, not_true_eq_false, false_and, or_false]
    · have hskip : shadowing id (dir :: rest) = shadowing id rest := by simp [shadowing, lists, hlisting, hid]
      simp only [hskip, hid, false_and, and_false, false_or, or_false]

/-- The scan lists of an id what the nearest file of that name holds. -/
theorem loadAll_mem {dirs : AppDirs} (hsmall : ∀ dir ∈ dirs.applications, Small dir) {id : String}
    (hvalid : validDesktopId id = true) (hdesktop : isDesktopFile id = true) (app : AppInfo) :
    app ∈ dirs.loadAll ∧ app.id = id ↔ shadowing id dirs.applications = some app := by
  rw [loadAll, loadDirs_mem hsmall hvalid hdesktop]
  simp

/-! ## Where the two agree -/

/-- The nearest usable entry of an id stands in no listed file's shadow, and the scan comes
to it or to an equal one first. -/
def Unhidden (dirs : AppDirs) (id : String) : Prop :=
  ∀ pre dir post app, dirs.applications = pre ++ dir :: post → (∀ near ∈ pre, entryAt near id = none) →
    entryAt dir id = some app →
    (∀ near ∈ pre, lists id near = false) ∧ (lists id dir = true ∨ shadowing id post = some app)

theorem shadowing_append {id : String} {pre : List Directory} (hpre : ∀ near ∈ pre, lists id near = false)
    (dirs : List Directory) : shadowing id (pre ++ dirs) = shadowing id dirs := by
  have hnone : pre.find? (lists id) = none := List.find?_eq_none.2 fun near hnear => by simp [hpre near hnear]
  rw [shadowing, List.find?_append, hnone, Option.none_or, shadowing]

theorem shadowing_cons (id : String) (dir : Directory) (dirs : List Directory) :
    shadowing id (dir :: dirs) = if lists id dir then entryAt dir id else shadowing id dirs := by
  unfold shadowing
  rw [List.find?_cons]
  cases lists id dir <;> rfl

/-- A directory whose file shadows with a usable entry comes before no nearer listed file. -/
theorem shadowing_of_unusable {id : String} {app : AppInfo} {pre dirs : List Directory}
    (hpre : ∀ near ∈ pre, entryAt near id = none) (h : shadowing id (pre ++ dirs) = some app) :
    (∀ near ∈ pre, lists id near = false) ∧ shadowing id dirs = some app := by
  induction pre with
  | nil => exact ⟨nofun, h⟩
  | cons near pre ih =>
    rw [List.cons_append, shadowing_cons] at h
    cases hlist : lists id near with
    | true =>
      rw [hlist, if_pos rfl, hpre near (List.mem_cons_self ..)] at h
      cases h
    | false =>
      rw [hlist] at h
      obtain ⟨hrest, happ⟩ := ih (fun d hd => hpre d (List.mem_cons_of_mem _ hd)) (by simpa using h)
      refine ⟨fun d hd => ?_, happ⟩
      rcases List.mem_cons.1 hd with rfl | hd
      · exact hlist
      · exact hrest d hd

/-- `app_by_id` and the scan agree on an id exactly if its nearest usable entry is not
behind a file of that name that cannot be used. -/
theorem appById_iff_loadAll {dirs : AppDirs} (hsmall : ∀ dir ∈ dirs.applications, Small dir) {id : String}
    (hvalid : validDesktopId id = true) (hdesktop : isDesktopFile id = true) :
    (∀ app, dirs.appById id = some app ↔ app ∈ dirs.loadAll ∧ app.id = id) ↔ Unhidden dirs id := by
  have hlookup : dirs.appById id = dirs.applications.findSome? (entryAt · id) := by simp [appById, hvalid]
  simp only [hlookup, loadAll_mem hsmall hvalid hdesktop]
  constructor
  · intro hagree pre dir post app hdirs hpre happ
    have hfind : dirs.applications.findSome? (entryAt · id) = some app := by
      rw [hdirs, List.findSome?_append, List.findSome?_eq_none_iff.2 hpre]
      simp [happ]
    have hshadow := (hagree app).1 hfind
    rw [hdirs] at hshadow
    obtain ⟨hnear, hshadow⟩ := shadowing_of_unusable hpre hshadow
    refine ⟨hnear, ?_⟩
    rw [shadowing_cons] at hshadow
    cases hlist : lists id dir with
    | true => exact Or.inl rfl
    | false => exact Or.inr (by simpa [hlist] using hshadow)
  · intro hunhidden app
    suffices heq : dirs.applications.findSome? (entryAt · id) = shadowing id dirs.applications by rw [heq]
    cases hfind : dirs.applications.findSome? (entryAt · id) with
    | none =>
      rw [List.findSome?_eq_none_iff] at hfind
      rw [shadowing]
      cases hfirst : dirs.applications.find? (lists id) with
      | none => rfl
      | some dir => exact (hfind dir (List.mem_of_find?_eq_some hfirst)).symm
    | some found =>
      obtain ⟨pre, dir, post, hdirs, hat, hpre⟩ := List.findSome?_eq_some_iff.1 hfind
      obtain ⟨hnear, hfound⟩ := hunhidden pre dir post found hdirs hpre hat
      rw [hdirs, shadowing_append hnear, shadowing_cons]
      cases hlist : lists id dir with
      | true => rw [if_pos rfl, hat]
      | false =>
        rw [hlist] at hfound
        rw [if_neg (by simp)]
        exact (hfound.resolve_left (by simp)).symm

/-- A directory with one desktop file. -/
def oneEntry (id text : String) : Directory :=
  ⟨some [id], fun name => if name = id then some (text.toList.flatMap String.utf8EncodeChar) else none⟩

theorem oneEntry_small (id text : String) : Small (oneEntry id text) := by
  rintro names ⟨⟩
  exact le_trans (List.length_filter_le ..) (Nat.le_add_left 1 1023)

/-- The user's file deletes the entry of the system's. -/
def deletedEntry : AppDirs :=
  ⟨[oneEntry "viewer.desktop" "[Desktop Entry]\nHidden=true\n",
    oneEntry "viewer.desktop" "[Desktop Entry]\nName=Viewer\nExec=viewer %f\n"], []⟩

/-- The user's file takes the place of the system's. -/
def replacedEntry : AppDirs :=
  ⟨[oneEntry "viewer.desktop" "[Desktop Entry]\nName=Mine\nExec=mine %f\n",
    oneEntry "viewer.desktop" "[Desktop Entry]\nName=Viewer\nExec=viewer %f\n"], []⟩

theorem appById_iff_loadAll_replaced :
    (∀ app, replacedEntry.appById "viewer.desktop" = some app ↔
      app ∈ replacedEntry.loadAll ∧ app.id = "viewer.desktop") ∧ (replacedEntry.appById "viewer.desktop").isSome := by
  refine ⟨(appById_iff_loadAll ?_ (by decide +kernel) (by decide +kernel)).2 ?_, by decide +kernel⟩
  · intro dir hdir
    rcases List.mem_cons.1 hdir with rfl | hdir
    · exact oneEntry_small _ _
    · rw [List.mem_singleton.1 hdir]
      exact oneEntry_small _ _
  · rintro pre dir post app hdirs hpre -
    cases pre with
    | nil =>
      cases hdirs
      exact ⟨nofun, Or.inl (by decide)⟩
    | cons near pre =>
      have hnear := hpre near (List.mem_cons_self ..)
      rw [← (List.cons.inj hdirs).1] at hnear
      have hmine : (entryAt (oneEntry "viewer.desktop" "[Desktop Entry]\nName=Mine\nExec=mine %f\n")
        "viewer.desktop").isSome = true := by decide +kernel
      rw [hnear] at hmine
      cases hmine

/-- The deleted application is still found by its id. -/
theorem deleted_found : (∀ dir ∈ deletedEntry.applications, Small dir) ∧ validDesktopId "viewer.desktop" = true ∧
    isDesktopFile "viewer.desktop" = true ∧ deletedEntry.loadAll = [] ∧
    ¬ ∀ app, deletedEntry.appById "viewer.desktop" = some app ↔ app ∈ deletedEntry.loadAll ∧ app.id = "viewer.desktop" := by
  have hscan : deletedEntry.loadAll = [] := by decide +kernel
  refine ⟨?_, by decide +kernel, by decide +kernel, hscan, fun h => ?_⟩
  · intro dir hdir
    rcases List.mem_cons.1 hdir with rfl | hdir
    · exact oneEntry_small _ _
    · rw [List.mem_singleton.1 hdir]
      exact oneEntry_small _ _
  · obtain ⟨app, happ⟩ := Option.isSome_iff_exists.1
      (show (deletedEntry.appById "viewer.desktop").isSome = true by decide +kernel)
    have hin := ((h app).1 happ).1
    rw [hscan] at hin
    cases hin

end AtriumPortal.Apps.AppDirs
