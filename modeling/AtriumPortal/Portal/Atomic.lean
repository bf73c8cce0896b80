import AtriumPortal.Portal.Files
/-!
# A failed write changes nothing

`files.rs`: `write_atomic` renames a temporary file over the target. `writeAtomic_atomic_iff`:
exactly when a write that fails leaves the target and the directory as they were.
-/
open AtriumPortal.Lib.Interact AtriumPortal.Lib.Path AtriumPortal.Lib.Table

namespace AtriumPortal.Portal.Files

/-- All or nothing: the target holds the new bytes, or what it held, and no other file is new. -/
structure Atomic (d : Disk) (target content : Bytes) (d' : Disk) (r : Except String Bytes) : Prop where
  written : ∀ path, r = .ok path → path = target ∧ d'.lookup target = some content
  unchanged : ∀ error, r = .error error → d'.lookup target = d.lookup target
  clean : ∀ error, r = .error error → ∀ path, path ≠ target → d.lookup path = none → d'.lookup path = none

/-- The directory could not be synced behind the rename, over another content, or the temporary
file could not be removed. -/
def Exposed (d : Disk) (target content : Bytes) (t : Trace) : Prop :=
  Failed t .syncDirectory ∧ d.lookup target ≠ some content ∨ Littered t

/-- The target holds the content, and every other file is as it was. -/
def Stored (d : Disk) (target content : Bytes) (d' : Disk) : Prop :=
  ∀ path, d'.lookup path = if path = target then some content else d.lookup path

/-- What was created was moved, and synced if anything was. -/
structure Finished (t : Trace) : Prop where
  synced : ¬ Failed t .syncDirectory
  moved : ∀ path, Did t (.createNew path) → ∃ target, Did t (.rename path target)

/-- How a write that fails leaves the disk. -/
inductive Remains (d : Disk) (temporary target content : Bytes) (t : Trace) (d' : Disk) : Prop
  | clean (hfree : ¬ Exposed d target content t) (hsame : ∀ path, path ≠ temporary → d'.lookup path = d.lookup path)
      (hgone : d'.lookup temporary = none ∨ d'.lookup temporary = d.lookup temporary)
  | littered (hexposed : Exposed d target content t) (hnew : d.lookup temporary = none)
      (hleft : (d'.lookup temporary).isSome = true)
  | replaced (hexposed : Exposed d target content t ↔ d.lookup target ≠ some content) (hstored : Stored d target content d')

/-- What a write comes to. -/
structure Outcome (dir name content : Bytes) (d : Disk) (t : Trace) (d' : Disk) (r : Except String Bytes) : Prop where
  placed : ∀ path, r = .ok path → path = join dir name ∧ Stored d (join dir name) content d' ∧ Finished t
  failed : ∀ error, r = .error error →
    ∃ suffix, Remains d (join dir (temporaryName name suffix)) (join dir name) content t d'

variable {d : Disk} {temporary target content : Bytes}

/-! ## What idle actions leave out -/

theorem exposed_congr {t t' : Trace} (hdid : ∀ op : Op, op.places = true → (Did t' op ↔ Did t op))
    (hfailed : ∀ op : Op, op.places = true → (Failed t' op ↔ Failed t op)) :
    Exposed d target content t' ↔ Exposed d target content t := by
  have hnew := fun path => hdid (.createNew path) rfl
  have hmove := fun source target => hdid (.rename source target) rfl
  have hremove := fun path => hfailed (.removeFile path) rfl
  have hsync := hfailed .syncDirectory rfl
  simp only [Exposed, Littered, hnew, hmove, hremove, hsync]

theorem exposed_insert_idle {t u v : Trace} (ht : Idle t) :
    Exposed d target content (u ++ (t ++ v)) ↔ Exposed d target content (u ++ v) :=
  exposed_congr (fun _ hop => did_insert_idle ht hop) fun _ hop => failed_insert_idle ht hop

theorem Finished.insert_idle {t u v : Trace} (h : Finished (u ++ v)) (ht : Idle t) : Finished (u ++ (t ++ v)) := by
  refine ⟨fun hfailed => h.synced ((failed_insert_idle ht rfl).1 hfailed), fun path hdid => ?_⟩
  obtain ⟨target, hmoved⟩ := h.moved path ((did_insert_idle ht rfl).1 hdid)
  exact ⟨target, (did_insert_idle ht rfl).2 hmoved⟩

theorem Finished.not_exposed {t : Trace} (h : Finished t) : ¬ Exposed d target content t := by
  rintro (⟨hfailed, -⟩ | ⟨path, hcreated, hunmoved, -⟩)
  · exact h.synced hfailed
  · obtain ⟨target, hmoved⟩ := h.moved path hcreated
    exact hunmoved target hmoved

theorem Remains.congr {t t' : Trace} {d' : Disk} (h : Remains d temporary target content t d')
    (hsame : Exposed d target content t' ↔ Exposed d target content t) : Remains d temporary target content t' d' := by
  cases h with
  | clean hfree hother hgone => exact .clean (fun h => hfree (hsame.1 h)) hother hgone
  | littered hexposed hnew hleft => exact .littered (hsame.2 hexposed) hnew hleft
  | replaced hexposed hstored => exact .replaced (hsame.trans hexposed) hstored

theorem outcome_skips (dir name content : Bytes) (d : Disk) : Skips (Outcome dir name content d) := by
  intro t v d' r hidle h
  refine ⟨fun path hr => ?_, fun error hr => ?_⟩
  · obtain ⟨hpath, hstored, hfinished⟩ := h.placed path hr
    exact ⟨hpath, hstored, hfinished.insert_idle (u := []) hidle⟩
  · obtain ⟨suffix, hremains⟩ := h.failed error hr
    exact ⟨suffix, hremains.congr (exposed_insert_idle (u := []) hidle)⟩

/-! ## How a write ends -/

/-- The disk of a write that has moved its file. -/
theorem stored_moved (hnew : d.lookup temporary = none) :
    Stored d target content (((d.insert temporary content).erase temporary).insert target content) := by
  intro path
  by_cases htarget : path = target
  · rw [htarget, AList.lookup_insert, if_pos rfl]
  · rw [AList.lookup_insert_ne htarget, if_neg htarget]
    by_cases htemporary : path = temporary
    · rw [htemporary, AList.lookup_erase, hnew]
    · rw [AList.lookup_erase_ne htemporary, AList.lookup_insert_ne htemporary]

theorem finished_placed {t : Trace} {d' : Disk} (h : Placed temporary target content d t d' (.ok ())) : Finished t := by
  cases h with
  | placed hidle =>
    refine Finished.insert_idle (u := [⟨.op (.createNew temporary), .ok ()⟩]) ⟨?_, ?_⟩ hidle
    · simp [Failed]
    · intro path hcreated
      refine ⟨target, ?_⟩
      simpa [Did] using hcreated

theorem stored_placed {t : Trace} {d' : Disk} (h : Placed temporary target content d t d' (.ok ()))
    (hfresh : Did t (.createNew temporary) → d.lookup temporary = none) : Stored d target content d' := by
  cases h with
  | placed => exact stored_moved (hfresh (List.mem_cons_self ..))

theorem remains_erase {t : Trace} {d' : Disk} (hfree : ¬ Exposed d target content t)
    (hsame : ∀ path, path ≠ temporary → d'.lookup path = d.lookup path) :
    Remains d temporary target content t (d'.erase temporary) :=
  .clean hfree (fun path hpath => by rw [AList.lookup_erase_ne hpath, hsame path hpath])
    (Or.inl (AList.lookup_erase ..))

/-- After a failure the removal of the temporary file decides, unless the rename was done. -/
theorem remains_removed {t : Trace} {d' : Disk} {error : String} (hne : temporary ≠ target)
    (h : Placed temporary target content d t d' (.error error))
    (hfresh : Did t (.createNew temporary) → d.lookup temporary = none) :
    (∀ d'', (Op.removeFile temporary).apply d' = some d'' →
      Remains d temporary target content (t ++ [⟨.op (.removeFile temporary), .ok ()⟩]) d'') ∧
    ∀ e, Remains d temporary target content (t ++ [⟨.op (.removeFile temporary), .error e⟩]) d' := by
  have hremoved : ∀ {d₁ d₂ : Disk}, (Op.removeFile temporary).apply d₁ = some d₂ →
      (d₁.lookup temporary).isSome = true ∧ d₂ = d₁.erase temporary := by
    intro d₁ d₂ h
    simp only [Op.apply, Option.ite_none_right_eq_some, Option.some.injEq] at h
    exact ⟨h.1, h.2.symm⟩
  have hinsert : ∀ (held path : Bytes), path ≠ temporary → (d.insert temporary held).lookup path = d.lookup path :=
    fun held path hpath => AList.lookup_insert_ne hpath
  -- a write that created its file, but for the idle actions
  have hsame : ∀ (t : Trace) (rest : Trace), Idle t →
      (Exposed d target content (⟨.op (.createNew temporary), .ok ()⟩ :: (t ++ rest)) ↔
        Exposed d target content (⟨.op (.createNew temporary), .ok ()⟩ :: rest)) := fun t rest hidle =>
    exposed_insert_idle (u := [⟨.op (.createNew temporary), .ok ()⟩]) hidle
  cases h with
  | uncreated =>
    constructor
    · intro d'' hd
      obtain ⟨-, rfl⟩ := hremoved hd
      exact remains_erase (by simp [Exposed, Failed, Littered, Did]) fun _ _ => rfl
    · intro e
      exact .clean (by simp [Exposed, Failed, Littered, Did]) (fun _ _ => rfl) (Or.inr rfl)
  | @unmoved t held _ hidle =>
    have hnew := hfresh (List.mem_cons_self ..)
    simp only [List.cons_append]
    constructor
    · intro d'' hd
      obtain ⟨-, rfl⟩ := hremoved hd
      exact remains_erase (by rw [hsame t _ hidle]; simp [Exposed, Failed, Littered, Did]) (hinsert held)
    · intro e
      exact .littered (by rw [hsame t _ hidle]; simp [Exposed, Failed, Littered, Did]) hnew (by simp)
  | @unrenamed t held _ hidle =>
    have hnew := hfresh (List.mem_cons_self ..)
    simp only [List.cons_append, List.append_assoc]
    constructor
    · intro d'' hd
      obtain ⟨-, rfl⟩ := hremoved hd
      exact remains_erase (by rw [hsame t _ hidle]; simp [Exposed, Failed, Littered, Did]) (hinsert held)
    · intro e
      exact .littered (by rw [hsame t _ hidle]; simp [Exposed, Failed, Littered, Did]) hnew (by simp)
  | @unsynced t _ hidle =>
    have hnew := hfresh (List.mem_cons_self ..)
    simp only [List.cons_append, List.append_assoc]
    constructor
    · intro d'' hd
      -- the temporary file has become the target
      simpa [AList.lookup_insert_ne hne] using (hremoved hd).1
    · intro e
      exact .replaced (by rw [hsame t _ hidle]; simp [Exposed, Failed, Littered, Did]) (stored_moved hnew)

/-- Whatever fails, a write stores the content or fails in one of three ways. -/
theorem writeAtomic_outcome (dir name content : Bytes) (d : Disk) :
    disk.Must (writeAtomic dir name content) d (Outcome dir name content d) := by
  refine writeAtomic_must (outcome_skips dir name content d) (fun error => ⟨nofun, fun _ _ => ⟨[], ?_⟩⟩)
    (fun suffix t d' h hfresh => ⟨?_, nofun⟩) fun suffix t d' error h hfresh => ?_
  · exact .clean (by simp [Exposed, Failed, Littered, Did]) (fun _ _ => rfl) (Or.inr rfl)
  · rintro path ⟨rfl⟩
    exact ⟨rfl, stored_placed h hfresh, finished_placed h⟩
  · obtain ⟨hremoved, hkept⟩ := remains_removed (temporary_ne_target dir name suffix) h hfresh
    exact ⟨fun d'' hd => ⟨nofun, fun _ _ => ⟨suffix, hremoved d'' hd⟩⟩, fun e => ⟨nofun, fun _ _ => ⟨suffix, hkept e⟩⟩⟩

/-! ## All or nothing -/

theorem atomic_error {d' : Disk} {error : String} : Atomic d target content d' (.error error) ↔
    d'.lookup target = d.lookup target ∧ ∀ path, path ≠ target → d.lookup path = none → d'.lookup path = none :=
  ⟨fun h => ⟨h.unchanged error rfl, h.clean error rfl⟩, fun h => ⟨nofun, fun _ _ => h.1, fun _ _ => h.2⟩⟩

theorem Remains.atomic_iff {t : Trace} {d' : Disk} (hne : temporary ≠ target)
    (h : Remains d temporary target content t d') (error : String) :
    Atomic d target content d' (.error error) ↔ ¬ Exposed d target content t := by
  rw [atomic_error]
  cases h with
  | clean hfree hsame hgone =>
    refine iff_of_true ⟨hsame target hne.symm, fun path _ hnone => ?_⟩ hfree
    by_cases hpath : path = temporary
    · rw [hpath] at hnone ⊢
      rcases hgone with hgone | hgone
      · exact hgone
      · rw [hgone, hnone]
    · rw [hsame path hpath, hnone]
  | littered hexposed hnew hleft =>
    refine iff_of_false (fun h => ?_) (not_not.2 hexposed)
    rw [h.2 temporary hne hnew] at hleft
    cases hleft
  | replaced hexposed hstored =>
    rw [hexposed, not_not]
    have htarget := hstored target
    rw [if_pos rfl] at htarget
    constructor
    · rintro ⟨hsame, -⟩
      rw [← hsame, htarget]
    · intro hsame
      refine ⟨by rw [htarget, hsame], fun path hpath hnone => ?_⟩
      rw [hstored path, if_neg hpath, hnone]

/-- `write_atomic` is atomic exactly in the runs in which the directory is synced, or was not to
hold anything new, and the temporary file is not left. -/
theorem writeAtomic_atomic_iff (dir name content : Bytes) (d : Disk) :
    disk.Must (writeAtomic dir name content) d fun t d' r =>
      Atomic d (join dir name) content d' r ↔ ¬ Exposed d (join dir name) content t := by
  refine (writeAtomic_outcome dir name content d).mono fun t d' r h => ?_
  cases r with
  | ok path =>
    obtain ⟨rfl, hstored, hfinished⟩ := h.placed path rfl
    refine iff_of_true ⟨?_, nofun, nofun⟩ hfinished.not_exposed
    rintro found ⟨rfl⟩
    exact ⟨rfl, by rw [hstored, if_pos rfl]⟩
  | error error =>
    obtain ⟨suffix, hremains⟩ := h.failed error rfl
    exact hremains.atomic_iff (temporary_ne_target dir name suffix) error

/-! ## A write that is not synced -/

/-- Everything succeeds but the sync of the directory. -/
def unsyncedEnv : Env Empty Action Action.Answer where
  moves _ := []
  answer _ a :=
    match a with
    | .op .syncDirectory => .error "Input/output error"
    | .op _ => .ok ()
    | .metadata => .ok ⟨true, 1000, 0o700⟩
    | .getuid => 1000
    | .randomSuffix => bytes "0"
    | .writeAll _ content => ⟨content.length, .ok ()⟩

def unsyncedWrite : Ran Disk Empty Action Action.Answer (Except String Bytes) :=
  disk.exec unsyncedEnv 0 ∅ (writeAtomic (bytes "/d") (bytes "a.png") [1])

/-- The error is returned, and the target is there. -/
theorem unsynced_replaces : (∃ error, unsyncedWrite.result = .error error) ∧
    ¬ Atomic ∅ (join (bytes "/d") (bytes "a.png")) [1] unsyncedWrite.state unsyncedWrite.result := by
  have hfails : unsyncedWrite.result.toBool = false := by decide +kernel
  have hthere : (unsyncedWrite.state.lookup (join (bytes "/d") (bytes "a.png"))).isSome = true := by decide +kernel
  generalize unsyncedWrite = ran at *
  cases hresult : ran.result with
  | ok path =>
    rw [hresult] at hfails
    cases hfails
  | error error =>
    refine ⟨⟨error, rfl⟩, fun h => ?_⟩
    rw [h.unchanged error rfl] at hthere
    cases hthere

end AtriumPortal.Portal.Files
