import AtriumPortal.Portal.Atomic
import AtriumPortal.Portal.Wallpaper
/-!
# One wallpaper request

`wallpaper.rs`: `run_set_staged` of a request that runs alone, with every operation on the
staging directory. `wallpaper_kept_iff`: exactly when a request that fails keeps the
wallpaper that was applied before it, and nothing of its own.
-/
open AtriumPortal.Lib.Interact AtriumPortal.Lib.Path AtriumPortal.Lib.Table

namespace AtriumPortal.Portal.Staging

open AtriumPortal.Portal.Files (Disk)

inductive Action where
  | wasClosed
  | readImage
  | previewConsent
  | file (a : Files.Action)
  /-- One connection, and one SetWallpaper request on it. -/
  | swap (staged : Bytes)
  | readDir
  | isFile (path : Bytes)
  deriving DecidableEq, Repr

@[reducible] def Action.Answer : Action → Type
  | .wasClosed => Bool
  | .readImage => Except String (List UInt8)
  | .previewConsent => Except String Bool
  | .file a => a.Answer
  | .swap _ => SwapAnswer
  | .readDir => Option (List Bytes)
  | .isFile _ => Bool

abbrev Work (R : Type) : Type := Prog Action Action.Answer R

def removeFile {R : Type} (path : Bytes) (next : Work R) : Work R := .ask (.file (.op (.removeFile path))) fun _ => next

def stageImage (dir : Bytes) (name : String) (image : List UInt8) : Work (Except String Bytes) :=
  (Files.writeAtomic dir (bytes name) image).lift .file fun _ b => b

/-- `ipc::set_wallpaper`: a request that fails is made once more, on a new connection. -/
def setWallpaper (staged : Bytes) : Work Bool :=
  .ask (.swap staged) fun
    | .unconnected => .ret false
    | .applied => .ret true
    | .refused | .lost => .ask (.swap staged) fun answer => .ret (decide (answer = .applied))

def pruneEntries (keep : Bytes) : List Bytes → Work Unit
  | [] => .ret ()
  | path :: rest =>
    if path = keep then pruneEntries keep rest
    else .ask (.isFile path) fun isFile =>
      if isFile then removeFile path (pruneEntries keep rest) else pruneEntries keep rest

def pruneStaging (keep : Bytes) : Work Unit :=
  .ask .readDir fun
    | none => .ret ()
    | some entries => pruneEntries keep entries

/-- Apply what is staged; the result is the response code. -/
def applyStaged (staged : Bytes) : Work Nat :=
  (setWallpaper staged).bind fun
    | true => (pruneStaging staged).bind fun _ => .ret 0
    -- The swap never happened: drop the just-staged file.
    | false => removeFile staged (.ret 2)

def stageAndApply (dir : Bytes) (name : String) (image : List UInt8) : Work Nat :=
  .ask .wasClosed fun closed =>
    if closed then .ret 1
    else (stageImage dir name image).bind fun
      | .error _ => .ret 2
      | .ok staged => applyStaged staged

/-- `run_set_staged` for the image at `path`. -/
def runSetStaged (dir : Bytes) (name path : String) (showPreview : Bool) : Work Nat :=
  .ask .wasClosed fun closed =>
    if closed then .ret 1
    else .ask .readImage fun answer =>
      match readImage path answer with
      | .error _ => .ret 2
      | .ok image =>
        if showPreview then
          .ask .previewConsent fun
            | .ok true => stageAndApply dir name image
            | .ok false => .ret 1
            | .error _ => .ret 2
        else stageAndApply dir name image

/-- The image file holds `image` and the disk answers what is its own; the rest is the environment's. -/
def alone (image : Except String (List UInt8)) : Machine Disk Empty Action Action.Answer where
  move d _ := d
  answer d a b :=
    match a, b with
    | .readImage, _ => (image, d)
    | .file a, b => Files.disk.answer d a b
    | _, b => (b, d)

abbrev Trace : Type := List (Sigma Action.Answer)

/-- The operations on files. -/
def fileActs : Trace → Files.Trace
  | [] => []
  | ⟨.file a, b⟩ :: t => ⟨a, b⟩ :: fileActs t
  | _ :: t => fileActs t

/-! ## What a failed request is to leave -/

/-- The applied wallpaper is there with its bytes, and every other file was there before. -/
structure Kept (d d' : Disk) (applied : Bytes) : Prop where
  applied : d'.lookup applied = d.lookup applied
  others : ∀ path content, d'.lookup path = some content → d.lookup path = some content

/-- The write was not exposed, and a staged file that was removed was not the applied wallpaper's; one
that could not be removed held the same bytes before. -/
structure Spared (d : Disk) (staged applied : Bytes) (image : List UInt8) (t : Files.Trace) : Prop where
  written : ¬ Files.Exposed d staged image t
  removed : Files.Did t (.removeFile staged) → staged ≠ applied
  unremoved : Files.Failed t (.removeFile staged) → d.lookup staged = some image

theorem kept_same (d : Disk) (applied : Bytes) : Kept d d applied := ⟨rfl, fun _ _ h => h⟩

section
variable {d d' : Disk} {temporary staged applied : Bytes} {image : List UInt8} {t : Files.Trace}

/-- A stored image stays if it was there before. -/
theorem kept_stored (h : Files.Stored d staged image d') : Kept d d' applied ↔ d.lookup staged = some image := by
  constructor
  · exact fun hkept => hkept.others staged image (by rw [h, if_pos rfl])
  · intro hsame
    have hall : ∀ path, d'.lookup path = d.lookup path := by
      intro path
      rw [h]
      split
      · next hpath => rw [hpath, hsame]
      · rfl
    exact ⟨hall applied, fun path content hin => by rwa [hall] at hin⟩

/-- A stored image that is removed takes the applied one with it where they share the name. -/
theorem kept_removed (h : Files.Stored d staged image d') (hthere : (d.lookup applied).isSome = true) :
    Kept d (d'.erase staged) applied ↔ staged ≠ applied := by
  constructor
  · rintro hkept rfl
    have hgone := hkept.applied
    rw [AList.lookup_erase] at hgone
    rw [← hgone] at hthere
    cases hthere
  · intro hne
    have hsame : ∀ path, path ≠ staged → (d'.erase staged).lookup path = d.lookup path := by
      intro path hpath
      rw [AList.lookup_erase_ne hpath, h, if_neg hpath]
    refine ⟨hsame applied hne.symm, fun path content hin => ?_⟩
    by_cases hpath : path = staged
    · rw [hpath, AList.lookup_erase] at hin
      cases hin
    · rwa [hsame path hpath] at hin

theorem kept_remains (hne : temporary ≠ applied) (h : Files.Remains d temporary staged image t d') :
    Kept d d' applied ↔ ¬ Files.Exposed d staged image t := by
  cases h with
  | clean hfree hsame hgone =>
    refine iff_of_true ⟨hsame applied hne.symm, fun path content hin => ?_⟩ hfree
    by_cases hpath : path = temporary
    · rw [hpath] at hin ⊢
      rcases hgone with hgone | hgone
      · rw [hgone] at hin
        cases hin
      · rwa [hgone] at hin
    · rwa [hsame path hpath] at hin
  | littered hexposed hnew hleft =>
    refine iff_of_false (fun hkept => ?_) (not_not.2 hexposed)
    obtain ⟨held, hheld⟩ := Option.isSome_iff_exists.1 hleft
    have hbefore := hkept.others temporary held hheld
    rw [hnew] at hbefore
    cases hbefore
  | replaced hexposed hstored => rw [kept_stored hstored, hexposed, not_not]
end

/-! ## The names -/

/-- No temporary file has the name of a staged one. -/
theorem temporary_ne_staged (dir name suffix : Bytes) (toLowercase : String → String) (extension : Option String) :
    join dir (Files.temporaryName name suffix) ≠ join dir (bytes (stagedName toLowercase extension)) := by
  have hdot : bytes "." = [dot] := by decide
  have htemporary : Files.temporaryName name suffix = dot :: (name ++ bytes "." ++ suffix ++ bytes ".tmp") := by
    simp [Files.temporaryName, hdot]
  have hcurrent : bytes "current." = 99 :: bytes "urrent." := by decide
  obtain ⟨rest, hstaged⟩ : ∃ rest, bytes (stagedName toLowercase extension) = 99 :: rest := by
    unfold stagedName
    rw [bytes_append, hcurrent]
    exact ⟨_, rfl⟩
  rw [htemporary, hstaged]
  intro h
  cases join_relative_inj rfl rfl h

/-- No removal, but for one of a file that `P` says. -/
def Removing (P : Bytes → Prop) (a : Files.Action) : Prop := ∀ path, a = .op (.removeFile path) → P path

theorem attempt_removes {R : Type} {P : Bytes → Prop} {op : Files.Op} {next : Files.Work (Except String R)}
    (hop : ∀ path, op ≠ .removeFile path) (h : next.Uses (Removing P)) : (Files.attempt op next).Uses (Removing P) := by
  refine ⟨fun path hpath => absurd (Files.Action.op.inj hpath) (hop path), fun answer => ?_⟩
  cases answer with
  | error error => trivial
  | ok _ => exact h

theorem metadata_removes {R : Type} {P : Bytes → Prop} {next : Files.Metadata → Files.Work (Except String R)}
    (h : ∀ m, (next m).Uses (Removing P)) : (Files.metadata next).Uses (Removing P) := by
  refine ⟨nofun, fun answer => ?_⟩
  cases answer with
  | error error => trivial
  | ok m => exact h m

theorem place_removes {P : Bytes → Prop} (temporary target content : Bytes) :
    (Files.place temporary target content).Uses (Removing P) := by
  refine attempt_removes nofun ⟨nofun, fun wrote => ?_⟩
  dsimp only
  split
  · trivial
  · exact attempt_removes nofun <| attempt_removes nofun <| attempt_removes nofun trivial

/-- A write removes only its temporary file. -/
theorem writeAtomic_removes (dir name content : Bytes) :
    (Files.writeAtomic dir name content).Uses
      (Removing fun path => ∃ suffix, path = join dir (Files.temporaryName name suffix)) := by
  refine attempt_removes nofun (Prog.Uses.bind ?_ fun opened => ?_)
  · refine attempt_removes nofun <| metadata_removes fun m => ⟨nofun, fun uid => ?_⟩
    dsimp only
    split <;> trivial
  · cases opened with
    | error error => trivial
    | ok _ =>
      refine attempt_removes nofun <| metadata_removes fun m => ?_
      split
      · trivial
      · refine ⟨nofun, fun suffix => ?_⟩
        refine Prog.Uses.bind (place_removes ..) fun placed => ?_
        cases placed with
        | ok _ => trivial
        | error error =>
          refine ⟨fun path hpath => ?_, fun _ => trivial⟩
          cases hpath
          exact ⟨suffix, rfl⟩

/-! ## The request -/

theorem fileActs_append (t t' : Trace) : fileActs (t ++ t') = fileActs t ++ fileActs t' := by
  fun_induction fileActs t with
  | case1 => rfl
  | case2 a b t ih => rw [List.cons_append, fileActs, ih, List.cons_append]
  | case3 x t hx ih =>
    obtain ⟨a, b⟩ := x
    cases a with
    | file a => exact absurd rfl (hx a b)
    | wasClosed | readImage | previewConsent | swap | readDir | isFile => exact ih

theorem fileActs_inject (t : Files.Trace) : fileActs (Prog.inject Action.file t) = t := by
  induction t with
  | nil => rfl
  | cons x t ih => exact congrArg (x :: ·) ih

theorem alone_part (file : Except String (List UInt8)) :
    Machine.Part (e := Action.file) Files.disk (alone file) fun d => d where
  move := fun _ _ => rfl
  answer := fun _ _ _ => ⟨rfl, rfl⟩

theorem pruneEntries_uses (keep : Bytes) (entries : List Bytes) :
    (pruneEntries keep entries).Uses fun a => ∀ f, a = .file f → ∃ path, path ≠ keep ∧ f = .op (.removeFile path) := by
  induction entries with
  | nil => trivial
  | cons path entries ih =>
    rw [pruneEntries]
    split
    · exact ih
    · next hpath =>
      refine ⟨nofun, fun isFile => ?_⟩
      dsimp only
      split
      · refine ⟨?_, fun _ => ih⟩
        rintro f ⟨rfl⟩
        exact ⟨path, hpath, rfl⟩
      · exact ih

theorem mem_fileActs {t : Trace} {x : Sigma Files.Action.Answer} (h : x ∈ fileActs t) : ⟨.file x.1, x.2⟩ ∈ t := by
  fun_induction fileActs t with
  | case1 => cases h
  | case2 a b t ih =>
    rcases List.mem_cons.1 h with rfl | h
    · exact List.mem_cons_self ..
    · exact List.mem_cons_of_mem _ (ih h)
  | case3 x t hx ih => exact List.mem_cons_of_mem _ (ih h)

/-- Pruning removes files other than the one that it keeps. -/
theorem pruneStaging_ends (keep : Bytes) :
    (pruneStaging keep).Ends fun t _ => ∀ x ∈ fileActs t, ∃ path, path ≠ keep ∧ x.1 = .op (.removeFile path) := by
  intro listed
  cases listed with
  | none => exact nofun
  | some entries =>
    exact (pruneEntries_uses keep entries).ends.mono fun t _ ht x hx => ht _ (mem_fileActs hx) x.1 rfl

/-- How a request ends that has staged its image. -/
inductive Applied (staged : Bytes) (d : Disk) : Files.Trace → Disk → Nat → Prop
  | pruned {t d'} (h : ∀ x ∈ t, ∃ path, path ≠ staged ∧ x.1 = .op (.removeFile path)) : Applied staged d t d' 0
  | removed : Applied staged d [⟨.op (.removeFile staged), .ok ()⟩] (d.erase staged) 2
  | unremoved (error) : Applied staged d [⟨.op (.removeFile staged), .error error⟩] d 2

variable {file : Except String (List UInt8)}

theorem setWallpaper_must (staged : Bytes) (d : Disk) :
    (alone file).Must (setWallpaper staged) d fun t d' _ => fileActs t = [] ∧ d' = d := by
  refine Machine.Must.ask_alone fun answer => ?_
  have hagain : (alone file).Must (.ask (.swap staged) fun answer => .ret (decide (answer = .applied))) d
      fun t d' (_ : Bool) => fileActs (⟨.swap staged, answer⟩ :: t) = [] ∧ d' = d :=
    Machine.Must.ask_alone fun _ => ⟨rfl, rfl⟩
  cases answer with
  | unconnected | applied => exact ⟨rfl, rfl⟩
  | refused | lost => exact hagain

theorem applyStaged_must (staged : Bytes) (d : Disk) :
    (alone file).Must (applyStaged staged) d fun t d' code => Applied staged d (fileActs t) d' code := by
  refine Machine.Must.bind ((setWallpaper_must staged d).mono fun t d' swapped ⟨ht, hd⟩ => ?_)
  subst hd
  simp only [fileActs_append, ht, List.nil_append]
  cases swapped with
  | true =>
    have hends : (alone file).Must (pruneStaging staged) d' _ :=
      (Machine.Must.any fun _ _ _ => trivial).and_ends (pruneStaging_ends staged)
    refine Machine.Must.bind (hends.mono fun t d'' _ ⟨_, hprune⟩ => ?_)
    change Applied staged d' (fileActs (t ++ [])) d'' 0
    rw [List.append_nil]
    exact .pruned hprune
  | false =>
    refine Machine.Must.ask_alone fun answer => ?_
    cases answer with
    | error error => exact .unremoved error
    | ok _ =>
      by_cases hthere : (d'.lookup staged).isSome = true
      · simp only [alone, Files.disk, Files.Op.apply, if_pos hthere]
        exact .removed
      · simp only [alone, Files.disk, Files.Op.apply, if_neg hthere]
        exact .unremoved _

/-! ## What is kept -/

section
variable {d d' : Disk} {dir name staged applied : Bytes} {image : List UInt8} {t : Files.Trace}

theorem finished_append_removals {t' : Files.Trace} (h : Files.Finished t)
    (hremove : ∀ x ∈ t', ∃ path, x.1 = .op (.removeFile path)) : Files.Finished (t ++ t') := by
  refine ⟨?_, fun path hcreated => ?_⟩
  · rintro ⟨error, hin⟩
    rcases List.mem_append.1 hin with hin | hin
    · exact h.synced ⟨error, hin⟩
    · obtain ⟨path, hpath⟩ := hremove _ hin
      cases hpath
  · rcases List.mem_append.1 hcreated with hcreated | hcreated
    · obtain ⟨target, hmoved⟩ := h.moved path hcreated
      exact ⟨target, List.mem_append_left t' hmoved⟩
    · obtain ⟨removed, hremoved⟩ := hremove _ hcreated
      cases hremoved

/-- A trace that never asks for the removal of the staged file is judged by its write alone. -/
theorem spared_unasked (hunasked : ∀ x ∈ t, x.1 ≠ .op (.removeFile staged)) :
    Spared d staged applied image t ↔ ¬ Files.Exposed d staged image t := by
  refine ⟨Spared.written, fun h => ⟨h, fun hdid => ?_, fun ⟨error, hfailed⟩ => ?_⟩⟩
  · exact absurd rfl (hunasked _ hdid)
  · exact absurd rfl (hunasked _ hfailed)

theorem spared_idle : Spared d staged applied image [] :=
  (spared_unasked fun _ hx => absurd hx List.not_mem_nil).2
    (by simp [Files.Exposed, Files.Failed, Files.Littered, Files.Did])

/-- After a write that is done, the removal of what it staged decides. -/
theorem Applied.kept_iff {t' : Files.Trace} {d₁ : Disk} {code : Nat} (h : Applied staged d₁ t' d' code)
    (hthere : (d.lookup applied).isSome = true) (hstored : Files.Stored d staged image d₁) (hfinished : Files.Finished t)
    (hunasked : ∀ x ∈ t, x.1 ≠ .op (.removeFile staged)) :
    (code ≠ 0 → Kept d d' applied) ↔ Spared d staged applied image (t ++ t') := by
  have hfree : (∀ x ∈ t', ∃ path, x.1 = .op (.removeFile path)) → ¬ Files.Exposed d staged image (t ++ t') :=
    fun hremove => (finished_append_removals hfinished hremove).not_exposed
  have hdid : Files.Did (t ++ t') (.removeFile staged) ↔ Files.Did t' (.removeFile staged) := by
    rw [Files.did_append, or_iff_right]
    exact fun hdid => hunasked _ hdid rfl
  have hfailed : Files.Failed (t ++ t') (.removeFile staged) ↔ Files.Failed t' (.removeFile staged) := by
    rw [Files.failed_append, or_iff_right]
    exact fun ⟨error, hin⟩ => hunasked _ hin rfl
  cases h with
  | pruned hpruned =>
    refine iff_of_true (fun hcode => absurd rfl hcode) ((spared_unasked fun x hx => ?_).2 (hfree fun x hx => ?_))
    · rcases List.mem_append.1 hx with hx | hx
      · exact hunasked x hx
      · obtain ⟨path, hpath, hop⟩ := hpruned x hx
        rw [hop]
        rintro ⟨rfl⟩
        exact hpath rfl
    · obtain ⟨path, -, hop⟩ := hpruned x hx
      exact ⟨path, hop⟩
  | removed =>
    have hkept := kept_removed hstored hthere
    constructor
    · intro h
      refine ⟨hfree (by simp), fun _ => hkept.1 (h nofun), fun hf => ?_⟩
      obtain ⟨error, hin⟩ := hfailed.1 hf
      simp at hin
    · exact fun h _ => hkept.2 (h.removed (hdid.2 (List.mem_cons_self ..)))
  | unremoved error =>
    have hkept : Kept d d' applied ↔ _ := kept_stored hstored
    constructor
    · intro h
      refine ⟨hfree (by simp), fun hd => ?_, fun _ => hkept.1 (h nofun)⟩
      simpa [Files.Did] using hdid.1 hd
    · exact fun h _ => hkept.2 (h.unremoved (hfailed.2 ⟨error, List.mem_cons_self ..⟩))
end

/-! ## The request -/

section
variable {d : Disk} {dir : Bytes} {applied : Bytes} {toLowercase : String → String} {extension : Option String}
  {image : List UInt8}

/-- What a request comes to that goes on with `image`. -/
abbrev Judged (d : Disk) (staged applied : Bytes) (image : List UInt8) (t : Trace) (d' : Disk) (code : Nat) : Prop :=
  (code ≠ 0 → Kept d d' applied) ↔ Spared d staged applied image (fileActs t)

theorem judged_same {staged : Bytes} {t : Trace} {code : Nat} (ht : fileActs t = []) :
    Judged d staged applied image t d code := by
  rw [Judged, ht]
  exact iff_of_true (fun _ => kept_same d applied) spared_idle

theorem stageAndApply_must (hthere : (d.lookup applied).isSome = true)
    (happlied : ∀ suffix, join dir (Files.temporaryName (bytes (stagedName toLowercase extension)) suffix) ≠ applied) :
    (alone file).Must (stageAndApply dir (stagedName toLowercase extension) image) d
      (Judged d (join dir (bytes (stagedName toLowercase extension))) applied image) := by
  generalize hname : stagedName toLowercase extension = name at *
  have hstaged : ∀ suffix, join dir (Files.temporaryName (bytes name) suffix) ≠ join dir (bytes name) :=
    Files.temporary_ne_target dir (bytes name)
  have hwrite := (Files.writeAtomic_outcome dir (bytes name) image d).and_ends
    (writeAtomic_removes dir (bytes name) image).ends
  refine Machine.Must.ask_alone fun closed => ?_
  cases closed with
  | true => exact judged_same rfl
  | false =>
    refine Machine.Must.bind ((Machine.Must.lift (alone_part file) hwrite).mono ?_)
    rintro _ d₁ staged ⟨t, rfl, houtcome, hremoves⟩
    -- the temporary name is not that of the staged file
    have hunasked : ∀ x ∈ t, x.1 ≠ .op (.removeFile (join dir (bytes name))) := by
      intro x hx hasked
      obtain ⟨suffix, hsuffix⟩ := hremoves x hx _ hasked
      exact hstaged suffix hsuffix.symm
    cases staged with
    | error error =>
      obtain ⟨suffix, hremains⟩ := houtcome.failed error rfl
      have hkept := kept_remains (happlied suffix) hremains
      have hspared : Spared d (join dir (bytes name)) applied image t ↔ _ := spared_unasked hunasked
      change Judged _ _ _ _ (_ :: (_ ++ [])) _ 2
      simp only [Judged, fileActs, List.append_nil, fileActs_inject, hspared, ← hkept]
      exact ⟨fun h => h nofun, fun h _ => h⟩
    | ok staged =>
      obtain ⟨rfl, hstored, hfinished⟩ := houtcome.placed staged rfl
      refine (applyStaged_must (join dir (bytes name)) d₁).mono fun t' d' code h => ?_
      simp only [Judged, fileActs, fileActs_append, fileActs_inject]
      exact h.kept_iff hthere hstored hfinished hunasked

/-- The image is staged at once, or after the preview is confirmed. -/
theorem previewed_must {showPreview : Bool} (hthere : (d.lookup applied).isSome = true)
    (happlied : ∀ suffix, join dir (Files.temporaryName (bytes (stagedName toLowercase extension)) suffix) ≠ applied) :
    (alone file).Must
      (if showPreview then
        .ask .previewConsent fun
          | .ok true => stageAndApply dir (stagedName toLowercase extension) image
          | .ok false => .ret 1
          | .error _ => .ret 2
      else stageAndApply dir (stagedName toLowercase extension) image)
      d (Judged d (join dir (bytes (stagedName toLowercase extension))) applied image) := by
  cases showPreview with
  | false => exact stageAndApply_must hthere happlied
  | true =>
    refine Machine.Must.ask_alone fun consent => ?_
    cases consent with
    | error error => exact judged_same rfl
    | ok confirmed =>
      cases confirmed with
      | false => exact judged_same rfl
      | true => exact stageAndApply_must hthere happlied
end

/-- A request that runs alone and fails keeps the applied wallpaper, and leaves nothing of its own,
exactly where its write is all or nothing and the staged file it drops is not the applied one. -/
theorem wallpaper_kept_iff (toLowercase : String → String) (extension previous : Option String) (dir : Bytes)
    (path : String) (showPreview : Bool) (file : Except String (List UInt8)) (d : Disk)
    (hthere : (d.lookup (join dir (bytes (stagedName toLowercase previous)))).isSome = true) :
    (alone file).Must (runSetStaged dir (stagedName toLowercase extension) path showPreview) d fun t d' code =>
      (code ≠ 0 → Kept d d' (join dir (bytes (stagedName toLowercase previous)))) ↔
        ∀ image, readImage path file = .ok image →
          Spared d (join dir (bytes (stagedName toLowercase extension)))
            (join dir (bytes (stagedName toLowercase previous))) image (fileActs t) := by
  have happlied := fun suffix =>
    temporary_ne_staged dir (bytes (stagedName toLowercase extension)) suffix toLowercase previous
  refine Machine.Must.ask_alone fun closed => ?_
  cases closed with
  | true => exact iff_of_true (fun _ => kept_same d _) fun image _ => spared_idle
  | false =>
    refine Machine.Must.ask_alone fun answer => ?_
    simp only [alone]
    cases hread : readImage path file with
    | error error => exact iff_of_true (fun _ => kept_same d _) nofun
    | ok image =>
      simp only [Except.ok.injEq, forall_eq']
      exact previewed_must hthere happlied

/-! ## Under one name -/

/-- A `.png` was applied. -/
def worn : Disk := (∅ : Disk).insert (join (bytes "/d") (bytes (stagedName String.toLower (some "png")))) [1]

theorem wallpaper_kept_iff_png :
    (worn.lookup (join (bytes "/d") (bytes (stagedName String.toLower (some "png"))))).isSome = true ∧
      (alone (.ok [2])).Must (runSetStaged (bytes "/d") (stagedName String.toLower (some "jpg")) "/a.jpg" false) worn
        fun t d' code =>
          (code ≠ 0 → Kept worn d' (join (bytes "/d") (bytes (stagedName String.toLower (some "png"))))) ↔
            ∀ image, readImage "/a.jpg" (.ok [2]) = .ok image →
              Spared worn (join (bytes "/d") (bytes (stagedName String.toLower (some "jpg"))))
                (join (bytes "/d") (bytes (stagedName String.toLower (some "png")))) image (fileActs t) := by
  have hthere : (worn.lookup (join (bytes "/d") (bytes (stagedName String.toLower (some "png"))))).isSome = true := by
    decide +kernel
  exact ⟨hthere, wallpaper_kept_iff String.toLower (some "jpg") (some "png") (bytes "/d") "/a.jpg" false (.ok [2]) worn
    hthere⟩

/-- The compositor refuses, and nothing else fails. -/
def refusingEnv : Env Empty Action Action.Answer where
  moves _ := []
  answer _ a :=
    match a with
    | .wasClosed => false
    | .readImage => .ok [2]
    | .previewConsent => .ok true
    | .file (.op _) => .ok ()
    | .file .metadata => .ok ⟨true, 1000, 0o700⟩
    | .file .getuid => 1000
    | .file .randomSuffix => bytes "0"
    | .file (.writeAll _ content) => ⟨content.length, .ok ()⟩
    | .swap _ => .refused
    | .readDir => none
    | .isFile _ => true

/-- Another `.png` is refused. -/
def refusedChange : Ran Disk Empty Action Action.Answer Nat :=
  (alone (.ok [2])).exec refusingEnv 0 worn
    (runSetStaged (bytes "/d") (stagedName String.toLower (some "png")) "/a.png" false)

/-- The wallpaper that was applied is gone. -/
theorem refused_removes : refusedChange.result = 2 ∧
    ¬ Kept worn refusedChange.state (join (bytes "/d") (bytes (stagedName String.toLower (some "png")))) := by
  have hcode : refusedChange.result = 2 := by decide +kernel
  refine ⟨hcode, fun h => ?_⟩
  have hbefore : (worn.lookup (join (bytes "/d") (bytes (stagedName String.toLower (some "png"))))).isSome = true := by
    decide +kernel
  have hafter :
      refusedChange.state.lookup (join (bytes "/d") (bytes (stagedName String.toLower (some "png")))) = none := by
    decide +kernel
  rw [← h.applied, hafter] at hbefore
  cases hbefore

end AtriumPortal.Portal.Staging
