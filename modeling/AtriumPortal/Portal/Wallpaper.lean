import AtriumPortal.Lib.Runs
import AtriumPortal.Lib.Table
import AtriumPortal.Portal.Workers
/-!
# Wallpapers

`wallpaper.rs`: any number of SetWallpaperURI workers stage their images in one
directory, ask the compositor for the swap, and prune or clean up. `wallpaper_intact`:
in every run whose workers leave each other's names alone, the file of the last swap
is there when they are done. `wallpaper_lost`: three runs of the code that lose it.
-/
open AtriumPortal.Lib.Runs AtriumPortal.Lib.Table

namespace AtriumPortal.Portal

def maxWallpaperImageBytes : Nat := 64 * 1024 * 1024

/-- The bounded, non-empty read of the image; `answer` is what the file holds. -/
def readImage (path : String) (answer : Except String (List UInt8)) : Except String (List UInt8) := do
  let bytes := (← answer).take (maxWallpaperImageBytes + 1)
  if bytes = [] then .error s!"{path} is empty"
  else if maxWallpaperImageBytes < bytes.length then
    .error s!"{path} exceeds the {maxWallpaperImageBytes}-byte wallpaper limit"
  else .ok bytes

/-- `current.<extension>`; `extension` is the image path's own, where it is UTF-8, and `toLowercase` is
`str::to_lowercase`. -/
def stagedName (toLowercase : String → String) (extension : Option String) : String :=
  let extension := (extension.map toLowercase).filter fun e => e ≠ "" && e.toList.all fun c => c.isAlphanum
  "current." ++ extension.getD "img"

inductive WallpaperPhase where
  | entering
  | reading
  | previewing (image : List UInt8)
  | rechecking (image : List UInt8)
  | staging (image : List UInt8)
  /-- The image is in place under its name; the directory is being synced. -/
  | syncing (image : List UInt8)
  | applying (image : List UInt8) (retried : Bool)
  | pruning
  | cleaning (image : List UInt8)
  deriving DecidableEq, Repr

structure WallpaperWorker where
  path : String
  name : String
  showPreview : Bool
  phase : WallpaperPhase
  deriving DecidableEq, Repr

/-- One connection and one SetWallpaper request on it. -/
inductive SwapAnswer where
  | unconnected
  | refused
  /-- The compositor swapped, but its reply did not arrive. -/
  | lost
  | applied
  deriving DecidableEq, Repr

structure Wallpapers where
  /-- The staging directory. -/
  dir : Map String (List UInt8)
  /-- The name in the last request that the compositor followed, and the bytes its worker staged. -/
  applied : Option (String × List UInt8)
  workers : Map Nat WallpaperWorker
  next : Nat
  /-- The response codes. -/
  replies : List (Nat × Nat)

inductive WallpaperLabel where
  /-- `runs` is false when there is no runtime directory or no thread. -/
  | start (path : String) (extension : Option String) (showPreview runs : Bool)
  | look (w : Nat) (closed : Bool)
  | read (w : Nat) (answer : Except String (List UInt8))
  | consent (w : Nat) (answer : Except String Bool)
  | recheck (w : Nat) (closed : Bool)
  /-- `write_atomic`, up to its rename. -/
  | rename (w : Nat) (moved : Bool)
  | synced (w : Nat) (ok : Bool)
  | attempt (w : Nat) (answer : SwapAnswer)
  /-- `prune_staging` removes a file it listed. -/
  | unlink (w : Nat) (name : String)
  | pruned (w : Nat)
  | cleanup (w : Nat) (removed : Bool)
  deriving DecidableEq, Repr

namespace Wallpapers

def setPhase (s : Wallpapers) (w : Nat) (worker : WallpaperWorker) (phase : WallpaperPhase) : Wallpapers :=
  { s with workers := s.workers.insert w { worker with phase := phase } }

def finish (s : Wallpapers) (w code : Nat) : Wallpapers :=
  { s with
    workers := s.workers.erase w
    replies := (w, code) :: s.replies }

/-- `ipc::set_wallpaper`: a request that fails is made once more, on a new connection. -/
def attempt (s : Wallpapers) (w : Nat) (worker : WallpaperWorker) (image : List UInt8) (retried : Bool) :
    SwapAnswer → Wallpapers
  | .unconnected => s.setPhase w worker (.cleaning image)
  | .refused => s.setPhase w worker (if retried then .cleaning image else .applying image true)
  | .lost =>
    { s with applied := some (worker.name, image) }.setPhase w worker
      (if retried then .cleaning image else .applying image true)
  | .applied => { s with applied := some (worker.name, image) }.setPhase w worker .pruning

/-- A worker's own steps, by where it is. -/
def work (s : Wallpapers) (w : Nat) (worker : WallpaperWorker) : WallpaperPhase → WallpaperLabel → Option Wallpapers
  | .entering, .look _ closed => some (if closed then s.finish w 1 else s.setPhase w worker .reading)
  | .reading, .read _ answer =>
    match readImage worker.path answer with
    | .error _ => some (s.finish w 2)
    | .ok image => some (s.setPhase w worker (if worker.showPreview then .previewing image else .rechecking image))
  | .previewing image, .consent _ answer =>
    match answer with
    | .ok true => some (s.setPhase w worker (.rechecking image))
    | .ok false => some (s.finish w 1)
    | .error _ => some (s.finish w 2)
  -- Request.Close wins a race with a completed prompt.
  | .rechecking image, .recheck _ closed => some (if closed then s.finish w 1 else s.setPhase w worker (.staging image))
  | .staging image, .rename _ moved =>
    if moved then some ({ s with dir := s.dir.insert worker.name image }.setPhase w worker (.syncing image))
    else some (s.finish w 2)
  | .syncing image, .synced _ ok => some (if ok then s.setPhase w worker (.applying image false) else s.finish w 2)
  | .applying image retried, .attempt _ answer => some (s.attempt w worker image retried answer)
  | .pruning, .unlink _ name => if name = worker.name then none else some { s with dir := s.dir.erase name }
  | .pruning, .pruned _ => some (s.finish w 0)
  | .cleaning _, .cleanup _ removed =>
    -- The swap never happened: drop the just-staged file.
    some ({ s with dir := if removed then s.dir.erase worker.name else s.dir }.finish w 2)
  | _, _ => none

def start (toLowercase : String → String) (s : Wallpapers) (path : String) (extension : Option String)
    (showPreview runs : Bool) : Wallpapers :=
  if runs ∧ s.workers.entries.length < maxActiveRequests then
    { s with
      workers := s.workers.insert s.next ⟨path, stagedName toLowercase extension, showPreview, .entering⟩
      next := s.next + 1 }
  else { s with next := s.next + 1, replies := (s.next, 2) :: s.replies }

end Wallpapers

/-- The worker that takes a step. -/
def WallpaperLabel.worker : WallpaperLabel → Option Nat
  | .start .. => none
  | .look w _ | .read w _ | .consent w _ | .recheck w _ | .rename w _ | .synced w _ | .attempt w _ | .unlink w _
  | .pruned w | .cleanup w _ => some w

namespace Wallpapers

def step (toLowercase : String → String) (s : Wallpapers) (label : WallpaperLabel) : Option Wallpapers :=
  match label with
  | .start path extension showPreview runs => some (start toLowercase s path extension showPreview runs)
  | label => do
    let w ← label.worker
    let worker ← s.workers.lookup w
    s.work w worker worker.phase label

/-- No worker runs and nothing was applied; the directory may hold anything. -/
def Init (s : Wallpapers) : Prop := s.workers = ∅ ∧ s.applied = none

/-- The file of the last swap is there, with the bytes that its worker staged. -/
def Intact (s : Wallpapers) : Prop := ∀ name image, s.applied = some (name, image) → s.dir.lookup name = some image

end Wallpapers

/-- The image of a worker that has staged it and is not done with it. -/
def WallpaperPhase.staged : WallpaperPhase → Option (List UInt8)
  | .syncing image | .applying image _ | .cleaning image => some image
  | _ => none

namespace Wallpapers

/-- The workers that have staged under a name and are not done with it. -/
def stagers (s : Wallpapers) (name : String) : List Nat :=
  keysWith (fun worker => worker.phase.staged.isSome && worker.name = name) s.workers

/-- The last swap named it. -/
def Live (s : Wallpapers) (name : String) : Prop := s.applied.map (·.1) = some name

instance (s : Wallpapers) (name : String) : Decidable (s.Live name) := inferInstanceAs (Decidable (_ = _))

/-- No step takes away a file that a worker has staged or the compositor uses, but for a worker that
replaces the file that is in use and then has the compositor follow. -/
def Clean (s : Wallpapers) : WallpaperLabel → Prop
  | .rename w true => ∀ worker ∈ s.workers.lookup w, s.stagers worker.name = []
  | .synced w false => ∀ worker ∈ s.workers.lookup w, ¬ s.Live worker.name
  | .unlink _ name => ¬ s.Live name ∧ s.stagers name = []
  | .cleanup w _ => ∀ worker ∈ s.workers.lookup w, ¬ s.Live worker.name
  | _ => True

instance : ∀ s label, Decidable (Clean s label) := fun s label => by
  unfold Clean
  split <;> infer_instance

/-- A worker has staged an image under a name and is not done with it. -/
def Stages (s : Wallpapers) (w : Nat) (name : String) (image : List UInt8) : Prop :=
  ∃ worker, s.workers.lookup w = some worker ∧ worker.phase.staged = some image ∧ worker.name = name

/-- Every staged file is its worker's alone; the file of the last swap is there, or about to be replaced. -/
structure Held (s : Wallpapers) : Prop where
  fresh : ∀ w, s.next ≤ w → s.workers.lookup w = none
  staged : ∀ w name image, s.Stages w name image → s.dir.lookup name = some image
  apart : ∀ w v name a b, s.Stages w name a → s.Stages v name b → w = v
  kept : ∀ name image, s.applied = some (name, image) → s.dir.lookup name = some image ∨ ∃ w b, s.Stages w name b

variable {s : Wallpapers} {w v : Nat} {worker : WallpaperWorker} {phase : WallpaperPhase} {name : String}
  {image : List UInt8} {code : Nat}

theorem Held.intact (h : s.Held) (hdone : s.workers = ∅) : s.Intact := by
  intro name image happlied
  rcases h.kept name image happlied with hdir | ⟨w, b, worker, hl, -⟩
  · exact hdir
  · simp [hdone] at hl

theorem held_init (h : s.Init) : s.Held where
  fresh := fun w _ => by simp [h.1]
  staged := fun w name image ⟨worker, hl, _⟩ => by simp [h.1] at hl
  apart := fun w v name a b ⟨worker, hl, _⟩ => by simp [h.1] at hl
  kept := fun name image happlied => by simp [h.2] at happlied

theorem stages_of_stagers (hnone : s.stagers name = []) (w : Nat) (image : List UInt8) : ¬ s.Stages w name image := by
  rintro ⟨worker, hl, hstaged, hname⟩
  have hmem : w ∈ s.stagers name := mem_keysWith.2 ⟨worker, hl, by simp [hstaged, hname]⟩
  simp [hnone] at hmem

theorem stages_setPhase : (s.setPhase w worker phase).Stages v name image ↔
    if v = w then phase.staged = some image ∧ worker.name = name else s.Stages v name image := by
  unfold Stages setPhase
  by_cases hv : v = w
  · subst hv
    simp
  · simp [hv, AList.lookup_insert_ne hv]

theorem stages_finish : (s.finish w code).Stages v name image ↔ v ≠ w ∧ s.Stages v name image := by
  unfold Stages finish
  by_cases hv : v = w
  · subst hv
    simp
  · simp [hv, AList.lookup_erase_ne hv]

theorem lookup_dir_insert {name' : String} :
    (s.dir.insert name image).lookup name' = if name' = name then some image else s.dir.lookup name' := by
  by_cases hn : name' = name
  · subst hn
    simp
  · simp [hn, AList.lookup_insert_ne hn]

theorem lookup_dir_erase {name' : String} :
    (s.dir.erase name).lookup name' = if name' = name then none else s.dir.lookup name' := by
  by_cases hn : name' = name
  · subst hn
    simp
  · simp [hn, AList.lookup_erase_ne hn]

/-- A state with the same files, the same last swap and the same stagers. -/
theorem Held.congr {t : Wallpapers} (h : s.Held) (hdir : t.dir = s.dir) (happlied : t.applied = s.applied)
    (hfresh : ∀ w, t.next ≤ w → t.workers.lookup w = none)
    (hstages : ∀ v name image, t.Stages v name image ↔ s.Stages v name image) : t.Held where
  fresh := hfresh
  staged := fun v n i hs => hdir ▸ h.staged v n i ((hstages v n i).1 hs)
  apart := fun v u n a b ha hb => h.apart v u n a b ((hstages v n a).1 ha) ((hstages u n b).1 hb)
  kept := fun n i ha => by
    rw [happlied] at ha
    rw [hdir]
    exact (h.kept n i ha).imp_right fun ⟨u, b, hu⟩ => ⟨u, b, (hstages u n b).2 hu⟩

section Moves

variable (h : s.Held) (hw : s.workers.lookup w = some worker)
include h hw

theorem Held.fresh_setPhase : ∀ v, s.next ≤ v → (s.setPhase w worker phase).workers.lookup v = none := by
  intro v hv
  have hnone := h.fresh v hv
  have hne : v ≠ w := by
    rintro rfl
    simp [hnone] at hw
  simpa [setPhase, AList.lookup_insert_ne hne] using hnone

theorem Held.fresh_finish : ∀ v, s.next ≤ v → (s.finish w code).workers.lookup v = none := by
  intro v hv
  by_cases hne : v = w
  · subst hne
    simp [finish]
  · simpa [finish, AList.lookup_erase_ne hne] using h.fresh v hv

/-- The worker moves on with what it has staged, if anything. -/
theorem Held.moves (hsame : phase.staged = worker.phase.staged) : (s.setPhase w worker phase).Held := by
  refine h.congr rfl rfl (h.fresh_setPhase hw) fun v name image => ?_
  rw [stages_setPhase]
  split
  · next hv =>
    subst hv
    simp [Stages, hw, hsame]
  · rfl

/-- A worker without a staged image is done. -/
theorem Held.ends (hnone : worker.phase.staged = none) : (s.finish w code).Held := by
  refine h.congr rfl rfl (h.fresh_finish hw) fun v name image => ?_
  rw [stages_finish, and_iff_right_iff_imp]
  rintro ⟨worker', hl, hstaged, -⟩ rfl
  obtain rfl : worker = worker' := Option.some.inj (hw.symm.trans hl)
  simp [hnone] at hstaged

/-- An image is put under a name that nobody else has staged. -/
theorem Held.renames (hbefore : worker.phase.staged = none) (hnone : s.stagers worker.name = []) :
    ({ s with dir := s.dir.insert worker.name image }.setPhase w worker (.syncing image)).Held := by
  generalize ht : { s with dir := s.dir.insert worker.name image }.setPhase w worker (.syncing image) = t
  have hfree := stages_of_stagers hnone
  have hfresh : ∀ v, t.next ≤ v → t.workers.lookup v = none := by subst ht; exact h.fresh_setPhase hw
  have happlied : t.applied = s.applied := by subst ht; rfl
  have hdir : ∀ n, t.dir.lookup n = if n = worker.name then some image else s.dir.lookup n := by
    subst ht
    exact fun n => lookup_dir_insert
  have hstages : ∀ v n i, t.Stages v n i ↔ if v = w then some image = some i ∧ worker.name = n else s.Stages v n i := by
    subst ht
    exact fun v n i => stages_setPhase
  have hnot : ∀ n i, ¬ s.Stages w n i := by
    rintro n i ⟨worker', hl, hstaged, -⟩
    obtain rfl : worker = worker' := Option.some.inj (hw.symm.trans hl)
    simp [hbefore] at hstaged
  have hown : t.Stages w worker.name image := (hstages w worker.name image).2 (by simp)
  obtain ⟨-, staged, apart, kept⟩ := h
  constructor <;> grind

/-- The compositor follows a worker that has staged its image. -/
theorem Held.applies (hstaged : worker.phase.staged = some image)
    (hphase : phase.staged = some image ∨ phase.staged = none) :
    ({ s with applied := some (worker.name, image) }.setPhase w worker phase).Held := by
  generalize ht : { s with applied := some (worker.name, image) }.setPhase w worker phase = t
  have hfresh : ∀ v, t.next ≤ v → t.workers.lookup v = none := by subst ht; exact h.fresh_setPhase hw
  have happlied : t.applied = some (worker.name, image) := by subst ht; rfl
  have hdir : t.dir = s.dir := by subst ht; rfl
  have hstages :
      ∀ v n i, t.Stages v n i ↔ if v = w then phase.staged = some i ∧ worker.name = n else s.Stages v n i := by
    subst ht
    exact fun v n i => stages_setPhase
  have hown : s.Stages w worker.name image := ⟨worker, hw, hstaged, rfl⟩
  obtain ⟨-, staged, apart, kept⟩ := h
  constructor <;> grind

/-- A worker gives up a name that is not in use; it may take its own file away. -/
theorem Held.drops (hstaged : worker.phase.staged = some image) (hlive : ¬ s.Live worker.name)
    {dir : Map String (List UInt8)}
    (hdir : ∀ n, n ≠ worker.name → dir.lookup n = s.dir.lookup n) : ({ s with dir := dir }.finish w code).Held := by
  generalize ht : { s with dir := dir }.finish w code = t
  have hfresh : ∀ v, t.next ≤ v → t.workers.lookup v = none := by
    subst ht
    exact @Held.fresh_finish s w worker code h hw
  have happlied : t.applied = s.applied := by subst ht; rfl
  have hdir : ∀ n, n ≠ worker.name → t.dir.lookup n = s.dir.lookup n := by subst ht; exact hdir
  have hstages : ∀ v n i, t.Stages v n i ↔ v ≠ w ∧ s.Stages v n i := by
    subst ht
    exact fun v n i => stages_finish
  have hlive : ∀ i, s.applied ≠ some (worker.name, i) := fun i ha => hlive (by simp [Live, ha])
  have hown : s.Stages w worker.name image := ⟨worker, hw, hstaged, rfl⟩
  have hmine : ∀ v n i, s.Stages v n i → v = w → n = worker.name := by
    rintro v n i ⟨worker', hl, -, rfl⟩ rfl
    rw [Option.some.inj (hw.symm.trans hl)]
  obtain ⟨-, staged, apart, kept⟩ := h
  constructor <;> grind

omit hw in
/-- A file nobody has staged, and that is not in use, is removed. -/
theorem Held.unlinks (hlive : ¬ s.Live name) (hnone : s.stagers name = []) :
    Held { s with dir := s.dir.erase name } := by
  have hfree := stages_of_stagers hnone
  have hlive : ∀ i, s.applied ≠ some (name, i) := fun i ha => hlive (by simp [Live, ha])
  have hdir : ∀ n, (s.dir.erase name).lookup n = if n = name then none else s.dir.lookup n := fun n => lookup_dir_erase
  refine ⟨h.fresh, fun v n i hs => ?_, h.apart, fun n i ha => ?_⟩
  · have hne : n ≠ name := fun he => hfree v i (he ▸ hs)
    simpa [hdir, hne] using h.staged v n i hs
  · have hne : n ≠ name := fun he => hlive i (he ▸ ha)
    change (s.dir.erase name).lookup n = some i ∨ ∃ w b, s.Stages w n b
    rw [hdir, if_neg hne]
    exact h.kept n i ha

end Moves

variable {toLowercase : String → String} {t : Wallpapers} {label : WallpaperLabel}

theorem Held.start (h : s.Held) (path : String) (extension : Option String) (showPreview runs : Bool) :
    (start toLowercase s path extension showPreview runs).Held := by
  unfold Wallpapers.start
  split
  · refine h.congr rfl rfl (fun v hv => ?_) fun v n i => ?_
    · have hle : s.next + 1 ≤ v := hv
      have hne : v ≠ s.next := by omega
      simpa [AList.lookup_insert_ne hne] using h.fresh v (by omega)
    · by_cases hne : v = s.next
      · subst hne
        simp [Stages, h.fresh, WallpaperPhase.staged]
      · simp [Stages, AList.lookup_insert_ne hne]
  · exact h.congr rfl rfl (fun v hv => h.fresh v (Nat.le_of_succ_le hv)) fun _ _ _ => .rfl

/-- A worker's steps, by where it is. -/
theorem Held.work (h : s.Held) (hw : s.workers.lookup w = some worker) (hclean : s.Clean label)
    (hlabel : label.worker = some w) (hwork : s.work w worker worker.phase label = some t) : t.Held := by
  obtain ⟨path, name, showPreview, phase⟩ := worker
  have hmem : (⟨path, name, showPreview, phase⟩ : WallpaperWorker) ∈ s.workers.lookup w := hw
  cases phase <;> cases label <;> simp only [Wallpapers.work, reduceCtorEq] at hwork <;> cases hlabel
  case entering.look closed =>
    cases closed <;> cases hwork
    · exact h.moves hw rfl
    · exact h.ends hw rfl
  case reading.read answer =>
    split at hwork <;> cases hwork
    · exact h.ends hw rfl
    · exact h.moves hw (by dsimp only; split <;> rfl)
  case previewing.consent image answer =>
    split at hwork <;> cases hwork
    · exact h.moves hw rfl
    · exact h.ends hw rfl
    · exact h.ends hw rfl
  case rechecking.recheck image closed =>
    cases closed <;> cases hwork
    · exact h.moves hw rfl
    · exact h.ends hw rfl
  case staging.rename image moved =>
    cases moved <;> cases hwork
    · exact h.ends hw rfl
    · exact h.renames hw rfl (hclean _ hmem)
  case syncing.synced image ok =>
    cases ok <;> cases hwork
    · exact h.drops hw rfl (hclean _ hmem) fun _ _ => rfl
    · exact h.moves hw rfl
  case applying.attempt image retried answer =>
    cases hwork
    cases answer <;> cases retried
    all_goals first
      | exact h.moves hw rfl
      | exact h.applies hw rfl (.inl rfl)
      | exact h.applies hw rfl (.inr rfl)
  case pruning.unlink gone =>
    split at hwork <;> cases hwork
    exact h.unlinks hclean.1 hclean.2
  case pruning.pruned =>
    cases hwork
    exact h.ends hw rfl
  case cleaning.cleanup image removed =>
    cases hwork
    refine h.drops hw rfl (hclean _ hmem) fun n hn => ?_
    split
    · rw [lookup_dir_erase, if_neg hn]
    · rfl

theorem held_step (h : s.Held) (hclean : s.Clean label) (hstep : step toLowercase s label = some t) : t.Held := by
  cases hlabel : label.worker with
  | none =>
    cases label <;> cases hlabel
    cases hstep
    exact h.start _ _ _ _
  | some w =>
    have hstep : (s.workers.lookup w).bind (fun worker => s.work w worker worker.phase label) = some t := by
      cases label <;> cases hlabel <;> exact hstep
    obtain ⟨worker, hw, hwork⟩ := Option.bind_eq_some_iff.1 hstep
    exact h.work hw hclean hlabel hwork

/-- In every clean run, the file of the last swap is there when the workers are done. -/
theorem wallpaper_intact (h : Reach Init (Guarded Clean (step toLowercase)) s) (hdone : s.workers = ∅) : s.Intact :=
  (h.inv_guarded (fun _ => held_init) fun _ _ _ hi hc hs => held_step hi hc hs).intact hdone

/-! ## Runs -/

def idle : Wallpapers := ⟨∅, none, ∅, 0, []⟩

def serve (ls : List WallpaperLabel) : Option Wallpapers := exec (step String.toLower) idle ls

/-- Worker `w` stages an image of one byte. -/
def stagesImage (w : Nat) (byte : UInt8) : List WallpaperLabel :=
  [.look w false, .read w (.ok [byte]), .recheck w false, .rename w true, .synced w true]

/-- A PNG is set, then a JPEG whose worker prunes the PNG, and a GIF is refused. -/
def swaps : List WallpaperLabel :=
  .start "/a.png" (some "png") false true :: stagesImage 0 1 ++ [.attempt 0 .applied, .pruned 0] ++
  .start "/b.JPG" (some "JPG") false true :: stagesImage 1 2 ++ [.attempt 1 .lost, .attempt 1 .applied] ++
  .start "/c.gif" (some "gif") false true :: .unlink 1 "current.png" :: stagesImage 2 3 ++
  [.pruned 1, .attempt 2 .refused, .attempt 2 .unconnected, .cleanup 2 true]

theorem wallpaper_intact_swaps : ∃ s, exec (Guarded Clean (step String.toLower)) idle swaps = some s ∧
    s.applied = some ("current.jpg", [2]) ∧ s.dir.lookup "current.jpg" = some [2] := by
  have hrun : (exec (Guarded Clean (step String.toLower)) idle swaps).map (fun s => (s.applied, s.workers.keys)) =
      some (some ("current.jpg", [2]), []) := by decide +kernel
  obtain ⟨s, hs, hview⟩ := Option.map_eq_some_iff.1 hrun
  obtain ⟨happlied, hkeys⟩ := Prod.mk.inj hview
  have hstart : Reach Init (Guarded Clean (step String.toLower)) idle := .init ⟨rfl, rfl⟩
  have hdone : s.workers = ∅ := AList.ext (by simpa [AList.keys, List.keys] using hkeys)
  exact ⟨s, hs, happlied, wallpaper_intact (hstart.exec hs) hdone _ _ happlied⟩

/-- All workers end, and the file of the last swap is gone or has other bytes. -/
def Loses (ls : List WallpaperLabel) : Prop :=
  ∃ s, Reach Init (step String.toLower) s ∧ serve ls = some s ∧ s.workers = ∅ ∧ ¬ s.Intact

theorem loses_of_run {ls : List WallpaperLabel} (name : String) (image : List UInt8) (file : Option (List UInt8))
    (hrun : (serve ls).map (fun s => (s.workers.keys, s.applied, s.dir.lookup name)) =
      some ([], some (name, image), file))
    (hfile : file ≠ some image) : Loses ls := by
  obtain ⟨s, hs, hview⟩ := Option.map_eq_some_iff.1 hrun
  simp only [Prod.mk.injEq] at hview
  obtain ⟨hkeys, happlied, hdir⟩ := hview
  have hstart : Reach Init (step String.toLower) idle := .init ⟨rfl, rfl⟩
  refine ⟨s, hstart.exec hs, hs, AList.ext (by simpa [AList.keys, List.keys] using hkeys), fun hintact => hfile ?_⟩
  rw [← hdir]
  exact hintact name image happlied

/-- The second PNG replaces the file in use, is refused, and the file is removed. -/
def refusedReplacement : List WallpaperLabel :=
  .start "/a.png" (some "png") false true :: stagesImage 0 1 ++ [.attempt 0 .applied, .pruned 0] ++
  .start "/b.png" (some "png") false true :: stagesImage 1 2 ++ [.attempt 1 .refused, .attempt 1 .refused, .cleanup 1 true]

/-- The first worker prunes after the second one's swap. -/
def latePrune : List WallpaperLabel :=
  .start "/a.png" (some "png") false true :: stagesImage 0 1 ++ [.attempt 0 .applied] ++
  .start "/b.jpg" (some "jpg") false true :: stagesImage 1 2 ++ [.attempt 1 .applied, .pruned 1, .unlink 0 "current.jpg",
    .pruned 0]

/-- Both stage under one name before either swap. -/
def sameName : List WallpaperLabel :=
  .start "/a.png" (some "png") false true :: .start "/b.png" (some "png") false true :: stagesImage 0 1 ++
  stagesImage 1 2 ++ [.attempt 1 .applied, .attempt 0 .applied, .pruned 0, .pruned 1]

theorem wallpaper_lost : Loses refusedReplacement ∧ Loses latePrune ∧ Loses sameName :=
  ⟨loses_of_run "current.png" [1] none (by decide +kernel) (by decide),
    loses_of_run "current.jpg" [2] none (by decide +kernel) (by decide),
    loses_of_run "current.png" [1] (some [2]) (by decide +kernel) (by decide)⟩

end Wallpapers

end AtriumPortal.Portal
