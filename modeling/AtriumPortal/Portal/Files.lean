import AtriumPortal.Lib.Interact
import AtriumPortal.Lib.Path
import AtriumPortal.Lib.Table
import AtriumPortal.Portal.Workers
/-!
# Files of the portal

`files.rs`: where captures are kept, and how a file gets there in one piece. A
program asks the file system for one operation after the other; `disk` answers from
the files that are there.
-/
open AtriumPortal.Lib.Interact AtriumPortal.Lib.Path AtriumPortal.Lib.Table

namespace AtriumPortal.Portal.Files

structure Metadata where
  isDir : Bool
  uid : Nat
  mode : Nat
  deriving DecidableEq, Repr

/-- What only succeeds or fails. -/
inductive Op where
  | createDirAll (dir : Bytes)
  /-- `O_DIRECTORY | O_NOFOLLOW`. -/
  | openDir (dir : Bytes)
  | setPermissions (mode : Nat)
  /-- `create_new`, with mode 0600. -/
  | createNew (path : Bytes)
  | syncFile (path : Bytes)
  | rename (source target : Bytes)
  | syncDirectory
  | removeFile (path : Bytes)
  deriving DecidableEq, Repr

inductive Action where
  | op (op : Op)
  /-- The metadata of the open directory. -/
  | metadata
  | getuid
  | randomSuffix
  | writeAll (path content : Bytes)
  deriving DecidableEq, Repr

@[reducible] def Action.Answer : Action → Type
  | .op _ => Except String Unit
  | .metadata => Except String Metadata
  | .getuid => Nat
  | .randomSuffix => Bytes
  | .writeAll _ _ => Wrote

abbrev Work (R : Type) : Type := Prog Action Action.Answer R

/-- `?` on an operation. -/
def attempt {α : Type} (op : Op) (next : Work (Except String α)) : Work (Except String α) :=
  .ask (.op op) fun
    | .error error => .ret (.error error)
    | .ok () => next

def metadata {α : Type} (next : Metadata → Work (Except String α)) : Work (Except String α) :=
  .ask .metadata fun
    | .error error => .ret (.error error)
    | .ok metadata => next metadata

/-- Open `dir` and prove it is a user-owned real directory. -/
def openOwnedDir (dir : Bytes) : Work (Except String Unit) :=
  attempt (.openDir dir) <| metadata fun metadata =>
    .ask .getuid fun uid =>
      if !metadata.isDir || metadata.uid ≠ uid then
        .ret (.error "portal data directory must be a user-owned real directory")
      else .ret (.ok ())

/-- The closure of `write_atomic`: the first failure ends it. -/
def place (temporary target content : Bytes) : Work (Except String Unit) :=
  attempt (.createNew temporary) <|
    .ask (.writeAll temporary content) fun wrote =>
      match wrote.result with
      | .error error => .ret (.error error)
      | .ok () =>
        attempt (.syncFile temporary) <| attempt (.rename temporary target) <| attempt .syncDirectory <| .ret (.ok ())

def temporaryName (name suffix : Bytes) : Bytes := bytes "." ++ name ++ bytes "." ++ suffix ++ bytes ".tmp"

/-- Create-temp-then-rename under `dir`. -/
def writeAtomic (dir name content : Bytes) : Work (Except String Bytes) :=
  attempt (.createDirAll dir) <|
    (openOwnedDir dir).bind fun
      | .error error => .ret (.error error)
      | .ok () =>
        attempt (.setPermissions 0o700) <| metadata fun metadata =>
          if metadata.mode % 0o10000 ≠ 0o700 then .ret (.error "portal data directory mode must be 0700")
          else .ask .randomSuffix fun suffix =>
            let temporary := join dir (temporaryName name suffix)
            let target := join dir name
            (place temporary target content).bind fun
              | .ok () => .ret (.ok target)
              | .error error => .ask (.op (.removeFile temporary)) fun _ => .ret (.error error)

/-! ## The disk -/

/-- The files, and what they hold. -/
abbrev Disk : Type := Map Bytes Bytes

/-- What an operation that succeeds makes of the disk; `none` where it cannot. -/
def Op.apply (d : Disk) : Op → Option Disk
  | .createNew path => if (d.lookup path).isSome then none else some (d.insert path [])
  | .rename source target => (d.lookup source).map fun content => (d.erase source).insert target content
  | .removeFile path => if (d.lookup path).isSome then some (d.erase path) else none
  | _ => some d

/-- The environment says which operation fails; one that cannot succeed fails in any case. -/
def disk : Machine Disk Empty Action Action.Answer where
  move d _ := d
  answer d a b :=
    match a, b with
    | .op op, .ok () =>
      match op.apply d with
      | some d => (.ok (), d)
      | none => (.error "the file is missing, or is there already", d)
    | .writeAll path content, wrote =>
      -- A failed write leaves what it had written.
      (wrote, d.insert path (match wrote.result with | .ok () => content | .error _ => content.take wrote.written))
    | _, b => (b, d)

/-! ## What is left behind -/

abbrev Trace : Type := List (Sigma Action.Answer)

/-- An operation was done. -/
def Did (t : Trace) (op : Op) : Prop := ⟨.op op, .ok ()⟩ ∈ t
/-- An operation failed. -/
def Failed (t : Trace) (op : Op) : Prop := ∃ error, ⟨.op op, .error error⟩ ∈ t

/-- A file that is there because of the trace. -/
def Created (t : Trace) (path : Bytes) : Prop := Did t (.createNew path) ∨ ∃ source, Did t (.rename source path)

def Left (t : Trace) (d : Disk) : Prop := ∃ path, Created t path ∧ (d.lookup path).isSome = true

/-- A temporary file was created and not moved, and could not be removed. -/
def Littered (t : Trace) : Prop :=
  ∃ path, Did t (.createNew path) ∧ (∀ target, ¬ Did t (.rename path target)) ∧ Failed t (.removeFile path)

variable {d : Disk} {R : Type}

/-- An operation that may fail, and what follows it when it does not. -/
theorem must_attempt {op : Op} {next : Work (Except String R)} {Q : Trace → Disk → Except String R → Prop}
    (herror : ∀ error, Q [⟨.op op, .error error⟩] d (.error error))
    (hok : ∀ d', op.apply d = some d' → disk.Must next d' fun t => Q (⟨.op op, .ok ()⟩ :: t)) :
    disk.Must (attempt op next) d Q := by
  refine Machine.Must.ask_alone fun b => ?_
  cases b with
  | error error => exact herror error
  | ok _ =>
    simp only [disk]
    cases h : op.apply d with
    | none => exact herror _
    | some d' => exact hok d' h

/-- An action that leaves the disk alone, whatever its answer. -/
theorem must_ask {a : Action} {next : a.Answer → Work R} {Q : Trace → Disk → R → Prop}
    (hstill : ∀ b, disk.answer d a b = (b, d)) (h : ∀ b, disk.Must (next b) d fun t => Q (⟨a, b⟩ :: t)) :
    disk.Must (.ask a next) d Q := by
  refine Machine.Must.ask_alone fun b => ?_
  rw [hstill b]
  exact h b

/-! ## Placing a file -/

/-- An operation that creates, moves or removes a file, or makes its entry durable. -/
def Op.places : Op → Bool
  | .createNew _ | .rename _ _ | .removeFile _ | .syncDirectory => true
  | _ => false

/-- Nothing in the trace touches the entries of the directory. -/
def Idle (t : Trace) : Prop := ∀ op : Op, op.places = true → ∀ b, (⟨.op op, b⟩ : Sigma Action.Answer) ∉ t

/-- How `place` may end, on a disk without the temporary file. -/
inductive Placed (temporary target content : Bytes) (d : Disk) : Trace → Disk → Except String Unit → Prop
  | uncreated (error) : Placed temporary target content d [⟨.op (.createNew temporary), .error error⟩] d (.error error)
  | unmoved {t held error} : Idle t →
      Placed temporary target content d (⟨.op (.createNew temporary), .ok ()⟩ :: t) (d.insert temporary held)
        (.error error)
  | unrenamed {t held error} : Idle t →
      Placed temporary target content d
        (⟨.op (.createNew temporary), .ok ()⟩ :: (t ++ [⟨.op (.rename temporary target), .error error⟩]))
        (d.insert temporary held) (.error error)
  | unsynced {t error} : Idle t →
      Placed temporary target content d
        (⟨.op (.createNew temporary), .ok ()⟩ ::
          (t ++ [⟨.op (.rename temporary target), .ok ()⟩, ⟨.op .syncDirectory, .error error⟩]))
        (((d.insert temporary content).erase temporary).insert target content) (.error error)
  | placed {t} : Idle t →
      Placed temporary target content d
        (⟨.op (.createNew temporary), .ok ()⟩ ::
          (t ++ [⟨.op (.rename temporary target), .ok ()⟩, ⟨.op .syncDirectory, .ok ()⟩]))
        (((d.insert temporary content).erase temporary).insert target content) (.ok ())

theorem place_must (temporary target content : Bytes) (d : Disk) :
    disk.Must (place temporary target content) d (Placed temporary target content d) := by
  refine must_attempt (.uncreated) fun d₁ hcreated => ?_
  simp only [Op.apply, Option.ite_none_left_eq_some, Option.some.injEq] at hcreated
  obtain ⟨-, rfl⟩ := hcreated
  refine Machine.Must.ask_alone fun wrote => ?_
  simp only [disk, AList.insert_insert]
  have hidle : ∀ (t : Trace), Idle t → Idle (⟨.writeAll temporary content, wrote⟩ :: t) := by
    intro t ht op hop b
    simpa using ht op hop b
  have hnil : Idle [] := fun op _ b => List.not_mem_nil
  cases hwrote : wrote.result with
  | error error => exact .unmoved (hidle [] hnil)
  | ok _ =>
    have hsync : ∀ answer, Idle [⟨.writeAll temporary content, wrote⟩, ⟨.op (.syncFile temporary), answer⟩] := by
      intro answer op hop b
      cases op <;> simp_all [Op.places]
    refine must_attempt (fun error => .unmoved (hsync _)) fun d₂ h₂ => ?_
    obtain rfl : d.insert temporary content = d₂ := by simpa [Op.apply] using h₂
    refine must_attempt (fun error => .unrenamed (hsync _)) fun d₃ h₃ => ?_
    obtain rfl : ((d.insert temporary content).erase temporary).insert target content = d₃ := by
      simpa [Op.apply] using h₃
    refine must_attempt (fun error => .unsynced (hsync _)) fun d₄ h₄ => ?_
    obtain rfl := Option.some.inj h₄
    exact .placed (hsync _)

/-- The temporary file is created only where there is none. -/
theorem place_fresh (temporary target content : Bytes) (d : Disk) :
    disk.Must (place temporary target content) d fun t _ _ => Did t (.createNew temporary) → d.lookup temporary = none := by
  refine must_attempt (fun error hdid => by simp [Did] at hdid) fun d' hcreated => ?_
  have hnone : d.lookup temporary = none := by
    simp only [Op.apply, Option.ite_none_left_eq_some, Bool.not_eq_true, Option.isSome_eq_false_iff,
      Option.isNone_iff_eq_none] at hcreated
    exact hcreated.1
  exact Machine.Must.any fun _ _ _ _ => hnone

/-! ## What a write leaves -/

theorem Idle.did {t : Trace} (h : Idle t) {op : Op} (hop : op.places = true) : ¬ Did t op := h op hop _

theorem Idle.failed {t : Trace} (h : Idle t) {op : Op} (hop : op.places = true) : ¬ Failed t op :=
  fun ⟨_, he⟩ => h op hop _ he

theorem did_append {t t' : Trace} {op : Op} : Did (t ++ t') op ↔ Did t op ∨ Did t' op := List.mem_append

theorem failed_append {t t' : Trace} {op : Op} : Failed (t ++ t') op ↔ Failed t op ∨ Failed t' op := by
  simp [Failed, exists_or]

/-- The result of a write, and what it leaves behind. -/
structure Tidy (t : Trace) (d : Disk) (r : Except String Bytes) : Prop where
  written : ∀ path, r = .ok path → Did t .syncDirectory ∧ Left t d ∧ ¬ Failed t .syncDirectory ∧ ¬ Littered t
  failed : ∀ error, r = .error error → ¬ Did t .syncDirectory ∧ (Left t d ↔ Failed t .syncDirectory ∨ Littered t)

/-- What `Tidy` looks at is the same before and after an idle part. -/
theorem Tidy.congr {t t' : Trace} {d : Disk} {r : Except String Bytes} (h : Tidy t d r)
    (hdid : ∀ op : Op, op.places = true → (Did t' op ↔ Did t op))
    (hfailed : ∀ op : Op, op.places = true → (Failed t' op ↔ Failed t op)) : Tidy t' d r := by
  have hnew := fun path => hdid (.createNew path) rfl
  have hmove := fun source target => hdid (.rename source target) rfl
  have hremove := fun path => hfailed (.removeFile path) rfl
  have hleft : Left t' d ↔ Left t d := by simp only [Left, Created, hnew, hmove]
  have hlittered : Littered t' ↔ Littered t := by simp only [Littered, hnew, hmove, hremove]
  have hsync := hdid .syncDirectory rfl
  have hunsync := hfailed .syncDirectory rfl
  exact ⟨by simpa only [hleft, hlittered, hsync, hunsync] using h.written,
    by simpa only [hleft, hlittered, hsync, hunsync] using h.failed⟩

theorem did_insert_idle {t u v : Trace} (ht : Idle t) {op : Op} (hop : op.places = true) :
    Did (u ++ (t ++ v)) op ↔ Did (u ++ v) op := by
  simp [did_append, ht.did hop]

theorem failed_insert_idle {t u v : Trace} (ht : Idle t) {op : Op} (hop : op.places = true) :
    Failed (u ++ (t ++ v)) op ↔ Failed (u ++ v) op := by
  simp [failed_append, ht.failed hop]

theorem Tidy.insert_idle {t u v : Trace} {d : Disk} {r : Except String Bytes} (h : Tidy (u ++ v) d r) (ht : Idle t) :
    Tidy (u ++ (t ++ v)) d r :=
  h.congr (fun _ hop => did_insert_idle ht hop) fun _ hop => failed_insert_idle ht hop

/-- A write that did not get to its files leaves nothing. -/
theorem tidy_idle {t : Trace} {d : Disk} {error : String} (h : Idle t) : Tidy t d (.error error) := by
  have hnil : Tidy ([] ++ []) d (.error error) :=
    ⟨nofun, fun _ _ => by simp [Did, Failed, Left, Created, Littered]⟩
  have := hnil.insert_idle h
  rwa [List.nil_append, List.append_nil] at this

/-- The file is in place. -/
theorem tidy_placed {temporary target content : Bytes} {d d' : Disk} {t : Trace}
    (h : Placed temporary target content d t d' (.ok ())) : Tidy t d' (.ok target) := by
  cases h with
  | placed hidle =>
    refine Tidy.insert_idle (u := [⟨.op (.createNew temporary), .ok ()⟩]) ⟨?_, nofun⟩ hidle
    rintro path ⟨rfl⟩
    simp only [Did, Failed, Left, Created, Littered]
    refine ⟨by simp, ⟨target, .inr ⟨temporary, by simp⟩, by simp⟩, by simp, by simp⟩

/-- Something failed, and the temporary file is removed if it can be. -/
theorem tidy_removed {temporary target content : Bytes} {d d' : Disk} {t : Trace} {error : String}
    (hne : temporary ≠ target)
    (h : Placed temporary target content d t d' (.error error)) :
    (∀ d'', (Op.removeFile temporary).apply d' = some d'' →
        Tidy (t ++ [⟨.op (.removeFile temporary), .ok ()⟩]) d'' (.error error)) ∧
      ∀ e, Tidy (t ++ [⟨.op (.removeFile temporary), .error e⟩]) d' (.error error) := by
  have hremoved : ∀ {d₁ d₂ : Disk}, (Op.removeFile temporary).apply d₁ = some d₂ →
      (d₁.lookup temporary).isSome = true ∧ d₂ = d₁.erase temporary := by
    intro d₁ d₂ h
    simp only [Op.apply, Option.ite_none_right_eq_some, Option.some.injEq] at h
    exact ⟨h.1, h.2.symm⟩
  cases h with
  | uncreated =>
    constructor
    · intro d'' hd
      refine ⟨nofun, fun _ _ => ?_⟩
      simp [Did, Failed, Left, Created, Littered]
    · intro e
      refine ⟨nofun, fun _ _ => ?_⟩
      simp [Did, Failed, Left, Created, Littered]
  | unmoved hidle =>
    constructor
    · intro d'' hd
      obtain ⟨-, rfl⟩ := hremoved hd
      refine Tidy.insert_idle (u := [⟨.op (.createNew temporary), .ok ()⟩]) ⟨nofun, fun _ _ => ?_⟩ hidle
      simp [Did, Failed, Left, Created, Littered]
    · intro e
      refine Tidy.insert_idle (u := [⟨.op (.createNew temporary), .ok ()⟩]) ⟨nofun, fun _ _ => ?_⟩ hidle
      simp [Did, Failed, Left, Created, Littered]
  | unrenamed hidle =>
    simp only [List.cons_append, List.append_assoc]
    constructor
    · intro d'' hd
      obtain ⟨-, rfl⟩ := hremoved hd
      refine Tidy.insert_idle (u := [⟨.op (.createNew temporary), .ok ()⟩]) ⟨nofun, fun _ _ => ?_⟩ hidle
      simp [Did, Failed, Left, Created, Littered]
    · intro e
      refine Tidy.insert_idle (u := [⟨.op (.createNew temporary), .ok ()⟩]) ⟨nofun, fun _ _ => ?_⟩ hidle
      simp [Did, Failed, Left, Created, Littered]
  | unsynced hidle =>
    simp only [List.cons_append, List.append_assoc]
    constructor
    · intro d'' hd
      -- The temporary file has become the target.
      simpa [AList.lookup_insert_ne hne] using (hremoved hd).1
    · intro e
      refine Tidy.insert_idle (u := [⟨.op (.createNew temporary), .ok ()⟩]) ⟨nofun, fun _ _ => ?_⟩ hidle
      simp [Did, Failed, Left, Created, Littered]

/-- The temporary name is longer than the file's, whatever that is. -/
theorem temporary_ne_target (dir name suffix : Bytes) : join dir (temporaryName name suffix) ≠ join dir name := by
  intro h
  have hbytes : bytes "." = [dot] := by decide
  have hdot : isAbsolute (temporaryName name suffix) = false := by
    simp only [isAbsolute, temporaryName, hbytes]
    rfl
  have hlength := congrArg List.length h
  simp only [join, hdot, Bool.false_eq_true, if_false] at hlength
  split at hlength <;> split at hlength <;> (simp [temporaryName, hbytes] at hlength; omega)

section
variable {Q : Trace → Disk → Except String Bytes → Prop}

/-- Idle actions before all others do not matter. -/
def Skips (Q : Trace → Disk → Except String Bytes → Prop) : Prop :=
  ∀ (t v : Trace) (d : Disk) (r : Except String Bytes), Idle t → Q v d r → Q (t ++ v) d r

/-- An action that touches nothing, and what follows it. -/
theorem must_idle (hskips : Skips Q) {a : Action} {next : a.Answer → Work (Except String Bytes)}
    (ha : ∀ op, a = .op op → op.places = false)
    (hstill : ∀ b, disk.answer d a b = (b, d)) (h : ∀ b, disk.Must (next b) d Q) :
    disk.Must (.ask a next) d Q := by
  refine must_ask hstill fun b => (h b).mono fun t d' r hq => ?_
  refine hskips [⟨a, b⟩] t d' r (fun op hop b' hin => ?_) hq
  cases List.mem_singleton.1 hin
  simp [ha op rfl] at hop

theorem must_idle_attempt (hskips : Skips Q) {op : Op} {next : Work (Except String Bytes)} (hop : op.places = false)
    (happly : op.apply d = some d) (herror : ∀ error, Q [] d (.error error)) (h : disk.Must next d Q) :
    disk.Must (attempt op next) d Q := by
  refine must_idle hskips (by simp [hop]) (fun b => ?_) fun b => ?_
  · cases b with
    | error error => rfl
    | ok _ => simp [disk, happly]
  · cases b with
    | error error => exact herror error
    | ok _ => exact h

theorem must_idle_metadata (hskips : Skips Q) {next : Metadata → Work (Except String Bytes)}
    (herror : ∀ error, Q [] d (.error error)) (h : ∀ m, disk.Must (next m) d Q) : disk.Must (metadata next) d Q := by
  refine must_idle hskips (by simp) (fun b => rfl) fun b => ?_
  cases b with
  | error error => exact herror error
  | ok m => exact h m

theorem must_openOwnedDir (hskips : Skips Q) {dir : Bytes} {next : Work (Except String Bytes)}
    (herror : ∀ error, Q [] d (.error error)) (h : disk.Must next d Q) :
    disk.Must ((openOwnedDir dir).bind fun | .error error => .ret (.error error) | .ok () => next) d Q := by
  simp only [openOwnedDir, attempt, metadata, Prog.bind_ask]
  refine must_idle hskips (by simp [Op.places]) (fun b => by cases b <;> rfl) fun b => ?_
  cases b with
  | error error => exact herror error
  | ok _ =>
    refine must_idle hskips (by simp) (fun b => rfl) fun b => ?_
    cases b with
    | error error => exact herror error
    | ok m =>
      refine must_idle hskips (by simp) (fun b => rfl) fun uid => ?_
      dsimp only
      split
      · exact herror _
      · exact h

/-- What holds of a write: before the file is created nothing happens, and then it is placed, or
something fails and the temporary file is removed if it can be. -/
theorem writeAtomic_must (hskips : Skips Q) {dir name content : Bytes} {d : Disk} (herror : ∀ error, Q [] d (.error error))
    (hplaced : ∀ suffix t d',
      Placed (join dir (temporaryName name suffix)) (join dir name) content d t d' (.ok ()) →
      (Did t (.createNew (join dir (temporaryName name suffix))) → d.lookup (join dir (temporaryName name suffix)) = none) →
      Q t d' (.ok (join dir name)))
    (hfailed : ∀ suffix t d' error,
      Placed (join dir (temporaryName name suffix)) (join dir name) content d t d' (.error error) →
      (Did t (.createNew (join dir (temporaryName name suffix))) → d.lookup (join dir (temporaryName name suffix)) = none) →
      (∀ d'', (Op.removeFile (join dir (temporaryName name suffix))).apply d' = some d'' →
        Q (t ++ [⟨.op (.removeFile (join dir (temporaryName name suffix))), .ok ()⟩]) d'' (.error error)) ∧
      ∀ e, Q (t ++ [⟨.op (.removeFile (join dir (temporaryName name suffix))), .error e⟩]) d' (.error error)) :
    disk.Must (writeAtomic dir name content) d Q := by
  refine must_idle_attempt hskips rfl rfl herror <| must_openOwnedDir hskips herror <|
    must_idle_attempt hskips rfl rfl herror <| must_idle_metadata hskips herror fun m => ?_
  split
  · exact herror _
  · refine must_idle hskips (by simp) (fun b => rfl) fun suffix => ?_
    have hplace := (place_must (join dir (temporaryName name suffix)) (join dir name) content d).and
      (place_fresh (join dir (temporaryName name suffix)) (join dir name) content d)
    refine Machine.Must.bind (hplace.mono fun t d' r ⟨hends, hfresh⟩ => ?_)
    cases r with
    | ok _ =>
      change Q (t ++ []) _ _
      rw [List.append_nil]
      exact hplaced suffix t d' hends hfresh
    | error error =>
      refine Machine.Must.ask_alone fun answer => ?_
      obtain ⟨hremoved, hkept⟩ := hfailed suffix t d' error hends hfresh
      cases answer with
      | error e => exact hkept e
      | ok _ =>
        simp only [disk]
        cases happly : (Op.removeFile (join dir (temporaryName name suffix))).apply d' with
        | none => exact hkept _
        | some d'' => exact hremoved d'' happly
end

/-- Whatever fails: a write that returns has put the file in place, and one that fails leaves a
file only where it could not sync the directory or remove the temporary file. -/
theorem writeAtomic_tidy (dir name content : Bytes) (d : Disk) : disk.Must (writeAtomic dir name content) d Tidy := by
  have hskips : Skips Tidy := fun t v d r hidle h => Tidy.insert_idle (u := []) h hidle
  exact writeAtomic_must hskips (fun error => tidy_idle fun _ _ _ => List.not_mem_nil)
    (fun _ _ _ h _ => tidy_placed h) fun suffix _ _ _ h _ => tidy_removed (temporary_ne_target dir name suffix) h

end AtriumPortal.Portal.Files
