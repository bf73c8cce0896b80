import AtriumPortal.Portal.Inhibit
/-!
# The registry and the exported objects

`registry_agrees`: in every run in which no export ends in an error and no two Close calls
of one object overlap, the entries are those of the exported objects whenever no
call is in progress, and a failed call's changes cancel. `orphaned`: an export that
fails, or a second Close that comes late, leaves a record whose object is gone.
-/
open AtriumPortal.Lib.Runs AtriumPortal.Lib.Table

namespace AtriumPortal.Portal

/-- The object a Close in progress is about. -/
def InhibitPhase.closes : InhibitPhase → Option (InhibitKind × String)
  | .closing kind path | .removing kind path => some (kind, path)
  | _ => none

namespace Inhibits

/-- No export ends in an error, and an object's Close starts when none of it is in progress. -/
def Clean (s : Inhibits) : InhibitLabel → Prop
  | .export _ (.error _) => False
  | .close kind path => keysWith (·.closes = some (kind, path)) s.calls = []
  | _ => True

instance : ∀ s label, Decidable (Clean s label) := fun s label => by
  cases label <;> unfold Clean <;> (try split) <;> infer_instance

/-- What a call changed in the registry, newest first. -/
def changesOf (s : Inhibits) (call : Nat) : List InhibitChange := s.changes.filter (·.call = call)

/-- The call changed nothing, or made an entry and took it out. -/
def Cancels (call : Nat) (changes : List InhibitChange) : Prop :=
  changes = [] ∨ ∃ kind path, changes = [⟨call, kind, path, some call, none⟩, ⟨call, kind, path, none, some call⟩]

/-- What the registry, the objects and the calls have to do with each other. -/
structure Agrees (s : Inhibits) : Prop where
  exact : s.calls = ∅ → ∀ kind path, (s.registry.entry kind path).isSome ↔ (kind, path) ∈ s.exported
  failed : ∀ call ∈ s.failed, Cancels call (s.changesOf call) ∧ ∀ kind path, s.registry.entry kind path ≠ some call
  locks : ∀ path record, s.registry.requests.lookup path = some record →
    (record.lock.isSome ↔ logindWhat record.flags ≠ "")
  bound : s.registry.live ≤ maxInhibitObjects

end Inhibits

/-! ## The state through its lookups -/

structure InhibitView where
  entry : InhibitKind → String → Option Nat
  exported : Finset (InhibitKind × String)
  phase : Nat → Option InhibitPhase
  changes : Nat → List InhibitChange
  failed : List Nat
  next : Nat

namespace InhibitView

/-- The call made an entry it keeps. -/
def Settled (v : InhibitView) (call : Nat) : Prop :=
  (v.phase call = none ∧ call ∉ v.failed) ∨ v.phase call = some .emitting ∨ v.phase call = some (.finishing true)

/-- The call made an entry whose object is not exported. -/
def Pending (v : InhibitView) (call : Nat) (kind : InhibitKind) (path : String) : Prop :=
  v.phase call = some (.exporting kind path) ∨ v.phase call = some (.undoing kind path)

/-- A Close is about to remove the object. -/
def Removing (v : InhibitView) (kind : InhibitKind) (path : String) : Prop :=
  ∃ c, v.phase c = some (.removing kind path)

/-- Every entry is pending or has its object; every object has its entry or a Close that is about to remove it. -/
structure Inv (v : InhibitView) : Prop where
  fresh : ∀ c, v.next ≤ c → v.phase c = none ∧ c ∉ v.failed ∧ v.changes c = [] ∧ ∀ k p, v.entry k p ≠ some c
  entered : ∀ k p c, v.entry k p = some c →
    v.Pending c k p ∨ ((k, p) ∈ v.exported ∧ v.Settled c ∧ ¬ v.Removing k p)
  pending : ∀ k p c, v.Pending c k p → v.entry k p = some c ∧ v.changes c = [⟨c, k, p, none, some c⟩]
  shown : ∀ k p, (k, p) ∈ v.exported → v.Removing k p ∨ ∃ c, v.entry k p = some c ∧ v.Settled c
  closing : ∀ k p d, v.phase d = some (.closing k p) → ∃ c, v.entry k p = some c ∧ v.Settled c
  removing : ∀ k p, v.Removing k p → (k, p) ∈ v.exported
  alone : ∀ c d k p, (v.phase c).bind (·.closes) = some (k, p) → (v.phase d).bind (·.closes) = some (k, p) → c = d
  registered : ∀ c p, v.phase c = some (.registered p) → v.changes c = []
  failing : ∀ c, c ∈ v.failed ∨ v.phase c = some (.finishing false) → Inhibits.Cancels c (v.changes c)
  failed : ∀ c ∈ v.failed, v.phase c = none

variable {v : InhibitView} {call : Nat} {kind : InhibitKind} {path : String} {phase : Nat → Option InhibitPhase}

/-- The invariant speaks of the Close calls through their objects. -/
theorem removing_congr {w : InhibitView}
    (hsame : ∀ c k p, w.phase c = some (.removing k p) ↔ v.phase c = some (.removing k p)) (k : InhibitKind)
    (p : String) :
    w.Removing k p ↔ v.Removing k p :=
  exists_congr fun c => hsame c k p

theorem Pending.not_settled (hp : v.Pending call kind path) : ¬ v.Settled call := by grind [Pending, Settled]

theorem not_settled_of_phase {p : InhibitPhase} (hp : v.phase call = some p) (hemit : p ≠ .emitting)
    (hfinish : p ≠ .finishing true) : ¬ v.Settled call := by grind [Settled]

section Moves

variable (h : v.Inv)
include h

theorem Inv.refuses : { v with failed := v.next :: v.failed, next := v.next + 1 : InhibitView }.Inv := by
  obtain ⟨fresh, entered, pending, shown, closing, removing, alone, registered, failing, failed⟩ := h
  have hremoving := removing_congr (w := { v with failed := v.next :: v.failed, next := v.next + 1 }) (v := v)
    fun _ _ _ => .rfl
  constructor
  all_goals grind [Pending, Settled, Inhibits.Cancels]

theorem Inv.registers {session : String}
    (hphase : ∀ c, phase c = if c = v.next then some (.registered session) else v.phase c) :
    { v with phase := phase, next := v.next + 1 : InhibitView }.Inv := by
  obtain ⟨fresh, entered, pending, shown, closing, removing, alone, registered, failing, failed⟩ := h
  have hremoving := removing_congr (w := { v with phase := phase, next := v.next + 1 }) (v := v) fun c _ _ => by grind
  constructor
  all_goals grind [Pending, Settled, InhibitPhase.closes]

/-- CreateMonitor finds no room or a taken path. -/
theorem Inv.refused {session : String} (hp : v.phase call = some (.registered session))
    (hphase : ∀ c, phase c = if c = call then some (.finishing false) else v.phase c) :
    { v with phase := phase : InhibitView }.Inv := by
  obtain ⟨fresh, entered, pending, shown, closing, removing, alone, registered, failing, failed⟩ := h
  have hremoving := removing_congr (w := { v with phase := phase }) (v := v) fun c _ _ => by grind
  constructor
  all_goals grind [Pending, Settled, Inhibits.Cancels, InhibitPhase.closes]

theorem Inv.taken (hp : v.phase call = some (.exporting kind path))
    (hphase : ∀ c, phase c = if c = call then some (.undoing kind path) else v.phase c) :
    { v with phase := phase : InhibitView }.Inv := by
  obtain ⟨fresh, entered, pending, shown, closing, removing, alone, registered, failing, failed⟩ := h
  have hpending : ∀ c k p, { v with phase := phase : InhibitView }.Pending c k p ↔ v.Pending c k p := by grind [Pending]
  have hsettled : ∀ c, { v with phase := phase : InhibitView }.Settled c ↔ v.Settled c := by grind [Settled]
  have hremoving := removing_congr (w := { v with phase := phase }) (v := v) fun c _ _ => by grind
  constructor
  all_goals grind [InhibitPhase.closes]

theorem Inv.emitted (hp : v.phase call = some .emitting)
    (hphase : ∀ c, phase c = if c = call then some (.finishing true) else v.phase c) :
    { v with phase := phase : InhibitView }.Inv := by
  obtain ⟨fresh, entered, pending, shown, closing, removing, alone, registered, failing, failed⟩ := h
  have hpending : ∀ c k p, { v with phase := phase : InhibitView }.Pending c k p ↔ v.Pending c k p := by grind [Pending]
  have hsettled : ∀ c, { v with phase := phase : InhibitView }.Settled c ↔ v.Settled c := by grind [Settled]
  have hremoving := removing_congr (w := { v with phase := phase }) (v := v) fun c _ _ => by grind
  constructor
  all_goals grind [InhibitPhase.closes]

/-- The reply of a CreateMonitor call. -/
theorem Inv.finished {ok : Bool} (hp : v.phase call = some (.finishing ok))
    (hphase : ∀ c, phase c = if c = call then none else v.phase c) :
    { v with phase := phase, failed := if ok then v.failed else call :: v.failed : InhibitView }.Inv := by
  obtain ⟨fresh, entered, pending, shown, closing, removing, alone, registered, failing, failed⟩ := h
  generalize hfailed : (if ok then v.failed else call :: v.failed) = failed'
  have hpending :
      ∀ c k p, { v with phase := phase, failed := failed' : InhibitView }.Pending c k p ↔ v.Pending c k p := by
    grind [Pending]
  have hsettled : ∀ c, { v with phase := phase, failed := failed' : InhibitView }.Settled c ↔ v.Settled c := by
    grind [Settled]
  have hremoving := removing_congr (w := { v with phase := phase, failed := failed' }) (v := v) fun c _ _ => by grind
  constructor
  all_goals grind [InhibitPhase.closes]

/-- A call makes an entry at a free path. -/
theorem Inv.enters {entry : InhibitKind → String → Option Nat} {changes : Nat → List InhibitChange}
    (hnew : v.next ≤ call ∨ ∃ session, v.phase call = some (.registered session))
    (hfree : v.entry kind path = none)
    (hentry : ∀ k p, entry k p = if k = kind ∧ p = path then some call else v.entry k p)
    (hchanges : ∀ c, changes c = if c = call then ⟨call, kind, path, none, some call⟩ :: v.changes c else v.changes c)
    (hphase : ∀ c, phase c = if c = call then some (.exporting kind path) else v.phase c) :
    { v with
      entry := entry
      changes := changes
      phase := phase
      next := max v.next (call + 1) : InhibitView }.Inv := by
  obtain ⟨fresh, entered, pending, shown, closing, removing, alone, registered, failing, failed⟩ := h
  generalize hnext : max v.next (call + 1) = next'
  have hnone : ∀ k p, v.entry k p ≠ some call := by
    rcases hnew with hnew | ⟨session, hp⟩
    · exact (fresh call hnew).2.2.2
    · have hnot := not_settled_of_phase hp (by simp) (by simp)
      grind [Pending]
  have hsettled : ∀ c, c ≠ call →
      ({ v with entry := entry, changes := changes, phase := phase, next := next' : InhibitView }.Settled c ↔ v.Settled c) := by
    grind [Settled]
  have hremoving := removing_congr (w := { v with entry := entry, changes := changes, phase := phase, next := next' })
    (v := v) fun c _ _ => by grind
  constructor
  all_goals grind [Pending, InhibitPhase.closes]

theorem Inv.exports {exported : Finset (InhibitKind × String)} {after : Option InhibitPhase}
    (hp : v.phase call = some (.exporting kind path)) (hnew : (kind, path) ∉ v.exported)
    (hafter : after = none ∨ after = some .emitting)
    (hexported : ∀ x, x ∈ exported ↔ x = (kind, path) ∨ x ∈ v.exported)
    (hphase : ∀ c, phase c = if c = call then after else v.phase c) :
    { v with phase := phase, exported := exported : InhibitView }.Inv := by
  obtain ⟨fresh, entered, pending, shown, closing, removing, alone, registered, failing, failed⟩ := h
  have hsettled :
      ∀ c, c ≠ call → ({ v with phase := phase, exported := exported : InhibitView }.Settled c ↔ v.Settled c) := by
    grind [Settled]
  have hmade : { v with phase := phase, exported := exported : InhibitView }.Settled call := by grind [Settled]
  have hremoving := removing_congr (w := { v with phase := phase, exported := exported }) (v := v) fun c _ _ => by grind
  constructor
  all_goals grind [Pending, InhibitPhase.closes]

/-- A call takes out its own entry. -/
theorem Inv.undoes {entry : InhibitKind → String → Option Nat} {changes : Nat → List InhibitChange}
    {after : Option InhibitPhase} {failed' : List Nat} (hp : v.phase call = some (.undoing kind path))
    (hafter : (after = none ∧ failed' = call :: v.failed) ∨ (after = some (.finishing false) ∧ failed' = v.failed))
    (hentry : ∀ k p, entry k p = if k = kind ∧ p = path then none else v.entry k p)
    (hchanges : ∀ c, changes c =
      if c = call then ⟨call, kind, path, v.entry kind path, none⟩ :: v.changes c else v.changes c)
    (hphase : ∀ c, phase c = if c = call then after else v.phase c) :
    { v with
      entry := entry
      changes := changes
      phase := phase
      failed := failed' : InhibitView }.Inv := by
  obtain ⟨fresh, entered, pending, shown, closing, removing, alone, registered, failing, failed⟩ := h
  have hsettled : ∀ c, c ≠ call →
      ({ v with entry := entry, changes := changes, phase := phase, failed := failed' : InhibitView }.Settled c ↔ v.Settled c) := by
    grind [Settled]
  have hremoving := removing_congr (w := { v with entry := entry, changes := changes, phase := phase, failed := failed' })
    (v := v) fun c _ _ => by grind
  have hnot := not_settled_of_phase hp (by simp) (by simp)
  have hown : v.entry kind path = some call ∧ v.changes call = [⟨call, kind, path, none, some call⟩] :=
    pending kind path call (.inr hp)
  constructor
  all_goals grind [Pending, Inhibits.Cancels, InhibitPhase.closes]

theorem Inv.starts_close (hx : (kind, path) ∈ v.exported)
    (halone : ∀ d, (v.phase d).bind (·.closes) ≠ some (kind, path))
    (hphase : ∀ c, phase c = if c = v.next then some (.closing kind path) else v.phase c) :
    { v with phase := phase, next := v.next + 1 : InhibitView }.Inv := by
  obtain ⟨fresh, entered, pending, shown, closing, removing, alone, registered, failing, failed⟩ := h
  have hfresh := fresh v.next le_rfl
  have hsettled :
      ∀ c, c ≠ v.next → ({ v with phase := phase, next := v.next + 1 : InhibitView }.Settled c ↔ v.Settled c) := by
    grind [Settled]
  have hremoving := removing_congr (w := { v with phase := phase, next := v.next + 1 }) (v := v) fun c _ _ => by grind
  have hnot : ¬ v.Removing kind path := fun ⟨d, hd⟩ => halone d (by simp [hd, InhibitPhase.closes])
  constructor
  all_goals grind [Pending, InhibitPhase.closes]

theorem Inv.takes_out {entry : InhibitKind → String → Option Nat} (hp : v.phase call = some (.closing kind path))
    (hentry : ∀ k p, entry k p = if k = kind ∧ p = path then none else v.entry k p)
    (hphase : ∀ c, phase c = if c = call then some (.removing kind path) else v.phase c) :
    { v with entry := entry, phase := phase : InhibitView }.Inv := by
  obtain ⟨fresh, entered, pending, shown, closing, removing, alone, registered, failing, failed⟩ := h
  have hsettled : ∀ c, ({ v with entry := entry, phase := phase : InhibitView }.Settled c ↔ v.Settled c) := by
    grind [Settled]
  have hremoving : ∀ k p, { v with entry := entry, phase := phase : InhibitView }.Removing k p ↔
      (k, p) = (kind, path) ∨ v.Removing k p := by
    grind [Removing]
  have hpending : ∀ c k p, { v with entry := entry, phase := phase : InhibitView }.Pending c k p ↔ v.Pending c k p := by
    grind [Pending]
  obtain ⟨maker, hmaker, hmakes⟩ := closing kind path call hp
  constructor
  all_goals grind [Pending.not_settled, InhibitPhase.closes]

theorem Inv.closes {exported : Finset (InhibitKind × String)} (hp : v.phase call = some (.removing kind path))
    (hexported : ∀ x, x ∈ exported ↔ x ≠ (kind, path) ∧ x ∈ v.exported)
    (hphase : ∀ c, phase c = if c = call then none else v.phase c) :
    { v with phase := phase, exported := exported : InhibitView }.Inv := by
  obtain ⟨fresh, entered, pending, shown, closing, removing, alone, registered, failing, failed⟩ := h
  have hsettled :
      ∀ c, c ≠ call → ({ v with phase := phase, exported := exported : InhibitView }.Settled c ↔ v.Settled c) := by
    grind [Settled]
  have hremoving : ∀ k p, { v with phase := phase, exported := exported : InhibitView }.Removing k p ↔
      (k, p) ≠ (kind, path) ∧ v.Removing k p := by
    grind [Removing, InhibitPhase.closes]
  have hclosed : v.Removing kind path := ⟨call, hp⟩
  have hnot := not_settled_of_phase hp (by simp) (by simp)
  constructor
  all_goals grind [Pending, InhibitPhase.closes]

end Moves

end InhibitView

namespace Inhibits

def view (s : Inhibits) : InhibitView :=
  ⟨s.registry.entry, s.exported, fun call => s.calls.lookup call, s.changesOf, s.failed, s.next⟩

structure Inv (s : Inhibits) : Prop where
  view : s.view.Inv
  locks : ∀ path record, s.registry.requests.lookup path = some record →
    (record.lock.isSome ↔ logindWhat record.flags ≠ "")
  bound : s.registry.live ≤ maxInhibitObjects

theorem Inv.agrees {s : Inhibits} (h : s.Inv) : s.Agrees := by
  refine ⟨fun hidle k p => ?_, fun c hc => ⟨h.view.failing c (.inl hc), fun k p he => ?_⟩, h.locks, h.bound⟩
  · have hnone : ∀ c, s.view.phase c = none := fun c => by simp [Inhibits.view, hidle]
    constructor
    · intro he
      obtain ⟨c, hc⟩ := Option.isSome_iff_exists.1 he
      rcases h.view.entered k p c hc with hp | ⟨hx, -, -⟩
      · simp [InhibitView.Pending, hnone] at hp
      · exact hx
    · intro hx
      rcases h.view.shown k p hx with ⟨d, hd⟩ | ⟨c, hc, -⟩
      · rw [hnone] at hd
        cases hd
      · exact Option.isSome_of_eq_some hc
  · have hphase : s.view.phase c = none := h.view.failed c hc
    have hfailed : c ∈ s.view.failed := hc
    rcases h.view.entered k p c he with hp | ⟨-, hs, -⟩
    · simp [InhibitView.Pending, hphase] at hp
    · simp [InhibitView.Settled, hphase, hfailed] at hs

theorem entry_empty (kind : InhibitKind) (path : String) : InhibitRegistry.empty.entry kind path = none := by
  cases kind <;> rfl

theorem inv_init : init.Inv where
  view := by
    have hentry : ∀ k p, init.view.entry k p = none := entry_empty
    have hphase : ∀ c, init.view.phase c = none := fun _ => rfl
    have hchanges : ∀ c, init.view.changes c = [] := fun _ => rfl
    have hexported : ∀ x, x ∉ init.view.exported := fun _ => Finset.notMem_empty _
    have hfailed : ∀ c, c ∉ init.view.failed := fun _ => List.not_mem_nil
    constructor
    all_goals grind [InhibitView.Pending, InhibitView.Removing]
  locks := fun _ _ hl => by cases hl
  bound := Nat.zero_le _

/-! ## Updates, as the view sees them -/

section Updates

variable (s : Inhibits) (call c : Nat) (phase : InhibitPhase) (ok : Bool) (kind : InhibitKind) (path : String)
  (registry : InhibitRegistry)

theorem lookup_insert : (s.calls.insert call phase).lookup c = if c = call then some phase else s.calls.lookup c := by
  by_cases h : c = call
  · subst h
    simp
  · simp [h, AList.lookup_insert_ne h]

theorem lookup_erase : (s.calls.erase call).lookup c = if c = call then none else s.calls.lookup c := by
  by_cases h : c = call
  · subst h
    simp
  · simp [h, AList.lookup_erase_ne h]

theorem changesOf_setRegistry : (s.setRegistry call kind path registry).changesOf c =
    if c = call then ⟨call, kind, path, s.registry.entry kind path, registry.entry kind path⟩ :: s.changesOf c
    else s.changesOf c := by
  unfold changesOf setRegistry
  by_cases h : c = call
  · simp [h]
  · simp [h, Ne.symm h]

end Updates

variable {s s' : Inhibits} {label : InhibitLabel}

/-- A call's entry is made. -/
theorem Inv.enters (h : s.Inv) {call : Nat} {kind : InhibitKind} {path : String} {registry : InhibitRegistry}
    (hnew : s.next ≤ call ∨ ∃ session, s.calls.lookup call = some (.registered session))
    (hadds : s.registry.Adds registry kind path call)
    (hlocks : ∀ path record, registry.requests.lookup path = some record →
      (record.lock.isSome ↔ logindWhat record.flags ≠ "")) :
    { s.setRegistry call kind path registry with
      calls := s.calls.insert call (.exporting kind path)
      next := max s.next (call + 1) : Inhibits }.Inv where
  view := h.view.enters hnew (hadds.free kind) hadds.entry
    (fun c => by
      have hown : registry.entry kind path = some call := by simp [hadds.entry]
      have hlog := changesOf_setRegistry s call c kind path registry
      rw [hown, hadds.free kind] at hlog
      exact hlog)
    fun c => lookup_insert s call c _
  locks := hlocks
  bound := by
    have hlive := hadds.live
    have hroom := hadds.room
    change registry.live ≤ _
    omega

theorem inv_exportStep (h : s.Inv) {call : Nat} {kind : InhibitKind} {path : String} {answer : ExportAnswer}
    (hp : s.calls.lookup call = some (.exporting kind path)) (hclean : ∀ added, answer ≠ .error added)
    (hstep : s.exportStep call kind path answer = some s') : s'.Inv := by
  cases answer with
  | error added => exact absurd rfl (hclean added)
  | taken =>
    cases hstep
    exact ⟨h.view.taken hp fun c => lookup_insert s call c _, h.locks, h.bound⟩
  | inserted =>
    simp only [exportStep] at hstep
    split at hstep
    · cases hstep
    · next hnew =>
      cases kind <;> cases hstep
      · exact ⟨h.view.exports hp hnew (.inl rfl) (fun _ => Finset.mem_insert) fun c => lookup_erase s call c,
          h.locks, h.bound⟩
      · exact ⟨h.view.exports hp hnew (.inr rfl) (fun _ => Finset.mem_insert) fun c => lookup_insert s call c _,
          h.locks, h.bound⟩

theorem inv_undo (h : s.Inv) {call : Nat} {kind : InhibitKind} {path : String} {after : Option InhibitPhase}
    {calls : Map Nat InhibitPhase} {failed : List Nat} (hp : s.calls.lookup call = some (.undoing kind path))
    (hafter : (after = none ∧ failed = call :: s.failed) ∨ (after = some (.finishing false) ∧ failed = s.failed))
    (hcalls : ∀ c, calls.lookup c = if c = call then after else s.calls.lookup c) :
    { s.setRegistry call kind path (s.registry.remove kind path) with calls := calls, failed := failed : Inhibits }.Inv where
  view := h.view.undoes hp hafter (InhibitRegistry.entry_remove kind)
    (fun c => by
      have hgone : (s.registry.remove kind path).entry kind path = none := by simp [InhibitRegistry.entry_remove]
      have hlog := changesOf_setRegistry s call c kind path (s.registry.remove kind path)
      rw [hgone] at hlog
      exact hlog)
    hcalls
  locks := fun p record hl => h.locks p record (InhibitRegistry.request_of_remove hl)
  bound := (InhibitRegistry.live_remove kind).trans h.bound

/-- A new record holds a lock iff logind can back one of its flags. -/
theorem inv_inhibit (h : s.Inv) {path appId : String} {flags : Nat} {options : String → Option PortalValue}
    {inhibitor : SystemInhibitor} (hstep : s.step (.inhibit path appId flags options inhibitor) = some s') :
    s'.Inv := by
  simp only [step] at hstep
  split at hstep
  · cases hstep
    exact ⟨h.view.refuses, h.locks, h.bound⟩
  · next registry happly =>
    obtain ⟨reason, happly⟩ :
        ∃ reason, applyInhibit inhibitor s.registry path appId flags reason s.next = .ok registry := by
      cases hreason : parseReason options with
      | error e =>
        rw [hreason] at happly
        cases happly
      | ok reason =>
        rw [hreason] at happly
        exact ⟨reason, happly⟩
    obtain ⟨lock, hlock, hadd⟩ := applyInhibit_eq_ok happly
    obtain ⟨hadds, hrequests⟩ := InhibitRegistry.addRequest_eq_ok hadd
    have hinv := h.enters (.inl le_rfl) hadds (fun p record hl => by
      rw [hrequests] at hl
      rcases lookup_insert_cases hl with ⟨-, rfl⟩ | ⟨-, hl⟩
      · exact hlock
      · exact h.locks p record hl)
    rw [Nat.max_eq_right (Nat.le_succ _)] at hinv
    cases hstep
    exact hinv

theorem inv_addMonitor (h : s.Inv) {call : Nat} (hstep : s.step (.addMonitor call) = some s') : s'.Inv := by
  simp only [step] at hstep
  split at hstep
  · next session hp =>
    split at hstep
    · cases hstep
      exact ⟨h.view.refused hp fun c => lookup_insert s call c _, h.locks, h.bound⟩
    · next registry hadd =>
      obtain ⟨hadds, hrequests⟩ := InhibitRegistry.addMonitor_eq_ok hadd
      have hinv := h.enters (.inr ⟨session, hp⟩) hadds (by rw [hrequests]; exact h.locks)
      have hlt : call < s.next := by
        by_contra hge
        have hnone := (h.view.fresh call (Nat.le_of_not_lt hge)).1
        simp [view, hp] at hnone
      rw [Nat.max_eq_left hlt] at hinv
      cases hstep
      exact hinv
  · cases hstep

/-- The cases are the labels; each is a move of the view. -/
theorem inv_step (h : s.Inv) (hclean : s.Clean label) (hstep : s.step label = some s') : s'.Inv := by
  cases label with
  | inhibit => exact inv_inhibit h hstep
  | createMonitor session registers =>
    simp only [step] at hstep
    split at hstep
    · cases hstep
      exact ⟨h.view.registers fun c => lookup_insert s s.next c _, h.locks, h.bound⟩
    · cases hstep
      exact ⟨h.view.refuses, h.locks, h.bound⟩
  | addMonitor call => exact inv_addMonitor h hstep
  | «export» call answer =>
    simp only [step] at hstep
    split at hstep
    · next kind path hp =>
      exact inv_exportStep h hp (fun added he => by subst he; exact hclean) hstep
    · cases hstep
  | undo call =>
    simp only [step] at hstep
    split at hstep
    · next kind path hp =>
      cases kind <;> cases hstep
      · exact inv_undo h hp (.inl ⟨rfl, rfl⟩) fun c => lookup_erase s call c
      · exact inv_undo h hp (.inr ⟨rfl, rfl⟩) fun c => lookup_insert s call c _
    · cases hstep
  | emit call =>
    simp only [step] at hstep
    split at hstep
    · next hp =>
      cases hstep
      exact ⟨h.view.emitted hp fun c => lookup_insert s call c _, h.locks, h.bound⟩
    · cases hstep
  | finish call =>
    simp only [step] at hstep
    split at hstep
    · next ok hp =>
      cases hstep
      exact ⟨h.view.finished hp fun c => lookup_erase s call c, h.locks, h.bound⟩
    · cases hstep
  | close kind path =>
    simp only [step] at hstep
    split at hstep
    · next hx =>
      cases hstep
      refine ⟨h.view.starts_close hx (fun d hd => ?_) fun c => lookup_insert s s.next c _, h.locks, h.bound⟩
      obtain ⟨phase, hphase, hcloses⟩ := Option.bind_eq_some_iff.1 hd
      have hmem : d ∈ keysWith (·.closes = some (kind, path)) s.calls :=
        mem_keysWith.2 ⟨phase, hphase, by simpa using hcloses⟩
      simp [show keysWith _ s.calls = [] from hclean] at hmem
    · cases hstep
  | removeEntry call =>
    simp only [step] at hstep
    split at hstep
    · next kind path hp =>
      cases hstep
      exact ⟨h.view.takes_out hp (InhibitRegistry.entry_remove kind) fun c => lookup_insert s call c _,
        fun p record hl => h.locks p record (InhibitRegistry.request_of_remove hl),
        (InhibitRegistry.live_remove kind).trans h.bound⟩
    · cases hstep
  | removeObject call =>
    simp only [step] at hstep
    split at hstep
    · next kind path hp =>
      cases hstep
      exact ⟨h.view.closes hp (fun _ => Finset.mem_erase) fun c => lookup_erase s call c, h.locks, h.bound⟩
    · cases hstep

/-- In every run of clean steps, the registry and the objects agree. -/
theorem registry_agrees (h : Reach (· = init) (Guarded Clean step) s) : s.Agrees :=
  (h.inv_guarded (by rintro _ rfl; exact inv_init) fun _ _ _ hi hc hs => inv_step hi hc hs).agrees

/-- An Inhibit of the idle flag, with a logind that gives the lock 3. -/
def inhibitIdleAt (path : String) : InhibitLabel :=
  .inhibit path "org.app" inhibitIdle (fun _ => none) fun _ _ _ _ => .ok 3

def servedAndClosed : List InhibitLabel :=
  [inhibitIdleAt "/r", .createMonitor "/m" true, .export 0 .inserted, .addMonitor 1, .export 1 .inserted, .emit 1,
    .finish 1, inhibitIdleAt "/m", .close .request "/r", .removeEntry 3, .removeObject 3]

/-- A monitor stays, a request is closed, and a request at the monitor's path is refused. -/
theorem registry_agrees_servedAndClosed : ∃ s, exec (Guarded Clean step) init servedAndClosed = some s ∧
    s.calls = ∅ ∧ s.registry.entry .monitor "/m" = some 1 ∧ s.failed = [2] ∧ s.Agrees := by
  have hrun : (exec (Guarded Clean step) init servedAndClosed).map
      (fun s => (s.calls.keys, s.registry.entry .monitor "/m", s.failed)) = some ([], some 1, [2]) := by decide +kernel
  obtain ⟨s, hs, hview⟩ := Option.map_eq_some_iff.1 hrun
  simp only [Prod.mk.injEq] at hview
  have hstart : Reach (· = init) (Guarded Clean step) init := .init rfl
  exact ⟨s, hs, AList.ext (by simpa [AList.keys, List.keys] using hview.1), hview.2.1, hview.2.2,
    registry_agrees (hstart.exec hs)⟩

/-- The export fails after logind gave the lock: the entry stays. -/
def exportFails : List InhibitLabel := [inhibitIdleAt "/r", .export 0 (.error false)]

/-- Two Close calls of one request; a new request at its path comes between them. -/
def closedTwice : List InhibitLabel :=
  [inhibitIdleAt "/r", .export 0 .inserted, .close .request "/r", .close .request "/r", .removeEntry 1, .removeEntry 2,
    .removeObject 1, inhibitIdleAt "/r", .export 3 .inserted, .removeObject 2]

/-- With no call in progress, the request's record holds its lock and there is no object to close. -/
def Orphans (ls : List InhibitLabel) (path : String) : Prop :=
  ∃ s, Reach (· = init) step s ∧ exec step init ls = some s ∧ s.calls = ∅ ∧
    (s.registry.requests.lookup path).map (·.lock) = some (some 3) ∧ (.request, path) ∉ s.exported ∧ ¬ s.Agrees

theorem orphans_of_run {ls : List InhibitLabel} {path : String}
    (hrun : (exec step init ls).map (fun s => (s.calls.keys, (s.registry.requests.lookup path).map (·.lock),
      decide ((.request, path) ∈ s.exported))) = some ([], some (some 3), false)) : Orphans ls path := by
  obtain ⟨s, hs, hview⟩ := Option.map_eq_some_iff.1 hrun
  simp only [Prod.mk.injEq, decide_eq_false_iff_not] at hview
  obtain ⟨hcalls, hlock, hgone⟩ := hview
  have hstart : Reach (· = init) step init := .init rfl
  have hidle : s.calls = ∅ := AList.ext (by simpa [AList.keys, List.keys] using hcalls)
  refine ⟨s, hstart.exec hs, hs, hidle, hlock, hgone, fun hagrees => hgone ?_⟩
  obtain ⟨record, hrecord, -⟩ := Option.map_eq_some_iff.1 hlock
  exact (hagrees.exact hidle .request path).1 (by simp [InhibitRegistry.entry, hrecord])

theorem orphaned : Orphans exportFails "/r" ∧ Orphans closedTwice "/r" :=
  ⟨orphans_of_run (by decide +kernel), orphans_of_run (by decide +kernel)⟩

end Inhibits

end AtriumPortal.Portal
