import AtriumPortal.Lib.Runs
import AtriumPortal.Lib.Table
import AtriumPortal.Portal.Tracker
import AtriumPortal.Prompter.Contract
/-!
# Inhibitions and monitors

`inhibit.rs`: the registry of accepted Inhibit calls and monitor sessions, and the
served methods as the steps between their awaits. Any number of calls are in
progress. `call` numbers the calls; a registry entry names the call that made it.
-/
open AtriumPortal.Lib.Table AtriumPortal.Prompter

namespace AtriumPortal.Portal

def inhibitLogout : Nat := 1
def inhibitUserSwitch : Nat := 2
def inhibitSuspend : Nat := 4
def inhibitIdle : Nat := 8
def knownFlags : Nat := inhibitLogout ||| inhibitUserSwitch ||| inhibitSuspend ||| inhibitIdle
def maxInhibitObjects : Nat := 64
def maxInhibitReasonBytes : Nat := 16 * 1024

/-- Which of the two objects is exported at a path. -/
inductive InhibitKind where
  | request
  | monitor
  deriving DecidableEq, Repr

structure InhibitRecord where
  appId : String
  flags : Nat
  /-- The held logind lock. -/
  lock : Option Nat
  call : Nat
  deriving DecidableEq, Repr

structure InhibitRegistry where
  requests : Map String InhibitRecord
  monitors : Map String Nat

namespace InhibitRegistry

def empty : InhibitRegistry := ⟨∅, ∅⟩

def live (r : InhibitRegistry) : Nat := r.requests.entries.length + r.monitors.entries.length

/-- The checks that `add_request` and `add_monitor` share. -/
def admits (r : InhibitRegistry) (path : String) : Except String Unit :=
  if (r.requests.lookup path).isSome || (r.monitors.lookup path).isSome then
    .error s!"inhibit object {path} is already active"
  else if maxInhibitObjects ≤ r.live then .error s!"inhibit limit of {maxInhibitObjects} reached"
  else .ok ()

def addRequest (r : InhibitRegistry) (path appId : String) (flags : Nat) (lock : Option Nat) (call : Nat) :
    Except String InhibitRegistry := do
  r.admits path
  return { r with requests := r.requests.insert path ⟨appId, flags, lock, call⟩ }

def removeRequest (r : InhibitRegistry) (path : String) : InhibitRegistry :=
  { r with requests := r.requests.erase path }

def addMonitor (r : InhibitRegistry) (path : String) (call : Nat) : Except String InhibitRegistry := do
  r.admits path
  return { r with monitors := r.monitors.insert path call }

def removeMonitor (r : InhibitRegistry) (path : String) : InhibitRegistry :=
  { r with monitors := r.monitors.erase path }

def isMonitor (r : InhibitRegistry) (path : String) : Bool := (r.monitors.lookup path).isSome

/-- The entry of a kind, as the call that made it. -/
def entry (r : InhibitRegistry) : InhibitKind → String → Option Nat
  | .request, path => (r.requests.lookup path).map (·.call)
  | .monitor, path => r.monitors.lookup path

def remove (r : InhibitRegistry) : InhibitKind → String → InhibitRegistry
  | .request, path => r.removeRequest path
  | .monitor, path => r.removeMonitor path

end InhibitRegistry

/-- The flags logind can back. -/
def logindWhat (flags : Nat) : String :=
  ":".intercalate ((if flags &&& inhibitIdle ≠ 0 then ["idle"] else []) ++
    if flags &&& inhibitSuspend ≠ 0 then ["sleep"] else [])

/-- `SystemInhibitor::inhibit`: a lock, or an error. -/
abbrev SystemInhibitor : Type := (what who why mode : String) → Except String Nat

/-- The logind lock first, then the record; a refusal drops the lock. -/
def applyInhibit (inhibitor : SystemInhibitor) (registry : InhibitRegistry) (path appId : String) (flags : Nat)
    (reason : Option String) (call : Nat) : Except String InhibitRegistry := do
  if flags = 0 ∨ flags &&& (0xFFFFFFFF ^^^ knownFlags) ≠ 0 then
    .error s!"unsupported or empty inhibit flags 0x{String.ofList (Nat.toDigits 16 flags)}"
  else if logindWhat flags = "" then registry.addRequest path appId flags none call
  else
    let who := if appId = "" then "A sandboxed application" else appId
    let why := (reason.filter (· ≠ "")).getD "Portal inhibition request"
    let lock ← inhibitor (logindWhat flags) who why "block"
    registry.addRequest path appId flags (some lock) call

/-- The `reason` option. -/
def parseReason (options : String → Option PortalValue) : Except String (Option String) :=
  match options "reason" with
  | some (.str reason) =>
    if maxInhibitReasonBytes < reason.utf8ByteSize || hasNul reason then .error "reason is oversized or contains NUL"
    else .ok (some reason)
  | _ => .ok none

/-! ## The served methods -/

/-- Where a call in progress is. -/
inductive InhibitPhase where
  /-- The entry is made; the object is not exported yet. -/
  | exporting (kind : InhibitKind) (path : String)
  /-- The path was taken; the entry is still there. -/
  | undoing (kind : InhibitKind) (path : String)
  /-- CreateMonitor, before `add_monitor`. -/
  | registered (session : String)
  /-- CreateMonitor, with an exported session. -/
  | emitting
  /-- CreateMonitor, with its outcome. -/
  | finishing (ok : Bool)
  /-- Close, before it takes the entry out. -/
  | closing (kind : InhibitKind) (path : String)
  /-- Close, before it removes the object. -/
  | removing (kind : InhibitKind) (path : String)
  deriving DecidableEq, Repr

/-- A call changed who made the entry of a kind at a path. -/
structure InhibitChange where
  call : Nat
  kind : InhibitKind
  path : String
  before : Option Nat
  after : Option Nat
  deriving DecidableEq, Repr

structure Inhibits where
  registry : InhibitRegistry
  exported : Finset (InhibitKind × String)
  calls : Map Nat InhibitPhase
  next : Nat
  /-- The Inhibit and CreateMonitor calls that failed. -/
  failed : List Nat
  /-- What the Inhibit and CreateMonitor calls changed in the registry, newest first. -/
  changes : List InhibitChange

/-- `object_server().at`. An error may come after the object was added. -/
inductive ExportAnswer where
  | inserted
  | taken
  | error (added : Bool)
  deriving DecidableEq, Repr

inductive InhibitLabel where
  | inhibit (path appId : String) (flags : Nat) (options : String → Option PortalValue) (inhibitor : SystemInhibitor)
  | createMonitor (session : String) (registers : Bool)
  | addMonitor (call : Nat)
  | export (call : Nat) (answer : ExportAnswer)
  | undo (call : Nat)
  | emit (call : Nat)
  | finish (call : Nat)
  /-- A client calls Close on an exported object. -/
  | close (kind : InhibitKind) (path : String)
  | removeEntry (call : Nat)
  | removeObject (call : Nat)

namespace Inhibits

def init : Inhibits := ⟨.empty, ∅, ∅, 0, [], []⟩

def setPhase (s : Inhibits) (call : Nat) (phase : InhibitPhase) : Inhibits :=
  { s with calls := s.calls.insert call phase }

/-- The call puts a registry in place, with another entry of the kind at the path. -/
def setRegistry (s : Inhibits) (call : Nat) (kind : InhibitKind) (path : String) (registry : InhibitRegistry) :
    Inhibits :=
  { s with
    registry := registry
    changes := ⟨call, kind, path, s.registry.entry kind path, registry.entry kind path⟩ :: s.changes }

/-- The call replies. -/
def reply (s : Inhibits) (call : Nat) (ok : Bool) : Inhibits :=
  { s with
    calls := s.calls.erase call
    failed := if ok then s.failed else call :: s.failed }

/-- A call that is numbered and goes on. -/
def begins (s : Inhibits) (phase : InhibitPhase) : Inhibits :=
  { s with
    calls := s.calls.insert s.next phase
    next := s.next + 1 }

/-- A call that fails at once. -/
def refuses (s : Inhibits) : Inhibits := { s with next := s.next + 1, failed := s.next :: s.failed }

def exportStep (s : Inhibits) (call : Nat) (kind : InhibitKind) (path : String) : ExportAnswer → Option Inhibits
  | .inserted =>
    if (kind, path) ∈ s.exported then none
    else
      let s := { s with exported := insert (kind, path) s.exported }
      match kind with
      | .request => some (s.reply call true)
      | .monitor => some (s.setPhase call .emitting)
  | .taken => some (s.setPhase call (.undoing kind path))
  | .error added =>
    -- The error returns at once; CreateMonitor still unregisters its own request.
    let s := if added then { s with exported := insert (kind, path) s.exported } else s
    match kind with
    | .request => some (s.reply call false)
    | .monitor => some (s.setPhase call (.finishing false))

def step (s : Inhibits) : InhibitLabel → Option Inhibits
  | .inhibit path appId flags options inhibitor =>
    match parseReason options >>= fun reason => applyInhibit inhibitor s.registry path appId flags reason s.next with
    | .error _ => some s.refuses
    | .ok registry => some ((s.setRegistry s.next .request path registry).begins (.exporting .request path))
  | .createMonitor session registers => some (if registers then s.begins (.registered session) else s.refuses)
  | .addMonitor call =>
    match s.calls.lookup call with
    | some (.registered session) =>
      match s.registry.addMonitor session call with
      | .error _ => some (s.setPhase call (.finishing false))
      | .ok registry => some ((s.setRegistry call .monitor session registry).setPhase call (.exporting .monitor session))
    | _ => none
  | .export call answer =>
    match s.calls.lookup call with
    | some (.exporting kind path) => s.exportStep call kind path answer
    | _ => none
  | .undo call =>
    match s.calls.lookup call with
    | some (.undoing kind path) =>
      let s := s.setRegistry call kind path (s.registry.remove kind path)
      match kind with
      | .request => some (s.reply call false)
      | .monitor => some (s.setPhase call (.finishing false))
    | _ => none
  | .emit call =>
    match s.calls.lookup call with
    | some .emitting => some (s.setPhase call (.finishing true))
    | _ => none
  | .finish call =>
    match s.calls.lookup call with
    | some (.finishing ok) => some (s.reply call ok)
    | _ => none
  | .close kind path => if (kind, path) ∈ s.exported then some (s.begins (.closing kind path)) else none
  | .removeEntry call =>
    match s.calls.lookup call with
    | some (.closing kind path) => some ({ s with registry := s.registry.remove kind path }.setPhase call (.removing kind path))
    | _ => none
  | .removeObject call =>
    match s.calls.lookup call with
    | some (.removing kind path) => some { s with
        exported := s.exported.erase (kind, path)
        calls := s.calls.erase call }
    | _ => none

end Inhibits

/-! ## What the registry's operations do -/

namespace InhibitRegistry

variable {r r' : InhibitRegistry} {path : String}

theorem admits_eq_ok (h : r.admits path = .ok ()) :
    (∀ kind, r.entry kind path = none) ∧ r.live < maxInhibitObjects := by
  unfold admits at h
  split at h
  · cases h
  · next hfree =>
    split at h
    · cases h
    · next hroom =>
      simp only [Bool.or_eq_true, not_or, Bool.not_eq_true, Option.isSome_eq_false_iff, Option.isNone_iff_eq_none] at hfree
      refine ⟨fun kind => ?_, by omega⟩
      cases kind with
      | request => simp [entry, hfree.1]
      | monitor => exact hfree.2

/-- Adding an entry of a kind: the path was free, there was room, and nothing else changes. -/
structure Adds (r r' : InhibitRegistry) (kind : InhibitKind) (path : String) (call : Nat) : Prop where
  free : ∀ k, r.entry k path = none
  room : r.live < maxInhibitObjects
  entry : ∀ k p, r'.entry k p = if k = kind ∧ p = path then some call else r.entry k p
  live : r'.live = r.live + 1

theorem length_insert_new {V : Type} {t : Map String V} {k : String} {v : V} (h : t.lookup k = none) :
    (t.insert k v).entries.length = t.entries.length + 1 := by
  simpa [count] using count_insert_new (p := fun _ => true) (v := v) h

theorem length_erase_le {V : Type} {t : Map String V} {k : String} : (t.erase k).entries.length ≤ t.entries.length := by
  simpa [count] using count_erase_le (p := fun _ => true) (s := t) (k := k)

theorem addRequest_eq_ok {appId : String} {flags : Nat} {lock : Option Nat} {call : Nat}
    (h : r.addRequest path appId flags lock call = .ok r') :
    Adds r r' .request path call ∧ r'.requests = r.requests.insert path ⟨appId, flags, lock, call⟩ := by
  unfold addRequest at h
  cases hadmits : r.admits path with
  | error e => simp [hadmits] at h
  | ok =>
    obtain ⟨hfree, hroom⟩ := admits_eq_ok hadmits
    have hnone : r.requests.lookup path = none := by simpa [entry] using hfree .request
    obtain rfl : { r with requests := r.requests.insert path ⟨appId, flags, lock, call⟩ } = r' := by
      simpa [hadmits] using h
    refine ⟨⟨hfree, hroom, fun k p => ?_, ?_⟩, rfl⟩
    · cases k with
      | monitor => simp [entry]
      | request =>
        by_cases hp : p = path
        · subst hp
          simp [entry]
        · simp [entry, hp, AList.lookup_insert_ne hp]
    · simp only [InhibitRegistry.live, length_insert_new hnone]
      omega

theorem addMonitor_eq_ok {call : Nat} (h : r.addMonitor path call = .ok r') :
    Adds r r' .monitor path call ∧ r'.requests = r.requests := by
  unfold addMonitor at h
  cases hadmits : r.admits path with
  | error e => simp [hadmits] at h
  | ok =>
    obtain ⟨hfree, hroom⟩ := admits_eq_ok hadmits
    have hnone : r.monitors.lookup path = none := hfree .monitor
    obtain rfl : { r with monitors := r.monitors.insert path call } = r' := by simpa [hadmits] using h
    refine ⟨⟨hfree, hroom, fun k p => ?_, ?_⟩, rfl⟩
    · cases k with
      | request => simp [entry]
      | monitor =>
        by_cases hp : p = path
        · subst hp
          simp [entry]
        · simp [entry, hp, AList.lookup_insert_ne hp]
    · simp only [InhibitRegistry.live, length_insert_new hnone]
      omega

theorem entry_remove (kind k : InhibitKind) (p : String) :
    (r.remove kind path).entry k p = if k = kind ∧ p = path then none else r.entry k p := by
  by_cases hp : p = path
  · subst hp
    cases kind <;> cases k <;> simp [remove, removeRequest, removeMonitor, entry]
  · cases kind <;> cases k <;> simp [remove, removeRequest, removeMonitor, entry, hp, AList.lookup_erase_ne]

theorem live_remove (kind : InhibitKind) : (r.remove kind path).live ≤ r.live := by
  cases kind with
  | request => exact Nat.add_le_add_right length_erase_le _
  | monitor => exact Nat.add_le_add_left length_erase_le _

/-- A removal leaves the records there are as they are. -/
theorem request_of_remove {kind : InhibitKind} {p : String} {record : InhibitRecord}
    (h : (r.remove kind path).requests.lookup p = some record) : r.requests.lookup p = some record := by
  cases kind with
  | request => exact lookup_of_erase h
  | monitor => exact h

end InhibitRegistry

/-- A served Inhibit call's record: its flags are known, and it holds a lock if logind can back
one of them. -/
theorem applyInhibit_eq_ok {inhibitor : SystemInhibitor} {registry registry' : InhibitRegistry}
    {path appId : String} {flags call : Nat} {reason : Option String}
    (h : applyInhibit inhibitor registry path appId flags reason call = .ok registry') :
    ∃ lock : Option Nat, (lock.isSome ↔ logindWhat flags ≠ "") ∧
      registry.addRequest path appId flags lock call = .ok registry' := by
  unfold applyInhibit at h
  split at h
  · cases h
  · split at h
    · next hwhat => exact ⟨none, by simp [hwhat], h⟩
    · next hwhat =>
      cases hlock : inhibitor (logindWhat flags) (if appId = "" then "A sandboxed application" else appId)
          ((reason.filter (· ≠ "")).getD "Portal inhibition request") "block" with
      | error e =>
        dsimp only at h
        rw [hlock] at h
        cases h
      | ok lock =>
        dsimp only at h
        rw [hlock] at h
        exact ⟨some lock, by simp [hwhat], h⟩

end AtriumPortal.Portal
