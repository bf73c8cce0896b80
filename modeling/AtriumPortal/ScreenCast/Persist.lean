import AtriumPortal.Lib.Shelves
import Mathlib.Data.List.AList
/-!
# Restore tokens

`persist.rs`: mode-1 tokens in a list that is written to disk, mode-2 tokens in
memory under the caller's bus name. `file` is the store file in the data
directory, as the last successful write left it.
-/
open AtriumPortal.Lib.Shelves

namespace AtriumPortal.ScreenCast

/-- Refuse to read a store larger than this. -/
def maxStoreBytes : Nat := 1024 * 1024
def maxDiskTokens : Nat := 64
def maxMemoryTokensPerOwner : Nat := 16
def storeVersion : Nat := 1

inductive StoredSource where
  | desktop
  | output (connector : String)
  deriving DecidableEq, Repr

structure StoredSelection where
  appId : String
  source : StoredSource
  cursorMode : Nat
  deriving DecidableEq, Repr

structure StoredEntry where
  token : String
  selection : StoredSelection
  deriving DecidableEq, Repr

structure DiskStore where
  version : Nat
  tokens : List StoredEntry
  deriving DecidableEq, Repr

/-- `serde_json` on the store file. -/
structure Json where
  toVec : DiskStore → List UInt8
  fromSlice : List UInt8 → Option DiskStore

structure RestoreStore where
  dataDir : Option String
  disk : List StoredEntry
  memory : AList fun _ : String => List StoredEntry
  file : Option (List UInt8)

/-- `read_store`; any failure is no store. -/
def readStore (json : Json) (file : Option (List UInt8)) : Option (List StoredEntry) :=
  file.bind fun bytes =>
    if maxStoreBytes < bytes.length then none
    else (json.fromSlice bytes).bind fun store => if store.version ≠ storeVersion then none else some store.tokens

namespace RestoreStore

/-- A store without tokens, whatever its file holds. -/
def empty (dataDir : Option String) (file : Option (List UInt8)) : RestoreStore := ⟨dataDir, [], ∅, file⟩

def load (json : Json) (dataDir : Option String) (file : Option (List UInt8)) : RestoreStore :=
  { empty dataDir file with disk := (dataDir.bind fun _ => readStore json file).getD [] }

/-- `write_disk`: an error (`written = false`) is only logged and leaves the file. -/
def writeDisk (json : Json) (s : RestoreStore) (written : Bool) : RestoreStore :=
  match s.dataDir with
  | none => s
  | some _ => if written then { s with file := some (json.toVec ⟨storeVersion, s.disk⟩) } else s

/-- `token` is what `random_token` drew. -/
def issue (json : Json) (s : RestoreStore) (token : String) (mode : Nat) (owner : String)
    (selection : StoredSelection) (written : Bool) : RestoreStore × Option String :=
  let entry : StoredEntry := ⟨token, selection⟩
  match mode with
  | 1 =>
    match s.dataDir with
    | none => (s, none)
    | some _ => ({ s with disk := drainOldest maxDiskTokens (s.disk ++ [entry]) }.writeDisk json written, some token)
  | 2 =>
    if owner = "" then (s, none)
    else
      let entries := (s.memory.lookup owner).getD [] ++ [entry]
      ({ s with memory := s.memory.insert owner (drainOldest maxMemoryTokensPerOwner entries) }, some token)
  | _ => (s, none)

/-- `values` are the memory lists in the order the hash map iterates them. -/
def validate (s : RestoreStore) (values : List (List StoredEntry)) (token appId : String)
    (servable : StoredSource → Bool) : Option (Nat × StoredSelection) :=
  let grant (mode : Nat) (entry : StoredEntry) :=
    if entry.selection.appId = appId ∧ servable entry.selection.source then some (mode, entry.selection) else none
  match values.flatten.find? (·.token = token) with
  | some entry => grant 2 entry
  | none =>
    match s.disk.find? (·.token = token) with
    | some entry => grant 1 entry
    | none => none

/-- `values` is an order in which `self.memory.values()` may iterate. -/
def Iterates (s : RestoreStore) (values : List (List StoredEntry)) : Prop :=
  values.Perm (s.memory.entries.map (·.2))

def dropOwner (s : RestoreStore) (owner : String) : RestoreStore := { s with memory := s.memory.erase owner }

def prune (json : Json) (s : RestoreStore) (servable : StoredSource → Bool) (written : Bool) : RestoreStore :=
  let s' := { s with disk := s.disk.filter (servable ·.selection.source) }
  if s'.disk.length ≠ s.disk.length then s'.writeDisk json written else s'

/-- One list of the store: the disk list, or the memory list of an owner. -/
def list (s : RestoreStore) : Option String → List StoredEntry
  | none => s.disk
  | some owner => (s.memory.lookup owner).getD []

/-! ## Runs -/

inductive Op where
  | issue (token : String) (mode : Nat) (owner : String) (selection : StoredSelection) (written : Bool)
  | dropOwner (owner : String)
  | prune (servable : StoredSource → Bool) (written : Bool)
  /-- Validating changes nothing. -/
  | validate (token appId : String) (servable : StoredSource → Bool)

def apply (json : Json) (s : RestoreStore) : Op → RestoreStore
  | .issue token mode owner selection written => (s.issue json token mode owner selection written).1
  | .dropOwner owner => s.dropOwner owner
  | .prune servable written => s.prune json servable written
  | .validate _ _ _ => s

def run (json : Json) (s : RestoreStore) (ops : List Op) : RestoreStore := ops.foldl (apply json) s

/-- The token an operation draws. -/
def Op.token? : Op → Option String
  | .issue token _ _ _ _ => some token
  | _ => none

/-- The tokens drawn in a run. -/
def drawn (ops : List Op) : List String := ops.filterMap Op.token?

/-! ## Small lemmas -/

@[simp] theorem writeDisk_list (json : Json) (s : RestoreStore) (written : Bool) (k : Option String) :
    (s.writeDisk json written).list k = s.list k := by
  unfold writeDisk
  split
  · rfl
  · split <;> cases k <;> rfl

@[simp] theorem writeDisk_dataDir (json : Json) (s : RestoreStore) (written : Bool) :
    (s.writeDisk json written).dataDir = s.dataDir := by
  unfold writeDisk
  split
  · rfl
  · split <;> rfl

@[simp] theorem empty_list (dataDir : Option String) (file : Option (List UInt8)) (k : Option String) :
    (empty dataDir file).list k = [] := by
  cases k <;> rfl

@[simp] theorem drawn_append (ops ops' : List Op) : drawn (ops ++ ops') = drawn ops ++ drawn ops' :=
  List.filterMap_append

theorem mem_values {s : RestoreStore} {values : List (List StoredEntry)} (hv : s.Iterates values) {entry : StoredEntry} :
    entry ∈ values.flatten ↔ ∃ owner, entry ∈ s.list (some owner) := by
  have hperm : entry ∈ values.flatten ↔ entry ∈ (s.memory.entries.map (·.2)).flatten := hv.flatten.mem_iff
  rw [hperm]
  simp only [List.mem_flatten, List.mem_map, list]
  constructor
  · rintro ⟨_, ⟨⟨owner, entries⟩, hm, rfl⟩, he⟩
    have hl : s.memory.lookup owner = some entries := AList.mem_lookup_iff.2 hm
    exact ⟨owner, by simpa [hl] using he⟩
  · rintro ⟨owner, he⟩
    cases hl : s.memory.lookup owner with
    | none => simp [hl] at he
    | some entries => exact ⟨entries, ⟨⟨owner, entries⟩, AList.mem_lookup_iff.1 hl, rfl⟩, by simpa [hl] using he⟩

end RestoreStore

end AtriumPortal.ScreenCast
