import AtriumPortal.ScreenCast.StoreFile
import AtriumPortal.ScreenCast.Grants
/-!
# Mode-1 tokens and the next start

A mode-1 token is issued to outlive the daemon: the next `load` of the store file
should find it. It does exactly when the write went through and the next reader
takes the file, which it refuses above `maxStoreBytes`; the writer checks neither.
-/
open AtriumPortal.Lib.Shelves

namespace AtriumPortal.ScreenCast

/-- `serde_json` reads what it wrote. -/
def Json.Inverts (json : Json) : Prop := ∀ store, json.fromSlice (json.toVec store) = some store

namespace RestoreStore

/-- The reader takes the file of these entries. -/
def Readable (json : Json) (entries : List StoredEntry) : Prop :=
  (json.toVec ⟨storeVersion, entries⟩).length ≤ maxStoreBytes

/-- The store of a daemon that starts after this one. -/
def reloaded (json : Json) (s : RestoreStore) : RestoreStore := load json s.dataDir s.file

/-- The token validates with its selection, wherever that can be served. -/
def Restores (s : RestoreStore) (token : String) (selection : StoredSelection) : Prop :=
  ∀ values, s.Iterates values → ∀ servable : StoredSource → Bool, servable selection.source = true →
    s.validate values token selection.appId servable = some (1, selection)

/-- A mode-1 token that `issue` returns survives a restart. -/
def IssueSurvives (json : Json) (s : RestoreStore) (token owner : String) (selection : StoredSelection)
    (written : Bool) : Prop :=
  let issued := s.issue json token 1 owner selection written
  ∀ returned, issued.2 = some returned → (issued.1.reloaded json).Restores returned selection

/-- The file written for the disk list is read back as that list. -/
def ReadsBack (json : Json) (s : RestoreStore) : Prop := ((s.writeDisk json true).reloaded json).disk = s.disk

/-- The tokens a run may have seen: those of the file it started from, and those it drew. -/
def seen (json : Json) (file : Option (List UInt8)) (ops : List Op) : List String :=
  ((readStore json file).getD []).map StoredEntry.token ++ drawn ops

/-! ## Writing and reading -/

theorem readStore_written {json : Json} (hj : json.Inverts) (entries : List StoredEntry) :
    readStore json (some (json.toVec ⟨storeVersion, entries⟩)) =
      if maxStoreBytes < (json.toVec ⟨storeVersion, entries⟩).length then none else some entries := by
  have hread := hj ⟨storeVersion, entries⟩
  simp [readStore, hread]

theorem reloaded_list (json : Json) (s : RestoreStore) (k : Option String) :
    (s.reloaded json).list k =
      match k with
      | none => (s.dataDir.bind fun _ => readStore json s.file).getD []
      | some _ => [] := by
  cases k <;> rfl

/-- Reading back the file that a write to the disk leaves. -/
theorem reloaded_writeDisk {json : Json} (hj : json.Inverts) {s : RestoreStore} {dir : String}
    (hd : s.dataDir = some dir) :
    ((s.writeDisk json true).reloaded json).disk = if maxStoreBytes < (json.toVec ⟨storeVersion, s.disk⟩).length then []
      else s.disk := by
  have hload := reloaded_list json (s.writeDisk json true) none
  simp only [writeDisk_dataDir, hd, Option.bind_some] at hload
  have hfile : (s.writeDisk json true).file = some (json.toVec ⟨storeVersion, s.disk⟩) := by simp [writeDisk, hd]
  rw [hfile, readStore_written hj] at hload
  refine hload.trans ?_
  split <;> rfl

/-- Without memory tokens, the first disk entry of a token answers for it. -/
theorem validate_disk {s : RestoreStore} (hmem : ∀ owner, s.list (some owner) = []) {values : List (List StoredEntry)}
    (hv : s.Iterates values) (token appId : String) (servable : StoredSource → Bool) :
    s.validate values token appId servable = (s.disk.find? (·.token = token)).bind fun entry =>
      if entry.selection.appId = appId ∧ servable entry.selection.source then some (1, entry.selection) else none := by
  have hnone : values.flatten.find? (·.token = token) = none := by
    refine List.find?_eq_none.2 fun e he => ?_
    obtain ⟨owner, he⟩ := (mem_values hv).1 he
    rw [hmem owner] at he
    cases he
  unfold validate
  rw [hnone]
  cases s.disk.find? (·.token = token) <;> rfl

theorem reloaded_restores_iff {json : Json} {s : RestoreStore} {token : String} {selection : StoredSelection} :
    (s.reloaded json).Restores token selection ↔
      (s.reloaded json).disk.find? (·.token = token) = some ⟨token, selection⟩ := by
  have hmem : ∀ owner, (s.reloaded json).list (some owner) = [] := fun owner => reloaded_list json s (some owner)
  constructor
  · intro h
    have hany := h _ (List.Perm.refl _) (fun _ => true) rfl
    rw [validate_disk hmem (List.Perm.refl _)] at hany
    obtain ⟨entry, hfind, hif⟩ := Option.bind_eq_some_iff.1 hany
    have htoken : entry.token = token := by simpa using List.find?_some hfind
    split at hif
    · cases hif
      rw [hfind, ← htoken]
    · cases hif
  · intro h values hv servable hs
    rw [validate_disk hmem hv, h]
    simp [hs]

/-! ## What a store may hold -/

/-- The disk list and the file hold tokens from this list only. -/
structure HoldsOnly (json : Json) (s : RestoreStore) (tokens : List String) : Prop where
  disk : ∀ e ∈ s.disk, e.token ∈ tokens
  file : ∀ e ∈ (readStore json s.file).getD [], e.token ∈ tokens

theorem HoldsOnly.mono {json : Json} {s : RestoreStore} {tokens tokens' : List String} (h : HoldsOnly json s tokens)
    (hs : tokens ⊆ tokens') : HoldsOnly json s tokens' :=
  ⟨fun e he => hs (h.disk e he), fun e he => hs (h.file e he)⟩

/-- A write copies the disk list to the file. -/
theorem HoldsOnly.writeDisk {json : Json} (hj : json.Inverts) {s : RestoreStore} {tokens : List String}
    (h : HoldsOnly json s tokens) (written : Bool) : HoldsOnly json (s.writeDisk json written) tokens := by
  unfold RestoreStore.writeDisk
  split
  · exact h
  · split
    · refine ⟨h.disk, fun e he => ?_⟩
      simp only [readStore_written hj] at he
      split at he
      · cases he
      · exact h.disk e he
    · exact h

theorem mem_of_mem_drainOldest {B : Type} {n : Nat} {items : List B} {b : B} (h : b ∈ drainOldest n items) :
    b ∈ items := by
  unfold drainOldest at h
  split at h
  · exact List.mem_of_mem_drop h
  · exact h

theorem HoldsOnly.apply {json : Json} (hj : json.Inverts) {s : RestoreStore} {tokens : List String}
    (h : HoldsOnly json s tokens) (op : Op) : HoldsOnly json (RestoreStore.apply json s op) (tokens ++ drawn [op]) := by
  have hkeep : HoldsOnly json s (tokens ++ drawn [op]) := h.mono (List.subset_append_left _ _)
  cases op with
  | issue token mode owner selection written =>
    simp only [RestoreStore.apply, issue]
    split
    · split
      · exact hkeep
      · -- The new entry has the token drawn, the others were there.
        refine HoldsOnly.writeDisk (s := { s with disk := drainOldest maxDiskTokens (s.disk ++ [⟨token, selection⟩]) }) hj
          ⟨fun e he => ?_, hkeep.file⟩ written
        rcases List.mem_append.1 (mem_of_mem_drainOldest he) with he | he
        · exact hkeep.disk e he
        · obtain rfl := List.mem_singleton.1 he
          simp [drawn, Op.token?]
    · split
      · exact hkeep
      · exact ⟨hkeep.disk, hkeep.file⟩
    · exact hkeep
  | dropOwner owner => exact ⟨hkeep.disk, hkeep.file⟩
  | prune servable written =>
    have hpruned : HoldsOnly json { s with disk := s.disk.filter (servable ·.selection.source) }
        (tokens ++ drawn [.prune servable written]) :=
      ⟨fun e he => hkeep.disk e (List.mem_filter.1 he).1, hkeep.file⟩
    simp only [RestoreStore.apply, prune]
    split
    · exact hpruned.writeDisk hj written
    · exact hpruned
  | validate => exact hkeep

theorem run_holdsOnly {json : Json} (hj : json.Inverts) (dataDir : Option String) (file : Option (List UInt8))
    (ops : List Op) : HoldsOnly json (run json (load json dataDir file) ops) (seen json file ops) := by
  induction ops using List.reverseRecOn with
  | nil =>
    have hfile : ∀ e ∈ (readStore json file).getD [], e.token ∈ seen json file [] := fun e he =>
      List.mem_append_left _ (List.mem_map_of_mem he)
    refine ⟨fun e he => ?_, hfile⟩
    cases dataDir with
    | none => cases he
    | some dir => exact hfile e he
  | append_singleton ops op ih =>
    rw [run_append_singleton]
    have hseen : seen json file (ops ++ [op]) = seen json file ops ++ drawn [op] := by simp [seen]
    rw [hseen]
    exact ih.apply hj op

/-- Without a data directory nothing is ever on disk. -/
theorem run_disk_of_none {json : Json} (file : Option (List UInt8)) (ops : List Op) :
    (run json (load json none file) ops).disk = [] := by
  induction ops using List.reverseRecOn with
  | nil => rfl
  | append_singleton ops op ih =>
    have hdir : (run json (load json none file) ops).dataDir = none := run_dataDir json _ ops
    have hlist : (run json (load json none file) ops).list none = [] := ih
    rw [run_append_singleton]
    show (RestoreStore.apply json (run json (load json none file) ops) op).list none = []
    cases op with
    | issue token mode owner selection written =>
      rw [RestoreStore.apply, issue_list, hdir, hlist]
      cases hg : grantOf none token mode owner selection with
      | none => rfl
      | some g =>
        have hshelf : g.shelf ≠ none := by
          rintro hno
          unfold grantOf at hg
          split at hg
          · cases hg
          · split at hg <;> cases hg
            cases hno
          · cases hg
        simp [hshelf]
    | dropOwner owner => simpa [RestoreStore.apply, dropOwner_list] using hlist
    | prune servable written => simp [RestoreStore.apply, prune_list, hlist]
    | validate => exact hlist

/-! ## When mode-1 tokens are durable -/

/-- The newest of the disk list is last, and it stays. -/
theorem mem_drainOldest_last {B : Type} {n : Nat} (hn : 0 < n) (items : List B) (b : B) :
    b ∈ drainOldest n (items ++ [b]) := by
  unfold drainOldest
  split
  · have hdrop : (items ++ [b]).drop ((items ++ [b]).length - n) =
        items.drop ((items ++ [b]).length - n) ++ [b] := by
      rw [List.drop_append_of_le_length]
      simp; omega
    rw [hdrop]
    exact List.mem_append_right _ List.mem_cons_self
  · exact List.mem_append_right _ List.mem_cons_self

theorem issueSurvives_iff {json : Json} (hj : json.Inverts) {s : RestoreStore} {tokens : List String}
    (h : HoldsOnly json s tokens) {token : String} (hfresh : token ∉ tokens) (owner : String)
    (selection : StoredSelection)
    (written : Bool) :
    IssueSurvives json s token owner selection written ↔
      s.dataDir = none ∨
        (written = true ∧ Readable json (drainOldest maxDiskTokens (s.disk ++ [⟨token, selection⟩]))) := by
  simp only [IssueSurvives]
  cases hdir : s.dataDir with
  | none => simp [issue, hdir]
  | some dir =>
    let list := drainOldest maxDiskTokens (s.disk ++ [⟨token, selection⟩])
    have hissue :
        s.issue json token 1 owner selection written = ({ s with disk := list }.writeDisk json written, some token) := by
      simp [issue, hdir, list]
    simp only [hissue, Option.some.injEq, forall_eq', reloaded_restores_iff, reduceCtorEq, false_or]
    cases written with
    | false =>
      -- The old file holds no token that was not seen yet.
      simp only [Bool.false_eq_true, false_and, iff_false]
      intro hfind
      have hin := List.mem_of_find?_eq_some hfind
      have hold : (({ s with disk := list } : RestoreStore).writeDisk json false).reloaded json = s.reloaded json := by
        simp [RestoreStore.writeDisk, hdir, reloaded]
      rw [hold] at hin
      have hlist := reloaded_list json s none
      simp only [hdir, Option.bind_some] at hlist
      have hfile : ⟨token, selection⟩ ∈ (readStore json s.file).getD [] :=
        hlist ▸ (hin : _ ∈ (s.reloaded json).list none)
      exact hfresh (h.file _ hfile)
    | true =>
      have hdisk := reloaded_writeDisk hj (s := { s with disk := list }) hdir
      rw [hdisk]
      simp only [true_and, Readable]
      by_cases hlarge : maxStoreBytes < (json.toVec ⟨storeVersion, list⟩).length
      · simp only [if_pos hlarge, List.find?_nil, reduceCtorEq, false_iff]
        exact fun hle => absurd hlarge (Nat.not_lt.2 hle)
      · simp only [if_neg hlarge, Nat.not_lt.1 hlarge, list, iff_true]
        refine find_token (mem_drainOldest_last (by decide) _ _) rfl fun e he htoken => ?_
        rcases List.mem_append.1 (mem_of_mem_drainOldest he) with he | he
        · exact absurd (htoken ▸ h.disk e he) hfresh
        · exact List.mem_singleton.1 he

theorem readsBack_iff {json : Json} (hj : json.Inverts) {s : RestoreStore} (hnone : s.dataDir = none → s.disk = []) :
    ReadsBack json s ↔ s.disk = [] ∨ Readable json s.disk := by
  unfold ReadsBack
  cases hdir : s.dataDir with
  | none =>
    have hdisk := hnone hdir
    have hload := reloaded_list json (s.writeDisk json true) none
    simp only [writeDisk_dataDir, hdir, Option.bind_none, Option.getD_none] at hload
    have hload : ((s.writeDisk json true).reloaded json).disk = [] := hload
    simp [hload, hdisk]
  | some dir =>
    rw [reloaded_writeDisk hj hdir, Readable]
    split
    · next hlarge => simp [Nat.not_le.2 hlarge, eq_comm]
    · next hfits => simp [Nat.not_lt.1 hfits]

/-- In every reachable store: a fresh mode-1 token survives a restart exactly when its write went through and
left a readable file, and a disk list is read back exactly when its file is readable. -/
theorem durable_iff {json : Json} (hj : json.Inverts) (dataDir : Option String) (file : Option (List UInt8))
    (ops : List Op) {token : String} (hfresh : token ∉ seen json file ops) (owner : String)
    (selection : StoredSelection)
    (written : Bool) :
    let s := run json (load json dataDir file) ops
    (IssueSurvives json s token owner selection written ↔
      dataDir = none ∨
        (written = true ∧ Readable json (drainOldest maxDiskTokens (s.disk ++ [⟨token, selection⟩])))) ∧
    (ReadsBack json s ↔ s.disk = [] ∨ Readable json s.disk) := by
  intro s
  have hdir : s.dataDir = dataDir := run_dataDir json _ ops
  refine ⟨?_, readsBack_iff hj fun hno => ?_⟩
  · rw [issueSurvives_iff hj (run_holdsOnly hj dataDir file ops) hfresh, hdir]
  · obtain rfl : dataDir = none := hdir ▸ hno
    exact run_disk_of_none file ops

theorem serdeJson_inverts : StoreFile.serdeJson.Inverts := StoreFile.fromSlice_toVec

/-- The second token of a run reaches the disk, so the next daemon has it. -/
theorem durable_second_token :
    IssueSurvives StoreFile.serdeJson
      (run StoreFile.serdeJson (load StoreFile.serdeJson (some "/data") none)
        [.issue "a" 1 ":1.7" ⟨"app", .output "HDMI-A-1", 2⟩ true])
      "b" ":1.7" ⟨"app", .desktop, 1⟩ true :=
  (durable_iff serdeJson_inverts (some "/data") none [.issue "a" 1 ":1.7" ⟨"app", .output "HDMI-A-1", 2⟩ true]
    (by decide) ":1.7" ⟨"app", .desktop, 1⟩ true).1.2 (.inr ⟨rfl, by unfold Readable; decide +kernel⟩)

/-- The disk is full, or the application id is as long as the reader's limit: a token is returned, and lost. -/
theorem issued_and_lost :
    let s := load StoreFile.serdeJson (some "/data") none
    let long := String.ofList (List.replicate maxStoreBytes 'a')
    ¬ IssueSurvives StoreFile.serdeJson s "b" ":1.7" ⟨"app", .desktop, 1⟩ false ∧
      ¬ IssueSurvives StoreFile.serdeJson s "b" ":1.7" ⟨long, .desktop, 1⟩ true := by
  intro s long
  have hlen : long.length = maxStoreBytes := by simp [long]
  clear_value long
  have hseen : "b" ∉ seen StoreFile.serdeJson none [] := by decide
  have hiff := fun selection written =>
    issueSurvives_iff serdeJson_inverts (run_holdsOnly serdeJson_inverts (some "/data") none []) hseen ":1.7"
      selection written
  refine ⟨fun h => ?_, fun h => ?_⟩
  · rcases (hiff _ _).1 h with h | ⟨h, -⟩ <;> cases h
  · rcases (hiff _ _).1 h with h | ⟨-, h⟩
    · cases h
    · refine absurd h (Nat.not_le.2 ?_)
      have hlong : long.length < (StoreFile.toVec ⟨storeVersion, [⟨"b", long, .desktop, 1⟩]⟩).length :=
        @StoreFile.length_appId_lt ⟨storeVersion, [⟨"b", long, .desktop, 1⟩]⟩ ⟨"b", long, .desktop, 1⟩ List.mem_cons_self
      rw [hlen] at hlong
      exact hlong

end RestoreStore

end AtriumPortal.ScreenCast
