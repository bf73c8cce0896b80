import AtriumPortal.ScreenCast.Persist
import Mathlib.Data.List.Induction
/-!
# What the restore store is for

A grant is a token with the selection it was issued for, on the disk shelf or on
the shelf of a bus name. A grant is live from its issue until it is evicted,
pruned or dropped with its owner. `Represents` relates the store to the live
grants in order of issue; every operation keeps it, so `validate` answers with
the live grants and nothing else.
-/
open AtriumPortal.Lib.Shelves

namespace AtriumPortal.ScreenCast

/-- `shelf` is `none` for a token on disk, else the owner of a token in memory. -/
structure Grant where
  token : String
  shelf : Option String
  selection : StoredSelection
  deriving DecidableEq, Repr

namespace Grant

def mode (g : Grant) : Nat := if g.shelf.isNone then 1 else 2

def entry (g : Grant) : StoredEntry := ⟨g.token, g.selection⟩

end Grant

/-- How many tokens a shelf keeps. -/
def cap : Option String → Nat
  | none => maxDiskTokens
  | some _ => maxMemoryTokensPerOwner

theorem cap_pos (k : Option String) : 0 < cap k := by
  cases k <;> simp [cap, maxDiskTokens, maxMemoryTokensPerOwner]

namespace RestoreStore

/-- The grant `issue` makes: mode 1 needs a data directory, mode 2 a bus name. -/
def grantOf (dataDir : Option String) (token : String) (mode : Nat) (owner : String) (selection : StoredSelection) :
    Option Grant :=
  match mode with
  | 1 => if dataDir.isSome then some ⟨token, none, selection⟩ else none
  | 2 => if owner = "" then none else some ⟨token, some owner, selection⟩
  | _ => none

def Op.grant? (dataDir : Option String) : Op → Option Grant
  | .issue token mode owner selection _ => grantOf dataDir token mode owner selection
  | _ => none

/-- What an operation does to the live grants. -/
def live1 (dataDir : Option String) (grants : List Grant) (op : Op) : List Grant :=
  match op with
  | .issue .. => match op.grant? dataDir with
    | some g => put Grant.shelf cap grants g
    | none => grants
  | .dropOwner owner => grants.filter (·.shelf ≠ some owner)
  | .prune servable _ => grants.filter fun g => g.shelf.isSome || servable g.selection.source
  | .validate .. => grants

/-- The live grants after a run, in order of issue. -/
def live (dataDir : Option String) (ops : List Op) : List Grant := ops.foldl (live1 dataDir) []

/-- The run issues the grant. -/
def Issued (dataDir : Option String) (ops : List Op) (g : Grant) : Prop := ∃ op ∈ ops, op.grant? dataDir = some g

inductive Fate where
  | evicted
  | dropped
  | pruned
  deriving DecidableEq, Repr

/-- The operation ends a grant that is live before it. -/
def Ends (dataDir : Option String) (before : List Grant) (op : Op) (g : Grant) : Fate → Prop
  | .evicted => ∃ new, op.grant? dataDir = some new ∧ Overflows Grant.shelf cap before new.shelf g
  | .dropped => ∃ owner, op = .dropOwner owner ∧ g.shelf = some owner
  | .pruned => ∃ servable written, op = .prune servable written ∧ g.shelf = none ∧ servable g.selection.source = false

/-- The run ended the grant. -/
def Ended (dataDir : Option String) (ops : List Op) (g : Grant) (fate : Fate) : Prop :=
  ∃ pre op post, ops = pre ++ op :: post ∧ g ∈ live dataDir pre ∧ Ends dataDir (live dataDir pre) op g fate

/-! ## The live grants of a run -/

theorem grantOf_token {dataDir : Option String} {token owner : String} {mode : Nat} {selection : StoredSelection}
    {g : Grant} (h : grantOf dataDir token mode owner selection = some g) : g.token = token := by
  unfold grantOf at h
  split at h
  · split at h <;> cases h
    rfl
  · split at h <;> cases h
    rfl
  · cases h

theorem grant?_token {dataDir : Option String} {op : Op} {g : Grant} (h : op.grant? dataDir = some g) :
    op.token? = some g.token := by
  cases op with
  | issue token mode owner selection written => exact congrArg some (grantOf_token h).symm
  | _ => cases h

theorem live_append_singleton (dataDir : Option String) (ops : List Op) (op : Op) :
    live dataDir (ops ++ [op]) = live1 dataDir (live dataDir ops) op := by
  simp [live]

/-- Live grants are in order of issue. -/
theorem live_tokens_sublist (dataDir : Option String) (ops : List Op) :
    ((live dataDir ops).map Grant.token).Sublist (drawn ops) := by
  induction ops using List.reverseRecOn with
  | nil => exact List.Sublist.refl _
  | append_singleton ops op ih =>
    have kept : ((live dataDir ops).map Grant.token).Sublist (drawn (ops ++ [op])) := by
      rw [drawn_append]
      exact ih.trans (List.sublist_append_left _ _)
    rw [live_append_singleton]
    cases op with
    | issue token mode owner selection written =>
      simp only [live1]
      split
      · next g hg =>
        have htoken : drawn [Op.issue token mode owner selection written] = [g.token] := by
          simp [drawn, grant?_token hg]
        rw [drawn_append, htoken]
        have hput : (put Grant.shelf cap (live dataDir ops) g).Sublist (live dataDir ops ++ [g]) := put_sublist _ _
        have htokens := hput.map Grant.token
        rw [List.map_append] at htokens
        exact htokens.trans (ih.append (List.Sublist.refl _))
      · exact kept
    | dropOwner owner => exact (List.filter_sublist.map _).trans kept
    | prune servable written => exact (List.filter_sublist.map _).trans kept
    | validate => exact kept

theorem live_fits (dataDir : Option String) (ops : List Op) : Fits Grant.shelf cap (live dataDir ops) := by
  induction ops using List.reverseRecOn with
  | nil => exact Fits.nil
  | append_singleton ops op ih =>
    rw [live_append_singleton]
    cases op with
    | issue =>
      simp only [live1]
      split
      · exact ih.put _
      · exact ih
    | dropOwner owner => exact ih.filter _
    | prune servable written => exact ih.filter _
    | validate => exact ih

/-- One operation: what is live after it was live and is not ended, or is new. -/
theorem mem_live1 {dataDir : Option String} {grants : List Grant} (hd : grants.Nodup) (op : Op) (g : Grant) :
    g ∈ live1 dataDir grants op ↔
      (g ∈ grants ∧ ∀ fate, ¬ Ends dataDir grants op g fate) ∨ op.grant? dataDir = some g := by
  cases op with
  | issue token mode owner selection written =>
    have hfate : (∀ fate, ¬ Ends dataDir grants (.issue token mode owner selection written) g fate) ↔
        ¬ Ends dataDir grants (.issue token mode owner selection written) g .evicted := by
      refine ⟨fun h => h .evicted, fun h fate => ?_⟩
      cases fate <;> simp_all [Ends]
    rw [hfate]
    simp only [live1]
    cases hg : Op.grant? dataDir (.issue token mode owner selection written) with
    | none => simp [Ends, hg]
    | some new =>
      simp only [mem_put hd (cap_pos new.shelf), Ends, hg, Option.some.injEq, exists_eq_left']
      rw [eq_comm (a := g)]
  | dropOwner owner =>
    have hfate : (∀ fate, ¬ Ends dataDir grants (.dropOwner owner) g fate) ↔ g.shelf ≠ some owner := by
      refine ⟨fun h he => h .dropped ⟨owner, rfl, he⟩, fun h fate => ?_⟩
      cases fate <;> simp_all [Ends, Op.grant?]
    rw [hfate]
    simp [live1, Op.grant?]
  | prune servable written =>
    have hfate : (∀ fate, ¬ Ends dataDir grants (.prune servable written) g fate) ↔
        (g.shelf.isSome || servable g.selection.source) = true := by
      constructor
      · intro h
        have := h .pruned
        cases hs : g.shelf <;> cases hv : servable g.selection.source <;> simp_all [Ends]
      · intro h fate
        cases fate <;> simp_all [Ends, Op.grant?]
        intro hs
        simpa [hs] using h
    rw [hfate]
    simp [live1, Op.grant?]
  | validate token appId servable =>
    have hfate : ∀ fate, ¬ Ends dataDir grants (.validate token appId servable) g fate := by
      intro fate
      cases fate <;> simp [Ends, Op.grant?]
    simp [live1, Op.grant?, hfate]

theorem ended_append_singleton {dataDir : Option String} {ops : List Op} {op : Op} {g : Grant} {fate : Fate} :
    Ended dataDir (ops ++ [op]) g fate ↔
      Ended dataDir ops g fate ∨ (g ∈ live dataDir ops ∧ Ends dataDir (live dataDir ops) op g fate) := by
  constructor
  · rintro ⟨pre, op', post, he, hg, hends⟩
    rcases List.eq_nil_or_concat post with rfl | ⟨post, last, rfl⟩
    · obtain ⟨hpre, hop⟩ := List.append_inj' he rfl
      subst hpre
      rw [List.singleton_inj.1 hop]
      exact .inr ⟨hg, hends⟩
    · have : ops ++ [op] = (pre ++ op' :: post) ++ [last] := by simp [he]
      exact .inl ⟨pre, op', post, (List.append_inj' this rfl).1, hg, hends⟩
  · rintro (⟨pre, op', post, rfl, hg, hends⟩ | ⟨hg, hends⟩)
    · exact ⟨pre, op', post ++ [op], by simp, hg, hends⟩
    · exact ⟨ops, op, [], rfl, hg, hends⟩

theorem drawn_of_live {dataDir : Option String} {ops : List Op} {g : Grant} (h : g ∈ live dataDir ops) :
    g.token ∈ drawn ops :=
  (live_tokens_sublist dataDir ops).subset (List.mem_map_of_mem h)

theorem drawn_of_ended {dataDir : Option String} {ops : List Op} {g : Grant} {fate : Fate}
    (h : Ended dataDir ops g fate) : g.token ∈ drawn ops := by
  obtain ⟨pre, op, post, rfl, hg, _⟩ := h
  rw [drawn_append]
  exact List.mem_append_left _ (drawn_of_live hg)

/-- A grant is live exactly when it was issued and nothing has ended it since. -/
theorem mem_live {dataDir : Option String} {ops : List Op} (hd : (drawn ops).Nodup) (g : Grant) :
    g ∈ live dataDir ops ↔ Issued dataDir ops g ∧ ∀ fate, ¬ Ended dataDir ops g fate := by
  induction ops using List.reverseRecOn with
  | nil => simp [live, Issued]
  | append_singleton ops op ih =>
    rw [drawn_append] at hd
    have hpre : (drawn ops).Nodup := (List.nodup_append.1 hd).1
    have hlive : (live dataDir ops).Nodup := (hpre.sublist (live_tokens_sublist dataDir ops)).of_map _
    have hissued : Issued dataDir (ops ++ [op]) g ↔ Issued dataDir ops g ∨ op.grant? dataDir = some g := by
      simp [Issued, or_and_right, exists_or]
    have hended : (∀ fate, ¬ Ended dataDir (ops ++ [op]) g fate) ↔ (∀ fate, ¬ Ended dataDir ops g fate) ∧
        ∀ fate, g ∈ live dataDir ops → ¬ Ends dataDir (live dataDir ops) op g fate := by
      simp only [ended_append_singleton, not_or, not_and, forall_and]
    rw [live_append_singleton, mem_live1 hlive, hissued, hended, ih hpre]
    constructor
    · rintro (⟨⟨hi, hne⟩, hends⟩ | hnew)
      · exact ⟨.inl hi, hne, fun fate _ => hends fate⟩
      · -- The token is drawn only now, so no earlier grant has it.
        have hfresh : g.token ∉ drawn ops := by
          have htoken : drawn [op] = [g.token] := by simp [drawn, grant?_token hnew]
          rw [htoken] at hd
          exact fun hm => (List.nodup_append.1 hd).2.2 _ hm _ (List.mem_singleton.2 rfl) rfl
        exact ⟨.inr hnew, fun fate he => hfresh (drawn_of_ended he),
          fun fate hl => absurd (drawn_of_live ((ih hpre).2 hl)) hfresh⟩
    · rintro ⟨hi | hnew, hne, hends⟩
      · exact .inl ⟨⟨hi, hne⟩, fun fate => hends fate ⟨hi, hne⟩⟩
      · exact .inr hnew

/-! ## The store represents the live grants -/

/-- Each list of the store holds the live grants of its shelf, oldest first. -/
def Represents (s : RestoreStore) (grants : List Grant) : Prop :=
  ∀ k, s.list k = (onShelf Grant.shelf grants k).map Grant.entry

/-- `issue` returns the token of the grant it makes. -/
theorem issue_token (json : Json) (s : RestoreStore) (token : String) (mode : Nat) (owner : String)
    (selection : StoredSelection) (written : Bool) :
    (s.issue json token mode owner selection written).2 =
      (grantOf s.dataDir token mode owner selection).map Grant.token := by
  unfold issue grantOf
  split
  · cases s.dataDir <;> rfl
  · simp only
    split <;> rfl
  · simp

/-- `issue` changes only the list of the grant it makes. -/
theorem issue_list (json : Json) (s : RestoreStore) (token : String) (mode : Nat) (owner : String)
    (selection : StoredSelection) (written : Bool) (k : Option String) :
    ((s.issue json token mode owner selection written).1).list k =
      match grantOf s.dataDir token mode owner selection with
      | some g => if g.shelf = k then drainOldest (cap k) (s.list k ++ [g.entry]) else s.list k
      | none => s.list k := by
  unfold issue grantOf
  split
  · cases s.dataDir with
    | none => rfl
    | some dir =>
      simp only [Option.isSome_some, if_true, writeDisk_list]
      cases k <;> simp [list, cap, Grant.entry]
  · simp only
    split
    · rfl
    · cases k with
      | none => rfl
      | some o =>
        by_cases ho : owner = o
        · subst ho
          simp [list, cap, Grant.entry]
        · simp [list, ho, AList.lookup_insert_ne (Ne.symm ho)]
  · simp

theorem dropOwner_list (s : RestoreStore) (owner : String) (k : Option String) :
    (s.dropOwner owner).list k = if k = some owner then [] else s.list k := by
  cases k with
  | none => rfl
  | some o =>
    by_cases ho : o = owner
    · subst ho
      simp [list, dropOwner]
    · simp [list, dropOwner, ho, AList.lookup_erase_ne ho]

theorem prune_list (json : Json) (s : RestoreStore) (servable : StoredSource → Bool) (written : Bool)
    (k : Option String) :
    (s.prune json servable written).list k =
      (s.list k).filter fun entry => k.isSome || servable entry.selection.source := by
  have h : (s.prune json servable written).list k =
      ({ s with disk := s.disk.filter (servable ·.selection.source) } : RestoreStore).list k := by
    unfold prune
    simp only
    split
    · exact writeDisk_list json _ written k
    · rfl
  rw [h]
  cases k with
  | none => rfl
  | some owner => simp [list]

theorem apply_dataDir (json : Json) (s : RestoreStore) (op : Op) : (apply json s op).dataDir = s.dataDir := by
  cases op with
  | issue token mode owner selection written =>
    simp only [apply, issue]
    split
    · split <;> simp_all
    · split <;> rfl
    · rfl
  | dropOwner => rfl
  | prune servable written =>
    simp only [apply, prune]
    split
    · exact writeDisk_dataDir json _ written
    · rfl
  | validate => rfl

theorem map_drainOldest {A B : Type} (f : A → B) (n : Nat) (items : List A) :
    (drainOldest n items).map f = drainOldest n (items.map f) := by
  unfold drainOldest
  simp only [List.length_map]
  split
  · rw [List.map_drop]
  · rfl

/-- Every operation of the store does to its lists what it does to the grants. -/
theorem Represents.apply {s : RestoreStore} {grants : List Grant} (h : s.Represents grants)
    (hf : Fits Grant.shelf cap grants) (json : Json) (op : Op) :
    (RestoreStore.apply json s op).Represents (live1 s.dataDir grants op) := by
  intro k
  cases op with
  | issue token mode owner selection written =>
    simp only [RestoreStore.apply, issue_list, live1, Op.grant?]
    cases grantOf s.dataDir token mode owner selection with
    | none => exact h k
    | some g =>
      by_cases hk : g.shelf = k
      · subst hk
        simp only [if_true, onShelf_put_self hf, map_drainOldest, List.map_append, List.map_cons, List.map_nil]
        rw [h g.shelf]
      · simp only [hk, if_false, onShelf_put_other hk]
        exact h k
  | dropOwner owner =>
    simp only [RestoreStore.apply, dropOwner_list, live1, onShelf_filter]
    split
    · next hk =>
      subst hk
      rw [List.filter_eq_nil_iff.2 fun g hg => by simp [(mem_onShelf.1 hg).2], List.map_nil]
    · next hk =>
      rw [List.filter_eq_self.2 fun g hg => by simpa [(mem_onShelf.1 hg).2] using hk]
      exact h k
  | prune servable written =>
    simp only [RestoreStore.apply, prune_list, live1, onShelf_filter, h k, List.filter_map]
    congr 1
    exact List.filter_congr fun g hg => by simp [(mem_onShelf.1 hg).2, Grant.entry]
  | validate => exact h k

theorem run_append_singleton (json : Json) (s : RestoreStore) (ops : List Op) (op : Op) :
    run json s (ops ++ [op]) = apply json (run json s ops) op := by
  simp [run]

theorem run_dataDir (json : Json) (s : RestoreStore) (ops : List Op) : (run json s ops).dataDir = s.dataDir := by
  induction ops using List.reverseRecOn with
  | nil => rfl
  | append_singleton ops op ih => rw [run_append_singleton, apply_dataDir, ih]

theorem run_represents (json : Json) (dataDir : Option String) (file : Option (List UInt8)) (ops : List Op) :
    (run json (empty dataDir file) ops).Represents (live dataDir ops) := by
  induction ops using List.reverseRecOn with
  | nil => intro k; simp [run, live]
  | append_singleton ops op ih =>
    rw [run_append_singleton, live_append_singleton]
    have hdir : (run json (empty dataDir file) ops).dataDir = dataDir := run_dataDir json (empty dataDir file) ops
    have := ih.apply (live_fits dataDir ops) json op
    rwa [hdir] at this

/-! ## Validation -/

/-- Looking a token up finds the one entry that has it. -/
theorem find_token {entries : List StoredEntry} {token : String} {entry : StoredEntry} (hm : entry ∈ entries)
    (ht : entry.token = token) (hu : ∀ e ∈ entries, e.token = token → e = entry) :
    entries.find? (·.token = token) = some entry := by
  cases hf : entries.find? (·.token = token) with
  | none => exact absurd ht (by simpa using List.find?_eq_none.1 hf entry hm)
  | some e =>
    have he : e.token = token := by simpa using List.find?_some hf
    rw [hu e (List.mem_of_find?_eq_some hf) he]

theorem Represents.mem_list {s : RestoreStore} {grants : List Grant} (h : s.Represents grants) {k : Option String}
    {e : StoredEntry} : e ∈ s.list k ↔ ∃ g ∈ grants, g.shelf = k ∧ g.entry = e := by
  rw [h k]
  simp [mem_onShelf, and_assoc]

/-- The answer to a token some grant has. -/
theorem validate_of_grant {s : RestoreStore} {grants : List Grant} (h : s.Represents grants)
    (hd : (grants.map Grant.token).Nodup) {values : List (List StoredEntry)} (hv : s.Iterates values)
    {g : Grant} (hg : g ∈ grants) (appId : String) (servable : StoredSource → Bool) :
    s.validate values g.token appId servable =
      if g.selection.appId = appId ∧ servable g.selection.source then some (g.mode, g.selection) else none := by
  -- No other grant has this token.
  have unique : ∀ g' ∈ grants, g'.token = g.token → g' = g :=
    fun g' hg' he => List.inj_on_of_nodup_map hd hg' hg he
  have hu : ∀ k, ∀ e ∈ s.list k, e.token = g.token → k = g.shelf ∧ e = g.entry := by
    intro k e he ht
    obtain ⟨g', hg', rfl, rfl⟩ := h.mem_list.1 he
    rw [unique g' hg' ht]
    exact ⟨rfl, rfl⟩
  unfold validate
  cases hs : g.shelf with
  | some owner =>
    have hm : g.entry ∈ values.flatten := (mem_values hv).2 ⟨owner, h.mem_list.2 ⟨g, hg, hs, rfl⟩⟩
    have hfind : values.flatten.find? (·.token = g.token) = some g.entry := by
      refine find_token hm rfl fun e he ht => ?_
      obtain ⟨o, he⟩ := (mem_values hv).1 he
      exact (hu _ e he ht).2
    have hmode : g.mode = 2 := by simp [Grant.mode, hs]
    rw [hfind, hmode]
    rfl
  | none =>
    have hnone : values.flatten.find? (·.token = g.token) = none := by
      refine List.find?_eq_none.2 fun e he => ?_
      obtain ⟨o, he⟩ := (mem_values hv).1 he
      intro ht
      have := (hu _ e he (by simpa using ht)).1
      rw [hs] at this
      cases this
    have hm : g.entry ∈ s.list none := h.mem_list.2 ⟨g, hg, hs, rfl⟩
    have hfind : s.disk.find? (·.token = g.token) = some g.entry :=
      find_token hm rfl fun e he ht => (hu none e he ht).2
    have hmode : g.mode = 1 := by simp [Grant.mode, hs]
    rw [hnone, hfind, hmode]
    rfl

/-- No list holds the token, so nobody is granted it. -/
theorem validate_absent {s : RestoreStore} {values : List (List StoredEntry)} (hv : s.Iterates values) {token : String}
    (hno : ∀ k, ∀ e ∈ s.list k, e.token ≠ token) (appId : String) (servable : StoredSource → Bool) :
    s.validate values token appId servable = none := by
  have hvalues : values.flatten.find? (·.token = token) = none := by
    refine List.find?_eq_none.2 fun e he => ?_
    obtain ⟨o, he⟩ := (mem_values hv).1 he
    simpa using hno _ e he
  have hdisk : s.disk.find? (·.token = token) = none :=
    List.find?_eq_none.2 fun e he => by simpa using hno none e he
  simp [validate, hvalues, hdisk]

theorem validate_unknown {s : RestoreStore} {grants : List Grant} (h : s.Represents grants)
    {values : List (List StoredEntry)} (hv : s.Iterates values) {token : String}
    (hn : ∀ g ∈ grants, g.token ≠ token) (appId : String) (servable : StoredSource → Bool) :
    s.validate values token appId servable = none := by
  refine validate_absent hv (fun k e he => ?_) appId servable
  obtain ⟨g, hg, -, rfl⟩ := h.mem_list.1 he
  exact hn g hg

/-- `validate` answers with the grants the store represents. -/
theorem validate_iff {s : RestoreStore} {grants : List Grant} (h : s.Represents grants)
    (hd : (grants.map Grant.token).Nodup) {values : List (List StoredEntry)} (hv : s.Iterates values)
    (token appId : String) (servable : StoredSource → Bool) (mode : Nat) (selection : StoredSelection) :
    s.validate values token appId servable = some (mode, selection) ↔
      ∃ g ∈ grants, g.token = token ∧ g.mode = mode ∧ g.selection = selection ∧ selection.appId = appId ∧
        servable selection.source = true := by
  constructor
  · intro hval
    by_cases hex : ∃ g ∈ grants, g.token = token
    · obtain ⟨g, hg, rfl⟩ := hex
      rw [validate_of_grant h hd hv hg] at hval
      split at hval
      · next hok =>
        cases hval
        exact ⟨g, hg, rfl, rfl, rfl, hok⟩
      · cases hval
    · rw [validate_unknown h hv fun g hg ht => hex ⟨g, hg, ht⟩] at hval
      cases hval
  · rintro ⟨g, hg, rfl, rfl, rfl, hok⟩
    rw [validate_of_grant h hd hv hg, if_pos hok]

/-! ## Evictions -/

/-- Draining a list that is within its cap removes at most its head. -/
theorem lost_by_drain {B : Type} {n : Nat} {items : List B} {new b : B} (hle : items.length ≤ n) (hb : b ∈ items)
    (hlost : b ∉ drainOldest n (items ++ [new])) :
    items.length = n ∧ ∃ rest, items = b :: rest ∧ drainOldest n (items ++ [new]) = rest ++ [new] := by
  unfold drainOldest at hlost ⊢
  split at hlost
  · next hfull =>
    have hlen : items.length = n := by simp at hfull; omega
    rw [if_pos hfull]
    have hone : (items ++ [new]).length - n = 1 := by simp; omega
    rw [hone] at hlost ⊢
    cases items with
    | nil => cases hb
    | cons a rest =>
      simp only [List.cons_append, List.drop_one, List.tail_cons] at hlost ⊢
      rcases List.mem_cons.1 hb with rfl | hb
      · exact ⟨hlen, rest, rfl, rfl⟩
      · exact absurd (List.mem_append_left _ hb) hlost
  · exact absurd (List.mem_append_left _ hb) hlost

/-- An entry that an issue removes was the oldest of a full list. -/
theorem lost_by_issue {json : Json} {s : RestoreStore} {op : Op} {k : Option String} {entry : StoredEntry}
    (hle : (s.list k).length ≤ cap k) (hop : op.token?.isSome) (hbefore : entry ∈ s.list k)
    (hafter : entry ∉ (apply json s op).list k) :
    (s.list k).length = cap k ∧ ∃ rest new, s.list k = entry :: rest ∧ (apply json s op).list k = rest ++ [new] := by
  cases op with
  | issue token mode owner selection written =>
    simp only [apply, issue_list] at hafter ⊢
    cases hg : grantOf s.dataDir token mode owner selection with
    | none => simp only [hg] at hafter; exact absurd hbefore hafter
    | some g =>
      simp only [hg] at hafter ⊢
      by_cases hk : g.shelf = k
      · simp only [hk, if_true] at hafter ⊢
        obtain ⟨hlen, rest, hrest, he⟩ := lost_by_drain hle hbefore hafter
        exact ⟨hlen, rest, g.entry, hrest, he⟩
      · simp only [hk, if_false] at hafter
        exact absurd hbefore hafter
  | dropOwner => cases hop
  | prune => cases hop
  | validate => cases hop

/-! ## Safety over whole runs -/

/-- What a run from an empty store leaves behind. -/
structure StoreSafe (json : Json) (dataDir : Option String) (file : Option (List UInt8)) (ops : List Op) : Prop where
  /-- A token validates exactly while its grant is live, for its application and source. -/
  validates : ∀ values, (run json (empty dataDir file) ops).Iterates values →
    ∀ token appId servable mode selection,
      (run json (empty dataDir file) ops).validate values token appId servable = some (mode, selection) ↔
        ∃ g, g.token = token ∧ g.mode = mode ∧ g.selection = selection ∧ Issued dataDir ops g ∧
          (∀ fate, ¬ Ended dataDir ops g fate) ∧ selection.appId = appId ∧ servable selection.source = true
  disk_le : (run json (empty dataDir file) ops).disk.length ≤ maxDiskTokens
  memory_le : ∀ owner entries, (run json (empty dataDir file) ops).memory.lookup owner = some entries →
    entries.length ≤ maxMemoryTokensPerOwner
  /-- What an issue removes is the head of a full list, whose entries are in order of issue. -/
  evicts_oldest : ∀ pre op post, ops = pre ++ op :: post → op.token?.isSome → ∀ k entry,
    entry ∈ (run json (empty dataDir file) pre).list k →
    entry ∉ (run json (empty dataDir file) (pre ++ [op])).list k →
      ((run json (empty dataDir file) pre).list k).length = cap k ∧
      (((run json (empty dataDir file) pre).list k).map StoredEntry.token).Sublist (drawn pre) ∧
      ∃ rest new, (run json (empty dataDir file) pre).list k = entry :: rest ∧
        (run json (empty dataDir file) (pre ++ [op])).list k = rest ++ [new]

theorem list_le_cap (json : Json) (dataDir : Option String) (file : Option (List UInt8)) (ops : List Op)
    (k : Option String) : ((run json (empty dataDir file) ops).list k).length ≤ cap k := by
  rw [run_represents json dataDir file ops k, List.length_map]
  exact live_fits dataDir ops k

theorem list_in_order (json : Json) (dataDir : Option String) (file : Option (List UInt8)) (ops : List Op)
    (k : Option String) : (((run json (empty dataDir file) ops).list k).map StoredEntry.token).Sublist (drawn ops) := by
  rw [run_represents json dataDir file ops k, List.map_map]
  have hshelf : (onShelf Grant.shelf (live dataDir ops) k).Sublist (live dataDir ops) := List.filter_sublist
  exact (hshelf.map Grant.token).trans (live_tokens_sublist dataDir ops)

/-- With distinct tokens the store validates exactly the live grants, within its
caps, and evicts the oldest first. -/
theorem restore_store_safe (json : Json) (dataDir : Option String) (file : Option (List UInt8)) (ops : List Op)
    (hd : (drawn ops).Nodup) : StoreSafe json dataDir file ops where
  validates := by
    intro values hv token appId servable mode selection
    have htokens : ((live dataDir ops).map Grant.token).Nodup := hd.sublist (live_tokens_sublist dataDir ops)
    rw [validate_iff (run_represents json dataDir file ops) htokens hv]
    refine exists_congr fun g => ?_
    rw [mem_live hd]
    tauto
  disk_le := list_le_cap json dataDir file ops none
  memory_le := by
    intro owner entries hl
    simpa [list, hl, cap] using list_le_cap json dataDir file ops (some owner)
  evicts_oldest := by
    rintro pre op post rfl hop k entry hbefore hafter
    rw [run_append_singleton] at hafter ⊢
    obtain ⟨hlen, rest, new, hrest, he⟩ := lost_by_issue (list_le_cap json dataDir file pre k) hop hbefore hafter
    exact ⟨hlen, list_in_order json dataDir file pre k, rest, new, hrest, he⟩

/-- Two applications with a token each; one bus name has left, and the disk token's
output is gone. -/
theorem restore_store_safe_shown : StoreSafe ⟨fun _ => [], fun _ => none⟩ (some "data") none
    [.issue "a" 1 ":1.1" ⟨"app", .output "HDMI-A-1", 1⟩ true, .issue "b" 2 ":1.2" ⟨"app", .desktop, 1⟩ true,
     .dropOwner ":1.2", .prune (· == .desktop) true] :=
  restore_store_safe _ _ _ _ (by decide)

end RestoreStore

end AtriumPortal.ScreenCast
