import AtriumPortal.Lib.Pool
import AtriumPortal.ScreenCast.Refused
/-!
# Transient tokens and their owner

SelectSources workers run next to each other and to the watcher of `lib.rs`, which
drops the mode-2 tokens of a bus name when the name leaves the bus. A worker waits
for dialogs, so it may issue its token after its caller has left; nothing drops that
token any more. `transient_tokens_die` is what holds when no issue comes that late.
-/
open AtriumPortal.Lib.Interact AtriumPortal.Lib.Runs AtriumPortal.Lib.Shelves AtriumPortal.Prompter AtriumPortal.Portal

namespace AtriumPortal.ScreenCast

namespace RestoreStore

/-- The bus names whose tokens a run dropped. -/
def departed (ops : List Op) : List String :=
  ops.filterMap fun
    | .dropOwner owner => some owner
    | _ => none

theorem mem_departed {ops : List Op} {owner : String} : owner ∈ departed ops ↔ .dropOwner owner ∈ ops := by
  simp only [departed, List.mem_filterMap]
  constructor
  · rintro ⟨op, hop, h⟩
    cases op with
    | dropOwner o =>
      cases h
      exact hop
    | _ => cases h
  · exact fun h => ⟨_, h, rfl⟩

end RestoreStore

namespace SelectSources

/-- One SelectSources call of the bus. -/
structure Call where
  requestPath : String
  sessionPath : String
  appId : String
  options : OptionsMap
  sender : Option String

/-- The desk, with the operations on its store so far. -/
structure Logged where
  desk : Desk
  ops : List RestoreStore.Op

/-- What an action does to the store. -/
def opsOf : (a : Action) → a.Answer → List RestoreStore.Op
  | .prune protocol outputs, written => [.prune (servableSource · protocol outputs) written]
  | .issue mode owner selection, issued => [.issue issued.drawn mode owner selection issued.written]
  | _, _ => []

/-- What happens beside the workers. -/
inductive Outside where
  /-- The requests as their objects and methods leave them. -/
  | tracker (tracker : RequestTracker)
  | casts (step : Casts.Step)
  | nameOwnerChanged (name : String) (newOwner : Option String)

def isUniqueName (name : String) : Bool := name.toList.head? == some ':'

/-- The watcher: only the departure of a unique name matters. -/
def Logged.nameOwnerChanged (s : Logged) (name : String) (newOwner : Option String) : Logged :=
  if newOwner.isNone && isUniqueName name then
    ⟨{ s.desk with store := s.desk.store.dropOwner name }, s.ops ++ [.dropOwner name]⟩
  else s

def Outside.apply (s : Logged) : Outside → Logged
  | .tracker t => { s with desk := { s.desk with tracker := t } }
  | .casts step => { s with desk := { s.desk with casts := (s.desk.casts.step step).getD s.desk.casts } }
  | .nameOwnerChanged name newOwner => s.nameOwnerChanged name newOwner

/-- The workers and the watcher. -/
def daemon (json : Json) : System Logged Outside Call Action Action.Answer Reply where
  program call := run call.sessionPath call.appId call.options call.sender
  answer call s a b :=
    let x := (desk json call.requestPath).answer s.desk a b
    (x.1, ⟨x.2, s.ops ++ opsOf a b⟩)
  move := Outside.apply

abbrev Daemon : Type := Pool Logged Call Action Action.Answer Reply

abbrev DaemonLabel : Type := Label Outside Call Action Action.Answer

/-- A daemon that has just loaded its store. -/
def startup (json : Json) (dataDir : Option String) (file : Option (List UInt8)) : Daemon :=
  System.start ⟨⟨⟨∅, ∅⟩, .load json dataDir file, .init⟩, []⟩

/-- The tokens drawn are new, and distinct. -/
def FreshTokens (json : Json) (file : Option (List UInt8)) (ops : List RestoreStore.Op) : Prop :=
  (RestoreStore.seen json file ops).Nodup

/-- For a bus name that the watcher saw leave and whose calls have all ended, no mode-2 token validates. -/
def TransientsDead (dataDir : Option String) (p : Daemon) : Prop :=
  ∀ owner, .dropOwner owner ∈ p.shared.ops →
    (∀ task ∈ p.tasks, task.call.sender = some owner → task.finished = true) →
    ∀ token selection, (∃ op ∈ p.shared.ops, op.grant? dataDir = some ⟨token, some owner, selection⟩) →
      ∀ values, p.shared.desk.store.Iterates values → ∀ appId servable,
        p.shared.desk.store.validate values token appId servable = none

/-- An issue of a mode-2 token comes before the watcher handled the departure of its owner. -/
def issuesInTime (p : Daemon) : DaemonLabel → Prop
  | .act i _ =>
    match p.next i with
    | some (.issue 2 owner _) => owner ∉ RestoreStore.departed p.shared.ops
    | _ => True
  | _ => True

instance (p : Daemon) (l : DaemonLabel) : Decidable (issuesInTime p l) := by
  unfold issuesInTime
  split
  · split <;> infer_instance
  · infer_instance

end SelectSources

/-! ## Where the tokens of a store are -/

namespace RestoreStore

variable {json : Json} {dataDir : Option String} {file : Option (List UInt8)}

/-- An entry is on the disk list since the start, or a grant of the run put it where it is. -/
theorem mem_run_list {ops : List Op} {k : Option String} {entry : StoredEntry}
    (h : entry ∈ (run json (load json dataDir file) ops).list k) :
    (k = none ∧ entry ∈ (readStore json file).getD []) ∨
      ∃ op ∈ ops, ∃ g, op.grant? dataDir = some g ∧ g.shelf = k ∧ g.entry = entry := by
  induction ops using List.reverseRecOn generalizing k entry with
  | nil =>
    left
    cases k with
    | none =>
      refine ⟨rfl, ?_⟩
      cases dataDir with
      | none => cases h
      | some dir => exact h
    | some owner => cases h
  | append_singleton ops op ih =>
    have kept : entry ∈ (run json (load json dataDir file) ops).list k →
        (k = none ∧ entry ∈ (readStore json file).getD []) ∨
          ∃ op' ∈ ops ++ [op], ∃ g, op'.grant? dataDir = some g ∧ g.shelf = k ∧ g.entry = entry := by
      intro hold
      rcases ih hold with hfile | ⟨op', hop', hg⟩
      · exact .inl hfile
      · exact .inr ⟨op', List.mem_append_left _ hop', hg⟩
    rw [run_append_singleton] at h
    cases op with
    | issue token mode owner selection written =>
      have hdir : (run json (load json dataDir file) ops).dataDir = dataDir := run_dataDir json _ ops
      simp only [RestoreStore.apply, issue_list, hdir] at h
      cases hg : grantOf dataDir token mode owner selection with
      | none => exact kept (by simpa [hg] using h)
      | some g =>
        simp only [hg] at h
        by_cases hk : g.shelf = k
        · simp only [hk, if_true] at h
          rcases List.mem_append.1 (mem_of_mem_drainOldest h) with hold | hnew
          · exact kept hold
          · -- The new entry is the grant of this issue.
            exact .inr ⟨_, List.mem_append_right _ List.mem_cons_self, g, hg, hk, (List.mem_singleton.1 hnew).symm⟩
        · exact kept (by simpa [hk] using h)
    | dropOwner owner =>
      simp only [RestoreStore.apply, dropOwner_list] at h
      split at h
      · cases h
      · exact kept h
    | prune servable written =>
      simp only [RestoreStore.apply, prune_list] at h
      exact kept (List.mem_filter.1 h).1
    | validate => exact kept h

/-- A token names its issue. -/
theorem op_of_token {ops : List Op} (hd : (drawn ops).Nodup) {op op' : Op} (hop : op ∈ ops) (hop' : op' ∈ ops)
    {token : String} (ht : op.token? = some token) (ht' : op'.token? = some token) : op = op' := by
  induction ops with
  | nil => cases hop
  | cons o ops ih =>
    have hdrawn : ∀ {x : Op}, x ∈ ops → x.token? = some token → token ∈ drawn ops := fun hx hxt =>
      List.mem_filterMap.2 ⟨_, hx, hxt⟩
    have htwice : ∀ {x : Op}, o.token? = some token → x ∈ ops → x.token? = some token → False := by
      intro x ho hx hxt
      have hcons : drawn (o :: ops) = token :: drawn ops := by simp [drawn, ho]
      rw [hcons] at hd
      exact (List.nodup_cons.1 hd).1 (hdrawn hx hxt)
    have hrest : (drawn ops).Nodup := hd.sublist ((List.sublist_cons_self o ops).filterMap _)
    rcases List.mem_cons.1 hop with rfl | htail
    · rcases List.mem_cons.1 hop' with rfl | htail'
      · rfl
      · exact (htwice ht htail' ht').elim
    · rcases List.mem_cons.1 hop' with rfl | htail'
      · exact (htwice ht' htail ht).elim
      · exact ih hrest htail htail'

/-- A grant is on disk, or with the owner of a mode-2 issue. -/
theorem grantOf_shelf {token owner : String} {mode : Nat} {selection : StoredSelection} {g : Grant}
    (h : grantOf dataDir token mode owner selection = some g) : g.shelf = none ∨ (mode = 2 ∧ g.shelf = some owner) := by
  unfold grantOf at h
  split at h
  · split at h <;> cases h
    exact .inl rfl
  · split at h <;> cases h
    exact .inr ⟨rfl, rfl⟩
  · cases h

end RestoreStore

namespace SelectSources

open RestoreStore

variable {json : Json} {dataDir : Option String} {file : Option (List UInt8)}

/-- An action does to the store what its operations do. -/
theorem desk_run (json : Json) (path : String) (d : Desk) (a : Action) (b : a.Answer) :
    ((desk json path).answer d a b).2.store = RestoreStore.run json d.store (opsOf a b) := by
  cases a with
  | register => cases b <;> rfl
  | markSourcesSelected session appId selection =>
    dsimp only [desk]
    split <;> rfl
  | _ => rfl

theorem departed_opsOf (ops : List Op) (a : Action) (b : a.Answer) : departed (ops ++ opsOf a b) = departed ops := by
  unfold departed
  rw [List.filterMap_append]
  cases a <;> simp [opsOf]

/-- The log tells the store, and the names that left have no tokens. -/
structure Collected (json : Json) (dataDir : Option String) (file : Option (List UInt8)) (s : Logged) : Prop where
  store : s.desk.store = RestoreStore.run json (load json dataDir file) s.ops
  gone : ∀ owner ∈ departed s.ops, s.desk.store.list (some owner) = []

/-- An action of a worker, unless it issues a token for a name that left. -/
theorem Collected.act {s : Logged} (h : Collected json dataDir file s) (path : String) (a : Action) (b : a.Answer)
    (htime : ∀ owner selection, a = .issue 2 owner selection → owner ∉ departed s.ops) :
    Collected json dataDir file ⟨((desk json path).answer s.desk a b).2, s.ops ++ opsOf a b⟩ := by
  constructor
  · show ((desk json path).answer s.desk a b).2.store = _
    rw [desk_run, h.store, RestoreStore.run, RestoreStore.run, RestoreStore.run, ← List.foldl_append]
  · intro owner howner
    rw [departed_opsOf] at howner
    have hempty := h.gone owner howner
    show ((desk json path).answer s.desk a b).2.store.list (some owner) = []
    by_cases hissue : ∃ mode owner selection, a = .issue mode owner selection
    · obtain ⟨mode, o, selection, rfl⟩ := hissue
      show ((s.desk.store.issue json (Issued.drawn b) mode o selection (Issued.written b)).1).list (some owner) = []
      rw [issue_list]
      split
      · next g hg =>
        rcases grantOf_shelf hg with hdisk | ⟨rfl, hshelf⟩
        · simp [hdisk, hempty]
        · -- The owner of the new token is still there.
          have hne : o ≠ owner := fun heq => htime o selection rfl (heq ▸ howner)
          simp [hshelf, hne, hempty]
      · exact hempty
    · push Not at hissue
      by_cases hprune : ∃ protocol outputs, a = .prune protocol outputs
      · obtain ⟨protocol, outputs, rfl⟩ := hprune
        show (s.desk.store.prune json (servableSource · protocol outputs) b).list (some owner) = []
        rw [prune_list, hempty]
        rfl
      · push Not at hprune
        rw [desk_store json path s.desk b hprune hissue]
        exact hempty

/-- The watcher drops what the name has. -/
theorem Collected.watch {s : Logged} (h : Collected json dataDir file s) (name : String) (newOwner : Option String) :
    Collected json dataDir file (s.nameOwnerChanged name newOwner) := by
  unfold Logged.nameOwnerChanged
  split
  · constructor
    · show s.desk.store.dropOwner name = _
      rw [run_append_singleton, ← h.store]
      rfl
    · intro owner howner
      show (s.desk.store.dropOwner name).list (some owner) = []
      rw [dropOwner_list]
      split
      · rfl
      · next hne =>
        have hold : owner ∈ departed s.ops := by
          have hsplit : owner ∈ departed s.ops ∨ owner = name := by simpa [departed] using howner
          exact hsplit.resolve_right fun heq => hne (congrArg some heq)
        exact h.gone owner hold
  · exact h

theorem Collected.outside {s : Logged} (h : Collected json dataDir file s) (m : Outside) :
    Collected json dataDir file (m.apply s) := by
  cases m with
  | tracker t => exact ⟨h.store, h.gone⟩
  | casts step => exact ⟨h.store, h.gone⟩
  | nameOwnerChanged name newOwner => exact h.watch name newOwner

/-- In every run whose mode-2 issues come before the watcher handled the departure of their owner. -/
theorem collected_reach {p : Daemon}
    (h : Reach (· = startup json dataDir file) (Guarded issuesInTime (daemon json).step) p) :
    Collected json dataDir file p.shared := by
  refine System.reach_shared (I := Collected json dataDir file) ?_ ?_ ?_ h
  · exact ⟨rfl, fun owner howner => nomatch howner⟩
  · intro p i b call a hc hg ha
    refine hc.act call.requestPath a (b a) ?_
    rintro owner selection rfl
    simpa [issuesInTime, ha] using hg
  · intro p m hc _
    exact hc.outside m

/-- Then the tokens of a name that left are gone for good. -/
theorem transient_tokens_die {p : Daemon}
    (h : Reach (· = startup json dataDir file) (Guarded issuesInTime (daemon json).step) p)
    (hfresh : FreshTokens json file p.shared.ops) : TransientsDead dataDir p := by
  have hc := collected_reach h
  obtain ⟨-, hdrawn, hapart⟩ := List.nodup_append.1 hfresh
  rintro owner hgone - token selection ⟨op, hop, hgrant⟩ values hv appId servable
  have htoken := grant?_token hgrant
  refine validate_absent hv (fun k entry he heq => ?_) appId servable
  rw [hc.store] at he
  rcases mem_run_list he with ⟨-, hfile⟩ | ⟨op', hop', g, hg, rfl, rfl⟩
  · exact hapart _ (List.mem_map_of_mem hfile) _ (List.mem_filterMap.2 ⟨op, hop, htoken⟩) heq
  · -- The entry has the token of the same issue, and is with the owner that left.
    have htoken' : op'.token? = some token := heq ▸ grant?_token hg
    obtain rfl := op_of_token hdrawn hop hop' htoken htoken'
    obtain rfl : _ = g := Option.some.inj (hgrant.symm.trans hg)
    have hempty := hc.gone owner (mem_departed.2 hgone)
    rw [hc.store] at hempty
    simp only [hempty] at he
    cases he

/-! ## A caller that leaves while it is asked -/

instance (json : Json) (file : Option (List UInt8)) (ops : List Op) : Decidable (FreshTokens json file ops) :=
  inferInstanceAs (Decidable (List.Nodup _))

/-- A client that takes monitors and windows and asks for a token for its lifetime. -/
def lifetime : OptionsMap := fun key =>
  if key = "types" then some (.u32 3) else if key = "persist_mode" then some (.u32 2) else none

/-- `:1.7` selects sources for its session; the watcher hears of its departure before the worker's action `left`. -/
def departsBefore (left : Nat) : List DaemonLabel :=
  let act : DaemonLabel := .act 0 ((closedBefore none).answer 0)
  [.move (.casts (.create "/s" "app")), .move (.casts (.export 0 false)),
    .spawn ⟨"/r", "/s", "app", lifetime, some ":1.7"⟩]
    ++ List.replicate left act ++ [.move (.nameOwnerChanged ":1.7" none)] ++ List.replicate (16 - left) act

/-- What a run leaves behind. -/
structure Leftover where
  departed : List String
  finished : Bool
  granted : List Grant
  fresh : Bool
  validated : Option (Nat × StoredSelection)
  deriving DecidableEq

def Leftover.of (p : Daemon) : Leftover where
  departed := RestoreStore.departed p.shared.ops
  finished := p.tasks.all Task.finished
  granted := p.shared.ops.filterMap (Op.grant? (some "/data"))
  fresh := decide (FreshTokens StoreFile.serdeJson none p.shared.ops)
  validated := p.shared.desk.store.validate (p.shared.desk.store.memory.entries.map (·.2)) "t" "app" fun _ => true

/-- It leaves during the last dialog: its token is issued all the same, and stays valid. -/
theorem departed_token_validates :
    ∃ p, exec (daemon StoreFile.serdeJson).step (startup StoreFile.serdeJson (some "/data") none) (departsBefore 13) =
      some p ∧
      FreshTokens StoreFile.serdeJson none p.shared.ops ∧ ¬ TransientsDead (some "/data") p := by
  have hrun : (exec (daemon StoreFile.serdeJson).step (startup StoreFile.serdeJson (some "/data") none)
      (departsBefore 13)).map Leftover.of =
        some ⟨[":1.7"], true, [⟨"t", some ":1.7", ⟨"app", .desktop, 1⟩⟩], true, some (2, ⟨"app", .desktop, 1⟩)⟩ := by
    decide +kernel
  obtain ⟨p, hp, hleft⟩ := Option.map_eq_some_iff.1 hrun
  obtain ⟨hgone, hfinished, hgranted, hfresh, hvalid⟩ := Leftover.mk.inj hleft
  refine ⟨p, hp, by simpa using hfresh, fun h => ?_⟩
  have hop : ∃ op ∈ p.shared.ops, op.grant? (some "/data") = some ⟨"t", some ":1.7", ⟨"app", .desktop, 1⟩⟩ :=
    List.mem_filterMap.1 (by rw [hgranted]; exact List.mem_cons_self)
  have hdead := h ":1.7" (mem_departed.1 (by rw [hgone]; exact List.mem_cons_self))
    (fun task htask _ => List.all_eq_true.1 hfinished task htask) "t" _ hop _ (List.Perm.refl _) "app" fun _ => true
  rw [hdead] at hvalid
  cases hvalid

/-- It leaves when its call is done: the token dies with it. -/
theorem departed_after_call :
    ∃ p, exec (Guarded issuesInTime (daemon StoreFile.serdeJson).step) (startup StoreFile.serdeJson (some "/data") none)
      (departsBefore 16) = some p ∧ TransientsDead (some "/data") p := by
  have hrun : (exec (Guarded issuesInTime (daemon StoreFile.serdeJson).step)
      (startup StoreFile.serdeJson (some "/data") none) (departsBefore 16)).map Leftover.of =
        some ⟨[":1.7"], true, [⟨"t", some ":1.7", ⟨"app", .desktop, 1⟩⟩], true, none⟩ := by
    decide +kernel
  obtain ⟨p, hp, hleft⟩ := Option.map_eq_some_iff.1 hrun
  obtain ⟨-, -, -, hfresh, -⟩ := Leftover.mk.inj hleft
  have hstart : Reach (· = startup StoreFile.serdeJson (some "/data") none)
      (Guarded issuesInTime (daemon StoreFile.serdeJson).step)
      (startup StoreFile.serdeJson (some "/data") none) := .init rfl
  exact ⟨p, hp, transient_tokens_die (hstart.exec hp) (by simpa using hfresh)⟩

end SelectSources

end AtriumPortal.ScreenCast
