import AtriumPortal.ScreenCast.Casts
import AtriumPortal.Lib.Entries
/-!
# Incarnations of a session path

Who still holds a session's path: `ties` lists the parties with the incarnation
they were made for. `Unconfused` is what a portal with one session per path ever
could not violate. It holds in every run in which a path is taken again only
when nothing of its earlier session is left, and a Start reserves only below the
limit with the Starts that outlived their session.
-/
open AtriumPortal.Lib.Table AtriumPortal.Lib.Entries AtriumPortal.Lib.Runs

namespace AtriumPortal.ScreenCast

def StartPhase.thread? : StartPhase → Option Nat
  | .reserved => none
  | .negotiating thread => some thread
  | .installing thread => some thread
  | .joining thread _ => some thread

def Dispatcher.jobs : Dispatcher → List CloseJob
  | .received job => [job]
  | _ => []

namespace Casts

/-- The paths held, each for the incarnation its holder was made for. -/
def ties (s : Casts) : List (String × Nat) :=
  s.workers.map (fun w => (w.path, w.incarnation)) ++
    (s.sending ++ s.jobs ++ s.dispatcher.jobs).map (fun j => (j.path, j.incarnation)) ++
    (s.threads.filter (!·.exited)).map (fun t => (t.path, t.incarnation)) ++
    s.exported.entries.map (fun e => (e.1, e.2)) ++ s.creating

/-- The ties, and the sessions themselves. -/
def holders (s : Casts) : List (String × Nat) :=
  s.ties ++ s.registry.sessions.entries.map fun e => (e.1, e.2.incarnation)

/-- The incarnations that have a cast, starting or live. -/
def casts (s : Casts) : List Nat :=
  s.workers.map (·.incarnation) ++ (s.registry.sessions.entries.filter (·.2.installed)).map (·.2.incarnation)

/-- Starts whose session is gone, or is another one by now. -/
def orphans (s : Casts) : List StartWorker :=
  s.workers.filter fun w => (s.registry.sessions.lookup w.path).all (·.incarnation ≠ w.incarnation)

/-- A cast is installed in the incarnation whose Start reserved it, each
incarnation has at most one cast, there are at most `maxLiveCasts`, and a job
closes the incarnation it was issued for. -/
structure Unconfused (s : Casts) : Prop where
  installed : ∀ p session t, s.registry.sessions.lookup p = some session → session.castThread = some t →
    ∃ thread, s.threads[t]? = some thread ∧ thread.incarnation = session.incarnation
  one_cast : s.casts.Nodup
  bounded : s.casts.length ≤ maxLiveCasts
  closes : ∀ c ∈ s.closes, c.1 = c.2

/-- A path is taken only when nothing of an earlier session holds it, and a Start
reserves only while the counted casts and the orphaned Starts are below the limit. -/
def fresh (s : Casts) : Step → Bool
  | .create path _ => decide (path ∉ s.ties.map (·.1))
  | .reserve _ _ => decide (s.registry.liveCasts + s.orphans.length < maxLiveCasts)
  | _ => true

def Fresh (s : Casts) (l : Step) : Prop := s.fresh l = true

instance : ∀ s l, Decidable (Fresh s l) := fun s l => inferInstanceAs (Decidable (s.fresh l = true))

theorem mem_ties {s : Casts} {x : String × Nat} : x ∈ s.ties ↔
    (∃ w ∈ s.workers, (w.path, w.incarnation) = x) ∨
      (∃ j ∈ s.sending ++ s.jobs ++ s.dispatcher.jobs, (j.path, j.incarnation) = x) ∨
      (∃ t ∈ s.threads, t.exited = false ∧ (t.path, t.incarnation) = x) ∨
      s.exported.lookup x.1 = some x.2 ∨ x ∈ s.creating := by
  have hexp : (∃ e ∈ s.exported.entries, (e.1, e.2) = x) ↔ s.exported.lookup x.1 = some x.2 := by
    rw [← mem_entries]
    exact ⟨fun ⟨e, he, hx⟩ => hx ▸ he, fun h => ⟨_, h, rfl⟩⟩
  simp only [ties, List.mem_append, List.mem_map, List.mem_filter, Bool.not_eq_true', and_assoc, or_assoc, ← hexp]

theorem mem_holders {s : Casts} {p : String} {i : Nat} : (p, i) ∈ s.holders ↔
    (p, i) ∈ s.ties ∨ ∃ session, s.registry.sessions.lookup p = some session ∧ session.incarnation = i := by
  simp only [holders, List.mem_append, List.mem_map, Prod.mk.injEq]
  refine or_congr_right ⟨?_, ?_⟩
  · rintro ⟨⟨k, session⟩, hin, rfl, rfl⟩
    exact ⟨session, mem_entries.1 hin, rfl⟩
  · rintro ⟨session, hl, rfl⟩
    exact ⟨⟨p, session⟩, mem_entries.2 hl, rfl, rfl⟩

/-- The invariant of the runs whose steps are `Fresh`. -/
structure Coherent (s : Casts) : Prop where
  /-- Who holds the path of a session holds it for that session. -/
  tied : ∀ p i session, (p, i) ∈ s.ties → s.registry.sessions.lookup p = some session → session.incarnation = i
  known : ∀ p i, (p, i) ∈ s.holders → i < s.registry.next
  one_path : ∀ p q i, (p, i) ∈ s.holders → (q, i) ∈ s.holders → p = q
  alone : (s.workers.map (·.path)).Nodup
  starting : ∀ w ∈ s.workers, ∀ session, s.registry.sessions.lookup w.path = some session →
    session.starting = true ∧ session.castThread = none
  spawned : ∀ w ∈ s.workers, ∀ t, w.phase.thread? = some t →
    ∃ thread, s.threads[t]? = some thread ∧ thread.incarnation = w.incarnation
  installed : ∀ p session t, s.registry.sessions.lookup p = some session → session.castThread = some t →
    ∃ thread, s.threads[t]? = some thread ∧ thread.incarnation = session.incarnation
  bounded : s.workers.length + count CastSession.installed s.registry.sessions ≤ maxLiveCasts
  closes : ∀ c ∈ s.closes, c.1 = c.2

theorem tie_worker {s : Casts} {w : StartWorker} (h : w ∈ s.workers) : (w.path, w.incarnation) ∈ s.ties :=
  mem_ties.2 (.inl ⟨w, h, rfl⟩)

/-- What holds of the ties of `s` holds of those of `s'`, when it holds of what is new in the parts of `s'`. -/
theorem ties_of {s s' : Casts} {P : String × Nat → Prop} (old : ∀ x ∈ s.ties, P x)
    (w : ∀ w ∈ s'.workers, w ∈ s.workers ∨ P (w.path, w.incarnation) := by exact fun _ h => .inl h)
    (j : ∀ j ∈ s'.sending ++ s'.jobs ++ s'.dispatcher.jobs,
      j ∈ s.sending ++ s.jobs ++ s.dispatcher.jobs ∨ P (j.path, j.incarnation) := by exact fun _ h => .inl h)
    (t : ∀ t ∈ s'.threads, t.exited = false → t ∈ s.threads ∨ P (t.path, t.incarnation) := by exact fun _ h _ => .inl h)
    (e : ∀ x, s'.exported.lookup x.1 = some x.2 → s.exported.lookup x.1 = some x.2 ∨ P x := by exact fun _ h => .inl h)
    (c : ∀ x ∈ s'.creating, x ∈ s.creating ∨ P x := by exact fun _ h => .inl h) : ∀ x ∈ s'.ties, P x := by
  intro x hx
  rcases mem_ties.1 hx with ⟨worker, hw, rfl⟩ | ⟨job, hj, rfl⟩ | ⟨thread, ht, hrun, rfl⟩ | he | hc
  · exact (w worker hw).elim (fun hin => old _ (mem_ties.2 (.inl ⟨worker, hin, rfl⟩))) id
  · exact (j job hj).elim (fun hin => old _ (mem_ties.2 (.inr (.inl ⟨job, hin, rfl⟩)))) id
  · exact (t thread ht hrun).elim (fun hin => old _ (mem_ties.2 (.inr (.inr (.inl ⟨thread, hin, hrun, rfl⟩))))) id
  · exact (e x he).elim (fun hin => old _ (mem_ties.2 (.inr (.inr (.inr (.inl hin)))))) id
  · exact (c x hc).elim (fun hin => old _ (mem_ties.2 (.inr (.inr (.inr (.inr hin)))))) id

theorem holds_tie {s : Casts} {p : String} {i : Nat} (h : (p, i) ∈ s.ties) : (p, i) ∈ s.holders :=
  mem_holders.2 (.inl h)

theorem holds_session {s : Casts} {p : String} {session : CastSession}
    (h : s.registry.sessions.lookup p = some session) : (p, session.incarnation) ∈ s.holders :=
  mem_holders.2 (.inr ⟨session, h, rfl⟩)

theorem length_casts (s : Casts) :
    s.casts.length = s.workers.length + count CastSession.installed s.registry.sessions := by
  simp [casts, count, List.countP_eq_length_filter]

/-- The invariant gives the property. -/
theorem Coherent.unconfused {s : Casts} (h : Coherent s) : Unconfused s where
  installed := h.installed
  closes := h.closes
  bounded := by rw [length_casts]; exact h.bounded
  one_cast := by
    unfold casts
    refine List.nodup_append.2 ⟨?_, ?_, ?_⟩
    · -- Two workers of one incarnation have one path, and paths are different.
      have halone := h.alone
      rw [List.nodup_iff_pairwise_ne, List.pairwise_map] at halone ⊢
      exact halone.imp_of_mem fun hx hy hne he =>
        hne (h.one_path _ _ _ (holds_tie (tie_worker hx)) (he ▸ holds_tie (tie_worker hy)))
    · have hkeys := s.registry.sessions.nodupKeys
      rw [List.NodupKeys, List.keys, List.nodup_iff_pairwise_ne, List.pairwise_map] at hkeys
      rw [List.nodup_iff_pairwise_ne, List.pairwise_map]
      refine (hkeys.sublist List.filter_sublist).imp_of_mem fun hx hy hne he => hne ?_
      have hlx := holds_session (mem_entries.1 (List.mem_filter.1 hx).1)
      have hly := holds_session (mem_entries.1 (List.mem_filter.1 hy).1)
      exact h.one_path _ _ _ hlx (he ▸ hly)
    · -- A session with a Start at work has no cast yet.
      intro a ha b hb hab
      obtain ⟨w, hw, rfl⟩ := List.mem_map.1 ha
      obtain ⟨⟨k, session⟩, he, rfl⟩ := List.mem_map.1 hb
      obtain ⟨hin, hinst⟩ := List.mem_filter.1 he
      have hl := mem_entries.1 hin
      obtain rfl := h.one_path _ _ _ (holds_tie (tie_worker hw)) (hab ▸ holds_session hl)
      have hsome : session.castThread.isSome = true := hinst
      simp [(h.starting w hw _ hl).2] at hsome

/-! ## Steps that leave the sessions and their Starts alone -/

/-- Nothing new holds a path, and what is left of sessions, workers and threads is as before. -/
structure Tame (s s' : Casts) : Prop where
  next : s'.registry.next = s.registry.next
  sessions : ∀ p session', s'.registry.sessions.lookup p = some session' →
    ∃ session, s.registry.sessions.lookup p = some session ∧ session'.incarnation = session.incarnation ∧
      session'.starting = session.starting ∧ session'.castThread = session.castThread
  ties : ∀ x ∈ s'.ties, x ∈ s.ties
  paths : (s'.workers.map (·.path)).Sublist (s.workers.map (·.path))
  workers : ∀ w' ∈ s'.workers, ∃ w ∈ s.workers, w'.path = w.path ∧ w'.incarnation = w.incarnation ∧
    ∀ t, w'.phase.thread? = some t → w.phase.thread? = some t
  threads : ∀ (t : Nat) (thread : CastThread), s.threads[t]? = some thread →
    ∃ thread' : CastThread, s'.threads[t]? = some thread' ∧ thread'.incarnation = thread.incarnation
  counted : count CastSession.installed s'.registry.sessions ≤ count CastSession.installed s.registry.sessions
  closes : ∀ c ∈ s'.closes, c ∈ s.closes ∨ c.1 = c.2

theorem Tame.holders {s s' : Casts} (h : Tame s s') {p : String} {i : Nat} (hx : (p, i) ∈ s'.holders) :
    (p, i) ∈ s.holders := by
  rcases mem_holders.1 hx with ht | ⟨session', hl, rfl⟩
  · exact holds_tie (h.ties _ ht)
  · obtain ⟨session, hl, hi, -⟩ := h.sessions p session' hl
    exact mem_holders.2 (.inr ⟨session, hl, hi.symm⟩)

theorem Coherent.tame {s s' : Casts} (hc : Coherent s) (h : Tame s s') : Coherent s' where
  tied p i session' ht hl := by
    obtain ⟨session, hl, hi, -⟩ := h.sessions p session' hl
    exact hi.trans (hc.tied p i session (h.ties _ ht) hl)
  known p i hx := h.next ▸ hc.known p i (h.holders hx)
  one_path p q i hp hq := hc.one_path p q i (h.holders hp) (h.holders hq)
  alone := hc.alone.sublist h.paths
  starting w' hw' session' hl := by
    obtain ⟨w, hw, hp, -⟩ := h.workers w' hw'
    obtain ⟨session, hl, -, hs, ht⟩ := h.sessions _ session' hl
    obtain ⟨hstart, hnone⟩ := hc.starting w hw session (hp ▸ hl)
    exact ⟨hs.trans hstart, ht.trans hnone⟩
  spawned w' hw' t ht := by
    obtain ⟨w, hw, -, hi, hph⟩ := h.workers w' hw'
    obtain ⟨thread, hth, hti⟩ := hc.spawned w hw t (hph t ht)
    obtain ⟨thread', hth', hti'⟩ := h.threads t thread hth
    exact ⟨thread', hth', by rw [hti', hti, hi]⟩
  installed p session' t hl ht := by
    obtain ⟨session, hl, hi, -, hct⟩ := h.sessions p session' hl
    obtain ⟨thread, hth, hti⟩ := hc.installed p session t hl (hct ▸ ht)
    obtain ⟨thread', hth', hti'⟩ := h.threads t thread hth
    exact ⟨thread', hth', by rw [hti', hti, hi]⟩
  bounded := by
    have hlen : s'.workers.length ≤ s.workers.length := by simpa using h.paths.length_le
    have hcount := h.counted
    have hb := hc.bounded
    omega
  closes c hcl := (h.closes c hcl).elim (hc.closes c) id

theorem Tame.trans {s s' s'' : Casts} (h : Tame s s') (h' : Tame s' s'') : Tame s s'' where
  next := h'.next.trans h.next
  sessions p session'' hl := by
    obtain ⟨session', hl', hi', hs', ht'⟩ := h'.sessions p session'' hl
    obtain ⟨session, hl, hi, hs, ht⟩ := h.sessions p session' hl'
    exact ⟨session, hl, hi'.trans hi, hs'.trans hs, ht'.trans ht⟩
  ties x hx := h.ties x (h'.ties x hx)
  paths := h'.paths.trans h.paths
  workers w'' hw'' := by
    obtain ⟨w', hw', hp', hi', hph'⟩ := h'.workers w'' hw''
    obtain ⟨w, hw, hp, hi, hph⟩ := h.workers w' hw'
    exact ⟨w, hw, hp'.trans hp, hi'.trans hi, fun t ht => hph t (hph' t ht)⟩
  threads t thread ht := by
    obtain ⟨thread', ht', hi'⟩ := h.threads t thread ht
    obtain ⟨thread'', ht'', hi''⟩ := h'.threads t thread' ht'
    exact ⟨thread'', ht'', hi''.trans hi'⟩
  counted := Nat.le_trans h'.counted h.counted
  closes c hc := (h'.closes c hc).elim (h.closes c) .inr

/-- Only the queue, the dispatcher or the exported objects change. -/
theorem tame_of_same {s s' : Casts} (hr : s'.registry = s.registry) (hw : s'.workers = s.workers)
    (ht : s'.threads = s.threads) (hc : s'.closes = s.closes) (hties : ∀ x ∈ s'.ties, x ∈ s.ties) : Tame s s' where
  next := by rw [hr]
  sessions p session hl := ⟨session, hr ▸ hl, rfl, rfl, rfl⟩
  ties := hties
  paths := by rw [hw]
  workers w hin := ⟨w, hw ▸ hin, rfl, rfl, fun _ h => h⟩
  threads t thread h := ⟨thread, ht ▸ h, rfl⟩
  counted := by rw [hr]
  closes c h := .inl (hc ▸ h)

theorem tame_push (s : Casts) {job : CloseJob} (h : (job.path, job.incarnation) ∈ s.ties) : Tame s (s.push job) := by
  refine tame_of_same rfl rfl rfl rfl (ties_of (fun _ hx => hx) (j := fun other hj => ?_))
  simp only [push, List.append_assoc, List.mem_append, List.mem_singleton] at hj ⊢
  rcases hj with hj | rfl | hj
  · exact .inl (.inl hj)
  · exact .inr h
  · exact .inl (.inr hj)

/-- Only the threads change, and none of them comes back to life. -/
theorem tame_threads (s : Casts) {threads : List CastThread}
    (hold : ∀ (t : Nat) (thread : CastThread), s.threads[t]? = some thread →
      ∃ thread' : CastThread, threads[t]? = some thread' ∧ thread'.incarnation = thread.incarnation)
    (hties : ∀ t ∈ threads, t.exited = false → (t.path, t.incarnation) ∈ s.ties) :
    Tame s { s with threads := threads } where
  next := rfl
  sessions p session hl := ⟨session, hl, rfl, rfl, rfl⟩
  ties := ties_of (fun _ hx => hx) (t := fun t hin hrun => .inr (hties t hin hrun))
  paths := List.Sublist.refl _
  workers w hin := ⟨w, hin, rfl, rfl, fun _ h => h⟩
  threads := hold
  counted := Nat.le_refl _
  closes c h := .inl h

theorem tie_thread {s : Casts} {t : CastThread} (h : t ∈ s.threads) (hrun : t.exited = false) :
    (t.path, t.incarnation) ∈ s.ties :=
  mem_ties.2 (.inr (.inr (.inl ⟨t, h, hrun, rfl⟩)))

theorem tame_dropStop (s : Casts) (thread : Nat) : Tame s (s.dropStop thread) := by
  refine tame_threads s (fun t old h => ?_) fun t hin hrun => ?_
  · simp only [List.getElem?_modify, h]
    split
    · exact ⟨_, rfl, rfl⟩
    · exact ⟨old, rfl, rfl⟩
  · rcases mem_modify hin with hold | ⟨old, hold, rfl⟩
    · exact tie_thread hold hrun
    · exact tie_thread (t := old) hold hrun

theorem tame_dropStop? (s : Casts) (thread : Option Nat) : Tame s (s.dropStop? thread) := by
  cases thread with
  | none => exact tame_of_same rfl rfl rfl rfl fun _ h => h
  | some thread => exact tame_dropStop s thread

theorem tame_setThread (s : Casts) {t : Nat} {old new : CastThread} (h : s.threads[t]? = some old)
    (hrun : old.exited = false) (hp : new.path = old.path) (hi : new.incarnation = old.incarnation) :
    Tame s (s.setThread t new) := by
  refine tame_threads s (fun t' thread h' => ?_) fun thread hin _ => ?_
  · by_cases ht : t = t'
    · subst ht
      have hlt : t < s.threads.length := (List.getElem?_eq_some_iff.1 h).1
      obtain rfl : old = thread := Option.some.inj (h.symm.trans h')
      exact ⟨new, by simp [hlt], hi⟩
    · exact ⟨thread, by simp [List.getElem?_set_ne ht, h'], rfl⟩
  · rcases List.mem_or_eq_of_mem_set hin with hin | rfl
    · exact tie_thread hin ‹_›
    · rw [hp, hi]
      exact tie_thread (List.mem_of_getElem? h) hrun

theorem tame_erase (s : Casts) (path : String) :
    Tame s { s with registry := (s.registry.remove path).2 } where
  next := rfl
  sessions p session hl := by
    by_cases hp : p = path
    · subst hp
      simp [SessionRegistry.remove] at hl
    · exact ⟨session, by simpa [SessionRegistry.remove, AList.lookup_erase_ne hp] using hl, rfl, rfl, rfl⟩
  ties x hx := hx
  paths := List.Sublist.refl _
  workers w hin := ⟨w, hin, rfl, rfl, fun _ h => h⟩
  threads t thread h := ⟨thread, h, rfl⟩
  counted := count_erase_le
  closes c h := .inl h

theorem tame_discard (s : Casts) (path : String) : Tame s (s.discard path) :=
  (tame_erase s path).trans (tame_dropStop? _ _)

/-- A session is replaced by one with the same incarnation, flag and cast. -/
theorem tame_update (s : Casts) {path : String} {session session' : CastSession}
    (hl : s.registry.sessions.lookup path = some session) (hi : session'.incarnation = session.incarnation)
    (hs : session'.starting = session.starting) (ht : session'.castThread = session.castThread)
    (armed : List (Nat × StartSelection)) :
    Tame s { s with
      registry := { s.registry with sessions := s.registry.sessions.insert path session' }
      armed := armed } where
  next := rfl
  sessions p old hold := by
    rcases lookup_insert_cases hold with ⟨rfl, rfl⟩ | ⟨-, hold⟩
    · exact ⟨session, hl, hi, hs, ht⟩
    · exact ⟨old, hold, rfl, rfl, rfl⟩
  ties x hx := hx
  paths := List.Sublist.refl _
  workers w hin := ⟨w, hin, rfl, rfl, fun _ h => h⟩
  threads t thread h := ⟨thread, h, rfl⟩
  counted := by
    have hcount := count_replace (p := CastSession.installed) (w := session') hl
    have hinst : session'.installed = session.installed := by simp [CastSession.installed, ht]
    rw [hinst] at hcount
    show count CastSession.installed (s.registry.sessions.insert path session') ≤ _
    omega
  closes c h := .inl h

theorem tame_select {s s' : Casts} {path appId : String} {selection : StartSelection}
    (h : s.select path appId selection = .ok s') : Tame s s' := by
  unfold select at h
  split at h
  · cases h
  · next registry hm =>
    obtain ⟨session, hl, -, -, rfl⟩ := SessionRegistry.markSourcesSelected_eq_ok hm
    cases h
    refine tame_update s hl ?_ ?_ ?_ _ <;> rfl

theorem tie_creating {s : Casts} {x : String × Nat} (h : x ∈ s.creating) : x ∈ s.ties :=
  mem_ties.2 (.inr (.inr (.inr (.inr h))))

theorem tie_exported {s : Casts} {p : String} {i : Nat} (h : s.exported.lookup p = some i) : (p, i) ∈ s.ties :=
  mem_ties.2 (.inr (.inr (.inr (.inl h))))

theorem tie_job {s : Casts} {j : CloseJob} (h : j ∈ s.sending ++ s.jobs ++ s.dispatcher.jobs) :
    (j.path, j.incarnation) ∈ s.ties :=
  mem_ties.2 (.inr (.inl ⟨j, h, rfl⟩))

theorem tame_export (s : Casts) {k : Nat} {call : String × Nat} (h : s.creating[k]? = some call) (failed : Bool) :
    Tame s (s.exportObject k failed call.1 call.2) := by
  have hcall : call ∈ s.creating := List.mem_of_getElem? h
  have hdrop : Tame s { s with creating := s.creating.eraseIdx k } := by
    exact tame_of_same rfl rfl rfl rfl (ties_of (fun _ hx => hx) (c := fun _ hc => .inl (List.mem_of_mem_eraseIdx hc)))
  dsimp only [exportObject]
  split
  · exact hdrop.trans (tame_discard _ _)
  · refine tame_of_same rfl rfl rfl rfl (ties_of (fun _ hx => hx) (e := fun x he => ?_)
      (c := fun _ hc => .inl (List.mem_of_mem_eraseIdx hc)))
    -- The exported object is the one of the call.
    rcases lookup_insert_cases he with ⟨h₁, h₂⟩ | ⟨-, he⟩
    · exact .inr (tie_creating ((Prod.ext h₁ h₂ : x = call) ▸ hcall))
    · exact .inl he

theorem tame_send (s : Casts) {k : Nat} {job : CloseJob} (h : s.sending[k]? = some job) :
    Tame s { s with sending := s.sending.eraseIdx k, jobs := s.jobs ++ [job] } := by
  have hjob : job ∈ s.sending := List.mem_of_getElem? h
  refine tame_of_same rfl rfl rfl rfl (ties_of (fun _ hx => hx) (j := fun j hj => .inl ?_))
  simp only [List.append_assoc, List.mem_append, List.mem_singleton] at hj ⊢
  rcases hj with hj | hj | rfl | hj
  · exact .inl (List.mem_of_mem_eraseIdx hj)
  · exact .inr (.inl hj)
  · exact .inl hjob
  · exact .inr (.inr hj)

/-- The dispatcher takes the session of a job that was issued for it. -/
theorem tame_removeSession {s : Casts} (hc : Coherent s) {job : CloseJob} (hd : s.dispatcher = .received job) :
    Tame s (s.removeSession job) := by
  have hjob : (job.path, job.incarnation) ∈ s.ties := tie_job (by simp [hd, Dispatcher.jobs])
  have hties : ∀ (s' : Casts), s'.workers = s.workers → s'.sending = s.sending → s'.jobs = s.jobs →
      s'.dispatcher.jobs = [] → s'.threads = s.threads → s'.exported = s.exported → s'.creating = s.creating →
      ∀ x ∈ s'.ties, x ∈ s.ties := by
    intro s' hw hs hj hdj ht he hcr
    refine ties_of (fun _ hx => hx) (fun _ h => .inl (hw ▸ h)) (fun j hin => .inl ?_) (fun _ h _ => .inl (ht ▸ h))
      (fun _ h => .inl (he ▸ h)) (fun _ h => .inl (hcr ▸ h))
    rw [hs, hj, hdj, List.append_nil] at hin
    exact List.mem_append_left _ hin
  unfold removeSession
  split
  · exact tame_of_same rfl rfl rfl rfl (hties _ rfl rfl rfl rfl rfl rfl rfl)
  · next session registry hr =>
    obtain ⟨hl, rfl⟩ : s.registry.sessions.lookup job.path = some session ∧ registry = (s.registry.remove job.path).2 := by
      simp only [SessionRegistry.remove, Prod.mk.injEq] at hr
      exact ⟨hr.1, hr.2.symm⟩
    refine Tame.trans ?_ (tame_dropStop? _ _)
    exact { tame_erase s job.path with
      ties := hties _ rfl rfl rfl rfl rfl rfl rfl
      closes := fun c hin => by
        rcases List.mem_append.1 hin with hin | hin
        · exact .inl hin
        · obtain rfl := List.mem_singleton.1 hin
          exact .inr (hc.tied _ _ _ hjob hl).symm }

theorem tame_dropWorker (s : Casts) (w : Nat) : Tame s (s.dropWorker w) where
  next := rfl
  sessions p session hl := ⟨session, hl, rfl, rfl, rfl⟩
  ties := ties_of (fun _ hx => hx) (w := fun _ hw => .inl (List.mem_of_mem_eraseIdx hw))
  paths := (List.eraseIdx_sublist _ _).map _
  workers worker hin := ⟨worker, List.mem_of_mem_eraseIdx hin, rfl, rfl, fun _ h => h⟩
  threads t thread h := ⟨thread, h, rfl⟩
  counted := Nat.le_refl _
  closes c h := .inl h

/-! ## Steps that change who has a cast -/

/-- A Start that is done leaves its session in any state of its own cast. -/
theorem Coherent.finish {s : Casts} (hc : Coherent s) {w : Nat} {worker : StartWorker} {session session' : CastSession}
    (hw : s.workers[w]? = some worker) (hl : s.registry.sessions.lookup worker.path = some session)
    (hi : session'.incarnation = session.incarnation)
    (ht : ∀ t, session'.castThread = some t →
      ∃ thread : CastThread, s.threads[t]? = some thread ∧ thread.incarnation = session.incarnation) :
    Coherent ({ s with
      registry := { s.registry with sessions := s.registry.sessions.insert worker.path session' } }.dropWorker w) := by
  have hdrop := hc.tame (tame_dropWorker s w)
  have hheld : ∀ p i, (p, i) ∈ ({ s with
      registry := { s.registry with sessions := s.registry.sessions.insert worker.path session' } }.dropWorker w).holders →
      (p, i) ∈ (s.dropWorker w).holders := by
    intro p i hx
    rcases mem_holders.1 hx with hx | ⟨old, hold, rfl⟩
    · exact holds_tie hx
    · rcases lookup_insert_cases hold with ⟨rfl, rfl⟩ | ⟨-, hold⟩
      · rw [hi]; exact holds_session hl
      · exact holds_session hold
  have hmem : worker ∈ s.workers := List.mem_of_getElem? hw
  refine { hdrop with
    tied := fun p i old hx hold => ?_
    known := fun p i hx => hdrop.known p i (hheld p i hx)
    one_path := fun p q i hp hq => hdrop.one_path p q i (hheld p i hp) (hheld q i hq)
    starting := fun w' hw' old hold => ?_
    installed := fun p old t hold hct => ?_
    bounded := ?_ }
  · rcases lookup_insert_cases hold with ⟨rfl, rfl⟩ | ⟨-, hold⟩
    · exact hi.trans (hdrop.tied _ i session hx hl)
    · exact hdrop.tied p i old hx hold
  · rcases lookup_insert_cases hold with ⟨hp, rfl⟩ | ⟨-, hold⟩
    · -- No other Start works on this path.
      exfalso
      obtain ⟨j, hj, hjw⟩ := List.mem_eraseIdx_iff_getElem?.1 hw'
      have hlt : j < (s.workers.map (·.path)).length := by simpa using (List.getElem?_eq_some_iff.1 hjw).1
      have hpj : (s.workers.map (·.path))[j]? = (s.workers.map (·.path))[w]? := by simp [hjw, hw, hp]
      exact hj ((List.getElem?_inj hlt hc.alone).1 hpj)
    · exact hdrop.starting w' hw' old hold
  · rcases lookup_insert_cases hold with ⟨rfl, rfl⟩ | ⟨-, hold⟩
    · obtain ⟨thread, hth, hti⟩ := ht t hct
      exact ⟨thread, hth, hti.trans hi.symm⟩
    · exact hc.installed p old t hold hct
  · have hcount := count_replace (p := CastSession.installed) (w := session') hl
    have hlt : w < s.workers.length := (List.getElem?_eq_some_iff.1 hw).1
    have hlen : (s.workers.eraseIdx w).length = s.workers.length - 1 := by simp [List.length_eraseIdx, hlt]
    have hone : session'.installed.toNat ≤ 1 := Bool.toNat_le _
    have hb := hc.bounded
    show (s.workers.eraseIdx w).length + count CastSession.installed (s.registry.sessions.insert worker.path session') ≤ _
    omega

theorem Coherent.clear {s : Casts} (hc : Coherent s) {w : Nat} {worker : StartWorker} (hw : s.workers[w]? = some worker) :
    Coherent ({ s with registry := s.registry.clearStart worker.path }.dropWorker w) := by
  unfold SessionRegistry.clearStart
  split
  · exact hc.tame (tame_dropWorker s w)
  · next session hl => exact hc.finish hw hl rfl fun t ht => hc.installed _ session t hl ht

theorem Coherent.setPhase {s : Casts} (hc : Coherent s) {w : Nat} {worker : StartWorker} {phase : StartPhase}
    (hw : s.workers[w]? = some worker)
    (ht : ∀ t, phase.thread? = some t →
      ∃ thread : CastThread, s.threads[t]? = some thread ∧ thread.incarnation = worker.incarnation) :
    Coherent (s.setPhase w phase) := by
  have hworkers : ∀ w' ∈ s.workers.modify w fun worker => { worker with phase := phase },
      ∃ old ∈ s.workers, w'.path = old.path ∧ w'.incarnation = old.incarnation := by
    intro w' hin
    rcases mem_modify hin with hold | ⟨old, hold, rfl⟩
    · exact ⟨w', hold, rfl, rfl⟩
    · exact ⟨old, hold, rfl, rfl⟩
  have hties : ∀ x ∈ (s.setPhase w phase).ties, x ∈ s.ties := by
    refine ties_of (fun _ hx => hx) (w := fun w' hin => .inr ?_)
    obtain ⟨old, hold, hp, hi⟩ := hworkers w' hin
    exact hp ▸ hi ▸ tie_worker hold
  have hheld : ∀ p i, (p, i) ∈ (s.setPhase w phase).holders → (p, i) ∈ s.holders := by
    intro p i hx
    rcases mem_holders.1 hx with hx | hs
    · exact holds_tie (hties _ hx)
    · exact mem_holders.2 (.inr hs)
  have hpaths : (s.workers.modify w fun worker => { worker with phase := phase }).map (·.path) = s.workers.map (·.path) := by
    apply List.ext_getElem?
    intro j
    simp only [List.getElem?_map, List.getElem?_modify]
    split <;> simp [Function.comp_def]
  refine { hc with
    tied := fun p i session hx hl => hc.tied p i session (hties _ hx) hl
    known := fun p i hx => hc.known p i (hheld p i hx)
    one_path := fun p q i hp hq => hc.one_path p q i (hheld p i hp) (hheld q i hq)
    alone := hpaths ▸ hc.alone
    starting := fun w' hin session hl => ?_
    spawned := fun w' hin t hph => ?_
    bounded := by simpa [Casts.setPhase] using hc.bounded }
  · obtain ⟨old, hold, hp, -⟩ := hworkers w' hin
    exact hc.starting old hold session (hp ▸ hl)
  · obtain ⟨j, hj⟩ := List.mem_iff_getElem?.1 hin
    simp only [Casts.setPhase, List.getElem?_modify] at hj
    split at hj
    · next hwj =>
      subst hwj
      rw [hw] at hj
      cases hj
      exact ht t hph
    · have hold : s.workers[j]? = some w' := by simpa using hj
      exact hc.spawned w' (List.mem_of_getElem? hold) t hph

theorem Coherent.spawn {s : Casts} (hc : Coherent s) {w : Nat} {worker : StartWorker} (hw : s.workers[w]? = some worker)
    (failed : Bool) : Coherent (s.spawn w worker failed) := by
  have hmem : worker ∈ s.workers := List.mem_of_getElem? hw
  unfold Casts.spawn
  split
  · exact hc.clear hw
  · dsimp only
    refine (hc.tame (tame_threads s (fun t thread h => ?_) fun t hin _ => ?_)).setPhase hw fun t ht => ?_
    · exact ⟨thread, by rw [List.getElem?_append_left (List.getElem?_eq_some_iff.1 h).1, h], rfl⟩
    · rcases List.mem_append.1 hin with hin | hin
      · exact tie_thread hin ‹_›
      · obtain rfl := List.mem_singleton.1 hin
        exact tie_worker hmem
    · obtain rfl : s.threads.length = t := Option.some.inj ht
      exact ⟨_, List.getElem?_concat_length, rfl⟩

theorem dropStop?_dropWorker (s : Casts) (thread : Option Nat) (w : Nat) :
    (s.dropStop? thread).dropWorker w = (s.dropWorker w).dropStop? thread := by
  cases thread <;> rfl

theorem Coherent.install {s : Casts} (hc : Coherent s) {w : Nat} {worker : StartWorker} {thread : Nat}
    (hw : s.workers[w]? = some worker) (hph : worker.phase.thread? = some thread) :
    Coherent (s.install w worker thread) := by
  have hth := hc.spawned worker (List.mem_of_getElem? hw) thread hph
  unfold Casts.install
  split
  · next registry hm =>
    obtain ⟨session, hl, rfl⟩ := SessionRegistry.markStarted_eq_some hm
    have htied := hc.tied _ _ session (tie_worker (List.mem_of_getElem? hw)) hl
    rw [dropStop?_dropWorker]
    refine (hc.finish hw hl ?_ fun t ht => ?_).tame (tame_dropStop? _ _)
    · rfl
    · obtain rfl : thread = t := Option.some.inj ht
      exact htied ▸ hth
  · exact (hc.tame (tame_dropStop s thread)).setPhase hw fun t ht => by
      obtain rfl : thread = t := Option.some.inj ht
      obtain ⟨old, hold, hi⟩ := hth
      obtain ⟨new, hnew, hi'⟩ := (tame_dropStop s thread).threads thread old hold
      exact ⟨new, hnew, hi'.trans hi⟩

/-- Stop a cast and go to the join. -/
theorem Coherent.stopAndJoin {s : Casts} (hc : Coherent s) {w : Nat} {worker : StartWorker} {thread : Nat} (clear : Bool)
    (hw : s.workers[w]? = some worker) (hph : worker.phase.thread? = some thread) :
    Coherent ((s.dropStop thread).setPhase w (.joining thread clear)) := by
  refine (hc.tame (tame_dropStop s thread)).setPhase hw fun t ht => ?_
  obtain rfl : thread = t := Option.some.inj ht
  obtain ⟨old, hold, hi⟩ := hc.spawned worker (List.mem_of_getElem? hw) thread hph
  obtain ⟨new, hnew, hi'⟩ := (tame_dropStop s thread).threads thread old hold
  exact ⟨new, hnew, hi'.trans hi⟩

/-- The dispatcher or the exported objects change, and nothing new holds a path. -/
theorem Coherent.dispatched {s s' : Casts} (hc : Coherent s) (hr : s'.registry = s.registry)
    (hw : s'.workers = s.workers) (ht : s'.threads = s.threads) (hcl : s'.closes = s.closes)
    (hcr : s'.creating = s.creating)
    (hj : ∀ j ∈ s'.sending ++ s'.jobs ++ s'.dispatcher.jobs, j ∈ s.sending ++ s.jobs ++ s.dispatcher.jobs)
    (he : ∀ p i, s'.exported.lookup p = some i → s.exported.lookup p = some i) : Coherent s' := by
  exact hc.tame (tame_of_same hr hw ht hcl (ties_of (fun _ hx => hx) (fun _ h => .inl (hw ▸ h)) (fun j h => .inl (hj j h))
    (fun _ h _ => .inl (ht ▸ h)) (fun x h => .inl (he x.1 x.2 h)) (fun _ h => .inl (hcr ▸ h))))

/-- A path that nothing holds gets a session of its own. -/
theorem Coherent.create {s : Casts} (hc : Coherent s) {path appId : String} {registry : SessionRegistry}
    (hfresh : path ∉ s.ties.map (·.1)) (h : s.registry.insert path appId = .ok registry) :
    Coherent { s with registry := registry, creating := s.creating ++ [(path, s.registry.next)] } := by
  obtain ⟨hno, rfl⟩ := SessionRegistry.insert_eq_ok h
  have hfree : ∀ i, (path, i) ∉ s.ties := fun i hi => hfresh (List.mem_map.2 ⟨_, hi, rfl⟩)
  have hties : ∀ x ∈ ({ s with
      registry := ⟨s.registry.sessions.insert path (.fresh appId s.registry.next), s.registry.next + 1⟩
      creating := s.creating ++ [(path, s.registry.next)] } : Casts).ties, x ∈ s.ties ∨ x = (path, s.registry.next) := by
    refine ties_of (fun _ => .inl) (c := fun x hcr => ?_)
    exact (List.mem_append.1 hcr).imp_right fun hnew => .inr (List.mem_singleton.1 hnew)
  have hheld : ∀ p i, (p, i) ∈ ({ s with
      registry := ⟨s.registry.sessions.insert path (.fresh appId s.registry.next), s.registry.next + 1⟩
      creating := s.creating ++ [(path, s.registry.next)] } : Casts).holders →
      (p, i) ∈ s.holders ∨ (p = path ∧ i = s.registry.next) := by
    intro p i hx
    rcases mem_holders.1 hx with hx | ⟨old, hold, rfl⟩
    · exact (hties _ hx).imp holds_tie Prod.mk.inj
    · rcases lookup_insert_cases hold with ⟨rfl, rfl⟩ | ⟨-, hold⟩
      · exact .inr ⟨rfl, rfl⟩
      · exact .inl (holds_session hold)
  refine { hc with
    tied := fun p i old hx hold => ?_
    known := fun p i hx => ?_
    one_path := fun p q i hp hq => ?_
    starting := fun w hw old hold => ?_
    installed := fun p old t hold hct => ?_
    bounded := ?_ }
  · rcases lookup_insert_cases hold with ⟨rfl, rfl⟩ | ⟨hp, hold⟩
    · rcases hties _ hx with hx | he
      · exact absurd hx (hfree i)
      · cases he
        rfl
    · rcases hties _ hx with hx | he
      · exact hc.tied p i old hx hold
      · cases he
        exact absurd rfl hp
  · rcases hheld p i hx with hx | ⟨-, rfl⟩
    · exact Nat.lt_succ_of_lt (hc.known p i hx)
    · exact Nat.lt_succ_self _
  · -- The new incarnation is not one of the old holders'.
    rcases hheld p i hp with hp' | ⟨rfl, rfl⟩ <;> rcases hheld q _ hq with hq' | ⟨rfl, hi⟩
    · exact hc.one_path p q i hp' hq'
    · exact absurd (hc.known p i hp') (by omega)
    · exact absurd (hc.known q _ hq') (by omega)
    · rfl
  · rcases lookup_insert_cases hold with ⟨hp, -⟩ | ⟨-, hold⟩
    · exact absurd (hp ▸ tie_worker (s := s) hw) (hfree _)
    · exact hc.starting w hw old hold
  · rcases lookup_insert_cases hold with ⟨rfl, rfl⟩ | ⟨-, hold⟩
    · cases hct
    · exact hc.installed p old t hold hct
  · show s.workers.length + count CastSession.installed (s.registry.sessions.insert path (.fresh appId s.registry.next)) ≤ _
    rw [count_insert_new hno]
    exact hc.bounded

/-- Starts that still work for the session at their path are counted by it. -/
theorem Coherent.counted {s : Casts} (hc : Coherent s) :
    s.workers.length + count CastSession.installed s.registry.sessions ≤ s.registry.liveCasts + s.orphans.length := by
  have hsplit : (s.workers.filter fun w => !(s.registry.sessions.lookup w.path).all (·.incarnation ≠ w.incarnation)).length +
      s.orphans.length = s.workers.length := by
    unfold orphans
    have h := List.length_eq_length_filter_add (l := s.workers) fun w =>
      !(s.registry.sessions.lookup w.path).all (·.incarnation ≠ w.incarnation)
    simp only [Bool.not_not] at h
    omega
  have hattached : (s.workers.filter fun w =>
      !(s.registry.sessions.lookup w.path).all (·.incarnation ≠ w.incarnation)).length ≤
      count (fun session => session.starting && !session.installed) s.registry.sessions := by
    rw [← List.length_map (·.path)]
    refine length_le_count (hc.alone.sublist (List.filter_sublist.map _)) fun p hp => ?_
    obtain ⟨w, hw, rfl⟩ := List.mem_map.1 hp
    obtain ⟨hin, hatt⟩ := List.mem_filter.1 hw
    cases hl : s.registry.sessions.lookup w.path with
    | none => simp [hl] at hatt
    | some session =>
      obtain ⟨hstart, hnone⟩ := hc.starting w hin session hl
      exact ⟨session, rfl, by simp [hstart, CastSession.installed, hnone]⟩
  have hlive : count (fun session => session.starting && !session.installed) s.registry.sessions +
      count CastSession.installed s.registry.sessions = s.registry.liveCasts := by
    rw [count_add_count fun k session _ => by simp]
    unfold SessionRegistry.liveCasts CastSession.live
    congr 1
    funext session
    cases session.starting <;> cases session.installed <;> rfl
  omega

/-- A Start reserves a session that no other works on, below the limit. -/
theorem Coherent.reserve {s s' : Casts} (hc : Coherent s) {path appId : String}
    (hg : s.registry.liveCasts + s.orphans.length < maxLiveCasts) (h : s.reserve path appId = .ok s') : Coherent s' := by
  unfold Casts.reserve at h
  split at h
  · cases h
  · next selection registry hr =>
    obtain ⟨session, hl, -, -, hlive, -, -, rfl⟩ := SessionRegistry.reserveStart_eq_ok hr
    cases h
    obtain ⟨hstart, hnone⟩ : session.starting = false ∧ session.castThread = none := by
      simpa [CastSession.live, CastSession.installed] using hlive
    have hinc : s.registry.incarnationAt path = session.incarnation := by simp [SessionRegistry.incarnationAt, hl]
    have hnew : path ∉ s.workers.map (·.path) := by
      intro hin
      obtain ⟨w, hw, rfl⟩ := List.mem_map.1 hin
      have := (hc.starting w hw session hl).1
      simp [hstart] at this
    have hties : ∀ x ∈ ({ s with
        registry := { s.registry with sessions := s.registry.sessions.insert path { session with starting := true } }
        workers := s.workers ++ [⟨path, selection, .reserved, s.registry.incarnationAt path⟩] } : Casts).ties,
        x ∈ s.ties ∨ x = (path, session.incarnation) := by
      refine ties_of (fun _ => .inl) (w := fun w hw => ?_)
      rcases List.mem_append.1 hw with hw | hw
      · exact .inl hw
      · obtain rfl := List.mem_singleton.1 hw
        exact .inr (.inr (Prod.ext rfl hinc))
    have hheld : ∀ p i, (p, i) ∈ ({ s with
        registry := { s.registry with sessions := s.registry.sessions.insert path { session with starting := true } }
        workers := s.workers ++ [⟨path, selection, .reserved, s.registry.incarnationAt path⟩] } : Casts).holders →
        (p, i) ∈ s.holders := by
      intro p i hx
      rcases mem_holders.1 hx with hx | ⟨old, hold, rfl⟩
      · rcases hties _ hx with hx | he
        · exact holds_tie hx
        · cases he
          exact holds_session hl
      · rcases lookup_insert_cases hold with ⟨rfl, rfl⟩ | ⟨-, hold⟩
        · exact (holds_session hl : (p, session.incarnation) ∈ s.holders)
        · exact holds_session hold
    refine { hc with
      tied := fun p i old hx hold => ?_
      known := fun p i hx => hc.known p i (hheld p i hx)
      one_path := fun p q i hp hq => hc.one_path p q i (hheld p i hp) (hheld q i hq)
      alone := ?_
      starting := fun w hw old hold => ?_
      spawned := fun w hw t hph => ?_
      installed := fun p old t hold hct => ?_
      bounded := ?_ }
    · rcases lookup_insert_cases hold with ⟨rfl, rfl⟩ | ⟨hp, hold⟩
      · rcases hties _ hx with hx | he
        · exact hc.tied p i session hx hl
        · cases he
          rfl
      · rcases hties _ hx with hx | he
        · exact hc.tied p i old hx hold
        · cases he
          exact absurd rfl hp
    · simpa [List.nodup_append] using ⟨hc.alone, fun w hw hp => hnew (hp ▸ List.mem_map_of_mem hw)⟩
    · rcases lookup_insert_cases hold with ⟨-, rfl⟩ | ⟨hp, hold⟩
      · exact ⟨rfl, hnone⟩
      · rcases List.mem_append.1 hw with hw | hw
        · exact hc.starting w hw old hold
        · obtain rfl := List.mem_singleton.1 hw
          exact absurd rfl hp
    · rcases List.mem_append.1 hw with hw | hw
      · exact hc.spawned w hw t hph
      · obtain rfl := List.mem_singleton.1 hw
        cases hph
    · rcases lookup_insert_cases hold with ⟨rfl, rfl⟩ | ⟨-, hold⟩
      · simp [hnone] at hct
      · exact hc.installed p old t hold hct
    · have hcount := count_replace (p := CastSession.installed) (w := { session with starting := true }) hl
      have hsame : ({ session with starting := true } : CastSession).installed = session.installed := rfl
      rw [hsame] at hcount
      have hle := hc.counted
      show (s.workers ++ [_]).length +
        count CastSession.installed (s.registry.sessions.insert path { session with starting := true }) ≤ _
      rw [List.length_append, List.length_singleton]
      omega

/-! ## Runs -/

theorem coherent_init : Coherent init where
  tied p i session hx hl := by cases hl
  known p i hx := by simp [holders, ties, init, Dispatcher.jobs, SessionRegistry.empty] at hx
  one_path p q i hp hq := by simp [holders, ties, init, Dispatcher.jobs, SessionRegistry.empty] at hp
  alone := List.nodup_nil
  starting w hw := by cases hw
  spawned w hw := by cases hw
  installed p session t hl := by cases hl
  bounded := by decide
  closes c hc := by cases hc

theorem coherent_step {s s' : Casts} {l : Step} (hc : Coherent s) (hg : Fresh s l) (h : s.step l = some s') :
    Coherent s' := by
  cases step_takes h with
  | create hr => exact hc.create (of_decide_eq_true hg) hr
  | exportObject hcall => exact hc.tame (tame_export s hcall _)
  | select hs => exact hc.tame (tame_select hs)
  | reserve hs => exact hc.reserve (of_decide_eq_true hg) hs
  | spawn hw => exact hc.spawn hw _
  | started hw hph =>
    exact hc.setPhase hw fun t ht => hc.spawned _ (List.mem_of_getElem? hw) t (by rw [hph]; exact ht)
  | startedClosed hw hph => exact hc.stopAndJoin true hw (by rw [hph]; rfl)
  | failed hw hph => exact hc.stopAndJoin true hw (by rw [hph]; rfl)
  | install hw hph => exact hc.install hw (by rw [hph]; rfl)
  | @joined w worker thread clear hw =>
    cases clear with
    | true => exact hc.clear hw
    | false => exact hc.tame (tame_dropWorker s w)
  | ask ht hrun => exact hc.tame (tame_setThread s ht hrun rfl rfl)
  | complete ht hrun => exact hc.tame (tame_setThread s ht hrun rfl rfl)
  | endCast ht hrun => exact hc.tame (tame_push s (tie_thread (List.mem_of_getElem? ht) hrun))
  | exit ht hrun => exact hc.tame (tame_setThread s ht hrun rfl rfl)
  | @exitReported t thread ht hrun =>
    -- The thread no longer holds the path, but its report does.
    have hpush : Tame s (s.push (CastThread.ended thread)) := tame_push s (tie_thread (List.mem_of_getElem? ht) hrun)
    exact hc.tame (hpush.trans (tame_setThread (s.push (CastThread.ended thread)) ht hrun rfl rfl))
  | close hi => exact hc.tame (tame_push s (tie_exported hi))
  | send _ hjob => exact hc.tame (tame_send s hjob)
  | receive hd hjobs =>
    refine hc.dispatched rfl rfl rfl rfl rfl (fun j hin => ?_) fun _ _ he => he
    simpa [hjobs, hd, Dispatcher.jobs, or_comm, or_left_comm] using hin
  | remove hd => exact hc.tame (tame_removeSession hc hd)
  | stopJoined hd =>
    exact hc.dispatched rfl rfl rfl rfl rfl (fun j hin => by simpa [hd, Dispatcher.jobs] using hin) fun _ _ he => he
  | removeObject hd =>
    exact hc.dispatched rfl rfl rfl rfl rfl (fun j hin => by simpa [hd, Dispatcher.jobs] using hin)
      fun _ _ he => lookup_of_erase he

/-- Every run whose steps are `Fresh` keeps the incarnations apart. -/
theorem incarnations_unconfused {s : Casts} (h : Reach (· = init) (Guarded Fresh step) s) : Unconfused s :=
  (h.inv_guarded (fun _ hs => hs ▸ coherent_init) fun _ _ _ hc hg hstep => coherent_step hc hg hstep).unconfused

/-! ## A path used again -/

def sessionPath : String := "/org/freedesktop/portal/desktop/session/1_5/s"

/-- A session whose cast is up, and whose Start has not heard of it. -/
def negotiated : List Step :=
  [.create sessionPath "org.example.App", .export 0 false,
    .select sessionPath "org.example.App" ⟨.monitor none, 1, 0, none⟩, .reserve sessionPath "org.example.App",
    .spawn 0 false, .ask 0 29 true, .complete 0]

/-- A received job closes the session at the path. -/
def closed : List Step := [.receive, .remove, .stopJoined, .removeObject]

/-- The same path for the next session. -/
def createdAgain : List Step := [.create sessionPath "org.example.App", .export 0 false]

/-- Closed while its Start works, created again; then the Start installs its cast. -/
def staleStart : List Step :=
  negotiated ++ [.close sessionPath, .send 0] ++ closed ++ createdAgain ++ [.started 0 false, .install 0]

/-- The cast reports its end, and once more when its thread returns. -/
def reportedTwice : List Step :=
  negotiated ++ [.started 0 false, .install 0, .endCast 0, .send 0, .exit 0 false, .send 0] ++ closed ++ createdAgain ++
    [.receive, .remove]

/-- Closed, cleaned up, and then used again. -/
def reopened : List Step :=
  negotiated ++ [.started 0 false, .install 0, .close sessionPath, .send 0, .receive, .remove, .exit 0 true, .stopJoined,
    .removeObject] ++ createdAgain ++ [.select sessionPath "org.example.App" ⟨.monitor none, 1, 0, none⟩,
    .reserve sessionPath "org.example.App"]

theorem incarnations_unconfused_reopened :
    ∃ s, exec (Guarded Fresh step) init reopened = some s ∧ s.casts = [1] ∧ s.closes = [(0, 0)] ∧ Unconfused s := by
  have h : (exec (Guarded Fresh step) init reopened).map (fun s => (s.casts, s.closes)) = some ([1], [(0, 0)]) := by
    decide +kernel
  obtain ⟨s, hs, hf⟩ := Option.map_eq_some_iff.1 h
  obtain ⟨hcasts, hcloses⟩ := Prod.mk.inj hf
  have h0 : Reach (· = init) (Guarded Fresh step) init := .init rfl
  exact ⟨s, hs, hcasts, hcloses, incarnations_unconfused (h0.exec hs)⟩

/-- A Start of a closed session installs its cast in the next session of the path,
and the second report of a cast closes that session. -/
theorem reused_path_confused :
    (∃ s, exec step init staleStart = some s ∧ ¬ Unconfused s) ∧
      ∃ s, exec step init reportedTwice = some s ∧ ¬ Unconfused s := by
  constructor
  · have h : (exec step init staleStart).map (fun s =>
        ((s.registry.sessions.lookup sessionPath).map fun session => (session.castThread, session.incarnation),
          s.threads.map (·.incarnation))) = some (some (some 0, 1), [0]) := by
      decide +kernel
    obtain ⟨s, hs, hf⟩ := Option.map_eq_some_iff.1 h
    obtain ⟨hsession, hthreads⟩ := Prod.mk.inj hf
    obtain ⟨session, hl, hpair⟩ := Option.map_eq_some_iff.1 hsession
    obtain ⟨hcast, hinc⟩ := Prod.mk.inj hpair
    refine ⟨s, hs, fun hu => ?_⟩
    obtain ⟨thread, ht, hti⟩ := hu.installed sessionPath session 0 hl hcast
    have hmap : (s.threads.map (·.incarnation))[0]? = some thread.incarnation := by simp [ht]
    simp [hthreads, hti, hinc] at hmap
  · have h : (exec step init reportedTwice).map (·.closes) = some [(0, 0), (0, 1)] := by decide +kernel
    obtain ⟨s, hs, hcloses⟩ := Option.map_eq_some_iff.1 h
    refine ⟨s, hs, fun hu => ?_⟩
    have := hu.closes (0, 1) (by simp [hcloses])
    cases this

end Casts

end AtriumPortal.ScreenCast
