import AtriumPortal.ScreenCast.Incarnations
/-!
# What a session was armed with

The log `armed` has one entry for each incarnation whose sources were selected.
In every run, also one that uses a path again, a Start works with the selection
its session was armed with, and its cast asks the compositor for that source.
-/
open AtriumPortal.Lib.Table AtriumPortal.Lib.Entries AtriumPortal.Lib.Runs

namespace AtriumPortal.ScreenCast.Casts

/-- What a session, a Start and a cast say about their source is in the log. -/
structure Traced (s : Casts) : Prop where
  known : ∀ p session, s.registry.sessions.lookup p = some session → session.incarnation < s.registry.next
  one_path : ∀ p q session session', s.registry.sessions.lookup p = some session →
    s.registry.sessions.lookup q = some session' → session.incarnation = session'.incarnation → p = q
  armed_known : ∀ x ∈ s.armed, x.1 < s.registry.next
  once : ∀ x ∈ s.armed, ∀ y ∈ s.armed, x.1 = y.1 → x = y
  selected : ∀ p session, s.registry.sessions.lookup p = some session → session.sourcesSelected = true →
    (session.incarnation, session.selection) ∈ s.armed
  unselected : ∀ p session, s.registry.sessions.lookup p = some session → session.sourcesSelected = false →
    ∀ x ∈ s.armed, x.1 ≠ session.incarnation
  workers : ∀ w ∈ s.workers, (w.incarnation, w.selection) ∈ s.armed
  threads : ∀ t ∈ s.threads, ∃ selection, (t.incarnation, selection) ∈ s.armed ∧ t.source = selection.source ∧
    t.cursor = cursorOf selection.cursorMode
  asked : ∀ t ∈ s.threads, ∀ request ∈ t.asked, ∃ version dmabuf, t.request version dmabuf = some request

/-- A step that neither makes or arms a session, nor starts a Start or a cast, nor asks for a stream. -/
structure Quiet (s s' : Casts) : Prop where
  next : s'.registry.next = s.registry.next
  armed : s'.armed = s.armed
  sessions : ∀ p session', s'.registry.sessions.lookup p = some session' →
    ∃ session, s.registry.sessions.lookup p = some session ∧ session'.incarnation = session.incarnation ∧
      session'.sourcesSelected = session.sourcesSelected ∧ session'.selection = session.selection
  workers : ∀ w' ∈ s'.workers, ∃ w ∈ s.workers, w'.incarnation = w.incarnation ∧ w'.selection = w.selection
  threads : ∀ t' ∈ s'.threads, ∃ t ∈ s.threads, t'.incarnation = t.incarnation ∧ t'.source = t.source ∧
    t'.cursor = t.cursor ∧ t'.asked = t.asked

theorem request_congr {t t' : CastThread} (hs : t'.source = t.source) (hc : t'.cursor = t.cursor) (version : Nat)
    (dmabuf : Bool) : t'.request version dmabuf = t.request version dmabuf := by
  unfold CastThread.request CastThread.target
  rw [hs, hc]

theorem Traced.quiet {s s' : Casts} (ht : Traced s) (h : Quiet s s') : Traced s' where
  known p session' hl := by
    obtain ⟨session, hl, hi, -⟩ := h.sessions p session' hl
    exact h.next ▸ hi ▸ ht.known p session hl
  one_path p q a b hp hq he := by
    obtain ⟨a', ha, hia, -⟩ := h.sessions p a hp
    obtain ⟨b', hb, hib, -⟩ := h.sessions q b hq
    exact ht.one_path p q a' b' ha hb (hia ▸ hib ▸ he)
  armed_known x hx := h.next ▸ ht.armed_known x (h.armed ▸ hx)
  once x hx y hy := ht.once x (h.armed ▸ hx) y (h.armed ▸ hy)
  selected p session' hl hsel := by
    obtain ⟨session, hl, hi, hs, hse⟩ := h.sessions p session' hl
    rw [h.armed, hi, hse]
    exact ht.selected p session hl (hs ▸ hsel)
  unselected p session' hl hsel x hx := by
    obtain ⟨session, hl, hi, hs, -⟩ := h.sessions p session' hl
    rw [hi]
    exact ht.unselected p session hl (hs ▸ hsel) x (h.armed ▸ hx)
  workers w' hw' := by
    obtain ⟨w, hw, hi, hs⟩ := h.workers w' hw'
    rw [h.armed, hi, hs]
    exact ht.workers w hw
  threads t' ht' := by
    obtain ⟨t, hin, hi, hs, hc, -⟩ := h.threads t' ht'
    rw [h.armed, hi, hs, hc]
    exact ht.threads t hin
  asked t' ht' request hr := by
    obtain ⟨t, hin, -, hs, hc, ha⟩ := h.threads t' ht'
    obtain ⟨version, dmabuf, he⟩ := ht.asked t hin request (ha ▸ hr)
    exact ⟨version, dmabuf, (request_congr hs hc version dmabuf).trans he⟩

theorem Quiet.refl (s : Casts) : Quiet s s :=
  ⟨rfl, rfl, fun _ session hl => ⟨session, hl, rfl, rfl, rfl⟩, fun w hw => ⟨w, hw, rfl, rfl⟩,
    fun t ht => ⟨t, ht, rfl, rfl, rfl, rfl⟩⟩

theorem Quiet.trans {s s' s'' : Casts} (h : Quiet s s') (h' : Quiet s' s'') : Quiet s s'' where
  next := h'.next.trans h.next
  armed := h'.armed.trans h.armed
  sessions p session'' hl := by
    obtain ⟨session', hl', hi', hs', hse'⟩ := h'.sessions p session'' hl
    obtain ⟨session, hl, hi, hs, hse⟩ := h.sessions p session' hl'
    exact ⟨session, hl, hi'.trans hi, hs'.trans hs, hse'.trans hse⟩
  workers w'' hw'' := by
    obtain ⟨w', hw', hi', hs'⟩ := h'.workers w'' hw''
    obtain ⟨w, hw, hi, hs⟩ := h.workers w' hw'
    exact ⟨w, hw, hi'.trans hi, hs'.trans hs⟩
  threads t'' ht'' := by
    obtain ⟨t', ht', hi', hs', hc', ha'⟩ := h'.threads t'' ht''
    obtain ⟨t, ht, hi, hs, hc, ha⟩ := h.threads t' ht'
    exact ⟨t, ht, hi'.trans hi, hs'.trans hs, hc'.trans hc, ha'.trans ha⟩

theorem quiet_dropStop (s : Casts) (thread : Nat) : Quiet s (s.dropStop thread) :=
  { Quiet.refl s with
    threads := fun t' ht' => by
      rcases mem_modify ht' with hold | ⟨old, hold, rfl⟩
      · exact ⟨t', hold, rfl, rfl, rfl, rfl⟩
      · exact ⟨old, hold, rfl, rfl, rfl, rfl⟩ }

theorem quiet_dropStop? (s : Casts) (thread : Option Nat) : Quiet s (s.dropStop? thread) := by
  cases thread with
  | none => exact Quiet.refl s
  | some thread => exact quiet_dropStop s thread

theorem quiet_setPhase (s : Casts) (w : Nat) (phase : StartPhase) : Quiet s (s.setPhase w phase) :=
  { Quiet.refl s with
    workers := fun w' hw' => by
      rcases mem_modify hw' with hold | ⟨old, hold, rfl⟩
      · exact ⟨w', hold, rfl, rfl⟩
      · exact ⟨old, hold, rfl, rfl⟩ }

theorem quiet_dropWorker (s : Casts) (w : Nat) : Quiet s (s.dropWorker w) :=
  { Quiet.refl s with workers := fun w' hw' => ⟨w', List.mem_of_mem_eraseIdx hw', rfl, rfl⟩ }

theorem quiet_setThread (s : Casts) {t : Nat} {old new : CastThread} (h : s.threads[t]? = some old)
    (hi : new.incarnation = old.incarnation) (hs : new.source = old.source) (hc : new.cursor = old.cursor)
    (ha : new.asked = old.asked) : Quiet s (s.setThread t new) :=
  { Quiet.refl s with
    threads := fun t' ht' => by
      rcases List.mem_or_eq_of_mem_set ht' with hin | rfl
      · exact ⟨t', hin, rfl, rfl, rfl, rfl⟩
      · exact ⟨old, List.mem_of_getElem? h, hi, hs, hc, ha⟩ }

theorem quiet_push (s : Casts) (job : CloseJob) : Quiet s (s.push job) := { Quiet.refl s with }

/-- A session is replaced by one with the same incarnation and selection. -/
theorem quiet_update (s : Casts) {path : String} {session session' : CastSession}
    (hl : s.registry.sessions.lookup path = some session) (hi : session'.incarnation = session.incarnation)
    (hs : session'.sourcesSelected = session.sourcesSelected) (hse : session'.selection = session.selection) :
    Quiet s { s with registry := { s.registry with sessions := s.registry.sessions.insert path session' } } :=
  { Quiet.refl s with
    sessions := fun p old hold => by
      rcases lookup_insert_cases hold with ⟨rfl, rfl⟩ | ⟨-, hold⟩
      · exact ⟨session, hl, hi, hs, hse⟩
      · exact ⟨old, hold, rfl, rfl, rfl⟩ }

theorem quiet_clearStart (s : Casts) (path : String) : Quiet s { s with registry := s.registry.clearStart path } := by
  unfold SessionRegistry.clearStart
  split
  · exact Quiet.refl s
  · next session hl => exact quiet_update s hl rfl rfl rfl

theorem quiet_erase (s : Casts) (path : String) : Quiet s { s with registry := (s.registry.remove path).2 } :=
  { Quiet.refl s with
    sessions := fun _ session hl => ⟨session, lookup_of_erase hl, rfl, rfl, rfl⟩ }

theorem quiet_discard (s : Casts) (path : String) : Quiet s (s.discard path) :=
  (quiet_erase s path).trans (quiet_dropStop? _ _)

theorem quiet_export (s : Casts) (k : Nat) (failed : Bool) (path : String) (incarnation : Nat) :
    Quiet s (s.exportObject k failed path incarnation) := by
  dsimp only [exportObject]
  have hdrop : Quiet s { s with creating := s.creating.eraseIdx k } := { Quiet.refl s with }
  split
  · exact hdrop.trans (quiet_discard _ _)
  · exact { Quiet.refl s with }

theorem quiet_install (s : Casts) (w : Nat) (worker : StartWorker) (thread : Nat) :
    Quiet s (s.install w worker thread) := by
  unfold install
  split
  · next registry hm =>
    obtain ⟨session, hl, rfl⟩ := SessionRegistry.markStarted_eq_some hm
    refine ((quiet_update s hl ?_ ?_ ?_).trans (quiet_dropStop? _ _)).trans (quiet_dropWorker _ _) <;> rfl
  · exact (quiet_dropStop s thread).trans (quiet_setPhase _ _ _)

theorem quiet_removeSession (s : Casts) (job : CloseJob) : Quiet s (s.removeSession job) := by
  unfold removeSession
  split
  · exact { Quiet.refl s with }
  · next session registry hr =>
    obtain rfl : registry = (s.registry.remove job.path).2 := by
      simp only [SessionRegistry.remove, Prod.mk.injEq] at hr ⊢
      exact hr.2.symm
    have herase : Quiet s { s with
        registry := (s.registry.remove job.path).2
        dispatcher := .joining job.path session.castThread
        closes := s.closes ++ [(job.incarnation, session.incarnation)] } := { quiet_erase s job.path with }
    exact herase.trans (quiet_dropStop? _ _)

/-! ## What a step does to what is armed -/

/-- What a step does to what is armed. -/
inductive Effect (s : Casts) : Casts → Prop
  | quiet {s'} : Quiet s s' → Effect s s'
  | create {path appId registry} : s.registry.insert path appId = .ok registry →
      Effect s { s with registry := registry, creating := s.creating ++ [(path, s.registry.next)] }
  | select {path appId selection s'} : s.select path appId selection = .ok s' → Effect s s'
  | reserve {path appId s'} : s.reserve path appId = .ok s' → Effect s s'
  | spawn {w worker failed} : s.workers[w]? = some worker → Effect s (s.spawn w worker failed)
  | ask {t thread version dmabuf request} : s.threads[t]? = some thread →
      thread.request version dmabuf = some request →
      Effect s (s.setThread t { thread with asked := thread.asked ++ [request] })

theorem effect_step {s s' : Casts} {l : Step} (h : s.step l = some s') : Effect s s' := by
  cases step_takes h with
  | create hr => exact .create hr
  | exportObject => exact .quiet (quiet_export s _ _ _ _)
  | select hs => exact .select hs
  | reserve hs => exact .reserve hs
  | spawn hw => exact .spawn hw
  | started => exact .quiet (quiet_setPhase s _ _)
  | startedClosed => exact .quiet ((quiet_dropStop s _).trans (quiet_setPhase _ _ _))
  | failed => exact .quiet ((quiet_dropStop s _).trans (quiet_setPhase _ _ _))
  | install => exact .quiet (quiet_install s _ _ _)
  | @joined w worker thread clear =>
    cases clear with
    | true => exact .quiet ((quiet_clearStart s worker.path).trans (quiet_dropWorker _ w))
    | false => exact .quiet (quiet_dropWorker s w)
  | ask ht _ hr => exact .ask ht hr
  | complete ht => exact .quiet (quiet_setThread s ht rfl rfl rfl rfl)
  | endCast => exact .quiet (quiet_push s _)
  | exit ht => exact .quiet (quiet_setThread s ht rfl rfl rfl rfl)
  | @exitReported t thread ht =>
    have hset : Quiet s (s.setThread t { thread with exited := true }) := quiet_setThread s ht rfl rfl rfl rfl
    exact .quiet (hset.trans (quiet_push _ _))
  | close => exact .quiet (quiet_push s _)
  | send => exact .quiet { Quiet.refl s with }
  | receive => exact .quiet { Quiet.refl s with }
  | remove => exact .quiet (quiet_removeSession s _)
  | stopJoined => exact .quiet { Quiet.refl s with }
  | removeObject => exact .quiet { Quiet.refl s with }

/-! ## The steps that make something of the log -/

theorem Traced.create {s : Casts} (ht : Traced s) {path appId : String} {registry : SessionRegistry}
    (h : s.registry.insert path appId = .ok registry) :
    Traced { s with registry := registry, creating := s.creating ++ [(path, s.registry.next)] } := by
  obtain ⟨hno, rfl⟩ := SessionRegistry.insert_eq_ok h
  refine { ht with
    known := fun p old hold => ?_
    one_path := fun p q a b hp hq he => ?_
    armed_known := fun x hx => Nat.lt_succ_of_lt (ht.armed_known x hx)
    selected := fun p old hold hsel => ?_
    unselected := fun p old hold hsel x hx => ?_ }
  · rcases lookup_insert_cases hold with ⟨-, rfl⟩ | ⟨-, hold⟩
    · exact Nat.lt_succ_self _
    · exact Nat.lt_succ_of_lt (ht.known p old hold)
  · rcases lookup_insert_cases hp with ⟨rfl, rfl⟩ | ⟨-, ha⟩ <;> rcases lookup_insert_cases hq with ⟨rfl, rfl⟩ | ⟨-, hb⟩
    · rfl
    · exact absurd he (Nat.ne_of_gt (ht.known q b hb))
    · exact absurd he (Nat.ne_of_lt (ht.known p a ha))
    · exact ht.one_path p q a b ha hb he
  · rcases lookup_insert_cases hold with ⟨-, rfl⟩ | ⟨-, hold⟩
    · cases hsel
    · exact ht.selected p old hold hsel
  · rcases lookup_insert_cases hold with ⟨-, rfl⟩ | ⟨-, hold⟩
    · exact Nat.ne_of_lt (ht.armed_known x hx)
    · exact ht.unselected p old hold hsel x hx

/-- What a SelectSources worker that arms a session does. -/
theorem select_eq_ok {s s' : Casts} {path appId : String} {selection : StartSelection}
    (h : s.select path appId selection = .ok s') :
    ∃ session, s.registry.sessions.lookup path = some session ∧ session.sourcesSelected = false ∧
      session.appId = appId ∧ s.registry.incarnationAt path = session.incarnation ∧
      s' = { s with
        registry := { s.registry with
          sessions := s.registry.sessions.insert path { session with
            sourcesSelected := true
            source := selection.source
            cursorMode := selection.cursorMode
            requestedPersistMode := selection.requestedPersistMode
            persistGrant := selection.persistGrant } }
        armed := s.armed ++ [(session.incarnation, selection)] } := by
  unfold select at h
  split at h
  · cases h
  · next registry hm =>
    obtain ⟨session, hl, hno, happ, rfl⟩ := SessionRegistry.markSourcesSelected_eq_ok hm
    have hinc : s.registry.incarnationAt path = session.incarnation := by simp [SessionRegistry.incarnationAt, hl]
    rw [hinc] at h
    cases h
    exact ⟨session, hl, hno, happ, hinc, rfl⟩

theorem Traced.select {s s' : Casts} (ht : Traced s) {path appId : String} {selection : StartSelection}
    (h : s.select path appId selection = .ok s') : Traced s' := by
  obtain ⟨session, hl, hno, -, -, rfl⟩ := select_eq_ok h
  have hnew := ht.unselected path session hl hno
  refine {
    known := fun p old hold => ?_
    one_path := fun p q a b hp hq he => ?_
    armed_known := fun x hx => ?_
    once := fun x hx y hy he => ?_
    selected := fun p old hold hsel => ?_
    unselected := fun p old hold hsel x hx => ?_
    workers := fun w hw => List.mem_append_left _ (ht.workers w hw)
    threads := fun t hin => ?_
    asked := ht.asked }
  · rcases lookup_insert_cases hold with ⟨-, rfl⟩ | ⟨-, hold⟩
    · exact ht.known path session hl
    · exact ht.known p old hold
  · rcases lookup_insert_cases hp with ⟨rfl, rfl⟩ | ⟨-, ha⟩ <;> rcases lookup_insert_cases hq with ⟨rfl, rfl⟩ | ⟨-, hb⟩
    · rfl
    · exact ht.one_path _ _ _ _ hl hb he
    · exact ht.one_path _ _ _ _ ha hl he
    · exact ht.one_path p q a b ha hb he
  · rcases List.mem_append.1 hx with hx | hx
    · exact ht.armed_known x hx
    · obtain rfl := List.mem_singleton.1 hx
      exact ht.known path session hl
  · -- The incarnation was not armed before.
    rcases List.mem_append.1 hx with hx | hx <;> rcases List.mem_append.1 hy with hy | hy
    · exact ht.once x hx y hy he
    · obtain rfl := List.mem_singleton.1 hy
      exact absurd he (hnew x hx)
    · obtain rfl := List.mem_singleton.1 hx
      exact absurd he.symm (hnew y hy)
    · rw [List.mem_singleton.1 hx, List.mem_singleton.1 hy]
  · rcases lookup_insert_cases hold with ⟨-, rfl⟩ | ⟨-, hold⟩
    · exact List.mem_append_right _ (List.mem_singleton.2 rfl)
    · exact List.mem_append_left _ (ht.selected p old hold hsel)
  · rcases lookup_insert_cases hold with ⟨-, rfl⟩ | ⟨hp, hold⟩
    · cases hsel
    · rcases List.mem_append.1 hx with hx | hx
      · exact ht.unselected p old hold hsel x hx
      · obtain rfl := List.mem_singleton.1 hx
        exact fun he => hp (ht.one_path _ _ _ _ hold hl he.symm)
  · obtain ⟨sel, hsel, hso, hcu⟩ := ht.threads t hin
    exact ⟨sel, List.mem_append_left _ hsel, hso, hcu⟩

theorem Traced.reserve {s s' : Casts} (ht : Traced s) {path appId : String} (h : s.reserve path appId = .ok s') :
    Traced s' := by
  unfold Casts.reserve at h
  split at h
  · cases h
  · next selection registry hr =>
    obtain ⟨session, hl, -, hsel, -, -, rfl, rfl⟩ := SessionRegistry.reserveStart_eq_ok hr
    cases h
    have hinc : s.registry.incarnationAt path = session.incarnation := by simp [SessionRegistry.incarnationAt, hl]
    have hquiet : Traced { s with
        registry := { s.registry with sessions := s.registry.sessions.insert path { session with starting := true } } } := by
      refine ht.quiet (quiet_update s hl ?_ ?_ ?_) <;> rfl
    exact { hquiet with
      workers := fun w hw => by
        rcases List.mem_append.1 hw with hw | hw
        · exact ht.workers w hw
        · obtain rfl := List.mem_singleton.1 hw
          exact hinc ▸ ht.selected path session hl hsel }

theorem Traced.spawn {s : Casts} (ht : Traced s) {w : Nat} {worker : StartWorker} (hw : s.workers[w]? = some worker)
    (failed : Bool) : Traced (s.spawn w worker failed) := by
  unfold Casts.spawn
  split
  · exact (ht.quiet (quiet_clearStart s worker.path)).quiet (quiet_dropWorker _ w)
  · refine Traced.quiet ?_ (quiet_setPhase _ _ _)
    refine { ht with threads := fun t hin => ?_, asked := fun t hin request hr => ?_ }
    · rcases List.mem_append.1 hin with hin | hin
      · exact ht.threads t hin
      · obtain rfl := List.mem_singleton.1 hin
        exact ⟨worker.selection, ht.workers worker (List.mem_of_getElem? hw), rfl, rfl⟩
    · rcases List.mem_append.1 hin with hin | hin
      · exact ht.asked t hin request hr
      · obtain rfl := List.mem_singleton.1 hin
        cases hr

/-- A cast thread asks for its own source. -/
theorem Traced.ask {s : Casts} (ht : Traced s) {t version : Nat} {dmabuf : Bool} {thread : CastThread}
    {request : Ipc.Request} (h : s.threads[t]? = some thread) (hr : thread.request version dmabuf = some request) :
    Traced (s.setThread t { thread with asked := thread.asked ++ [request] }) := by
  have hold : thread ∈ s.threads := List.mem_of_getElem? h
  refine { ht with threads := fun t' hin => ?_, asked := fun t' hin r hrin => ?_ }
  · rcases List.mem_or_eq_of_mem_set hin with hin | rfl
    · exact ht.threads t' hin
    · exact ht.threads thread hold
  · rcases List.mem_or_eq_of_mem_set hin with hin | rfl
    · exact ht.asked t' hin r hrin
    · rcases List.mem_append.1 hrin with hrin | hrin
      · exact ht.asked thread hold r hrin
      · obtain rfl := List.mem_singleton.1 hrin
        exact ⟨version, dmabuf, hr⟩

/-! ## Runs -/

theorem traced_init : Traced init where
  known p session hl := by cases hl
  one_path p q a b hp := by cases hp
  armed_known x hx := by cases hx
  once x hx := by cases hx
  selected p session hl := by cases hl
  unselected p session hl := by cases hl
  workers w hw := by cases hw
  threads t hin := by cases hin
  asked t hin := by cases hin

theorem traced_step {s s' : Casts} {l : Step} (ht : Traced s) (h : s.step l = some s') : Traced s' := by
  cases effect_step h with
  | quiet hq => exact ht.quiet hq
  | create hr => exact ht.create hr
  | select hs => exact ht.select hs
  | reserve hs => exact ht.reserve hs
  | spawn hw => exact ht.spawn hw _
  | ask hth hr => exact ht.ask hth hr

theorem traced_of_reach {s : Casts} (h : Reach (· = init) step s) : Traced s :=
  h.inv (fun _ hs => hs ▸ traced_init) fun _ _ _ ht hstep => traced_step ht hstep

/-- The log only grows. -/
theorem armed_step {s s' : Casts} {l : Step} (h : s.step l = some s') : s.armed ⊆ s'.armed := by
  intro x hx
  cases effect_step h with
  | quiet hq => exact hq.armed ▸ hx
  | create hr => exact hx
  | select hs =>
    obtain ⟨session, -, -, -, -, rfl⟩ := select_eq_ok hs
    exact List.mem_append_left _ hx
  | reserve hs =>
    unfold Casts.reserve at hs
    split at hs
    · cases hs
    · cases hs; exact hx
  | spawn hw =>
    unfold Casts.spawn
    split
    · exact hx
    · exact hx
  | ask hth hr => exact hx

theorem armed_exec {s s' : Casts} {ls : List Step} (h : exec step s ls = some s') : s.armed ⊆ s'.armed := by
  induction ls generalizing s with
  | nil => cases h; exact fun _ hx => hx
  | cons l ls ih =>
    obtain ⟨s₁, hs, h⟩ := Option.bind_eq_some_iff.1 h
    exact fun x hx => ih h (armed_step hs hx)

/-- Every Start of the incarnation works with the selection, and its casts ask for no other source. -/
def Streams (s : Casts) (incarnation : Nat) (selection : StartSelection) : Prop :=
  (∀ w ∈ s.workers, w.incarnation = incarnation → w.selection = selection) ∧
    ∀ t ∈ s.threads, t.incarnation = incarnation → t.source = selection.source ∧
      ∀ request ∈ t.asked, ∃ dmabuf cursor,
        request = .streamOutputStart (some streamMaxFps) selection.source.target dmabuf cursor

/-- An armed incarnation streams what it was armed with. -/
theorem streams_armed {s : Casts} (ht : Traced s) {incarnation : Nat} {selection : StartSelection}
    (h : (incarnation, selection) ∈ s.armed) : s.Streams incarnation selection := by
  refine ⟨fun w hw hi => ?_, fun t hin hi => ?_⟩
  · exact (Prod.mk.inj (ht.once _ (ht.workers w hw) _ h hi)).2
  · obtain ⟨sel, hsel, hso, -⟩ := ht.threads t hin
    obtain rfl := (Prod.mk.inj (ht.once _ hsel _ h hi)).2
    refine ⟨hso, fun request hr => ?_⟩
    obtain ⟨version, dmabuf, hreq⟩ := ht.asked t hin request hr
    unfold CastThread.request CastThread.target at hreq
    split at hreq
    · cases hreq
    · cases hreq
      exact ⟨_, _, by rw [hso]⟩

end AtriumPortal.ScreenCast.Casts
