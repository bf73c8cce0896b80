import AtriumPortal.ScreenCast.Casts
/-!
# The dispatcher and the threads it joins

The dispatcher of `cast_worker` is the only receiver of the bounded job queue, and
`stop_cast` makes it wait until a cast thread returns. A cast thread that reports the
end of its stream waits until the queue has room. When the queue is full these two
waits close a cycle that nothing can end.

The queue holds all jobs in order. Everything else is `Casts`, whose steps are taken
as they are.
-/
open AtriumPortal.Lib.Runs

namespace AtriumPortal.ScreenCast

inductive QueuedJob where
  /-- SelectSources or Start: the dispatcher starts a worker for it. -/
  | request
  | close (job : CloseJob)
  deriving DecidableEq, Repr

def QueuedJob.close? : QueuedJob → Option CloseJob
  | .request => none
  | .close job => some job

/-- A cast thread in `jobs.send`: at the end of `run_cast`, or else in `end_cast`. -/
structure Sender where
  thread : Nat
  atExit : Bool
  deriving DecidableEq, Repr

structure Joins where
  casts : Casts
  queue : List QueuedJob
  senders : List Sender

namespace Joins

def start : Joins := ⟨Casts.init, [], []⟩

inductive Label where
  /-- A step that neither puts a job into the queue nor takes one out. -/
  | run (l : Casts.Step)
  /-- A SelectSources or Start call; `enqueue` refuses it when there is no room. -/
  | request
  /-- A cast thread has a `SessionEnded` job to send. -/
  | beginSend (thread : Nat) (atExit : Bool)
  /-- The `k`-th waiting cast thread gets its job into the queue and goes on. -/
  | finishSend (k : Nat)
  /-- The `k`-th waiting `Session.Close` call does. -/
  | send (k : Nat)
  | receive
  deriving Repr

/-- The thread is in `jobs.send`. -/
def waits (s : Joins) (thread : Nat) : Bool := s.senders.any (·.thread == thread)

def hasRoom (s : Joins) : Bool := s.queue.length < maxQueuedRequests

/-- A cast thread may report: in its main loop, and at its end when it was up. -/
def maySend (s : Joins) (thread : Nat) (atExit : Bool) : Bool :=
  match s.casts.threads[thread]? with
  | some t => !t.exited && !t.asked.isEmpty && (!atExit || t.completed)
  | none => false

/-- Steps of `Casts` that are taken as they are. A thread that waits does nothing
else, and one that was up returns without a report only when it was stopped. -/
def aside (s : Joins) : Casts.Step → Bool
  | .endCast _ => false
  | .send _ => false
  | .receive => false
  | .ask t _ _ => !s.waits t
  | .complete t => !s.waits t
  | .exit t stopped => !s.waits t && (stopped || !s.maySend t true)
  | _ => true

/-- The `k`-th waiting job gets into the queue. -/
def deliver (s : Joins) (k : Nat) : Option Joins :=
  s.casts.sending[k]?.bind fun job =>
    (s.casts.step (.send k)).map fun casts => { s with casts := casts, queue := s.queue ++ [.close job] }

/-- What a cast thread does once its job is in the queue: it returns, or stays in its main loop. -/
def Sender.step (sender : Sender) : Casts.Step :=
  if sender.atExit then .exit sender.thread false else .endCast sender.thread

def step (s : Joins) : Label → Option Joins
  | .run l => if s.aside l then (s.casts.step l).map fun casts => { s with casts := casts } else none
  | .request => some (if s.hasRoom then { s with queue := s.queue ++ [.request] } else s)
  | .beginSend thread atExit =>
    if s.maySend thread atExit && !s.waits thread then some { s with senders := s.senders ++ [⟨thread, atExit⟩] } else none
  | .finishSend k =>
    if s.hasRoom then
      s.senders[k]?.bind fun sender =>
        (s.casts.step (Sender.step sender)).bind fun casts =>
          { s with casts := casts, senders := s.senders.eraseIdx k }.deliver (casts.sending.length - 1)
    else none
  | .send k => if s.hasRoom then s.deliver k else none
  | .receive =>
    match s.queue with
    | [] => none
    | .request :: rest => if s.casts.dispatcher = .idle then some { s with queue := rest } else none
    | .close _ :: rest => (s.casts.step .receive).map fun casts => { s with casts := casts, queue := rest }

/-- The thread that the dispatcher joins. -/
def joined (s : Joins) : Option Nat :=
  match s.casts.dispatcher with
  | .joining _ thread => thread
  | _ => none

/-- The thread it is about to join, when it takes up a job. -/
def toJoin (s : Joins) : Option Nat :=
  match s.casts.dispatcher with
  | .received job => (s.casts.registry.sessions.lookup job.path).bind (·.castThread)
  | _ => none

/-- The dispatcher joins a thread that waits to send. -/
def held (s : Joins) : Bool := s.joined.any s.waits

/-- The thread waits for room in the queue, and the dispatcher for the thread. -/
def Deadlocked (s : Joins) : Prop := s.held = true ∧ s.hasRoom = false

/-- The last place in the queue is not taken. -/
def roomForTwo (s : Joins) : Bool := s.queue.length + 1 < maxQueuedRequests

/-- There is room when the dispatcher takes up the close of a session whose thread
waits to send and when a thread that is being joined begins to; meanwhile nobody
else takes the last place. -/
def Roomy (s : Joins) : Label → Prop
  | .run .remove => s.toJoin.any s.waits = true → s.hasRoom = true
  | .beginSend thread _ => s.joined = some thread → s.hasRoom = true
  | .request => s.held = true → s.roomForTwo = true
  | .send _ => s.held = true → s.roomForTwo = true
  | .finishSend k => { s with senders := s.senders.eraseIdx k }.held = true → s.roomForTwo = true
  | _ => True

instance (s : Joins) (l : Label) : Decidable (s.Roomy l) := by
  unfold Roomy
  split <;> infer_instance

end Joins

/-! ## What a step of `Casts` leaves alone -/

namespace Casts

/-- The thread has not returned. -/
def Running (s : Casts) (thread : Nat) : Prop := ∃ t, s.threads[thread]? = some t ∧ t.exited = false

theorem Running.of_threads {s s' : Casts} {thread : Nat} (h : s.Running thread) (ht : s'.threads = s.threads) :
    s'.Running thread := by
  rwa [Running, ht]

/-- The dispatcher and its queue stay, and no thread returns but maybe `returns`. -/
structure Apart (returns : Option Nat) (s s' : Casts) : Prop where
  jobs : s'.jobs = s.jobs
  dispatcher : s'.dispatcher = s.dispatcher
  running : ∀ thread, returns ≠ some thread → s.Running thread → s'.Running thread

namespace Apart

variable {s s' s'' : Casts} {returns : Option Nat}

theorem of_threads (hj : s'.jobs = s.jobs) (hd : s'.dispatcher = s.dispatcher) (ht : s'.threads = s.threads) :
    Apart returns s s' :=
  ⟨hj, hd, fun _ _ hr => hr.of_threads ht⟩

theorem trans (h : Apart returns s s') (h' : Apart returns s' s'') : Apart returns s s'' :=
  ⟨h'.jobs.trans h.jobs, h'.dispatcher.trans h.dispatcher, fun thread he hr => h'.running thread he (h.running thread he hr)⟩

end Apart

theorem apart_dropStop (returns : Option Nat) (s : Casts) (thread : Nat) : Apart returns s (s.dropStop thread) := by
  refine ⟨rfl, rfl, fun other _ hr => ?_⟩
  obtain ⟨t, ht, he⟩ := hr
  by_cases heq : thread = other
  · subst heq
    exact ⟨{ t with stopDropped := true }, by simp [dropStop, ht], he⟩
  · exact ⟨t, by simp [dropStop, heq, ht], he⟩

theorem apart_dropStop? (returns : Option Nat) (s : Casts) (thread : Option Nat) : Apart returns s (s.dropStop? thread) := by
  cases thread with
  | none => exact .of_threads rfl rfl rfl
  | some thread => exact apart_dropStop returns s thread

/-- A thread changes; it returns only if it may. -/
theorem apart_setThread {returns : Option Nat} (s : Casts) {thread : Nat} {new : CastThread}
    (h : returns = some thread ∨ new.exited = false) : Apart returns s (s.setThread thread new) := by
  refine ⟨rfl, rfl, fun other hne hr => ?_⟩
  obtain ⟨t, ht, he⟩ := hr
  by_cases heq : thread = other
  · subst heq
    have hlt : thread < s.threads.length := (List.getElem?_eq_some_iff.1 ht).1
    rcases h with h | h
    · exact absurd h hne
    · exact ⟨new, by simp [setThread, hlt], h⟩
  · exact ⟨t, by simp [setThread, heq, ht], he⟩

theorem apart_discard (returns : Option Nat) (s : Casts) (path : String) : Apart returns s (s.discard path) :=
  (Apart.of_threads rfl rfl rfl : Apart returns s { s with registry := (s.registry.remove path).2 }).trans
    (apart_dropStop? returns _ _)

theorem apart_export (s : Casts) (k : Nat) (failed : Bool) (path : String) (incarnation : Nat) :
    Apart none s (s.exportObject k failed path incarnation) := by
  have hrest : Apart none s { s with creating := s.creating.eraseIdx k } := .of_threads rfl rfl rfl
  unfold exportObject
  simp only
  split
  · exact hrest.trans (apart_discard none _ path)
  · exact .of_threads rfl rfl rfl

theorem apart_install (s : Casts) (w : Nat) (worker : StartWorker) (thread : Nat) :
    Apart none s (s.install w worker thread) := by
  unfold install
  split
  · next registry _ =>
    have hmarked : Apart none s { s with registry := registry } := .of_threads rfl rfl rfl
    exact (hmarked.trans (apart_dropStop? none _ _)).trans (.of_threads rfl rfl rfl)
  · exact (apart_dropStop none s thread).trans (.of_threads rfl rfl rfl)

theorem apart_spawn (s : Casts) (w : Nat) (worker : StartWorker) (failed : Bool) :
    Apart none s (s.spawn w worker failed) := by
  unfold spawn
  split
  · exact .of_threads rfl rfl rfl
  · refine ⟨rfl, rfl, fun thread _ hr => ?_⟩
    obtain ⟨t, ht, he⟩ := hr
    exact ⟨t, by simp [setPhase, List.getElem?_append_left (List.getElem?_eq_some_iff.1 ht).1, ht], he⟩

/-- The thread that a step makes return. -/
def returning : Step → Option Nat
  | .exit t _ => some t
  | _ => none

/-- The dispatcher takes the step. -/
def dispatching : Step → Bool
  | .receive | .remove | .stopJoined | .removeObject => true
  | _ => false

theorem apart_step {s s' : Casts} {l : Step} (hd : dispatching l = false) (hsend : ∀ k, l ≠ .send k)
    (h : s.step l = some s') : Apart (returning l) s s' := by
  cases step_takes h with
  | create => exact .of_threads rfl rfl rfl
  | exportObject => exact apart_export s _ _ _ _
  | select hs =>
    unfold select at hs
    split at hs
    · cases hs
    · cases hs; exact .of_threads rfl rfl rfl
  | reserve hs =>
    unfold reserve at hs
    split at hs
    · cases hs
    · cases hs; exact .of_threads rfl rfl rfl
  | spawn => exact apart_spawn s _ _ _
  | started => exact .of_threads rfl rfl rfl
  | startedClosed => exact (apart_dropStop none s _).trans (.of_threads rfl rfl rfl)
  | failed => exact (apart_dropStop none s _).trans (.of_threads rfl rfl rfl)
  | install => exact apart_install s _ _ _
  | joined => exact .of_threads rfl rfl rfl
  | ask _ hrun => exact apart_setThread s (.inr hrun)
  | complete _ hrun => exact apart_setThread s (.inr hrun)
  | endCast => exact .of_threads rfl rfl rfl
  | exit => exact apart_setThread s (.inl rfl)
  | exitReported => exact (apart_setThread s (.inl rfl)).trans (.of_threads rfl rfl rfl)
  | close => exact .of_threads rfl rfl rfl
  | send => exact absurd rfl (hsend _)
  | receive | remove | stopJoined | removeObject => cases hd

theorem remove_joins {s s' : Casts} (h : s.step .remove = some s') : s'.jobs = s.jobs ∧
    (∀ thread, s.Running thread → s'.Running thread) ∧
    ∃ job, s.dispatcher = .received job ∧ (s'.dispatcher = .idle ∨
      s'.dispatcher = .joining job.path ((s.registry.sessions.lookup job.path).bind (·.castThread))) := by
  cases step_takes h with
  | @remove job hd =>
    unfold removeSession
    split
    · exact ⟨rfl, fun _ hr => hr, job, hd, .inl rfl⟩
    · next session registry hr =>
      have hapart := apart_dropStop? none { s with
        registry := registry
        dispatcher := .joining job.path session.castThread
        closes := s.closes ++ [(job.incarnation, session.incarnation)] } session.stop
      have hsession : s.registry.sessions.lookup job.path = some session := (Prod.mk.inj hr).1
      refine ⟨hapart.jobs, fun thread ht => hapart.running thread nofun ht, job, hd, .inr ?_⟩
      rw [hapart.dispatcher, hsession]
      rfl

theorem stopJoined_exited {s s' : Casts} (h : s.step .stopJoined = some s') : s'.jobs = s.jobs ∧ s'.threads = s.threads ∧
    ∃ path thread, s.dispatcher = .joining path thread ∧ s'.dispatcher = .emitting path ∧
      ∀ t, thread = some t → ¬ s.Running t := by
  cases step_takes h with
  | @stopJoined path thread hd hexit =>
    refine ⟨rfl, rfl, path, thread, hd, rfl, fun t ht hr => ?_⟩
    obtain ⟨running, hthread, he⟩ := hr
    simp [ht, hthread, he] at hexit

theorem removeObject_idles {s s' : Casts} (h : s.step .removeObject = some s') : s'.jobs = s.jobs ∧
    s'.threads = s.threads ∧ (∃ path, s.dispatcher = .emitting path) ∧ s'.dispatcher = .idle := by
  cases step_takes h with
  | removeObject hd => exact ⟨rfl, rfl, ⟨_, hd⟩, rfl⟩

theorem receive_takes {s s' : Casts} (h : s.step .receive = some s') : s'.threads = s.threads ∧
    s.dispatcher = .idle ∧ ∃ job, s'.dispatcher = .received job ∧ s.jobs = job :: s'.jobs := by
  cases step_takes h with
  | receive hd hjobs => exact ⟨rfl, hd, _, rfl, hjobs⟩

theorem send_appends {s s' : Casts} {k : Nat} {job : CloseJob} (hk : s.sending[k]? = some job)
    (h : s.step (.send k) = some s') :
    s'.threads = s.threads ∧ s'.dispatcher = s.dispatcher ∧ s'.jobs = s.jobs ++ [job] := by
  cases step_takes h with
  | send _ hjob =>
    cases hk.symm.trans hjob
    exact ⟨rfl, rfl, rfl⟩

end Casts

/-! ## Every step -/

namespace Joins

/-- Every waiting thread waits once and has not returned, and the queue holds the close
jobs of `Casts` in their order. -/
structure Awaited (s : Joins) : Prop where
  once : (s.senders.map (·.thread)).Nodup
  running : ∀ sender ∈ s.senders, s.casts.Running sender.thread
  jobs : s.queue.filterMap QueuedJob.close? = s.casts.jobs

theorem waits_iff {s : Joins} {thread : Nat} : s.waits thread = true ↔ ∃ sender ∈ s.senders, sender.thread = thread := by
  simp [waits]

theorem deliver_eq_some {s s' : Joins} {k : Nat} (h : s.deliver k = some s') : ∃ job,
    s'.queue = s.queue ++ [.close job] ∧ s'.senders = s.senders ∧ s'.casts.threads = s.casts.threads ∧
      s'.casts.dispatcher = s.casts.dispatcher ∧ s'.casts.jobs = s.casts.jobs ++ [job] := by
  obtain ⟨job, hk, h⟩ := Option.bind_eq_some_iff.1 h
  obtain ⟨casts, hs, rfl⟩ := Option.map_eq_some_iff.1 h
  obtain ⟨ht, hd, hj⟩ := Casts.send_appends hk hs
  exact ⟨job, rfl, rfl, ht, hd, hj⟩

/-- The step of a sender that goes on: the dispatcher stays, and only its own thread may return. -/
theorem apart_sender {s s' : Casts} {sender : Sender} (h : s.step (Sender.step sender) = some s') :
    Casts.Apart (some sender.thread) s s' := by
  unfold Sender.step at h
  split at h
  · exact Casts.apart_step (l := .exit sender.thread false) rfl nofun h
  · have hapart := Casts.apart_step (l := .endCast sender.thread) rfl nofun h
    exact ⟨hapart.jobs, hapart.dispatcher, fun thread _ hr => hapart.running thread nofun hr⟩

theorem finishSend_eq_some {s s' : Joins} {k : Nat} (h : s.step (.finishSend k) = some s') : s.hasRoom = true ∧
    ∃ sender job, s.senders[k]? = some sender ∧ s'.queue = s.queue ++ [.close job] ∧ s'.senders = s.senders.eraseIdx k ∧
      s'.casts.dispatcher = s.casts.dispatcher ∧ s'.casts.jobs = s.casts.jobs ++ [job] ∧
      ∀ thread, sender.thread ≠ thread → s.casts.Running thread → s'.casts.Running thread := by
  simp only [step] at h
  split at h
  · next hroom =>
    obtain ⟨sender, hk, h⟩ := Option.bind_eq_some_iff.1 h
    obtain ⟨casts, hs, h⟩ := Option.bind_eq_some_iff.1 h
    have hapart := apart_sender hs
    obtain ⟨job, hq, hsend, ht, hd, hj⟩ := deliver_eq_some h
    refine ⟨hroom, sender, job, hk, hq, hsend, hd.trans hapart.dispatcher, hj.trans (by rw [hapart.jobs]), ?_⟩
    exact fun thread hne hr => (hapart.running thread (by simpa using hne) hr).of_threads ht
  · cases h

theorem receive_eq_some {s s' : Joins} (h : s.step .receive = some s') : s.casts.dispatcher = .idle ∧
    s'.joined = none ∧ s'.senders = s.senders ∧ s'.casts.threads = s.casts.threads ∧
      (s.queue.filterMap QueuedJob.close? = s.casts.jobs → s'.queue.filterMap QueuedJob.close? = s'.casts.jobs) := by
  simp only [step] at h
  split at h
  · cases h
  · next rest hq =>
    split at h
    · next hidle => cases h; exact ⟨hidle, by simp [joined, hidle], rfl, rfl, by rw [hq]; exact id⟩
    · cases h
  · next job rest hq =>
    obtain ⟨casts, hs, rfl⟩ := Option.map_eq_some_iff.1 h
    obtain ⟨ht, hidle, taken, hd, hj⟩ := Casts.receive_takes hs
    exact ⟨hidle, by simp [joined, hd], rfl, ht, by simp [hq, hj, QueuedJob.close?]⟩

/-- A step of `Casts` leaves the waiting threads and the queue alone. -/
theorem run_keeps {s : Joins} {l : Casts.Step} {casts : Casts} (haside : s.aside l = true)
    (h : s.casts.step l = some casts) : casts.jobs = s.casts.jobs ∧
      (Casts.dispatching l = false → casts.dispatcher = s.casts.dispatcher) ∧
      ∀ thread, s.waits thread = true → s.casts.Running thread → casts.Running thread := by
  cases hd : Casts.dispatching l with
  | false =>
    have hsend : ∀ k, l ≠ .send k := by rintro k rfl; cases haside
    have hapart := Casts.apart_step hd hsend h
    refine ⟨hapart.jobs, fun _ => hapart.dispatcher, fun thread hw hr => hapart.running thread ?_ hr⟩
    cases l with
    | exit t stopped =>
      rintro he
      cases he
      simp [aside, hw] at haside
    | _ => nofun
  | true =>
    suffices hkeep : casts.jobs = s.casts.jobs ∧ ∀ thread, s.casts.Running thread → casts.Running thread from
      ⟨hkeep.1, nofun, fun thread _ hr => hkeep.2 thread hr⟩
    cases l with
    | remove => exact ⟨(Casts.remove_joins h).1, (Casts.remove_joins h).2.1⟩
    | stopJoined =>
      obtain ⟨hj, ht, -⟩ := Casts.stopJoined_exited h
      exact ⟨hj, fun thread hr => hr.of_threads ht⟩
    | removeObject =>
      obtain ⟨hj, ht, -⟩ := Casts.removeObject_idles h
      exact ⟨hj, fun thread hr => hr.of_threads ht⟩
    | receive => cases haside
    | _ => cases hd

theorem step_awaited {s s' : Joins} {l : Label} (hi : s.Awaited) (h : s.step l = some s') : s'.Awaited := by
  cases l with
  | run l =>
    simp only [step] at h
    split at h
    · next haside =>
      obtain ⟨casts, hs, rfl⟩ := Option.map_eq_some_iff.1 h
      obtain ⟨hjobs, -, hrun⟩ := run_keeps haside hs
      exact ⟨hi.once, fun sender hm => hrun _ (waits_iff.2 ⟨sender, hm, rfl⟩) (hi.running sender hm),
        hi.jobs.trans hjobs.symm⟩
    · cases h
  | request =>
    cases h
    split
    · exact ⟨hi.once, hi.running, by rw [List.filterMap_append, hi.jobs]; exact List.append_nil _⟩
    · exact hi
  | beginSend thread atExit =>
    simp only [step] at h
    split at h
    · next hmay =>
      cases h
      obtain ⟨hsend, hwait⟩ := Bool.and_eq_true_iff.1 hmay
      refine ⟨?_, fun sender hm => ?_, hi.jobs⟩
      · have hnot : thread ∉ s.senders.map (·.thread) := by simpa [waits] using hwait
        simpa [List.nodup_append] using ⟨hi.once, fun sender hm heq => hnot (List.mem_map.2 ⟨sender, hm, heq⟩)⟩
      · rcases List.mem_append.1 hm with hm | hm
        · exact hi.running sender hm
        · rw [List.mem_singleton.1 hm]
          unfold maySend at hsend
          split at hsend
          · next t ht => exact ⟨t, ht, by simp only [Bool.and_eq_true, Bool.not_eq_true'] at hsend; exact hsend.1.1⟩
          · cases hsend
    · cases h
  | finishSend k =>
    obtain ⟨-, sender, job, hk, hq, hsend, -, hj, hrun⟩ := finishSend_eq_some h
    refine ⟨?_, fun other hm => ?_, ?_⟩
    · rw [hsend]
      exact hi.once.sublist ((List.eraseIdx_sublist _ k).map _)
    · rw [hsend] at hm
      refine hrun _ (fun heq => ?_) (hi.running other (List.mem_of_mem_eraseIdx hm))
      -- the sender that went on waited only once
      obtain ⟨j, hne, hj⟩ := List.mem_eraseIdx_iff_getElem?.1 hm
      have hlt : k < (s.senders.map (·.thread)).length := by simpa using (List.getElem?_eq_some_iff.1 hk).1
      exact hne ((List.getElem?_inj hlt hi.once).1 (by simp [hk, hj, heq])).symm
    · rw [hq, hj, List.filterMap_append, hi.jobs]
      rfl
  | send k =>
    simp only [step] at h
    split at h
    · obtain ⟨job, hq, hsend, ht, -, hj⟩ := deliver_eq_some h
      refine ⟨by rw [hsend]; exact hi.once, fun sender hm => (hi.running sender (hsend ▸ hm)).of_threads ht, ?_⟩
      rw [hq, hj, List.filterMap_append, hi.jobs]
      rfl
    · cases h
  | receive =>
    obtain ⟨-, -, hsend, ht, hjobs⟩ := receive_eq_some h
    exact ⟨by rw [hsend]; exact hi.once, fun sender hm => (hi.running sender (hsend ▸ hm)).of_threads ht, hjobs hi.jobs⟩

/-! ## A deadlock does not end -/

theorem held_iff {s : Joins} : s.held = true ↔
    ∃ path thread, s.casts.dispatcher = .joining path (some thread) ∧ s.waits thread = true := by
  unfold held joined
  cases s.casts.dispatcher with
  | joining path thread => cases thread <;> simp
  | idle | received | emitting => simp

theorem held_congr {s s' : Joins} (hd : s'.casts.dispatcher = s.casts.dispatcher) (hs : s'.senders = s.senders) :
    s'.held = s.held := by
  unfold held joined
  rw [hd, show s'.waits = s.waits by funext thread; simp only [waits, hs]]

/-- Whoever sends is refused or waits, the thread does not return, and so the
dispatcher takes no job out. -/
theorem step_deadlocked {s s' : Joins} {l : Label} (hi : s.Awaited) (hd : s.Deadlocked) (h : s.step l = some s') :
    s'.Deadlocked := by
  obtain ⟨hheld, hfull⟩ := hd
  obtain ⟨path, thread, hjoin, hwait⟩ := held_iff.1 hheld
  cases l with
  | run l =>
    simp only [step] at h
    split at h
    · next haside =>
      obtain ⟨casts, hs, rfl⟩ := Option.map_eq_some_iff.1 h
      refine ⟨held_iff.2 ⟨path, thread, ?_, hwait⟩, hfull⟩
      cases hdisp : Casts.dispatching l with
      | false => exact ((run_keeps haside hs).2.1 hdisp).trans hjoin
      | true =>
        cases l with
        | remove =>
          obtain ⟨-, -, job, hreceived, -⟩ := Casts.remove_joins hs
          cases hjoin.symm.trans hreceived
        | stopJoined =>
          obtain ⟨-, -, path', thread', hjoin', -, hexit⟩ := Casts.stopJoined_exited hs
          cases hjoin.symm.trans hjoin'
          obtain ⟨sender, hm, rfl⟩ := waits_iff.1 hwait
          exact absurd (hi.running sender hm) (hexit _ rfl)
        | removeObject =>
          obtain ⟨-, -, ⟨path', hemit⟩, -⟩ := Casts.removeObject_idles hs
          cases hjoin.symm.trans hemit
        | receive => cases haside
        | _ => cases hdisp
    · cases h
  | request =>
    cases h
    rw [hfull]
    exact ⟨hheld, hfull⟩
  | beginSend other atExit =>
    simp only [step] at h
    split at h
    · cases h
      obtain ⟨sender, hm, hthread⟩ := waits_iff.1 hwait
      exact ⟨held_iff.2 ⟨path, thread, hjoin, waits_iff.2 ⟨sender, List.mem_append_left _ hm, hthread⟩⟩, hfull⟩
    · cases h
  | finishSend k => exact absurd (finishSend_eq_some h).1 (by simp [hfull])
  | send k => simp [step, hfull] at h
  | receive => cases hjoin.symm.trans (receive_eq_some h).1

/-! ## When there is always room -/

theorem hasRoom_of_two {s s' : Joins} (h : s.roomForTwo = true) (hlen : s'.queue.length = s.queue.length + 1) :
    s'.hasRoom = true := by
  simpa [hasRoom, roomForTwo, hlen] using h

/-- A step of the condition does not lead into a deadlock. -/
theorem step_roomy {s s' : Joins} {l : Label} (hi : s.held = true → s.hasRoom = true) (hg : s.Roomy l)
    (h : s.step l = some s') : s'.held = true → s'.hasRoom = true := by
  intro hheld
  cases l with
  | run l =>
    simp only [step] at h
    split at h
    · next haside =>
      obtain ⟨casts, hs, rfl⟩ := Option.map_eq_some_iff.1 h
      obtain ⟨path, thread, hjoin, hwait⟩ := held_iff.1 hheld
      cases hdisp : Casts.dispatching l with
      | false =>
        exact hi (held_iff.2 ⟨path, thread, ((run_keeps haside hs).2.1 hdisp).symm.trans hjoin, hwait⟩)
      | true =>
        cases l with
        | remove =>
          obtain ⟨-, -, job, hreceived, hidle | hjoins⟩ := Casts.remove_joins hs
          · cases hidle.symm.trans hjoin
          · have hthread : s.toJoin = some thread := by
              rw [toJoin, hreceived]
              exact (Dispatcher.joining.inj (hjoins.symm.trans hjoin)).2
            exact hg (by rw [hthread]; exact hwait)
        | stopJoined =>
          obtain ⟨-, -, path', thread', -, hemit, -⟩ := Casts.stopJoined_exited hs
          cases hemit.symm.trans hjoin
        | removeObject => cases (Casts.removeObject_idles hs).2.2.2.symm.trans hjoin
        | receive => cases haside
        | _ => cases hdisp
    · cases h
  | request =>
    cases h
    split
    · next hroom =>
      rw [if_pos hroom] at hheld
      exact hasRoom_of_two (hg hheld) (by simp)
    · next hroom =>
      rw [if_neg hroom] at hheld
      exact hi hheld
  | beginSend thread atExit =>
    simp only [step] at h
    split at h
    · cases h
      obtain ⟨path, other, hjoin, hwait⟩ := held_iff.1 hheld
      obtain ⟨sender, hm, rfl⟩ := waits_iff.1 hwait
      rcases List.mem_append.1 hm with hm | hm
      · exact hi (held_iff.2 ⟨path, sender.thread, hjoin, waits_iff.2 ⟨sender, hm, rfl⟩⟩)
      · rw [List.mem_singleton.1 hm] at hjoin
        have hjoined : s.joined = some thread := by rw [joined, show s.casts.dispatcher = .joining path (some thread) from hjoin]
        exact hg hjoined
    · cases h
  | finishSend k =>
    obtain ⟨-, sender, job, -, hq, hsend, hd, -, -⟩ := finishSend_eq_some h
    have hother := held_congr (s := { s with senders := s.senders.eraseIdx k }) hd hsend
    exact hasRoom_of_two (hg (hother.symm.trans hheld)) (by simp [hq])
  | send k =>
    simp only [step] at h
    split at h
    · obtain ⟨job, hq, hsend, -, hd, -⟩ := deliver_eq_some h
      exact hasRoom_of_two (hg ((held_congr hd hsend).symm.trans hheld)) (by simp [hq])
    · cases h
  | receive =>
    obtain ⟨-, hjoined, -⟩ := receive_eq_some h
    simp [held, hjoined] at hheld

/-! ## Runs -/

theorem awaited_start : start.Awaited := ⟨List.nodup_nil, nofun, rfl⟩

theorem reach_deliver {s s' : Joins} {k : Nat} (h : Reach (· = Casts.init) Casts.step s.casts)
    (hs : s.deliver k = some s') : Reach (· = Casts.init) Casts.step s'.casts := by
  obtain ⟨job, -, hs⟩ := Option.bind_eq_some_iff.1 hs
  obtain ⟨casts, hstep, rfl⟩ := Option.map_eq_some_iff.1 hs
  exact h.step hstep

/-- What the parties do here they do in a run of `Casts`. -/
theorem reach_casts {s : Joins} (h : Reach (· = start) step s) : Reach (· = Casts.init) Casts.step s.casts := by
  refine h.inv (I := fun s => Reach (· = Casts.init) Casts.step s.casts) (fun _ h0 => h0 ▸ .init rfl) ?_
  intro s l s' hi hs
  cases l with
  | run l =>
    simp only [step] at hs
    split at hs
    · obtain ⟨casts, hstep, rfl⟩ := Option.map_eq_some_iff.1 hs
      exact hi.step hstep
    · cases hs
  | request =>
    cases hs
    split <;> exact hi
  | beginSend thread atExit =>
    simp only [step] at hs
    split at hs
    · cases hs; exact hi
    · cases hs
  | finishSend k =>
    simp only [step] at hs
    split at hs
    · obtain ⟨sender, -, hs⟩ := Option.bind_eq_some_iff.1 hs
      obtain ⟨casts, hstep, hs⟩ := Option.bind_eq_some_iff.1 hs
      exact reach_deliver (s := { s with casts := casts, senders := s.senders.eraseIdx k }) (hi.step hstep) hs
    · cases hs
  | send k =>
    simp only [step] at hs
    split at hs
    · exact reach_deliver hi hs
    · cases hs
  | receive =>
    simp only [step] at hs
    split at hs
    · cases hs
    · split at hs
      · cases hs; exact hi
      · cases hs
    · obtain ⟨casts, hstep, rfl⟩ := Option.map_eq_some_iff.1 hs
      exact hi.step hstep

/-- A run that gets into a deadlock stays there. -/
theorem deadlocked_forever {s s' : Joins} (h : Reach (· = start) step s) (hd : s.Deadlocked) {labels : List Label}
    (he : exec step s labels = some s') : s'.Deadlocked := by
  have hi : s.Awaited := h.inv (fun _ h0 => h0 ▸ awaited_start) fun _ _ _ hi hs => step_awaited hi hs
  have hrun : Reach (· = s) step s' := (Reach.init rfl : Reach (· = s) step s).exec he
  exact (hrun.inv (I := fun s => s.Awaited ∧ s.Deadlocked) (fun _ h0 => h0 ▸ ⟨hi, hd⟩)
    fun _ _ _ hi hs => ⟨step_awaited hi.1 hs, step_deadlocked hi.1 hi.2 hs⟩).2

/-- In every run whose steps leave room for a thread that is joined, the dispatcher
does not wait for a thread that waits for the dispatcher. -/
theorem no_deadlock {s : Joins} (h : Reach (· = start) (Guarded Roomy step) s) : ¬ s.Deadlocked := by
  have hroom := h.inv_guarded (I := fun s => s.held = true → s.hasRoom = true) (fun _ h0 => by subst h0; nofun)
    fun _ _ _ hi hg hs => step_roomy hi hg hs
  rintro ⟨hheld, hfull⟩
  rw [hroom hheld] at hfull
  cases hfull

/-! ## A stream that ends while its session is closed -/

def closingPath : String := "/org/freedesktop/portal/desktop/session/1_7/s"

/-- A session whose cast is up. -/
def casting : List Label :=
  [.run (.create closingPath "org.example.App"), .run (.export 0 false),
   .run (.select closingPath "org.example.App" ⟨.monitor none, 1, 0, none⟩), .run (.reserve closingPath "org.example.App"),
   .run (.spawn 0 false), .run (.ask 0 29 true), .run (.complete 0), .run (.started 0 false), .run (.install 0)]

/-- Its application closes it, and 127 requests come in behind. -/
def busy : List Label := casting ++ [.run (.close closingPath), .send 0] ++ List.replicate 127 .request

/-- The compositor ends the stream while the dispatcher takes up the close. -/
def endsInTime : List Label :=
  busy ++ [.receive, .beginSend 0 false, .run .remove, .finishSend 0, .run (.exit 0 true), .run .stopJoined]

theorem no_deadlock_busy : ∃ s, exec (Guarded Roomy step) start endsInTime = some s ∧
    s.queue.length = 128 ∧ s.casts.dispatcher = .emitting closingPath ∧ ¬ s.Deadlocked := by
  have hrun : ∃ s, exec (Guarded Roomy step) start endsInTime = some s ∧ s.queue.length = 128 ∧
      s.casts.dispatcher = .emitting closingPath :=
    ⟨(exec (Guarded Roomy step) start endsInTime).get (by decide +kernel), by simp, by decide +kernel, by decide +kernel⟩
  obtain ⟨s, he, hl, hd⟩ := hrun
  exact ⟨s, he, hl, hd, no_deadlock ((Reach.init rfl : Reach (· = start) (Guarded Roomy step) start).exec he)⟩

/-- With one request more the queue is full when the thread begins to send, and the
dispatcher joins it. -/
theorem full_queue_deadlocks : ∃ s, Reach (· = start) step s ∧ s.Deadlocked ∧
    ∀ labels s', exec step s labels = some s' → s'.Deadlocked := by
  have hrun : ∃ s, exec step start (busy ++ [.receive, .request, .beginSend 0 false, .run .remove]) = some s ∧
      s.held = true ∧ s.hasRoom = false :=
    ⟨(exec step start (busy ++ [.receive, .request, .beginSend 0 false, .run .remove])).get (by decide +kernel), by simp,
      by decide +kernel, by decide +kernel⟩
  obtain ⟨s, he, hheld, hfull⟩ := hrun
  have hreach : Reach (· = start) step s := (Reach.init rfl : Reach (· = start) step start).exec he
  exact ⟨s, hreach, ⟨hheld, hfull⟩, fun labels s' he' => deadlocked_forever hreach ⟨hheld, hfull⟩ he'⟩

end Joins

end AtriumPortal.ScreenCast
