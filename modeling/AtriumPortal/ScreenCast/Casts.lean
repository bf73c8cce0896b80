import AtriumPortal.ScreenCast.Session
import AtriumPortal.Ipc.Client
import AtriumPortal.Lib.Runs
/-!
# Sessions, Starts and casts

The parties of `screencast.rs` around the session registry: `CreateSession`
calls, the Start workers (`start_cast`), the cast threads (`run_cast`), the
bounded job queue with those who wait to send into it, and the dispatcher
(`cast_worker`, `close_session`). A SelectSources or Start job only starts a
worker, so its effect is a step of its own at any later time.

Everything is keyed by object path. The fields called `incarnation`, and the
logs `armed` and `closes`, are not in the code: they say which session a party
was made for.
-/
open AtriumPortal.Lib.Table

namespace AtriumPortal.ScreenCast

def maxQueuedRequests : Nat := 128
def streamMaxFps : Nat := 60

/-- How far `start_cast` got after it reserved the session. -/
inductive StartPhase where
  | reserved
  | negotiating (thread : Nat)
  /-- The cast is up and the request is not closed. -/
  | installing (thread : Nat)
  /-- The stop end is dropped; after the join comes `clear_start`, or not. -/
  | joining (thread : Nat) (clear : Bool)
  deriving DecidableEq, Repr

structure StartWorker where
  path : String
  selection : StartSelection
  phase : StartPhase
  incarnation : Nat
  deriving DecidableEq, Repr

structure CastThread where
  path : String
  source : CastSource
  cursor : Ipc.StreamCursorMode
  /-- The streams it asked the compositor for. -/
  asked : List Ipc.Request
  completed : Bool
  /-- The write end of its stop socket is gone. -/
  stopDropped : Bool
  exited : Bool
  incarnation : Nat
  deriving DecidableEq, Repr

/-- A `CloseSession` or `SessionEnded` job. -/
structure CloseJob where
  ended : Bool
  path : String
  incarnation : Nat
  deriving DecidableEq, Repr

/-- Where the dispatcher is in `close_session`. -/
inductive Dispatcher where
  | idle
  | received (job : CloseJob)
  | joining (path : String) (thread : Option Nat)
  | emitting (path : String)
  deriving DecidableEq, Repr

structure Casts where
  registry : SessionRegistry
  /-- `CreateSession` calls that inserted their session and have not exported it. -/
  creating : List (String × Nat)
  /-- The exported session objects. -/
  exported : Map String Nat
  workers : List StartWorker
  threads : List CastThread
  /-- Jobs whose sender waits for room in the queue. -/
  sending : List CloseJob
  jobs : List CloseJob
  dispatcher : Dispatcher
  armed : List (Nat × StartSelection)
  /-- For every session a job closed: whom the job was for, and the session. -/
  closes : List (Nat × Nat)

def CastThread.target (t : CastThread) : Ipc.StreamTarget := t.source.target

/-- What `start_output_stream` writes on a connection of protocol `version`. -/
def CastThread.request (t : CastThread) (version : Nat) (dmabuf : Bool) : Option Ipc.Request :=
  if version < 29 && Ipc.Client.perOutput t.target then none
  else some (.streamOutputStart (some streamMaxFps) t.target (if dmabuf && 25 ≤ version then some true else none)
    (some t.cursor |>.filter fun _ => 29 ≤ version))

/-- `cursor_mode` 2 is Embedded. -/
def cursorOf (cursorMode : Nat) : Ipc.StreamCursorMode := if cursorMode = 2 then .embedded else .hidden

namespace Casts

def init : Casts := ⟨.empty, [], ∅, [], [], [], [], .idle, [], []⟩

/-! ## Parts of the steps -/

/-- Drop the write end of a cast thread's stop socket. -/
def dropStop (s : Casts) (thread : Nat) : Casts :=
  { s with threads := s.threads.modify thread fun t => { t with stopDropped := true } }

def dropStop? (s : Casts) (thread : Option Nat) : Casts :=
  match thread with
  | none => s
  | some thread => s.dropStop thread

/-- Send a job: it gets into the queue when there is room. -/
def push (s : Casts) (job : CloseJob) : Casts := { s with sending := s.sending ++ [job] }

/-- Drop the session at a path, as `let _ = sessions.remove(path)` does. -/
def discard (s : Casts) (path : String) : Casts :=
  { s with registry := (s.registry.remove path).2 }.dropStop? ((s.registry.remove path).1.bind (·.stop))

/-- A SelectSources worker arms the session. -/
def select (s : Casts) (path appId : String) (selection : StartSelection) : Except String Casts :=
  match s.registry.markSourcesSelected path appId selection with
  | .error error => .error error
  | .ok registry =>
    .ok { s with
      registry := registry
      armed := s.armed ++ [(s.registry.incarnationAt path, selection)] }

def setPhase (s : Casts) (w : Nat) (phase : StartPhase) : Casts :=
  { s with workers := s.workers.modify w fun worker => { worker with phase := phase } }

def dropWorker (s : Casts) (w : Nat) : Casts := { s with workers := s.workers.eraseIdx w }

/-! ## Steps -/

inductive Step where
  /-- `CreateSession` inserts its session. -/
  | create (path appId : String)
  /-- The `k`-th of them exports its object; an error is `failed`. -/
  | export (k : Nat) (failed : Bool)
  | select (path appId : String) (selection : StartSelection)
  /-- A Start worker gets its reservation. -/
  | reserve (path appId : String)
  | spawn (w : Nat) (failed : Bool)
  /-- The cast is up; `closed` is what the worker's look at the request saw. -/
  | started (w : Nat) (closed : Bool)
  /-- The cast failed, or `START_TIMEOUT` ran out. -/
  | failed (w : Nat)
  | install (w : Nat)
  | joined (w : Nat)
  /-- A cast thread asks for its stream, first or after a change. -/
  | ask (t version : Nat) (dmabuf : Bool)
  | complete (t : Nat)
  | endCast (t : Nat)
  /-- The thread returns; `stopped` is `stopped_by_owner`. -/
  | exit (t : Nat) (stopped : Bool)
  /-- `Session.Close`. -/
  | close (path : String)
  /-- The `k`-th waiting sender gets its job into the queue. -/
  | send (k : Nat)
  | receive
  | remove
  | stopJoined
  | removeObject
  deriving Repr

/-- `object_server().at`: nothing is exported where an object is. -/
def exportObject (s : Casts) (k : Nat) (failed : Bool) (path : String) (incarnation : Nat) : Casts :=
  let s := { s with creating := s.creating.eraseIdx k }
  if failed || (s.exported.lookup path).isSome then s.discard path
  else { s with exported := s.exported.insert path incarnation }

/-- `reserve_start`, in a new Start worker. -/
def reserve (s : Casts) (path appId : String) : Except String Casts :=
  match s.registry.reserveStart path appId with
  | .error error => .error error
  | .ok (selection, registry) =>
    .ok { s with
      registry := registry
      workers := s.workers ++ [⟨path, selection, .reserved, s.registry.incarnationAt path⟩] }

/-- `cast::spawn`. -/
def spawn (s : Casts) (w : Nat) (worker : StartWorker) (failed : Bool) : Casts :=
  if failed then { s with registry := s.registry.clearStart worker.path }.dropWorker w
  else
    let thread : CastThread :=
      ⟨worker.path, worker.selection.source, cursorOf worker.selection.cursorMode, [], false, false, false,
        worker.incarnation⟩
    { s with threads := s.threads ++ [thread] }.setPhase w (.negotiating s.threads.length)

/-- `mark_started`: a stop end it replaces is dropped. -/
def install (s : Casts) (w : Nat) (worker : StartWorker) (thread : Nat) : Casts :=
  match s.registry.markStarted worker.path thread with
  | some registry =>
    { s with registry := registry }.dropStop? ((s.registry.sessions.lookup worker.path).bind (·.stop)) |>.dropWorker w
  | none => (s.dropStop thread).setPhase w (.joining thread false)

/-- What a Start worker does next. -/
def startStep (s : Casts) (w : Nat) (worker : StartWorker) : Step → Option Casts
  | .spawn _ failed => if worker.phase = .reserved then some (s.spawn w worker failed) else none
  | .started _ closed =>
    match worker.phase with
    | .negotiating thread =>
      if (s.threads[thread]?.map (·.completed)).getD false then
        some (if closed then (s.dropStop thread).setPhase w (.joining thread true) else s.setPhase w (.installing thread))
      else none
    | _ => none
  | .failed _ =>
    match worker.phase with
    | .negotiating thread => some ((s.dropStop thread).setPhase w (.joining thread true))
    | _ => none
  | .install _ =>
    match worker.phase with
    | .installing thread => some (s.install w worker thread)
    | _ => none
  | .joined _ =>
    match worker.phase with
    | .joining thread clear =>
      if (s.threads[thread]?.map (·.exited)).getD true then
        some <| { s with registry := if clear then s.registry.clearStart worker.path else s.registry }.dropWorker w
      else none
    | _ => none
  | _ => none

def setThread (s : Casts) (t : Nat) (thread : CastThread) : Casts := { s with threads := s.threads.set t thread }

/-- The job by which a cast thread reports the end of its stream. -/
def CastThread.ended (t : CastThread) : CloseJob := ⟨true, t.path, t.incarnation⟩

/-- What a cast thread that runs does next. -/
def threadStep (s : Casts) (t : Nat) (thread : CastThread) : Step → Option Casts
  | .ask _ version dmabuf =>
    (thread.request version (thread.asked.isEmpty || dmabuf)).map fun request =>
      s.setThread t { thread with asked := thread.asked ++ [request] }
  | .complete _ => if thread.asked.isEmpty then none else some (s.setThread t { thread with completed := true })
  | .endCast _ => if thread.asked.isEmpty then none else some (s.push (CastThread.ended thread))
  | .exit _ stopped =>
    if stopped && !thread.stopDropped then none
    else
      let s := s.setThread t { thread with exited := true }
      some (if thread.completed && !stopped then s.push (CastThread.ended thread) else s)
  | _ => none

/-- `close_session` once a job is received. -/
def removeSession (s : Casts) (job : CloseJob) : Casts :=
  match s.registry.remove job.path with
  | (none, _) => { s with dispatcher := .idle }
  | (some session, registry) =>
    { s with
      registry := registry
      dispatcher := .joining job.path session.castThread
      closes := s.closes ++ [(job.incarnation, session.incarnation)] }.dropStop? session.stop

def dispatcherStep (s : Casts) : Step → Option Casts
  | .receive =>
    match s.dispatcher, s.jobs with
    | .idle, job :: jobs => some { s with jobs := jobs, dispatcher := .received job }
    | _, _ => none
  | .remove =>
    match s.dispatcher with
    | .received job => some (s.removeSession job)
    | _ => none
  | .stopJoined =>
    match s.dispatcher with
    | .joining path thread =>
      if (thread.bind fun thread => s.threads[thread]?.map (·.exited)).getD true then
        some { s with dispatcher := .emitting path }
      else none
    | _ => none
  | .removeObject =>
    match s.dispatcher with
    | .emitting path => some { s with exported := s.exported.erase path, dispatcher := .idle }
    | _ => none
  | _ => none

def step (s : Casts) (l : Step) : Option Casts :=
  match l with
  | .create path appId =>
    match s.registry.insert path appId with
    | .ok registry => some { s with registry := registry, creating := s.creating ++ [(path, s.registry.next)] }
    | .error _ => none
  | .export k failed => s.creating[k]?.map fun call => s.exportObject k failed call.1 call.2
  | .select path appId selection => (s.select path appId selection).toOption
  | .reserve path appId => (s.reserve path appId).toOption
  | .spawn w _ => s.workers[w]?.bind fun worker => s.startStep w worker l
  | .started w _ => s.workers[w]?.bind fun worker => s.startStep w worker l
  | .failed w => s.workers[w]?.bind fun worker => s.startStep w worker l
  | .install w => s.workers[w]?.bind fun worker => s.startStep w worker l
  | .joined w => s.workers[w]?.bind fun worker => s.startStep w worker l
  | .ask t _ _ => (s.threads[t]?.filter (!·.exited)).bind fun thread => s.threadStep t thread l
  | .complete t => (s.threads[t]?.filter (!·.exited)).bind fun thread => s.threadStep t thread l
  | .endCast t => (s.threads[t]?.filter (!·.exited)).bind fun thread => s.threadStep t thread l
  | .exit t _ => (s.threads[t]?.filter (!·.exited)).bind fun thread => s.threadStep t thread l
  | .close path => (s.exported.lookup path).map fun incarnation => s.push ⟨false, path, incarnation⟩
  | .send k =>
    if s.jobs.length < maxQueuedRequests then
      s.sending[k]?.map fun job => { s with sending := s.sending.eraseIdx k, jobs := s.jobs ++ [job] }
    else none
  | .receive => s.dispatcherStep l
  | .remove => s.dispatcherStep l
  | .stopJoined => s.dispatcherStep l
  | .removeObject => s.dispatcherStep l

/-! ## What a step can do -/

/-- A step and the state it leads to, with all that it requires. -/
inductive Takes (s : Casts) : Step → Casts → Prop
  | create {path appId registry} : s.registry.insert path appId = .ok registry →
      Takes s (.create path appId) { s with registry := registry, creating := s.creating ++ [(path, s.registry.next)] }
  | exportObject {k failed call} : s.creating[k]? = some call →
      Takes s (.export k failed) (s.exportObject k failed call.1 call.2)
  | select {path appId selection s'} : s.select path appId selection = .ok s' →
      Takes s (.select path appId selection) s'
  | reserve {path appId s'} : s.reserve path appId = .ok s' → Takes s (.reserve path appId) s'
  | spawn {w worker failed} : s.workers[w]? = some worker → worker.phase = .reserved →
      Takes s (.spawn w failed) (s.spawn w worker failed)
  | started {w worker thread} : s.workers[w]? = some worker → worker.phase = .negotiating thread →
      (s.threads[thread]?.map (·.completed)).getD false = true →
      Takes s (.started w false) (s.setPhase w (.installing thread))
  | startedClosed {w worker thread} : s.workers[w]? = some worker → worker.phase = .negotiating thread →
      (s.threads[thread]?.map (·.completed)).getD false = true →
      Takes s (.started w true) ((s.dropStop thread).setPhase w (.joining thread true))
  | failed {w worker thread} : s.workers[w]? = some worker → worker.phase = .negotiating thread →
      Takes s (.failed w) ((s.dropStop thread).setPhase w (.joining thread true))
  | install {w worker thread} : s.workers[w]? = some worker → worker.phase = .installing thread →
      Takes s (.install w) (s.install w worker thread)
  | joined {w worker thread clear} : s.workers[w]? = some worker → worker.phase = .joining thread clear →
      (s.threads[thread]?.map (·.exited)).getD true = true →
      Takes s (.joined w)
        ({ s with registry := if clear then s.registry.clearStart worker.path else s.registry }.dropWorker w)
  | ask {t thread version dmabuf request} : s.threads[t]? = some thread → thread.exited = false →
      thread.request version (thread.asked.isEmpty || dmabuf) = some request →
      Takes s (.ask t version dmabuf) (s.setThread t { thread with asked := thread.asked ++ [request] })
  | complete {t thread} : s.threads[t]? = some thread → thread.exited = false → thread.asked.isEmpty = false →
      Takes s (.complete t) (s.setThread t { thread with completed := true })
  | endCast {t thread} : s.threads[t]? = some thread → thread.exited = false → thread.asked.isEmpty = false →
      Takes s (.endCast t) (s.push (CastThread.ended thread))
  | exit {t thread stopped} : s.threads[t]? = some thread → thread.exited = false →
      (stopped && !thread.stopDropped) = false → (thread.completed && !stopped) = false →
      Takes s (.exit t stopped) (s.setThread t { thread with exited := true })
  | exitReported {t thread} : s.threads[t]? = some thread → thread.exited = false → thread.completed = true →
      Takes s (.exit t false) ((s.setThread t { thread with exited := true }).push (CastThread.ended thread))
  | close {path i} : s.exported.lookup path = some i → Takes s (.close path) (s.push ⟨false, path, i⟩)
  | send {k job} : s.jobs.length < maxQueuedRequests → s.sending[k]? = some job →
      Takes s (.send k) { s with sending := s.sending.eraseIdx k, jobs := s.jobs ++ [job] }
  | receive {job jobs} : s.dispatcher = .idle → s.jobs = job :: jobs →
      Takes s .receive { s with jobs := jobs, dispatcher := .received job }
  | remove {job} : s.dispatcher = .received job → Takes s .remove (s.removeSession job)
  | stopJoined {path thread} : s.dispatcher = .joining path thread →
      (thread.bind fun thread => s.threads[thread]?.map (·.exited)).getD true = true →
      Takes s .stopJoined { s with dispatcher := .emitting path }
  | removeObject {path} : s.dispatcher = .emitting path →
      Takes s .removeObject { s with exported := s.exported.erase path, dispatcher := .idle }

theorem running_of_bind {s s' : Casts} {t : Nat} {f : CastThread → Option Casts}
    (h : (s.threads[t]?.filter (!·.exited)).bind f = some s') :
    ∃ thread, s.threads[t]? = some thread ∧ thread.exited = false ∧ f thread = some s' := by
  obtain ⟨thread, hth, h⟩ := Option.bind_eq_some_iff.1 h
  obtain ⟨ht, hrun⟩ := Option.filter_eq_some_iff.1 hth
  exact ⟨thread, ht, by simpa using hrun, h⟩

theorem step_takes {s s' : Casts} {l : Step} (h : s.step l = some s') : s.Takes l s' := by
  cases l with
  | create path appId =>
    simp only [step] at h
    split at h
    · next registry hr => cases h; exact .create hr
    · cases h
  | «export» k failed =>
    obtain ⟨call, hcall, rfl⟩ := Option.map_eq_some_iff.1 h
    exact .exportObject hcall
  | select path appId selection =>
    simp only [step] at h
    cases hs : s.select path appId selection with
    | error error => simp [hs, Except.toOption] at h
    | ok s₁ =>
      obtain rfl : s₁ = s' := by simpa [hs, Except.toOption] using h
      exact .select hs
  | reserve path appId =>
    simp only [step] at h
    cases hs : s.reserve path appId with
    | error error => simp [hs, Except.toOption] at h
    | ok s₁ =>
      obtain rfl : s₁ = s' := by simpa [hs, Except.toOption] using h
      exact .reserve hs
  | spawn w failed =>
    obtain ⟨worker, hw, h⟩ := Option.bind_eq_some_iff.1 h
    simp only [startStep] at h
    split at h
    · next hph => cases h; exact .spawn hw hph
    · cases h
  | started w closed =>
    obtain ⟨worker, hw, h⟩ := Option.bind_eq_some_iff.1 h
    simp only [startStep] at h
    split at h
    · next thread hph =>
      split at h
      · next hup =>
        cases closed with
        | true => cases h; exact .startedClosed hw hph hup
        | false => cases h; exact .started hw hph hup
      · cases h
    · cases h
  | failed w =>
    obtain ⟨worker, hw, h⟩ := Option.bind_eq_some_iff.1 h
    simp only [startStep] at h
    split at h
    · next thread hph => cases h; exact .failed hw hph
    · cases h
  | install w =>
    obtain ⟨worker, hw, h⟩ := Option.bind_eq_some_iff.1 h
    simp only [startStep] at h
    split at h
    · next thread hph => cases h; exact .install hw hph
    · cases h
  | joined w =>
    obtain ⟨worker, hw, h⟩ := Option.bind_eq_some_iff.1 h
    simp only [startStep] at h
    split at h
    · next thread clear hph =>
      split at h
      · next hexit => cases h; exact .joined hw hph hexit
      · cases h
    · cases h
  | ask t version dmabuf =>
    obtain ⟨thread, ht, hrun, h⟩ := running_of_bind h
    obtain ⟨request, hr, rfl⟩ := Option.map_eq_some_iff.1 h
    exact .ask ht hrun hr
  | complete t =>
    obtain ⟨thread, ht, hrun, h⟩ := running_of_bind h
    simp only [threadStep] at h
    split at h
    · cases h
    · next hasked => cases h; exact .complete ht hrun (by simpa using hasked)
  | endCast t =>
    obtain ⟨thread, ht, hrun, h⟩ := running_of_bind h
    simp only [threadStep] at h
    split at h
    · cases h
    · next hasked => cases h; exact .endCast ht hrun (by simpa using hasked)
  | exit t stopped =>
    obtain ⟨thread, ht, hrun, hs⟩ := running_of_bind h
    simp only [threadStep] at hs
    split at hs
    · cases hs
    · next hstop =>
      split at hs
      · next hreport =>
        -- The thread returned by itself after its cast was up.
        obtain ⟨hcomplete, hstopped⟩ := Bool.and_eq_true_iff.1 hreport
        obtain rfl : stopped = false := by simpa using hstopped
        cases hs
        exact .exitReported ht hrun hcomplete
      · next hreport =>
        cases hs
        exact .exit ht hrun (Bool.eq_false_iff.2 hstop) (Bool.eq_false_iff.2 hreport)
  | close path =>
    obtain ⟨i, hi, rfl⟩ := Option.map_eq_some_iff.1 h
    exact .close hi
  | send k =>
    simp only [step] at h
    split at h
    · next hroom =>
      obtain ⟨job, hjob, rfl⟩ := Option.map_eq_some_iff.1 h
      exact .send hroom hjob
    · cases h
  | receive =>
    simp only [step, dispatcherStep] at h
    split at h
    · next job jobs hd hjobs => cases h; exact .receive hd hjobs
    · cases h
  | remove =>
    simp only [step, dispatcherStep] at h
    split at h
    · next job hd => cases h; exact .remove hd
    · cases h
  | stopJoined =>
    simp only [step, dispatcherStep] at h
    split at h
    · next path thread hd =>
      split at h
      · next hexit => cases h; exact .stopJoined hd hexit
      · cases h
    · cases h
  | removeObject =>
    simp only [step, dispatcherStep] at h
    split at h
    · next path hd => cases h; exact .removeObject hd
    · cases h

end Casts

end AtriumPortal.ScreenCast
