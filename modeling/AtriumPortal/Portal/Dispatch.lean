import AtriumPortal.Lib.Positions
import AtriumPortal.Lib.Runs
import AtriumPortal.ScreenCast.Select
import AtriumPortal.Screenshot.Jobs
import Mathlib.Algebra.Group.Nat.Defs
import Mathlib.Data.List.Count
/-!
# The dispatchers of casts and captures

`cast_worker` of `screencast.rs` and `capture_worker` of `screenshot.rs`: a loop takes
the queued jobs one by one and gives each a thread, unless too many run already. The
bus methods, the loop and the threads run next to each other; a step is one
operation on what they share. `admission_exact`: however the steps interleave, the
counter is right whenever the loop waits for a job, and each job is replied to once.
-/
open AtriumPortal.Lib.Positions AtriumPortal.Lib.Runs AtriumPortal.ScreenCast AtriumPortal.Screenshot

namespace AtriumPortal.Portal.Dispatch

/-- `MAX_QUEUED_REQUESTS`. -/
def maxQueuedRequests : Nat := 128
def maxActiveCaptures : Nat := 32

inductive CastJob where
  | selectSources (requestPath sessionPath appId : String) (options : SelectSources.SelectOptions)
      (sender : Option String)
  | start (requestPath sessionPath appId : String)
  | closeSession (sessionPath : String)
  | sessionEnded (sessionPath : String)
  deriving DecidableEq, Repr

/-- What the dispatchers differ in. -/
structure Dispatcher (J R : Type) where
  limit : Nat
  /-- The job gets a thread and wants a reply; the loop serves the others itself. -/
  admits : J → Bool
  refused : R

def castWorker : Dispatcher CastJob PortalResponse where
  limit := SelectSources.maxActiveCastRequests
  admits
    | .selectSources .. | .start .. => true
    | .closeSession _ | .sessionEnded _ => false
  refused := ⟨2, []⟩

def captureWorker : Dispatcher CaptureJob CaptureResponse where
  limit := maxActiveCaptures
  admits
    | .screenshot .. | .pickColor .. => true
  refused := ⟨2, []⟩

/-- Where the loop is; a job is known by its number. -/
inductive Loop (J : Type) where
  | receiving
  | received (n : Nat) (job : J)
  /-- `fetch_add` returned `previous`. -/
  | counted (n : Nat) (job : J) (previous : Nat)
  /-- The guard is made, the thread is not. -/
  | spawning (n : Nat) (job : J)
  | refusing (n : Nat)
  deriving DecidableEq, Repr

inductive Phase where
  | running
  | replied
  /-- The guard is dropped. -/
  | finished
  deriving DecidableEq, Repr

structure Task (J : Type) where
  number : Nat
  job : J
  phase : Phase
  deriving DecidableEq, Repr

structure State (J R : Type) where
  /-- Every job that was queued; its position is its number. -/
  jobs : List J
  queue : List (Nat × J)
  loop : Loop J
  active : Nat
  tasks : List (Task J)
  /-- What was sent into the reply channels of the jobs. -/
  replies : List (Nat × R)
  /-- The jobs that went to `close_session`. -/
  closed : List J
  deriving DecidableEq, Repr

inductive Label (J R : Type) where
  | arrive (job : J)
  /-- The loop's next operation; `spawned` is the outcome of a spawn. -/
  | loop (spawned : Bool)
  | reply (i : Nat) (response : R)
  | finish (i : Nat)

variable {J R : Type}

/-- `AtomicUsize` wraps around. -/
def fetchAdd (active : Nat) : Nat := (active + 1) % 2 ^ 64
def fetchSub (active : Nat) : Nat := (active + (2 ^ 64 - 1)) % 2 ^ 64

def start : State J R := ⟨[], [], .receiving, 0, [], [], []⟩

/-- The loop's next operation. -/
def loopStep (d : Dispatcher J R) (s : State J R) (spawned : Bool) : Option (State J R) :=
  match s.loop with
  | .receiving =>
    match s.queue with
    | [] => none
    | (n, job) :: queue => some { s with queue := queue, loop := .received n job }
  | .received n job =>
    if d.admits job then some { s with loop := .counted n job s.active, active := fetchAdd s.active }
    else some { s with loop := .receiving, closed := s.closed ++ [job] }
  | .counted n job previous =>
    if d.limit ≤ previous then some { s with loop := .refusing n, active := fetchSub s.active }
    else some { s with loop := .spawning n job }
  | .spawning n job =>
    if spawned then some { s with loop := .receiving, tasks := s.tasks ++ [⟨n, job, .running⟩] }
    -- The closure is dropped, and the guard with it.
    else some { s with loop := .refusing n, active := fetchSub s.active }
  | .refusing n => some { s with loop := .receiving, replies := s.replies ++ [(n, d.refused)] }

def step (d : Dispatcher J R) (s : State J R) : Label J R → Option (State J R)
  | .arrive job =>
    if s.queue.length < maxQueuedRequests then
      some { s with jobs := s.jobs ++ [job], queue := s.queue ++ [(s.jobs.length, job)] }
    else none
  | .loop spawned => loopStep d s spawned
  | .reply i response =>
    match s.tasks[i]? with
    | some ⟨n, job, .running⟩ =>
      some { s with tasks := s.tasks.set i ⟨n, job, .replied⟩, replies := s.replies ++ [(n, response)] }
    | _ => none
  | .finish i =>
    match s.tasks[i]? with
    | some ⟨n, job, .replied⟩ =>
      some { s with tasks := s.tasks.set i ⟨n, job, .finished⟩, active := fetchSub s.active }
    | _ => none

/-! ## What holds of a state -/

def Task.unfinished (t : Task J) : Bool := t.phase ≠ .finished
def Task.running (t : Task J) : Bool := t.phase = .running

namespace State

/-- How many admitted tasks have not finished. -/
def unfinished (s : State J R) : Nat := s.tasks.countP Task.unfinished

def repliesTo (s : State J R) (n : Nat) : List (Nat × R) := s.replies.filter (·.1 == n)

end State

/-- The job of the loop that is still to be replied to. -/
def Loop.pending (d : Dispatcher J R) : Loop J → List Nat
  | .receiving => []
  | .received n job => if d.admits job then [n] else []
  | .counted n _ _ | .spawning n _ | .refusing n => [n]

namespace State

/-- The jobs that wait in the queue, in the loop or in a thread for their reply. -/
def waiting (d : Dispatcher J R) (s : State J R) : List Nat :=
  ((s.queue.filter (d.admits ·.2)).map (·.1) ++ s.loop.pending d) ++ (s.tasks.filter Task.running).map (·.number)

/-- Job `n` wants a reply. -/
def wants (d : Dispatcher J R) (s : State J R) (n : Nat) : Bool := s.jobs[n]?.any d.admits

/-- No thread and no loop can go on without a new job. -/
def Quiet (d : Dispatcher J R) (s : State J R) : Prop :=
  (∀ spawned, step d s (.loop spawned) = none) ∧ (∀ i response, step d s (.reply i response) = none) ∧
    ∀ i, step d s (.finish i) = none

end State

/-- How many operations the loop has left for its job, at most, with those of the thread. -/
def Loop.left : Loop J → Nat
  | .receiving => 0
  | .received _ _ => 5
  | .counted _ _ _ => 4
  | .spawning _ _ => 3
  | .refusing _ => 1

/-- How many operations are left for the jobs so far, at most. -/
def State.left (s : State J R) : Nat :=
  6 * s.queue.length + s.loop.left + s.tasks.countP Task.unfinished + s.tasks.countP Task.running

/-- The admission of jobs is exact. -/
structure Exact (d : Dispatcher J R) (s : State J R) : Prop where
  counter : s.loop = .receiving → s.active = s.unfinished
  bounded : s.unfinished ≤ 32
  /-- A job that waits has no reply, and every other one that wants it has exactly one. -/
  replied : ∀ n, s.wants d n = true → (s.repliesTo n).length = if n ∈ s.waiting d then 0 else 1
  /-- The jobs are served within a bounded number of operations, and then each has its reply. -/
  served : ∀ l s', (∀ job, l ≠ .arrive job) → step d s l = some s' → s'.left < s.left
  quiet : s.Quiet d → ∀ n, s.wants d n = true → (s.repliesTo n).length = 1

/-! ## The invariant -/

/-- The loop has counted its job and neither given up the count nor passed it on. -/
def Loop.holds : Loop J → Nat
  | .counted _ _ _ | .spawning _ _ => 1
  | _ => 0

/-- What the loop knows of the number of tasks. -/
def Loop.Room (limit unfinished : Nat) : Loop J → Prop
  | .counted _ _ previous => unfinished ≤ previous
  | .spawning _ _ => unfinished < limit
  | _ => True

structure Counted (d : Dispatcher J R) (s : State J R) : Prop where
  active : s.active = s.unfinished + s.loop.holds
  bounded : s.unfinished ≤ d.limit
  room : s.loop.Room d.limit s.unfinished

/-- Each job that wants a reply has one or waits for it. -/
def Accounted (d : Dispatcher J R) (s : State J R) : Prop :=
  ∀ n, (s.replies.map (·.1)).count n + (s.waiting d).count n = (s.wants d n).toNat

/-! ## What a step does -/

/-- The steps that are possible in `s`, with what they change. -/
inductive Does (d : Dispatcher J R) (s : State J R) : Label J R → State J R → Prop
  | arrive {job : J} : s.queue.length < maxQueuedRequests →
      Does d s (.arrive job) { s with jobs := s.jobs ++ [job], queue := s.queue ++ [(s.jobs.length, job)] }
  | receive {spawned n queue} {job : J} : s.loop = .receiving → s.queue = (n, job) :: queue →
      Does d s (.loop spawned) { s with queue := queue, loop := .received n job }
  | count {spawned n} {job : J} : s.loop = .received n job → d.admits job = true →
      Does d s (.loop spawned) { s with loop := .counted n job s.active, active := fetchAdd s.active }
  | serve {spawned n} {job : J} : s.loop = .received n job → d.admits job = false →
      Does d s (.loop spawned) { s with loop := .receiving, closed := s.closed ++ [job] }
  | full {spawned n previous} {job : J} : s.loop = .counted n job previous → d.limit ≤ previous →
      Does d s (.loop spawned) { s with loop := .refusing n, active := fetchSub s.active }
  | pass {spawned n previous} {job : J} : s.loop = .counted n job previous → previous < d.limit →
      Does d s (.loop spawned) { s with loop := .spawning n job }
  | spawned {n} {job : J} : s.loop = .spawning n job →
      Does d s (.loop true) { s with loop := .receiving, tasks := s.tasks ++ [⟨n, job, .running⟩] }
  | unspawned {n} {job : J} : s.loop = .spawning n job →
      Does d s (.loop false) { s with loop := .refusing n, active := fetchSub s.active }
  | refuse {spawned n} : s.loop = .refusing n →
      Does d s (.loop spawned) { s with loop := .receiving, replies := s.replies ++ [(n, d.refused)] }
  | reply {i n response} {job : J} : s.tasks[i]? = some ⟨n, job, .running⟩ →
      Does d s (.reply i response)
        { s with tasks := s.tasks.set i ⟨n, job, .replied⟩, replies := s.replies ++ [(n, response)] }
  | finish {i n} {job : J} : s.tasks[i]? = some ⟨n, job, .replied⟩ →
      Does d s (.finish i) { s with tasks := s.tasks.set i ⟨n, job, .finished⟩, active := fetchSub s.active }

variable {d : Dispatcher J R} {s s' : State J R} {l : Label J R}

theorem step_does (h : step d s l = some s') : Does d s l s' := by
  cases l with
  | arrive job =>
    simp only [step] at h
    split at h
    · next hroom =>
      cases h
      exact .arrive hroom
    · cases h
  | loop spawned =>
    simp only [step, loopStep] at h
    split at h
    · next hloop =>
      split at h
      · cases h
      · next hqueue =>
        cases h
        exact .receive hloop hqueue
    · next hloop =>
      split at h
      · next hadmits =>
        cases h
        exact .count hloop hadmits
      · next hadmits =>
        cases h
        exact .serve hloop (by simpa using hadmits)
    · next hloop =>
      split at h
      · next hfull =>
        cases h
        exact .full hloop hfull
      · next hfull =>
        cases h
        exact .pass hloop (by omega)
    · next hloop =>
      cases spawned with
      | true =>
        cases h
        exact .spawned hloop
      | false =>
        cases h
        exact .unspawned hloop
    · next hloop =>
      cases h
      exact .refuse hloop
  | reply i response =>
    simp only [step] at h
    split at h
    · next hi =>
      cases h
      exact .reply hi
    · cases h
  | finish i =>
    simp only [step] at h
    split at h
    · next hi =>
      cases h
      exact .finish hi
    · cases h

/-! ## The counter -/

theorem fetchSub_succ {n : Nat} (h : n < 2 ^ 64) : fetchSub (n + 1) = n := by
  unfold fetchSub
  omega

theorem fetchAdd_of_lt {n : Nat} (h : n + 1 < 2 ^ 64) : fetchAdd n = n + 1 := Nat.mod_eq_of_lt h

/-- The counter and the number of tasks, step by step. -/
theorem counted_step (hlimit : d.limit < 2 ^ 64 - 1) (hi : Counted d s) (h : Does d s l s') : Counted d s' := by
  obtain ⟨hactive, hbounded, hroom⟩ := hi
  cases h with
  | arrive _ => exact ⟨hactive, hbounded, hroom⟩
  | receive hloop _ =>
    rw [hloop] at hactive
    exact ⟨hactive, hbounded, trivial⟩
  | serve hloop _ =>
    rw [hloop] at hactive
    exact ⟨hactive, hbounded, trivial⟩
  | refuse hloop =>
    rw [hloop] at hactive
    exact ⟨hactive, hbounded, trivial⟩
  | count hloop _ =>
    rw [hloop] at hactive
    replace hactive : s.active = s.unfinished := hactive
    refine ⟨?_, hbounded, hactive.ge⟩
    show fetchAdd s.active = s.unfinished + 1
    rw [hactive]
    exact fetchAdd_of_lt (by omega)
  | full hloop _ =>
    rw [hloop] at hactive
    refine ⟨?_, hbounded, trivial⟩
    show fetchSub s.active = s.unfinished
    rw [hactive]
    exact fetchSub_succ (by omega)
  | pass hloop hprevious =>
    rw [hloop] at hactive hroom
    exact ⟨hactive, hbounded, Nat.lt_of_le_of_lt hroom hprevious⟩
  | unspawned hloop =>
    rw [hloop] at hactive
    refine ⟨?_, hbounded, trivial⟩
    show fetchSub s.active = s.unfinished
    rw [hactive]
    exact fetchSub_succ (by omega)
  | @spawned n job hloop =>
    rw [hloop] at hactive hroom
    have hmore : (s.tasks ++ [(⟨n, job, .running⟩ : Task J)]).countP Task.unfinished = s.unfinished + 1 := by
      simp [State.unfinished, Task.unfinished]
    exact ⟨hactive.trans hmore.symm, hmore.trans_le hroom, trivial⟩
  | @reply i n response job htask =>
    have hsame : (s.tasks.set i ⟨n, job, .replied⟩).countP Task.unfinished = s.unfinished :=
      Nat.add_right_cancel (countP_set (a := ⟨n, job, .running⟩) Task.unfinished htask)
    exact ⟨by rw [hactive, ← hsame]; rfl, hsame.trans_le hbounded, by rw [← hsame] at hroom; exact hroom⟩
  | @finish i n job htask =>
    have hless : (s.tasks.set i ⟨n, job, .finished⟩).countP Task.unfinished + 1 = s.unfinished :=
      countP_set (b := ⟨n, job, .finished⟩) Task.unfinished htask
    refine ⟨?_, by exact Nat.le_of_succ_le (hless.trans_le hbounded), ?_⟩
    · show fetchSub s.active = (s.tasks.set i ⟨n, job, .finished⟩).countP Task.unfinished + s.loop.holds
      rw [hactive, ← hless, Nat.add_right_comm]
      refine fetchSub_succ ?_
      have : s.loop.holds ≤ 1 := by cases s.loop <;> simp [Loop.holds]
      omega
    · show s.loop.Room d.limit ((s.tasks.set i ⟨n, job, .finished⟩).countP Task.unfinished)
      cases hl : s.loop <;> simp only [hl, Loop.Room] at hroom ⊢ <;> omega

/-! ## The replies -/

theorem count_map_filter {X : Type} (p : X → Bool) (f : X → Nat) (l : List X) (n : Nat) :
    ((l.filter p).map f).count n = l.countP fun x => p x && f x == n := by
  rw [List.count_eq_countP, List.countP_map, List.countP_filter]
  exact List.countP_congr fun x _ => by simp [and_comm]

/-- The thread of job `n` has not replied. -/
def Task.owes (n : Nat) (t : Task J) : Bool := t.running && t.number == n

@[simp] theorem owes_running (n k : Nat) (job : J) : Task.owes n ⟨k, job, .running⟩ = (k == n) := rfl
@[simp] theorem owes_replied (n k : Nat) (job : J) : Task.owes n ⟨k, job, .replied⟩ = false := rfl
@[simp] theorem owes_finished (n k : Nat) (job : J) : Task.owes n ⟨k, job, .finished⟩ = false := rfl

/-- How often a job waits: in the queue, in the loop, and in a thread. -/
theorem count_waiting (n : Nat) : (s.waiting d).count n =
    s.queue.countP (fun e => d.admits e.2 && e.1 == n) + (s.loop.pending d).count n +
      s.tasks.countP (Task.owes n) := by
  simp only [State.waiting, List.count_append, count_map_filter]
  rfl

theorem wants_append (job : J) (n : Nat) :
    ((s.jobs ++ [job])[n]?.any d.admits).toNat = (s.wants d n).toNat + (d.admits job && s.jobs.length == n).toNat := by
  unfold State.wants
  rcases Nat.lt_trichotomy n s.jobs.length with hn | rfl | hn
  · simp [List.getElem?_append_left hn, hn.ne']
  · simp
  · have hpast : (s.jobs ++ [job])[n]? = none := List.getElem?_eq_none (by simp; omega)
    have hpast' : s.jobs[n]? = none := by simpa using hn.le
    have hne : (s.jobs.length == n) = false := by simpa using hn.ne
    simp [hpast, hpast', hne]

/-- A job's number moves on, from the queue to the loop, to its thread, to the replies. -/
theorem accounted_step (hi : Accounted d s) (h : Does d s l s') : Accounted d s' := by
  intro n
  have hn := hi n
  rw [count_waiting, State.wants] at hn ⊢
  cases h with
  | @arrive job _ =>
    rw [wants_append, State.wants, ← hn]
    simp only [List.countP_append, List.countP_singleton]
    cases d.admits job && s.jobs.length == n
    · simp
    · simp
      omega
  | @receive _ k queue job hloop hqueue =>
    refine Eq.trans ?_ hn
    rw [hloop, hqueue, List.countP_cons]
    cases hadmits : d.admits job
    · simp [Loop.pending, hadmits]
    · simp [Loop.pending, hadmits, List.count_singleton, Nat.add_comm, Nat.add_left_comm]
  | count hloop hadmits =>
    refine Eq.trans ?_ hn
    simp [hloop, Loop.pending, hadmits]
  | serve hloop hadmits =>
    refine Eq.trans ?_ hn
    simp [hloop, Loop.pending, hadmits]
  | full hloop _ =>
    refine Eq.trans ?_ hn
    simp [hloop, Loop.pending]
  | pass hloop _ =>
    refine Eq.trans ?_ hn
    simp [hloop, Loop.pending]
  | unspawned hloop =>
    refine Eq.trans ?_ hn
    simp [hloop, Loop.pending]
  | spawned hloop =>
    refine Eq.trans ?_ hn
    simp [hloop, Loop.pending, List.countP_singleton, List.count_singleton]
    omega
  | refuse hloop =>
    refine Eq.trans ?_ hn
    simp [hloop, Loop.pending, List.count_singleton]
    omega
  | @reply i k response job htask =>
    have hless := countP_set (b := ⟨k, job, .replied⟩) (Task.owes n) htask
    refine Eq.trans ?_ hn
    simp only [owes_running, owes_replied, Bool.toNat_false, Nat.add_zero] at hless
    simp only [List.map_append, List.map_cons, List.map_nil, List.count_append, List.count_singleton, ← hless]
    cases k == n
    · simp
    · simp
      omega
  | @finish i k job htask =>
    have hsame := countP_set (b := ⟨k, job, .finished⟩) (Task.owes n) htask
    refine Eq.trans ?_ hn
    simp only [owes_replied, owes_finished, Nat.add_right_cancel_iff] at hsame
    rw [hsame]

/-! ## Every run -/

variable {n : Nat}

theorem length_repliesTo : (s.repliesTo n).length = (s.replies.map (·.1)).count n := by
  rw [State.repliesTo, ← List.countP_eq_length_filter, List.count_eq_countP, List.countP_map]
  rfl

theorem Accounted.replied (hi : Accounted d s) (h : s.wants d n = true) :
    (s.repliesTo n).length = if n ∈ s.waiting d then 0 else 1 := by
  have hn := hi n
  rw [h, Bool.toNat_true] at hn
  rw [length_repliesTo]
  split
  · next hwaits =>
    have := List.count_pos_iff.2 hwaits
    omega
  · next hwaits =>
    rw [List.count_eq_zero.2 hwaits] at hn
    omega

/-- Each operation but an arrival brings a job nearer to its end. -/
theorem left_step (h : Does d s l s') (harrive : ∀ job, l ≠ .arrive job) : s'.left < s.left := by
  unfold State.left
  cases h with
  | arrive _ => exact absurd rfl (harrive _)
  | receive hloop hqueue =>
    simp only [hloop, hqueue, List.length_cons, Loop.left]
    omega
  | count hloop _ =>
    simp only [hloop, Loop.left]
    omega
  | serve hloop _ =>
    simp only [hloop, Loop.left]
    omega
  | full hloop _ =>
    simp only [hloop, Loop.left]
    omega
  | pass hloop _ =>
    simp only [hloop, Loop.left]
    omega
  | unspawned hloop =>
    simp only [hloop, Loop.left]
    omega
  | spawned hloop =>
    simp only [hloop, Loop.left, List.countP_append, List.countP_singleton, Task.unfinished, Task.running]
    simp
    omega
  | refuse hloop =>
    simp only [hloop, Loop.left]
    omega
  | @reply i k response job htask =>
    have hsame : (s.tasks.set i ⟨k, job, .replied⟩).countP Task.unfinished + 1 = s.tasks.countP Task.unfinished + 1 :=
      countP_set (a := ⟨k, job, .running⟩) Task.unfinished htask
    have hless : (s.tasks.set i ⟨k, job, .replied⟩).countP Task.running + 1 = s.tasks.countP Task.running :=
      countP_set (a := ⟨k, job, .running⟩) Task.running htask
    simp only
    omega
  | @finish i k job htask =>
    have hless : (s.tasks.set i ⟨k, job, .finished⟩).countP Task.unfinished + 1 = s.tasks.countP Task.unfinished :=
      countP_set (a := ⟨k, job, .replied⟩) Task.unfinished htask
    have hsame : (s.tasks.set i ⟨k, job, .finished⟩).countP Task.running + 0 = s.tasks.countP Task.running + 0 :=
      countP_set (a := ⟨k, job, .replied⟩) Task.running htask
    simp only
    omega

/-- Where nothing can go on, no job waits. -/
theorem waiting_of_quiet [Inhabited R] (h : s.Quiet d) : s.waiting d = [] := by
  obtain ⟨hloop, hreply, -⟩ := h
  have hnone : ∀ (i : Nat) (t : Task J), s.tasks[i]? = some t → t.running = false := by
    rintro i ⟨k, job, phase⟩ hi
    cases phase with
    | running =>
      have := hreply i default
      simp [step, hi] at this
    | replied => rfl
    | finished => rfl
  have htasks : s.tasks.filter Task.running = [] := by
    refine List.filter_eq_nil_iff.2 fun t ht => ?_
    obtain ⟨i, hi⟩ := List.mem_iff_getElem?.1 ht
    simp [hnone i t hi]
  have hstep := hloop true
  simp only [step, loopStep] at hstep
  cases hl : s.loop with
  | receiving =>
    simp only [hl] at hstep
    cases hq : s.queue with
    | nil => simp [State.waiting, hq, hl, Loop.pending, htasks]
    | cons e queue => simp [hq] at hstep
  | received k job =>
    simp only [hl] at hstep
    split at hstep <;> cases hstep
  | counted k job previous =>
    simp only [hl] at hstep
    split at hstep <;> cases hstep
  | spawning k job => simp [hl] at hstep
  | refusing k => simp [hl] at hstep

theorem exact_of_reach [Inhabited R] (hlimit : d.limit = 32) (h : Reach (· = start) (step d) s) : Exact d s := by
  have hcounted : Counted d s := by
    refine h.inv ?_ fun s l s' hi hstep => counted_step (by omega) hi (step_does hstep)
    rintro s rfl
    exact ⟨rfl, Nat.zero_le _, trivial⟩
  have haccounted : Accounted d s := by
    refine h.inv ?_ fun s l s' hi hstep => accounted_step hi (step_does hstep)
    rintro s rfl n
    simp [start, State.waiting, State.wants, Loop.pending]
  exact {
    counter := fun hloop => by simpa [hloop, Loop.holds] using hcounted.active
    bounded := hlimit ▸ hcounted.bounded
    replied := fun n hn => haccounted.replied hn
    served := fun l s' hl hstep => left_step (step_does hstep) hl
    quiet := fun hquiet n hn => by simpa [waiting_of_quiet hquiet] using haccounted.replied hn }

instance : Inhabited PortalResponse := ⟨⟨2, []⟩⟩
instance : Inhabited CaptureResponse := ⟨⟨2, []⟩⟩

/-- However jobs arrive, threads start or fail to, and tasks end: the counter, the bound
and the replies of both dispatchers are exact. -/
theorem admission_exact :
    (∀ s, Reach (· = start) (step castWorker) s → Exact castWorker s) ∧
      ∀ s, Reach (· = start) (step captureWorker) s → Exact captureWorker s :=
  ⟨fun _ h => exact_of_reach rfl h, fun _ h => exact_of_reach rfl h⟩

/-- One Start is served while another one gets no thread. -/
def startJobs : List (Label CastJob PortalResponse) :=
  [.arrive (.start "/r/1" "/s" "app"), .arrive (.start "/r/2" "/s" "app"), .loop true, .loop true, .loop true, .loop true,
    .loop true, .loop true, .loop true, .reply 0 ⟨0, []⟩, .loop false, .finish 0, .loop true]

theorem admission_exact_startJobs :
    (∃ s, exec (step castWorker) start startJobs = some s ∧ s.replies = [(0, ⟨0, []⟩), (1, ⟨2, []⟩)] ∧
        Exact castWorker s) ∧
      Exact captureWorker start := by
  have hrun : (exec (step castWorker) start startJobs).map (·.replies) = some [(0, ⟨0, []⟩), (1, ⟨2, []⟩)] := by
    decide +kernel
  obtain ⟨s, hs, hreplies⟩ := Option.map_eq_some_iff.1 hrun
  have hstart : Reach (· = start) (step castWorker) start := .init rfl
  exact ⟨⟨s, hs, hreplies, admission_exact.1 s (hstart.exec hs)⟩, admission_exact.2 start (.init rfl)⟩

end AtriumPortal.Portal.Dispatch
