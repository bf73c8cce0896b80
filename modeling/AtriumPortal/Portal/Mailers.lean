import AtriumPortal.Lib.Positions
import AtriumPortal.Portal.Dispatch
import AtriumPortal.Portal.Email
/-!
# The mailers

`email.rs`: a mailer that is spawned has a slot, and a thread of its own reaps all of them.
The calls of ComposeEmail and the reaper run next to each other; a step is one operation on
what they share. `slots_conserved`: however the steps interleave, the counter is the number
of slots that are held, and each slot that was acquired is released once.
-/
open AtriumPortal.Lib.Entries AtriumPortal.Lib.Positions AtriumPortal.Lib.Runs
open AtriumPortal.Lib.Path (Bytes)
open AtriumPortal.Portal.Dispatch (fetchSub fetchSub_succ)

namespace AtriumPortal.Portal.Email

def maxActiveMailers : Nat := 32

/-- The mailer, its arguments and its `XDG_ACTIVATION_TOKEN`. -/
structure Command where
  program : String
  args : List Bytes
  activationToken : Option String
  deriving DecidableEq, Repr

/-- The mailer command, unless `ATRIUM_PORTAL_MAILER` is another one. -/
def mailerCommand (override : Option String) : String := override.getD "xdg-email"

def ParsedOptions.command (parsed : ParsedOptions) (override : Option String) : Command :=
  ⟨mailerCommand override, mailerArgv parsed, parsed.activationToken⟩

/-- Where a call of `compose` is. -/
inductive Phase where
  | entered
  /-- `fetch_update` reads the counter. -/
  | loading (command : Command)
  /-- It read `active` and is to exchange it. -/
  | loaded (command : Command) (active : Nat)
  | spawning (command : Command)
  /-- The spawn failed. -/
  | unspawned
  /-- In `hand_to_reaper`, which looks at `REAPER`. -/
  | handing (command : Command)
  | sending (command : Command)
  /-- Nobody takes the child: it is killed and waited for, and its slot is released. -/
  | killing (error : String)
  | returned (response : PortalResponse)
  deriving DecidableEq, Repr

structure Call where
  options : OptionMap
  phase : Phase

/-- A child, and the number of the call that spawned it. -/
structure Child where
  call : Nat
  command : Command
  deriving DecidableEq, Repr

/-- `REAPER`: without a value, with `None`, with the sender. -/
inductive Reaper where
  | unset
  | unavailable
  | started
  deriving DecidableEq, Repr

/-- Where the reaper's thread is. -/
inductive Thread where
  | receiving
  | sweeping (index : Nat)
  /-- The child is out of the list and finished; its slot is not released. -/
  | reaping (index : Nat) (child : Child)
  | draining
  | stopped
  deriving DecidableEq, Repr

structure Mailers where
  /-- `ACTIVE_MAILERS`. -/
  active : Nat
  calls : List Call
  reaper : Reaper
  thread : Option Thread
  /-- What was sent to the reaper and not received. -/
  queue : List Child
  children : List Child
  /-- The calls that acquired a slot, and those whose slot was released. -/
  acquired : List Nat
  released : List Nat

/-- What a call is answered: by the tracker, by the environment, by `compare_exchange_weak`,
which may fail without a reason, by the spawn of the mailer and by that of the thread. -/
structure Answer where
  closed : Bool
  mailer : Option String
  spurious : Bool
  spawned : Bool
  threadStarted : Bool

/-- What `try_wait` says of a child. -/
inductive Polled where
  | running
  | exited
  | failed
  deriving DecidableEq, Repr

inductive Label where
  | compose (options : OptionMap)
  /-- The next operation of the `k`-th call. -/
  | call (k : Nat) (answer : Answer)
  /-- The next operation of the reaper's thread. -/
  | reaper (polled : Polled)

namespace Mailers

def start : Mailers := ⟨0, [], .unset, none, [], [], [], []⟩

def goto (s : Mailers) (k : Nat) (call : Call) (phase : Phase) : Mailers :=
  { s with calls := s.calls.set k { call with phase := phase } }

/-- `release_mailer_slot` -/
def releaseMailerSlot (s : Mailers) (k : Nat) : Mailers :=
  { s with active := fetchSub s.active, released := k :: s.released }

section

variable (s : Mailers) (k : Nat)

theorem releaseMailerSlot_calls : (s.releaseMailerSlot k).calls = s.calls := by rw [releaseMailerSlot]
theorem releaseMailerSlot_thread : (s.releaseMailerSlot k).thread = s.thread := by rw [releaseMailerSlot]
theorem releaseMailerSlot_queue : (s.releaseMailerSlot k).queue = s.queue := by rw [releaseMailerSlot]
theorem releaseMailerSlot_children : (s.releaseMailerSlot k).children = s.children := by rw [releaseMailerSlot]
theorem releaseMailerSlot_acquired : (s.releaseMailerSlot k).acquired = s.acquired := by rw [releaseMailerSlot]

end

def callStep (s : Mailers) (k : Nat) (call : Call) (answer : Answer) : Option Mailers :=
  match call.phase with
  | .entered =>
    if answer.closed then some (s.goto k call (.returned ⟨1, []⟩))
    else
      match ParsedOptions.fromOptions call.options with
      | .error _ => some (s.goto k call (.returned ⟨2, []⟩))
      | .ok parsed => some (s.goto k call (.loading (parsed.command answer.mailer)))
  | .loading command => some (s.goto k call (.loaded command s.active))
  | .loaded command active =>
    if maxActiveMailers ≤ active then some (s.goto k call (.returned ⟨2, []⟩))
    else if s.active = active ∧ answer.spurious = false then
      some { s.goto k call (.spawning command) with active := active + 1, acquired := k :: s.acquired }
    else some (s.goto k call (.loaded command s.active))
  | .spawning command =>
    if answer.spawned then some (s.goto k call (.handing command)) else some (s.goto k call .unspawned)
  | .unspawned => some ((s.goto k call (.returned ⟨2, []⟩)).releaseMailerSlot k)
  | .handing command =>
    match s.reaper with
    -- The other calls wait for the one that sets `REAPER`, so this is one step.
    | .unset =>
      if answer.threadStarted then
        some { s.goto k call (.sending command) with reaper := .started, thread := some .receiving }
      else some { s.goto k call (.killing "mailer reaper is unavailable") with reaper := .unavailable }
    | .unavailable => some (s.goto k call (.killing "mailer reaper is unavailable"))
    | .started => some (s.goto k call (.sending command))
  | .sending command =>
    if s.thread = some .stopped then some (s.goto k call (.killing "mailer reaper stopped unexpectedly"))
    else some { s.goto k call (.returned ⟨0, []⟩) with queue := s.queue ++ [⟨k, command⟩] }
  | .killing _ => some ((s.goto k call (.returned ⟨2, []⟩)).releaseMailerSlot k)
  | .returned _ => none

def reaperStep (s : Mailers) (thread : Thread) (polled : Polled) : Option Mailers :=
  match thread with
  | .receiving =>
    match s.queue with
    | child :: queue =>
      some { s with queue := queue, children := s.children ++ [child], thread := some (.sweeping 0) }
    | [] =>
      -- A sender in `REAPER` is never dropped: the receiver runs into its timeout.
      if s.reaper = .started then some { s with thread := some (.sweeping 0) }
      else some { s with thread := some .draining }
  | .sweeping index =>
    match s.children[index]? with
    | none => some { s with thread := some .receiving }
    | some child =>
      match polled with
      | .running => some { s with thread := some (.sweeping (index + 1)) }
      | .exited | .failed =>
        some { s with children := swapRemove s.children index, thread := some (.reaping index child) }
  | .reaping index child => some ({ s with thread := some (.sweeping index) }.releaseMailerSlot child.call)
  | .draining =>
    match s.children with
    | [] => some { s with thread := some .stopped }
    | child :: children => some ({ s with children := children }.releaseMailerSlot child.call)
  | .stopped => none

def step (s : Mailers) : Label → Option Mailers
  | .compose options => some { s with calls := s.calls ++ [⟨options, .entered⟩] }
  | .call k answer => s.calls[k]?.bind fun call => callStep s k call answer
  | .reaper polled => s.thread.bind fun thread => reaperStep s thread polled

end Mailers

/-! ## What holds of a state -/

/-- The call has acquired a slot and neither released it nor handed it on. -/
def Phase.holds : Phase → Bool
  | .spawning _ | .unspawned | .handing _ | .sending _ | .killing _ => true
  | .entered | .loading _ | .loaded .. | .returned _ => false

def Call.holds (call : Call) : Bool := call.phase.holds

/-- The child that the reaper has taken out of its list. -/
def Thread.inHand : Thread → List Child
  | .reaping _ child => [child]
  | .receiving | .sweeping _ | .draining | .stopped => []

/-- How many operations a call has left, with those for its child. -/
def Phase.left : Phase → Nat
  | .entered => 10
  | .loading _ => 9
  | .loaded .. => 8
  | .spawning _ => 7
  | .handing _ => 6
  | .sending _ => 5
  | .unspawned | .killing _ => 1
  | .returned _ => 0

/-- The counter is not what the call has read. -/
def Phase.stale (active : Nat) : Phase → Bool
  | .loaded _ read => active != read
  | _ => false

/-- How many operations the reaper has left for so many children, when all have exited. Past the
start of its list it has to come back to the children in front. -/
def Thread.left (children : Nat) : Thread → Nat
  | .receiving => if children = 0 then 0 else 2 * children + 2
  | .sweeping 0 => 2 * children + 1
  | .sweeping (_ + 1) => 2 * children + 3
  | .reaping 0 _ => 2 * children + 2
  | .reaping (_ + 1) _ => 2 * children + 4
  | .draining => children + 1
  | .stopped => 0

namespace Mailers

/-- The children that the reaper owns, sent to it or received. -/
def owned (s : Mailers) : List Child := s.queue ++ s.children ++ s.thread.toList.flatMap Thread.inHand

/-- Who holds a slot: the calls between acquisition and hand-off, and the reaper for its children. -/
def holders (s : Mailers) : List Nat := positions Call.holds s.calls ++ s.owned.map (·.call)

def work (s : Mailers) : Nat :=
  (s.calls.map (·.phase.left)).sum + 4 * s.queue.length + (s.thread.getD .receiving).left s.children.length

/-- How many operations are left at most. A change of the counter may send every call back that has read it. -/
def left (s : Mailers) : Nat := s.work * (s.calls.length + 1) + s.calls.countP (·.phase.stale s.active)

/-- The operations that bring the mailers to an end: no call arrives, no exchange fails without
a reason, every child has exited or fails, and the reaper does not wait without children. -/
def Settles (s : Mailers) : Label → Prop
  | .compose _ => False
  | .call _ answer => answer.spurious = false
  | .reaper polled => polled ≠ .running ∧ ¬ (s.thread = some .receiving ∧ s.queue = [] ∧ s.children = [])

/-- The slots are conserved. -/
structure Conserved (s : Mailers) : Prop where
  counter : s.active = s.holders.length
  bounded : s.active ≤ maxActiveMailers
  /-- A call acquires one slot at most, and only an acquired slot is held or released. -/
  acquired : s.acquired.Nodup ∧ s.holders.Nodup ∧ ∀ k, k ∈ s.holders ∨ k ∈ s.released → k ∈ s.acquired
  released : ∀ k ∈ s.acquired, s.released.count k = if k ∈ s.holders then 0 else 1
  /-- The slots are released within a bounded number of operations, and then none is held. -/
  served : ∀ l s', s.Settles l → s.step l = some s' → s'.left < s.left
  quiet : (∀ l s', s.Settles l → s.step l ≠ some s') → s.holders = []

end Mailers

/-! ## What a step does -/

/-- How a call goes on where nothing but its phase changes. -/
inductive Moves (s : Mailers) (options : OptionMap) : Phase → Phase → Prop
  | closed : Moves s options .entered (.returned ⟨1, []⟩)
  | rejected {error : String} : ParsedOptions.fromOptions options = .error error →
      Moves s options .entered (.returned ⟨2, []⟩)
  | parsed {parsed : ParsedOptions} {override : Option String} : ParsedOptions.fromOptions options = .ok parsed →
      Moves s options .entered (.loading (parsed.command override))
  | load {command : Command} : Moves s options (.loading command) (.loaded command s.active)
  | full {command : Command} {active : Nat} : maxActiveMailers ≤ active →
      Moves s options (.loaded command active) (.returned ⟨2, []⟩)
  | spawned {command : Command} : Moves s options (.spawning command) (.handing command)
  | unspawned {command : Command} : Moves s options (.spawning command) .unspawned
  | unavailable {command : Command} : s.reaper = .unavailable →
      Moves s options (.handing command) (.killing "mailer reaper is unavailable")
  | available {command : Command} : s.reaper = .started → Moves s options (.handing command) (.sending command)
  | stopped {command : Command} : s.thread = some .stopped →
      Moves s options (.sending command) (.killing "mailer reaper stopped unexpectedly")

/-- The steps that are possible in `s`, with what they change. -/
inductive Does (s : Mailers) : Label → Mailers → Prop
  | compose {options : OptionMap} : Does s (.compose options) { s with calls := s.calls ++ [⟨options, .entered⟩] }
  | moves {k : Nat} {answer : Answer} {call : Call} {phase : Phase} (hcall : s.calls[k]? = some call)
      (hmoves : Moves s call.options call.phase phase) : Does s (.call k answer) (s.goto k call phase)
  /-- The exchange fails and gives the counter as it is. -/
  | retry {k : Nat} {answer : Answer} {call : Call} {command : Command} {active : Nat} (hcall : s.calls[k]? = some call)
      (hphase : call.phase = .loaded command active) (hfails : s.active = active → answer.spurious = true) :
      Does s (.call k answer) (s.goto k call (.loaded command s.active))
  | acquire {k : Nat} {answer : Answer} {call : Call} {command : Command} (hcall : s.calls[k]? = some call)
      (hphase : call.phase = .loaded command s.active) (hroom : s.active < maxActiveMailers) :
      Does s (.call k answer) { s.goto k call (.spawning command) with active := s.active + 1, acquired := k :: s.acquired }
  | release {k : Nat} {answer : Answer} {call : Call} (hcall : s.calls[k]? = some call)
      (hphase : call.phase = .unspawned ∨ ∃ error, call.phase = .killing error) :
      Does s (.call k answer) ((s.goto k call (.returned ⟨2, []⟩)).releaseMailerSlot k)
  | started {k : Nat} {answer : Answer} {call : Call} {command : Command} (hcall : s.calls[k]? = some call)
      (hphase : call.phase = .handing command) (hunset : s.reaper = .unset) :
      Does s (.call k answer) { s.goto k call (.sending command) with reaper := .started, thread := some .receiving }
  | unstarted {k : Nat} {answer : Answer} {call : Call} {command : Command} (hcall : s.calls[k]? = some call)
      (hphase : call.phase = .handing command) (hunset : s.reaper = .unset) :
      Does s (.call k answer)
        { s.goto k call (.killing "mailer reaper is unavailable") with reaper := .unavailable }
  | send {k : Nat} {answer : Answer} {call : Call} {command : Command} (hcall : s.calls[k]? = some call)
      (hphase : call.phase = .sending command) :
      Does s (.call k answer) { s.goto k call (.returned ⟨0, []⟩) with queue := s.queue ++ [⟨k, command⟩] }
  | receive {polled : Polled} {child : Child} {queue : List Child} (hthread : s.thread = some .receiving)
      (hqueue : s.queue = child :: queue) : Does s (.reaper polled)
        { s with queue := queue, children := s.children ++ [child], thread := some (.sweeping 0) }
  | timeout {polled : Polled} (hthread : s.thread = some .receiving) (hqueue : s.queue = []) (hstarted : s.reaper = .started) :
      Does s (.reaper polled) { s with thread := some (.sweeping 0) }
  | disconnected {polled : Polled} (hthread : s.thread = some .receiving) (hstarted : s.reaper ≠ .started) :
      Does s (.reaper polled) { s with thread := some .draining }
  | swept {polled : Polled} {index : Nat} (hthread : s.thread = some (.sweeping index)) (hpast : s.children[index]? = none) :
      Does s (.reaper polled) { s with thread := some .receiving }
  | running {index : Nat} (hthread : s.thread = some (.sweeping index)) :
      Does s (.reaper .running) { s with thread := some (.sweeping (index + 1)) }
  | exited {polled : Polled} {index : Nat} {child : Child} (hthread : s.thread = some (.sweeping index))
      (hchild : s.children[index]? = some child) : Does s (.reaper polled)
        { s with children := swapRemove s.children index, thread := some (.reaping index child) }
  | reaped {polled : Polled} {index : Nat} {child : Child} (hthread : s.thread = some (.reaping index child)) :
      Does s (.reaper polled) ({ s with thread := some (.sweeping index) }.releaseMailerSlot child.call)
  | drained {polled : Polled} {child : Child} {children : List Child} (hthread : s.thread = some .draining)
      (hchildren : s.children = child :: children) :
      Does s (.reaper polled) ({ s with children := children }.releaseMailerSlot child.call)
  | stopped {polled : Polled} (hthread : s.thread = some .draining) (hchildren : s.children = []) :
      Does s (.reaper polled) { s with thread := some .stopped }

variable {s s' : Mailers} {l : Label}

theorem callStep_does {k : Nat} {call : Call} {answer : Answer} (hcall : s.calls[k]? = some call)
    (h : s.callStep k call answer = some s') : Does s (.call k answer) s' := by
  unfold Mailers.callStep at h
  split at h
  · next hphase =>
    split at h
    · cases h
      exact .moves hcall (hphase ▸ .closed)
    · split at h
      · next hparsed =>
        cases h
        exact .moves hcall (hphase ▸ .rejected hparsed)
      · next hparsed =>
        cases h
        exact .moves hcall (hphase ▸ .parsed hparsed)
  · next hphase =>
    cases h
    exact .moves hcall (hphase ▸ .load)
  · next hphase =>
    split at h
    · next hfull =>
      cases h
      exact .moves hcall (hphase ▸ .full hfull)
    · next hroom =>
      split at h
      · next hexchange =>
        cases h
        obtain ⟨rfl, -⟩ := hexchange
        exact .acquire hcall hphase (Nat.not_le.1 hroom)
      · next hexchange =>
        cases h
        exact .retry hcall hphase fun hsame => Bool.not_eq_false _ ▸ fun hspurious => hexchange ⟨hsame, hspurious⟩
  · next hphase =>
    split at h
    · cases h
      exact .moves hcall (hphase ▸ .spawned)
    · cases h
      exact .moves hcall (hphase ▸ .unspawned)
  · next hphase =>
    obtain rfl := Option.some.inj h
    exact .release hcall (.inl hphase)
  · next hphase =>
    split at h
    · next hunset =>
      split at h
      · cases h
        exact .started hcall hphase hunset
      · cases h
        exact .unstarted hcall hphase hunset
    · next hunavailable =>
      cases h
      exact .moves hcall (hphase ▸ .unavailable hunavailable)
    · next hstarted =>
      cases h
      exact .moves hcall (hphase ▸ .available hstarted)
  · next hphase =>
    split at h
    · next hstopped =>
      cases h
      exact .moves hcall (hphase ▸ .stopped hstopped)
    · cases h
      exact .send hcall hphase
  · next error hphase =>
    obtain rfl := Option.some.inj h
    exact .release hcall (.inr ⟨error, hphase⟩)
  · cases h

theorem reaperStep_does {thread : Thread} {polled : Polled} (hthread : s.thread = some thread)
    (h : s.reaperStep thread polled = some s') : Does s (.reaper polled) s' := by
  unfold Mailers.reaperStep at h
  split at h
  · split at h
    · next hqueue =>
      cases h
      exact .receive hthread hqueue
    · next hqueue =>
      split at h
      · next hstarted =>
        cases h
        exact .timeout hthread hqueue hstarted
      · next hstarted =>
        cases h
        exact .disconnected hthread hstarted
  · split at h
    · next hpast =>
      cases h
      exact .swept hthread hpast
    · next hchild =>
      cases polled with
      | running =>
        cases h
        exact .running hthread
      | exited =>
        cases h
        exact .exited hthread hchild
      | failed =>
        cases h
        exact .exited hthread hchild
  · obtain rfl := Option.some.inj h
    exact .reaped hthread
  · split at h
    · next hchildren =>
      cases h
      exact .stopped hthread hchildren
    · next hchildren =>
      obtain rfl := Option.some.inj h
      exact .drained hthread hchildren
  · cases h

theorem step_does (h : s.step l = some s') : Does s l s' := by
  cases l with
  | compose options =>
    cases h
    exact .compose
  | call k answer =>
    obtain ⟨call, hcall, h⟩ := Option.bind_eq_some_iff.1 h
    exact callStep_does hcall h
  | reaper polled =>
    obtain ⟨thread, hthread, h⟩ := Option.bind_eq_some_iff.1 h
    exact reaperStep_does hthread h

/-! ## The reaper -/

/-- The reaper's thread runs when there is a sender, and goes on running. -/
structure Tidy (s : Mailers) : Prop where
  started : s.reaper = .started → ∃ thread, s.thread = some thread ∧ thread ≠ .draining ∧ thread ≠ .stopped
  unstarted : s.reaper ≠ .started → s.thread = none ∧ s.queue = [] ∧ s.children = []
  sends : ∀ call ∈ s.calls, ∀ command, call.phase = .sending command → s.reaper = .started

theorem Tidy.reaper {thread : Thread} (hi : Tidy s) (h : s.thread = some thread) :
    s.reaper = .started ∧ thread ≠ .draining ∧ thread ≠ .stopped := by
  by_cases hstarted : s.reaper = .started
  · obtain ⟨t, ht, hlives⟩ := hi.started hstarted
    obtain rfl := Option.some.inj (ht.symm.trans h)
    exact ⟨hstarted, hlives⟩
  · rw [(hi.unstarted hstarted).1] at h
    cases h

/-- Another phase of one call, where the reaper is as it was. -/
theorem Tidy.goto (hi : Tidy s) {k : Nat} {call : Call} {phase : Phase}
    (hsends : ∀ command, phase = .sending command → s.reaper = .started) : Tidy (s.goto k call phase) := by
  refine ⟨hi.started, hi.unstarted, fun other hother command hphase => ?_⟩
  rcases List.mem_or_eq_of_mem_set hother with hother | rfl
  · exact hi.sends other hother command hphase
  · exact hsends command hphase

/-- The reaper goes on, where it has a sender. -/
theorem Tidy.goes (hi : Tidy s) {thread : Thread} (h : s.thread = some thread) {queue children : List Child} {next : Thread}
    (hnext : next ≠ .draining ∧ next ≠ .stopped) :
    Tidy { s with queue := queue, children := children, thread := some next } :=
  ⟨fun _ => ⟨next, rfl, hnext⟩, fun hstarted => absurd (hi.reaper h).1 hstarted, hi.sends⟩

theorem Tidy.released (hi : Tidy s) (k : Nat) : Tidy (s.releaseMailerSlot k) := by
  unfold Mailers.releaseMailerSlot
  exact ⟨hi.started, hi.unstarted, hi.sends⟩

theorem tidy_step (hi : Tidy s) (h : Does s l s') : Tidy s' := by
  cases h with
  | compose =>
    refine ⟨hi.started, hi.unstarted, fun call hcall command hphase => ?_⟩
    rcases List.mem_append.1 hcall with hcall | hcall
    · exact hi.sends call hcall command hphase
    · obtain rfl := List.mem_singleton.1 hcall
      cases hphase
  | @moves k answer call phase hcall hmoves =>
    refine hi.goto fun command hphase => ?_
    generalize call.phase = before at hmoves
    cases hmoves with
    | available hstarted => exact hstarted
    | _ => cases hphase
  | @retry k answer call command active hcall hphase hfails => exact hi.goto (by rintro _ ⟨⟩)
  | @acquire k answer call command hcall hphase hroom =>
    have hgone : Tidy (s.goto k call (.spawning command)) := hi.goto (by rintro _ ⟨⟩)
    exact ⟨hgone.started, hgone.unstarted, hgone.sends⟩
  | release hcall hphase => exact (hi.goto (by rintro _ ⟨⟩)).released _
  | started hcall hphase hunset =>
    exact ⟨fun _ => ⟨.receiving, rfl, by rintro ⟨⟩, by rintro ⟨⟩⟩, fun hstarted => absurd rfl hstarted, fun _ _ _ _ => rfl⟩
  | @unstarted k answer call command hcall hphase hunset =>
    refine ⟨by rintro ⟨⟩, fun _ => hi.unstarted (by rw [hunset]; rintro ⟨⟩), fun other hother command' hother' => ?_⟩
    rcases List.mem_or_eq_of_mem_set hother with hother | rfl
    · rw [hi.sends other hother command' hother'] at hunset
      cases hunset
    · cases hother'
  | @send k answer call command hcall hphase =>
    have hstarted := hi.sends call (List.mem_of_getElem? hcall) command hphase
    have hgone : Tidy (s.goto k call (.returned ⟨0, []⟩)) := hi.goto (by rintro _ ⟨⟩)
    exact ⟨hi.started, fun hne => absurd hstarted hne, hgone.sends⟩
  | receive hthread hqueue => exact hi.goes hthread ⟨by rintro ⟨⟩, by rintro ⟨⟩⟩
  | timeout hthread hqueue hstarted => exact hi.goes hthread ⟨by rintro ⟨⟩, by rintro ⟨⟩⟩
  | disconnected hthread hstarted => exact absurd (hi.reaper hthread).1 hstarted
  | swept hthread hpast => exact hi.goes hthread ⟨by rintro ⟨⟩, by rintro ⟨⟩⟩
  | running hthread => exact hi.goes hthread ⟨by rintro ⟨⟩, by rintro ⟨⟩⟩
  | exited hthread hchild => exact hi.goes hthread ⟨by rintro ⟨⟩, by rintro ⟨⟩⟩
  | reaped hthread => exact Tidy.released (hi.goes hthread ⟨by rintro ⟨⟩, by rintro ⟨⟩⟩) _
  | drained hthread hchildren => exact absurd rfl (hi.reaper hthread).2.1
  | stopped hthread hchildren => exact absurd rfl (hi.reaper hthread).2.1

/-! ## The slots -/

/-- The call has not acquired a slot. -/
def Phase.waits : Phase → Bool
  | .entered | .loading _ | .loaded .. => true
  | _ => false

/-- What a step does to the slots: nothing, an acquisition or a release. -/
inductive Effect (s s' : Mailers) : Prop
  | none (hactive : s'.active = s.active) (hacquired : s'.acquired = s.acquired) (hreleased : s'.released = s.released)
      (hholders : s'.holders.Perm s.holders)
  | takes {k : Nat} {call : Call} (hcall : s.calls[k]? = some call) (hwaits : call.phase.waits = true)
      (hroom : s.active < maxActiveMailers) (hactive : s'.active = s.active + 1) (hacquired : s'.acquired = k :: s.acquired)
      (hreleased : s'.released = s.released) (hholders : s'.holders.Perm (k :: s.holders))
  | gives {k : Nat} (hactive : s'.active = fetchSub s.active) (hacquired : s'.acquired = s.acquired)
      (hreleased : s'.released = k :: s.released) (hholders : s.holders.Perm (k :: s'.holders))

/-- A call that has acquired a slot has passed that operation. -/
def Past (s : Mailers) : Prop := ∀ k ∈ s.acquired, ∃ call, s.calls[k]? = some call ∧ call.phase.waits = false

theorem Moves.holds {options : OptionMap} {before after : Phase} (h : Moves s options before after) :
    before.holds = after.holds := by
  cases h <;> rfl

theorem Moves.waits {options : OptionMap} {before after : Phase} (h : Moves s options before after)
    (hwaits : before.waits = false) : after.waits = false := by
  cases h <;> first | rfl | cases hwaits

theorem holders_goto {k : Nat} {call : Call} {phase : Phase} (hcall : s.calls[k]? = some call)
    (hholds : call.phase.holds = phase.holds) : (s.goto k call phase).holders.Perm s.holders :=
  (positions_set_same hcall (b := { call with phase := phase }) hholds).append_right _

theorem holders_give {k : Nat} {call : Call} {phase : Phase} (hcall : s.calls[k]? = some call)
    (hholds : call.phase.holds = true) (hgone : phase.holds = false) : s.holders.Perm (k :: (s.goto k call phase).holders) :=
  (positions_set_drop hcall (b := { call with phase := phase }) hholds hgone).append_right _

/-- The reaper has its children in other places. -/
theorem holders_owned (hcalls : s'.calls = s.calls) (h : s.owned.Perm s'.owned) : s.holders.Perm s'.holders := by
  unfold Mailers.holders
  rw [hcalls]
  exact (h.map _).append_left _

/-- The reaper has one child less. -/
theorem holders_passed {child : Child} (hcalls : s'.calls = s.calls) (h : s.owned.Perm (child :: s'.owned)) :
    s.holders.Perm (child.call :: s'.holders) := by
  unfold Mailers.holders
  rw [hcalls]
  exact ((h.map _).append_left _).trans List.perm_middle

theorem owned_of_thread {thread : Thread} (h : s.thread = some thread) :
    s.owned = s.queue ++ s.children ++ thread.inHand := by
  rw [Mailers.owned, h, Option.toList_some, List.flatMap_singleton]

theorem Effect.owned {next : Thread} {queue children : List Child} (h : s.owned.Perm (queue ++ children ++ next.inHand)) :
    Effect s { s with queue := queue, children := children, thread := some next } := by
  refine .none rfl rfl rfl (List.Perm.symm ?_)
  refine holders_owned rfl ?_
  show s.owned.Perm (queue ++ children ++ (some next).toList.flatMap Thread.inHand)
  rwa [Option.toList_some, List.flatMap_singleton]

/-- The reaper goes on with the same children. -/
theorem Effect.goes {thread next : Thread} (h : s.thread = some thread) (hsame : thread.inHand = next.inHand) :
    Effect s { s with thread := some next } :=
  .owned (.of_eq (by rw [owned_of_thread h, hsame]))

theorem holders_releaseMailerSlot (s : Mailers) (k : Nat) : (s.releaseMailerSlot k).holders = s.holders := by
  rw [Mailers.holders, Mailers.holders, Mailers.owned, Mailers.owned, s.releaseMailerSlot_calls,
    s.releaseMailerSlot_queue, s.releaseMailerSlot_children, s.releaseMailerSlot_thread]

/-- A slot is released by its holder. -/
theorem Effect.released {t : Mailers} {k : Nat} (hactive : t.active = s.active) (hacquired : t.acquired = s.acquired)
    (hreleased : t.released = s.released) (hholders : s.holders.Perm (k :: t.holders)) :
    Effect s (t.releaseMailerSlot k) := by
  rw [← holders_releaseMailerSlot t k] at hholders
  refine .gives (k := k) ?_ ?_ ?_ hholders
  · rw [Mailers.releaseMailerSlot, hactive]
  · rw [Mailers.releaseMailerSlot, hacquired]
  · rw [Mailers.releaseMailerSlot, hreleased]

theorem does_effect (hi : Tidy s) (h : Does s l s') : Effect s s' := by
  cases h with
  | compose => exact .none rfl rfl rfl ((positions_append rfl).append_right _)
  | moves hcall hmoves => exact .none rfl rfl rfl (holders_goto hcall hmoves.holds)
  | retry hcall hphase hfails => exact .none rfl rfl rfl (holders_goto hcall (by rw [hphase]; rfl))
  | @acquire k answer call command hcall hphase hroom =>
    have hholds : call.holds = false := by
      rw [Call.holds, hphase]
      rfl
    refine .takes hcall (by rw [hphase]; rfl) hroom rfl rfl rfl ?_
    exact (positions_set_add hcall (b := ⟨call.options, .spawning command⟩) hholds rfl).append_right _
  | release hcall hphase =>
    refine .released rfl rfl rfl (holders_give hcall ?_ rfl)
    rcases hphase with hphase | ⟨error, hphase⟩ <;> rw [hphase] <;> rfl
  | @started k answer call command hcall hphase hunset =>
    obtain ⟨hthread, hqueue, hchildren⟩ := hi.unstarted (by rw [hunset]; rintro ⟨⟩)
    have hgone : (s.goto k call (.sending command)).holders.Perm s.holders := holders_goto hcall (by rw [hphase]; rfl)
    refine .none rfl rfl rfl (List.Perm.trans (List.Perm.symm ?_) hgone)
    refine holders_owned rfl (.of_eq ?_)
    show s.owned = s.queue ++ s.children ++ (some Thread.receiving).toList.flatMap Thread.inHand
    rw [Mailers.owned, hthread]
    rfl
  | unstarted hcall hphase hunset => exact .none rfl rfl rfl (holders_goto hcall (by rw [hphase]; rfl))
  | @send k answer call command hcall hphase =>
    have hgone : s.holders.Perm (k :: (s.goto k call (.returned ⟨0, []⟩)).holders) :=
      holders_give hcall (by rw [hphase]; rfl) rfl
    refine .none rfl rfl rfl (List.Perm.trans ?_ hgone.symm)
    refine @holders_passed _ _ ⟨k, command⟩ rfl ?_
    show (s.queue ++ [Child.mk k command] ++ s.children ++ _).Perm (Child.mk k command :: (s.queue ++ s.children ++ _))
    rw [List.append_assoc s.queue, List.append_assoc, List.append_assoc s.queue]
    exact List.perm_middle
  | @receive polled child queue hthread hqueue =>
    refine .owned ?_
    rw [owned_of_thread hthread, hqueue, ← List.append_assoc]
    exact (List.perm_append_singleton child _).symm.append_right _
  | timeout hthread hqueue hstarted => exact .goes hthread rfl
  | disconnected hthread hstarted => exact .goes hthread rfl
  | swept hthread hpast => exact .goes hthread rfl
  | running hthread => exact .goes hthread rfl
  | @exited polled index child hthread hchild =>
    refine .owned ?_
    rw [owned_of_thread hthread, List.append_assoc, List.append_assoc]
    refine List.Perm.append_left _ ?_
    rw [Thread.inHand, Thread.inHand, List.append_nil]
    exact (swapRemove_perm hchild).trans (List.perm_append_singleton child _).symm
  | @reaped polled index child hthread =>
    refine .released rfl rfl rfl (holders_passed rfl ?_)
    rw [owned_of_thread hthread]
    show (s.queue ++ s.children ++ [child]).Perm (child :: (s.queue ++ s.children ++ []))
    rw [List.append_nil]
    exact List.perm_append_singleton child _
  | @drained polled child children hthread hchildren =>
    refine .released rfl rfl rfl (holders_passed rfl ?_)
    rw [owned_of_thread hthread, hchildren, Mailers.owned, hthread, List.append_assoc, List.append_assoc]
    exact List.perm_middle
  | stopped hthread hchildren => exact .goes hthread rfl

theorem Past.released (hi : Past s) (k : Nat) : Past (s.releaseMailerSlot k) := by
  unfold Past
  rw [s.releaseMailerSlot_acquired, s.releaseMailerSlot_calls]
  exact hi

theorem Past.of_goto {k : Nat} {call : Call} {phase : Phase} (hi : Past s) (hcall : s.calls[k]? = some call)
    (hphase : call.phase.waits = false → phase.waits = false) : ∀ j ∈ s.acquired,
    ∃ other, (s.calls.set k { call with phase := phase })[j]? = some other ∧ other.phase.waits = false := by
  intro j hj
  obtain ⟨other, hother, hwaits⟩ := hi j hj
  simp only [set_eq_some hcall]
  by_cases hjk : j = k
  · subst hjk
    obtain rfl := Option.some.inj (hcall.symm.trans hother)
    exact ⟨_, .inl ⟨rfl, rfl⟩, hphase hwaits⟩
  · exact ⟨other, .inr ⟨hjk, hother⟩, hwaits⟩

theorem past_step (hi : Past s) (h : Does s l s') : Past s' := by
  cases h with
  | compose =>
    intro j hj
    obtain ⟨other, hother, hwaits⟩ := hi j hj
    exact ⟨other, append_eq_some.2 (.inl hother), hwaits⟩
  | moves hcall hmoves => exact hi.of_goto hcall hmoves.waits
  | retry hcall hphase hfails => exact hi.of_goto hcall fun hwaits => by rw [hphase] at hwaits; cases hwaits
  | @acquire k answer call command hcall hphase hroom =>
    intro j hj
    rcases List.mem_cons.1 hj with rfl | hj
    · obtain ⟨hk, -⟩ := List.getElem?_eq_some_iff.1 hcall
      exact ⟨⟨call.options, .spawning command⟩, List.getElem?_set_self hk, rfl⟩
    · exact hi.of_goto hcall (fun _ => rfl) j hj
  | @release k answer call hcall hphase =>
    have hgone : Past (s.goto k call (.returned ⟨2, []⟩)) := hi.of_goto hcall fun _ => rfl
    exact hgone.released k
  | started hcall hphase hunset => exact hi.of_goto hcall fun _ => rfl
  | unstarted hcall hphase hunset => exact hi.of_goto hcall fun _ => rfl
  | send hcall hphase => exact hi.of_goto hcall fun _ => rfl
  | @reaped polled index child hthread =>
    have hgoes : Past { s with thread := some (.sweeping index) } := hi
    exact hgoes.released child.call
  | @drained polled child children hthread hchildren =>
    have hgoes : Past { s with children := children } := hi
    exact hgoes.released child.call
  | _ => exact hi

/-- The counter, and which call has which slot. -/
structure Balanced (s : Mailers) : Prop where
  counter : s.active = s.holders.length
  bounded : s.active ≤ maxActiveMailers
  nodup : s.acquired.Nodup
  ledger : s.acquired.Perm (s.released ++ s.holders)

theorem balanced_step (hi : Balanced s) (hp : Past s) (h : Effect s s') : Balanced s' := by
  obtain ⟨hcounter, hbounded, hnodup, hledger⟩ := hi
  cases h with
  | none hactive hacquired hreleased hholders =>
    refine ⟨by rw [hactive, hcounter, hholders.length_eq], by rwa [hactive], by rwa [hacquired], ?_⟩
    rw [hacquired, hreleased]
    exact hledger.trans (hholders.symm.append_left _)
  | @takes k call hcall hwaits hroom hactive hacquired hreleased hholders =>
    -- the call still waits for a slot, so it has never had one
    have hfresh : k ∉ s.acquired := by
      intro hk
      obtain ⟨other, hother, hpast⟩ := hp k hk
      obtain rfl := Option.some.inj (hcall.symm.trans hother)
      rw [hwaits] at hpast
      cases hpast
    refine ⟨by rw [hactive, hcounter, hholders.length_eq, List.length_cons], by rw [hactive]; exact hroom, ?_, ?_⟩
    · rw [hacquired]
      exact hnodup.cons hfresh
    · rw [hacquired, hreleased]
      exact (hledger.cons k).trans (List.perm_middle.symm.trans (hholders.symm.append_left _))
  | @gives k hactive hacquired hreleased hholders =>
    have hlength : s.active = s'.holders.length + 1 := by rw [hcounter, hholders.length_eq, List.length_cons]
    -- there is a holder, so the counter does not wrap
    have hless : s'.active = s'.holders.length := by
      rw [hactive, hlength]
      refine fetchSub_succ ?_
      unfold maxActiveMailers at hbounded
      omega
    refine ⟨hless, by omega, by rwa [hacquired], ?_⟩
    rw [hacquired, hreleased]
    exact hledger.trans ((hholders.append_left _).trans List.perm_middle)

/-! ## The end of the work -/

theorem Moves.left {options : OptionMap} {before after : Phase} (h : Moves s options before after) :
    after.left < before.left := by
  cases h <;> simp [Phase.left]

theorem work_releaseMailerSlot (s : Mailers) (k : Nat) : (s.releaseMailerSlot k).work = s.work := by
  rw [Mailers.work, Mailers.work, s.releaseMailerSlot_calls, s.releaseMailerSlot_queue, s.releaseMailerSlot_children,
    s.releaseMailerSlot_thread]

/-- What another phase of a call makes of the work. -/
theorem work_goto {k : Nat} {call : Call} (hcall : s.calls[k]? = some call) (phase : Phase) :
    (s.goto k call phase).work + call.phase.left = s.work + phase.left := by
  have hsum := sum_map_set (b := { call with phase := phase }) (·.phase.left) hcall
  simp only [Mailers.work, Mailers.goto]
  simp only at hsum
  omega

/-- The work of the reaper. -/
theorem work_of_thread {thread : Thread} (h : s.thread = some thread) :
    s.work = (s.calls.map (·.phase.left)).sum + 4 * s.queue.length + thread.left s.children.length := by
  rw [Mailers.work, h, Option.getD_some]

/-- Without a new call there is less work, or a call has read the counter again. -/
theorem work_step (hi : Tidy s) (hs : s.Settles l) (h : Does s l s') :
    s'.calls.length = s.calls.length ∧ s'.work < s.work ∨
      ∃ k call command active, s.calls[k]? = some call ∧ call.phase = .loaded command active ∧ s.active ≠ active ∧
        s' = s.goto k call (.loaded command s.active) := by
  cases h with
  | compose => cases hs
  | @moves k answer call phase hcall hmoves =>
    have hwork := work_goto hcall phase
    have hless := hmoves.left
    exact .inl ⟨List.length_set, by omega⟩
  | retry hcall hphase hfails =>
    -- an exchange that does not fail of itself fails because the counter has moved
    refine .inr ⟨_, _, _, _, hcall, hphase, fun hsame => ?_, rfl⟩
    have hspurious := hfails hsame
    rw [show _ = false from hs] at hspurious
    cases hspurious
  | @acquire k answer call command hcall hphase hroom =>
    have hwork := work_goto hcall (.spawning command)
    rw [hphase] at hwork
    simp only [Phase.left] at hwork
    refine .inl ⟨List.length_set, ?_⟩
    show (s.goto k call (.spawning command)).work < s.work
    omega
  | @release k answer call hcall hphase =>
    have hwork := work_goto hcall (.returned ⟨2, []⟩)
    have hone : call.phase.left = 1 := by
      rcases hphase with hphase | ⟨error, hphase⟩ <;> rw [hphase] <;> rfl
    refine .inl ⟨by rw [Mailers.releaseMailerSlot_calls]; exact List.length_set, ?_⟩
    rw [hone, Phase.left] at hwork
    rw [work_releaseMailerSlot]
    omega
  | @started k answer call command hcall hphase hunset =>
    obtain ⟨hthread, -, -⟩ := hi.unstarted (by rw [hunset]; rintro ⟨⟩)
    have hwork := work_goto hcall (.sending command)
    rw [hphase] at hwork
    have hsame : s.thread.getD .receiving = (some Thread.receiving).getD .receiving := by rw [hthread]; rfl
    refine .inl ⟨List.length_set, ?_⟩
    simp only [Mailers.work, Mailers.goto, Phase.left, hsame] at hwork ⊢
    omega
  | @unstarted k answer call command hcall hphase hunset =>
    have hwork := work_goto hcall (.killing "mailer reaper is unavailable")
    rw [hphase] at hwork
    simp only [Phase.left] at hwork
    refine .inl ⟨List.length_set, ?_⟩
    show (s.goto k call (.killing "mailer reaper is unavailable")).work < s.work
    omega
  | @send k answer call command hcall hphase =>
    have hwork := work_goto hcall (.returned ⟨0, []⟩)
    rw [hphase] at hwork
    refine .inl ⟨List.length_set, ?_⟩
    simp only [Mailers.work, Mailers.goto, Phase.left, List.length_append, List.length_singleton] at hwork ⊢
    omega
  | receive hthread hqueue =>
    refine .inl ⟨rfl, ?_⟩
    rw [work_of_thread hthread, work_of_thread rfl, hqueue]
    simp only [Thread.left, List.length_append, List.length_cons, List.length_nil]
    split <;> omega
  | timeout hthread hqueue hstarted =>
    refine .inl ⟨rfl, ?_⟩
    have hsome : s.children.length ≠ 0 := fun hnone => hs.2 ⟨hthread, hqueue, List.length_eq_zero_iff.1 hnone⟩
    rw [work_of_thread hthread, work_of_thread rfl]
    simp only [Thread.left, if_neg hsome]
    omega
  | disconnected hthread hstarted => exact absurd (hi.reaper hthread).1 hstarted
  | @swept polled index hthread hpast =>
    refine .inl ⟨rfl, ?_⟩
    have hle := List.getElem?_eq_none_iff.1 hpast
    rw [work_of_thread hthread, work_of_thread rfl]
    cases index <;> simp only [Thread.left] <;> split <;> omega
  | running hthread => exact absurd rfl hs.1
  | @exited polled index child hthread hchild =>
    refine .inl ⟨rfl, ?_⟩
    have hlength := (swapRemove_perm hchild).length_eq
    rw [List.length_cons] at hlength
    rw [work_of_thread hthread, work_of_thread rfl, hlength]
    cases index <;> simp only [Thread.left] <;> omega
  | @reaped polled index child hthread =>
    refine .inl ⟨by rw [Mailers.releaseMailerSlot_calls], ?_⟩
    rw [work_releaseMailerSlot, work_of_thread hthread, work_of_thread rfl]
    cases index <;> simp only [Thread.left] <;> omega
  | drained hthread hchildren => exact absurd rfl (hi.reaper hthread).2.1
  | stopped hthread hchildren => exact absurd rfl (hi.reaper hthread).2.1

theorem left_step (hi : Tidy s) (hs : s.Settles l) (h : Does s l s') : s'.left < s.left := by
  rcases work_step hi hs h with ⟨hlength, hless⟩ | ⟨k, call, command, active, hcall, hphase, hne, rfl⟩
  -- less work outweighs the calls that become stale
  · have hstale : s'.calls.countP (·.phase.stale s'.active) ≤ s.calls.length := hlength ▸ List.countP_le_length
    have hwork := Nat.mul_le_mul_right (s.calls.length + 1) (Nat.succ_le_of_lt hless)
    rw [Nat.succ_mul] at hwork
    simp only [Mailers.left, hlength]
    omega
  · have hwork := work_goto hcall (.loaded command s.active)
    rw [hphase] at hwork
    have hsame : (s.goto k call (.loaded command s.active)).work = s.work := Nat.add_right_cancel hwork
    have hlength : (s.goto k call (.loaded command s.active)).calls.length = s.calls.length := List.length_set
    have hfewer : (s.goto k call (.loaded command s.active)).calls.countP (·.phase.stale s.active) <
        s.calls.countP (·.phase.stale s.active) := by
      have hstale : call.phase.stale s.active = true := by
        rw [hphase]
        exact bne_iff_ne.2 hne
      have hfresh : (Phase.loaded command s.active).stale s.active = false := bne_self_eq_false _
      have hcount := countP_set (b := { call with phase := .loaded command s.active }) (·.phase.stale s.active) hcall
      rw [hstale, hfresh] at hcount
      exact Nat.lt_of_succ_le (Nat.le_of_eq hcount)
    unfold Mailers.left
    rw [hsame, hlength]
    exact Nat.add_lt_add_left hfewer _

/-- Where nothing can go on, no call holds a slot. -/
theorem not_holds_of_quiet (h : ∀ l s', s.Settles l → s.step l ≠ some s') {k : Nat} {call : Call}
    (hcall : s.calls[k]? = some call) : call.phase.holds = false := by
  -- every phase that holds a slot goes on with this answer
  have hnone : s.callStep k call ⟨false, none, false, true, true⟩ = none := by
    refine Option.eq_none_iff_forall_ne_some.2 fun s' hs' => h (.call k ⟨false, none, false, true, true⟩) s' rfl ?_
    rw [Mailers.step, hcall]
    exact hs'
  unfold Mailers.callStep at hnone
  cases hphase : call.phase with
  | entered => rfl
  | loading command => rfl
  | loaded command active => rfl
  | returned response => rfl
  | spawning command => simp [hphase] at hnone
  | unspawned => simp [hphase] at hnone
  | handing command =>
    cases hreaper : s.reaper <;> simp [hphase, hreaper] at hnone
  | sending command =>
    simp only [hphase] at hnone
    split at hnone <;> cases hnone
  | killing error => simp [hphase] at hnone

/-- Nor does the reaper have a child. -/
theorem owned_of_quiet (hi : Tidy s) (h : ∀ l s', s.Settles l → s.step l ≠ some s') : s.owned = [] := by
  by_cases hstarted : s.reaper = .started
  · obtain ⟨thread, hthread, hdraining, hstopped⟩ := hi.started hstarted
    by_cases hidle : s.thread = some .receiving ∧ s.queue = [] ∧ s.children = []
    · rw [owned_of_thread hidle.1, hidle.2.1, hidle.2.2]
      rfl
    · have hnone : s.reaperStep thread .exited = none := by
        refine Option.eq_none_iff_forall_ne_some.2 fun s' hs' => h (.reaper .exited) s' ⟨by rintro ⟨⟩, hidle⟩ ?_
        rw [Mailers.step, hthread]
        exact hs'
      unfold Mailers.reaperStep at hnone
      cases thread with
      | receiving =>
        cases hqueue : s.queue <;> simp [hqueue, hstarted] at hnone
      | sweeping index =>
        cases hchild : s.children[index]? <;> simp [hchild] at hnone
      | reaping index child => cases hnone
      | draining => exact absurd rfl hdraining
      | stopped => exact absurd rfl hstopped
  · obtain ⟨hthread, hqueue, hchildren⟩ := hi.unstarted hstarted
    rw [Mailers.owned, hthread, hqueue, hchildren]
    rfl

/-! ## Every run -/

structure Invariant (s : Mailers) : Prop where
  tidy : Tidy s
  past : Past s
  balanced : Balanced s

theorem invariant_start : Invariant .start where
  tidy := ⟨by rintro ⟨⟩, fun _ => ⟨rfl, rfl, rfl⟩, fun _ hcall => (List.not_mem_nil hcall).elim⟩
  past _ hk := (List.not_mem_nil hk).elim
  balanced := ⟨rfl, Nat.zero_le _, List.nodup_nil, .nil⟩

theorem invariant_step (hi : Invariant s) (h : s.step l = some s') : Invariant s' :=
  have hdoes := step_does h
  ⟨tidy_step hi.tidy hdoes, past_step hi.past hdoes, balanced_step hi.balanced hi.past (does_effect hi.tidy hdoes)⟩

/-- However the calls and the reaper interleave, whatever fails: the slots are conserved. -/
theorem slots_conserved (s : Mailers) (h : Reach (· = Mailers.start) Mailers.step s) : s.Conserved := by
  have hi : Invariant s := by
    refine h.inv ?_ fun s l s' hi hstep => invariant_step hi hstep
    rintro s rfl
    exact invariant_start
  obtain ⟨hcounter, hbounded, hnodup, hledger⟩ := hi.balanced
  have hsplit : (s.released ++ s.holders).Nodup := hledger.nodup_iff.1 hnodup
  obtain ⟨hreleased, hholders, hapart⟩ := List.nodup_append.1 hsplit
  refine ⟨hcounter, hbounded, ⟨hnodup, hholders, fun k hk => ?_⟩, fun k hk => ?_, fun l s' hs hstep => ?_, fun hquiet => ?_⟩
  · exact hledger.mem_iff.2 (List.mem_append.2 hk.symm)
  · split
    · next hheld => exact List.count_eq_zero.2 fun hgone => hapart k hgone k hheld rfl
    · next hheld =>
      have hgone := (List.mem_append.1 (hledger.mem_iff.1 hk)).resolve_right hheld
      exact List.count_eq_one_of_mem hreleased hgone
  · exact left_step hi.tidy hs (step_does hstep)
  · have hcalls : positions Call.holds s.calls = [] := by
      refine List.eq_nil_iff_forall_not_mem.2 fun k hk => ?_
      obtain ⟨call, hcall, hholds⟩ := mem_positions.1 hk
      rw [Call.holds, not_holds_of_quiet hquiet hcall] at hholds
      cases hholds
    rw [Mailers.holders, hcalls, owned_of_quiet hi.tidy hquiet]
    rfl

/-- A call's mailer runs and exits, and another call's does not start. -/
def twoCalls : List Label :=
  let served : Answer := ⟨false, none, false, true, true⟩
  [.compose fun _ => none, .compose fun _ => none, .call 0 served, .call 1 served, .call 0 served, .call 1 served,
    .call 1 served, .call 0 served, .call 0 served, .call 0 served, .call 1 { served with spawned := false }, .call 0 served,
    .call 1 served, .call 0 served, .reaper .running, .reaper .running, .reaper .running, .reaper .running, .reaper .failed,
    .reaper .running]

theorem slots_conserved_twoCalls : ∃ s, exec Mailers.step .start twoCalls = some s ∧
    (s.active, s.acquired, s.released) = (0, [0, 1], [0, 1]) ∧ s.Conserved := by
  have hrun : (exec Mailers.step .start twoCalls).map (fun s => (s.active, s.acquired, s.released)) =
      some (0, [0, 1], [0, 1]) := by
    decide +kernel
  obtain ⟨s, hs, hslots⟩ := Option.map_eq_some_iff.1 hrun
  have hstart : Reach (· = Mailers.start) Mailers.step .start := .init rfl
  exact ⟨s, hs, hslots, slots_conserved s (hstart.exec hs)⟩

end AtriumPortal.Portal.Email
