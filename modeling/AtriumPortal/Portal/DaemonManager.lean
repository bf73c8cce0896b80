import AtriumPortal.Portal.Notification
/-!
# The daemon manager

`DaemonManager` of `notification.rs` next to the pump and the daemon. `send`,
`ensure_daemon` and the drop of a handle are steps of the call that holds the mutex,
and `outer` has the sends that wait inside `ensure_daemon` for the appearance to be
pushed again.
-/
open AtriumPortal.Lib AtriumPortal.Lib.Checks AtriumPortal.Lib.Runs AtriumPortal.Prompter

namespace AtriumPortal.Portal.Notifications

/-! ## Live notifications -/

/-- The live ids of every application, oldest first. -/
abbrev LiveNotifications : Type := List CardKey

namespace LiveNotifications

def total (live : LiveNotifications) : Nat := live.length

/-- Track a notification; the application's oldest id when the cap forced an eviction. -/
def track (live : LiveNotifications) (key : CardKey) : LiveNotifications × Option String :=
  Quota.track maxIdsPerApp live key

def remove (live : LiveNotifications) (key : CardKey) : LiveNotifications := live.erase key

def clear (_ : LiveNotifications) : LiveNotifications := []

/-- What the pump does about an event; one that does not decode is skipped. -/
def hear (live : LiveNotifications) (event : NotifyEvent) : LiveNotifications :=
  if event.check = .ok () then live.remove event.key else live

end LiveNotifications

/-! ## A call in progress -/

/-- What a frame is sent for. -/
inductive Op where
  /-- The id `notify` evicted, before its own notification. -/
  | evict (n : Notification) (evicted : String)
  | deliver (n : Notification)
  | restyle (appearance : PromptAppearance)

def Op.frame : Op → NotifyCommand
  | .evict n evicted => .close (n.appId, evicted)
  | .deliver n => .notify n
  | .restyle appearance => .setAppearance appearance

/-- A `send` at one of its two attempts. -/
structure Send where
  frame : NotifyCommand
  attempt : Nat

/-- Where a send goes on after a handle was dropped. -/
inductive After where
  | spawn
  | retry
  | fail

/-- Where the innermost send is. -/
inductive Point where
  | ensure
  /-- The process is killed; the pump is joined. -/
  | dropping (next : After)
  | spawn
  | write

inductive Busy where
  /-- `notify` below the total cap, before it tracks the id. -/
  | checked (n : Notification)
  | sending (op : Op) (send : Send) (outer : List Send) (point : Point)
  /-- An id is about to be removed; `next` is the notification to send then. -/
  | forget (key : CardKey) (next : Option Notification)
  /-- `close` has removed the id and is about to write. -/
  | closing (key : CardKey)

structure Manager where
  live : LiveNotifications
  appearance : Option PromptAppearance
  daemon : Option Daemon
  busy : Option Busy

def init : Manager := ⟨[], none, none, none⟩

namespace Manager

def begin (s : Manager) (op : Op) : Manager := { s with busy := some (.sending op ⟨op.frame, 0⟩ [] .ensure) }

def goto (s : Manager) (op : Op) (send : Send) (outer : List Send) (point : Point) : Manager :=
  { s with busy := some (.sending op send outer point) }

/-- The innermost send returns whether it delivered its frame. An outer one was in
`ensure_daemon`, which ignores that. -/
def returns (s : Manager) (op : Op) (delivered : Bool) : List Send → Manager
  | outer :: rest => s.goto op outer rest .write
  | [] =>
    match op with
    | .evict n evicted => { s with busy := some (.forget (n.appId, evicted) (some n)) }
    | .deliver n => { s with busy := if delivered then none else some (.forget n.key none) }
    | .restyle _ => { s with busy := none }

end Manager

/-- What `try_wait` says. -/
inductive Wait where
  | running
  | exited
  | failed

inductive Label where
  | addNotification (appId id : String) (map : Vardict)
  | removeNotification (appId id : String)
  | pushAppearance (appearance : PromptAppearance)
  | track
  | ensure (wait : Wait)
  | joined
  | spawn (ok : Bool)
  | write (ok : Bool)
  | forget
  /-- The pump reads an event. -/
  | pump
  | daemon (act : Daemon.Act)

namespace Manager

/-! ## The calls -/

def addNotification (s : Manager) (appId id : String) (map : Vardict) : Manager :=
  match parseNotification appId id map with
  | .error _ => s
  | .ok n => if maxTotalIds ≤ s.live.total then s else { s with busy := some (.checked n) }

def removeNotification (s : Manager) (appId id : String) : Manager :=
  if validId appId = .ok () ∧ validId id = .ok () ∧ (appId, id) ∈ s.live then
    { s with live := s.live.remove (appId, id), busy := some (.closing (appId, id)) }
  else s

def pushAppearance (s : Manager) (appearance : PromptAppearance) : Manager :=
  if s.appearance = some appearance then s
  else if s.daemon.isSome then { s with appearance := some appearance }.begin (.restyle appearance)
  else { s with appearance := some appearance }

def track (s : Manager) (n : Notification) : Manager :=
  match (s.live.track n.key).2 with
  | some evicted => { s with live := (s.live.track n.key).1 }.begin (.evict n evicted)
  | none => { s with live := (s.live.track n.key).1 }.begin (.deliver n)

/-! ## Sending -/

/-- `ensure_daemon` up to the spawn. Only a daemon that has exited is forgotten. -/
def ensure (s : Manager) (op : Op) (send : Send) (outer : List Send) (wait : Wait) : Option Manager :=
  match s.daemon, wait with
  | none, _ => some (s.goto op send outer .spawn)
  | some (.running _ _ _), .running => some (s.goto op send outer .write)
  | some (.exited _), .exited => some ({ s with live := s.live.clear }.goto op send outer (.dropping .spawn))
  | some d, .failed => some ({ s with daemon := some d.kill }.goto op send outer (.dropping .spawn))
  | _, _ => none

def afterDrop (s : Manager) (op : Op) (send : Send) (outer : List Send) : After → Manager
  | .spawn => s.goto op send outer .spawn
  | .retry => s.goto op { send with attempt := 1 } outer .ensure
  | .fail => s.returns op false outer

/-- The pump ends at the end of the daemon's stream. -/
def joined (s : Manager) (op : Op) (send : Send) (outer : List Send) (next : After) : Option Manager :=
  match s.daemon with
  | some (.exited []) => some ({ s with daemon := none }.afterDrop op send outer next)
  | _ => none

/-- A remembered appearance is pushed before the frame is written. -/
def spawn (s : Manager) (op : Op) (send : Send) (outer : List Send) (ok : Bool) : Manager :=
  if ok then
    match s.appearance with
    | some appearance =>
      { s with daemon := some .spawned }.goto op ⟨.setAppearance appearance, 0⟩ (send :: outer) .ensure
    | none => { s with daemon := some .spawned }.goto op send outer .write
  else s.returns op false outer

/-- A frame is written whole, to a process that runs, or the write fails. -/
def written (frame : NotifyCommand) : Daemon → Bool → Option (Option Daemon)
  | .running stdin cards stdout, true => some (some (.running (stdin ++ [frame]) cards stdout))
  | .exited _, true => none
  | _, false => some none

def write (s : Manager) (op : Op) (send : Send) (outer : List Send) (ok : Bool) : Option Manager :=
  match s.daemon with
  | none => some (s.returns op false outer)
  | some d =>
    match written send.frame d ok with
    | none => none
    | some (some d') => some ({ s with daemon := some d' }.returns op true outer)
    | some none =>
      some ({ s with daemon := some d.kill }.goto op send outer
        (.dropping (if send.attempt = 0 then .retry else .fail)))

/-- `close` is best effort: a failed write leaves the daemon as it is. -/
def writeClose (s : Manager) (key : CardKey) (ok : Bool) : Option Manager :=
  match s.daemon with
  | none => some { s with busy := none }
  | some d =>
    match written (.close key) d ok with
    | none => none
    | some (some d') => some { s with daemon := some d', busy := none }
    | some none => some { s with busy := none }

def forget (s : Manager) (key : CardKey) : Option Notification → Manager
  | some n => { s with live := s.live.remove key }.begin (.deliver n)
  | none => { s with live := s.live.remove key, busy := none }

/-! ## The pump and the daemon -/

def pump (s : Manager) : Option Manager :=
  match s.daemon with
  | none => none
  | some d =>
    match d.stdout with
    | [] => none
    | event :: rest => some { s with live := s.live.hear event, daemon := some (d.setStdout rest) }

def daemonActs (s : Manager) (act : Daemon.Act) : Option Manager :=
  match s.daemon with
  | none => none
  | some d => (d.act act).map fun d' => { s with daemon := some d' }

def step (s : Manager) (label : Label) : Option Manager :=
  match label, s.busy with
  | .addNotification appId id map, none => some (s.addNotification appId id map)
  | .removeNotification appId id, none => some (s.removeNotification appId id)
  | .pushAppearance appearance, none => some (s.pushAppearance appearance)
  | .track, some (.checked n) => some (s.track n)
  | .ensure wait, some (.sending op send outer .ensure) => s.ensure op send outer wait
  | .joined, some (.sending op send outer (.dropping next)) => s.joined op send outer next
  | .spawn ok, some (.sending op send outer .spawn) => some (s.spawn op send outer ok)
  | .write ok, some (.sending op send outer .write) => s.write op send outer ok
  | .write ok, some (.closing key) => s.writeClose key ok
  | .forget, some (.forget key next) => some (s.forget key next)
  | .pump, _ => s.pump
  | .daemon act, _ => s.daemonActs act
  | _, _ => none

/-! ## The remembered appearance -/

variable {s s' : Manager} {op : Op} {send : Send} {outer : List Send}

theorem returns_appearance (delivered : Bool) : (s.returns op delivered outer).appearance = s.appearance := by
  cases outer with
  | cons _ _ => rfl
  | nil => cases op <;> rfl

theorem afterDrop_appearance (next : After) : (s.afterDrop op send outer next).appearance = s.appearance := by
  cases next with
  | spawn => rfl
  | retry => rfl
  | fail => exact returns_appearance false

theorem pushAppearance_appearance (appearance : PromptAppearance) :
    (s.pushAppearance appearance).appearance = some appearance := by
  unfold pushAppearance
  split
  · next h => exact h
  · split
    · rfl
    · rfl

theorem track_appearance (n : Notification) : (s.track n).appearance = s.appearance := by
  unfold track
  split
  · rfl
  · rfl

theorem ensure_appearance {wait : Wait} (h : s.ensure op send outer wait = some s') :
    s'.appearance = s.appearance := by
  unfold ensure at h
  split at h <;> cases h <;> rfl

theorem joined_appearance {next : After} (h : s.joined op send outer next = some s') :
    s'.appearance = s.appearance := by
  unfold joined at h
  split at h
  · cases h
    exact afterDrop_appearance next
  · cases h

theorem spawn_appearance (ok : Bool) : (s.spawn op send outer ok).appearance = s.appearance := by
  unfold spawn
  split
  · split
    · rfl
    · rfl
  · exact returns_appearance false

theorem write_appearance {ok : Bool} (h : s.write op send outer ok = some s') : s'.appearance = s.appearance := by
  unfold write at h
  split at h
  · cases h
    exact returns_appearance false
  · split at h
    · cases h
    · cases h
      exact returns_appearance true
    · cases h
      rfl

theorem writeClose_appearance {key : CardKey} {ok : Bool} (h : s.writeClose key ok = some s') :
    s'.appearance = s.appearance := by
  unfold writeClose at h
  split at h
  · cases h
    rfl
  · split at h <;> cases h <;> rfl

/-- Only `push_appearance` changes it. -/
theorem step_appearance {label : Label} (hpush : ∀ appearance, label ≠ .pushAppearance appearance)
    (h : s.step label = some s') : s'.appearance = s.appearance := by
  unfold step at h
  split at h
  · cases h
    unfold addNotification
    split
    · rfl
    · split <;> rfl
  · cases h
    unfold removeNotification
    split <;> rfl
  · exact absurd rfl (hpush _)
  · cases h
    exact track_appearance _
  · exact ensure_appearance h
  · exact joined_appearance h
  · cases h
    exact spawn_appearance _
  · exact write_appearance h
  · exact writeClose_appearance h
  · cases h
    unfold forget
    split <;> rfl
  · unfold pump at h
    split at h
    · cases h
    · split at h <;> cases h
      rfl
  · unfold daemonActs at h
    split at h
    · cases h
    · obtain ⟨d', -, rfl⟩ := Option.map_eq_some_iff.1 h
      rfl
  · cases h

end Manager

end AtriumPortal.Portal.Notifications
