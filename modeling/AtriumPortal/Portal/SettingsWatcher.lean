import AtriumPortal.Lib.Runs
import AtriumPortal.Portal.DaemonManager
import AtriumPortal.Portal.Settings
/-!
# The settings watcher

`prime_store`, `watch_loop`, `watch_connection` and `update_and_emit` next to the compositor
and the clients of the D-Bus interface. The compositor announces each change to whoever
subscribed, and answers a query with what it has then; anything on either connection may
fail. A client reads all settings in two steps, its reply being made before it is sent, and
lays each signal over what it read.
-/
open AtriumPortal.Lib AtriumPortal.Lib.Overlay AtriumPortal.Lib.Runs

namespace AtriumPortal.Portal.Settings

/-! ## The parties -/

/-- A message on the connection that subscribes. -/
inductive Packet where
  | subscribed
  | settingsChanged
  | other
  deriving DecidableEq

/-- The compositor's end of that connection: it sends events from `registered` on. -/
inductive Subscription where
  | absent
  | requested
  | registered
  | confirmed
  deriving DecidableEq

def Subscription.live : Subscription → Bool
  | .registered => true
  | .confirmed => true
  | _ => false

/-- Where the watcher is. -/
inductive Phase where
  /-- `prime_store` waits for its answer. -/
  | priming
  | primed (preferences : DesktopPreferences)
  /-- About to connect and to ask for events. -/
  | connecting
  | subscribing
  | connectingQuery
  /-- `query.settings()` waits for its answer. -/
  | asked
  | answered (preferences : DesktopPreferences)
  /-- `update_and_emit` has replaced the snapshot; the daemon's cards come first. -/
  | restyling (signals : List Setting)
  | emitting (signals : List Setting)
  /-- `events.next_event()`. -/
  | waiting
  | sleeping
  deriving DecidableEq

/-- The signals of the update in progress that are still to be emitted. -/
def Phase.unsent : Phase → List Setting
  | .restyling signals => signals
  | .emitting signals => signals
  | _ => []

/-- The interface is served once the store is primed. -/
def Phase.served : Phase → Bool
  | .priming => false
  | .primed _ => false
  | _ => true

inductive Holding where
  /-- The reply was made from this snapshot, and is not sent yet. -/
  | pending (snapshot : DesktopPreferences)
  | settings (held : Nested String String OwnedValue)

/-- A client that called `ReadAll`. It missed something once a signal was not sent, or was sent
between its snapshot and its reply. -/
structure Reader where
  namespaces : List String
  held : Holding
  missed : Bool

namespace Reader

/-- What it has, or is going to have. -/
def copy (r : Reader) : Nested String String OwnedValue :=
  match r.held with
  | .pending snapshot => readAllValues snapshot r.namespaces
  | .settings held => held

def reply (r : Reader) : Reader :=
  match r.held with
  | .pending snapshot => { r with held := .settings (readAllValues snapshot r.namespaces) }
  | .settings _ => r

/-- A signal while the store is `store`. -/
def hear (store : DesktopPreferences) (e : Setting) (r : Reader) : Reader :=
  match r.held with
  | .pending snapshot => { r with missed := r.missed || snapshot ≠ store }
  | .settings held => { r with held := .settings (put held e) }

/-- A signal that could not be emitted. -/
def miss (store : DesktopPreferences) (r : Reader) : Reader :=
  match r.held with
  | .pending snapshot => { r with missed := r.missed || snapshot ≠ store }
  | .settings _ => { r with missed := true }

end Reader

structure Service where
  compositor : DesktopPreferences
  subscription : Subscription
  /-- What was sent on the connection that subscribed and is not read. -/
  events : List Packet
  store : DesktopPreferences
  phase : Phase
  manager : Notifications.Manager
  readers : List Reader
  /-- The preferences it began to serve with. -/
  first : DesktopPreferences

inductive Label where
  /-- The compositor's preferences change. -/
  | set (preferences : DesktopPreferences)
  | register
  | confirm
  | other
  | hangup
  | answer
  | connect
  | connectQuery
  | receive
  | take
  | restyle
  | emit (ok : Bool)
  | finish
  /-- A connection or a query fails, or times out. -/
  | fail
  | retry
  | readAll (namespaces : List String)
  | reply (index : Nat)
  /-- The other calls of the daemon manager, its pump and its daemon. -/
  | manager (label : Notifications.Label)

namespace Service

/-! ## The compositor -/

def announce (s : Service) (packet : Packet) : Service :=
  if s.subscription.live then { s with events := s.events ++ [packet] } else s

/-- JSON has no number that is not one. -/
def set (s : Service) (preferences : DesktopPreferences) : Option Service :=
  if preferences.textScale.isNaN = false then some ({ s with compositor := preferences }.announce .settingsChanged)
  else none

def register (s : Service) : Option Service :=
  match s.subscription with
  | .requested => some { s with subscription := .registered }
  | _ => none

def confirm (s : Service) : Option Service :=
  match s.subscription with
  | .registered => some { s with subscription := .confirmed, events := s.events ++ [.subscribed] }
  | _ => none

def answer (s : Service) : Option Service :=
  match s.phase with
  | .priming => some { s with phase := .primed s.compositor }
  | .asked => some { s with phase := .answered s.compositor }
  | _ => none

/-! ## The watcher -/

/-- `watch_connection` returns its error; both connections are closed. -/
def drop (s : Service) : Service := { s with subscription := .absent, events := [], phase := .sleeping }

def connect (s : Service) : Option Service :=
  match s.phase with
  | .connecting => some { s with subscription := .requested, events := [], phase := .subscribing }
  | _ => none

def connectQuery (s : Service) : Option Service :=
  match s.phase with
  | .connectingQuery => some { s with phase := .asked }
  | _ => none

/-- The next message, or the end of the stream. -/
def receive (s : Service) : Option Service :=
  match s.phase, s.events with
  | .subscribing, .subscribed :: rest => some { s with events := rest, phase := .connectingQuery }
  | .subscribing, _ :: _ => some s.drop
  | .waiting, .settingsChanged :: rest => some { s with events := rest, phase := .asked }
  | .waiting, _ :: rest => some { s with events := rest }
  | .subscribing, [] => if s.subscription = .absent then some s.drop else none
  | .waiting, [] => if s.subscription = .absent then some s.drop else none
  | _, _ => none

/-- `update_and_emit` up to the daemon. -/
def update (s : Service) (preferences : DesktopPreferences) : Service :=
  let u := updateAndEmit s.store preferences
  { s with store := u.store, phase := if u.restyles then .restyling u.signals else .emitting u.signals }

def take (s : Service) : Option Service :=
  match s.phase with
  | .primed preferences => some { s with store := preferences, first := preferences, phase := .connecting }
  | .answered preferences => some (s.update preferences)
  | _ => none

/-- `push_appearance`, with the mutex. What it sends goes on as the manager's own steps. -/
def restyle (s : Service) : Option Service :=
  match s.phase, s.manager.busy with
  | .restyling signals, none =>
    some { s with
      manager := s.manager.pushAppearance (promptAppearance s.store.toDesktopPreferences)
      phase := .emitting signals }
  | _, _ => none

/-- An error is only logged. -/
def emit (s : Service) (ok : Bool) : Option Service :=
  match s.phase with
  | .emitting (e :: rest) =>
    some { s with
      readers := s.readers.map (if ok then Reader.hear s.store e else Reader.miss s.store)
      phase := .emitting rest }
  | _ => none

def finish (s : Service) : Option Service :=
  match s.phase with
  | .emitting [] => some { s with phase := .waiting }
  | _ => none

def fail (s : Service) : Option Service :=
  match s.phase with
  | .priming | .primed _ => some { s with phase := .connecting }
  | .connecting | .subscribing | .connectingQuery | .asked | .answered _ | .waiting => some s.drop
  | _ => none

def retry (s : Service) : Option Service :=
  match s.phase with
  | .sleeping => some { s with phase := .connecting }
  | _ => none

/-! ## The clients, and the daemon manager -/

def readAll (s : Service) (namespaces : List String) : Option Service :=
  if s.phase.served then some { s with readers := s.readers ++ [⟨namespaces, .pending s.store, false⟩] } else none

def reply (s : Service) (index : Nat) : Service := { s with readers := s.readers.modify index Reader.reply }

/-- Nobody else pushes an appearance. -/
def managed (s : Service) : Notifications.Label → Option Service
  | .pushAppearance _ => none
  | label => if s.phase.served then (s.manager.step label).map fun m => { s with manager := m } else none

def step (s : Service) : Label → Option Service
  | .set preferences => s.set preferences
  | .register => s.register
  | .confirm => s.confirm
  | .other => some (s.announce .other)
  | .hangup => some { s with subscription := .absent }
  | .answer => s.answer
  | .connect => s.connect
  | .connectQuery => s.connectQuery
  | .receive => s.receive
  | .take => s.take
  | .restyle => s.restyle
  | .emit ok => s.emit ok
  | .finish => s.finish
  | .fail => s.fail
  | .retry => s.retry
  | .readAll namespaces => s.readAll namespaces
  | .reply index => some (s.reply index)
  | .manager label => s.managed label

/-- The default snapshot, with any compositor. -/
def Init (s : Service) : Prop :=
  s.compositor.textScale.isNaN = false ∧ s.subscription = .absent ∧ s.events = [] ∧ s.store = defaultPreferences ∧
    s.phase = .priming ∧ s.manager = Notifications.init ∧ s.readers = [] ∧ s.first = defaultPreferences

/-! ## What is behind what -/

/-- The snapshot that is about to be the store, or is. -/
def latest (s : Service) : Option DesktopPreferences :=
  match s.phase with
  | .answered preferences => some preferences
  | .restyling _ | .emitting _ | .waiting => some s.store
  | _ => none

/-- The watcher and the compositor: what is not announced is not missed. -/
structure Linked (s : Service) : Prop where
  compositor : s.compositor.textScale.isNaN = false
  snapshot : ∀ p, s.phase = .primed p ∨ s.phase = .answered p → p.textScale.isNaN = false
  requested : s.subscription = .requested → s.phase = .subscribing ∧ s.events = []
  confirmed : s.phase = .subscribing → s.subscription = .confirmed → s.events ≠ []
  unserved : s.phase.served = false → s.subscription = .absent
  latest : ∀ p, s.latest = some p → s.subscription.live = true → p = s.compositor ∨ .settingsChanged ∈ s.events

/-- A client has, at each key of a namespace it wanted, what the store has, unless a signal for the key is to come. -/
def Told (s : Service) (r : Reader) : Prop :=
  ∀ space key, wanted r.namespaces space = true →
    (space, key) ∈ s.phase.unsent.map label ∨ Held Same unsetAccent (find r.copy space key) (lookup s.store space key)

/-- The store and the clients: a signal to come has what the store has. -/
structure Follow (s : Service) : Prop where
  store : s.store.textScale.isNaN = false
  unsent : ∀ e ∈ s.phase.unsent, Held Same unsetAccent (some e.2.2) (lookup s.store e.1 e.2.1)
  told : ∀ r ∈ s.readers, r.missed = false → s.Told r
  unserved : s.phase.served = false → s.readers = []

/-- The cards have the appearance of the store, once it is another one than at first. -/
def Matches (s : Service) : Prop :=
  s.manager.appearance = some (promptAppearance s.store.toDesktopPreferences) ∨
    s.manager.appearance = none ∧
      promptAppearance s.store.toDesktopPreferences = promptAppearance s.first.toDesktopPreferences

structure Styled (s : Service) : Prop where
  cards : (∀ signals, s.phase ≠ .restyling signals) → s.Matches
  unserved : s.phase.served = false → s.manager.appearance = none ∧ s.store = s.first

variable {s s' : Service}

/-- Whether the watcher is going to connect again. -/
def lost (s : Service) : Bool :=
  match s.phase, s.events with
  | .subscribing, .subscribed :: _ => s.subscription = .absent
  | .subscribing, [] => s.subscription = .absent
  | .subscribing, _ => true
  | .connectingQuery, _ | .asked, _ | .answered _, _ | .restyling _, _ | .emitting _, _ | .waiting, _ =>
    s.subscription = .absent
  | _, _ => false

/-- What a step does, and where it can be taken. -/
inductive Steps (s : Service) : Label → Service → Prop where
  | set {preferences : DesktopPreferences} (hnumber : preferences.textScale.isNaN = false) :
    Steps s (.set preferences) ({ s with compositor := preferences }.announce .settingsChanged)
  | register (hrequested : s.subscription = .requested) : Steps s .register { s with subscription := .registered }
  | confirm (hregistered : s.subscription = .registered) :
    Steps s .confirm { s with subscription := .confirmed, events := s.events ++ [.subscribed] }
  | other : Steps s .other (s.announce .other)
  | hangup : Steps s .hangup { s with subscription := .absent }
  | prime (hphase : s.phase = .priming) : Steps s .answer { s with phase := .primed s.compositor }
  | answer (hphase : s.phase = .asked) : Steps s .answer { s with phase := .answered s.compositor }
  | connect (hphase : s.phase = .connecting) :
    Steps s .connect { s with subscription := .requested, events := [], phase := .subscribing }
  | connectQuery (hphase : s.phase = .connectingQuery) : Steps s .connectQuery { s with phase := .asked }
  | subscribed {rest : List Packet} (hphase : s.phase = .subscribing) (hevents : s.events = .subscribed :: rest) :
    Steps s .receive { s with events := rest, phase := .connectingQuery }
  | changed {rest : List Packet} (hphase : s.phase = .waiting) (hevents : s.events = .settingsChanged :: rest) :
    Steps s .receive { s with events := rest, phase := .asked }
  | ignored {packet : Packet} {rest : List Packet} (hphase : s.phase = .waiting) (hother : packet ≠ .settingsChanged)
      (hevents : s.events = packet :: rest) : Steps s .receive { s with events := rest }
  /-- Another event than the confirmation, or the end of the stream. -/
  | ended (hphase : s.phase = .subscribing ∨ s.phase = .waiting) (hlost : s.lost = true) : Steps s .receive s.drop
  | first {preferences : DesktopPreferences} (hphase : s.phase = .primed preferences) :
    Steps s .take { s with store := preferences, first := preferences, phase := .connecting }
  | update {preferences : DesktopPreferences} (hphase : s.phase = .answered preferences) :
    Steps s .take (s.update preferences)
  | restyle {signals : List Setting} (hphase : s.phase = .restyling signals) :
    Steps s .restyle { s with
      manager := s.manager.pushAppearance (promptAppearance s.store.toDesktopPreferences)
      phase := .emitting signals }
  | emit {ok : Bool} {e : Setting} {rest : List Setting} (hphase : s.phase = .emitting (e :: rest)) :
    Steps s (.emit ok) { s with
      readers := s.readers.map (if ok then Reader.hear s.store e else Reader.miss s.store)
      phase := .emitting rest }
  | finish (hphase : s.phase = .emitting []) : Steps s .finish { s with phase := .waiting }
  | abandon (hserved : s.phase.served = false) : Steps s .fail { s with phase := .connecting }
  | fail (hunsent : s.phase.unsent = []) (hidle : ∀ signals, s.phase ≠ .restyling signals) : Steps s .fail s.drop
  | retry (hphase : s.phase = .sleeping) : Steps s .retry { s with phase := .connecting }
  | readAll {namespaces : List String} (hserved : s.phase.served = true) :
    Steps s (.readAll namespaces) { s with readers := s.readers ++ [⟨namespaces, .pending s.store, false⟩] }
  | reply (index : Nat) : Steps s (.reply index) (s.reply index)
  | manager {label : Notifications.Label} {m : Notifications.Manager} (hm : m.appearance = s.manager.appearance) :
    Steps s (.manager label) { s with manager := m }

theorem receive_steps (hs : s.receive = some s') : Steps s .receive s' := by
  unfold receive at hs
  split at hs
  · next hphase hevents =>
    cases hs
    exact .subscribed hphase hevents
  · next packet rest hother hphase hevents =>
    cases hs
    refine .ended (.inl hphase) ?_
    rw [lost, hphase, hevents]
    cases packet with
    | subscribed => exact absurd rfl hother
    | settingsChanged => rfl
    | other => rfl
  · next hphase hevents =>
    cases hs
    exact .changed hphase hevents
  · next hother hphase hevents =>
    cases hs
    exact .ignored hphase hother hevents
  · next hphase hevents =>
    split at hs
    · next habsent =>
      cases hs
      refine .ended (.inl hphase) ?_
      rw [lost, hphase, hevents, habsent]
      rfl
    · cases hs
  · next hphase hevents =>
    split at hs
    · next habsent =>
      cases hs
      refine .ended (.inr hphase) ?_
      rw [lost, hphase, habsent]
      rfl
    · cases hs
  · cases hs

theorem fail_steps (hs : s.fail = some s') : Steps s .fail s' := by
  unfold fail at hs
  split at hs <;> first | cases hs; done | skip
  · next hphase =>
    cases hs
    exact .abandon (by rw [hphase]; rfl)
  · next hphase =>
    cases hs
    exact .abandon (by rw [hphase]; rfl)
  all_goals
    next hphase =>
    cases hs
    exact .fail (by rw [hphase]; rfl) (by rw [hphase]; nofun)

theorem managed_steps {label : Notifications.Label} (hs : s.managed label = some s') : Steps s (.manager label) s' := by
  unfold managed at hs
  split at hs
  · cases hs
  · next hpush =>
    split at hs
    · obtain ⟨m, hm, rfl⟩ := Option.map_eq_some_iff.1 hs
      exact .manager (Notifications.Manager.step_appearance hpush hm)
    · cases hs

theorem step_steps {l : Label} (hs : s.step l = some s') : Steps s l s' := by
  cases l with
  | set preferences =>
    simp only [step, set] at hs
    split at hs <;> cases hs
    exact .set ‹_›
  | register =>
    simp only [step, register] at hs
    split at hs <;> cases hs
    exact .register ‹_›
  | confirm =>
    simp only [step, confirm] at hs
    split at hs <;> cases hs
    exact .confirm ‹_›
  | other =>
    cases hs
    exact .other
  | hangup =>
    cases hs
    exact .hangup
  | answer =>
    simp only [step, answer] at hs
    split at hs <;> cases hs
    · exact .prime ‹_›
    · exact .answer ‹_›
  | connect =>
    simp only [step, connect] at hs
    split at hs <;> cases hs
    exact .connect ‹_›
  | connectQuery =>
    simp only [step, connectQuery] at hs
    split at hs <;> cases hs
    exact .connectQuery ‹_›
  | receive => exact receive_steps hs
  | take =>
    simp only [step, take] at hs
    split at hs <;> cases hs
    · exact .first ‹_›
    · exact .update ‹_›
  | restyle =>
    simp only [step, restyle] at hs
    split at hs <;> cases hs
    exact .restyle ‹_›
  | emit ok =>
    simp only [step, emit] at hs
    split at hs <;> cases hs
    exact .emit ‹_›
  | finish =>
    simp only [step, finish] at hs
    split at hs <;> cases hs
    exact .finish ‹_›
  | fail => exact fail_steps hs
  | retry =>
    simp only [step, retry] at hs
    split at hs <;> cases hs
    exact .retry ‹_›
  | readAll namespaces =>
    simp only [step, readAll] at hs
    split at hs <;> cases hs
    exact .readAll ‹_›
  | reply index =>
    cases hs
    exact .reply index
  | manager label => exact managed_steps hs

/-! ## The watcher and the compositor -/

theorem drop_linked (h : s.Linked) : s.drop.Linked where
  compositor := h.compositor
  snapshot := by rintro p (h | h) <;> cases h
  requested := nofun
  confirmed := nofun
  unserved := nofun
  latest := by
    intro p hp
    cases hp

theorem announce_linked (h : s.Linked) (packet : Packet) : (s.announce packet).Linked := by
  unfold announce
  split
  · next hlive =>
    refine ⟨h.compositor, h.snapshot, fun hrequested => ?_, fun _ _ => List.append_ne_nil_of_right_ne_nil _ nofun,
      h.unserved, fun p hp _ => ?_⟩
    · rw [show s.subscription = .requested from hrequested] at hlive
      cases hlive
    · rcases h.latest p hp hlive with hp | hin
      · exact .inl hp
      · exact .inr (List.mem_append_left _ hin)
  · exact h

/-- A change is announced to whoever is subscribed. -/
theorem set_linked {preferences : DesktopPreferences} (h : s.Linked) (hnumber : preferences.textScale.isNaN = false) :
    ({ s with compositor := preferences }.announce .settingsChanged).Linked := by
  unfold announce
  split
  · next hlive =>
    refine ⟨hnumber, h.snapshot, fun hrequested => ?_, fun _ _ => List.append_ne_nil_of_right_ne_nil _ nofun,
      h.unserved, fun _ _ _ => .inr (List.mem_append_right _ (List.mem_singleton.2 rfl))⟩
    rw [show s.subscription = .requested from hrequested] at hlive
    cases hlive
  · next hdead =>
    exact ⟨hnumber, h.snapshot, h.requested, h.confirmed, h.unserved, fun _ _ hlive => absurd hlive hdead⟩

theorem Linked.unrequested (h : s.Linked) {phase : Phase} (hphase : s.phase = phase) (hother : phase ≠ .subscribing) :
    s.subscription ≠ .requested :=
  fun hrequested => hother (hphase.symm.trans (h.requested hrequested).1)

/-- On to a phase that waits for no confirmation. -/
theorem Linked.goto (h : s.Linked) {t : Service} (hcompositor : t.compositor = s.compositor)
    (hrequested : t.subscription ≠ .requested) (hphase : t.phase ≠ .subscribing)
    (hserved : t.phase.served = false → t.subscription = .absent)
    (hsnapshot : ∀ p, t.phase = .primed p ∨ t.phase = .answered p → p = s.compositor)
    (hlatest : ∀ p, t.latest = some p → t.subscription.live = true → p = s.compositor ∨ .settingsChanged ∈ t.events) :
    t.Linked where
  compositor := by
    rw [hcompositor]
    exact h.compositor
  snapshot p hp := by
    rw [hsnapshot p hp]
    exact h.compositor
  requested h := absurd h hrequested
  confirmed h := absurd h hphase
  unserved := hserved
  latest := by
    rw [hcompositor]
    exact hlatest

theorem update_phase (preferences : DesktopPreferences) :
    (s.update preferences).phase = .restyling (changedSettings s.store preferences) ∨
      (s.update preferences).phase = .emitting (changedSettings s.store preferences) := by
  unfold update
  dsimp only
  split
  · exact .inl rfl
  · exact .inr rfl

theorem update_latest (preferences : DesktopPreferences) : (s.update preferences).latest = some preferences := by
  unfold Service.latest
  rcases update_phase (s := s) preferences with hphase | hphase
  · rw [hphase]
    rfl
  · rw [hphase]
    rfl

theorem update_linked {preferences : DesktopPreferences} (h : s.Linked) (hphase : s.phase = .answered preferences) :
    (s.update preferences).Linked := by
  refine h.goto rfl (h.unrequested hphase nofun) ?_ ?_ ?_ fun p hp hlive => ?_
  · rcases update_phase (s := s) preferences with hnext | hnext <;> rw [hnext] <;> nofun
  · rcases update_phase (s := s) preferences with hnext | hnext <;> rw [hnext] <;> nofun
  · intro p hp
    rcases update_phase (s := s) preferences with hnext | hnext <;> rw [hnext] at hp <;> rcases hp with hp | hp <;>
      cases hp
  · rw [update_latest] at hp
    cases hp
    exact h.latest preferences (by rw [Service.latest, hphase]) hlive

/-- The clients and the daemon manager have nothing to do with it. -/
theorem Linked.frame (h : s.Linked) {readers : List Reader} {manager : Notifications.Manager} :
    Linked { s with readers := readers, manager := manager } :=
  ⟨h.compositor, h.snapshot, h.requested, h.confirmed, h.unserved, h.latest⟩

theorem step_linked {l : Label} (h : s.Linked) (hs : Steps s l s') : s'.Linked := by
  have hunserved : s.phase.served = false → s.subscription ≠ .requested := by
    intro hserved
    rw [h.unserved hserved]
    nofun
  cases hs with
  | set hnumber => exact set_linked h hnumber
  | register hrequested =>
    obtain ⟨hphase, -⟩ := h.requested hrequested
    refine ⟨h.compositor, h.snapshot, nofun, nofun, fun hserved => ?_, fun p hp _ => ?_⟩
    · simp only [hphase, Phase.served] at hserved
      cases hserved
    · simp only [Service.latest, hphase] at hp
      cases hp
  | confirm hregistered =>
    refine ⟨h.compositor, h.snapshot, nofun, fun _ _ => List.append_ne_nil_of_right_ne_nil _ nofun, fun hserved => ?_,
      fun p hp _ => ?_⟩
    · exact absurd (h.unserved hserved) (by rw [hregistered]; nofun)
    · rcases h.latest p hp (by rw [hregistered]; rfl) with hp | hin
      · exact .inl hp
      · exact .inr (List.mem_append_left _ hin)
  | other => exact announce_linked h .other
  | hangup =>
    refine ⟨h.compositor, h.snapshot, nofun, nofun, fun _ => rfl, fun p _ hlive => ?_⟩
    cases hlive
  | prime hphase =>
    have hserved : s.phase.served = false := by
      rw [hphase]
      rfl
    refine h.goto rfl (hunserved hserved) nofun (fun _ => h.unserved hserved) ?_ fun p hp => ?_
    · rintro p (hp | hp) <;> cases hp
      rfl
    · cases hp
  | answer hphase =>
    refine h.goto rfl (h.unrequested hphase nofun) nofun nofun ?_ fun p hp _ => ?_
    · rintro p (hp | hp) <;> cases hp
      rfl
    · cases hp
      exact .inl rfl
  | connect hphase =>
    refine ⟨h.compositor, ?_, fun _ => ⟨rfl, rfl⟩, nofun, nofun, fun p hp => ?_⟩
    · rintro p (hp | hp) <;> cases hp
    · cases hp
  | connectQuery hphase =>
    refine h.goto rfl (h.unrequested hphase nofun) nofun nofun ?_ fun p hp => ?_
    · rintro p (hp | hp) <;> cases hp
    · cases hp
  | subscribed _ hevents =>
    refine h.goto rfl (fun hrequested => ?_) nofun nofun ?_ fun p hp => ?_
    · rw [(h.requested hrequested).2] at hevents
      cases hevents
    · rintro p (hp | hp) <;> cases hp
    · cases hp
  | changed hphase _ =>
    refine h.goto rfl (h.unrequested hphase nofun) nofun nofun ?_ fun p hp => ?_
    · rintro p (hp | hp) <;> cases hp
    · cases hp
  | ignored hphase hother hevents =>
    refine h.goto rfl (h.unrequested hphase nofun) ?_ h.unserved ?_ fun p hp hlive => ?_
    · rw [hphase]
      nofun
    · rw [hphase]
      rintro p (hp | hp) <;> cases hp
    · rcases h.latest p hp hlive with hp | hin
      · exact .inl hp
      · rw [hevents] at hin
        rcases List.mem_cons.1 hin with rfl | hin
        · exact absurd rfl hother
        · exact .inr hin
  | ended => exact drop_linked h
  | first hphase =>
    refine h.goto rfl (h.unrequested hphase nofun) nofun nofun ?_ fun p hp => ?_
    · rintro p (hp | hp) <;> cases hp
    · cases hp
  | update hphase => exact update_linked h hphase
  | restyle hphase | emit hphase | finish hphase =>
    refine h.goto rfl (h.unrequested hphase nofun) nofun nofun ?_ fun p hp hlive => ?_
    · rintro p (hp | hp) <;> cases hp
    · cases hp
      exact h.latest s.store (by rw [Service.latest, hphase]) hlive
  | abandon hserved =>
    refine h.goto rfl (hunserved hserved) nofun nofun ?_ fun p hp => ?_
    · rintro p (hp | hp) <;> cases hp
    · cases hp
  | fail => exact drop_linked h
  | retry hphase =>
    refine h.goto rfl (h.unrequested hphase nofun) nofun nofun ?_ fun p hp => ?_
    · rintro p (hp | hp) <;> cases hp
    · cases hp
  | readAll | reply | manager => exact h.frame

/-! ## Steps that change no setting -/

structure Quiet (s s' : Service) : Prop where
  store : s'.store = s.store
  first : s'.first = s.first
  readers : s'.readers = s.readers
  appearance : s'.manager.appearance = s.manager.appearance
  unsent : s'.phase.unsent = s.phase.unsent
  served : s'.phase.served = false → s.phase.served = false
  restyling : ∀ signals, s.phase = .restyling signals → s'.phase = .restyling signals

theorem quiet_phase {phase phase' : Phase} {subscription : Subscription} {events : List Packet}
    (hphase : s.phase = phase) (hunsent : phase'.unsent = phase.unsent)
    (hserved : phase'.served = false → phase.served = false) (hidle : ∀ signals, phase ≠ .restyling signals) :
    Quiet s { s with subscription := subscription, events := events, phase := phase' } := by
  subst hphase
  exact ⟨rfl, rfl, rfl, rfl, hunsent, hserved, fun signals h => absurd h (hidle signals)⟩

theorem quiet_same (hstore : s'.store = s.store) (hfirst : s'.first = s.first) (hreaders : s'.readers = s.readers)
    (hmanager : s'.manager.appearance = s.manager.appearance) (hphase : s'.phase = s.phase) : Quiet s s' :=
  ⟨hstore, hfirst, hreaders, hmanager, by rw [hphase], fun h => by rwa [← hphase], fun _ h => hphase.trans h⟩

theorem announce_quiet (packet : Packet) : Quiet s (s.announce packet) := by
  unfold announce
  split
  · exact quiet_same rfl rfl rfl rfl rfl
  · exact quiet_same rfl rfl rfl rfl rfl

/-- The steps that touch the store, the cards or a client. -/
def tells : Label → Bool
  | .take => true
  | .restyle => true
  | .emit _ => true
  | .readAll _ => true
  | .reply _ => true
  | _ => false

theorem step_quiet {l : Label} (hs : Steps s l s') (hl : tells l = false) : Quiet s s' := by
  cases hs with
  | @set preferences _ =>
    have h := announce_quiet (s := { s with compositor := preferences }) .settingsChanged
    exact ⟨h.store, h.first, h.readers, h.appearance, h.unsent, h.served, h.restyling⟩
  | other => exact announce_quiet .other
  | register | confirm | hangup | ignored => exact quiet_same rfl rfl rfl rfl rfl
  | prime hphase | answer hphase | connect hphase | connectQuery hphase | subscribed hphase | changed hphase
  | finish hphase | retry hphase => exact quiet_phase hphase rfl id nofun
  | ended hphase =>
    rcases hphase with hphase | hphase
    · exact quiet_phase hphase rfl nofun nofun
    · exact quiet_phase hphase rfl nofun nofun
  | abandon hserved =>
    refine quiet_phase rfl ?_ nofun fun signals hphase => ?_
    · cases hphase : s.phase <;> rw [hphase] at hserved <;> cases hserved <;> rfl
    · rw [hphase] at hserved
      cases hserved
  | fail hunsent hidle => exact quiet_phase rfl hunsent.symm nofun hidle
  | manager hm => exact quiet_same rfl rfl rfl hm rfl
  | first | update | restyle | emit | readAll | reply => cases hl

/-! ## The store and the clients -/

theorem Quiet.follow (hq : Quiet s s') (h : s.Follow) : s'.Follow := by
  refine ⟨by rw [hq.store]; exact h.store, fun e he => ?_, fun r hr hheard => ?_, fun hserved => ?_⟩
  · rw [hq.unsent] at he
    rw [hq.store]
    exact h.unsent e he
  · rw [hq.readers] at hr
    unfold Told
    rw [hq.unsent, hq.store]
    exact h.told r hr hheard
  · rw [hq.readers]
    exact h.unserved (hq.served hserved)

/-- What `ReadAll` returns has the settings of its snapshot. -/
theorem held_readAllValues {store : DesktopPreferences} (hnumber : store.textScale.isNaN = false)
    {namespaces : List String} {space key : String} (hwanted : wanted namespaces space = true) :
    Held Same unsetAccent (find (readAllValues store namespaces) space key) (lookup store space key) := by
  have hfind : find (readAllValues store namespaces) space key = lookup store space key := by
    rw [readAllValues_eq, find_putAll (nodup_filter (settingEntries_nodup store) _), valueAt_filter, if_pos hwanted]
    exact Option.or_none
  rw [hfind]
  cases hvalue : lookup store space key with
  | none => exact .inl .none
  | some v =>
    have hself := @changes store store hnumber space key
    rw [Changes, hvalue] at hself
    exact .inl (.some hself.self)

theorem told_current {r : Reader} (hnumber : s.store.textScale.isNaN = false) (hheld : r.held = .pending s.store) :
    s.Told r := by
  intro space key hwanted
  right
  rw [Reader.copy, hheld]
  exact held_readAllValues hnumber hwanted

/-- A new snapshot: the signals to come are the difference. -/
theorem update_follow (h : s.Follow) (hidle : s.phase.unsent = []) {preferences : DesktopPreferences}
    (hnumber : preferences.textScale.isNaN = false) : (s.update preferences).Follow := by
  have hunsent : (s.update preferences).phase.unsent = changedSettings s.store preferences := by
    rcases update_phase (s := s) preferences with hphase | hphase
    · rw [hphase]
      rfl
    · rw [hphase]
      rfl
  have hnext : (s.update preferences).phase.served = true := by
    rcases update_phase (s := s) preferences with hphase | hphase
    · rw [hphase]
      rfl
    · rw [hphase]
      rfl
  refine ⟨hnumber, fun e he => ?_, fun r hr hheard space key hwanted => ?_, fun hunserved => ?_⟩
  · rw [hunsent] at he
    have hchange := @changes s.store preferences hnumber e.1 e.2.1
    rw [Changes, (mem_iff_valueAt (changedSettings_nodup _ _)).1 he] at hchange
    exact hchange.told
  · rw [hunsent]
    by_cases hin : (space, key) ∈ (changedSettings s.store preferences).map label
    · exact .inl hin
    · right
      have hchange := @changes s.store preferences hnumber space key
      have hnone : valueAt (changedSettings s.store preferences) space key = none := by
        rw [← valueAt_isSome, Bool.not_eq_true, Option.isSome_eq_false_iff, Option.isNone_iff_eq_none] at hin
        exact hin
      rw [Changes, hnone] at hchange
      rcases h.told r hr hheard space key hwanted with hbefore | hheld
      · rw [hidle] at hbefore
        cases hbefore
      · exact hheld.kept same_trans hchange
  · rw [hnext] at hunserved
    cases hunserved

/-- The first snapshot is there before any client. -/
theorem first_follow {preferences : DesktopPreferences} (h : s.Follow) (hlinked : s.Linked)
    (hphase : s.phase = .primed preferences) :
    Follow { s with store := preferences, first := preferences, phase := .connecting } := by
  have hreaders : s.readers = [] := h.unserved (by rw [hphase]; rfl)
  refine ⟨hlinked.snapshot preferences (.inl hphase), nofun, fun r hr => ?_, nofun⟩
  rw [show _ = _ from hreaders] at hr
  cases hr

theorem restyle_follow {signals : List Setting} {manager : Notifications.Manager} (h : s.Follow)
    (hphase : s.phase = .restyling signals) : Follow { s with manager := manager, phase := .emitting signals } := by
  refine ⟨h.store, fun e he => h.unsent e (by rw [hphase]; exact he), fun r hr hheard space key hwanted => ?_, nofun⟩
  have htold := h.told r hr hheard space key hwanted
  rw [hphase] at htold
  exact htold

/-- A client hears the next signal. -/
theorem hear_told {r : Reader} {e : Setting} {rest : List Setting} (hnumber : s.store.textScale.isNaN = false)
    (hphase : s.phase = .emitting (e :: rest)) (htold : r.missed = false → s.Told r)
    (hvalue : Held Same unsetAccent (some e.2.2) (lookup s.store e.1 e.2.1)) {readers : List Reader}
    (hheard : (r.hear s.store e).missed = false) :
    Told { s with readers := readers, phase := .emitting rest } (r.hear s.store e) := by
  obtain ⟨namespaces, held, missed⟩ := r
  cases held with
  | pending snapshot =>
    simp only [Reader.hear, Bool.or_eq_false_iff, decide_eq_false_iff_not, not_not] at hheard
    obtain ⟨-, rfl⟩ := hheard
    exact told_current hnumber rfl
  | settings held =>
    intro space key hwanted
    change _ ∨ Held _ _ (find (put held e) space key) _
    rw [find_put]
    by_cases hkey : e.1 = space ∧ e.2.1 = key
    · obtain ⟨rfl, rfl⟩ := hkey
      rw [if_pos ⟨rfl, rfl⟩]
      exact .inr hvalue
    · rw [if_neg hkey]
      rcases htold hheard space key hwanted with hin | hheld
      · rw [hphase] at hin
        rcases List.mem_cons.1 hin with heq | hin
        · cases heq
          exact absurd ⟨rfl, rfl⟩ hkey
        · exact .inl hin
      · exact .inr hheld

theorem miss_told {r : Reader} {rest : List Setting} (hnumber : s.store.textScale.isNaN = false)
    {readers : List Reader} (hheard : (r.miss s.store).missed = false) :
    Told { s with readers := readers, phase := .emitting rest } (r.miss s.store) := by
  obtain ⟨namespaces, held, missed⟩ := r
  cases held with
  | pending snapshot =>
    simp only [Reader.miss, Bool.or_eq_false_iff, decide_eq_false_iff_not, not_not] at hheard
    obtain ⟨-, rfl⟩ := hheard
    exact told_current hnumber rfl
  | settings held => cases hheard

theorem emit_follow {ok : Bool} {e : Setting} {rest : List Setting} (h : s.Follow) (hphase : s.phase = .emitting (e :: rest)) :
    Follow { s with
      readers := s.readers.map (if ok then Reader.hear s.store e else Reader.miss s.store)
      phase := .emitting rest } := by
  have hunsent : s.phase.unsent = e :: rest := by
    rw [hphase]
    rfl
  refine ⟨h.store, fun e' he => h.unsent e' (by rw [hunsent]; exact List.mem_cons_of_mem _ he),
    fun r hr hheard => ?_, nofun⟩
  obtain ⟨r, hin, rfl⟩ := List.mem_map.1 hr
  cases ok with
  | true =>
    exact hear_told h.store hphase (h.told r hin) (h.unsent e (by rw [hunsent]; exact List.mem_cons_self ..)) hheard
  | false => exact miss_told h.store hheard

theorem readAll_follow {namespaces : List String} (h : s.Follow) (hserved : s.phase.served = true) :
    Follow { s with readers := s.readers ++ [⟨namespaces, .pending s.store, false⟩] } := by
  refine ⟨h.store, h.unsent, fun r hr hheard => ?_, fun hunserved => ?_⟩
  · rcases List.mem_append.1 hr with hr | hr
    · exact h.told r hr hheard
    · rw [List.mem_singleton] at hr
      subst hr
      exact told_current (s := { s with readers := _ }) h.store rfl
  · rw [show s.phase.served = false from hunserved] at hserved
    cases hserved

@[simp] theorem reply_copy (r : Reader) : r.reply.copy = r.copy := by
  obtain ⟨namespaces, held, missed⟩ := r
  cases held with
  | pending _ => rfl
  | settings _ => rfl

theorem reply_same (r : Reader) : r.reply.namespaces = r.namespaces ∧ r.reply.missed = r.missed := by
  obtain ⟨namespaces, held, missed⟩ := r
  cases held with
  | pending _ => exact ⟨rfl, rfl⟩
  | settings _ => exact ⟨rfl, rfl⟩

theorem reply_follow (h : s.Follow) (index : Nat) : (s.reply index).Follow := by
  have hold : ∀ r ∈ (s.reply index).readers, r ∈ s.readers ∨ ∃ r' ∈ s.readers, r = r'.reply := by
    intro r hr
    obtain ⟨i, hi⟩ := List.mem_iff_getElem?.1 hr
    rw [reply, List.getElem?_modify] at hi
    obtain ⟨r', hr', rfl⟩ := Option.map_eq_some_iff.1 hi
    have hin := List.mem_of_getElem? hr'
    split
    · exact .inr ⟨r', hin, rfl⟩
    · exact .inl hin
  refine ⟨h.store, h.unsent, fun r hr hheard => ?_, fun hunserved => ?_⟩
  · rcases hold r hr with hin | ⟨r', hin, rfl⟩
    · exact h.told r hin hheard
    · obtain ⟨hnamespaces, hmissed⟩ := reply_same r'
      rw [hmissed] at hheard
      intro space key hwanted
      rw [hnamespaces] at hwanted
      rw [reply_copy]
      exact h.told r' hin hheard space key hwanted
  · change s.readers.modify index _ = []
    rw [h.unserved hunserved, List.modify_nil]

theorem step_follow {l : Label} (h : s.Follow) (hlinked : s.Linked) (hs : Steps s l s') : s'.Follow := by
  by_cases htells : tells l = false
  · exact (step_quiet hs htells).follow h
  cases hs with
  | first hphase => exact first_follow h hlinked hphase
  | update hphase => exact update_follow h (by rw [hphase]; rfl) (hlinked.snapshot _ (.inr hphase))
  | restyle hphase => exact restyle_follow h hphase
  | emit hphase => exact emit_follow h hphase
  | readAll hserved => exact readAll_follow h hserved
  | reply index => exact reply_follow h index
  | _ => exact absurd rfl htells

/-! ## The cards -/

theorem Quiet.styled (hq : Quiet s s') (h : s.Styled) : s'.Styled := by
  refine ⟨fun hidle => ?_, fun hserved => ?_⟩
  · unfold Matches
    rw [hq.appearance, hq.store, hq.first]
    exact h.cards fun signals hphase => hidle signals (hq.restyling signals hphase)
  · rw [hq.appearance, hq.store, hq.first]
    exact h.unserved (hq.served hserved)

theorem update_styled {preferences : DesktopPreferences} (h : s.Styled) (hphase : s.phase = .answered preferences) :
    (s.update preferences).Styled := by
  refine ⟨fun hidle => ?_, fun hserved => ?_⟩
  · have hsame : promptAppearance s.store.toDesktopPreferences = promptAppearance preferences.toDesktopPreferences := by
      by_contra hother
      refine hidle (changedSettings s.store preferences) ?_
      change (if _ then _ else _) = _
      rw [if_pos ((updateAndEmit_restyles s.store preferences).2 hother)]
      rfl
    have hbefore : s.Matches := h.cards fun signals h => by
      rw [hphase] at h
      cases h
    unfold Matches at hbefore ⊢
    rwa [hsame] at hbefore
  · rcases update_phase (s := s) preferences with hnext | hnext
    · rw [hnext] at hserved
      cases hserved
    · rw [hnext] at hserved
      cases hserved

theorem step_styled {l : Label} (h : s.Styled) (hs : Steps s l s') : s'.Styled := by
  by_cases htells : tells l = false
  · exact (step_quiet hs htells).styled h
  cases hs with
  | first hphase => exact ⟨fun _ => .inr ⟨(h.unserved (by rw [hphase]; rfl)).1, rfl⟩, nofun⟩
  | update hphase => exact update_styled h hphase
  | restyle => exact ⟨fun _ => .inl (Notifications.Manager.pushAppearance_appearance _), nofun⟩
  | emit hphase =>
    refine ⟨fun _ => h.cards fun signals hrestyling => ?_, nofun⟩
    rw [hphase] at hrestyling
    cases hrestyling
  | readAll | reply => exact ⟨h.cards, h.unserved⟩
  | _ => exact absurd rfl htells

/-! ## Every run -/

theorem default_number : defaultPreferences.textScale.isNaN = false := by decide

theorem init_safe (h : Init s) : s.Linked ∧ s.Follow ∧ s.Styled := by
  obtain ⟨hnumber, hsubscription, hevents, hstore, hphase, hmanager, hreaders, hfirst⟩ := h
  refine ⟨⟨hnumber, fun p hp => ?_, fun h => ?_, fun h => ?_, fun _ => hsubscription, fun p hp => ?_⟩,
    ⟨?_, fun e he => ?_, fun r hr => ?_, fun _ => hreaders⟩, ⟨fun _ => .inr ⟨?_, ?_⟩, fun _ => ⟨?_, ?_⟩⟩⟩
  · rw [hphase] at hp
    rcases hp with hp | hp <;> cases hp
  · rw [hsubscription] at h
    cases h
  · rw [hphase] at h
    cases h
  · rw [Service.latest, hphase] at hp
    cases hp
  · rw [hstore]
    exact default_number
  · rw [hphase] at he
    cases he
  · rw [hreaders] at hr
    cases hr
  · rw [hmanager]
    rfl
  · rw [hstore, hfirst]
  · rw [hmanager]
    rfl
  · rw [hstore, hfirst]

theorem reach_safe (h : Reach Init step s) : s.Linked ∧ s.Follow ∧ s.Styled := by
  refine h.inv (I := fun s => s.Linked ∧ s.Follow ∧ s.Styled) (fun s => init_safe) ?_
  rintro s l s' ⟨hlinked, hfollow, hstyled⟩ hs
  have hsteps := step_steps hs
  exact ⟨step_linked hlinked hsteps, step_follow hfollow hlinked hsteps, step_styled hstyled hsteps⟩

def darkPreferences : DesktopPreferences :=
  { defaultPreferences with toDesktopPreferences := { defaultPreferences.toDesktopPreferences with colorScheme := .dark } }

def start : Service where
  compositor := defaultPreferences
  subscription := .absent
  events := []
  store := defaultPreferences
  phase := .priming
  manager := Notifications.init
  readers := []
  first := defaultPreferences

theorem start_reach : Reach Init step start := .init ⟨default_number, rfl, rfl, rfl, rfl, rfl, rfl, rfl⟩

/-- Up to the first query's answer, with a client on the way. -/
def starting : List Label :=
  [.answer, .take, .connect, .register, .confirm, .receive, .connectQuery, .answer, .take, .finish, .readAll [],
    .reply 0]

/-- A change, told to the client. -/
def changing : List Label :=
  [.set darkPreferences, .receive, .answer, .take, .restyle, .emit true, .emit true, .finish]

example : (exec step start (starting ++ changing)).map (fun s => (s.phase, s.store.colorScheme, s.readers.map (·.missed))) =
    some (.waiting, .dark, [false]) := by decide +kernel

/-- A reply that a signal overtook leaves its client with the old setting. -/
example : ((exec step start (starting ++
    [.set darkPreferences, .receive, .answer, .readAll [], .take, .restyle, .emit true, .emit true, .finish, .reply 1])).map
      fun s => s.readers.map fun r => (r.missed, find r.copy appearanceNamespace colorSchemeKey)) =
    some [(false, some (.u32 1)), (true, some (.u32 0))] := by decide +kernel

/-! ## Coming to rest -/

/-- What the watcher does by itself, and what the compositor owes it. -/
def progress : Label → Bool
  | .register | .confirm | .answer | .connect | .connectQuery | .receive | .take | .restyle | .emit _ | .finish
  | .retry => true
  | _ => false

/-- No change of the preferences, no other event and no failure. -/
def calm : Label → Bool
  | .set _ | .other | .hangup | .fail => false
  | _ => true

/-- The compositor confirms a subscription to who still waits for it. -/
def Unconfirmed (s : Service) : Prop :=
  s.subscription = .requested ∨ s.subscription = .registered → s.phase = .subscribing ∧ .subscribed ∉ s.events

def work (s : Service) : Nat :=
  match s.phase, s.subscription with
  | .priming, _ => 27
  | .primed _, _ => 26
  | .sleeping, _ => 25
  | .connecting, _ => 24
  | .subscribing, .requested => 23
  | .subscribing, .registered => 22
  | .subscribing, _ => 0
  | .connectingQuery, _ => 18
  | .asked, _ => 17
  | .answered _, _ => 16
  | .restyling signals, _ => signals.length + 2
  | .emitting signals, _ => signals.length + 1
  | .waiting, _ => 0

/-- Every unread event may be a change, with all its signals. -/
def potential (s : Service) : Nat := 20 * s.events.length + (if s.lost then 50 else 0) + s.work

theorem changedSettings_length (previous current : DesktopPreferences) :
    (changedSettings previous current).length ≤ 12 := by
  have hlength := (changedSettings_sublist previous current).length_le
  rw [List.length_map] at hlength
  exact hlength

theorem unconfirmed_of (h : s.Unconfirmed) (hphase : s.phase ≠ .subscribing)
    (hsubscription : s'.subscription = s.subscription) : s'.Unconfirmed := by
  intro hwaits
  rw [hsubscription] at hwaits
  exact absurd (h hwaits).1 hphase

theorem announce_unconfirmed (h : s.Unconfirmed) {packet : Packet} (hpacket : packet ≠ .subscribed) :
    (s.announce packet).Unconfirmed := by
  unfold announce
  split
  · intro hwaits
    obtain ⟨hphase, hin⟩ := h hwaits
    refine ⟨hphase, fun hsubscribed => ?_⟩
    rcases List.mem_append.1 hsubscribed with hsubscribed | hsubscribed
    · exact hin hsubscribed
    · exact hpacket (List.mem_singleton.1 hsubscribed).symm
  · exact h

theorem step_unconfirmed {l : Label} (h : s.Unconfirmed) (hs : Steps s l s') : s'.Unconfirmed := by
  have hunserved : s.phase.served = false → s.phase ≠ .subscribing := by
    intro hserved hphase
    rw [hphase] at hserved
    cases hserved
  cases hs with
  | @set preferences _ => exact announce_unconfirmed (s := { s with compositor := preferences }) h nofun
  | register hrequested => exact fun _ => h (.inl hrequested)
  | other => exact announce_unconfirmed h nofun
  | confirm | hangup | ended | fail => rintro (hwaits | hwaits) <;> cases hwaits
  | connect => exact fun _ => ⟨rfl, List.not_mem_nil⟩
  | subscribed _ hevents =>
    intro hwaits
    refine absurd ?_ (h hwaits).2
    rw [hevents]
    exact List.mem_cons_self ..
  | prime hphase | answer hphase | connectQuery hphase | changed hphase | ignored hphase | first hphase | update hphase
  | restyle hphase | emit hphase | finish hphase | retry hphase =>
    exact unconfirmed_of h (by rw [hphase]; nofun) rfl
  | abandon hserved => exact unconfirmed_of h (hunserved hserved) rfl
  | readAll | reply | manager => exact h

theorem reach_unconfirmed (h : Reach Init step s) : s.Unconfirmed := by
  refine h.inv (fun s hinit hwaits => ?_) fun s l s' h hs => step_unconfirmed h (step_steps hs)
  obtain ⟨-, hsubscription, -⟩ := hinit
  rw [hsubscription] at hwaits
  rcases hwaits with hwaits | hwaits <;> cases hwaits

/-- Every step of the watcher is paid for. -/
theorem step_pays {l : Label} (hlinked : s.Linked) (hunconfirmed : s.Unconfirmed) (hcalm : calm l = true)
    (hs : Steps s l s') : s'.potential + (progress l).toNat ≤ s.potential := by
  cases hs with
  | set | other | hangup | abandon | fail => cases hcalm
  | register hrequested =>
    obtain ⟨hphase, hevents⟩ := hlinked.requested hrequested
    simp [potential, lost, work, hphase, hevents, hrequested, progress]
  | confirm hregistered =>
    obtain ⟨hphase, hin⟩ := hunconfirmed (.inr hregistered)
    cases hevents : s.events with
    | nil => simp [potential, lost, work, hphase, hevents, hregistered, progress]
    | cons packet rest =>
      cases packet with
      | subscribed => simp [hevents] at hin
      | settingsChanged => simp [potential, lost, work, hphase, hevents, hregistered, progress]; omega
      | other => simp [potential, lost, work, hphase, hevents, hregistered, progress]; omega
  | prime hphase | answer hphase | connect hphase | connectQuery hphase | first hphase | finish hphase | retry hphase =>
    simp [potential, lost, work, hphase, progress]
  | subscribed hphase hevents | changed hphase hevents =>
    simp [potential, lost, work, hphase, hevents, progress]; omega
  | ignored hphase _ hevents =>
    simp only [potential, lost, work, hphase, hevents, progress, List.length_cons, Bool.toNat_true]
    omega
  | ended _ hlost =>
    rw [potential, potential, hlost]
    simp [lost, work, progress, drop]
    omega
  | @update preferences hphase =>
    have hlength := changedSettings_length s.store preferences
    have hevents : (s.update preferences).events = s.events := rfl
    have hsubscription : (s.update preferences).subscription = s.subscription := rfl
    rcases update_phase (s := s) preferences with hnext | hnext
    · simp [potential, lost, work, hphase, hnext, hevents, hsubscription, progress]; omega
    · simp [potential, lost, work, hphase, hnext, hevents, hsubscription, progress]; omega
  | restyle hphase | emit hphase =>
    simp only [potential, lost, work, hphase, progress, List.length_cons, decide_eq_true_eq, Bool.toNat_true]
    omega
  | readAll | reply | manager => exact Nat.le_refl _

theorem potential_le (s : Service) : s.potential ≤ 20 * s.events.length + 77 + s.phase.unsent.length := by
  have hlost : (if s.lost then 50 else 0) ≤ 50 := by split <;> omega
  have hwork : s.work ≤ 27 + s.phase.unsent.length := by
    cases hphase : s.phase with
    | subscribing => cases hsubscription : s.subscription <;> simp [work, hphase, hsubscription, Phase.unsent]
    | restyling signals | emitting signals => simp only [work, hphase, Phase.unsent]; omega
    | _ => simp [work, hphase, Phase.unsent]
  unfold potential
  omega

theorem calm_compositor {l : Label} (hcalm : calm l = true) (hs : Steps s l s') : s'.compositor = s.compositor := by
  cases hs with
  | set | other | hangup | abandon | fail => cases hcalm
  | _ => rfl

/-- Where nothing can go on, the watcher waits for the next event. -/
theorem settled_of_stuck (hlinked : s.Linked) (hfree : s.manager.busy = none)
    (hstuck : ∀ l, progress l = true → s.step l = none) :
    s.phase = .waiting ∧ s.events = [] ∧ s.subscription = .confirmed := by
  have hregister := hstuck .register rfl
  have hconfirm := hstuck .confirm rfl
  have hreceive := hstuck .receive rfl
  simp only [step, register] at hregister
  simp only [step, confirm] at hconfirm
  simp only [step] at hreceive
  cases hphase : s.phase with
  | priming => simpa [step, answer, hphase] using hstuck .answer rfl
  | primed _ => simpa [step, take, hphase] using hstuck .take rfl
  | connecting => simpa [step, connect, hphase] using hstuck .connect rfl
  | connectingQuery => simpa [step, connectQuery, hphase] using hstuck .connectQuery rfl
  | asked => simpa [step, answer, hphase] using hstuck .answer rfl
  | answered _ => simpa [step, take, hphase] using hstuck .take rfl
  | restyling _ => simpa [step, restyle, hphase, hfree] using hstuck .restyle rfl
  | emitting signals =>
    cases signals with
    | nil => simpa [step, finish, hphase] using hstuck .finish rfl
    | cons e rest => simpa [step, emit, hphase] using hstuck (.emit true) rfl
  | sleeping => simpa [step, retry, hphase] using hstuck .retry rfl
  | subscribing =>
    exfalso
    cases hsubscription : s.subscription with
    | requested => simp [hsubscription] at hregister
    | registered => simp [hsubscription] at hconfirm
    | absent =>
      cases hevents : s.events with
      | nil => simp [receive, hphase, hevents, hsubscription] at hreceive
      | cons packet rest => cases packet <;> simp [receive, hphase, hevents] at hreceive
    | confirmed =>
      cases hevents : s.events with
      | nil => exact hlinked.confirmed hphase hsubscription hevents
      | cons packet rest => cases packet <;> simp [receive, hphase, hevents] at hreceive
  | waiting =>
    have hevents : s.events = [] := by
      cases hevents : s.events with
      | nil => rfl
      | cons packet rest => cases packet <;> simp [receive, hphase, hevents] at hreceive
    refine ⟨rfl, hevents, ?_⟩
    cases hsubscription : s.subscription with
    | absent => simp [receive, hphase, hevents, hsubscription] at hreceive
    | requested => simp [hsubscription] at hregister
    | registered => simp [hsubscription] at hconfirm
    | confirmed => rfl

/-- Once nothing fails and nothing changes any more, the watcher takes a bounded number of steps, and where it can take
none (the daemon manager's mutex being free) it has what the compositor has, and so has every client that missed
nothing. -/
theorem watcher_settles {ls : List Label} (h : Reach Init step s) (hcalm : ∀ l ∈ ls, calm l = true)
    (hrun : exec step s ls = some s') :
    ls.countP progress ≤ 20 * s.events.length + 77 + s.phase.unsent.length ∧
    (s'.manager.busy = none → (∀ l, progress l = true → s'.step l = none) →
      s'.phase = .waiting ∧ s'.events = [] ∧ s'.store = s.compositor ∧
        ∀ r ∈ s'.readers, r.missed = false → ∀ held, r.held = .settings held →
          ∀ space key, wanted r.namespaces space = true →
            Held Same unsetAccent (find held space key) (lookup s.compositor space key)) := by
  have hguarded : exec (Guarded (fun _ l => calm l = true) step) s ls = some s' := (exec_guarded hcalm).trans hrun
  obtain ⟨hlinked, hfollow, -⟩ := reach_safe (h.exec hrun)
  constructor
  · have hpays : s'.potential + ls.countP progress ≤ s.potential :=
      exec_pays (I := fun s => s.Linked ∧ s.Unconfirmed)
        (fun t l t' ⟨hlinked, hunconfirmed⟩ ht =>
          have ⟨hl, ht⟩ := guarded_eq_some.1 ht
          ⟨⟨step_linked hlinked (step_steps ht), step_unconfirmed hunconfirmed (step_steps ht)⟩,
            step_pays hlinked hunconfirmed hl (step_steps ht)⟩)
        ⟨(reach_safe h).1, reach_unconfirmed h⟩ hguarded
    have hbound := potential_le s
    omega
  · intro hfree hstuck
    obtain ⟨hphase, hevents, hsubscription⟩ := settled_of_stuck hlinked hfree hstuck
    have hcompositor : s'.compositor = s.compositor := by
      refine exec_inv (I := fun t => t.compositor = s.compositor) (fun t l t' ht hstep => ?_) rfl hguarded
      obtain ⟨hl, hstep⟩ := guarded_eq_some.1 hstep
      exact (calm_compositor hl (step_steps hstep)).trans ht
    have hstore : s'.store = s.compositor := by
      rcases hlinked.latest s'.store (by rw [Service.latest, hphase]) (by rw [hsubscription]; rfl) with hsame | hunread
      · exact hsame.trans hcompositor
      · rw [hevents] at hunread
        cases hunread
    refine ⟨hphase, hevents, hstore, fun r hr hheard held hheld space key hwanted => ?_⟩
    have htold := hfollow.told r hr hheard space key hwanted
    rw [Reader.copy, hheld, hphase, hstore] at htold
    rcases htold with hin | htold
    · cases hin
    · exact htold

theorem watcher_settles_dark :
    ((exec step start (starting ++ [.set darkPreferences])).bind (exec step · changing.tail)).isSome = true ∧
    ∀ s, exec step start (starting ++ [.set darkPreferences]) = some s → ∀ s', exec step s changing.tail = some s' →
      changing.tail.countP progress ≤ 20 * s.events.length + 77 + s.phase.unsent.length ∧
      (s'.manager.busy = none → (∀ l, progress l = true → s'.step l = none) →
        s'.phase = .waiting ∧ s'.events = [] ∧ s'.store = s.compositor ∧
          ∀ r ∈ s'.readers, r.missed = false → ∀ held, r.held = .settings held →
            ∀ space key, wanted r.namespaces space = true →
              Held Same unsetAccent (find held space key) (lookup s.compositor space key)) :=
  ⟨by decide +kernel, fun _ hs _ hs' =>
    watcher_settles (start_reach.exec hs) (by decide) hs'⟩

end Service

end AtriumPortal.Portal.Settings
