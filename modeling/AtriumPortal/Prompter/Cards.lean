import AtriumPortal.Prompter.Notify
/-!
# The notification daemon

The daemon by its process contract: cards keyed by application and id, at most 64
of them, and an event for every card that closes. What each of its acts does to
the cards that stand and to the cards that are accounted for.
-/

namespace AtriumPortal.Prompter

/-- Cards the daemon holds at once; a new card past the cap evicts the oldest. -/
def maxLiveNotifications : Nat := 64

/-- A daemon with its pipes: the frames it has not read, its cards, oldest first,
and the events the portal has not read. -/
inductive Daemon where
  | running (stdin : List NotifyCommand) (cards : List Notification) (stdout : List NotifyEvent)
  | exited (stdout : List NotifyEvent)
  deriving DecidableEq, Repr

namespace Daemon

def spawned : Daemon := .running [] [] []

def stdout : Daemon → List NotifyEvent
  | .running _ _ stdout => stdout
  | .exited stdout => stdout

def stdin : Daemon → List NotifyCommand
  | .running stdin _ _ => stdin
  | .exited _ => []

/-- The cards and the unread frames go with the process. -/
def kill (d : Daemon) : Daemon := .exited d.stdout

def setStdout (events : List NotifyEvent) : Daemon → Daemon
  | .running stdin cards _ => .running stdin cards events
  | .exited _ => .exited events

/-- A card that is shown again stays in its place, or is the newest. -/
def put (renew : Bool) (cards : List Notification) (n : Notification) : List Notification :=
  if n.key ∈ cards.map (·.key) then
    if renew then cards.filter (·.key ≠ n.key) ++ [n] else cards.map fun card => if card.key = n.key then n else card
  else cards ++ [n]

/-- Show a card; the oldest goes past the cap. -/
def «show» (renew : Bool) (stdin : List NotifyCommand) (cards : List Notification) (stdout : List NotifyEvent)
    (n : Notification) : Daemon :=
  match put renew cards n with
  | oldest :: rest =>
    if maxLiveNotifications < rest.length + 1 then .running stdin rest (stdout ++ [.closed oldest.key])
    else .running stdin (oldest :: rest) stdout
  | [] => .running stdin [] stdout

/-- Take a card off the screen with an event. -/
def withdraw (stdin : List NotifyCommand) (cards : List Notification) (stdout : List NotifyEvent)
    (event : NotifyEvent) : Daemon :=
  .running stdin (cards.filter (·.key ≠ event.key)) (stdout ++ [event])

inductive Act where
  | read (renew : Bool)
  /-- Timeout or dismissal. -/
  | dismiss (key : CardKey)
  | invoke (key : CardKey) (action : String)
  | exit

def obey (renew : Bool) (stdin : List NotifyCommand) (cards : List Notification) (stdout : List NotifyEvent) :
    NotifyCommand → Daemon
  | .notify n => «show» renew stdin cards stdout n
  | .close key =>
    if key ∈ cards.map (·.key) then withdraw stdin cards stdout (.closed key) else .running stdin cards stdout
  | .setAppearance _ => .running stdin cards stdout
  | .shutdown => .exited stdout

/-- What the daemon can do; a frame it rejects is skipped. -/
def act : Daemon → Act → Option Daemon
  | .exited _, _ => none
  | .running [] _ _, .read _ => none
  | .running (command :: stdin) cards stdout, .read renew =>
    match command.check with
    | .ok () => some (obey renew stdin cards stdout command)
    | .error _ => some (.running stdin cards stdout)
  | .running stdin cards stdout, .dismiss key =>
    if key ∈ cards.map (·.key) then some (withdraw stdin cards stdout (.closed key)) else none
  | .running stdin cards stdout, .invoke key action =>
    if ∃ card ∈ cards, card.key = key ∧ action ∈ card.actions then
      some (withdraw stdin cards stdout (.actionInvoked key action))
    else none
  | .running _ _ stdout, .exit => some (.exited stdout)

/-! ## What it shows, and what it will show -/

def Shows (key : CardKey) : Daemon → Prop
  | .running _ cards _ => key ∈ cards.map (·.key)
  | .exited _ => False

instance (key : CardKey) : (d : Daemon) → Decidable (d.Shows key)
  | .running _ cards _ => inferInstanceAs (Decidable (key ∈ cards.map (·.key)))
  | .exited _ => inferInstanceAs (Decidable False)

/-- Whether the card of a key is there after a frame. -/
def leaves (key : CardKey) (shown : Bool) : NotifyCommand → Bool
  | .notify n => n.key = key || shown
  | .close closed => closed ≠ key && shown
  | _ => shown

def after (key : CardKey) (shown : Bool) (command : NotifyCommand) : Bool :=
  match command.check with
  | .ok () => leaves key shown command
  | .error _ => shown

/-- Whether the card of a key is to stand, once the frames unread and those to come are read. -/
def stands (key : CardKey) (coming : List NotifyCommand) : Daemon → Bool
  | .running stdin cards _ => (stdin ++ coming).foldl (after key) (decide (key ∈ cards.map (·.key)))
  | .exited _ => coming.foldl (after key) false

theorem after_accepted {key : CardKey} {shown : Bool} {command : NotifyCommand} (h : command.check = .ok ()) :
    after key shown command = leaves key shown command := by
  rw [after, h]

theorem after_rejected {key : CardKey} {shown : Bool} {command : NotifyCommand} {error : String}
    (h : command.check = .error error) : after key shown command = shown := by
  rw [after, h]

theorem leaves_mono (key : CardKey) (command : NotifyCommand) {shown shown' : Bool} (h : shown = true → shown' = true) :
    leaves key shown command = true → leaves key shown' command = true := by
  cases command with
  | notify n => simpa [leaves] using Or.imp_right h
  | close closed => simpa [leaves] using And.imp_right h
  | setAppearance _ => exact h
  | shutdown => exact h

theorem after_mono (key : CardKey) (command : NotifyCommand) {shown shown' : Bool} (h : shown = true → shown' = true) :
    after key shown command = true → after key shown' command = true := by
  cases hcheck : command.check with
  | ok _ =>
    rw [after_accepted hcheck, after_accepted hcheck]
    exact leaves_mono key command h
  | error error =>
    rw [after_rejected hcheck, after_rejected hcheck]
    exact h

theorem foldl_after_mono (key : CardKey) (commands : List NotifyCommand) {shown shown' : Bool}
    (h : shown = true → shown' = true) :
    commands.foldl (after key) shown = true → commands.foldl (after key) shown' = true := by
  induction commands generalizing shown shown' with
  | nil => exact h
  | cons command commands ih => exact ih (after_mono key command h)

theorem leaves_true {key : CardKey} {command : NotifyCommand} (h : .close key ≠ command) :
    leaves key true command = true := by
  cases command with
  | notify n => simp [leaves]
  | close closed =>
    have hne : closed ≠ key := fun he => h (by rw [he])
    simp [leaves, hne]
  | setAppearance _ => rfl
  | shutdown => rfl

theorem after_true {key : CardKey} {command : NotifyCommand} (h : .close key ≠ command) :
    after key true command = true := by
  cases hcheck : command.check with
  | ok _ =>
    rw [after_accepted hcheck]
    exact leaves_true h
  | error error => exact after_rejected hcheck

/-- Without a frame that closes it, a card that is there stays. -/
theorem foldl_after_true {key : CardKey} {commands : List NotifyCommand} (h : .close key ∉ commands) :
    commands.foldl (after key) true = true := by
  induction commands with
  | nil => rfl
  | cons command commands ih =>
    rw [List.mem_cons, not_or] at h
    rw [List.foldl_cons, after_true h.1]
    exact ih h.2

variable {d d' : Daemon} {key : CardKey} {coming : List NotifyCommand}

theorem stands_eq (key : CardKey) (coming : List NotifyCommand) (d : Daemon) :
    d.stands key coming = coming.foldl (after key) (d.stands key []) := by
  cases d with
  | running stdin cards stdout => simp [stands]
  | exited stdout => rfl

theorem after_setAppearance {shown : Bool} {appearance : PromptAppearance} :
    after key shown (.setAppearance appearance) = shown := by
  unfold after
  split <;> rfl

theorem after_notify {shown : Bool} {n : Notification} (h : after key shown (.notify n) = true) :
    n.key = key ∨ shown = true := by
  unfold after at h
  split at h
  · simpa [leaves] using h
  · exact .inr h

theorem after_refused {shown : Bool} {n : Notification} (h : n.validate ≠ .ok ()) :
    after key shown (.notify n) = shown := by
  unfold after
  split
  · next hok => exact absurd hok h
  · rfl

theorem after_close {shown : Bool} (h : checkKey key = .ok ()) : after key shown (.close key) = false := by
  have hok : NotifyCommand.check (.close key) = .ok () := h
  simp [after_accepted hok, leaves]

theorem after_close_false {closed : CardKey} : after key false (.close closed) = false := by
  unfold after
  split
  · simp [leaves]
  · rfl

theorem after_other {shown : Bool} {closed : CardKey} (h : closed ≠ key) : after key shown (.close closed) = shown := by
  unfold after
  split
  · simp [leaves, h]
  · rfl

theorem stands_kill (h : d.kill.stands key coming = true) : d.stands key coming = true := by
  cases d with
  | running stdin cards stdout =>
    rw [stands, List.foldl_append]
    exact foldl_after_mono key coming (by nofun) h
  | exited stdout => exact h

theorem stands_write {command : NotifyCommand} {stdin : List NotifyCommand} {cards : List Notification}
    {stdout : List NotifyEvent} :
    (Daemon.running (stdin ++ [command]) cards stdout).stands key coming =
      (Daemon.running stdin cards stdout).stands key (command :: coming) := by
  simp [stands]

theorem mem_put {renew : Bool} {cards : List Notification} {n : Notification} :
    key ∈ (put renew cards n).map (·.key) ↔ key = n.key ∨ key ∈ cards.map (·.key) := by
  unfold put
  split
  · next hin =>
    split
    · simp only [List.map_append, List.mem_append, List.mem_map, List.mem_filter]
      grind
    · have hkeys : (cards.map fun card => if card.key = n.key then n else card).map (·.key) = cards.map (·.key) := by
        rw [List.map_map]
        exact List.map_congr_left fun card _ => by grind
      rw [hkeys]
      grind
  · simp [or_comm, eq_comm]

theorem mem_withdraw {cards : List Notification} {closed : CardKey} :
    key ∈ (cards.filter (·.key ≠ closed)).map (·.key) ↔ key ≠ closed ∧ key ∈ cards.map (·.key) := by
  simp only [List.mem_map, List.mem_filter]
  grind

theorem stands_show {renew : Bool} {stdin : List NotifyCommand} {cards : List Notification} {stdout : List NotifyEvent}
    {n : Notification} (hs : («show» renew stdin cards stdout n).stands key coming = true) :
    (stdin ++ coming).foldl (after key) (leaves key (decide (key ∈ cards.map (·.key))) (.notify n)) = true := by
  have hmono : decide (key ∈ (put renew cards n).map (·.key)) = true →
      leaves key (decide (key ∈ cards.map (·.key))) (.notify n) = true := by
    intro hin
    obtain rfl | hold := mem_put.1 (of_decide_eq_true hin)
    · simp [leaves]
    · simp only [leaves, hold, decide_true, Bool.or_true]
  refine foldl_after_mono key _ hmono ?_
  unfold «show» at hs
  split at hs
  · next oldest rest hput =>
    rw [hput]
    split at hs
    · refine foldl_after_mono key _ ?_ hs
      simp +contextual
    · exact hs
  · next hput =>
    rw [hput]
    exact hs

theorem stands_withdraw {stdin : List NotifyCommand} {cards : List Notification} {stdout : List NotifyEvent}
    {event : NotifyEvent} (hs : (withdraw stdin cards stdout event).stands key coming = true) :
    (stdin ++ coming).foldl (after key) (event.key ≠ key && decide (key ∈ cards.map (·.key))) = true := by
  refine foldl_after_mono key _ ?_ hs
  intro hin
  obtain ⟨hne, hold⟩ := mem_withdraw.1 (of_decide_eq_true hin)
  have hne' : event.key ≠ key := hne.symm
  simpa [hold] using hne'

theorem stands_obey {renew : Bool} {command : NotifyCommand} {stdin : List NotifyCommand} {cards : List Notification}
    {stdout : List NotifyEvent} (hs : (obey renew stdin cards stdout command).stands key coming = true) :
    (stdin ++ coming).foldl (after key) (leaves key (decide (key ∈ cards.map (·.key))) command) = true := by
  cases command with
  | notify n => exact stands_show hs
  | close closed =>
    simp only [obey] at hs
    split at hs
    · exact stands_withdraw hs
    · next hout =>
      refine foldl_after_mono key _ ?_ hs
      intro hin
      have hne : closed ≠ key := fun he => hout (he ▸ of_decide_eq_true hin)
      simpa [leaves, hne] using hin
  | setAppearance _ => exact hs
  | shutdown => exact stands_kill (d := .running stdin cards stdout) hs

/-- What an act does to a daemon. -/
inductive Acts : Daemon → Daemon → Prop
  | obeys {renew command stdin cards stdout} : command.check = .ok () →
      Acts (.running (command :: stdin) cards stdout) (obey renew stdin cards stdout command)
  | rejects {command stdin cards stdout error} : command.check = .error error →
      Acts (.running (command :: stdin) cards stdout) (.running stdin cards stdout)
  | dismisses {stdin cards stdout key} : key ∈ cards.map Notification.key →
      Acts (.running stdin cards stdout) (withdraw stdin cards stdout (.closed key))
  | invokes {stdin cards stdout card action} : card ∈ cards → action ∈ card.actions →
      Acts (.running stdin cards stdout) (withdraw stdin cards stdout (.actionInvoked card.key action))
  | exits {stdin cards stdout} : Acts (.running stdin cards stdout) (.exited stdout)

theorem act_acts {a : Act} (h : d.act a = some d') : Acts d d' := by
  cases d with
  | exited stdout => cases h
  | running stdin cards stdout =>
    cases a with
    | read renew =>
      cases stdin with
      | nil => cases h
      | cons command stdin =>
        simp only [act] at h
        split at h
        · next hok =>
          cases h
          exact .obeys hok
        · next error herror =>
          cases h
          exact .rejects herror
    | dismiss closed =>
      simp only [act] at h
      split at h
      · next hin =>
        cases h
        exact .dismisses hin
      · cases h
    | invoke invoked action =>
      simp only [act] at h
      split at h
      · next hin =>
        cases h
        obtain ⟨card, hc, rfl, ha⟩ := hin
        exact .invokes hc ha
      · cases h
    | exit =>
      simp only [act, Option.some.injEq] at h
      subst h
      exact .exits

/-- Only a frame that was read or is to come makes a card stand. -/
theorem stands_act {a : Act} (h : d.act a = some d') (hs : d'.stands key coming = true) :
    d.stands key coming = true := by
  have hfewer : ∀ {stdin cards stdout} {event : NotifyEvent}, (withdraw stdin cards stdout event).stands key coming = true →
      (Daemon.running stdin cards stdout).stands key coming = true := by
    intro stdin cards stdout event hs
    exact foldl_after_mono key _ (fun hin => (Bool.and_eq_true_iff.1 hin).2) (stands_withdraw hs)
  cases act_acts h with
  | obeys hok =>
    rw [stands, List.cons_append, List.foldl_cons, after_accepted hok]
    exact stands_obey hs
  | rejects herror =>
    rw [stands, List.cons_append, List.foldl_cons, after_rejected herror]
    exact hs
  | dismisses _ => exact hfewer hs
  | invokes _ _ => exact hfewer hs
  | @exits stdin cards stdout => exact stands_kill (d := .running stdin cards stdout) hs

/-- A card that is there and that no frame closes stands. -/
theorem stands_of_shows {stdin : List NotifyCommand} {cards : List Notification} {stdout : List NotifyEvent}
    (h : key ∈ cards.map (·.key)) (hclose : .close key ∉ stdin ++ coming) :
    (Daemon.running stdin cards stdout).stands key coming = true := by
  rw [stands, decide_eq_true h]
  exact foldl_after_true hclose

/-! ## What becomes of a card -/

/-- An event about the card of a key is unread. -/
def Reports (key : CardKey) (d : Daemon) : Prop := ∃ event ∈ d.stdout, event.key = key

/-- The card of a key is there, is in an unread frame the daemon will accept, or is reported closed. -/
def Accounts (key : CardKey) : Daemon → Prop
  | .running stdin cards stdout =>
    key ∈ cards.map (·.key) ∨ (∃ n, .notify n ∈ stdin ∧ n.validate = .ok () ∧ n.key = key) ∨
      Reports key (.running stdin cards stdout)
  | .exited stdout => Reports key (.exited stdout)

instance (key : CardKey) (d : Daemon) : Decidable (d.Reports key) :=
  inferInstanceAs (Decidable (∃ event ∈ d.stdout, event.key = key))

/-- Cards and events that decoding accepted or will accept. -/
structure Valid (d : Daemon) : Prop where
  events : ∀ event ∈ d.stdout, event.check = .ok ()
  cards : ∀ stdin cards stdout, d = .running stdin cards stdout → ∀ card ∈ cards, card.validate = .ok ()

variable {stdin : List NotifyCommand} {cards : List Notification} {stdout : List NotifyEvent} {n : Notification}
  {command : NotifyCommand}

theorem accounts_withdraw (event : NotifyEvent) (hk : (Daemon.running stdin cards stdout).Accounts key) :
    (withdraw stdin cards stdout event).Accounts key := by
  by_cases he : event.key = key
  · exact .inr (.inr ⟨event, by simp [Daemon.stdout], he⟩)
  · obtain hin | hunread | ⟨other, ho, hkey⟩ := hk
    · exact .inl (mem_withdraw.2 ⟨fun h => he h.symm, hin⟩)
    · exact .inr (.inl hunread)
    · exact .inr (.inr ⟨other, List.mem_append_left _ ho, hkey⟩)

theorem accounts_show {renew : Bool} (hk : key = n.key ∨ (Daemon.running stdin cards stdout).Accounts key) :
    («show» renew stdin cards stdout n).Accounts key := by
  have hput : key ∈ (put renew cards n).map (·.key) ∨ (∃ m, .notify m ∈ stdin ∧ m.validate = .ok () ∧ m.key = key) ∨
      ∃ event ∈ stdout, event.key = key := by
    obtain hn | hin | hunread | hreport := hk
    · exact .inl (mem_put.2 (.inl hn))
    · exact .inl (mem_put.2 (.inr hin))
    · exact .inr (.inl hunread)
    · exact .inr (.inr hreport)
  unfold «show»
  split
  · next oldest rest heq =>
    rw [heq, List.map_cons, List.mem_cons] at hput
    split
    · obtain (hold | hin) | hunread | ⟨event, he, hkey⟩ := hput
      · exact .inr (.inr ⟨.closed oldest.key, by simp [Daemon.stdout], hold.symm⟩)
      · exact .inl hin
      · exact .inr (.inl hunread)
      · exact .inr (.inr ⟨event, List.mem_append_left _ he, hkey⟩)
    · obtain hin | hunread | hreport := hput
      · exact .inl (List.mem_cons.2 hin)
      · exact .inr (.inl hunread)
      · exact .inr (.inr hreport)
  · next heq =>
    rw [heq] at hput
    exact hput

theorem accounts_obey (renew : Bool) (hk : (Daemon.running (command :: stdin) cards stdout).Accounts key) :
    (obey renew stdin cards stdout command).Accounts key ∨ ∃ rest, obey renew stdin cards stdout command = .exited rest := by
  have hrest : (∃ n, command = .notify n ∧ n.key = key) ∨ (Daemon.running stdin cards stdout).Accounts key := by
    obtain hin | ⟨n, hn, hvalid, hkey⟩ | hreport := hk
    · exact .inr (.inl hin)
    · cases List.mem_cons.1 hn with
      | inl he => exact .inl ⟨n, he.symm, hkey⟩
      | inr ho => exact .inr (.inr (.inl ⟨n, ho, hvalid, hkey⟩))
    · exact .inr (.inr (.inr hreport))
  cases command with
  | notify n =>
    refine .inl (accounts_show (hrest.imp_left ?_))
    rintro ⟨m, hm, hkey⟩
    cases hm
    exact hkey.symm
  | close closed =>
    obtain ⟨n, hn, -⟩ | hrest := hrest
    · cases hn
    · simp only [obey]
      split
      · exact .inl (accounts_withdraw _ hrest)
      · exact .inl hrest
  | setAppearance _ =>
    obtain ⟨n, hn, -⟩ | hrest := hrest
    · cases hn
    · exact .inl hrest
  | shutdown => exact .inr ⟨stdout, rfl⟩

/-- No card is lost: it stays, it is reported, or the daemon is gone. -/
theorem accounts_act {a : Act} (h : d.act a = some d') (hk : d.Accounts key) :
    d'.Accounts key ∨ ∃ rest, d' = .exited rest := by
  cases act_acts h with
  | obeys _ => exact accounts_obey _ hk
  | rejects herror =>
    obtain hin | ⟨n, hn, hvalid, hkey⟩ | hreport := hk
    · exact .inl (.inl hin)
    · cases List.mem_cons.1 hn with
      | inl he =>
        rw [← he] at herror
        exact absurd (herror.symm.trans hvalid) nofun
      | inr ho => exact .inl (.inr (.inl ⟨n, ho, hvalid, hkey⟩))
    · exact .inl (.inr (.inr hreport))
  | dismisses _ => exact .inl (accounts_withdraw _ hk)
  | invokes _ _ => exact .inl (accounts_withdraw _ hk)
  | @exits stdin cards stdout => exact .inr ⟨stdout, rfl⟩

/-- An event about another card was read. -/
theorem accounts_heard {event : NotifyEvent} {rest : List NotifyEvent} (hout : d.stdout = event :: rest)
    (hne : event.key ≠ key) (hk : d.Accounts key) : (d.setStdout rest).Accounts key := by
  have hreport : d.Reports key → ∃ other ∈ rest, other.key = key := by
    rintro ⟨other, ho, hkey⟩
    rw [hout] at ho
    cases List.mem_cons.1 ho with
    | inl he => exact absurd (he ▸ hkey) hne
    | inr ho => exact ⟨other, ho, hkey⟩
  cases d with
  | running stdin cards stdout =>
    obtain hin | hunread | hk := hk
    · exact .inl hin
    · exact .inr (.inl hunread)
    · exact .inr (.inr (hreport hk))
  | exited stdout => exact hreport hk

/-! ## What it writes is valid -/

theorem valid_heard {event : NotifyEvent} {rest : List NotifyEvent} (hout : d.stdout = event :: rest) (h : d.Valid) :
    (d.setStdout rest).Valid := by
  have hevents : ∀ other ∈ rest, other.check = .ok () :=
    fun other ho => h.events other (by rw [hout]; exact List.mem_cons_of_mem _ ho)
  cases d with
  | running stdin cards stdout => exact ⟨hevents, by rintro _ _ _ ⟨⟩; exact h.cards _ _ _ rfl⟩
  | exited stdout => exact ⟨hevents, nofun⟩

theorem valid_spawned : Valid spawned := ⟨nofun, by rintro _ _ _ ⟨⟩ _ ⟨⟩⟩

theorem valid_kill (h : d.Valid) : d.kill.Valid := ⟨h.events, nofun⟩

theorem valid_running (hcards : ∀ card ∈ cards, card.validate = .ok ())
    (hevents : ∀ event ∈ stdout, event.check = .ok ()) :
    (Daemon.running stdin cards stdout).Valid :=
  ⟨hevents, by rintro _ _ _ ⟨⟩; exact hcards⟩

theorem valid_withdraw {event : NotifyEvent} (h : (Daemon.running stdin cards stdout).Valid)
    (hevent : event.check = .ok ()) :
    (withdraw stdin cards stdout event).Valid := by
  refine valid_running (fun card hc => h.cards _ _ _ rfl card (List.mem_filter.1 hc).1) fun other ho => ?_
  cases List.mem_append.1 ho with
  | inl hold => exact h.events other hold
  | inr hnew =>
    cases List.mem_singleton.1 hnew
    exact hevent

theorem valid_show {renew : Bool} (h : (Daemon.running stdin cards stdout).Valid) (hn : n.validate = .ok ()) :
    («show» renew stdin cards stdout n).Valid := by
  have hput : ∀ card ∈ put renew cards n, card.validate = .ok () := by
    have hcards := h.cards _ _ _ rfl
    intro card hc
    unfold put at hc
    split at hc
    · split at hc
      · cases List.mem_append.1 hc with
        | inl hold => exact hcards card (List.mem_filter.1 hold).1
        | inr hnew => rw [List.mem_singleton.1 hnew, hn]
      · obtain ⟨old, hold, rfl⟩ := List.mem_map.1 hc
        split
        · exact hn
        · exact hcards old hold
    · cases List.mem_append.1 hc with
      | inl hold => exact hcards card hold
      | inr hnew => rw [List.mem_singleton.1 hnew, hn]
  unfold «show»
  split
  · next oldest rest heq =>
    rw [heq] at hput
    split
    · refine valid_running (fun card hc => hput card (List.mem_cons_of_mem _ hc)) fun event he => ?_
      cases List.mem_append.1 he with
      | inl hold => exact h.events event hold
      | inr hnew =>
        cases List.mem_singleton.1 hnew
        exact (Notification.check_event (hput oldest (List.mem_cons_self ..))).1
    · exact valid_running hput h.events
  · exact valid_running (by nofun) h.events

theorem valid_act {a : Act} (h : d.act a = some d') (hd : d.Valid) : d'.Valid := by
  have hclosed : ∀ {stdin cards stdout} key, (Daemon.running stdin cards stdout).Valid →
      key ∈ cards.map Notification.key → (NotifyEvent.closed key).check = .ok () := by
    intro stdin cards stdout key hvalid hkey
    obtain ⟨card, hc, rfl⟩ := List.mem_map.1 hkey
    exact (Notification.check_event (hvalid.cards _ _ _ rfl card hc)).1
  cases act_acts h with
  | @obeys renew command stdin cards stdout hok =>
    have hread : (Daemon.running stdin cards stdout).Valid := valid_running (hd.cards _ _ _ rfl) hd.events
    cases command with
    | notify n => exact valid_show hread hok
    | close closed =>
      simp only [obey]
      split
      · next hin => exact valid_withdraw hread (hclosed closed hread hin)
      · exact hread
    | setAppearance _ => exact hread
    | shutdown => exact valid_kill hd
  | rejects _ => exact valid_running (hd.cards _ _ _ rfl) hd.events
  | dismisses hin => exact valid_withdraw hd (hclosed _ hd hin)
  | invokes hc ha => exact valid_withdraw hd ((Notification.check_event (hd.cards _ _ _ rfl _ hc)).2 _ ha)
  | exits => exact valid_kill hd

end Daemon

end AtriumPortal.Prompter
