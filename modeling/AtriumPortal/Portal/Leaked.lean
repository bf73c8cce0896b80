import AtriumPortal.Portal.Withdrawn
import Mathlib.Data.List.Perm.Subperm
import Mathlib.Data.List.ProdSigma
/-!
# Live ids are accounted for

While the daemon runs, a live id is shown, its frame is unread, its closing event is
unread, or its AddNotification is in progress, in every run in which no frame is sent
that the daemon rejects, no daemon with other ids is dropped without forgetting
them and none exits while the quota is used up. The ids are unique and within the caps
in every run.
-/
open AtriumPortal.Lib AtriumPortal.Lib.Checks AtriumPortal.Lib.Runs AtriumPortal.Prompter

namespace AtriumPortal.Portal.Notifications

namespace Manager

/-- The notification that the call in progress is to deliver. -/
def pending (s : Manager) : Option Notification :=
  match s.busy with
  | some (.checked n) => some n
  | some (.sending op _ _ _) => op.notification?
  | some (.forget _ next) => next
  | _ => none

/-- The id that an AddNotification in progress has tracked. -/
def adding (s : Manager) : Option CardKey :=
  match s.busy with
  | some (.sending op _ _ _) => op.notification?.map (·.key)
  | some (.forget _ (some n)) => some n.key
  | some (.forget key none) => some key
  | _ => none

def Dropping (s : Manager) : Prop :=
  match s.busy with
  | some (.sending _ _ _ (.dropping _)) => True
  | _ => False

/-- The daemon has exited and nobody has noticed. -/
def Unnoticed (s : Manager) : Prop := (∃ events, s.daemon = some (.exited events)) ∧ ¬ s.Dropping

/-- No live id depends on the daemon's process. -/
def Spare (s : Manager) : Prop := ∀ key ∈ s.live, s.adding = some key ∨ s.process.Reports key

/-- The daemon's act ends its process. -/
def Ends (s : Manager) (act : Daemon.Act) : Prop :=
  match s.process.act act with
  | some (.exited _) => True
  | _ => False

/-- The steps that leak an id are left out. -/
def Sparing (s : Manager) (label : Label) : Prop :=
  match label, s.busy with
  | .addNotification appId id map, _ => ∀ n ∈ (parseNotification appId id map).toOption, ∀ b ∈ n.buttons,
      b.label.utf8ByteSize ≤ maxLabelBytes
  | .ensure .failed, _ => s.Spare
  | .write false, some (.sending _ _ _ _) => s.Spare
  | .daemon act, _ => s.Ends act → s.live.total < maxTotalIds
  | _, _ => True

instance (s : Manager) (act : Daemon.Act) : Decidable (s.Ends act) := by
  unfold Ends
  split <;> infer_instance

instance (s : Manager) : Decidable s.Spare := inferInstanceAs (Decidable (∀ key ∈ s.live, _))

instance (s : Manager) (label : Label) : Decidable (s.Sparing label) := by
  unfold Sparing
  generalize s.busy = busy
  cases label with
  | ensure wait => cases wait <;> infer_instance
  | write ok => cases ok <;> rcases busy with _ | (_ | _) <;> infer_instance
  | _ => infer_instance

/-- Where a live id is. -/
def Accounted (s : Manager) (key : CardKey) : Prop := s.adding = some key ∨ s.process.Accounts key ∨ s.Unnoticed

end Manager

variable {s t : Manager} {label : Label} {key : CardKey}

/-- What holds in every sparing run. -/
structure Accountable (s : Manager) : Prop where
  live : ∀ key ∈ s.live, s.Accounted key
  valid : s.process.Valid
  pending : ∀ n ∈ s.pending, n.validate = .ok ()
  dropped : s.Dropping → ∃ events, s.daemon = some (.exited events)

theorem accountable_init : Accountable init := ⟨nofun, ⟨nofun, nofun⟩, nofun, nofun⟩

/-! ## Parts of a step -/

theorem accounts_of_none (h : s.daemon = none) : ¬ s.process.Accounts key := by
  rw [process_of_none h]
  rintro ⟨_, ⟨⟩, _⟩

/-- Without a daemon, the live ids are the one being added. -/
theorem Manager.Accounted.adding (h : s.Accounted key) (hnone : s.daemon = none) : s.adding = some key := by
  obtain hadding | haccounts | ⟨⟨events, hd⟩, -⟩ := h
  · exact hadding
  · exact absurd haccounts (accounts_of_none hnone)
  · rw [hnone] at hd
    cases hd

/-- A call that goes on while the daemon stays as it is. -/
theorem Accountable.moves (h : Accountable s) (hlive : t.live ⊆ s.live) (hdaemon : t.daemon = s.daemon)
    (hadding : ∀ key ∈ t.live, s.adding = some key → t.adding = some key)
    (hpending : ∀ n ∈ t.pending, n.validate = .ok ())
    (hdropping : ¬ t.Dropping) : Accountable t where
  live key hkey := by
    obtain hadd | haccounts | ⟨hexited, -⟩ := h.live key (hlive hkey)
    · exact .inl (hadding key hkey hadd)
    · refine .inr (.inl ?_)
      rwa [Manager.process, hdaemon]
    · refine .inr (.inr ⟨?_, hdropping⟩)
      rwa [hdaemon]
  valid := by
    rw [Manager.process, hdaemon]
    exact h.valid
  pending := hpending
  dropped hd := absurd hd hdropping

theorem adding_sending {op : Op} {send : Send} {outer : List Send} {point : Point}
    (hbusy : s.busy = some (.sending op send outer point)) : s.adding = op.notification?.map (·.key) := by
  rw [Manager.adding, hbusy]

theorem pending_sending {op : Op} {send : Send} {outer : List Send} {point : Point}
    (hbusy : s.busy = some (.sending op send outer point)) : s.pending = op.notification? := by
  rw [Manager.pending, hbusy]

theorem not_dropping_returns {op : Op} {delivered : Bool} {outer : List Send} :
    ¬ (s.returns op delivered outer).Dropping := by
  cases outer with
  | cons outer rest => nofun
  | nil =>
    cases op with
    | evict n evicted => nofun
    | deliver n => cases delivered <;> nofun
    | restyle appearance => nofun

theorem pending_returns {op : Op} {delivered : Bool} {outer : List Send} {n : Notification}
    (hn : n ∈ (s.returns op delivered outer).pending) : n ∈ op.notification? := by
  cases outer with
  | cons outer rest => exact hn
  | nil =>
    cases op with
    | evict n evicted => exact hn
    | deliver n => cases delivered <;> cases hn
    | restyle appearance => cases hn

theorem adding_failed {op : Op} {outer : List Send} :
    (s.returns op false outer).adding = op.notification?.map (·.key) := by
  cases outer with
  | cons outer rest => rfl
  | nil => cases op <;> rfl

/-- What is delivered need not be added any more: its frame is in the pipe. -/
theorem adding_delivered {op : Op} (s : Manager) (outer : List Send) (h : op.notification?.map (·.key) = some key) :
    (s.returns op true outer).adding = some key ∨ ∃ n, outer = [] ∧ op = .deliver n ∧ n.key = key := by
  cases outer with
  | cons outer rest => exact .inl h
  | nil =>
    cases op with
    | evict n evicted => exact .inl h
    | deliver n => exact .inr ⟨n, rfl, rfl, by simpa [Op.notification?] using h⟩
    | restyle appearance => cases h

/-- More in the pipe. -/
theorem accounts_append {stdin : List NotifyCommand} {cards : List Notification} {stdout : List NotifyEvent}
    {frame : NotifyCommand} (h : (Daemon.running stdin cards stdout).Accounts key) :
    (Daemon.running (stdin ++ [frame]) cards stdout).Accounts key := by
  obtain hin | ⟨n, hn, hrest⟩ | hreport := h
  · exact .inl hin
  · exact .inr (.inl ⟨n, List.mem_append_left _ hn, hrest⟩)
  · exact .inr (.inr hreport)

/-! ## The steps -/

theorem accountable_idle (h : Accountable s) (hlive : t.live ⊆ s.live) (hdaemon : t.daemon = s.daemon)
    (hidle : s.adding = none) (hpending : ∀ n ∈ t.pending, n.validate = .ok ()) (hdropping : ¬ t.Dropping) :
    Accountable t := by
  refine h.moves hlive hdaemon (fun key _ hadd => ?_) hpending hdropping
  rw [hidle] at hadd
  cases hadd

theorem accountable_checked {appId id : String} {map : Vardict} {n : Notification} (h : Accountable s)
    (hidle : s.busy = none) (hsparing : s.Sparing (.addNotification appId id map))
    (hn : parseNotification appId id map = .ok n) : Accountable { s with busy := some (.checked n) } := by
  have hadding : s.adding = none := by rw [Manager.adding, hidle]
  refine accountable_idle h (List.Subset.refl _) rfl hadding ?_ nofun
  rintro _ ⟨⟩
  refine (parseNotification_parsed hn).validate_iff.2 (hsparing n ?_)
  rw [hn]
  rfl

theorem accountable_remembered {appearance : PromptAppearance} (h : Accountable s) (hidle : s.busy = none) :
    Accountable { s with appearance := some appearance } := by
  have hadding : s.adding = none := by rw [Manager.adding, hidle]
  have hdropping : ¬ s.Dropping := by
    rw [Manager.Dropping, hidle]
    exact id
  exact accountable_idle h (List.Subset.refl _) rfl hadding h.pending hdropping

/-- A tracked id is the one that is being added. -/
theorem accountable_tracked {n : Notification} {op : Op} (h : Accountable s) (hbusy : s.busy = some (.checked n))
    (hop : op.notification? = some n) : Accountable ({ s with live := (s.live.track n.key).1 }.begin op) := by
  have hadding : s.adding = none := by rw [Manager.adding, hbusy]
  have hvalid : n.validate = .ok () := h.pending n (by rw [Manager.pending, hbusy]; rfl)
  have hadd : (Manager.begin { s with live := (s.live.track n.key).1 } op).adding = some n.key := by
    show op.notification?.map (·.key) = some n.key
    rw [hop]
    rfl
  refine { live := ?_, valid := h.valid, pending := ?_, dropped := nofun }
  · intro key hkey
    obtain rfl | hold := Quota.mem_of_mem_track hkey
    · exact .inl hadd
    · obtain hother | haccounts | ⟨hexited, -⟩ := h.live key hold
      · rw [hadding] at hother
        cases hother
      · exact .inr (.inl haccounts)
      · exact .inr (.inr ⟨hexited, nofun⟩)
  · intro m hm
    have : op.notification? = some m := hm
    cases hop.symm.trans this
    exact hvalid

/-- A send that goes on while the daemon stays as it is. -/
theorem accountable_goto {op : Op} {send send' : Send} {outer outer' : List Send} {point point' : Point}
    (h : Accountable s) (hbusy : s.busy = some (.sending op send outer point))
    (hdropping : ¬ (s.goto op send' outer' point').Dropping) : Accountable (s.goto op send' outer' point') := by
  refine h.moves (List.Subset.refl _) rfl (fun key _ hadd => ?_) ?_ hdropping
  · rwa [adding_sending hbusy] at hadd
  · have := h.pending
    rwa [pending_sending hbusy] at this

/-- A daemon is dropped with nothing lost. -/
theorem accountable_dropped {op : Op} {send : Send} {outer : List Send} {point : Point} {next : After} {d : Daemon}
    (h : Accountable s) (hbusy : s.busy = some (.sending op send outer point)) (hd : s.daemon = some d)
    (hspare : s.Spare) :
    Accountable ({ s with daemon := some d.kill }.goto op send outer (.dropping next)) := by
  have hprocess : s.process = d := process_of_daemon hd
  refine { live := ?_, valid := ?_, pending := ?_, dropped := fun _ => ⟨d.stdout, rfl⟩ }
  · intro key hkey
    obtain hadd | hreport := hspare key hkey
    · rw [adding_sending hbusy] at hadd
      exact .inl hadd
    · rw [hprocess] at hreport
      exact .inr (.inl hreport)
  · have := h.valid
    rw [hprocess] at this
    exact Daemon.valid_kill this
  · have := h.pending
    rwa [pending_sending hbusy] at this

theorem accountable_exited {op : Op} {send : Send} {outer : List Send} {point : Point} {events : List NotifyEvent}
    (h : Accountable s) (hbusy : s.busy = some (.sending op send outer point))
    (hd : s.daemon = some (.exited events)) :
    Accountable ({ s with live := s.live.clear }.goto op send outer (.dropping .spawn)) := by
  have hpending := h.pending
  rw [pending_sending hbusy] at hpending
  exact { live := nofun, valid := h.valid, pending := hpending, dropped := fun _ => ⟨events, hd⟩ }

/-- Without a daemon, a send that fails leaves its own id only. -/
theorem accountable_failed {op : Op} {send : Send} {outer : List Send} {point : Point} (h : Accountable s)
    (hbusy : s.busy = some (.sending op send outer point)) (hlive : ∀ key ∈ s.live, s.adding = some key)
    (hnone : t.daemon = none) (hsame : t.live = s.live) : Accountable (t.returns op false outer) := by
  have hprocess : (t.returns op false outer).process = .exited [] := by rw [returns_process, process_of_none hnone]
  refine { live := ?_, valid := ?_, pending := ?_, dropped := fun hd => absurd hd not_dropping_returns }
  · intro key hkey
    rw [returns_live, hsame] at hkey
    refine .inl ?_
    rw [adding_failed, ← adding_sending hbusy]
    exact hlive key hkey
  · rw [hprocess]
    exact ⟨nofun, nofun⟩
  · intro n hn
    refine h.pending n ?_
    rw [pending_sending hbusy]
    exact pending_returns hn

/-- With the call's own id live at most, the daemon does not matter. -/
theorem accountable_goes {op : Op} {send send' : Send} {outer outer' : List Send} {point point' : Point}
    (h : Accountable s) (hbusy : s.busy = some (.sending op send outer point)) (hlive : ∀ key ∈ s.live, s.adding = some key)
    (hsame : t.live = s.live) (hvalid : t.process.Valid) (hpoint : ∀ next, point' ≠ .dropping next) :
    Accountable (t.goto op send' outer' point') := by
  refine { live := ?_, valid := hvalid, pending := ?_, dropped := ?_ }
  · intro key hkey
    rw [goto_live, hsame] at hkey
    have hadd := hlive key hkey
    rw [adding_sending hbusy] at hadd
    exact .inl hadd
  · have := h.pending
    rwa [pending_sending hbusy] at this
  · intro hdrop
    cases point' with
    | dropping next => exact absurd rfl (hpoint next)
    | ensure => cases hdrop
    | spawn => cases hdrop
    | write => cases hdrop

theorem accountable_joined {op : Op} {send : Send} {outer : List Send} {next : After} (h : Accountable s)
    (hbusy : s.busy = some (.sending op send outer (.dropping next))) (hd : s.daemon = some (.exited [])) :
    Accountable ({ s with daemon := none }.afterDrop op send outer next) := by
  have hdropping : s.Dropping := by rw [Manager.Dropping, hbusy]; trivial
  have hlive : ∀ key ∈ s.live, s.adding = some key := by
    intro key hkey
    obtain hadd | haccounts | ⟨-, hno⟩ := h.live key hkey
    · exact hadd
    · rw [process_of_daemon hd] at haccounts
      obtain ⟨_, ⟨⟩, _⟩ := haccounts
    · exact absurd hdropping hno
  cases next with
  | spawn => exact accountable_goes h hbusy hlive rfl ⟨nofun, nofun⟩ nofun
  | retry => exact accountable_goes h hbusy hlive rfl ⟨nofun, nofun⟩ nofun
  | fail => exact accountable_failed h hbusy hlive rfl rfl

theorem accountable_delivered {op : Op} {send : Send} {outer : List Send} {stdin : List NotifyCommand}
    {cards : List Notification} {stdout : List NotifyEvent} (h : Accountable s) (hs : Sound s)
    (hbusy : s.busy = some (.sending op send outer .write)) (hd : s.daemon = some (.running stdin cards stdout)) :
    Accountable ({ s with daemon := some (.running (stdin ++ [send.frame]) cards stdout) }.returns op true outer) := by
  have hprocess : s.process = .running stdin cards stdout := process_of_daemon hd
  have hafter : (Manager.returns { s with daemon := some (.running (stdin ++ [send.frame]) cards stdout) }
      op true outer).process = .running (stdin ++ [send.frame]) cards stdout := returns_process
  refine { live := ?_, valid := ?_, pending := ?_, dropped := fun hdrop => absurd hdrop not_dropping_returns }
  · intro key hkey
    rw [returns_live] at hkey
    obtain hadd | haccounts | ⟨⟨events, hexited⟩, -⟩ := h.live key hkey
    · rw [adding_sending hbusy] at hadd
      obtain hstill | ⟨n, rfl, rfl, hn⟩ := adding_delivered _ outer hadd
      · exact .inl hstill
      · refine .inr (.inl ?_)
        have hframe : send.frame = .notify n := (hs.sending hbusy).2.1
        have hvalid : n.validate = .ok () := h.pending n (by rw [pending_sending hbusy]; rfl)
        rw [hafter]
        exact .inr (.inl ⟨n, by simp [hframe], hvalid, hn⟩)
    · rw [hprocess] at haccounts
      refine .inr (.inl ?_)
      rw [hafter]
      exact accounts_append haccounts
    · rw [hd] at hexited
      cases hexited
  · rw [hafter]
    have := h.valid
    rw [hprocess] at this
    exact Daemon.valid_running (this.cards _ _ _ rfl) this.events
  · intro n hn
    refine h.pending n ?_
    rw [pending_sending hbusy]
    exact pending_returns hn

theorem accountable_closed {stdin : List NotifyCommand} {cards : List Notification} {stdout : List NotifyEvent}
    (h : Accountable s) (hbusy : s.busy = some (.closing key)) (hd : s.daemon = some (.running stdin cards stdout)) :
    Accountable { s with daemon := some (.running (stdin ++ [.close key]) cards stdout), busy := none } := by
  have hadding : s.adding = none := by rw [Manager.adding, hbusy]
  have hprocess : s.process = .running stdin cards stdout := process_of_daemon hd
  refine { live := ?_, valid := ?_, pending := nofun, dropped := nofun }
  · intro other ho
    obtain hadd | haccounts | ⟨⟨events, hexited⟩, -⟩ := h.live other ho
    · rw [hadding] at hadd
      cases hadd
    · rw [hprocess] at haccounts
      exact .inr (.inl (accounts_append haccounts))
    · rw [hd] at hexited
      cases hexited
  · have := h.valid
    rw [hprocess] at this
    exact Daemon.valid_running (this.cards _ _ _ rfl) this.events

theorem accountable_unsent (h : Accountable s) (hbusy : s.busy = some (.closing key)) :
    Accountable { s with busy := none } := by
  have hadding : s.adding = none := by rw [Manager.adding, hbusy]
  exact accountable_idle h (List.Subset.refl _) rfl hadding nofun nofun

theorem accountable_forgotten {n : Notification} (h : Accountable s) (hbusy : s.busy = some (.forget key (some n))) :
    Accountable ({ s with live := s.live.remove key }.begin (.deliver n)) := by
  have hadding : s.adding = some n.key := by rw [Manager.adding, hbusy]
  refine h.moves remove_sublist.subset rfl (fun other _ hadd => ?_) ?_ nofun
  · rw [hadding] at hadd
    exact hadd
  · have := h.pending
    rwa [Manager.pending, hbusy] at this

theorem accountable_undelivered (h : Accountable s) (hs : Sound s) (hbusy : s.busy = some (.forget key none)) :
    Accountable { s with live := s.live.remove key, busy := none } := by
  have hadding : s.adding = some key := by rw [Manager.adding, hbusy]
  refine h.moves remove_sublist.subset rfl (fun other ho hadd => ?_) nofun nofun
  rw [hadding] at hadd
  cases hadd
  exact absurd rfl (hs.capped.mem_remove.1 ho).1

theorem accountable_heard {d : Daemon} {event : NotifyEvent} {rest : List NotifyEvent} (h : Accountable s) (hs : Sound s)
    (hd : s.daemon = some d) (hout : d.stdout = event :: rest) :
    Accountable { s with live := s.live.hear event, daemon := some (d.setStdout rest) } := by
  have hprocess : s.process = d := process_of_daemon hd
  have hvalid : d.Valid := hprocess ▸ h.valid
  have hcheck : event.check = .ok () := hvalid.events event (by rw [hout]; exact List.mem_cons_self ..)
  have hhear : s.live.hear event = s.live.remove event.key := by rw [LiveNotifications.hear, if_pos hcheck]
  refine { live := ?_, valid := ?_, pending := h.pending, dropped := ?_ }
  · intro key hkey
    have hkey' : key ∈ s.live.remove event.key := hhear ▸ hkey
    obtain ⟨hne, hold⟩ := hs.capped.mem_remove.1 hkey'
    obtain hadd | haccounts | ⟨⟨events, hexited⟩, hno⟩ := h.live key hold
    · exact .inl hadd
    · refine .inr (.inl ?_)
      rw [hprocess] at haccounts
      exact Daemon.accounts_heard hout (fun he => hne he.symm) haccounts
    · rw [hd] at hexited
      cases hexited
      exact .inr (.inr ⟨⟨rest, rfl⟩, hno⟩)
  · exact Daemon.valid_heard hout hvalid
  · intro hdrop
    obtain ⟨events, hexited⟩ := h.dropped hdrop
    rw [hd] at hexited
    cases hexited
    exact ⟨rest, rfl⟩

theorem accountable_acted {d d' : Daemon} {act : Daemon.Act} (h : Accountable s) (hd : s.daemon = some d)
    (hact : d.act act = some d') : Accountable { s with daemon := some d' } := by
  have hprocess : s.process = d := process_of_daemon hd
  have hrunning : ∀ events, s.daemon ≠ some (.exited events) := by
    intro events he
    rw [hd] at he
    cases he
    cases hact
  have hno : ¬ s.Dropping := by
    intro hdrop
    obtain ⟨events, he⟩ := h.dropped hdrop
    exact hrunning events he
  refine { live := ?_, valid := Daemon.valid_act hact (hprocess ▸ h.valid), pending := h.pending, dropped := ?_ }
  · intro key hkey
    obtain hadd | haccounts | ⟨⟨events, he⟩, -⟩ := h.live key hkey
    · exact .inl hadd
    · obtain haccounts | ⟨rest, rfl⟩ := Daemon.accounts_act hact (hprocess ▸ haccounts)
      · exact .inr (.inl haccounts)
      · exact .inr (.inr ⟨⟨rest, rfl⟩, hno⟩)
    · exact absurd he (hrunning events)
  · exact fun hdrop => absurd hdrop hno

/-- Only a daemon with nothing to lose is dropped. -/
theorem spare_failed {op : Op} {send : Send} {outer : List Send} {point : Point}
    (hbusy : s.busy = some (.sending op send outer point)) (hsparing : s.Sparing (.write false)) : s.Spare := by
  unfold Manager.Sparing at hsparing
  simpa only [hbusy] using hsparing

theorem accountable_step (h : Accountable s) (hs : Sound s) (hsparing : s.Sparing label)
    (hstep : s.step label = some t) : Accountable t := by
  cases step_takes hstep with
  | refused _ | unknown _ | unchanged _ => exact h
  | checked hidle hn _ => exact accountable_checked h hidle hsparing hn
  | removed hidle _ _ =>
    exact accountable_idle h remove_sublist.subset rfl (by rw [Manager.adding, hidle]) nofun nofun
  | remembered hidle => exact accountable_remembered h hidle
  | restyles hidle =>
    exact accountable_idle h (List.Subset.refl _) rfl (by rw [Manager.adding, hidle]) nofun nofun
  | evicts hbusy _ => exact accountable_tracked h hbusy rfl
  | tracked hbusy _ => exact accountable_tracked h hbusy rfl
  | missing hbusy _ => exact accountable_goto h hbusy nofun
  | running hbusy _ => exact accountable_goto h hbusy nofun
  | exited hbusy hd => exact accountable_exited h hbusy hd
  | unqueried hbusy hd => exact accountable_dropped h hbusy hd hsparing
  | joined hbusy hd => exact accountable_joined h hbusy hd
  | unspawned hbusy =>
    have hnone : s.daemon = none := (hs.sending hbusy).2.2 rfl
    exact accountable_failed h hbusy (fun key hkey => (h.live key hkey).adding hnone) hnone rfl
  | primes hbusy =>
    have hnone : s.daemon = none := (hs.sending hbusy).2.2 rfl
    exact accountable_goes h hbusy (fun key hkey => (h.live key hkey).adding hnone) rfl Daemon.valid_spawned nofun
  | spawned hbusy =>
    have hnone : s.daemon = none := (hs.sending hbusy).2.2 rfl
    exact accountable_goes h hbusy (fun key hkey => (h.live key hkey).adding hnone) rfl Daemon.valid_spawned nofun
  | absent hbusy hnone =>
    exact accountable_failed h hbusy (fun key hkey => (h.live key hkey).adding hnone) hnone rfl
  | delivered hbusy hd => exact accountable_delivered h hs hbusy hd
  | broken hbusy hd => exact accountable_dropped h hbusy hd (spare_failed hbusy hsparing)
  | unshown hbusy _ => exact accountable_unsent h hbusy
  | closed hbusy hd => exact accountable_closed h hbusy hd
  | lost hbusy _ => exact accountable_unsent h hbusy
  | forgotten hbusy => exact accountable_forgotten h hbusy
  | undelivered hbusy => exact accountable_undelivered h hs hbusy
  | heard hd hout => exact accountable_heard h hs hd hout
  | acted hd hact => exact accountable_acted h hd hact

/-! ## Room for the next call -/

def Manager.Sending (s : Manager) : Prop :=
  match s.busy with
  | some (.sending _ _ _ _) => True
  | _ => False

/-- A daemon that has exited is found to: a send is in progress, or the quota has room
for the AddNotification that begins one. -/
def Roomy (s : Manager) : Prop := ∀ events, s.daemon = some (.exited events) → s.Sending ∨ s.live.total < maxTotalIds

theorem roomy_none (hnone : s.daemon = none) : Roomy s := by
  intro events he
  rw [hnone] at he
  cases he

theorem roomy_running {stdin : List NotifyCommand} {cards : List Notification} {stdout : List NotifyEvent}
    (hd : s.daemon = some (.running stdin cards stdout)) : Roomy s := by
  intro events he
  rw [hd] at he
  cases he

theorem roomy_goto {op : Op} {send : Send} {outer : List Send} {point : Point} : Roomy (s.goto op send outer point) :=
  fun _ _ => .inl trivial

/-- A step outside a send that adds no id. -/
theorem Roomy.stays (h : Roomy s) (hsending : ¬ s.Sending) (hdaemon : t.daemon = s.daemon)
    (hlive : t.live.Sublist s.live) :
    Roomy t := by
  intro events he
  rw [hdaemon] at he
  exact .inr (hlive.length_le.trans_lt ((h events he).resolve_left hsending))

theorem not_sending_idle (hidle : s.busy = none) : ¬ s.Sending := by
  rw [Manager.Sending, hidle]
  exact id

theorem roomy_joined {op : Op} {send : Send} {outer : List Send} {next : After} :
    Roomy ({ s with daemon := none }.afterDrop op send outer next) := by
  cases next with
  | spawn => exact roomy_goto
  | retry => exact roomy_goto
  | fail => exact roomy_none returns_daemon

theorem roomy_heard {d : Daemon} {event : NotifyEvent} {rest : List NotifyEvent} (h : Roomy s) (hd : s.daemon = some d) :
    Roomy { s with live := s.live.hear event, daemon := some (d.setStdout rest) } := by
  intro events he
  cases d with
  | running stdin cards stdout => cases he
  | exited stdout => exact (h stdout hd).imp id hear_sublist.length_le.trans_lt

theorem roomy_acted {d d' : Daemon} {act : Daemon.Act} (hsparing : s.Sparing (.daemon act)) (hd : s.daemon = some d)
    (hact : d.act act = some d') : Roomy { s with daemon := some d' } := by
  intro events he
  cases he
  have hends : s.Ends act := by
    rw [Manager.Ends, process_of_daemon hd, hact]
    trivial
  exact .inr (hsparing hends)

theorem roomy_step (h : Roomy s) (hs : Sound s) (hsparing : s.Sparing label) (hstep : s.step label = some t) :
    Roomy t := by
  cases step_takes hstep with
  | refused _ | unknown _ | unchanged _ => exact h
  | checked hidle _ _ => exact h.stays (not_sending_idle hidle) rfl (List.Sublist.refl _)
  | removed hidle _ _ => exact h.stays (not_sending_idle hidle) rfl remove_sublist
  | remembered hidle => exact h.stays (not_sending_idle hidle) rfl (List.Sublist.refl _)
  | restyles _ | evicts _ _ | tracked _ _ => exact roomy_goto
  | missing _ _ | running _ _ | exited _ _ | unqueried _ _ => exact roomy_goto
  | joined _ _ => exact roomy_joined
  | unspawned hbusy => exact roomy_none (returns_daemon.trans ((hs.sending hbusy).2.2 rfl))
  | primes _ | spawned _ => exact roomy_goto
  | absent _ hnone => exact roomy_none (returns_daemon.trans hnone)
  | delivered _ _ => exact roomy_running returns_daemon
  | broken _ _ => exact roomy_goto
  | unshown _ hnone => exact roomy_none hnone
  | closed _ _ => exact roomy_running rfl
  | lost hbusy _ =>
    refine h.stays ?_ rfl (List.Sublist.refl _)
    rw [Manager.Sending, hbusy]
    exact id
  | forgotten _ => exact roomy_goto
  | undelivered hbusy => exact roomy_none (hs.undelivered hbusy)
  | heard hd _ => exact roomy_heard h hd
  | acted hd hact => exact roomy_acted hsparing hd hact

/-! ## Every sparing run -/

/-- The invariant of sparing runs. -/
structure Spared (s : Manager) : Prop where
  sound : Sound s
  accountable : Accountable s
  roomy : Roomy s

theorem spared_reach (h : Reach (· = init) (Guarded Manager.Sparing Manager.step) s) : Spared s := by
  refine h.inv_guarded (I := Spared) ?_ ?_
  · rintro _ rfl
    exact ⟨sound_init, accountable_init, roomy_none rfl⟩
  · rintro s label t hs hsparing hstep
    exact ⟨sound_step hs.sound hstep, accountable_step hs.accountable hs.sound hsparing hstep,
      roomy_step hs.roomy hs.sound hsparing hstep⟩

/-- **No live id leaks.** In every run of sparing steps, as long as the daemon runs or
none is there, each live id is being added, shown, in an unread frame or reported; when
it has exited, the next AddNotification finds room; the ids are unique and within the caps. -/
theorem live_accounted (h : Reach (· = init) (Guarded Manager.Sparing Manager.step) s) :
    ((∀ events, s.daemon ≠ some (.exited events)) → ∀ key ∈ s.live, s.adding = some key ∨ s.process.Accounts key) ∧
      (∀ events, s.busy = none → s.daemon = some (.exited events) → s.live.total < maxTotalIds) ∧ s.live.Nodup ∧
      (∀ app, (Quota.itemsOf s.live app).length ≤ maxIdsPerApp) ∧ s.live.total ≤ maxTotalIds := by
  obtain ⟨hs, ha, hr⟩ := spared_reach h
  refine ⟨fun hrunning key hkey => ?_, fun events hidle he => ?_, hs.capped.unique, hs.capped.perApp, hs.capped.total⟩
  · obtain hadd | haccounts | ⟨⟨events, he⟩, -⟩ := ha.live key hkey
    · exact .inl hadd
    · exact .inr haccounts
    · exact absurd he (hrunning events)
  · exact (hr events he).resolve_left (not_sending_idle hidle)

/-! ## Runs -/

/-- The card of `titled`. -/
def titledCard (key : CardKey) : Notification := ⟨key.1, key.2, "Hello", "", .normal, none, [], some 10⟩

theorem live_accounted_firstCard : ∃ s, exec (Guarded Manager.Sparing Manager.step) init (firstCard "1") = some s ∧
    ("org.example.Mail", "1") ∈ s.live ∧ s.process.Accounts ("org.example.Mail", "1") := by
  have hrun : (exec (Guarded Manager.Sparing Manager.step) init (firstCard "1")).map (fun s =>
      (s.live, s.adding, s.daemon)) =
      some ([("org.example.Mail", "1")], none, some (.running [] [titledCard ("org.example.Mail", "1")] [])) := by
    decide +kernel
  obtain ⟨s, hs, hview⟩ := Option.map_eq_some_iff.1 hrun
  simp only [Prod.mk.injEq] at hview
  obtain ⟨hlive, hadding, hdaemon⟩ := hview
  have hstart : Reach (· = init) (Guarded Manager.Sparing Manager.step) init := .init rfl
  have hin : ("org.example.Mail", "1") ∈ s.live := by rw [hlive]; exact List.mem_cons_self ..
  refine ⟨s, hs, hin, ?_⟩
  have hrunning : ∀ events, s.daemon ≠ some (.exited events) := by
    rw [hdaemon]
    rintro events ⟨⟩
  obtain hadd | haccounts := (live_accounted (hstart.exec hs)).1 hrunning _ hin
  · rw [hadding] at hadd
    cases hadd
  · exact haccounts

/-- The daemon exits between `try_wait` and the write of the second frame. -/
def failedWrite : List Label :=
  firstCard "1" ++ [.addNotification "org.example.Mail" "2" titled, .track, .ensure .running, .daemon .exit, .write false,
    .joined, .ensure .running, .spawn true, .write true, .daemon (.read false)]

/-- 129 characters, but 258 bytes. -/
def longLabel : String := String.ofList (List.replicate 129 'é')

def buttoned : Vardict := fun key =>
  if key = "title" then some (.str "Hello")
  else if key = "buttons" then
    some (.dicts [fun key => if key = "action" then some "open" else if key = "label" then some longLabel else none])
  else none

/-- The daemon rejects a frame. -/
def rejectedFrame : List Label :=
  [.addNotification "org.example.Mail" "1" buttoned, .track, .ensure .running, .spawn true, .write true,
    .daemon (.read false)]

/-- The notification of `buttoned`. -/
def buttonedCard : Notification :=
  ⟨"org.example.Mail", "1", "Hello", "", .normal, none, [⟨"open", longLabel⟩], some 10⟩

theorem longLabel_size : longLabel.utf8ByteSize = 258 := utf8ByteSize_replicate 129 'é'

theorem parse_buttoned : parseNotification "org.example.Mail" "1" buttoned = .ok buttonedCard := by
  have hne : longLabel ≠ "" := by
    intro hempty
    have hsize := longLabel_size
    rw [hempty] at hsize
    cases hsize
  have hlabel : checkLabel longLabel = .ok () :=
    checkLabel_replicate (show 129 ≤ maxLabelChars by decide) (show 'é'.toNat ≠ 0 by decide)
  have hbuttons : parseButtons buttoned = .ok [⟨"open", longLabel⟩] := by
    have haction : validId "open" = .ok () := by decide +kernel
    simp [parseButtons, buttoned, buttonsOf, buttonOf, maxButtons, haction, hlabel, hne, Option.filter]
    rfl
  have happ : validId "org.example.Mail" = .ok () := by decide +kernel
  have hid : validId "1" = .ok () := by decide +kernel
  have htitle : checkTitle "Hello" = .ok () := by decide +kernel
  have hbody : checkBody "" = .ok () := by decide +kernel
  have hsome : checkSomeText "Hello" "" = .ok () := by decide +kernel
  have hhello : buttoned.string "title" = some "Hello" := rfl
  have hempty : bodyOf buttoned = "" := rfl
  have hdefault : buttoned.string "default-action" = none := rfl
  rw [parseNotification, happ, hid, hhello, hempty, hdefault, hbuttons, Option.getD_some, htitle, hbody, hsome]
  rfl

/-- The portal bounds a label's characters, the daemon its bytes. -/
theorem buttonedCard_rejected : buttonedCard.validate ≠ .ok () := by
  intro hvalid
  have hle : longLabel.utf8ByteSize ≤ maxLabelBytes :=
    (parseNotification_parsed parse_buttoned).validate_iff.1 hvalid ⟨"open", longLabel⟩ (List.mem_cons_self ..)
  rw [longLabel_size] at hle
  exact absurd hle (by decide)

/-- A frame that the daemon rejects is written, and read, all the same. -/
theorem exec_rejected {appId id : String} {map : Vardict} {n : Notification}
    (hparse : parseNotification appId id map = .ok n) (hrejected : n.validate ≠ .ok ()) :
    exec Manager.step init [.addNotification appId id map, .track, .ensure .running, .spawn true, .write true,
      .daemon (.read false)] = some ⟨[n.key], none, some (.running [] [] []), none⟩ := by
  have hadd : init.addNotification appId id map = ⟨[], none, none, some (.checked n)⟩ := by
    rw [Manager.addNotification, hparse]
    rfl
  have htrack : LiveNotifications.track [] n.key = ([n.key], none) :=
    Quota.track_of_room List.not_mem_nil (Nat.succ_pos _)
  have htracked : (Manager.mk [] none none (some (.checked n))).track n = .begin ⟨[n.key], none, none, none⟩ (.deliver n) := by
    simp only [Manager.track, htrack]
    rfl
  have htaken : exec Manager.step init [.addNotification appId id map, .track] =
      some (.begin ⟨[n.key], none, none, none⟩ (.deliver n)) := by
    simp only [exec, Manager.step, show init.busy = none from rfl, hadd, Option.bind_some, htracked]
  have hwritten : exec Manager.step (.begin ⟨[n.key], none, none, none⟩ (.deliver n))
      [.ensure .running, .spawn true, .write true] = some ⟨[n.key], none, some (.running [.notify n] [] []), none⟩ := rfl
  have hread : Daemon.act (.running [.notify n] [] []) (.read false) = some (.running [] [] []) := by
    cases hvalidate : n.validate with
    | ok => exact absurd hvalidate hrejected
    | error _ => simp only [Daemon.act, NotifyCommand.check, hvalidate]
  have hskipped : exec Manager.step ⟨[n.key], none, some (.running [.notify n] [] []), none⟩ [.daemon (.read false)] =
      some ⟨[n.key], none, some (.running [] [] []), none⟩ := by
    simp only [exec, Manager.step, Manager.daemonActs, hread, Option.map_some, Option.bind_some]
  refine (exec_append Manager.step init [.addNotification appId id map, .track]
    ([.ensure .running, .spawn true, .write true] ++ [.daemon (.read false)])).trans ?_
  rw [htaken, Option.bind_some, exec_append, hwritten, Option.bind_some, hskipped]

/-- A run leaves the daemon running and an id live that nothing accounts for. -/
def Leaks (ls : List Label) (key : CardKey) : Prop :=
  ∃ s, Reach (· = init) Manager.step s ∧ exec Manager.step init ls = some s ∧ (∀ events, s.daemon ≠ some (.exited events)) ∧
    key ∈ s.live ∧ s.adding = none ∧ ¬ s.process.Accounts key

theorem leaks_of_run {ls : List Label} (cards : List Notification) (hrun : (exec Manager.step init ls).map (fun s =>
    (s.daemon, s.adding, decide (key ∈ s.live))) = some (some (.running [] cards []), none, true))
    (hcards : key ∉ cards.map (·.key)) : Leaks ls key := by
  obtain ⟨s, hs, hview⟩ := Option.map_eq_some_iff.1 hrun
  simp only [Prod.mk.injEq] at hview
  obtain ⟨hdaemon, hadding, hlive⟩ := hview
  have hstart : Reach (· = init) Manager.step init := .init rfl
  refine ⟨s, hstart.exec hs, hs, ?_, of_decide_eq_true hlive, hadding, ?_⟩
  · rw [hdaemon]
    rintro events ⟨⟩
  · rw [process_of_daemon hdaemon]
    rintro (hin | ⟨_, ⟨⟩, _⟩ | ⟨_, ⟨⟩, _⟩)
    exact hcards hin

/-! ## Using the quota up -/

theorem titledCard_key : (titledCard key).key = key := rfl

theorem parse_titled (hkey : ValidKey key) : parseNotification key.1 key.2 titled = .ok (titledCard key) := by
  rw [parseNotification, hkey.1, hkey.2]
  rfl

/-- A notification that the daemon does not come to read. -/
def addUnread (key : CardKey) : List Label :=
  [.addNotification key.1 key.2 titled, .track, .ensure .running, .write true]

/-- Between calls, with a daemon that runs. -/
def Idle (s : Manager) : Prop := s.busy = none ∧ ∃ stdin cards stdout, s.daemon = some (.running stdin cards stdout)

theorem exec_addUnread (hidle : Idle s) (hkey : ValidKey key) (hnew : key ∉ s.live)
    (htotal : s.live.total < maxTotalIds)
    (hroom : (Quota.itemsOf s.live key.1).length < maxIdsPerApp) :
    ∃ t, exec Manager.step s (addUnread key) = some t ∧ Idle t ∧ t.live = s.live ++ [key] := by
  obtain ⟨live, appearance, daemon, busy⟩ := s
  obtain ⟨rfl, stdin, cards, stdout, rfl⟩ := hidle
  have htrack : live.track key = (live ++ [key], none) := Quota.track_of_room hnew hroom
  refine ⟨⟨live ++ [key], appearance, some (.running (stdin ++ [.notify (titledCard key)]) cards stdout), none⟩, ?_,
    ⟨rfl, _, _, _, rfl⟩, rfl⟩
  have hadd : (Manager.mk live appearance (some (.running stdin cards stdout)) none).addNotification key.1 key.2 titled =
      ⟨live, appearance, some (.running stdin cards stdout), some (.checked (titledCard key))⟩ := by
    simp only [Manager.addNotification, parse_titled hkey, if_neg htotal.not_ge]
  have htracked :
      (Manager.mk live appearance (some (.running stdin cards stdout)) (some (.checked (titledCard key)))).track (titledCard key) =
        .begin ⟨live ++ [key], appearance, some (.running stdin cards stdout), none⟩ (.deliver (titledCard key)) := by
    simp only [Manager.track, titledCard_key, htrack]
    rfl
  simp only [addUnread, exec, Manager.step, hadd, Option.bind_some, htracked]
  rfl

/-- As many notifications as the caps allow, none of them read. -/
theorem reach_fill (keys : List CardKey) (hr : Reach (· = init) Manager.step s) (hidle : Idle s)
    (hkeys : ∀ key ∈ keys, ValidKey key) (hunique : (s.live ++ keys).Nodup)
    (hperApp : ∀ app, (Quota.itemsOf (s.live ++ keys) app).length ≤ maxIdsPerApp)
    (htotal : (s.live ++ keys).length ≤ maxTotalIds) :
    ∃ t, Reach (· = init) Manager.step t ∧ Idle t ∧ t.live = s.live ++ keys := by
  induction keys generalizing s with
  | nil => exact ⟨s, hr, hidle, (List.append_nil _).symm⟩
  | cons key keys ih =>
    have hnew : key ∉ s.live := fun hin => (List.nodup_append.1 hunique).2.2 key hin key (List.mem_cons_self ..) rfl
    have hroom : (Quota.itemsOf s.live key.1).length < maxIdsPerApp := by
      refine Nat.lt_of_lt_of_le ?_ (hperApp key.1)
      simp [Quota.itemsOf]
    have hbelow : s.live.total < maxTotalIds := by
      rw [List.length_append, List.length_cons] at htotal
      show s.live.length < maxTotalIds
      omega
    obtain ⟨t, ht, hidle', hlive⟩ := exec_addUnread hidle (hkeys key (List.mem_cons_self ..)) hnew hbelow hroom
    have happend : t.live ++ keys = s.live ++ key :: keys := by rw [hlive, List.append_assoc]; rfl
    rw [← happend] at hunique hperApp htotal ⊢
    exact ih (hr.exec ht) hidle' (fun other ho => hkeys other (List.mem_cons_of_mem _ ho)) hunique hperApp htotal

/-- The quota is used up by ids whose daemon has exited: AddNotification refuses before it
would find the exit. -/
def Outage : Prop :=
  ∃ s, Reach (· = init) Manager.step s ∧ s.busy = none ∧ (∃ events, s.daemon = some (.exited events)) ∧
    s.live.total = maxTotalIds ∧ ∀ appId id map, s.addNotification appId id map = s

def apps : List String := ["org.example.Chat", "org.example.Mail", "org.example.News", "org.example.Feed"]

def ids : List String := (List.range 64).map toString

/-- 64 ids of each of four applications. -/
def fullQuota : List CardKey := apps ×ˢ ids

theorem mem_fullQuota (hkey : key ∈ fullQuota) : ValidKey key := by
  have happs : ∀ app ∈ apps, validId app = .ok () := by decide +kernel
  have hids : ∀ id ∈ ids, validId id = .ok () := by decide +kernel
  obtain ⟨happ, hid⟩ := List.pair_mem_product.1 (show (key.1, key.2) ∈ apps ×ˢ ids from hkey)
  exact ⟨happs _ happ, hids _ hid⟩

theorem fullQuota_nodup : fullQuota.Nodup := by
  have happs : apps.Nodup := by decide
  have hids : ids.Nodup := by decide +kernel
  exact happs.product hids

theorem fullQuota_perApp (app : String) : (Quota.itemsOf fullQuota app).length ≤ maxIdsPerApp := by
  have hsub : Quota.itemsOf fullQuota app ⊆ ids := fun id hid => (List.pair_mem_product.1 (Quota.mem_itemsOf.1 hid)).2
  have hlength : ids.length = maxIdsPerApp := by simp [ids, maxIdsPerApp]
  exact hlength ▸ ((Quota.itemsOf_nodup fullQuota_nodup).subperm hsub).length_le

theorem fullQuota_total : fullQuota.length = maxTotalIds := by
  rw [fullQuota, List.length_product]
  simp [apps, ids, maxTotalIds]

/-- The daemon runs and nothing is live. -/
def withdrawn : List Label := firstCard "1" ++ [.daemon (.dismiss ("org.example.Mail", "1")), .pump]

theorem outage : Outage := by
  have hrun : (exec Manager.step init withdrawn).map (fun s => (s.live, decide (s.busy.isNone), s.daemon)) =
      some ([], true, some (.running [] [] [])) := by decide +kernel
  obtain ⟨s, hs, hview⟩ := Option.map_eq_some_iff.1 hrun
  simp only [Prod.mk.injEq] at hview
  obtain ⟨hlive, hbusy, hdaemon⟩ := hview
  have hstart : Reach (· = init) Manager.step init := .init rfl
  have hidle : Idle s := ⟨by simpa using hbusy, _, _, _, hdaemon⟩
  have hempty : s.live ++ fullQuota = fullQuota := by rw [hlive]; rfl
  obtain ⟨t, hreach, ⟨hidle', stdin, cards, stdout, hrunning⟩, hfull⟩ := reach_fill fullQuota (hstart.exec hs) hidle
    (fun _ => mem_fullQuota) (by rw [hempty]; exact fullQuota_nodup) (by rw [hempty]; exact fullQuota_perApp)
    (by rw [hempty]; exact fullQuota_total.le)
  have hexit : t.step (.daemon .exit) = some { t with daemon := some (.exited stdout) } := by
    simp only [Manager.step, Manager.daemonActs, hrunning]
    cases stdin <;> rfl
  have htotal : t.live.total = maxTotalIds := by rw [hfull, hempty]; exact fullQuota_total
  refine ⟨_, hreach.step hexit, hidle', ⟨stdout, rfl⟩, htotal, fun appId id map => ?_⟩
  unfold Manager.addNotification
  split
  · rfl
  · exact if_pos htotal.ge

theorem live_leaked :
    Leaks failedWrite ("org.example.Mail", "1") ∧ Leaks rejectedFrame ("org.example.Mail", "1") ∧ Outage :=
  ⟨leaks_of_run [titledCard ("org.example.Mail", "2")] (by decide +kernel) (by decide),
    leaks_of_run [] (congrArg _ (exec_rejected parse_buttoned buttonedCard_rejected)) (by decide), outage⟩

end AtriumPortal.Portal.Notifications
