import AtriumPortal.Portal.LiveIds
/-!
# Shown notifications are live

A card the daemon shows, with no `Close` for it under way, is live, so that
RemoveNotification is forwarded, in every run in which no step is one of three:
forgetting the ids of an exited daemon in the middle of an AddNotification, reading
an event about an earlier card, a failed `Close`.
-/
open AtriumPortal.Lib AtriumPortal.Lib.Checks AtriumPortal.Lib.Runs AtriumPortal.Prompter

namespace AtriumPortal.Portal.Notifications

/-- The notification an operation is to deliver. -/
def Op.notification? : Op → Option Notification
  | .evict n _ => some n
  | .deliver n => some n
  | .restyle _ => none

def Op.coming : Op → List NotifyCommand
  | .evict n evicted => [.close (n.appId, evicted), .notify n]
  | .deliver n => [.notify n]
  | .restyle _ => []

namespace Manager

/-- The cards' frames that the call in progress is still to write. -/
def coming (s : Manager) : List NotifyCommand :=
  match s.busy with
  | some (.sending op _ _ _) => op.coming
  | some (.forget _ (some n)) => [.notify n]
  | some (.closing key) => [.close key]
  | _ => []

def process (s : Manager) : Daemon := s.daemon.getD (.exited [])

def Shows (s : Manager) (key : CardKey) : Prop := s.process.Shows key

/-- A `Close` is unread or about to be written. -/
def Closing (s : Manager) (key : CardKey) : Prop := .close key ∈ s.process.stdin ++ s.coming

/-- The card is there, or will be, with no `Close` behind it. -/
def Stands (s : Manager) (key : CardKey) : Bool := s.process.stands key s.coming

/-- The steps after which a card can be shown that is not live are left out. -/
def Clean (s : Manager) (label : Label) : Prop :=
  match label, s.busy with
  | .ensure .exited, some (.sending op _ _ _) => ∀ n ∈ op.notification?, n.validate ≠ .ok ()
  | .write false, some (.closing key) => s.process.stands key [] = false
  | .pump, _ => ∀ event ∈ s.process.stdout.head?, s.Stands event.key = false
  | _, _ => True

instance (s : Manager) (label : Label) : Decidable (s.Clean label) := by
  unfold Clean
  split <;> infer_instance

end Manager

variable {s t : Manager} {label : Label} {key : CardKey}

theorem stands_fold (s : Manager) (key : CardKey) :
    s.Stands key = s.coming.foldl (Daemon.after key) (s.process.stands key []) :=
  Daemon.stands_eq key s.coming s.process

/-- What a daemon with fewer standing cards leaves standing. -/
theorem stands_of_less (hless : t.process.stands key [] = true → s.process.stands key [] = true)
    (hcoming : t.coming = s.coming) (h : t.Stands key = true) : s.Stands key = true := by
  rw [stands_fold] at h ⊢
  rw [hcoming] at h
  exact Daemon.foldl_after_mono key _ hless h

/-! ## Returning from a send -/

/-- What is to be written after the operation's own frame. -/
def Op.rest : Op → List NotifyCommand
  | .evict n _ => [.notify n]
  | _ => []

theorem foldl_coming (op : Op) (shown : Bool) :
    op.coming.foldl (Daemon.after key) shown = op.rest.foldl (Daemon.after key) (Daemon.after key shown op.frame) := by
  cases op with
  | evict n evicted => rfl
  | deliver n => rfl
  | restyle appearance => exact Daemon.after_setAppearance.symm

theorem returns_coming {op : Op} {delivered : Bool} {outer : List Send} :
    (s.returns op delivered outer).coming = if outer = [] then op.rest else op.coming := by
  cases outer with
  | cons outer rest => rfl
  | nil =>
    cases op with
    | evict n evicted => rfl
    | deliver n => cases delivered <;> rfl
    | restyle appearance => rfl

@[simp] theorem returns_process {op : Op} {delivered : Bool} {outer : List Send} :
    (s.returns op delivered outer).process = s.process := by simp [Manager.process]

theorem coming_sending {op : Op} {send : Send} {outer : List Send} {point : Point}
    (hbusy : s.busy = some (.sending op send outer point)) : s.coming = op.coming := by
  rw [Manager.coming, hbusy]

/-- A frame that was written was to come. -/
theorem stands_delivered {op : Op} {send : Send} {outer : List Send} {point : Point}
    (hbusy : s.busy = some (.sending op send outer point)) (hframed : Framed op send outer)
    (hwritten : t.process.stands key [] = Daemon.after key (s.process.stands key []) send.frame) :
    (t.returns op true outer).Stands key = s.Stands key := by
  rw [stands_fold, stands_fold, returns_coming, returns_process, hwritten, coming_sending hbusy]
  cases outer with
  | nil => rw [if_pos rfl, foldl_coming, show send.frame = op.frame from hframed]
  | cons outer rest =>
    obtain ⟨appearance, hframe⟩ := hframed.1
    rw [if_neg (List.cons_ne_nil _ _), hframe, Daemon.after_setAppearance]

/-- Without a daemon, a send that fails leaves nothing standing that was not to come. -/
theorem stands_failed {op : Op} {send : Send} {outer : List Send} {point : Point}
    (hbusy : s.busy = some (.sending op send outer point)) (hgone : t.process.stands key [] = false)
    (h : (t.returns op false outer).Stands key = true) : s.Stands key = true := by
  rw [stands_fold, returns_coming, returns_process, hgone] at h
  rw [stands_fold, coming_sending hbusy]
  have hcoming : op.coming.foldl (Daemon.after key) false = true := by
    split at h
    · rw [foldl_coming]
      have hmore : false = true → Daemon.after key false op.frame = true := nofun
      exact Daemon.foldl_after_mono key _ hmore h
    · exact h
  have hmore : false = true → s.process.stands key [] = true := nofun
  exact Daemon.foldl_after_mono key _ hmore hcoming

/-! ## What a step keeps -/

/-- Everything that stands is live. -/
def Withdrawable (s : Manager) : Prop := ∀ key, s.Stands key = true → key ∈ s.live

/-- A step that adds nothing that stands and removes nothing from the live ids. -/
theorem Withdrawable.of_less (h : Withdrawable s) (hlive : t.live = s.live)
    (hless : ∀ key, t.Stands key = true → s.Stands key = true) : Withdrawable t := by
  intro key hkey
  rw [hlive]
  exact h key (hless key hkey)

theorem coming_idle (hidle : s.busy = none) : s.coming = [] := by rw [Manager.coming, hidle]

theorem process_of_daemon {d : Daemon} (hd : s.daemon = some d) : s.process = d := by rw [Manager.process, hd]; rfl

theorem process_of_none (hd : s.daemon = none) : s.process = .exited [] := by rw [Manager.process, hd]; rfl

/-- A send that goes on, with a daemon on which no more stands. -/
theorem withdrawable_goto {op : Op} {send send' : Send} {outer outer' : List Send} {point point' : Point}
    (h : Withdrawable s) (hbusy : s.busy = some (.sending op send outer point)) (hlive : t.live = s.live)
    (hless : ∀ key, t.process.stands key [] = true → s.process.stands key [] = true) :
    Withdrawable (t.goto op send' outer' point') := by
  have hcoming : s.coming = op.coming := coming_sending hbusy
  exact h.of_less hlive fun key => stands_of_less (hless key) hcoming.symm

theorem withdrawable_killed {op : Op} {send : Send} {outer : List Send} {point : Point} {next : After} {d : Daemon}
    (h : Withdrawable s) (hbusy : s.busy = some (.sending op send outer point)) (hd : s.daemon = some d) :
    Withdrawable ({ s with daemon := some d.kill }.goto op send outer (.dropping next)) := by
  refine withdrawable_goto h hbusy rfl fun key => ?_
  rw [process_of_daemon hd]
  exact Daemon.stands_kill

/-- A send that fails, with no daemon left. -/
theorem withdrawable_failed {op : Op} {send : Send} {outer : List Send} {point : Point} (h : Withdrawable s)
    (hbusy : s.busy = some (.sending op send outer point)) (hlive : t.live = s.live) (hnone : t.daemon = none) :
    Withdrawable (t.returns op false outer) := by
  refine h.of_less (returns_live.trans hlive) fun key => stands_failed hbusy ?_
  rw [process_of_none hnone]
  rfl

theorem withdrawable_removed {closed : CardKey} (h : Withdrawable s) (hs : Sound s) (hidle : s.busy = none)
    (hkey : ValidKey closed) :
    Withdrawable { s with live := s.live.remove closed, busy := some (.closing closed) } := by
  intro key hstands
  rw [stands_fold] at hstands
  have hafter : Daemon.after key (s.process.stands key []) (.close closed) = true := hstands
  have hne : closed ≠ key := by
    rintro rfl
    rw [Daemon.after_close hkey.check] at hafter
    cases hafter
  rw [Daemon.after_other hne] at hafter
  refine hs.capped.mem_remove.2 ⟨hne.symm, h key ?_⟩
  rw [stands_fold, coming_idle hidle]
  exact hafter

/-- Before the id is tracked, what stands is live. -/
theorem Withdrawable.checked {n : Notification} (h : Withdrawable s) (hbusy : s.busy = some (.checked n))
    (hstands : s.process.stands key [] = true) : key ∈ s.live := by
  refine h key ?_
  rw [stands_fold, Manager.coming, hbusy]
  exact hstands

theorem withdrawable_evicts {n : Notification} {evicted : String} (h : Withdrawable s) (hs : Sound s)
    (hbusy : s.busy = some (.checked n)) (hout : (s.live.track n.key).2 = some evicted) :
    Withdrawable ({ s with live := (s.live.track n.key).1 }.begin (.evict n evicted)) := by
  intro key hstands
  rw [stands_fold] at hstands
  obtain rfl | hshown := Daemon.after_notify hstands
  · exact hs.capped.self_mem_track
  · have hvalid : ValidKey (n.appId, evicted) := (hs.capped.track_evicted hout).1
    have hne : (n.appId, evicted) ≠ key := by
      rintro rfl
      rw [Daemon.after_close hvalid.check] at hshown
      cases hshown
    rw [Daemon.after_other hne] at hshown
    refine mem_track (h.checked hbusy hshown) fun other ho => ?_
    cases hout.symm.trans ho
    exact hne

theorem withdrawable_tracked {n : Notification} (h : Withdrawable s) (hs : Sound s) (hbusy : s.busy = some (.checked n))
    (hout : (s.live.track n.key).2 = none) :
    Withdrawable ({ s with live := (s.live.track n.key).1 }.begin (.deliver n)) := by
  intro key hstands
  rw [stands_fold] at hstands
  obtain rfl | hshown := Daemon.after_notify hstands
  · exact hs.capped.self_mem_track
  · refine mem_track (h.checked hbusy hshown) fun other ho => ?_
    cases hout.symm.trans ho

theorem foldl_refused {op : Op} (h : ∀ n ∈ op.notification?, n.validate ≠ .ok ()) :
    op.coming.foldl (Daemon.after key) false = false := by
  cases op with
  | evict n evicted => simp [Op.coming, Daemon.after_close_false, Daemon.after_refused (h n rfl)]
  | deliver n => simp [Op.coming, Daemon.after_refused (h n rfl)]
  | restyle appearance => rfl

/-- The ids are forgotten when nothing that the daemon accepts is to come. -/
theorem withdrawable_exited {op : Op} {send : Send} {outer : List Send} {events : List NotifyEvent}
    (hbusy : s.busy = some (.sending op send outer .ensure)) (hd : s.daemon = some (.exited events))
    (hclean : s.Clean (.ensure .exited)) :
    Withdrawable ({ s with live := s.live.clear }.goto op send outer (.dropping .spawn)) := by
  have hrefused : ∀ n ∈ op.notification?, n.validate ≠ .ok () := by
    unfold Manager.Clean at hclean
    simpa only [hbusy] using hclean
  intro key hstands
  have hprocess : Manager.process ({ s with live := s.live.clear }.goto op send outer (.dropping .spawn)) =
      .exited events := process_of_daemon hd
  rw [stands_fold, hprocess] at hstands
  have hshown : op.coming.foldl (Daemon.after key) false = true := hstands
  rw [foldl_refused hrefused] at hshown
  cases hshown

theorem withdrawable_joined {op : Op} {send : Send} {outer : List Send} {next : After} (h : Withdrawable s)
    (hbusy : s.busy = some (.sending op send outer (.dropping next))) :
    Withdrawable ({ s with daemon := none }.afterDrop op send outer next) := by
  cases next with
  | spawn => exact withdrawable_goto h hbusy rfl nofun
  | retry => exact withdrawable_goto h hbusy rfl nofun
  | fail => exact withdrawable_failed h hbusy rfl rfl

theorem stands_written {frame : NotifyCommand} {stdin : List NotifyCommand} {cards : List Notification}
    {stdout : List NotifyEvent} : (Daemon.running (stdin ++ [frame]) cards stdout).stands key [] =
      Daemon.after key ((Daemon.running stdin cards stdout).stands key []) frame := by
  rw [Daemon.stands_write, Daemon.stands_eq]
  rfl

theorem withdrawable_delivered {op : Op} {send : Send} {outer : List Send} {stdin : List NotifyCommand}
    {cards : List Notification} {stdout : List NotifyEvent} (h : Withdrawable s) (hs : Sound s)
    (hbusy : s.busy = some (.sending op send outer .write)) (hd : s.daemon = some (.running stdin cards stdout)) :
    Withdrawable ({ s with daemon := some (.running (stdin ++ [send.frame]) cards stdout) }.returns op true outer) := by
  refine h.of_less returns_live fun key hstands => ?_
  rwa [stands_delivered hbusy (hs.sending hbusy).2.1] at hstands
  rw [process_of_daemon hd]
  exact stands_written

theorem stands_closing (hbusy : s.busy = some (.closing key)) (other : CardKey) :
    s.Stands other = Daemon.after other (s.process.stands other []) (.close key) := by
  rw [stands_fold, Manager.coming, hbusy]
  rfl

theorem withdrawable_closed {stdin : List NotifyCommand} {cards : List Notification} {stdout : List NotifyEvent}
    (h : Withdrawable s) (hbusy : s.busy = some (.closing key)) (hd : s.daemon = some (.running stdin cards stdout)) :
    Withdrawable { s with daemon := some (.running (stdin ++ [.close key]) cards stdout), busy := none } := by
  refine h.of_less rfl fun other hstands => ?_
  rw [stands_closing hbusy, process_of_daemon hd, ← stands_written]
  exact hstands

/-- A `Close` is lost when its card does not stand. -/
theorem withdrawable_lost (h : Withdrawable s) (hbusy : s.busy = some (.closing key)) (hclean : s.Clean (.write false)) :
    Withdrawable { s with busy := none } := by
  have hgone : s.process.stands key [] = false := by
    unfold Manager.Clean at hclean
    simpa only [hbusy] using hclean
  refine h.of_less rfl fun other hstands => ?_
  have hother : s.process.stands other [] = true := hstands
  have hne : key ≠ other := by
    rintro rfl
    rw [hgone] at hother
    cases hother
  rw [stands_closing hbusy, Daemon.after_other hne]
  exact hother

/-- Without a daemon and with nothing to come, nothing stands. -/
theorem withdrawable_gone (hnone : t.daemon = none) (hcoming : t.coming = []) : Withdrawable t := by
  intro other hstands
  rw [stands_fold, process_of_none hnone, hcoming] at hstands
  cases hstands

theorem withdrawable_forgotten {n : Notification} (h : Withdrawable s) (hs : Sound s)
    (hbusy : s.busy = some (.forget key (some n))) :
    Withdrawable ({ s with live := s.live.remove key }.begin (.deliver n)) := by
  have hcoming : s.coming = [.notify n] := by rw [Manager.coming, hbusy]
  have hsame : s.live.remove key = s.live := List.erase_of_not_mem (hs.evicted hbusy)
  exact h.of_less hsame fun other => stands_of_less (fun h => h) hcoming.symm

theorem stands_setStdout {d : Daemon} {events : List NotifyEvent} :
    (d.setStdout events).stands key [] = d.stands key [] := by
  cases d <;> rfl

/-- An event is read when no card of its id stands. -/
theorem withdrawable_heard {d : Daemon} {event : NotifyEvent} {rest : List NotifyEvent} (h : Withdrawable s)
    (hs : Sound s) (hclean : s.Clean .pump) (hd : s.daemon = some d) (hout : d.stdout = event :: rest) :
    Withdrawable { s with live := s.live.hear event, daemon := some (d.setStdout rest) } := by
  have hstale : s.Stands event.key = false := by
    refine hclean event ?_
    rw [process_of_daemon hd, hout]
    rfl
  intro key hstands
  have hless : (d.setStdout rest).stands key [] = true → s.process.stands key [] = true := by
    rw [process_of_daemon hd, stands_setStdout]
    exact fun h => h
  have hbefore : s.Stands key = true :=
    stands_of_less (t := { s with live := s.live.hear event, daemon := some (d.setStdout rest) }) hless rfl hstands
  have hne : key ≠ event.key := by
    rintro rfl
    rw [hbefore] at hstale
    cases hstale
  unfold LiveNotifications.hear
  split
  · exact hs.capped.mem_remove.2 ⟨hne, h key hbefore⟩
  · exact h key hbefore

theorem withdrawable_acted {d d' : Daemon} {act : Daemon.Act} (h : Withdrawable s) (hd : s.daemon = some d)
    (hact : d.act act = some d') : Withdrawable { s with daemon := some d' } := by
  refine h.of_less rfl fun key => stands_of_less ?_ rfl
  rw [process_of_daemon hd]
  exact Daemon.stands_act hact

theorem withdrawable_step (h : Withdrawable s) (hs : Sound s) (hclean : s.Clean label)
    (hstep : s.step label = some t) : Withdrawable t := by
  cases step_takes hstep with
  | refused _ | unknown _ | unchanged _ => exact h
  | checked hidle _ _ => exact h.of_less rfl fun _ => stands_of_less (fun h => h) (coming_idle hidle).symm
  | removed hidle hkey _ => exact withdrawable_removed h hs hidle hkey
  | remembered _ => exact h.of_less rfl fun _ => stands_of_less (fun h => h) rfl
  | restyles hidle => exact h.of_less rfl fun _ => stands_of_less (fun h => h) (coming_idle hidle).symm
  | evicts hbusy hout => exact withdrawable_evicts h hs hbusy hout
  | tracked hbusy hout => exact withdrawable_tracked h hs hbusy hout
  | missing hbusy _ => exact withdrawable_goto h hbusy rfl fun _ h => h
  | running hbusy _ => exact withdrawable_goto h hbusy rfl fun _ h => h
  | exited hbusy hd => exact withdrawable_exited hbusy hd hclean
  | unqueried hbusy hd => exact withdrawable_killed h hbusy hd
  | joined hbusy _ => exact withdrawable_joined h hbusy
  | unspawned hbusy => exact withdrawable_failed h hbusy rfl ((hs.sending hbusy).2.2 rfl)
  | primes hbusy => exact withdrawable_goto h hbusy rfl nofun
  | spawned hbusy => exact withdrawable_goto h hbusy rfl nofun
  | absent hbusy hnone => exact withdrawable_failed h hbusy rfl hnone
  | delivered hbusy hd => exact withdrawable_delivered h hs hbusy hd
  | broken hbusy hd => exact withdrawable_killed h hbusy hd
  | unshown _ hnone => exact withdrawable_gone hnone rfl
  | closed hbusy hd => exact withdrawable_closed h hbusy hd
  | lost hbusy _ => exact withdrawable_lost h hbusy hclean
  | forgotten hbusy => exact withdrawable_forgotten h hs hbusy
  | undelivered hbusy => exact withdrawable_gone (hs.undelivered hbusy) rfl
  | heard hd hout => exact withdrawable_heard h hs hclean hd hout
  | acted hd hact => exact withdrawable_acted h hd hact

/-! ## Every clean run -/

theorem withdrawable_reach (h : Reach (· = init) (Guarded Manager.Clean Manager.step) s) :
    Sound s ∧ Withdrawable s := by
  refine h.inv_guarded (I := fun s => Sound s ∧ Withdrawable s) ?_ ?_
  · rintro _ rfl
    exact ⟨sound_init, nofun⟩
  · rintro s label t ⟨hs, hw⟩ hclean hstep
    exact ⟨sound_step hs hstep, withdrawable_step hw hs hclean hstep⟩

/-- **A shown notification can be withdrawn.** In every run of clean steps, a card
that is shown and that no `Close` is under way for is live, and removing it sends one. -/
theorem shown_is_live (h : Reach (· = init) (Guarded Manager.Clean Manager.step) s) (hshows : s.Shows key)
    (hopen : ¬ s.Closing key) :
    key ∈ s.live ∧ (s.removeNotification key.1 key.2).busy = some (.closing key) := by
  obtain ⟨hs, hw⟩ := withdrawable_reach h
  have hlive : key ∈ s.live := by
    refine hw key ?_
    cases hd : s.process with
    | exited events =>
      rw [Manager.Shows, hd] at hshows
      exact hshows.elim
    | running stdin cards stdout =>
      rw [Manager.Shows, hd] at hshows
      rw [Manager.Closing, hd] at hopen
      rw [Manager.Stands, hd]
      exact Daemon.stands_of_shows hshows hopen
  refine ⟨hlive, ?_⟩
  obtain ⟨happ, hid⟩ := hs.capped.keys key hlive
  rw [Manager.removeNotification, if_pos ⟨happ, hid, hlive⟩]

/-! ## Runs -/

/-- A dictionary with a title only. -/
def titled : Vardict := fun key => if key = "title" then some (.str "Hello") else none

/-- A first notification, up to its card. -/
def firstCard (id : String) : List Label :=
  [.addNotification "org.example.Mail" id titled, .track, .ensure .running, .spawn true, .write true,
    .daemon (.read false)]

theorem shown_is_live_firstCard : ∃ s, exec (Guarded Manager.Clean Manager.step) init (firstCard "1") = some s ∧
    s.Shows ("org.example.Mail", "1") ∧ ("org.example.Mail", "1") ∈ s.live := by
  have hrun : (exec (Guarded Manager.Clean Manager.step) init (firstCard "1")).map (fun s =>
      decide (s.process.Shows ("org.example.Mail", "1") ∧ .close ("org.example.Mail", "1") ∉ s.process.stdin ++ s.coming)) =
      some true := by decide +kernel
  obtain ⟨s, hs, hview⟩ := Option.map_eq_some_iff.1 hrun
  obtain ⟨hshows, hopen⟩ := of_decide_eq_true hview
  have hstart : Reach (· = init) (Guarded Manager.Clean Manager.step) init := .init rfl
  exact ⟨s, hs, hshows, (shown_is_live (hstart.exec hs) hshows hopen).1⟩

/-- The daemon exits; the ids are forgotten after the second one was tracked. -/
def forgottenRespawn : List Label :=
  firstCard "1" ++ [.daemon .exit, .addNotification "org.example.Mail" "2" titled, .track, .ensure .exited, .joined,
    .spawn true, .write true, .daemon (.read false)]

/-- A notification is withdrawn and added again before the first card's event is read. -/
def staleClosed : List Label :=
  firstCard "1" ++ [.removeNotification "org.example.Mail" "1", .write true,
    .addNotification "org.example.Mail" "1" titled, .track, .ensure .running, .write true, .daemon (.read false),
    .daemon (.read false), .pump]

/-- The `Close` of a withdrawn notification is not written. -/
def lostClose : List Label := firstCard "1" ++ [.removeNotification "org.example.Mail" "1", .write false]

/-- A run leaves a card that is shown, is not being withdrawn and is not live. -/
def Strands (ls : List Label) (key : CardKey) : Prop :=
  ∃ s, Reach (· = init) Manager.step s ∧ exec Manager.step init ls = some s ∧ s.Shows key ∧ ¬ s.Closing key ∧
    key ∉ s.live

theorem strands_of_run {ls : List Label} (hrun : (exec Manager.step init ls).map (fun s =>
    decide (s.process.Shows key ∧ .close key ∉ s.process.stdin ++ s.coming ∧ key ∉ s.live)) = some true) :
    Strands ls key := by
  obtain ⟨s, hs, hview⟩ := Option.map_eq_some_iff.1 hrun
  obtain ⟨hshows, hopen, hdead⟩ := of_decide_eq_true hview
  have hstart : Reach (· = init) Manager.step init := .init rfl
  exact ⟨s, hstart.exec hs, hs, hshows, hopen, hdead⟩

theorem shown_not_live : Strands forgottenRespawn ("org.example.Mail", "2") ∧
    Strands staleClosed ("org.example.Mail", "1") ∧ Strands lostClose ("org.example.Mail", "1") :=
  ⟨strands_of_run (by decide +kernel), strands_of_run (by decide +kernel), strands_of_run (by decide +kernel)⟩

end AtriumPortal.Portal.Notifications
