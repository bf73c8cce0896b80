import AtriumPortal.Portal.LiveIds
/-!
# Respawning the daemon

`DaemonManager::send` and `ensure_daemon` call each other when a daemon that was spawned is
to be given the remembered appearance. `send_bounded_iff`: exactly when a call returns after
at most two spawns, and what bounds it where an appearance is remembered.
-/
open AtriumPortal.Lib.Runs AtriumPortal.Prompter

namespace AtriumPortal.Portal.Notifications

/-! ## One call -/

/-- A step of `send` itself. -/
def Label.own : Label → Bool
  | .ensure _ | .joined | .spawn _ | .write _ => true
  | _ => false

def Label.spawns : Label → Bool
  | .spawn _ => true
  | _ => false

/-- What happens while a call of `send` goes on: its own steps, the pump and the daemon. -/
def Label.during (label : Label) : Bool :=
  match label with
  | .pump | .daemon _ => true
  | label => label.own

def Sending (s : Manager) : Prop := ∃ op send outer point, s.busy = some (.sending op send outer point)

/-- The steps of one call. -/
abbrev sendStep : Manager → Label → Option Manager := Guarded (fun _ label => label.during = true) Manager.step

/-- A daemon is lost while the remembered appearance is pushed to it. -/
def losesPush (s : Manager) (label : Label) : Bool :=
  match s.busy, label with
  | some (.sending _ _ (_ :: _) .ensure), .ensure .exited
  | some (.sending _ _ (_ :: _) .ensure), .ensure .failed
  | some (.sending _ _ (_ :: _) .write), .write false => s.daemon.isSome
  | _, _ => false

/-- The steps of one call in which every push of the appearance goes through. -/
abbrev pushedStep : Manager → Label → Option Manager :=
  Guarded (fun s label => label.during = true ∧ losesPush s label = false) Manager.step

/-- The call returns after at most two spawns: its own steps are bounded, and as long as it has not
returned it has another one, after the pump has read what a dead daemon left. -/
structure Bounded (s : Manager) (op : Op) : Prop where
  spawns : ∀ labels t, exec sendStep (s.begin op) labels = some t → labels.countP Label.spawns ≤ 2
  steps : ∃ n, ∀ labels t, exec sendStep (s.begin op) labels = some t → labels.countP Label.own ≤ n
  returns : ∀ labels t, exec sendStep (s.begin op) labels = some t → Sending t →
    ∃ n label t', label.own = true ∧ exec sendStep t (List.replicate n .pump ++ [label]) = some t'

/-! ## What a call has left -/

/-- The steps that a second attempt and the return may take; only the outermost send pays for its own. -/
def slack (send : Send) : List Send → Nat
  | [] => if send.attempt = 0 then 8 else 1
  | _ :: _ => 0

/-- What the sends that wait have left. -/
def waiting : List Send → Nat
  | [] => 0
  | send :: outer => 1 + slack send outer + waiting outer

def Point.stepsLeft (daemon : Option Daemon) (send : Send) (outer : List Send) : Point → Nat
  | .ensure => if outer = [] ∨ daemon = none then 6 + slack send outer else 2
  | .dropping .spawn => 5 + slack send outer
  | .dropping .retry => if outer = [] then 8 else 7
  | .dropping .fail => 1
  | .spawn => 4 + slack send outer
  | .write => 1 + slack send outer

/-- The spawn of the second attempt of the outermost send. -/
def retries : Send → List Send → Nat
  | send, [] => if send.attempt = 0 then 1 else 0
  | _, send :: outer => retries send outer

def Point.spawnsLeft (daemon : Option Daemon) (send : Send) (outer : List Send) : Point → Nat
  | .ensure => (if outer = [] ∨ daemon = none then 1 else 0) + retries send outer
  | .dropping .spawn | .spawn => 1 + retries send outer
  | .dropping .retry => 1 + if outer = [] then 0 else retries send outer
  | .dropping .fail => if outer = [] then 0 else retries send outer
  | .write => retries send outer

def stepsLeft (s : Manager) : Nat :=
  match s.busy with
  | some (.sending _ send outer point) => point.stepsLeft s.daemon send outer + waiting outer
  | _ => 0

def spawnsLeft (s : Manager) : Nat :=
  match s.busy with
  | some (.sending _ send outer point) => point.spawnsLeft s.daemon send outer
  | _ => 0

section
variable {s t : Manager} {op : Op} {send : Send} {outer : List Send} {point : Point} {label : Label}

theorem stepsLeft_sending (hbusy : s.busy = some (.sending op send outer point)) :
    stepsLeft s = point.stepsLeft s.daemon send outer + waiting outer := by
  rw [stepsLeft, hbusy]

theorem spawnsLeft_sending (hbusy : s.busy = some (.sending op send outer point)) :
    spawnsLeft s = point.spawnsLeft s.daemon send outer := by
  rw [spawnsLeft, hbusy]

theorem returns_idle (s : Manager) (op : Op) (delivered : Bool) :
    (s.returns op delivered []).busy = none ∨ ∃ key next, (s.returns op delivered []).busy = some (.forget key next) := by
  cases op with
  | evict n evicted => exact .inr ⟨_, _, rfl⟩
  | deliver n =>
    cases delivered with
    | true => exact .inl rfl
    | false => exact .inr ⟨_, _, rfl⟩
  | restyle _ => exact .inl rfl

theorem left_idle (h : s.busy = none ∨ ∃ key next, s.busy = some (.forget key next)) :
    stepsLeft s = 0 ∧ spawnsLeft s = 0 := by
  rcases h with hbusy | ⟨key, next, hbusy⟩ <;> simp [stepsLeft, spawnsLeft, hbusy]

theorem stepsLeft_returns (s : Manager) (op : Op) (delivered : Bool) (outer : List Send) :
    stepsLeft (s.returns op delivered outer) = waiting outer := by
  cases outer with
  | cons send outer => rfl
  | nil => exact (left_idle (returns_idle s op delivered)).1

theorem spawnsLeft_returns (s : Manager) (op : Op) (delivered : Bool) (send : Send) (outer : List Send) :
    spawnsLeft (s.returns op delivered outer) = if outer = [] then 0 else retries send outer := by
  cases outer with
  | cons send outer => rfl
  | nil => exact (left_idle (returns_idle s op delivered)).2

/-- What a step of the call takes from what is left. -/
structure Paid (s : Manager) (label : Label) (t : Manager) : Prop where
  steps : stepsLeft t + label.own.toNat ≤ stepsLeft s
  spawns : spawnsLeft t + label.spawns.toNat ≤ spawnsLeft s

/-- A step that goes on with a send. -/
theorem paid_goto {send' : Send} {outer' : List Send} {point' : Point}
    (hbusy : s.busy = some (.sending op send outer point))
    (hsteps : point'.stepsLeft t.daemon send' outer' + waiting outer' + label.own.toNat ≤
      point.stepsLeft s.daemon send outer + waiting outer)
    (hspawns : point'.spawnsLeft t.daemon send' outer' + label.spawns.toNat ≤ point.spawnsLeft s.daemon send outer) :
    Paid s label (t.goto op send' outer' point') := by
  refine ⟨?_, ?_⟩
  · rw [stepsLeft_sending hbusy]
    exact hsteps
  · rw [spawnsLeft_sending hbusy]
    exact hspawns

/-- A step by which the innermost send returns. -/
theorem paid_returns {delivered : Bool} (hbusy : s.busy = some (.sending op send outer point))
    (hsteps : label.own.toNat ≤ point.stepsLeft s.daemon send outer)
    (hspawns : (if outer = [] then 0 else retries send outer) + label.spawns.toNat ≤
      point.spawnsLeft s.daemon send outer) :
    Paid s label (t.returns op delivered outer) := by
  refine ⟨?_, ?_⟩
  · rw [stepsLeft_sending hbusy, stepsLeft_returns]
    omega
  · rw [spawnsLeft_sending hbusy, spawnsLeft_returns t op delivered send outer]
    exact hspawns

/-- The pump and the daemon take nothing. -/
theorem paid_beside (hown : label.own = false) (hspawns : label.spawns = false) (hbusy : t.busy = s.busy)
    (hdaemon : t.daemon = none ↔ s.daemon = none) : Paid s label t := by
  have hsteps : stepsLeft t = stepsLeft s := by
    unfold stepsLeft
    rw [hbusy]
    split
    · next point _ => cases point <;> simp only [Point.stepsLeft, hdaemon]
    · rfl
  have hleft : spawnsLeft t = spawnsLeft s := by
    unfold spawnsLeft
    rw [hbusy]
    split
    · next point _ => cases point <;> simp only [Point.spawnsLeft, hdaemon]
    · rfl
  exact ⟨by rw [hsteps, hown]; exact Nat.le_refl _, by rw [hleft, hspawns]; exact Nat.le_refl _⟩

theorem retries_le (send : Send) (outer : List Send) :
    (if outer = [] then 0 else retries send outer) ≤ retries send outer := by
  split
  · exact Nat.zero_le _
  · exact Nat.le_refl _

theorem paid_joined {next : After} (hbusy : s.busy = some (.sending op send outer (.dropping next))) :
    Paid s .joined ({ s with daemon := none }.afterDrop op send outer next) := by
  cases next with
  | spawn =>
    apply paid_goto hbusy
    · simp only [Point.stepsLeft, Label.own, Bool.toNat_true]
      omega
    · exact Nat.le_refl _
  | retry =>
    apply paid_goto hbusy
    · cases outer with
      | nil => exact Nat.le_refl _
      | cons _ _ =>
        simp only [Point.stepsLeft, Label.own, Bool.toNat_true, slack, or_true, if_true, reduceCtorEq, if_false]
        omega
    · cases outer with
      | nil => exact Nat.le_refl _
      | cons _ _ => exact Nat.le_refl _
  | fail => exact paid_returns hbusy (Nat.le_refl _) (Nat.le_refl _)

/-- A step of `ensure_daemon` or `write` that loses the daemon is one of the outermost send. -/
theorem outermost_ensure {wait : Wait} {d : Daemon} (hbusy : s.busy = some (.sending op send outer .ensure))
    (hd : s.daemon = some d) (hpushed : losesPush s (.ensure wait) = false) (hwait : wait = .exited ∨ wait = .failed) :
    outer = [] := by
  cases outer with
  | nil => rfl
  | cons _ _ =>
    unfold losesPush at hpushed
    rw [hbusy, hd] at hpushed
    rcases hwait with rfl | rfl
    · cases hpushed
    · cases hpushed

theorem outermost_write {d : Daemon} (hbusy : s.busy = some (.sending op send outer .write)) (hd : s.daemon = some d)
    (hpushed : losesPush s (.write false) = false) : outer = [] := by
  cases outer with
  | nil => rfl
  | cons _ _ =>
    unfold losesPush at hpushed
    rw [hbusy, hd] at hpushed
    cases hpushed

theorem paid_ensure_lost {wait : Wait} (hbusy : s.busy = some (.sending op send [] .ensure)) :
    Paid s (.ensure wait) (t.goto op send [] (.dropping .spawn)) := by
  apply paid_goto hbusy
  · simp only [Point.stepsLeft, Label.own, Bool.toNat_true, true_or, if_true]
    omega
  · simp only [Point.spawnsLeft, Label.spawns, Bool.toNat_false, true_or, if_true]
    omega

theorem paid_step (hopen : ∀ key, s.busy ≠ some (.closing key)) (hduring : label.during = true)
    (hpushed : losesPush s label = false) (hstep : s.step label = some t) : Paid s label t := by
  cases step_takes hstep with
  | refused | checked | unknown | removed | unchanged | remembered | restyles | evicts | tracked | forgotten
  | undelivered => cases hduring
  | unshown hbusy | closed hbusy | lost hbusy => exact absurd hbusy (hopen _)
  | missing hbusy hnone =>
    apply paid_goto hbusy
    · simp only [Point.stepsLeft, Label.own, Bool.toNat_true, hnone, or_true, if_true]
      omega
    · simp only [Point.spawnsLeft, Label.spawns, Bool.toNat_false, hnone, or_true, if_true]
      omega
  | @running op send outer _ _ _ hbusy hd =>
    apply paid_goto hbusy
    · cases outer with
      | nil =>
        simp only [Point.stepsLeft, Label.own, Bool.toNat_true, true_or, if_true]
        omega
      | cons _ _ =>
        simp only [Point.stepsLeft, Label.own, Bool.toNat_true, hd, slack, reduceCtorEq, or_self, if_false]
        omega
    · simp only [Point.spawnsLeft, Label.spawns, Bool.toNat_false]
      omega
  | exited hbusy hd =>
    obtain rfl := outermost_ensure hbusy hd hpushed (.inl rfl)
    exact paid_ensure_lost hbusy
  | unqueried hbusy hd =>
    obtain rfl := outermost_ensure hbusy hd hpushed (.inr rfl)
    exact paid_ensure_lost hbusy
  | joined hbusy _ => exact paid_joined hbusy
  | @unspawned op send outer hbusy =>
    apply paid_returns hbusy
    · simp only [Point.stepsLeft, Label.own, Bool.toNat_true]
      omega
    · simp only [Point.spawnsLeft, Label.spawns, Bool.toNat_true]
      have hretries := retries_le send outer
      omega
  | primes hbusy =>
    apply paid_goto hbusy
    · simp only [Point.stepsLeft, waiting, Label.own, Bool.toNat_true, reduceCtorEq, or_self, if_false]
      omega
    · simp only [Point.spawnsLeft, retries, Label.spawns, Bool.toNat_true, reduceCtorEq, or_self, if_false]
      omega
  | spawned hbusy =>
    apply paid_goto hbusy
    · simp only [Point.stepsLeft, Label.own, Bool.toNat_true]
      omega
    · simp only [Point.spawnsLeft, Label.spawns, Bool.toNat_true]
      omega
  | absent hbusy _ | delivered hbusy _ =>
    apply paid_returns hbusy
    · simp only [Point.stepsLeft, Label.own, Bool.toNat_true]
      omega
    · exact retries_le _ _
  | broken hbusy hd =>
    obtain rfl := outermost_write hbusy hd hpushed
    apply paid_goto hbusy
    · split
      · next hfirst => simp [Point.stepsLeft, Label.own, slack, waiting, hfirst]
      · next hsecond => simp [Point.stepsLeft, Label.own, slack, waiting, hsecond]
    · split
      · next hfirst => simp [Point.spawnsLeft, Label.spawns, retries, hfirst]
      · next hsecond => simp [Point.spawnsLeft, Label.spawns]
  | heard hd _ => exact paid_beside rfl rfl rfl (by simp [hd])
  | acted hd _ => exact paid_beside rfl rfl rfl (by simp [hd])
/-! ## Where a call is -/

/-- No card is being closed, and a handle is dropped only once its process is dead. -/
structure Under (s : Manager) : Prop where
  unclosing : ∀ key, s.busy ≠ some (.closing key)
  killed : ∀ op send outer next, s.busy = some (.sending op send outer (.dropping next)) →
    ∃ events, s.daemon = some (.exited events)

theorem under_goto (hkilled : ∀ next, point = .dropping next → ∃ events, s.daemon = some (.exited events)) :
    Under (s.goto op send outer point) := by
  refine ⟨nofun, ?_⟩
  rintro _ _ _ next ⟨⟩
  exact hkilled next rfl

theorem under_returns {delivered : Bool} : Under (s.returns op delivered outer) := by
  cases outer with
  | cons _ _ => exact under_goto nofun
  | nil =>
    rcases returns_idle s op delivered with hbusy | ⟨key, next, hbusy⟩ <;>
      exact ⟨by simp [hbusy], by simp [hbusy]⟩

theorem Under.beside (h : Under s) (hbusy : t.busy = s.busy)
    (hkilled : ∀ events, s.daemon = some (.exited events) → ∃ events, t.daemon = some (.exited events)) : Under t := by
  refine ⟨fun key => hbusy ▸ h.unclosing key, fun op send outer next hdropping => ?_⟩
  obtain ⟨events, hd⟩ := h.killed op send outer next (hbusy ▸ hdropping)
  exact hkilled events hd

theorem under_step (h : Under s) (hduring : label.during = true) (hstep : s.step label = some t) : Under t := by
  cases step_takes hstep with
  | refused | checked | unknown | removed | unchanged | remembered | restyles | evicts | tracked | forgotten
  | undelivered => cases hduring
  | unshown hbusy | closed hbusy | lost hbusy => exact absurd hbusy (h.unclosing _)
  | missing | running | primes | spawned => exact under_goto nofun
  | exited _ hd => exact under_goto fun _ _ => ⟨_, hd⟩
  | @unqueried _ _ _ d | @broken _ _ _ d => exact under_goto fun _ _ => ⟨d.stdout, rfl⟩
  | @joined _ _ _ next hbusy hd =>
    cases next with
    | spawn | retry => exact under_goto nofun
    | fail => exact under_returns
  | unspawned | absent | delivered => exact under_returns
  | heard hd hout =>
    refine h.beside rfl fun events hexited => ?_
    cases hd.symm.trans hexited
    exact ⟨_, rfl⟩
  | acted hd hact =>
    refine h.beside rfl fun events hexited => ?_
    cases hd.symm.trans hexited
    cases hact

theorem under_begin (s : Manager) (op : Op) : Under (s.begin op) := under_goto nofun

theorem sendStep_eq (hduring : label.during = true) : sendStep s label = s.step label := if_pos hduring

/-- The pump reads what a dead daemon has left. -/
theorem drain {events : List NotifyEvent} (hd : s.daemon = some (.exited events)) :
    ∃ t, exec sendStep s (List.replicate events.length .pump) = some t ∧ t.busy = s.busy ∧
      t.appearance = s.appearance ∧ t.daemon = some (.exited []) := by
  induction events generalizing s with
  | nil => exact ⟨s, rfl, rfl, rfl, hd⟩
  | cons event events ih =>
    have hpump : sendStep s .pump = some { s with live := s.live.hear event, daemon := some (.exited events) } := by
      rw [sendStep_eq rfl]
      simp only [Manager.step, Manager.pump, hd, Daemon.stdout, Daemon.setStdout]
    obtain ⟨t, hrun, hb, ha, hempty⟩ := @ih { s with live := s.live.hear event, daemon := some (.exited events) } rfl
    refine ⟨t, ?_, hb, ha, hempty⟩
    rw [List.length_cons, List.replicate_succ, exec, hpump]
    exact hrun

/-- Whatever it waits for, a call that has not returned has another step. -/
theorem goes_on (h : Under s) (hsending : Sending s) :
    ∃ n label t, label.own = true ∧ exec sendStep s (List.replicate n .pump ++ [label]) = some t := by
  have hnow : ∀ label, label.own = true → (s.step label).isSome = true →
      ∃ n label t, label.own = true ∧ exec sendStep s (List.replicate n .pump ++ [label]) = some t := by
    intro label hown hstep
    obtain ⟨t, ht⟩ := Option.isSome_iff_exists.1 hstep
    have hduring : label.during = true := by cases label <;> first | rfl | cases hown
    exact ⟨0, label, t, hown, by simp [exec, guarded_eq_some, hduring, ht]⟩
  obtain ⟨op, send, outer, point, hbusy⟩ := hsending
  cases point with
  | ensure =>
    cases hd : s.daemon with
    | none => exact hnow (.ensure .running) rfl (by simp [Manager.step, Manager.ensure, hbusy, hd])
    | some d =>
      cases d with
      | running => exact hnow (.ensure .running) rfl (by simp [Manager.step, Manager.ensure, hbusy, hd])
      | exited => exact hnow (.ensure .exited) rfl (by simp [Manager.step, Manager.ensure, hbusy, hd])
  | spawn => exact hnow (.spawn false) rfl (by simp [Manager.step, hbusy])
  | write =>
    cases hd : s.daemon with
    | none => exact hnow (.write false) rfl (by simp [Manager.step, Manager.write, hbusy, hd])
    | some d =>
      cases d with
      | running | exited =>
        exact hnow (.write false) rfl (by simp [Manager.step, Manager.write, Manager.written, hbusy, hd])
  | dropping next =>
    obtain ⟨events, hd⟩ := h.killed op send outer next hbusy
    obtain ⟨t, hrun, hb, -, hempty⟩ := drain hd
    refine ⟨events.length, .joined, { t with daemon := none }.afterDrop op send outer next, rfl, ?_⟩
    rw [exec_append, hrun]
    simp [exec, guarded_eq_some, Label.during, Label.own, Manager.step, Manager.joined, hb, hbusy, hempty]

/-! ## Without an appearance -/

/-- No appearance is remembered, and no send waits for one to be pushed. -/
structure Unprimed (s : Manager) : Prop where
  appearance : s.appearance = none
  single : ∀ op send outer point, s.busy = some (.sending op send outer point) → outer = []

theorem unprimed_goto (h : s.appearance = none) : Unprimed (s.goto op send [] point) := by
  refine ⟨h, ?_⟩
  rintro _ _ _ _ ⟨⟩
  rfl

theorem returns_appearance {delivered : Bool} : (s.returns op delivered outer).appearance = s.appearance := by
  unfold Manager.returns
  split
  · rfl
  · cases op <;> rfl

theorem unprimed_returns {delivered : Bool} (h : s.appearance = none) : Unprimed (s.returns op delivered []) := by
  refine ⟨returns_appearance.trans h, fun _ _ _ _ hsending => ?_⟩
  rcases returns_idle s op delivered with hbusy | ⟨key, next, hbusy⟩ <;>
    · rw [hbusy] at hsending
      cases hsending

theorem Unprimed.beside (h : Unprimed s) (hbusy : t.busy = s.busy) (happearance : t.appearance = s.appearance) :
    Unprimed t :=
  ⟨happearance.trans h.appearance, fun op send outer point hsending => h.single op send outer point (hbusy ▸ hsending)⟩

theorem Unprimed.pushed (h : Unprimed s) (label : Label) : losesPush s label = false := by
  unfold losesPush
  split
  · next hbusy => cases h.single _ _ _ _ hbusy
  · next hbusy => cases h.single _ _ _ _ hbusy
  · next hbusy => cases h.single _ _ _ _ hbusy
  · rfl

theorem unprimed_step (h : Unprimed s) (hduring : label.during = true) (hopen : ∀ key, s.busy ≠ some (.closing key))
    (hstep : s.step label = some t) : Unprimed t := by
  cases step_takes hstep with
  | refused | checked | unknown | removed | unchanged | remembered | restyles | evicts | tracked | forgotten
  | undelivered => cases hduring
  | unshown hbusy | closed hbusy | lost hbusy => exact absurd hbusy (hopen _)
  | missing hbusy | running hbusy | exited hbusy | unqueried hbusy | spawned hbusy | broken hbusy =>
    obtain rfl := h.single _ _ _ _ hbusy
    exact unprimed_goto h.appearance
  | primes hbusy =>
    -- a spawn without an appearance goes on to the write
    simp only [Manager.step, hbusy, Manager.spawn, h.appearance, if_true] at hstep
    cases hstep
  | @joined _ _ _ next hbusy _ =>
    obtain rfl := h.single _ _ _ _ hbusy
    cases next with
    | spawn | retry => exact unprimed_goto h.appearance
    | fail => exact unprimed_returns h.appearance
  | unspawned hbusy | absent hbusy | delivered hbusy =>
    obtain rfl := h.single _ _ _ _ hbusy
    exact unprimed_returns h.appearance
  | heard => exact h.beside rfl rfl
  | acted => exact h.beside rfl rfl

/-! ## With an appearance -/

/-- A call that is to ensure its daemon may find it dead, and has another one to spawn. -/
theorem to_spawn (hbusy : s.busy = some (.sending op send outer .ensure)) :
    ∃ labels t, exec sendStep s labels = some t ∧ t.busy = some (.sending op send outer .spawn) ∧
      t.appearance = s.appearance ∧ labels.countP Label.spawns = 0 := by
  have hdead : ∀ {s : Manager} {events : List NotifyEvent}, s.busy = some (.sending op send outer .ensure) →
      s.daemon = some (.exited events) →
      ∃ labels t, exec sendStep s labels = some t ∧ t.busy = some (.sending op send outer .spawn) ∧
        t.appearance = s.appearance ∧ labels.countP Label.spawns = 0 := by
    intro s events hbusy hd
    obtain ⟨t, hrun, hb, ha, hempty⟩ :=
      @drain ({ s with live := s.live.clear }.goto op send outer (.dropping .spawn)) events hd
    refine ⟨.ensure .exited :: (List.replicate events.length .pump ++ [.joined]),
      { t with daemon := none }.goto op send outer .spawn, ?_, rfl, ha, ?_⟩
    · have hensure : sendStep s (.ensure .exited) =
          some ({ s with live := s.live.clear }.goto op send outer (.dropping .spawn)) := by
        rw [sendStep_eq rfl]
        simp only [Manager.step, Manager.ensure, hbusy, hd]
      rw [exec, hensure, Option.bind_some, exec_append, hrun]
      simp [exec, guarded_eq_some, Label.during, Label.own, Manager.step, Manager.joined, hb, Manager.goto, hempty,
        Manager.afterDrop]
    · simp [List.countP_append, List.countP_replicate, Label.spawns]
  cases hd : s.daemon with
  | none =>
    refine ⟨[.ensure .running], s.goto op send outer .spawn, ?_, rfl, rfl, rfl⟩
    simp [exec, guarded_eq_some, Label.during, Label.own, Manager.step, Manager.ensure, hbusy, hd]
  | some d =>
    cases d with
    | exited events => exact hdead hbusy hd
    | running stdin cards stdout =>
      obtain ⟨labels, t, hrun, hb, ha, hnone⟩ := @hdead { s with daemon := some (.exited stdout) } stdout hbusy rfl
      refine ⟨.daemon .exit :: labels, t, ?_, hb, ha, hnone⟩
      have hexit : sendStep s (.daemon .exit) = some { s with daemon := some (.exited stdout) } := by
        rw [sendStep_eq rfl]
        simp only [Manager.step, Manager.daemonActs, hd, Daemon.act, Option.map_some]
      rw [exec, hexit]
      exact hrun

/-- With a remembered appearance the daemons may die one after the other, each before it has it. -/
theorem respawns {appearance : PromptAppearance} (happearance : s.appearance = some appearance) (n : Nat)
    (hbusy : s.busy = some (.sending op send outer .ensure)) :
    ∃ labels t, exec sendStep s labels = some t ∧ labels.countP Label.spawns = n := by
  induction n generalizing s send outer with
  | zero => exact ⟨[], s, rfl, rfl⟩
  | succ n ih =>
    obtain ⟨before, t, hrun, hb, ha, hnone⟩ := to_spawn hbusy
    rw [happearance] at ha
    obtain ⟨after, u, hagain, hn⟩ := @ih
      ({ t with daemon := some .spawned }.goto op ⟨.setAppearance appearance, 0⟩ (send :: outer) .ensure) _ _ ha rfl
    have hspawn : sendStep t (.spawn true) =
        some ({ t with daemon := some .spawned }.goto op ⟨.setAppearance appearance, 0⟩ (send :: outer) .ensure) := by
      rw [sendStep_eq rfl]
      simp only [Manager.step, hb, Manager.spawn, ha, if_true]
    refine ⟨before ++ .spawn true :: after, u, ?_, ?_⟩
    · rw [exec_append, hrun, Option.bind_some, exec, hspawn]
      exact hagain
    · rw [List.countP_append, List.countP_cons, hnone, hn]
      simp [Label.spawns]

theorem not_bounded {appearance : PromptAppearance} (happearance : s.appearance = some appearance) : ¬ Bounded s op := by
  intro h
  obtain ⟨labels, t, hrun, hn⟩ := @respawns (s.begin op) op _ _ appearance happearance 3 rfl
  have := h.spawns labels t hrun
  omega

end

/-! ## How a call ends -/

/-- A call in which no push of the appearance is lost: two spawns, and fourteen steps. -/
theorem pushed_pays {s t : Manager} {op : Op} {labels : List Label}
    (hrun : exec pushedStep (s.begin op) labels = some t) :
    labels.countP Label.spawns ≤ 2 ∧ labels.countP Label.own ≤ 14 := by
  have hstep : ∀ u label v, Under u → pushedStep u label = some v → Under v ∧ Paid u label v := by
    intro u label v hu hv
    obtain ⟨⟨hduring, hpushed⟩, hv⟩ := guarded_eq_some.1 hv
    exact ⟨under_step hu hduring hv, paid_step hu.unclosing hduring hpushed hv⟩
  have hspawns := exec_pays (fun u label v hu hv => ⟨(hstep u label v hu hv).1, (hstep u label v hu hv).2.spawns⟩)
    (under_begin s op) hrun
  have hsteps := exec_pays (fun u label v hu hv => ⟨(hstep u label v hu hv).1, (hstep u label v hu hv).2.steps⟩)
    (under_begin s op) hrun
  have hbegin : spawnsLeft (s.begin op) = 2 ∧ stepsLeft (s.begin op) = 14 := ⟨rfl, rfl⟩
  omega

/-- Without an appearance there is nothing to push. -/
theorem pushed_of_unprimed {s t : Manager} {labels : List Label} (h : Under s) (hunprimed : Unprimed s)
    (hrun : exec sendStep s labels = some t) : exec pushedStep s labels = some t := by
  induction labels generalizing s with
  | nil => exact hrun
  | cons label labels ih =>
    obtain ⟨u, hu, hrun⟩ := Option.bind_eq_some_iff.1 hrun
    obtain ⟨hduring, hstep⟩ := guarded_eq_some.1 hu
    have hpushed : pushedStep s label = some u := guarded_eq_some.2 ⟨⟨hduring, hunprimed.pushed label⟩, hstep⟩
    rw [exec, hpushed]
    exact ih (under_step h hduring hstep) (unprimed_step hunprimed hduring h.unclosing hstep) hrun

theorem begin_returns {s t : Manager} {op : Op} {labels : List Label} (hrun : exec sendStep (s.begin op) labels = some t)
    (hsending : Sending t) :
    ∃ n label t', label.own = true ∧ exec sendStep t (List.replicate n .pump ++ [label]) = some t' := by
  have hstep : ∀ u label v, Under u → sendStep u label = some v → Under v := by
    intro u label v hu hv
    obtain ⟨hduring, hv⟩ := guarded_eq_some.1 hv
    exact under_step hu hduring hv
  exact goes_on (exec_inv hstep (under_begin s op) hrun) hsending

/-- A call is bounded, whatever the daemons do, exactly where no appearance is remembered; where one is,
the runs are that lose no daemon to its push. -/
theorem send_bounded_iff (s : Manager) (op : Op) :
    (Bounded s op ↔ s.appearance = none) ∧
      ∀ labels t, exec pushedStep (s.begin op) labels = some t →
        labels.countP Label.spawns ≤ 2 ∧ labels.countP Label.own ≤ 14 := by
  refine ⟨⟨fun h => ?_, fun hnone => ?_⟩, fun labels t hrun => pushed_pays hrun⟩
  · cases happearance : s.appearance with
    | none => rfl
    | some appearance => exact absurd h (not_bounded happearance)
  · have hunprimed : Unprimed (s.begin op) := unprimed_goto hnone
    have hpushed : ∀ labels t, exec sendStep (s.begin op) labels = some t →
        labels.countP Label.spawns ≤ 2 ∧ labels.countP Label.own ≤ 14 := fun labels t hrun =>
      pushed_pays (pushed_of_unprimed (under_begin s op) hunprimed hrun)
    exact ⟨fun labels t hrun => (hpushed labels t hrun).1, ⟨14, fun labels t hrun => (hpushed labels t hrun).2⟩,
      fun labels t => begin_returns⟩

/-! ## A daemon that dies at once -/

def greeting : Notification := ⟨"app", "id", "Hello", "", .normal, none, [], some 10⟩

def greetingMap : Vardict := fun key => if key = "title" then some (.str "Hello") else none

def dark : PromptAppearance := ⟨.dark, none, false, false⟩

/-- The first notification after an appearance was pushed: its call is not bounded. -/
theorem greeting_respawns : ∃ s : Manager,
    exec Manager.step init [.pushAppearance dark, .addNotification "app" "id" greetingMap, .track] =
      some (s.begin (.deliver greeting)) ∧ ¬ Bounded s (.deliver greeting) := by
  have hparsed : parseNotification "app" "id" greetingMap = .ok greeting := by decide +kernel
  have htracked : LiveNotifications.track [] greeting.key = ([greeting.key], none) := by decide +kernel
  refine ⟨⟨[greeting.key], some dark, none, some (.checked greeting)⟩, ?_, not_bounded rfl⟩
  simp [exec, Manager.step, init, Manager.pushAppearance, Manager.addNotification, hparsed, LiveNotifications.total,
    maxTotalIds, Manager.track, htracked, Manager.begin]

end AtriumPortal.Portal.Notifications
