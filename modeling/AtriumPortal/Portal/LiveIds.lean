import AtriumPortal.Portal.DaemonManager
/-!
# The live ids

What holds of the manager in every run: the live ids are valid, different and within
the caps, and a call in progress is where its state says.
-/
open AtriumPortal.Lib AtriumPortal.Lib.Checks AtriumPortal.Lib.Runs AtriumPortal.Prompter

namespace AtriumPortal.Portal.Notifications

/-- A pair of ids the portal accepts. -/
def ValidKey (key : CardKey) : Prop := validId key.1 = .ok () ∧ validId key.2 = .ok ()

/-- Ids that are unique and within the caps. -/
structure Capped (live : LiveNotifications) : Prop where
  keys : ∀ key ∈ live, ValidKey key
  unique : live.Nodup
  perApp : ∀ app, (Quota.itemsOf live app).length ≤ maxIdsPerApp
  total : live.total ≤ maxTotalIds

variable {live live' : LiveNotifications} {key : CardKey}

theorem capped_nil : Capped [] := ⟨nofun, List.nodup_nil, fun _ => Nat.zero_le _, Nat.zero_le _⟩

theorem Capped.sublist (h : Capped live) (hsub : live'.Sublist live) : Capped live' where
  keys key hkey := h.keys key (hsub.subset hkey)
  unique := hsub.nodup h.unique
  perApp app := by
    rw [Quota.length_itemsOf]
    have := h.perApp app
    rw [Quota.length_itemsOf] at this
    exact hsub.countP_le.trans this
  total := hsub.length_le.trans h.total

theorem remove_sublist : (live.remove key).Sublist live := List.erase_sublist

theorem hear_sublist {event : NotifyEvent} : (live.hear event).Sublist live := by
  unfold LiveNotifications.hear
  split
  · exact remove_sublist
  · exact List.Sublist.refl _

theorem Capped.mem_remove (h : Capped live) {other : CardKey} : other ∈ live.remove key ↔ other ≠ key ∧ other ∈ live :=
  h.unique.mem_erase_iff

theorem ValidKey.check (h : ValidKey key) : checkKey key = .ok () := validId_checkKey h.1 h.2

theorem Capped.track (h : Capped live) (hkey : ValidKey key) (hroom : live.total < maxTotalIds) :
    Capped (live.track key).1 where
  keys other ho := by
    obtain rfl | hold := Quota.mem_of_mem_track ho
    · exact hkey
    · exact h.keys other hold
  unique := Quota.track_nodup h.unique
  perApp _ := Quota.track_itemsOf_le h.perApp
  total := Quota.length_track_le.trans hroom

theorem Capped.self_mem_track (h : Capped live) : key ∈ (live.track key).1 :=
  Quota.self_mem_track h.unique (by decide) (h.perApp key.1)

theorem mem_track {other : CardKey} (h : other ∈ live)
    (hne : ∀ evicted, (live.track key).2 = some evicted → (key.1, evicted) ≠ other) : other ∈ (live.track key).1 :=
  Quota.mem_track_of_mem h fun evicted hout he => hne evicted hout he.symm

theorem Capped.track_evicted (h : Capped live) {evicted : String} (hout : (live.track key).2 = some evicted) :
    ValidKey (key.1, evicted) ∧ (key.1, evicted) ≠ key ∧ (key.1, evicted) ∉ (live.track key).1 := by
  obtain ⟨hin, hne, hnot⟩ := Quota.track_evicted h.unique (by decide) hout (h.perApp key.1)
  exact ⟨h.keys _ hin, hne, hnot⟩

/-! ## What a step does -/

/-- A step of the manager: what it needs and what it does. -/
inductive Takes (s : Manager) : Label → Manager → Prop
  | refused {appId id map} : s.busy = none → Takes s (.addNotification appId id map) s
  | checked {appId id map n} : s.busy = none → parseNotification appId id map = .ok n → s.live.total < maxTotalIds →
      Takes s (.addNotification appId id map) { s with busy := some (.checked n) }
  | unknown {appId id} : s.busy = none → Takes s (.removeNotification appId id) s
  | removed {appId id} : s.busy = none → ValidKey (appId, id) → (appId, id) ∈ s.live →
      Takes s (.removeNotification appId id)
        { s with live := s.live.remove (appId, id), busy := some (.closing (appId, id)) }
  | unchanged {appearance} : s.busy = none → Takes s (.pushAppearance appearance) s
  | remembered {appearance} : s.busy = none →
      Takes s (.pushAppearance appearance) { s with appearance := some appearance }
  | restyles {appearance} : s.busy = none →
      Takes s (.pushAppearance appearance) ({ s with appearance := some appearance }.begin (.restyle appearance))
  | evicts {n evicted} : s.busy = some (.checked n) → (s.live.track n.key).2 = some evicted →
      Takes s .track ({ s with live := (s.live.track n.key).1 }.begin (.evict n evicted))
  | tracked {n} : s.busy = some (.checked n) → (s.live.track n.key).2 = none →
      Takes s .track ({ s with live := (s.live.track n.key).1 }.begin (.deliver n))
  | missing {op send outer wait} : s.busy = some (.sending op send outer .ensure) → s.daemon = none →
      Takes s (.ensure wait) (s.goto op send outer .spawn)
  | running {op send outer stdin cards stdout} : s.busy = some (.sending op send outer .ensure) →
      s.daemon = some (.running stdin cards stdout) → Takes s (.ensure .running) (s.goto op send outer .write)
  | exited {op send outer events} : s.busy = some (.sending op send outer .ensure) →
      s.daemon = some (.exited events) →
      Takes s (.ensure .exited) ({ s with live := s.live.clear }.goto op send outer (.dropping .spawn))
  | unqueried {op send outer d} : s.busy = some (.sending op send outer .ensure) → s.daemon = some d →
      Takes s (.ensure .failed) ({ s with daemon := some d.kill }.goto op send outer (.dropping .spawn))
  | joined {op send outer next} : s.busy = some (.sending op send outer (.dropping next)) →
      s.daemon = some (.exited []) → Takes s .joined ({ s with daemon := none }.afterDrop op send outer next)
  | unspawned {op send outer} : s.busy = some (.sending op send outer .spawn) →
      Takes s (.spawn false) (s.returns op false outer)
  | primes {op send outer appearance} : s.busy = some (.sending op send outer .spawn) →
      Takes s (.spawn true)
        ({ s with daemon := some .spawned }.goto op ⟨.setAppearance appearance, 0⟩ (send :: outer) .ensure)
  | spawned {op send outer} : s.busy = some (.sending op send outer .spawn) →
      Takes s (.spawn true) ({ s with daemon := some .spawned }.goto op send outer .write)
  | absent {op send outer ok} : s.busy = some (.sending op send outer .write) → s.daemon = none →
      Takes s (.write ok) (s.returns op false outer)
  | delivered {op send outer stdin cards stdout} : s.busy = some (.sending op send outer .write) →
      s.daemon = some (.running stdin cards stdout) →
      Takes s (.write true)
        ({ s with daemon := some (.running (stdin ++ [send.frame]) cards stdout) }.returns op true outer)
  | broken {op send outer d} : s.busy = some (.sending op send outer .write) → s.daemon = some d →
      Takes s (.write false) ({ s with daemon := some d.kill }.goto op send outer
        (.dropping (if send.attempt = 0 then .retry else .fail)))
  | unshown {key : CardKey} {ok} : s.busy = some (.closing key) → s.daemon = none → Takes s (.write ok) { s with busy := none }
  | closed {key : CardKey} {stdin cards stdout} : s.busy = some (.closing key) →
      s.daemon = some (.running stdin cards stdout) →
      Takes s (.write true)
        { s with daemon := some (.running (stdin ++ [.close key]) cards stdout), busy := none }
  | lost {key : CardKey} {d} : s.busy = some (.closing key) → s.daemon = some d → Takes s (.write false) { s with busy := none }
  | forgotten {key : CardKey} {n} : s.busy = some (.forget key (some n)) →
      Takes s .forget ({ s with live := s.live.remove key }.begin (.deliver n))
  | undelivered {key : CardKey} : s.busy = some (.forget key none) →
      Takes s .forget { s with live := s.live.remove key, busy := none }
  | heard {d event rest} : s.daemon = some d → d.stdout = event :: rest →
      Takes s .pump { s with live := s.live.hear event, daemon := some (d.setStdout rest) }
  | acted {act d d'} : s.daemon = some d → d.act act = some d' → Takes s (.daemon act) { s with daemon := some d' }

variable {s t : Manager} {label : Label}

/-! ### The calls -/

theorem addNotification_takes {appId id : String} {map : Vardict} (hidle : s.busy = none) :
    Takes s (.addNotification appId id map) (s.addNotification appId id map) := by
  unfold Manager.addNotification
  split
  · exact .refused hidle
  · next n hn =>
    split
    · exact .refused hidle
    · next hroom => exact .checked hidle hn (Nat.lt_of_not_le hroom)

theorem removeNotification_takes {appId id : String} (hidle : s.busy = none) :
    Takes s (.removeNotification appId id) (s.removeNotification appId id) := by
  unfold Manager.removeNotification
  split
  · next hlive => exact .removed hidle ⟨hlive.1, hlive.2.1⟩ hlive.2.2
  · exact .unknown hidle

theorem pushAppearance_takes {appearance : PromptAppearance} (hidle : s.busy = none) :
    Takes s (.pushAppearance appearance) (s.pushAppearance appearance) := by
  unfold Manager.pushAppearance
  split
  · exact .unchanged hidle
  · split
    · exact .restyles hidle
    · exact .remembered hidle

theorem track_takes {n : Notification} (hbusy : s.busy = some (.checked n)) : Takes s .track (s.track n) := by
  unfold Manager.track
  split
  · next hout => exact .evicts hbusy hout
  · next hout => exact .tracked hbusy hout

/-! ### A send -/

theorem ensure_takes {op : Op} {send : Send} {outer : List Send} {wait : Wait}
    (hbusy : s.busy = some (.sending op send outer .ensure)) (ht : s.ensure op send outer wait = some t) :
    Takes s (.ensure wait) t := by
  unfold Manager.ensure at ht
  split at ht
  · next hnone =>
    cases ht
    exact .missing hbusy hnone
  · next hd =>
    cases ht
    exact .running hbusy hd
  · next hd =>
    cases ht
    exact .exited hbusy hd
  · next hd =>
    cases ht
    exact .unqueried hbusy hd
  · cases ht

theorem joined_takes {op : Op} {send : Send} {outer : List Send} {next : After}
    (hbusy : s.busy = some (.sending op send outer (.dropping next))) (ht : s.joined op send outer next = some t) :
    Takes s .joined t := by
  unfold Manager.joined at ht
  split at ht
  · next hd =>
    cases ht
    exact .joined hbusy hd
  · cases ht

theorem spawn_takes {op : Op} {send : Send} {outer : List Send} {ok : Bool}
    (hbusy : s.busy = some (.sending op send outer .spawn)) : Takes s (.spawn ok) (s.spawn op send outer ok) := by
  cases ok with
  | false => exact .unspawned hbusy
  | true =>
    unfold Manager.spawn
    rw [if_pos rfl]
    split
    · exact .primes hbusy
    · exact .spawned hbusy

/-- A write either adds the frame to the pipe, or fails. -/
theorem written_cases {frame : NotifyCommand} {d : Daemon} {ok : Bool} {result : Option Daemon}
    (h : Manager.written frame d ok = some result) :
    (ok = true ∧ ∃ stdin cards stdout, d = .running stdin cards stdout ∧
      result = some (.running (stdin ++ [frame]) cards stdout)) ∨ (ok = false ∧ result = none) := by
  unfold Manager.written at h
  split at h
  · next stdin cards stdout =>
    cases h
    exact .inl ⟨rfl, stdin, cards, stdout, rfl, rfl⟩
  · cases h
  · cases h
    exact .inr ⟨rfl, rfl⟩

theorem write_takes {op : Op} {send : Send} {outer : List Send} {ok : Bool}
    (hbusy : s.busy = some (.sending op send outer .write)) (ht : s.write op send outer ok = some t) :
    Takes s (.write ok) t := by
  unfold Manager.write at ht
  split at ht
  · next hnone =>
    cases ht
    exact .absent hbusy hnone
  · next d hd =>
    split at ht
    · cases ht
    · next hwritten =>
      obtain ⟨rfl, stdin, cards, stdout, rfl, hd'⟩ | ⟨-, hnone⟩ := written_cases hwritten
      · cases hd'
        cases ht
        exact .delivered hbusy hd
      · cases hnone
    · next hwritten =>
      obtain ⟨-, _, _, _, -, hsome⟩ | ⟨rfl, -⟩ := written_cases hwritten
      · cases hsome
      · cases ht
        exact .broken hbusy hd

theorem writeClose_takes {ok : Bool} (hbusy : s.busy = some (.closing key)) (ht : s.writeClose key ok = some t) :
    Takes s (.write ok) t := by
  unfold Manager.writeClose at ht
  split at ht
  · next hnone =>
    cases ht
    exact .unshown hbusy hnone
  · next d hd =>
    split at ht
    · cases ht
    · next hwritten =>
      obtain ⟨rfl, stdin, cards, stdout, rfl, hd'⟩ | ⟨-, hnone⟩ := written_cases hwritten
      · cases hd'
        cases ht
        exact .closed hbusy hd
      · cases hnone
    · next hwritten =>
      obtain ⟨-, _, _, _, -, hsome⟩ | ⟨rfl, -⟩ := written_cases hwritten
      · cases hsome
      · cases ht
        exact .lost hbusy hd

/-! ### Any step -/

theorem pump_takes (ht : s.pump = some t) : Takes s .pump t := by
  unfold Manager.pump at ht
  split at ht
  · cases ht
  · next d hd =>
    split at ht
    · cases ht
    · next hout =>
      cases ht
      exact .heard hd hout

theorem daemon_takes {act : Daemon.Act} (ht : s.daemonActs act = some t) : Takes s (.daemon act) t := by
  unfold Manager.daemonActs at ht
  split at ht
  · cases ht
  · next d hd =>
    obtain ⟨d', hact, rfl⟩ := Option.map_eq_some_iff.1 ht
    exact .acted hd hact

theorem step_takes (h : s.step label = some t) : Takes s label t := by
  unfold Manager.step at h
  split at h
  · next hbusy =>
    cases h
    exact addNotification_takes hbusy
  · next hbusy =>
    cases h
    exact removeNotification_takes hbusy
  · next hbusy =>
    cases h
    exact pushAppearance_takes hbusy
  · next hbusy =>
    cases h
    exact track_takes hbusy
  · next hbusy => exact ensure_takes hbusy h
  · next hbusy => exact joined_takes hbusy h
  · next hbusy =>
    cases h
    exact spawn_takes hbusy
  · next hbusy => exact write_takes hbusy h
  · next hbusy => exact writeClose_takes hbusy h
  · next key next hbusy =>
    cases h
    cases next with
    | some n => exact .forgotten hbusy
    | none => exact .undelivered hbusy
  · exact pump_takes h
  · exact daemon_takes h
  · cases h

/-! ## Where a call is -/

/-- What an operation was begun with. -/
def OpFits (s : Manager) (op : Op) : Prop :=
  ∀ n evicted, op = .evict n evicted → ValidKey (n.appId, evicted) ∧ (n.appId, evicted) ∉ s.live

/-- The outermost send has the operation's frame, those within it push the appearance. -/
def Framed (op : Op) (send : Send) : List Send → Prop
  | [] => send.frame = op.frame
  | outer :: rest => (∃ appearance, send.frame = .setAppearance appearance) ∧ Framed op outer rest

theorem Framed.retry {op : Op} {send : Send} {outer : List Send} (h : Framed op send outer) :
    Framed op { send with attempt := 1 } outer := by
  cases outer with
  | nil => exact h
  | cons _ _ => exact h

def BusyFits (s : Manager) : Prop :=
  match s.busy with
  | none => True
  | some (.checked n) => Parsed n ∧ s.live.total < maxTotalIds
  | some (.sending op send outer point) => OpFits s op ∧ Framed op send outer ∧ (point = .spawn → s.daemon = none)
  | some (.forget key (some _)) => key ∉ s.live
  | some (.forget _ none) => s.daemon = none
  | some (.closing key) => ValidKey key

theorem busyFits_goto {op : Op} {send : Send} {outer : List Send} {point : Point} (hop : OpFits s op)
    (hframed : Framed op send outer) (hspawn : point = .spawn → s.daemon = none) :
    BusyFits (s.goto op send outer point) := ⟨hop, hframed, hspawn⟩

theorem busyFits_returns {op : Op} {send : Send} {delivered : Bool} {outer : List Send} (hop : OpFits s op)
    (hframed : Framed op send outer) (hfailed : delivered = false → s.daemon = none) :
    BusyFits (s.returns op delivered outer) := by
  cases outer with
  | cons outer rest => exact busyFits_goto hop hframed.2 nofun
  | nil =>
    cases op with
    | evict n evicted => exact (hop n evicted rfl).2
    | deliver n =>
      cases delivered with
      | true => trivial
      | false => exact hfailed rfl
    | restyle _ => trivial

/-- The pump and the daemon leave a call where it is. -/
theorem BusyFits.beside (h : BusyFits s) (hbusy : t.busy = s.busy) (hlive : t.live.Sublist s.live)
    (hdaemon : s.daemon = none → t.daemon = none) : BusyFits t := by
  unfold BusyFits at h ⊢
  rw [hbusy]
  split
  · trivial
  · next heq =>
    rw [heq] at h
    exact ⟨h.1, hlive.length_le.trans_lt h.2⟩
  · next heq =>
    rw [heq] at h
    exact ⟨fun n evicted hop => ⟨(h.1 n evicted hop).1, fun hin => (h.1 n evicted hop).2 (hlive.subset hin)⟩,
      h.2.1, fun hp => hdaemon (h.2.2 hp)⟩
  · next heq =>
    rw [heq] at h
    exact fun hin => h (hlive.subset hin)
  · next heq =>
    rw [heq] at h
    exact hdaemon h
  · next heq =>
    rw [heq] at h
    exact h

@[simp] theorem goto_live {op : Op} {send : Send} {outer : List Send} {point : Point} :
    (s.goto op send outer point).live = s.live := rfl

@[simp] theorem goto_daemon {op : Op} {send : Send} {outer : List Send} {point : Point} :
    (s.goto op send outer point).daemon = s.daemon := rfl

@[simp] theorem returns_live {op : Op} {delivered : Bool} {outer : List Send} :
    (s.returns op delivered outer).live = s.live := by
  unfold Manager.returns
  split
  · rfl
  · cases op <;> rfl

@[simp] theorem returns_daemon {op : Op} {delivered : Bool} {outer : List Send} :
    (s.returns op delivered outer).daemon = s.daemon := by
  unfold Manager.returns
  split
  · rfl
  · cases op <;> rfl

@[simp] theorem afterDrop_live {op : Op} {send : Send} {outer : List Send} {next : After} :
    (s.afterDrop op send outer next).live = s.live := by
  cases next with
  | spawn => rfl
  | retry => rfl
  | fail => exact returns_live

/-! ## Every run -/

structure Sound (s : Manager) : Prop where
  capped : Capped s.live
  busy : BusyFits s

theorem sound_init : Sound init := ⟨capped_nil, trivial⟩

theorem sound_idle (h : Capped s.live) (hbusy : s.busy = none) : Sound s := ⟨h, by rw [BusyFits, hbusy]; trivial⟩

theorem Sound.parsed {n : Notification} (h : Sound s) (hbusy : s.busy = some (.checked n)) :
    Parsed n ∧ s.live.total < maxTotalIds := by
  have := h.busy
  rwa [BusyFits, hbusy] at this

theorem Sound.sending {op : Op} {send : Send} {outer : List Send} {point : Point} (h : Sound s)
    (hbusy : s.busy = some (.sending op send outer point)) :
    OpFits s op ∧ Framed op send outer ∧ (point = .spawn → s.daemon = none) := by
  have := h.busy
  rwa [BusyFits, hbusy] at this

theorem Sound.evicted {n : Notification} (h : Sound s) (hbusy : s.busy = some (.forget key (some n))) :
    key ∉ s.live := by
  have := h.busy
  rwa [BusyFits, hbusy] at this

theorem Sound.undelivered (h : Sound s) (hbusy : s.busy = some (.forget key none)) : s.daemon = none := by
  have := h.busy
  rwa [BusyFits, hbusy] at this

theorem sound_goto {op : Op} {send send' : Send} {outer outer' : List Send} {point point' : Point} (h : Sound s)
    (hbusy : s.busy = some (.sending op send outer point)) (hlive : t.live.Sublist s.live)
    (hframed : Framed op send outer → Framed op send' outer') (hspawn : point' = .spawn → t.daemon = none) :
    Sound (t.goto op send' outer' point') := by
  obtain ⟨hop, hold, -⟩ := h.sending hbusy
  refine ⟨h.capped.sublist hlive, busyFits_goto (fun n evicted he => ?_) (hframed hold) hspawn⟩
  exact ⟨(hop n evicted he).1, fun hin => (hop n evicted he).2 (hlive.subset hin)⟩

theorem sound_returns {op : Op} {send : Send} {outer : List Send} {point : Point} {delivered : Bool} (h : Sound s)
    (hbusy : s.busy = some (.sending op send outer point)) (hlive : t.live = s.live)
    (hfailed : delivered = false → t.daemon = none) : Sound (t.returns op delivered outer) := by
  obtain ⟨hop, hframed, -⟩ := h.sending hbusy
  refine ⟨?_, busyFits_returns (fun n evicted he => ?_) hframed hfailed⟩
  · rw [returns_live, hlive]
    exact h.capped
  · rw [hlive]
    exact hop n evicted he

theorem sound_joined {op : Op} {send : Send} {outer : List Send} {next : After} (h : Sound s)
    (hbusy : s.busy = some (.sending op send outer (.dropping next))) :
    Sound ({ s with daemon := none }.afterDrop op send outer next) := by
  cases next with
  | spawn => exact sound_goto h hbusy (List.Sublist.refl _) (fun h => h) fun _ => rfl
  | retry => exact sound_goto h hbusy (List.Sublist.refl _) Framed.retry nofun
  | fail => exact sound_returns h hbusy rfl fun _ => rfl

theorem sound_step (h : Sound s) (hstep : s.step label = some t) : Sound t := by
  cases step_takes hstep with
  | refused _ | unknown _ | unchanged _ => exact h
  | checked _ hn hroom => exact ⟨h.capped, parseNotification_parsed hn, hroom⟩
  | removed _ hkey _ => exact ⟨h.capped.sublist remove_sublist, hkey⟩
  | remembered hidle => exact sound_idle h.capped hidle
  | restyles _ => exact ⟨h.capped, busyFits_goto nofun rfl nofun⟩
  | evicts hbusy hout =>
    obtain ⟨hparsed, hroom⟩ := h.parsed hbusy
    obtain ⟨hvalid, -, hnot⟩ := h.capped.track_evicted hout
    refine ⟨h.capped.track ⟨hparsed.appId, hparsed.id⟩ hroom, busyFits_goto ?_ rfl nofun⟩
    rintro _ _ ⟨⟩
    exact ⟨hvalid, hnot⟩
  | tracked hbusy _ =>
    obtain ⟨hparsed, hroom⟩ := h.parsed hbusy
    exact ⟨h.capped.track ⟨hparsed.appId, hparsed.id⟩ hroom, busyFits_goto nofun rfl nofun⟩
  | missing hbusy hnone => exact sound_goto h hbusy (List.Sublist.refl _) (fun h => h) fun _ => hnone
  | running hbusy _ => exact sound_goto h hbusy (List.Sublist.refl _) (fun h => h) nofun
  | exited hbusy _ => exact sound_goto h hbusy (List.nil_sublist _) (fun h => h) nofun
  | unqueried hbusy _ => exact sound_goto h hbusy (List.Sublist.refl _) (fun h => h) nofun
  | joined hbusy _ => exact sound_joined h hbusy
  | unspawned hbusy => exact sound_returns h hbusy rfl fun _ => (h.sending hbusy).2.2 rfl
  | primes hbusy => exact sound_goto h hbusy (List.Sublist.refl _) (fun hframed => ⟨⟨_, rfl⟩, hframed⟩) nofun
  | spawned hbusy => exact sound_goto h hbusy (List.Sublist.refl _) (fun h => h) nofun
  | absent hbusy hnone => exact sound_returns h hbusy rfl fun _ => hnone
  | delivered hbusy _ => exact sound_returns h hbusy rfl nofun
  | broken hbusy _ => exact sound_goto h hbusy (List.Sublist.refl _) (fun h => h) nofun
  | unshown _ _ | closed _ _ | lost _ _ => exact sound_idle h.capped rfl
  | forgotten _ => exact ⟨h.capped.sublist remove_sublist, busyFits_goto nofun rfl nofun⟩
  | undelivered _ => exact sound_idle (h.capped.sublist remove_sublist) rfl
  | heard hd _ =>
    exact ⟨h.capped.sublist hear_sublist, h.busy.beside rfl hear_sublist fun hnone => by rw [hd] at hnone; cases hnone⟩
  | acted hd _ =>
    exact ⟨h.capped, h.busy.beside rfl (List.Sublist.refl _) fun hnone => by rw [hd] at hnone; cases hnone⟩

theorem sound_reach (h : Reach (· = init) Manager.step s) : Sound s :=
  h.inv (by rintro _ rfl; exact sound_init) fun _ _ _ hs hstep => sound_step hs hstep

end AtriumPortal.Portal.Notifications
