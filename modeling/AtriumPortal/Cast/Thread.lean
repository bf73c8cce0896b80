import AtriumPortal.Cast.Loop
import AtriumPortal.Ipc.Framing
import AtriumPortal.Ipc.Leftover
import AtriumPortal.Lib.Runs
/-!
# The cast thread and its client

`run_cast` with the IPC client it owns. A loop source fires on what is unread on
the socket, and starting or stopping a stream moves stream messages from there
into the client's buffer. A wakeup hands out one message, so a buffered message
is reached only as long as something is left on the socket.
-/
open AtriumPortal.Ipc AtriumPortal.Ipc.Leftover AtriumPortal.Lib.Runs

namespace AtriumPortal.Cast

/-- Where `run_cast` is: before `start_output_stream`, in the main loop, or returned with an error. -/
inductive Phase where
  | connected
  | looping (s : StreamData)
  | failed
  deriving DecidableEq, Repr

structure Thread where
  client : Client
  phase : Phase
  deriving DecidableEq, Repr

namespace Thread

inductive Label where
  /-- The compositor writes to the socket. -/
  | arrive (items : List Item)
  | start (target : StreamTarget) (cursor : StreamCursorMode)
  /-- The IPC source. -/
  | ipc
  | formatParam (fixated : FixatedFormat)
  | leaseTimer
  /-- A callback that reads nothing from the socket. -/
  | callback (l : Cast.Label)

def streamMaxFps : Nat := 60
def leaseTtlMs : Nat := 900000

/-- Stop the live stream and start it again on the same target. -/
def restart (c : Client) (t : Transport) (dmabuf : Bool) : StreamData.RestartAnswer × Client :=
  match c.stopOutputStream t.streamId with
  | (.error _, c) => (⟨false, none⟩, c)
  | (.ok (), c) =>
    match c.startOutputStream (some streamMaxFps) t.target dmabuf (some t.cursor) with
    | (.error _, c) => (⟨true, none⟩, c)
    | (.ok started, c) => (⟨true, some started⟩, c)

/-- The answer of a restart that is not made. -/
def noRestart : StreamData.RestartAnswer := ⟨false, none⟩

/-- Write the releases that a callback logged, oldest first; a failed write is ignored. -/
def writeReleases (c : Client) (before after : StreamData) : Client :=
  ((after.log.take (after.log.length - before.log.length)).reverse).foldl
    (fun c event => match event with
      | .released streamId slot _ _ => (c.releaseStreamBuffer streamId slot).2
      | _ => c) c

/-- `run_cast` up to the main loop. The lookup of the connector's position may fail. -/
def runStart (c : Client) (target : StreamTarget) (cursor : StreamCursorMode) : Thread :=
  match c.startOutputStream (some streamMaxFps) target true (some cursor) with
  | (.error _, c) => ⟨c, .failed⟩
  | (.ok started, c) =>
    let c := if Client.perOutput target then c.enumerateOutputs.2 else c
    match StreamData.start started target cursor with
    | none => ⟨c, .failed⟩
    | some s => ⟨c, .looping s⟩

/-- The message makes the IPC source restart the stream. -/
def restartsOn (s : StreamData) : StreamMessage → Bool
  | .geometryChanged streamId width height =>
    decide (streamId = s.transport.streamId) && (frameLen width height).isSome
  | _ => false

/-- The IPC source: one stream message, and the restart a geometry change asks for. -/
def runIpc (c : Client) (s : StreamData) : StreamData × Client :=
  match c.nextStreamMessage with
  | (.error _, c) => (s.ipcMessage (.error "stream read") noRestart, c)
  | (.ok message, c) =>
    if restartsOn s message then
      let answered := restart c s.transport s.transport.dmabuf
      (s.ipcMessage (.ok message) answered.1, answered.2)
    else (s.ipcMessage (.ok message) noRestart, c)

/-- `param_changed` on a format. -/
def runFormat (c : Client) (s : StreamData) (fixated : FixatedFormat) : StreamData × Client :=
  if StreamData.needsSwitch s.transport fixated.modifier then
    let answered := restart c s.transport (StreamData.wantDmabuf s.transport fixated.modifier)
    (s.applyFixatedFormat fixated answered.1, answered.2)
  else (s.applyFixatedFormat fixated noRestart, c)

/-- The socket is readable; a client that has lost its place reads and fails. -/
def readable (c : Client) : Bool := !c.wire.isEmpty || !c.aligned

/-- Whether a callback of the main loop leaves the socket's reading side alone. -/
def readsNothing : Cast.Label → Bool
  | .ipc _ _ => false
  | .formatParam _ _ => false
  | _ => true

/-- The thread after a callback of its main loop. -/
def called (s : StreamData) (result : StreamData × Client) : Thread :=
  ⟨writeReleases result.2 s result.1, .looping result.1⟩

/-- A callback runs in the main loop, until the teardown. -/
def inLoop (t : Thread) (run : StreamData → Option Thread) : Option Thread :=
  match t.phase with
  | .looping s => if s.ended then none else run s
  | _ => none

def step (t : Thread) : Label → Option Thread
  | .arrive items => some { t with client := { t.client with wire := t.client.wire ++ items } }
  | .start target cursor => if t.phase = .connected then some (runStart t.client target cursor) else none
  | .ipc => t.inLoop fun s => if readable t.client then some (called s (runIpc t.client s)) else none
  | .formatParam fixated => t.inLoop fun s => some (called s (runFormat t.client s fixated))
  | .leaseTimer => t.inLoop fun _ => some { t with client := (t.client.requestLeaseRenewal leaseTtlMs).2 }
  | .callback l =>
    t.inLoop fun s => if readsNothing l then (s.step l).map fun s' => called s (s', t.client) else none

def Init (t : Thread) : Prop := t.client.pending = [] ∧ t.phase = .connected

/-- No stream message is buffered behind an empty socket. -/
def Unstranded (t : Thread) : Prop := t.client.wire = [] → t.client.pending = []

/-! ## When something is left to read -/

/-- The start of a stream finds nothing that surfaces, or leaves something behind its
reply and behind the reply of the position lookup. -/
def StartDrains (target : StreamTarget) (pending : List StreamMessage) (wire : List Item) : Prop :=
  (pending = [] ∧ ∀ item ∈ wire, surfaces item = false) ∨
    (afterReply startReply wire).drop (if Client.perOutput target then 1 else 0) ≠ []

/-- A restart finds nothing that surfaces, or leaves something behind its two replies. -/
def RestartDrains (pending : List StreamMessage) (wire : List Item) : Prop :=
  (pending = [] ∧ ∀ item ∈ wire, surfaces item = false) ∨ afterReply startReply (afterReply stopReply wire) ≠ []

instance (target : StreamTarget) (pending : List StreamMessage) (wire : List Item) :
    Decidable (StartDrains target pending wire) := by unfold StartDrains; infer_instance

instance (pending : List StreamMessage) (wire : List Item) : Decidable (RestartDrains pending wire) := by
  unfold RestartDrains; infer_instance

/-- The next wakeup restarts nothing, or its restart leaves something to read. -/
def IpcDrains (s : StreamData) (c : Client) : Prop :=
  match c.pending with
  | message :: rest => restartsOn s message = true → RestartDrains rest c.wire
  | [] =>
    match (c.wire.find? surfaces).bind geometryOf with
    | some message => restartsOn s message = true → RestartDrains [] (behindEvent c.wire)
    | none => True

instance (s : StreamData) (c : Client) : Decidable (IpcDrains s c) := by
  unfold IpcDrains
  split
  · infer_instance
  · split <;> infer_instance

/-- Every start and restart finds nothing that surfaces or leaves something on the socket. -/
def Drains (t : Thread) (l : Label) : Prop :=
  t.client.writable = true →
    match l, t.phase with
    | .start target _, _ => StartDrains target t.client.pending t.client.wire
    | .ipc, .looping s => IpcDrains s t.client
    | .formatParam fixated, .looping s =>
      StreamData.needsSwitch s.transport fixated.modifier = true → RestartDrains t.client.pending t.client.wire
    | _, _ => True

instance (t : Thread) (l : Label) : Decidable (t.Drains l) := by
  unfold Drains
  split <;> infer_instance

/-! ## What a callback does to the client -/

theorem inLoop_eq_some {t t' : Thread} {run : StreamData → Option Thread} :
    t.inLoop run = some t' ↔ ∃ s, t.phase = .looping s ∧ s.ended = false ∧ run s = some t' := by
  unfold inLoop
  cases t.phase <;> simp

/-- Only requests were written. -/
structure Writes (c c' : Client) : Prop where
  wire : c'.wire = c.wire
  pending : c'.pending = c.pending

theorem writeMsg_writes (c : Client) (request : Request) : Writes c (c.writeMsg request).2 := by
  unfold Client.writeMsg
  split <;> exact ⟨rfl, rfl⟩

theorem writeReleases_writes (c : Client) (before after : StreamData) : Writes c (writeReleases c before after) := by
  unfold writeReleases
  generalize (after.log.take (after.log.length - before.log.length)).reverse = events
  induction events generalizing c with
  | nil => exact ⟨rfl, rfl⟩
  | cons event events ih =>
    have hrest : ∀ c' : Client, Writes c c' → Writes c (events.foldl _ c') :=
      fun c' hc => ⟨(ih c').wire.trans hc.wire, (ih c').pending.trans hc.pending⟩
    cases event with
    | released streamId slot held cause => exact hrest _ (writeMsg_writes c _)
    | delivered | copied | queued | restarted => exact hrest c ⟨rfl, rfl⟩

theorem unstranded_called {s : StreamData} {result : StreamData × Client}
    (h : result.2.wire = [] → result.2.pending = []) : Unstranded (called s result) := by
  intro hw
  have hwrites := writeReleases_writes result.2 s result.1
  exact hwrites.pending.trans (h (hwrites.wire.symm.trans hw))

/-- A restart whose replies are not the last things on the socket strands nothing. -/
theorem restart_drains {c : Client} (hc : c.wire = [] → c.pending = [])
    (hd : c.writable = true → RestartDrains c.pending c.wire) (t : Transport) (dmabuf : Bool) :
    (restart c t dmabuf).2.wire = [] → (restart c t dmabuf).2.pending = [] := by
  rcases Bool.eq_false_or_eq_true c.writable with hwr | hwr
  · have hstop := stopOutputStream_leaves c t.streamId
    unfold restart
    rcases hd hwr with hq | hne
    · -- nothing surfaces, so nothing is buffered
      rcases hs : c.stopOutputStream t.streamId with ⟨_ | _, c₁⟩ <;> rw [hs] at hstop
      · exact fun _ => (hstop.quiet ⟨hq.1, hq.2⟩).pending
      · have hstart := startOutputStream_leaves c₁ (some streamMaxFps) t.target dmabuf (some t.cursor)
        simp only
        rcases hr : c₁.startOutputStream (some streamMaxFps) t.target dmabuf (some t.cursor) with ⟨_ | _, c₂⟩ <;>
          rw [hr] at hstart <;> exact fun _ => (hstart.quiet (hstop.quiet ⟨hq.1, hq.2⟩)).pending
    · -- something is left behind both replies
      rcases hs : c.stopOutputStream t.streamId with ⟨_ | _, c₁⟩ <;> rw [hs] at hstop
      · intro hnil
        exact absurd hnil (ne_nil_of_suffix ((afterReply_suffix startReply _).trans hstop.behind) hne)
      · have hstart := startOutputStream_leaves c₁ (some streamMaxFps) t.target dmabuf (some t.cursor)
        have hbehind := hstart.behind
        rw [show c₁.wire = afterReply stopReply c.wire from hstop.all rfl] at hbehind
        simp only
        rcases hr : c₁.startOutputStream (some streamMaxFps) t.target dmabuf (some t.cursor) with ⟨_ | _, c₂⟩ <;>
          rw [hr] at hbehind <;> exact fun hnil => absurd hnil (ne_nil_of_suffix hbehind hne)
  · rw [restart, stopOutputStream_unwritable hwr]
    exact hc

theorem runStart_drains {c : Client} (hc : c.wire = [] → c.pending = []) {target : StreamTarget}
    (hd : c.writable = true → StartDrains target c.pending c.wire) (cursor : StreamCursorMode) :
    Unstranded (runStart c target cursor) := by
  unfold runStart
  rcases Bool.eq_false_or_eq_true c.writable with hwr | hwr
  · have hstart := startOutputStream_leaves c (some streamMaxFps) target true (some cursor)
    rcases hr : c.startOutputStream (some streamMaxFps) target true (some cursor) with ⟨_ | started, c₁⟩ <;>
      rw [hr] at hstart
    · rcases hd hwr with hq | hne
      · exact fun _ => (hstart.quiet ⟨hq.1, hq.2⟩).pending
      · have hrest : afterReply startReply c.wire ≠ [] := fun h => hne (by simp [h])
        exact fun hnil => absurd hnil (ne_nil_of_suffix hstart.behind hrest)
    · have hlooked : ∀ c₂ : Client, (if Client.perOutput target then c₁.enumerateOutputs.2 else c₁) = c₂ →
          c₂.wire = [] → c₂.pending = [] := by
        rintro _ rfl
        rcases hd hwr with hq | hne
        · have hq₁ := hstart.quiet ⟨hq.1, hq.2⟩
          split
          · exact fun _ => ((enumerateOutputs_drops c₁).quiet hq₁).pending
          · exact fun _ => hq₁.pending
        · rw [← hstart.all rfl] at hne
          cases hper : Client.perOutput target with
          | true =>
            rw [hper] at hne
            exact fun hnil => absurd hnil (ne_nil_of_suffix (enumerateOutputs_drops c₁).leaves hne)
          | false =>
            rw [hper] at hne
            exact fun hnil => absurd hnil hne
      simp only
      split <;> exact hlooked _ rfl
  · obtain ⟨e, -, he⟩ := startOutputStream_unwritable hwr (some streamMaxFps) target true (some cursor)
    rw [he]
    exact hc

theorem nextStreamMessage_nil {c c' : Client} {r : Except IoError StreamMessage} (hp : c.pending = [])
    (h : c.nextStreamMessage = (r, c')) : c.nextLoop (c.wire.length + 1) = (r, c') ∧ Keeps c c' := by
  have hloop : c.nextLoop (c.wire.length + 1) = (r, c') := by
    rw [← h]
    simp [Client.nextStreamMessage, hp]
  have hkeeps := nextLoop_keeps (c.wire.length + 1) c
  rw [hloop] at hkeeps
  exact ⟨hloop, hkeeps⟩

theorem runIpc_drains {c : Client} {s : StreamData} (hc : c.wire = [] → c.pending = [])
    (hd : c.writable = true → IpcDrains s c) : (runIpc c s).2.wire = [] → (runIpc c s).2.pending = [] := by
  unfold IpcDrains at hd
  unfold runIpc
  cases hpend : c.pending with
  | nil =>
    -- the wakeup reads the socket
    rcases hn : c.nextStreamMessage with ⟨_ | message, c₁⟩
    · exact fun _ => (nextStreamMessage_nil hpend hn).2.pending.trans hpend
    · obtain ⟨hloop, hkeeps⟩ := nextStreamMessage_nil hpend hn
      have hp₁ := hkeeps.pending.trans hpend
      simp only
      split
      · next hr =>
        refine restart_drains (fun _ => hp₁) (fun hwr => ?_) _ _
        cases message with
        | geometryChanged id w h =>
          obtain ⟨hfind, hbehind⟩ := nextLoop_geometry _ c hloop
          have hdrains := hd (hkeeps.writable ▸ hwr)
          rw [hpend, hfind] at hdrains
          rw [hp₁, hbehind]
          exact hdrains hr
        | frame | leaseRenewed | ended => cases hr
      · exact fun _ => hp₁
  | cons message rest =>
    -- the wakeup hands out what is buffered, and the socket stays as it is
    have hw : c.wire ≠ [] := fun hnil => by simp [hc hnil] at hpend
    have hn : c.nextStreamMessage = (.ok message, { c with pending := rest }) := by
      simp [Client.nextStreamMessage, hpend]
    rw [hn]
    simp only
    split
    · next hr =>
      refine restart_drains (c := { c with pending := rest }) (fun hnil => absurd hnil hw) (fun hwr => ?_) _ _
      have hdrains := hd hwr
      rw [hpend] at hdrains
      exact hdrains hr
    · exact fun hnil => absurd hnil hw

/-! ## Runs -/

theorem step_unstranded {t t' : Thread} {l : Label} (hi : t.Unstranded) (hd : t.Drains l) (h : t.step l = some t') :
    t'.Unstranded := by
  cases l with
  | arrive items =>
    cases h
    intro hw
    exact hi (List.append_eq_nil_iff.1 hw).1
  | start target cursor =>
    simp only [step] at h
    split at h
    · cases h
      exact runStart_drains hi hd cursor
    · cases h
  | ipc =>
    obtain ⟨s, hs, -, hrun⟩ := inLoop_eq_some.1 h
    split at hrun
    · cases hrun
      unfold Drains at hd
      rw [hs] at hd
      exact unstranded_called (runIpc_drains hi hd)
    · cases hrun
  | formatParam fixated =>
    obtain ⟨s, hs, -, hrun⟩ := inLoop_eq_some.1 h
    cases hrun
    unfold Drains at hd
    rw [hs] at hd
    refine unstranded_called ?_
    unfold runFormat
    split
    · next hn => exact restart_drains hi (fun hwr => hd hwr hn) _ _
    · exact hi
  | leaseTimer =>
    obtain ⟨s, -, -, hrun⟩ := inLoop_eq_some.1 h
    cases hrun
    intro hw
    have hwrites := writeMsg_writes t.client (.renewLease leaseTtlMs)
    exact hwrites.pending.trans (hi (hwrites.wire.symm.trans hw))
  | callback l =>
    obtain ⟨s, -, -, hrun⟩ := inLoop_eq_some.1 h
    split at hrun
    · obtain ⟨s', -, rfl⟩ := Option.map_eq_some_iff.1 hrun
      exact unstranded_called hi
    · cases hrun

/-- In every run whose starts and restarts find nothing that surfaces or leave
something on the socket, no stream message is stranded. -/
theorem none_stranded {t : Thread} (h : Reach Init (Guarded Drains step) t) : t.Unstranded :=
  h.inv_guarded (fun _ hi _ => hi.1) fun _ _ _ hi hg hs => step_unstranded hi hg hs

/-! ## The cast that the thread runs -/

theorem runIpc_message (c : Client) (s : StreamData) : ∃ message answer, (runIpc c s).1 = s.ipcMessage message answer := by
  unfold runIpc
  rcases c.nextStreamMessage with ⟨e | message, c₁⟩
  · exact ⟨.error "stream read", noRestart, rfl⟩
  · simp only
    split <;> exact ⟨_, _, rfl⟩

theorem ipcMessage_step {s : StreamData} (he : s.ended = false) (message : Except String StreamMessage)
    (answer : StreamData.RestartAnswer) : s.step (.ipc message answer) = some (s.ipcMessage message answer) ∨
      ∃ frame, ¬ s.MaySend frame ∧ s.ipcMessage message answer = s.ipcFrame frame := by
  rw [StreamData.step, he]
  rcases message with _ | (frame | _ | _ | _)
  · exact .inl rfl
  · by_cases hmay : s.MaySend frame
    · exact .inl (if_pos hmay)
    · exact .inr ⟨frame, hmay, rfl⟩
  all_goals exact .inl rfl

theorem runFormat_step {s : StreamData} (he : s.ended = false) (c : Client) (fixated : FixatedFormat) :
    ∃ answer, s.step (.formatParam fixated answer) = some (runFormat c s fixated).1 := by
  unfold runFormat
  split <;> exact ⟨_, by rw [StreamData.step, he]; rfl⟩

/-- A step of the thread leaves its cast alone or is a step of it, unless the
compositor sends a frame in a slot that the cast owns. -/
theorem step_runs_cast {t t' : Thread} {l : Label} {s : StreamData} (hs : t.phase = .looping s) (h : t.step l = some t') :
    ∃ s', t'.phase = .looping s' ∧
      (s' = s ∨ (∃ l, s.step l = some s') ∨ ∃ frame, ¬ s.MaySend frame ∧ s' = s.ipcFrame frame) := by
  cases l with
  | arrive items => cases h; exact ⟨s, hs, .inl rfl⟩
  | start target cursor => simp [step, hs] at h
  | ipc =>
    obtain ⟨s₀, hs₀, he, hrun⟩ := inLoop_eq_some.1 h
    cases hs.symm.trans hs₀
    split at hrun
    · cases hrun
      obtain ⟨message, answer, hm⟩ := runIpc_message t.client s
      refine ⟨_, rfl, .inr ?_⟩
      rw [hm]
      exact (ipcMessage_step he message answer).imp (fun hstep => ⟨_, hstep⟩) id
    · cases hrun
  | formatParam fixated =>
    obtain ⟨s₀, hs₀, he, hrun⟩ := inLoop_eq_some.1 h
    cases hs.symm.trans hs₀
    cases hrun
    obtain ⟨answer, hstep⟩ := runFormat_step he t.client fixated
    exact ⟨_, rfl, .inr (.inl ⟨_, hstep⟩)⟩
  | leaseTimer =>
    obtain ⟨s₀, hs₀, -, hrun⟩ := inLoop_eq_some.1 h
    cases hs.symm.trans hs₀
    cases hrun
    exact ⟨s, hs, .inl rfl⟩
  | callback l =>
    obtain ⟨s₀, hs₀, -, hrun⟩ := inLoop_eq_some.1 h
    cases hs.symm.trans hs₀
    split at hrun
    · obtain ⟨s', hstep, rfl⟩ := Option.map_eq_some_iff.1 hrun
      exact ⟨s', rfl, .inr (.inl ⟨l, hstep⟩)⟩
    · cases hrun

/-! ## A frame ahead of the start reply -/

def connected : Thread := ⟨{ Framing.castClient with wire := [], sent := [] }, .connected⟩

/-- A frame of stream 3 with its descriptor. -/
def frameItems (sequence : Nat) : List Item :=
  [.message (.event (.streamFrame ⟨3, sequence, 2, 2, 8, .bgra8, [], 0, 16, none⟩)), .descriptor Framing.castFile]

def startedItem (streamId size : Nat) : Item :=
  .message (.response (.streamOutputStarted streamId size size .bgra8 none none none))

/-- A frame ahead of the start reply and one behind it; then a geometry change whose
restart finds an event of the new stream behind its replies. -/
def resized : List Label :=
  [.arrive (frameItems 1 ++ [startedItem 3 2] ++ frameItems 2), .start (.output none) .hidden, .ipc, .ipc,
   .arrive [.message (.event (.streamGeometryChanged 3 4 4)), .message (.response (.streamOutputStopped 3)),
     startedItem 4 4, .message (.event (.streamEnded 4 "closed"))], .ipc, .ipc]

theorem none_stranded_resized : ∃ t, exec (Guarded Drains step) connected resized = some t ∧
    t.client.wire = [] ∧ t.client.pending = [] := by
  have hrun : ∃ t, exec (Guarded Drains step) connected resized = some t ∧ t.client.wire = [] :=
    ⟨(exec (Guarded Drains step) connected resized).get (by decide +kernel), by decide +kernel, by decide +kernel⟩
  obtain ⟨t, he, hw⟩ := hrun
  exact ⟨t, he, hw, none_stranded ((Reach.init ⟨rfl, rfl⟩).exec he) hw⟩

/-- A frame ahead of the start reply, which is the last thing on the socket: the start
buffers the frame, and no wakeup hands it out. -/
theorem first_frame_stranded : ∃ t, Reach Init step t ∧ ¬ t.Unstranded := by
  have hrun : ∃ t, exec step connected [.arrive (frameItems 1 ++ [startedItem 3 2]), .start (.output none) .hidden] =
      some t ∧ t.client.wire = [] ∧ t.client.pending ≠ [] :=
    ⟨(exec step connected [.arrive (frameItems 1 ++ [startedItem 3 2]), .start (.output none) .hidden]).get
      (by decide +kernel), by decide +kernel⟩
  obtain ⟨t, he, hw, hp⟩ := hrun
  exact ⟨t, (Reach.init ⟨rfl, rfl⟩).exec he, fun h => hp (h hw)⟩

end Thread

end AtriumPortal.Cast
