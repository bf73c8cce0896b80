import AtriumPortal.Cast.Thread
/-!
# What an error reply answers

Slot releases and lease renewals are written without waiting for their replies, and
an error reply does not say what it answers. Whichever operation of the cast thread
comes upon it next returns it as its own error, and that ends the cast.
-/
open AtriumPortal.Ipc AtriumPortal.Ipc.Leftover AtriumPortal.Lib.Runs

namespace AtriumPortal.Cast

namespace Thread

/-! ## The operations that a step calls -/

/-- The operation returned an error reply as its error. -/
def reports {α : Type} (out : Client.Outcome α) : Bool :=
  match out.1 with
  | .error e => reported e
  | .ok _ => false

/-- The stop or the start of a restart did. -/
def restartReports (c : Client) (t : Transport) (dmabuf : Bool) : Bool :=
  match c.stopOutputStream t.streamId with
  | (.error e, _) => reported e
  | (.ok (), c) => reports (c.startOutputStream (some streamMaxFps) t.target dmabuf (some t.cursor))

/-- `start_output_stream`, `stop_output_stream` or `next_stream_message` did, in this step. -/
def stepReports (t : Thread) : Label → Bool
  | .start target cursor => reports (t.client.startOutputStream (some streamMaxFps) target true (some cursor))
  | .ipc =>
    match t.phase with
    | .looping s =>
      match t.client.nextStreamMessage with
      | (.error e, _) => reported e
      | (.ok message, c) => restartsOn s message && restartReports c s.transport s.transport.dmabuf
    | _ => false
  | .formatParam fixated =>
    match t.phase with
    | .looping s =>
      StreamData.needsSwitch s.transport fixated.modifier &&
        restartReports t.client s.transport (StreamData.wantDmabuf s.transport fixated.modifier)
    | _ => false
  | _ => false

/-- `run_cast` returned an error or its main loop is to quit. -/
def isOver (t : Thread) : Bool :=
  match t.phase with
  | .connected => false
  | .looping s => s.quit
  | .failed => true

/-! ## The error replies that a step reaches -/

/-- A restart comes upon an error reply before its replies. -/
def restartReaches (wire : List Item) : Bool :=
  reached (isReply stopReply) wire || reached (isReply startReply) (afterReply stopReply wire)

/-- A wakeup comes upon an error reply before something surfaces, or its restart does. -/
def ipcReaches (s : StreamData) (c : Client) : Bool :=
  match c.pending with
  | message :: _ => c.writable && restartsOn s message && restartReaches c.wire
  | [] =>
    reached surfaces c.wire ||
      match (c.wire.find? surfaces).bind geometryOf with
      | some message => c.writable && restartsOn s message && restartReaches (behindEvent c.wire)
      | none => false

def reaches (t : Thread) (l : Label) : Bool :=
  match l, t.phase with
  | .start _ _, _ => t.client.writable && reached (isReply startReply) t.client.wire
  | .ipc, .looping s => ipcReaches s t.client
  | .formatParam fixated, .looping s =>
    t.client.writable && StreamData.needsSwitch s.transport fixated.modifier && restartReaches t.client.wire
  | _, _ => false

theorem reports_iff {α : Type} {out : Client.Outcome α} : reports out = true ↔ ∃ text, error? out.1 = some (.other text) := by
  obtain ⟨r, c⟩ := out
  cases r with
  | ok a => simp [reports, error?]
  | error e => cases e <;> simp [reports, error?, reported]

theorem start_reaches {c : Client} {target : StreamTarget} {dmabuf : Bool} {maxFps : Option Nat}
    {cursor : Option StreamCursorMode} (h : reports (c.startOutputStream maxFps target dmabuf cursor) = true) :
    c.writable = true ∧ reached (isReply startReply) c.wire = true := by
  rcases Bool.eq_false_or_eq_true c.writable with hwr | hwr
  · obtain ⟨text, htext⟩ := reports_iff.1 h
    exact ⟨hwr, (startOutputStream_leaves c maxFps target dmabuf cursor).reports text htext⟩
  · obtain ⟨e, he, hstart⟩ := startOutputStream_unwritable hwr maxFps target dmabuf cursor
    rw [hstart] at h
    exact absurd (he.symm.trans h) (by simp)

theorem restart_reaches {c : Client} {t : Transport} {dmabuf : Bool} (h : restartReports c t dmabuf = true) :
    c.writable = true ∧ restartReaches c.wire = true := by
  have hstop := stopOutputStream_leaves c t.streamId
  rcases Bool.eq_false_or_eq_true c.writable with hwr | hwr
  · refine ⟨hwr, ?_⟩
    unfold restartReaches
    unfold restartReports at h
    rcases hs : c.stopOutputStream t.streamId with ⟨e | _, c₁⟩ <;> rw [hs] at h hstop
    · cases e with
      | other text => rw [hstop.reports text rfl, Bool.true_or]
      | _ => cases h
    · rw [← hstop.all rfl, (start_reaches h).2, Bool.or_true]
  · rw [restartReports, stopOutputStream_unwritable hwr] at h
    cases h

theorem ipc_reaches {t : Thread} {s : StreamData} (hs : t.phase = .looping s) (h : t.stepReports .ipc = true) :
    ipcReaches s t.client = true := by
  unfold stepReports at h
  rw [hs] at h
  unfold ipcReaches
  cases hpend : t.client.pending with
  | nil =>
    rcases hn : t.client.nextStreamMessage with ⟨e | message, c₁⟩ <;> simp only [hn] at h
    · obtain ⟨hloop, -⟩ := nextStreamMessage_nil hpend hn
      cases e with
      | other text => simp [nextLoop_reports _ t.client hloop]
      | _ => cases h
    · obtain ⟨hloop, hkeeps⟩ := nextStreamMessage_nil hpend hn
      obtain ⟨hon, hrestart⟩ := Bool.and_eq_true_iff.1 h
      obtain ⟨hwr, hreaches⟩ := restart_reaches hrestart
      cases message with
      | geometryChanged id w h =>
        obtain ⟨hfind, hbehind⟩ := nextLoop_geometry _ t.client hloop
        rw [hkeeps.writable] at hwr
        rw [hbehind] at hreaches
        simp [hfind, hwr, hon, hreaches]
      | frame | leaseRenewed | ended => cases hon
  | cons message rest =>
    have hn : t.client.nextStreamMessage = (.ok message, { t.client with pending := rest }) := by
      simp [Client.nextStreamMessage, hpend]
    simp only [hn] at h
    obtain ⟨hon, hrestart⟩ := Bool.and_eq_true_iff.1 h
    obtain ⟨hwr, hreaches⟩ := restart_reaches hrestart
    have hwr' : t.client.writable = true := hwr
    have hreaches' : restartReaches t.client.wire = true := hreaches
    simp [hwr', hon, hreaches']

/-- An operation returns an error reply only when its step comes upon one. -/
theorem stepReports_reaches {t : Thread} {l : Label} (h : t.stepReports l = true) : t.reaches l = true := by
  cases l with
  | start target cursor =>
    obtain ⟨hwr, hreached⟩ := start_reaches h
    simp [reaches, hwr, hreached]
  | ipc =>
    cases hs : t.phase with
    | looping s => simp only [reaches, hs]; exact ipc_reaches hs h
    | connected | failed => simp [stepReports, hs] at h
  | formatParam fixated =>
    cases hs : t.phase with
    | looping s =>
      unfold stepReports at h
      rw [hs] at h
      obtain ⟨hn, hrestart⟩ := Bool.and_eq_true_iff.1 h
      obtain ⟨hwr, hreached⟩ := restart_reaches hrestart
      simp [reaches, hs, hn, hwr, hreached]
    | connected | failed => simp [stepReports, hs] at h
  | arrive | leaseTimer | callback => cases h

/-! ## An operation that fails ends the cast -/

theorem restartReports_answer {c : Client} {t : Transport} {dmabuf : Bool} (h : restartReports c t dmabuf = true) :
    (restart c t dmabuf).1.started = none := by
  unfold restartReports at h
  unfold restart
  cases hs : c.stopOutputStream t.streamId with
  | mk r c₁ =>
    rw [hs] at h
    cases r with
    | error e => rfl
    | ok _ =>
      simp only at h ⊢
      cases hr : c₁.startOutputStream (some streamMaxFps) t.target dmabuf (some t.cursor) with
      | mk r c₂ =>
        rw [hr] at h
        cases r with
        | error e => rfl
        | ok started => cases h

theorem ipcMessage_unanswered {s : StreamData} {message : StreamMessage} {answer : StreamData.RestartAnswer}
    (hon : restartsOn s message = true) (ha : answer.started = none) : (s.ipcMessage (.ok message) answer).quit = true := by
  cases message with
  | geometryChanged id w h =>
    have hid : id = s.transport.streamId := by
      unfold restartsOn at hon
      exact of_decide_eq_true (Bool.and_eq_true_iff.1 hon).1
    have hnone : s.restartStreamGeometry id w h answer = none := by
      unfold StreamData.restartStreamGeometry
      simp [ha]
    simp [StreamData.ipcMessage, StreamData.ipcGeometryChanged, hid, hid ▸ hnone]
  | frame | leaseRenewed | ended => cases hon

theorem applyFixatedFormat_unanswered {s : StreamData} {fixated : FixatedFormat} {answer : StreamData.RestartAnswer}
    (hn : StreamData.needsSwitch s.transport fixated.modifier = true) (ha : answer.started = none) :
    (s.applyFixatedFormat fixated answer).quit = true := by
  have hnone : s.syncTransport fixated.modifier answer = none := by
    unfold StreamData.syncTransport
    simp [hn, ha]
  simp [StreamData.applyFixatedFormat, hnone]

/-- Whatever operation returns an error reply, the cast is over. -/
theorem stepReports_over {t t' : Thread} {l : Label} (h : t.stepReports l = true) (hstep : t.step l = some t') :
    t'.isOver = true := by
  cases l with
  | start target cursor =>
    simp only [step] at hstep
    split at hstep
    · cases hstep
      obtain ⟨text, htext⟩ := reports_iff.1 h
      unfold runStart
      rcases hr : t.client.startOutputStream (some streamMaxFps) target true (some cursor) with ⟨e | _, c₁⟩
      · rfl
      · rw [hr] at htext; cases htext
    · cases hstep
  | ipc =>
    obtain ⟨s, hs, -, hrun⟩ := inLoop_eq_some.1 hstep
    split at hrun
    · cases hrun
      simp only [stepReports, hs] at h
      change (runIpc t.client s).1.quit = true
      unfold runIpc
      rcases hn : t.client.nextStreamMessage with ⟨e | message, c₁⟩ <;> simp only [hn] at h
      · rfl
      · obtain ⟨hon, hrestart⟩ := Bool.and_eq_true_iff.1 h
        simp only [hon, if_true]
        exact ipcMessage_unanswered hon (restartReports_answer hrestart)
    · cases hrun
  | formatParam fixated =>
    obtain ⟨s, hs, -, hrun⟩ := inLoop_eq_some.1 hstep
    cases hrun
    simp only [stepReports, hs] at h
    obtain ⟨hn, hrestart⟩ := Bool.and_eq_true_iff.1 h
    change (runFormat t.client s fixated).1.quit = true
    unfold runFormat
    rw [if_pos hn]
    exact applyFixatedFormat_unanswered hn (restartReports_answer hrestart)
  | arrive | leaseTimer | callback => cases h

/-! ## Only a suffix stays unread -/

theorem restart_suffix (c : Client) (t : Transport) (dmabuf : Bool) : (restart c t dmabuf).2.wire <:+ c.wire := by
  have hstop := (stopOutputStream_leaves c t.streamId).suffix
  unfold restart
  rcases hs : c.stopOutputStream t.streamId with ⟨_ | _, c₁⟩ <;> rw [hs] at hstop
  · exact hstop
  · have hstart := (startOutputStream_leaves c₁ (some streamMaxFps) t.target dmabuf (some t.cursor)).suffix
    simp only
    rcases hr : c₁.startOutputStream (some streamMaxFps) t.target dmabuf (some t.cursor) with ⟨_ | _, c₂⟩ <;>
      rw [hr] at hstart <;> exact hstart.trans hstop

theorem runStart_suffix (c : Client) (target : StreamTarget) (cursor : StreamCursorMode) :
    (runStart c target cursor).client.wire <:+ c.wire := by
  have hstart := (startOutputStream_leaves c (some streamMaxFps) target true (some cursor)).suffix
  unfold runStart
  rcases hr : c.startOutputStream (some streamMaxFps) target true (some cursor) with ⟨_ | started, c₁⟩ <;> rw [hr] at hstart
  · exact hstart
  · have hlooked : (if Client.perOutput target then c₁.enumerateOutputs.2 else c₁).wire <:+ c.wire := by
      split
      · exact (enumerateOutputs_drops c₁).suffix.trans hstart
      · exact hstart
    simp only
    split <;> exact hlooked

theorem runIpc_suffix (c : Client) (s : StreamData) : (runIpc c s).2.wire <:+ c.wire := by
  have hnext : c.nextStreamMessage.2.wire <:+ c.wire := by
    unfold Client.nextStreamMessage
    split
    · exact List.suffix_refl _
    · exact (nextLoop_keeps _ c).suffix
  unfold runIpc
  rcases hn : c.nextStreamMessage with ⟨_ | message, c₁⟩ <;> rw [hn] at hnext
  · exact hnext
  · simp only
    split
    · exact (restart_suffix c₁ _ _).trans hnext
    · exact hnext

/-- A step reads from the front of what is unread. -/
theorem step_suffix {t t' : Thread} {l : Label} (hl : ∀ items, l ≠ .arrive items) (h : t.step l = some t') :
    t'.client.wire <:+ t.client.wire := by
  have hcalled : ∀ (s : StreamData) (result : StreamData × Client), result.2.wire <:+ t.client.wire →
      (called s result).client.wire <:+ t.client.wire := by
    intro s result hr
    rw [called, (writeReleases_writes result.2 s result.1).wire]
    exact hr
  cases l with
  | arrive items => exact absurd rfl (hl items)
  | start target cursor =>
    simp only [step] at h
    split at h
    · cases h; exact runStart_suffix t.client target cursor
    · cases h
  | ipc =>
    obtain ⟨s, -, -, hrun⟩ := inLoop_eq_some.1 h
    split at hrun
    · cases hrun; exact hcalled s _ (runIpc_suffix t.client s)
    · cases hrun
  | formatParam fixated =>
    obtain ⟨s, -, -, hrun⟩ := inLoop_eq_some.1 h
    cases hrun
    refine hcalled s _ ?_
    unfold runFormat
    split
    · exact restart_suffix _ _ _
    · exact List.suffix_refl _
  | leaseTimer =>
    obtain ⟨s, -, -, hrun⟩ := inLoop_eq_some.1 h
    cases hrun
    exact (writeMsg_writes t.client (.renewLease leaseTtlMs)).wire ▸ List.suffix_refl _
  | callback l =>
    obtain ⟨s, -, -, hrun⟩ := inLoop_eq_some.1 h
    split at hrun
    · obtain ⟨s', -, rfl⟩ := Option.map_eq_some_iff.1 hrun
      exact hcalled s _ (List.suffix_refl _)
    · cases hrun

end Thread

/-! ## The thread and the compositor that serves it -/

/-- Nobody waits for the reply to such a request. -/
def pipelined : Request → Bool
  | .streamBufferRelease _ _ => true
  | .renewLease _ => true
  | _ => false

/-- An error reply answers such a request. -/
def stale (answers : Option Request) : Bool := answers.any pipelined

/-- How many error replies are on the socket. -/
def errors (wire : List Item) : Nat := wire.countP isError

/-- The thread with what every error reply answers: of the unread ones in the order
of the socket, of the ones that an operation returned as its error, and of the ones
that ended the cast in doing so. -/
structure Served where
  thread : Thread
  answers : List (Option Request)
  failures : List (Option Request)
  endings : List (Option Request)
  deriving DecidableEq, Repr

namespace Served

inductive Label where
  /-- The compositor writes, and `answers` says what its error replies answer. -/
  | write (items : List Item) (answers : List (Option Request))
  | run (l : Thread.Label)

/-- The answer to a pipelined request comes after the request. -/
def MayWrite (s : Served) (items : List Item) (answers : List (Option Request)) : Prop :=
  answers.length = errors items ∧ ∀ a ∈ answers, stale a = true → ∃ r ∈ s.thread.client.sent, a = some r

instance (s : Served) (items : List Item) (answers : List (Option Request)) : Decidable (s.MayWrite items answers) := by
  unfold MayWrite
  infer_instance

def isArrive : Thread.Label → Bool
  | .arrive _ => true
  | _ => false

/-- What the first unread error reply answers, when the step returns it as an error. -/
def failure (s : Served) (l : Thread.Label) : List (Option Request) :=
  if s.thread.stepReports l then [s.answers.head?.join] else []

def ran (s : Served) (l : Thread.Label) (t : Thread) : Served where
  thread := t
  answers := s.answers.drop (errors s.thread.client.wire - errors t.client.wire)
  failures := s.failure l ++ s.failures
  endings := (if t.isOver && !s.thread.isOver then s.failure l else []) ++ s.endings

def step (s : Served) : Label → Option Served
  | .write items answers =>
    if s.MayWrite items answers then
      (s.thread.step (.arrive items)).map fun t => { s with thread := t, answers := s.answers ++ answers }
    else none
  | .run l => if isArrive l then none else (s.thread.step l).map (s.ran l)

def Init (s : Served) : Prop :=
  s.thread.Init ∧ s.thread.client.wire = [] ∧ s.answers = [] ∧ s.failures = [] ∧ s.endings = []

/-- A step comes upon no error reply that answers a pipelined request. -/
def Spares (s : Served) : Label → Prop
  | .run l => s.thread.reaches l = true → stale s.answers.head?.join = false
  | .write _ _ => True

instance (s : Served) (l : Label) : Decidable (s.Spares l) := by
  unfold Spares
  split <;> infer_instance

/-- No operation returned, and the cast did not end on, an error reply that answers a
pipelined request. -/
def Attributed (s : Served) : Prop := (∀ a ∈ s.failures, stale a = false) ∧ ∀ a ∈ s.endings, stale a = false

/-- The recorded answers are those of the unread error replies. -/
theorem answers_length {s : Served} (h : Reach Init step s) : s.answers.length = errors s.thread.client.wire := by
  refine h.inv (I := fun s => s.answers.length = errors s.thread.client.wire) ?_ ?_
  · rintro s ⟨-, hw, ha, -⟩
    simp [hw, ha, errors]
  · intro s l s' hi hs
    cases l with
    | write items answers =>
      simp only [step] at hs
      split at hs
      · next hmay =>
        cases hs
        simp [errors, List.countP_append, hi, hmay.1]
      · cases hs
    | run l =>
      simp only [step] at hs
      split at hs
      · cases hs
      · next hl =>
        obtain ⟨t, ht, rfl⟩ := Option.map_eq_some_iff.1 hs
        have hsuffix := Thread.step_suffix (fun items he => hl (by rw [he]; rfl)) ht
        have hle : errors t.client.wire ≤ errors s.thread.client.wire := hsuffix.sublist.countP_le
        simp only [ran, List.length_drop, hi]
        omega

theorem failure_spared {s : Served} {l : Thread.Label} (hg : s.Spares (.run l)) : ∀ a ∈ s.failure l, stale a = false := by
  intro a ha
  unfold failure at ha
  split at ha
  · next hr =>
    rw [List.mem_singleton.1 ha]
    exact hg (Thread.stepReports_reaches hr)
  · cases ha

theorem step_attributed {s s' : Served} {l : Label} (hi : s.Attributed) (hg : s.Spares l) (h : s.step l = some s') :
    s'.Attributed := by
  cases l with
  | write items answers =>
    simp only [step] at h
    split at h
    · cases h; exact hi
    · cases h
  | run l =>
    simp only [step] at h
    split at h
    · cases h
    · obtain ⟨t, -, rfl⟩ := Option.map_eq_some_iff.1 h
      have hspared := failure_spared hg
      refine ⟨fun a ha => ?_, fun a ha => ?_⟩
      · rcases List.mem_append.1 ha with ha | ha
        · exact hspared a ha
        · exact hi.1 a ha
      · rcases List.mem_append.1 ha with ha | ha
        · split at ha
          · exact hspared a ha
          · cases ha
        · exact hi.2 a ha

/-- In every run whose steps come upon no error reply that answers a pipelined request,
none makes an operation fail or ends the cast. -/
theorem pipelined_spared {s : Served} (h : Reach Init (Guarded Spares step) s) : s.Attributed := by
  refine h.inv_guarded (fun _ hi => ?_) fun _ _ _ hi hg hs => step_attributed hi hg hs
  obtain ⟨-, -, -, hf, he⟩ := hi
  simp [Attributed, hf, he]

/-! ## A refused release -/

def served : Served := ⟨Thread.connected, [], [], []⟩

theorem init_served : served.Init := ⟨⟨rfl, rfl⟩, rfl, rfl, rfl, rfl⟩

def refusal : Item := .message (.response (.error "no such stream"))

/-- A geometry change whose restart is refused: the error answers the start itself. -/
def refusedStart : List Label :=
  [.write [Thread.startedItem 3 2] [], .run (.start (.output none) .hidden), .run .leaseTimer,
   .write [.message (.event (.streamGeometryChanged 3 4 4)), .message (.response (.streamOutputStopped 3)), refusal]
     [some (.streamOutputStart (some 60) (.output none) none (some .hidden))],
   .run .ipc]

theorem pipelined_spared_refused : ∃ s, exec (Guarded Spares step) served refusedStart = some s ∧
    s.thread.isOver = true ∧ s.endings.length = 1 ∧ s.Attributed := by
  have hrun : ∃ s, exec (Guarded Spares step) served refusedStart = some s ∧ s.thread.isOver = true ∧ s.endings.length = 1 :=
    ⟨(exec (Guarded Spares step) served refusedStart).get (by decide +kernel), by decide +kernel⟩
  obtain ⟨s, he, ho, hl⟩ := hrun
  exact ⟨s, he, ho, hl, pipelined_spared ((Reach.init init_served).exec he)⟩

/-- A start reply with a table of two linear slots. -/
def tableItems : List Item :=
  [.message (.response (.streamOutputStarted 3 2 2 (.dmabuf (fourcc 'X' 'R' '2' '4') drmFormatModLinear)
    (some 2) (some 8) (some 16))), .descriptor Framing.castFile, .descriptor Framing.castFile]

def slotItem (slot : Nat) : Item :=
  .message (.event (.streamFrame
    ⟨3, slot, 2, 2, 8, .dmabuf (fourcc 'X' 'R' '2' '4') drmFormatModLinear, [], 0, 16, some slot⟩))

/-- A frame in slot 1 replaces the one in slot 0, which is released; the compositor
refuses the release, and the next wakeup reads the refusal. -/
def refusedRelease : List Label :=
  [.write tableItems [], .run (.start (.output none) .hidden), .write [slotItem 0, slotItem 1] [],
   .run .ipc, .run .ipc, .write [refusal] [some (.streamBufferRelease 3 0)], .run .ipc]

/-- `next_stream_message` fails on the refused release, and the cast ends. -/
theorem refused_release_ends_cast : ∃ s, Reach Init step s ∧ s.thread.isOver = true ∧ ¬ s.Attributed := by
  have hrun : ∃ s, exec step served refusedRelease = some s ∧ s.thread.isOver = true ∧
      s.endings = [some (.streamBufferRelease 3 0)] :=
    ⟨(exec step served refusedRelease).get (by decide +kernel), by decide +kernel⟩
  obtain ⟨s, he, ho, hend⟩ := hrun
  refine ⟨s, (Reach.init init_served).exec he, ho, fun h => ?_⟩
  have hspared := h.2 (some (.streamBufferRelease 3 0)) (by simp [hend])
  exact absurd hspared (by decide)

end Served

end AtriumPortal.Cast
