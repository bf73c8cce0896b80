import AtriumPortal.Ipc.Framing
import AtriumPortal.Lib.Runs
/-!
# Draining the stream

What was surfaced, what is buffered and what is still on the socket are together
what the compositor sent, in order, whatever the caller called in between. The
slot table behind a late start reply breaks this: only `start_output_stream` takes
its descriptors, and every other reader of the reply loses its place in the stream.
-/
open AtriumPortal.Ipc.Client AtriumPortal.Ipc.Framing AtriumPortal.Lib.Runs

namespace AtriumPortal.Ipc.Surfacing

/-! ## The packets on the socket -/

/-- The descriptors at the front of the items, and the packets behind them. -/
def unpack : List Item → List File × List Packet
  | [] => ([], [])
  | .descriptor file :: rest => (file :: (unpack rest).1, (unpack rest).2)
  | .message message :: rest => ([], ⟨message, (unpack rest).1⟩ :: (unpack rest).2)

/-- The packets that are unread. -/
def unread (c : Client) : List Packet := (unpack c.wire).2

theorem unpack_descriptors (files : List File) (rest : List Item) :
    unpack (files.map .descriptor ++ rest) = (files ++ (unpack rest).1, (unpack rest).2) := by
  induction files with
  | nil => rfl
  | cons file files ih => simp [unpack, ih]

theorem unpack_flatten (packets : List Packet) : unpack (flatten packets) = ([], packets) := by
  induction packets with
  | nil => rfl
  | cons p ps ih => simp [unpack, unpack_descriptors, ih]

theorem unread_eq {c : Client} {packets : List Packet} (hw : c.wire = flatten packets) : unread c = packets := by
  rw [unread, hw, unpack_flatten]

/-! ## A connection -/

/-- What the compositor writes: whole packets, no error reply, no capture. -/
structure Sendable (p : Packet) : Prop where
  wellFormed : p.WellFormed
  fine : p.fails = false
  noCapture : p.isCapture = false

/-- A client and what went through it: every packet the compositor wrote, and every
message `next_stream_message` returned, oldest first. -/
structure Connection where
  client : Client
  sent : List Packet
  surfaced : List StreamMessage
  deriving DecidableEq, Repr

inductive Label where
  | write (p : Packet) (h : Sendable p)
  | call (op : Op)

namespace Connection

def Init (s : Connection) : Prop :=
  s.client.aligned = true ∧ s.client.wire = [] ∧ s.client.pending = [] ∧ s.sent = [] ∧ s.surfaced = []

/-- The compositor writes a packet, or the caller starts, stops, releases or reads. -/
def step (s : Connection) : Label → Option Connection
  | .write p _ =>
    some { s with client := { s.client with wire := s.client.wire ++ p.items }, sent := s.sent ++ [p] }
  | .call op =>
    if op.readsOneReply then none
    else some { s with client := (op.run s.client).2, surfaced := s.surfaced ++ (op.run s.client).1 }

/-- What draining `next_stream_message` returns. -/
def drain : Nat → Client → List StreamMessage
  | 0, _ => []
  | fuel + 1, c =>
    match c.nextStreamMessage with
    | (.ok message, c) => message :: drain fuel c
    | (.error _, _) => []

/-- What was surfaced, with what draining surfaces, is what was sent. -/
def Drained (s : Connection) : Prop :=
  s.surfaced ++ drain (s.client.pending.length + s.client.wire.length + 1) s.client =
    s.sent.filterMap Packet.surfaced?

/-- No reply with a slot table is read by `stop_output_stream` or `next_stream_message`. -/
def TakesTables (s : Connection) : Label → Prop
  | .call (.stopOutputStream _) =>
    s.client.writable = true → ∀ p ∈ before stopsStop (unread s.client), p.bulky = false
  | .call .nextStreamMessage =>
    s.client.pending = [] → ∀ p ∈ before stopsNext (unread s.client), p.bulky = false
  | _ => True

instance (s : Connection) (l : Label) : Decidable (s.TakesTables l) := by
  unfold TakesTables
  split <;> infer_instance

/-! ## Every step -/

/-- The socket holds the last packets that were sent; the others were surfaced or
are buffered, in order. -/
structure InOrder (s : Connection) : Prop where
  aligned : s.client.aligned = true
  sendable : ∀ p ∈ s.sent, Sendable p
  read : ∃ k ≤ s.sent.length, s.client.wire = flatten (s.sent.drop k) ∧
    s.surfaced ++ s.client.pending = (s.sent.take k).filterMap Packet.surfaced?

theorem InOrder.write {s : Connection} (h : s.InOrder) {p : Packet} (hp : Sendable p) : InOrder
    { s with client := { s.client with wire := s.client.wire ++ p.items }, sent := s.sent ++ [p] } := by
  obtain ⟨k, hk, hw, hev⟩ := h.read
  refine ⟨h.aligned, ?_, k, by simp; omega, ?_, ?_⟩
  · intro q hq
    rcases List.mem_append.1 hq with hq | hq
    · exact h.sendable q hq
    · rw [List.mem_singleton.1 hq]; exact hp
  · simp [List.drop_append_of_le_length hk, flatten, hw]
  · simpa [List.take_append_of_le_length hk] using hev

/-- An operation that stays in step with what is unread stays in step with what was sent. -/
theorem InOrder.call {s : Connection} (h : s.InOrder) {c : Client} {msgs : List StreamMessage}
    (hs : ∀ packets, s.client.wire = flatten packets → (∀ p ∈ packets, Sendable p) → InStep s.client packets msgs c) :
    InOrder { s with client := c, surfaced := s.surfaced ++ msgs } := by
  obtain ⟨k, hk, hw, hev⟩ := h.read
  obtain ⟨j, hj, hw', ha, hp⟩ := hs _ hw fun p hp => h.sendable p (List.mem_of_mem_drop hp)
  refine ⟨ha, h.sendable, k + j, ?_, ?_, ?_⟩
  · simp only [List.length_drop] at hj
    change k + j ≤ s.sent.length
    omega
  · rw [hw', List.drop_drop]
  · rw [List.append_assoc, hp, ← List.append_assoc, hev, ← List.filterMap_append, List.take_add]

/-- Before the packet at which a start stops there is no start reply. -/
theorem before_start_not_bulky {packets : List Packet} (hs : ∀ p ∈ packets, Sendable p) :
    ∀ p ∈ before stopsStart packets, p.bulky = false := by
  intro p hp
  have hstops : stopsStart p = false := by simpa using List.mem_takeWhile_imp hp
  exact not_bulky (hs p ((List.takeWhile_sublist _).subset hp)).noCapture (Bool.or_eq_false_iff.1 hstops).1

theorem step_inOrder {s s' : Connection} {l : Label} (h : s.InOrder) (hg : s.TakesTables l)
    (hs : s.step l = some s') : s'.InOrder := by
  cases l with
  | write p hp => cases hs; exact h.write hp
  | call op =>
    simp only [step] at hs
    split at hs
    · cases hs
    next hop =>
    cases hs
    cases op with
    | enumerateOutputs | renewLease => exact absurd rfl hop
    | startOutputStream maxFps target dmabuf cursor =>
      exact h.call fun packets hw hp => startOutputStream_inStep maxFps target dmabuf cursor h.aligned hw
        (fun p hm => (hp p hm).wellFormed) (before_start_not_bulky hp)
    | stopOutputStream streamId =>
      refine h.call fun packets hw hp => stopOutputStream_inStep streamId h.aligned hw
        (fun p hm => (hp p hm).wellFormed) fun hwr => ?_
      rw [← unread_eq hw]
      exact hg hwr
    | releaseStreamBuffer streamId slot =>
      exact h.call fun packets hw _ => releaseStreamBuffer_inStep streamId slot h.aligned hw
    | nextStreamMessage =>
      have hrun : Op.nextStreamMessage.run s.client =
          (returned s.client.nextStreamMessage.1, s.client.nextStreamMessage.2) := by
        simp only [Op.run]
        rcases s.client.nextStreamMessage with ⟨_ | m, c⟩ <;> rfl
      rw [hrun]
      refine h.call fun packets hw hp => nextStreamMessage_inStep h.aligned hw
        (fun p hm => (hp p hm).wellFormed) fun hpend => ?_
      rw [← unread_eq hw]
      exact hg hpend

/-- Draining returns what is buffered, then what is unread. -/
theorem drain_eq (fuel : Nat) : ∀ (c : Client) (packets : List Packet), c.aligned = true → c.wire = flatten packets →
    (∀ p ∈ packets, Sendable p ∧ p.bulky = false) → c.pending.length + packets.length < fuel →
      drain fuel c = c.pending ++ packets.filterMap Packet.surfaced? := by
  induction fuel with
  | zero => intro c packets _ _ _ hf; omega
  | succ fuel ih =>
    intro c packets ha hw hp hf
    unfold drain nextStreamMessage
    cases hpend : c.pending with
    | cons m rest =>
      simp only [hpend, List.length_cons] at hf
      simp only [List.cons_append, List.cons.injEq, true_and]
      exact ih { c with pending := rest } packets ha hw hp (by simp only; omega)
    | nil =>
      have hfuel : packets.length < c.wire.length + 1 := by
        rw [hw]; exact Nat.lt_succ_of_le (length_le_flatten packets)
      obtain ⟨pre, lease, hpre, hr⟩ := nextLoop_readsUpTo.reads packets _ c hfuel ha hw
        (fun p hm => (hp p hm).1.wellFormed) fun p hm => (hp p ((List.takeWhile_sublist _).subset hm)).2
      have hnone : pre.filterMap Packet.surfaced? = [] := by
        rw [List.filterMap_eq_nil_iff]
        intro q hq
        simpa using (Bool.or_eq_false_iff.1 (hpre q hq)).1
      rcases hr with ⟨rfl, hr⟩ | ⟨p, ps, r, rfl, hstop, hsurf, hr⟩ <;> simp only [hr]
      · simp [hnone]
      · have hfine : failure? p.message = none := by
          simpa [Packet.fails] using (hp p (by simp)).1.fine
        rw [Surfaces, hfine] at hsurf
        obtain ⟨m, hm, rfl⟩ := hsurf
        have hrest := ih { c with wire := flatten ps, lease := lease, pending := [] } ps ha rfl
          (fun q hq => hp q (by simp [hq])) (by simp [hpend] at hf ⊢; omega)
        simp [hpend, hnone, hrest, hm]

/-! ## Runs -/

theorem init_inOrder {s : Connection} (h : s.Init) : s.InOrder := by
  obtain ⟨ha, hw, hp, hs, hf⟩ := h
  exact ⟨ha, by simp [hs], 0, by omega, by simp [hw, hs], by simp [hp, hf]⟩

/-- In every run in which no slot table is read by anyone but a start, draining
surfaces what was sent, in order and each frame with its own descriptor, once no
slot table is unread either. -/
theorem drained_in_order {s : Connection} (h : Reach Init (Guarded TakesTables step) s)
    (hd : ∀ p ∈ unread s.client, p.bulky = false) : s.Drained := by
  have hi : s.InOrder := h.inv_guarded (fun _ h0 => init_inOrder h0) fun _ _ _ hi hg hs => step_inOrder hi hg hs
  obtain ⟨k, _, hw, hev⟩ := hi.read
  rw [unread_eq hw] at hd
  unfold Drained
  rw [drain_eq _ s.client (s.sent.drop k) hi.aligned hw
    (fun p hp => ⟨hi.sendable p (List.mem_of_mem_drop hp), hd p hp⟩) ?_]
  · rw [← List.append_assoc, hev, ← List.filterMap_append, List.take_append_drop]
  · have hlen := length_le_flatten (s.sent.drop k)
    rw [← hw] at hlen
    omega

/-! ## A stream with a slot table -/

/-- The first frame of `castTraffic`. -/
def framePacket : Packet := ⟨.event (.streamFrame ⟨3, 1, 2, 2, 8, .bgra8, [], 0, 16, none⟩), [castFile]⟩

/-- A start reply with a table of one slot. -/
def tablePacket : Packet :=
  ⟨.response (.streamOutputStarted 4 2 2 (.dmabuf 1 0) (some 1) (some 8) (some 16)), [castFile]⟩

def slotPacket : Packet := ⟨.event (.streamFrame ⟨4, 2, 2, 2, 8, .dmabuf 1 0, [], 0, 16, some 0⟩), []⟩
def stoppedPacket : Packet := ⟨.response (.streamOutputStopped 4), []⟩
def geometryPacket : Packet := ⟨.event (.streamGeometryChanged 4 4 4), []⟩

theorem sendable_framePacket : Sendable framePacket := ⟨⟨castFile, rfl, by decide, rfl, rfl, rfl⟩, rfl, rfl⟩
theorem sendable_tablePacket : Sendable tablePacket :=
  ⟨⟨rfl, fun _ hf => ⟨by decide, 16, by rw [List.mem_singleton.1 hf]; rfl, by decide⟩⟩, rfl, rfl⟩
theorem sendable_slotPacket : Sendable slotPacket := ⟨rfl, rfl, rfl⟩
theorem sendable_stoppedPacket : Sendable stoppedPacket := ⟨rfl, rfl, rfl⟩
theorem sendable_geometryPacket : Sendable geometryPacket := ⟨rfl, rfl, rfl⟩

def fresh : Connection := ⟨{ castClient with wire := [], sent := [] }, [], []⟩

def startCall : Op := .startOutputStream (some 60) (.output none) true (some .hidden)

/-- A frame races ahead of the start reply, another ahead of the stop reply. -/
def racing : List Label :=
  [.write framePacket sendable_framePacket, .write tablePacket sendable_tablePacket, .call startCall,
   .write slotPacket sendable_slotPacket, .write stoppedPacket sendable_stoppedPacket, .call (.stopOutputStream 4),
   .call .nextStreamMessage, .write geometryPacket sendable_geometryPacket]

theorem drained_in_order_racing : ∃ s, exec (Guarded TakesTables step) fresh racing = some s ∧
    (∀ p ∈ unread s.client, p.bulky = false) ∧ s.Drained := by
  have hrun : ∃ s, exec (Guarded TakesTables step) fresh racing = some s ∧ ∀ p ∈ unread s.client, p.bulky = false :=
    ⟨(exec (Guarded TakesTables step) fresh racing).get (by decide +kernel), by decide +kernel, by decide +kernel⟩
  obtain ⟨s, he, hd⟩ := hrun
  exact ⟨s, he, hd, drained_in_order ((Reach.init ⟨rfl, rfl, rfl, rfl, rfl⟩).exec he) hd⟩

/-- The start gave up before its reply came: whoever reads the reply skips it
without its table, and the frame behind it is lost. -/
theorem late_table_loses_frame : ∃ s, Reach Init step s ∧ ¬ s.Drained := by
  have hrun : ∃ s, exec step fresh [.call startCall, .write tablePacket sendable_tablePacket,
      .write framePacket sendable_framePacket] = some s ∧ s.surfaced = [] ∧
      drain (s.client.pending.length + s.client.wire.length + 1) s.client = [] ∧
      s.sent.filterMap Packet.surfaced? ≠ [] :=
    ⟨(exec step fresh [.call startCall, .write tablePacket sendable_tablePacket,
      .write framePacket sendable_framePacket]).get (by decide +kernel), by decide +kernel⟩
  obtain ⟨s, he, hs, hd, hsent⟩ := hrun
  refine ⟨s, (Reach.init ⟨rfl, rfl, rfl, rfl, rfl⟩).exec he, fun h => hsent ?_⟩
  rw [← h, hs, hd]
  rfl

end Connection

end AtriumPortal.Ipc.Surfacing
