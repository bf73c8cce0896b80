import AtriumPortal.Ipc.Client
import Mathlib.Data.List.TakeWhile
/-!
# Reading loops

The compositor writes packets: a message and the descriptors that belong to it.
The client has three reading loops. Each takes whole packets it does not stop at,
keeping their events, and ends with the first packet it stops at or on an empty
socket. `ReadsUpTo.reads` proves this once for all three.
-/
open AtriumPortal.Ipc.Client

namespace AtriumPortal.Ipc.Framing

/-! ## What the compositor writes -/

structure Packet where
  message : Message
  files : List File
  deriving DecidableEq, Repr

def Packet.items (p : Packet) : List Item :=
  .message p.message :: p.files.map .descriptor

def flatten (packets : List Packet) : List Item :=
  packets.flatMap Packet.items

def SealedMemfd (file : File) (bytes : Nat) : Prop :=
  file.regular = true ∧ file.len = some bytes ∧ file.sealed = true

def HoldsPlane (file : File) (bytes : Nat) : Prop :=
  ∃ len, file.len = some len ∧ bytes ≤ len

/-- The descriptors a message brings along: one behind a frame header without a
slot, the slot table behind a start reply, none otherwise. -/
def Packet.WellFormed (p : Packet) : Prop :=
  match p.message with
  | .event (.streamFrame header) =>
    match header.slot, header.format with
    | some _, _ => p.files = []
    | none, .dmabuf _ _ =>
      ∃ file, p.files = [file] ∧ validateLen header.byteLen = true ∧ HoldsPlane file header.byteLen
    | none, _ =>
      ∃ file, p.files = [file] ∧ validateLen header.byteLen = true ∧ SealedMemfd file header.byteLen
  | .response (.streamOutputStarted _ _ _ (.dmabuf _ _) (some count) (some _) (some bytes)) =>
    p.files.length = count ∧ ∀ file ∈ p.files, validateLen bytes = true ∧ HoldsPlane file bytes
  | .response (.captureOutput _ _ pngBytes) =>
    ∃ file, p.files = [file] ∧ validateLen pngBytes = true ∧ SealedMemfd file pngBytes
  | _ => p.files = []

/-- The stream event a packet stands for. -/
def Packet.event? (p : Packet) : Option StreamMessage :=
  match p.message with
  | .event (.streamFrame header) =>
    match header.slot, header.format, p.files with
    | some _, _, _ => some (.frame (frameOf header .slot))
    | none, .dmabuf _ _, file :: _ => some (.frame (frameOf header (.dmabuf file)))
    | none, _, file :: _ => some (.frame (frameOf header (.memfd file)))
    | none, _, [] => none
  | .event (.streamEnded streamId reason) => some (.ended streamId reason)
  | .event (.streamGeometryChanged streamId width height) => some (.geometryChanged streamId width height)
  | _ => none

def Packet.isStarted (p : Packet) : Bool :=
  match p.message with
  | .response (.streamOutputStarted _ _ _ _ _ _ _) => true
  | _ => false

def Packet.isCapture (p : Packet) : Bool :=
  match p.message with
  | .response (.captureOutput _ _ _) => true
  | _ => false

/-- What the stream reader makes of a packet: its stream event, or a renewed lease. -/
def Packet.surfaced? (p : Packet) : Option StreamMessage :=
  match p.message with
  | .response (.leaseRenewed _) => some .leaseRenewed
  | _ => p.event?

/-- The error `stream_message` makes of a message. -/
def failure? : Message → Option IoError
  | .response (.error message) => some (.other message)
  | .untyped => some (.invalidData "Tessera IPC stream message has no type")
  | _ => none

/-- A reply that brings descriptors, which `stream_message` does not take. -/
def Packet.bulky (p : Packet) : Bool := (p.isStarted || p.isCapture) && !p.files.isEmpty

/-- Of the buffered messages, the ones the stream sent (a lease receipt answers
a request). -/
def streamEvent : StreamMessage → Bool
  | .leaseRenewed => false
  | _ => true

@[simp] theorem flatten_nil : flatten [] = [] := rfl

@[simp] theorem flatten_cons (p : Packet) (ps : List Packet) :
    flatten (p :: ps) = .message p.message :: (p.files.map .descriptor ++ flatten ps) := rfl

/-! ## Reading one packet -/

theorem readMsg_packet {c : Client} {p : Packet} {ps : List Packet} (ha : c.aligned = true)
    (hw : c.wire = flatten (p :: ps)) :
    c.readMsg = (.ok p.message, { c with wire := p.files.map .descriptor ++ flatten ps }) := by
  simp [readMsg, ha, hw]

theorem readMsg_nil {c : Client} (ha : c.aligned = true) (hw : c.wire = []) :
    c.readMsg = (.error .timedOut, c) := by
  simp [readMsg, ha, hw]

theorem receiveFd_descriptor {c : Client} {file : File} {rest : List Item} (ha : c.aligned = true)
    (hw : c.wire = .descriptor file :: rest) : c.receiveFd = (.ok file, { c with wire := rest }) := by
  simp [receiveFd, ha, hw]

theorem receiveMemfdFile_sealed {c : Client} {file : File} {bytes : Nat} {rest : List Item}
    (ha : c.aligned = true) (hw : c.wire = .descriptor file :: rest) (hl : validateLen bytes = true)
    (hf : SealedMemfd file bytes) : c.receiveMemfdFile bytes = (.ok file, { c with wire := rest }) := by
  obtain ⟨hreg, hlen, hseal⟩ := hf
  simp [receiveMemfdFile, receiveFd_descriptor ha hw, hl, hreg, hlen, hseal]

theorem receiveDmabufFile_plane {c : Client} {file : File} {bytes : Nat} {rest : List Item}
    (ha : c.aligned = true) (hw : c.wire = .descriptor file :: rest) (hl : validateLen bytes = true)
    (hf : HoldsPlane file bytes) : c.receiveDmabufFile bytes = (.ok file, { c with wire := rest }) := by
  obtain ⟨len, hlen, hle⟩ := hf
  simp [receiveDmabufFile, receiveFd_descriptor ha hw, hl, hlen, hle]

/-- The slot table takes exactly the descriptors behind the reply. -/
theorem receiveSlots_table (stride : Nat) {bytes : Nat} {rest : List Item} (files : List File)
    (hf : ∀ file ∈ files, validateLen bytes = true ∧ HoldsPlane file bytes) :
    ∀ c : Client, c.aligned = true → c.wire = files.map .descriptor ++ rest →
      ∃ table, c.receiveSlots stride bytes files.length = (.ok table, { c with wire := rest }) := by
  induction files with
  | nil => intro c _ hw; exact ⟨[], by simp at hw; simp [receiveSlots, ← hw]⟩
  | cons file files ih =>
    intro c ha hw
    obtain ⟨hl, hplane⟩ := hf file (by simp)
    have hcons : c.wire = .descriptor file :: (files.map .descriptor ++ rest) := hw
    have hread := receiveDmabufFile_plane ha hcons hl hplane
    obtain ⟨table, ht⟩ := ih (fun f h => hf f (by simp [h])) { c with wire := files.map .descriptor ++ rest } ha rfl
    refine ⟨⟨file, stride, bytes⟩ :: table, ?_⟩
    simp only [List.length_cons, receiveSlots, hread, ht]

/-- A start reply takes its own descriptors, also when its metadata is refused. -/
theorem startedSlots_reads {c : Client} {p : Packet} {id w h : Nat} {format : StreamPixelFormat}
    {slots stride bytes : Option Nat} {rest : List Item}
    (hm : p.message = .response (.streamOutputStarted id w h format slots stride bytes)) (hwf : p.WellFormed)
    (ha : c.aligned = true) (hw : c.wire = p.files.map .descriptor ++ rest) :
    ∃ r, c.startedSlots format slots stride bytes = (r, { c with wire := rest }) := by
  have skip : p.files = [] → ({ c with wire := rest } : Client) = c := by
    intro hnil; simp [hnil] at hw; simp [← hw]
  unfold Packet.WellFormed at hwf
  rw [hm] at hwf
  cases format with
  | bgra8 => rw [skip hwf]; cases slots <;> cases stride <;> cases bytes <;> exact ⟨_, rfl⟩
  | rgba8 => rw [skip hwf]; cases slots <;> cases stride <;> cases bytes <;> exact ⟨_, rfl⟩
  | dmabuf drm modifier =>
    rcases slots with _ | count <;> rcases stride with _ | stride <;> rcases bytes with _ | bytes
    case some.some.some =>
      obtain ⟨rfl, hf⟩ := hwf
      obtain ⟨table, ht⟩ := receiveSlots_table stride p.files hf c ha hw
      exact ⟨.ok (some table), by simp only [startedSlots, ht]⟩
    all_goals rw [skip hwf]; exact ⟨_, rfl⟩

/-- `stream_message` takes the descriptors of its packet and yields its event. -/
theorem streamMessage_reads {c : Client} {p : Packet} {rest : List Item} (hwf : p.WellFormed)
    (hb : p.bulky = false) (ha : c.aligned = true) (hw : c.wire = p.files.map .descriptor ++ rest) :
    ∃ lease, c.streamMessage p.message = ((match failure? p.message with
      | some e => .error e
      | none => .ok p.surfaced?), { c with wire := rest, lease := lease }) := by
  obtain ⟨m, files⟩ := p
  -- Everything but a frame leaves the descriptors alone, and then brings none.
  have plain : files = [] → ∀ lease, ({ c with wire := rest, lease := lease } : Client) = { c with lease := lease } := by
    intro hnil lease; simp [hnil] at hw; simp [← hw]
  unfold Packet.WellFormed at hwf
  cases m with
  | unknown t => exact ⟨c.lease, by rw [plain hwf]; rfl⟩
  | untyped => exact ⟨c.lease, by rw [plain hwf]; rfl⟩
  | response r =>
    cases r with
    | streamOutputStarted | captureOutput =>
      have hnil : files = [] := by simpa [Packet.bulky, Packet.isStarted, Packet.isCapture] using hb
      exact ⟨c.lease, by rw [plain hnil]; rfl⟩
    | leaseRenewed lease => exact ⟨lease, by rw [plain hwf]; rfl⟩
    | _ => exact ⟨c.lease, by rw [plain hwf]; rfl⟩
  | event e =>
    cases e with
    | settingsChanged revision => exact ⟨c.lease, by rw [plain hwf]; rfl⟩
    | streamEnded id reason => exact ⟨c.lease, by rw [plain hwf]; rfl⟩
    | streamGeometryChanged id w h => exact ⟨c.lease, by rw [plain hwf]; rfl⟩
    | streamFrame header =>
      refine ⟨c.lease, ?_⟩
      rcases hslot : header.slot with _ | slot
      · rcases hfmt : header.format with _ | _ | ⟨drm, modifier⟩ <;> simp only [hslot, hfmt] at hwf <;>
          obtain ⟨file, rfl, hl, hfile⟩ := hwf
        all_goals have hcons : c.wire = .descriptor file :: rest := hw
        · have hread := receiveMemfdFile_sealed ha hcons hl hfile
          simp [streamMessage, receivePayload, hslot, hfmt, hread, failure?, Packet.surfaced?, Packet.event?]
        · have hread := receiveMemfdFile_sealed ha hcons hl hfile
          simp [streamMessage, receivePayload, hslot, hfmt, hread, failure?, Packet.surfaced?, Packet.event?]
        · have hread := receiveDmabufFile_plane ha hcons hl hfile
          simp [streamMessage, receivePayload, hslot, hfmt, hread, failure?, Packet.surfaced?, Packet.event?]
      · simp only [hslot] at hwf
        rw [plain hwf]
        simp [streamMessage, receivePayload, hslot, failure?, Packet.surfaced?, Packet.event?]

theorem filterMap_cons_toList {α β : Type} (f : α → Option β) (a : α) (l : List α) :
    (a :: l).filterMap f = (f a).toList ++ l.filterMap f := by
  rw [List.filterMap_cons]
  cases f a <;> rfl

/-! ## Loops that read up to a packet -/

/-- The packets a loop skips. -/
def before (stops : Packet → Bool) (packets : List Packet) : List Packet := packets.takeWhile (fun p => !stops p)

/-- The loop times out on an empty socket, takes a packet it does not stop at
whole, keeping its event, and ends with one it stops at as `P` says. -/
structure ReadsUpTo {α : Type} (loop : Nat → Client → Outcome α) (stops : Packet → Bool)
    (P : Packet → Except IoError α → Prop) : Prop where
  dry : ∀ fuel c, c.aligned = true → c.wire = [] → loop (fuel + 1) c = (.error .timedOut, c)
  skips : ∀ fuel c p ps, c.aligned = true → c.wire = flatten (p :: ps) → p.WellFormed → stops p = false →
    p.bulky = false → ∃ lease, loop (fuel + 1) c =
      loop fuel { c with wire := flatten ps, lease := lease, pending := c.pending ++ p.surfaced?.toList }
  ends : ∀ fuel c p ps, c.aligned = true → c.wire = flatten (p :: ps) → p.WellFormed → stops p = true →
    ∃ r lease, loop (fuel + 1) c = (r, { c with wire := flatten ps, lease := lease }) ∧ P p r

namespace ReadsUpTo

variable {α : Type} {loop : Nat → Client → Outcome α} {stops : Packet → Bool} {P : Packet → Except IoError α → Prop}

theorem reads (h : ReadsUpTo loop stops P) (packets : List Packet) : ∀ (fuel : Nat) (c : Client),
    packets.length < fuel → c.aligned = true → c.wire = flatten packets → (∀ p ∈ packets, p.WellFormed) →
    (∀ p ∈ before stops packets, p.bulky = false) →
    ∃ pre lease, (∀ q ∈ pre, stops q = false) ∧
      ((packets = pre ∧ loop fuel c = (.error .timedOut,
          { c with wire := [], lease := lease, pending := c.pending ++ pre.filterMap Packet.surfaced? })) ∨
        ∃ p ps r, packets = pre ++ p :: ps ∧ stops p = true ∧ P p r ∧ loop fuel c = (r,
          { c with wire := flatten ps, lease := lease, pending := c.pending ++ pre.filterMap Packet.surfaced? })) := by
  induction packets with
  | nil =>
    intro fuel c hfuel ha hw _ _
    obtain ⟨fuel, rfl⟩ := Nat.exists_eq_succ_of_ne_zero (Nat.ne_of_gt hfuel)
    refine ⟨[], c.lease, by simp, .inl ⟨rfl, ?_⟩⟩
    have hnil : c.wire = [] := hw
    rw [h.dry fuel c ha hnil]
    simp [← hnil]
  | cons p ps ih =>
    intro fuel c hfuel ha hw hwf hb
    obtain ⟨fuel, rfl⟩ := Nat.exists_eq_succ_of_ne_zero (Nat.ne_of_gt (Nat.lt_of_le_of_lt (Nat.zero_le _) hfuel))
    cases hs : stops p with
    | true =>
      obtain ⟨r, lease, hr, hP⟩ := h.ends fuel c p ps ha hw (hwf p (by simp)) hs
      exact ⟨[], lease, by simp, .inr ⟨p, ps, r, rfl, hs, hP, by simpa using hr⟩⟩
    | false =>
      have hbs : before stops (p :: ps) = p :: before stops ps := by simp [before, hs]
      obtain ⟨lease, hskip⟩ := h.skips fuel c p ps ha hw (hwf p (by simp)) hs (hb p (by simp [hbs]))
      obtain ⟨pre, lease', hpre, hr⟩ := ih fuel
        { c with wire := flatten ps, lease := lease, pending := c.pending ++ p.surfaced?.toList }
        (by simpa using hfuel) ha rfl (fun q hq => hwf q (by simp [hq]))
        (fun q hq => hb q (by simp [hbs, hq]))
      have hev : ∀ l : List StreamMessage, l ++ p.surfaced?.toList ++ pre.filterMap Packet.surfaced? =
          l ++ (p :: pre).filterMap Packet.surfaced? := by
        intro l
        rw [filterMap_cons_toList, List.append_assoc]
      refine ⟨p :: pre, lease', ?_, ?_⟩
      · intro q hq
        rcases List.mem_cons.1 hq with rfl | hq
        · exact hs
        · exact hpre q hq
      · rw [Nat.succ_eq_add_one, hskip, ← hev]
        rcases hr with ⟨he, hr⟩ | ⟨q, qs, r, he, hq, hP, hr⟩
        · exact .inl ⟨by rw [← he], hr⟩
        · exact .inr ⟨q, qs, r, by rw [he]; rfl, hq, hP, hr⟩

end ReadsUpTo

/-! ## The three loops -/

def Packet.fails (p : Packet) : Bool := (failure? p.message).isSome

def Packet.isStopped (p : Packet) : Bool :=
  match p.message with
  | .response (.streamOutputStopped _) => true
  | _ => false

def stopsStart (p : Packet) : Bool := p.isStarted || p.fails
def stopsStop (p : Packet) : Bool := p.isStopped || p.fails
def stopsNext (p : Packet) : Bool := p.surfaced?.isSome || p.fails

/-- The result of a loop that waits for its reply: an error message is returned as it is. -/
def Fails {α : Type} (p : Packet) (r : Except IoError α) : Prop :=
  ∀ e, failure? p.message = some e → r = .error e

/-- The result of reading one stream message. -/
def Surfaces (p : Packet) (r : Except IoError StreamMessage) : Prop :=
  match failure? p.message with
  | some e => r = .error e
  | none => ∃ m, p.surfaced? = some m ∧ r = .ok m

theorem buffer_eq (c : Client) (m : Option StreamMessage) :
    c.buffer m = { c with pending := c.pending ++ m.toList } := by
  cases m <;> simp [buffer]

theorem files_nil_of_failure {p : Packet} {e : IoError} (hwf : p.WellFormed) (hf : failure? p.message = some e) :
    p.files = [] := by
  obtain ⟨m, files⟩ := p
  cases m with
  | untyped => exact hwf
  | response r =>
    cases r with
    | error message => exact hwf
    | _ => cases hf
  | _ => cases hf

/-- A message that is an error ends every loop: `stream_message` returns it. -/
theorem streamMessage_fails {c : Client} {p : Packet} {rest : List Item} {e : IoError} (hwf : p.WellFormed)
    (hf : failure? p.message = some e) (ha : c.aligned = true) (hw : c.wire = p.files.map .descriptor ++ rest) :
    ∃ lease, c.streamMessage p.message = (.error e, { c with wire := rest, lease := lease }) := by
  have hb : p.bulky = false := by simp [Packet.bulky, files_nil_of_failure hwf hf]
  obtain ⟨lease, hr⟩ := streamMessage_reads hwf hb ha hw
  exact ⟨lease, by rw [hr, hf]⟩

theorem isStarted_iff (p : Packet) : p.isStarted = true ↔
    ∃ id w h f s t b, p.message = .response (.streamOutputStarted id w h f s t b) := by
  unfold Packet.isStarted
  split
  · next h => exact ⟨fun _ => ⟨_, _, _, _, _, _, _, h⟩, fun _ => rfl⟩
  · next h =>
    refine ⟨fun hf => absurd hf (by simp), ?_⟩
    rintro ⟨id, w, ht, f, s, t, b, hm⟩
    exact absurd hm (h _ _ _ _ _ _ _)

/-- What `start_output_stream` does with a message that is not a start reply. -/
theorem startLoop_other {c c₁ : Client} {p : Packet} {fuel : Nat} (hr : c.readMsg = (.ok p.message, c₁))
    (hs : p.isStarted = false) :
    c.startLoop (fuel + 1) = match c₁.streamMessage p.message with
      | (.error e, c) => (.error e, c)
      | (.ok message, c) => (c.buffer message).startLoop fuel := by
  have hne : ∀ id w h f s t b, p.message ≠ .response (.streamOutputStarted id w h f s t b) :=
    fun id w h f s t b hm => by simp [(isStarted_iff p).2 ⟨id, w, h, f, s, t, b, hm⟩] at hs
  rw [startLoop, hr]
  split
  · simp_all
  · next h => simp only [Prod.mk.injEq, Except.ok.injEq] at h; exact absurd h.1 (hne _ _ _ _ _ _ _)
  · next h => simp only [Prod.mk.injEq, Except.ok.injEq] at h; obtain ⟨rfl, rfl⟩ := h; rfl

theorem startLoop_readsUpTo : ReadsUpTo (fun fuel c => c.startLoop fuel) stopsStart Fails where
  dry := fun fuel c ha hw => by rw [startLoop, readMsg_nil ha hw]
  skips := by
    intro fuel c p ps ha hw hwf hs hb
    simp only [stopsStart, Bool.or_eq_false_iff, Packet.fails, Option.isSome_eq_false_iff,
      Option.isNone_iff_eq_none] at hs
    obtain ⟨lease, hr⟩ := streamMessage_reads (c := { c with wire := p.files.map .descriptor ++ flatten ps }) hwf hb ha rfl
    refine ⟨lease, ?_⟩
    rw [startLoop_other (readMsg_packet ha hw) hs.1, hr, hs.2]
    simp only [buffer_eq]
  ends := by
    intro fuel c p ps ha hw hwf hs
    have hread := readMsg_packet ha hw
    cases hst : p.isStarted with
    | true =>
      obtain ⟨id, w, h, f, s, t, b, hm⟩ := (isStarted_iff p).1 hst
      obtain ⟨r, hr⟩ := startedSlots_reads (c := { c with wire := p.files.map .descriptor ++ flatten ps }) hm hwf ha rfl
      have hf : ∀ e, failure? p.message ≠ some e := by simp [failure?, hm]
      rw [startLoop, hread, hm]
      simp only [hr]
      cases r with
      | error e => exact ⟨_, c.lease, rfl, fun e' he => absurd he (hf e')⟩
      | ok table => exact ⟨_, c.lease, rfl, fun e' he => absurd he (hf e')⟩
    | false =>
      obtain ⟨e, hf⟩ := Option.isSome_iff_exists.1 (by simpa [stopsStart, hst, Packet.fails] using hs)
      obtain ⟨lease, hr⟩ := streamMessage_fails (c := { c with wire := p.files.map .descriptor ++ flatten ps }) hwf hf ha rfl
      refine ⟨.error e, lease, ?_, fun e' he => by rw [hf] at he; cases he; rfl⟩
      rw [startLoop_other hread hst, hr]

theorem stopLoop_other {c c₁ : Client} {p : Packet} {streamId fuel : Nat} (hr : c.readMsg = (.ok p.message, c₁))
    (hs : p.isStopped = false) :
    c.stopLoop streamId (fuel + 1) = match c₁.streamMessage p.message with
      | (.error e, c) => (.error e, c)
      | (.ok message, c) => (c.buffer message).stopLoop streamId fuel := by
  rw [stopLoop, hr]
  split
  · simp_all
  · next h =>
    simp only [Prod.mk.injEq, Except.ok.injEq] at h
    simp [Packet.isStopped, h.1] at hs
  · next h => simp only [Prod.mk.injEq, Except.ok.injEq] at h; obtain ⟨rfl, rfl⟩ := h; rfl

theorem stopLoop_readsUpTo (streamId : Nat) : ReadsUpTo (fun fuel c => c.stopLoop streamId fuel) stopsStop Fails where
  dry := fun fuel c ha hw => by rw [stopLoop, readMsg_nil ha hw]
  skips := by
    intro fuel c p ps ha hw hwf hs hb
    simp only [stopsStop, Bool.or_eq_false_iff, Packet.fails, Option.isSome_eq_false_iff,
      Option.isNone_iff_eq_none] at hs
    obtain ⟨lease, hr⟩ := streamMessage_reads (c := { c with wire := p.files.map .descriptor ++ flatten ps }) hwf hb ha rfl
    refine ⟨lease, ?_⟩
    rw [stopLoop_other (readMsg_packet ha hw) hs.1, hr, hs.2]
    simp only [buffer_eq]
  ends := by
    intro fuel c p ps ha hw hwf hs
    have hread := readMsg_packet ha hw
    cases hst : p.isStopped with
    | true =>
      unfold Packet.isStopped at hst
      split at hst
      · next stopped hm =>
        have hfiles : p.files = [] := by simpa [Packet.WellFormed, hm] using hwf
        have hf : ∀ e, failure? p.message ≠ some e := by simp [failure?, hm]
        rw [stopLoop, hread, hm]
        simp only [hfiles, List.map_nil, List.nil_append]
        split
        · exact ⟨_, c.lease, rfl, fun e' he => absurd he (hf e')⟩
        · exact ⟨_, c.lease, rfl, fun e' he => absurd he (hf e')⟩
      · cases hst
    | false =>
      obtain ⟨e, hf⟩ := Option.isSome_iff_exists.1 (by simpa [stopsStop, hst, Packet.fails] using hs)
      obtain ⟨lease, hr⟩ := streamMessage_fails (c := { c with wire := p.files.map .descriptor ++ flatten ps }) hwf hf ha rfl
      refine ⟨.error e, lease, ?_, fun e' he => by rw [hf] at he; cases he; rfl⟩
      rw [stopLoop_other hread hst, hr]

theorem not_bulky_of_surfaced {p : Packet} {m : StreamMessage} (h : p.surfaced? = some m) : p.bulky = false := by
  obtain ⟨message, files⟩ := p
  cases message with
  | response r =>
    cases r with
    | streamOutputStarted | captureOutput => cases h
    | _ => rfl
  | _ => rfl

theorem nextLoop_readsUpTo : ReadsUpTo (fun fuel c => c.nextLoop fuel) stopsNext Surfaces where
  dry := fun fuel c ha hw => by rw [nextLoop, readMsg_nil ha hw]
  skips := by
    intro fuel c p ps ha hw hwf hs hb
    simp only [stopsNext, Bool.or_eq_false_iff, Packet.fails, Option.isSome_eq_false_iff,
      Option.isNone_iff_eq_none] at hs
    obtain ⟨lease, hr⟩ := streamMessage_reads (c := { c with wire := p.files.map .descriptor ++ flatten ps }) hwf hb ha rfl
    refine ⟨lease, ?_⟩
    rw [nextLoop, readMsg_packet ha hw]
    simp only [hr, hs.2, hs.1, Option.toList_none, List.append_nil]
  ends := by
    intro fuel c p ps ha hw hwf hs
    have hread := readMsg_packet ha hw
    rw [nextLoop, hread]
    cases hf : failure? p.message with
    | some e =>
      obtain ⟨lease, hr⟩ := streamMessage_fails (c := { c with wire := p.files.map .descriptor ++ flatten ps }) hwf hf ha rfl
      exact ⟨.error e, lease, by simp only [hr], by simp [Surfaces, hf]⟩
    | none =>
      obtain ⟨m, hm⟩ := Option.isSome_iff_exists.1 (by simpa [stopsNext, Packet.fails, hf] using hs)
      obtain ⟨lease, hr⟩ := streamMessage_reads (c := { c with wire := p.files.map .descriptor ++ flatten ps }) hwf
        (not_bulky_of_surfaced hm) ha rfl
      exact ⟨.ok m, lease, by simp only [hr, hf, hm], by simp [Surfaces, hf, hm]⟩

/-! ## Staying in step -/

/-- `c'` is `c` after reading whole packets, with every message they surface
returned or buffered in order. -/
def InStep (c : Client) (packets : List Packet) (returned : List StreamMessage) (c' : Client) : Prop :=
  ∃ k ≤ packets.length, c'.wire = flatten (packets.drop k) ∧ c'.aligned = true ∧
    returned ++ c'.pending = c.pending ++ (packets.take k).filterMap Packet.surfaced?

theorem InStep.refl {c c' : Client} {packets : List Packet} (ha : c'.aligned = true) (hw : c'.wire = flatten packets)
    (hp : c'.pending = c.pending) : InStep c packets [] c' :=
  ⟨0, by omega, by simpa using hw, ha, by simp [hp]⟩

/-- `pre` and the packet after it were read. -/
theorem InStep.of_append {c c' : Client} {pre ps : List Packet} {p : Packet} {returned : List StreamMessage}
    (ha : c'.aligned = true) (hw : c'.wire = flatten ps)
    (hp : returned ++ c'.pending = c.pending ++ pre.filterMap Packet.surfaced? ++ p.surfaced?.toList) :
    InStep c (pre ++ p :: ps) returned c' := by
  have hsplit : pre ++ p :: ps = (pre ++ [p]) ++ ps := by simp
  have hlen : pre.length + 1 = (pre ++ [p]).length := by simp
  refine ⟨pre.length + 1, by simp, ?_, ha, ?_⟩
  · rw [hsplit, hlen, List.drop_left]
    exact hw
  · rw [hsplit, hlen, List.take_left, hp, List.append_assoc]
    cases h : p.surfaced? <;> simp [h]

theorem InStep.all {c c' : Client} {packets : List Packet} (ha : c'.aligned = true) (hw : c'.wire = [])
    (hp : c'.pending = c.pending ++ packets.filterMap Packet.surfaced?) : InStep c packets [] c' :=
  ⟨packets.length, by omega, by simpa using hw, ha, by simpa using hp⟩

theorem length_le_flatten (packets : List Packet) : packets.length ≤ (flatten packets).length := by
  induction packets with
  | nil => simp
  | cons p ps ih => simp only [flatten_cons, List.length_cons, List.length_append]; omega

/-- A loop that waits for its reply stops at packets without an event. -/
theorem ReadsUpTo.inStep {α : Type} {loop : Nat → Client → Outcome α} {stops : Packet → Bool}
    {P : Packet → Except IoError α → Prop} (h : ReadsUpTo loop stops P)
    (hstop : ∀ p, stops p = true → p.surfaced? = none) {c : Client} {packets : List Packet} (ha : c.aligned = true)
    (hw : c.wire = flatten packets) (hwf : ∀ p ∈ packets, p.WellFormed)
    (hb : ∀ p ∈ before stops packets, p.bulky = false) : InStep c packets [] (loop (c.wire.length + 1) c).2 := by
  have hfuel : packets.length < c.wire.length + 1 := by rw [hw]; exact Nat.lt_succ_of_le (length_le_flatten packets)
  obtain ⟨pre, lease, _, ⟨rfl, hr⟩ | ⟨p, ps, r, rfl, hp, _, hr⟩⟩ := h.reads packets _ c hfuel ha hw hwf hb
  · rw [hr]
    exact .all ha rfl rfl
  · rw [hr]
    exact .of_append ha rfl (by simp [hstop p hp])

theorem stopsStart_surfaced (p : Packet) (h : stopsStart p = true) : p.surfaced? = none := by
  obtain ⟨m, files⟩ := p
  cases m with
  | response r =>
    cases r with
    | leaseRenewed => cases h
    | _ => rfl
  | event e => cases h
  | _ => rfl

theorem stopsStop_surfaced (p : Packet) (h : stopsStop p = true) : p.surfaced? = none := by
  obtain ⟨m, files⟩ := p
  cases m with
  | response r =>
    cases r with
    | leaseRenewed => cases h
    | _ => rfl
  | event e => cases h
  | _ => rfl

theorem writeMsg_writable {c : Client} (h : c.writable = true) (request : Request) :
    c.writeMsg request = (.ok (), { c with sent := c.sent ++ [request] }) := by
  simp [writeMsg, h]

theorem writeMsg_not_writable {c : Client} (h : c.writable = false) (request : Request) :
    c.writeMsg request = (.error .write, c) := by
  simp [writeMsg, h]

/-- Refused or not written, a start reads nothing; else it runs its loop. -/
theorem startOutputStream_cases (c : Client) (maxFps : Option Nat) (target : StreamTarget) (dmabuf : Bool)
    (cursor : Option StreamCursorMode) :
    (∃ e, c.startOutputStream maxFps target dmabuf cursor = (.error e, c) ∧
      (c.version < 29 ∧ perOutput target = true ∨ c.writable = false)) ∨
    ∃ sent, c.startOutputStream maxFps target dmabuf cursor =
      ({ c with sent := sent } : Client).startLoop (c.wire.length + 1) := by
  unfold startOutputStream
  simp only
  split
  · next hv => exact .inl ⟨_, rfl, .inl (by simpa using hv)⟩
  · rcases Bool.eq_false_or_eq_true c.writable with hwr | hwr
    · rw [writeMsg_writable hwr]; exact .inr ⟨_, rfl⟩
    · rw [writeMsg_not_writable hwr]; exact .inl ⟨_, rfl, .inr hwr⟩

theorem startOutputStream_inStep {c : Client} {packets : List Packet} (maxFps : Option Nat) (target : StreamTarget)
    (dmabuf : Bool) (cursor : Option StreamCursorMode) (ha : c.aligned = true) (hw : c.wire = flatten packets)
    (hwf : ∀ p ∈ packets, p.WellFormed) (hb : ∀ p ∈ before stopsStart packets, p.bulky = false) :
    InStep c packets [] (c.startOutputStream maxFps target dmabuf cursor).2 := by
  rcases startOutputStream_cases c maxFps target dmabuf cursor with ⟨e, he, _⟩ | ⟨sent, he⟩ <;> rw [he]
  · exact .refl ha hw rfl
  · exact startLoop_readsUpTo.inStep stopsStart_surfaced (c := { c with sent := sent }) ha hw hwf hb

theorem stopOutputStream_inStep {c : Client} {packets : List Packet} (streamId : Nat) (ha : c.aligned = true)
    (hw : c.wire = flatten packets) (hwf : ∀ p ∈ packets, p.WellFormed)
    (hb : c.writable = true → ∀ p ∈ before stopsStop packets, p.bulky = false) :
    InStep c packets [] (c.stopOutputStream streamId).2 := by
  unfold stopOutputStream
  cases hwr : c.writable with
  | false => rw [writeMsg_not_writable hwr]; exact .refl ha hw rfl
  | true =>
    rw [writeMsg_writable hwr]
    exact (stopLoop_readsUpTo streamId).inStep stopsStop_surfaced (c := { c with sent := _ }) ha hw hwf (hb hwr)

theorem releaseStreamBuffer_inStep {c : Client} {packets : List Packet} (streamId slot : Nat)
    (ha : c.aligned = true) (hw : c.wire = flatten packets) :
    InStep c packets [] (c.releaseStreamBuffer streamId slot).2 := by
  unfold releaseStreamBuffer
  cases hwr : c.writable with
  | false => rw [writeMsg_not_writable hwr]; exact .refl ha hw rfl
  | true => rw [writeMsg_writable hwr]; exact .refl ha hw rfl

/-- What a reading of the stream returns. -/
def returned : Except IoError StreamMessage → List StreamMessage
  | .ok message => [message]
  | .error _ => []

theorem nextStreamMessage_inStep {c : Client} {packets : List Packet} (ha : c.aligned = true)
    (hw : c.wire = flatten packets) (hwf : ∀ p ∈ packets, p.WellFormed)
    (hb : c.pending = [] → ∀ p ∈ before stopsNext packets, p.bulky = false) :
    InStep c packets (returned c.nextStreamMessage.1) c.nextStreamMessage.2 := by
  unfold nextStreamMessage
  cases hpend : c.pending with
  | cons m rest => exact ⟨0, by omega, by simpa using hw, ha, by simp [returned, hpend]⟩
  | nil =>
    have hfuel : packets.length < c.wire.length + 1 := by rw [hw]; exact Nat.lt_succ_of_le (length_le_flatten packets)
    obtain ⟨pre, lease, hpre, hr⟩ := nextLoop_readsUpTo.reads packets _ c hfuel ha hw hwf (hb hpend)
    -- Nothing before the packet at which the loop stops surfaces.
    have hnone : pre.filterMap Packet.surfaced? = [] := by
      rw [List.filterMap_eq_nil_iff]
      intro q hq
      simpa using (Bool.or_eq_false_iff.1 (hpre q hq)).1
    rcases hr with ⟨rfl, hr⟩ | ⟨p, ps, r, rfl, hp, hsurf, hr⟩ <;> simp only [hr]
    · exact .all ha rfl rfl
    · refine .of_append ha rfl ?_
      unfold Surfaces at hsurf
      cases hf : failure? p.message with
      | some e =>
        have hsurf' : p.surfaced? = none := stopsStop_surfaced p (by simp [stopsStop, Packet.fails, hf])
        rw [hf] at hsurf
        subst hsurf
        simp [returned, hpend, hnone, hsurf']
      | none =>
        rw [hf] at hsurf
        obtain ⟨m, hm, rfl⟩ := hsurf
        simp [returned, hpend, hnone, hm]

end AtriumPortal.Ipc.Framing
