import AtriumPortal.Cast.Damage
import AtriumPortal.Ipc.Leftover
/-!
# The slot table of a start reply

`start_output_stream` takes the stride and the bytes of a slot from the reply, and the
only check on the way to PipeWire is the bound of a descriptor's length. What the cast
makes of the numbers holds a frame, and is the number it was, exactly when the reply's
own stride and bytes do.
-/
open AtriumPortal.Ipc AtriumPortal.Ipc.Client AtriumPortal.Ipc.Leftover

namespace AtriumPortal.Cast

/-! ## `cast/mod.rs` -/

/-- What `param_changed` gives to `buffers_pod`. -/
structure BuffersLayout where
  buffers : Nat
  stride : Int
  size : Int
  deriving DecidableEq, Repr

/-- The memory part of a `spa_data` and its chunk, as `add_buffer` fills them. -/
structure SpaData where
  maxsize : Nat
  chunkSize : Nat
  chunkStride : Int
  deriving DecidableEq, Repr

/-- The slot whose layout is advertised: the first of the table where slots are forwarded. -/
def Transport.advertised (t : Transport) (mode : DeliveryMode) : Option StreamSlot :=
  if mode = .dmabuf then t.slotFiles.head? else none

def Transport.buffersLayout (t : Transport) (mode : DeliveryMode) : BuffersLayout :=
  match t.advertised mode with
  | some slot => ⟨t.slotFiles.length, asI32 slot.stride, asI32 slot.byteLen⟩
  | none => ⟨shmPoolBuffers, asI32 (t.width * 4 % 2 ^ 32), asI32 (t.width * t.height % 2 ^ 32 * 4 % 2 ^ 32)⟩

/-- `add_buffer` for a slot. -/
def slotData (slot : StreamSlot) : SpaData :=
  ⟨slot.byteLen % 2 ^ 32, slot.byteLen % 2 ^ 32, asI32 slot.stride⟩

/-- `add_buffer` for a memfd of one frame. -/
def Transport.memData (t : Transport) : SpaData :=
  ⟨t.width * t.height * 4 % 2 ^ 32, 0, asI32 (t.width * 4 % 2 ^ 32)⟩

/-! ## What is expected of a table -/

/-- Rows of the geometry fit the stride, and the last one ends within the bytes. -/
def HoldsFrame (width height stride bytes : Nat) : Prop :=
  4 * width ≤ stride ∧ stride * (height - 1) + 4 * width ≤ bytes

instance (width height stride bytes : Nat) : Decidable (HoldsFrame width height stride bytes) :=
  inferInstanceAs (Decidable (_ ∧ _))

/-- Every slot holds a frame, and every number given to PipeWire is the number it was. -/
structure Transport.Sane (t : Transport) : Prop where
  holds : ∀ slot ∈ t.slotFiles, HoldsFrame t.width t.height slot.stride slot.byteLen
  slots : ∀ slot ∈ t.slotFiles, slotData slot = ⟨slot.byteLen, slot.byteLen, slot.stride⟩
  forwarded : ∀ mode, ∀ slot ∈ t.advertised mode, (t.buffersLayout mode).stride = slot.stride ∧
    (t.buffersLayout mode).size = slot.byteLen
  copied : ∀ mode, t.advertised mode = none → (t.buffersLayout mode).stride = (t.width * 4 : Nat) ∧
    (t.buffersLayout mode).size = (t.width * t.height * 4 : Nat)
  mem : t.memData = ⟨t.width * t.height * 4, 0, (t.width * 4 : Nat)⟩

/-- A start reply without slots, or with a stride and bytes that hold a frame. The bound
on the stride only says something of a stream of one row. -/
def Roomy : Response → Prop
  | .streamOutputStarted _ width height _ (some slots) (some stride) (some bytes) =>
    slots = 0 ∨ (HoldsFrame width height stride bytes ∧ stride ≤ i32Max)
  | _ => True

/-! ## From the reply to the transport -/

/-- An item as a start reply. -/
def asStarted : Item → Option Response
  | .message (.response (.streamOutputStarted streamId width height format slots slotStride slotBytes)) =>
    some (.streamOutputStarted streamId width height format slots slotStride slotBytes)
  | _ => none

/-- The start reply that is read: the first one on the socket. -/
def startedReply (wire : List Item) : Option Response := wire.findSome? asStarted

theorem startedReply_descriptors (files : List File) (rest : List Item) :
    startedReply (files.map .descriptor ++ rest) = startedReply rest := by
  induction files with
  | nil => rfl
  | cons file files ih => exact ih

/-- What becomes of a reply's table. -/
structure Tabled (slots stride bytes : Option Nat) (table : Option (List StreamSlot)) : Prop where
  length : (table.getD []).length = slots.getD 0
  slot : ∀ slot ∈ table.getD [], some slot.stride = stride ∧ some slot.byteLen = bytes ∧ slot.byteLen ≤ maxBlobBytes

theorem receiveSlots_tabled {stride bytes count : Nat} {c c' : Client} {table : List StreamSlot}
    (h : c.receiveSlots stride bytes count = (.ok table, c')) :
    Tabled (some count) (some stride) (some bytes) (some table) := by
  induction count generalizing c table with
  | zero =>
    cases h
    exact ⟨rfl, nofun⟩
  | succ count ih =>
    unfold receiveSlots at h
    rcases hf : c.receiveDmabufFile bytes with ⟨_ | file, c₁⟩ <;> rw [hf] at h
    · cases h
    · dsimp only at h
      rcases hr : c₁.receiveSlots stride bytes count with ⟨_ | rest, c₂⟩ <;> rw [hr] at h
      · cases h
      · cases h
        have hrest := ih hr
        have hlen : bytes ≤ maxBlobBytes := by
          by_contra hlong
          simp [receiveDmabufFile, validateLen, hlong] at hf
        refine ⟨congrArg (· + 1) hrest.length, fun slot hslot => ?_⟩
        rcases List.mem_cons.mp hslot with rfl | hslot
        · exact ⟨rfl, rfl, hlen⟩
        · exact hrest.slot slot hslot

theorem startedSlots_tabled {format : StreamPixelFormat} {slots stride bytes : Option Nat} {c c' : Client}
    {table : Option (List StreamSlot)} (h : c.startedSlots format slots stride bytes = (.ok table, c')) :
    Tabled slots stride bytes table := by
  unfold startedSlots at h
  split at h
  · next count stride bytes =>
    rcases hr : c.receiveSlots stride bytes count with ⟨_ | table', c₁⟩ <;> rw [hr] at h
    · cases h
    · cases h
      exact receiveSlots_tabled hr
  · cases h
    exact ⟨rfl, nofun⟩
  · cases h
  · cases h
    exact ⟨rfl, nofun⟩
  · cases h

/-- The reply that a start ends with, and the table behind it. -/
structure Started (wire : List Item) (started : StreamStarted) (slots stride bytes : Option Nat) : Prop where
  reply : startedReply wire = some (.streamOutputStarted started.streamId started.width started.height
    started.format slots stride bytes)
  table : Tabled slots stride bytes started.slots

/-- A message is a start reply or is passed over. -/
theorem startedReply_message (m : Message) (rest : List Item) :
    (∃ streamId width height format slots stride bytes,
      m = .response (.streamOutputStarted streamId width height format slots stride bytes)) ∨
    (startReply m = none ∧ startedReply (.message m :: rest) = startedReply rest) := by
  unfold startReply
  split
  · exact .inl ⟨_, _, _, _, _, _, _, rfl⟩
  · exact .inl ⟨_, _, _, _, _, _, _, rfl⟩
  next hother =>
    have hm : asStarted (.message m) = none := by
      unfold asStarted
      split
      next id w h f s t b heq => exact absurd (Item.message.inj heq) (hother id w h f s t b)
      · rfl
    exact .inr ⟨rfl, by simp [startedReply, hm]⟩

theorem streamMessage_startedReply {c c' : Client} {m : Message} {message : Option StreamMessage}
    (h : c.streamMessage m = (.ok message, c')) : startedReply c.wire = startedReply c'.wire := by
  rcases streamMessage_takes c m with ⟨text, -, he⟩ | ⟨count, -, htakes⟩
  · rw [h] at he
    cases he
  · rw [h] at htakes
    obtain ⟨files, -, hwire⟩ := htakes.all rfl
    rw [hwire, startedReply_descriptors]

theorem startLoop_started (fuel : Nat) (c : Client) {c' : Client} {started : StreamStarted}
    (h : c.startLoop fuel = (.ok started, c')) : ∃ slots stride bytes, Started c.wire started slots stride bytes := by
  induction fuel generalizing c with
  | zero => cases h
  | succ fuel ih =>
    rcases readMsg_cases c with ⟨e, -, hr⟩ | ⟨m, rest, hw, hr⟩ | ⟨e, file, rest, -, hw, hr⟩
    · rw [startLoop_buffers.fails fuel c e c hr] at h
      cases h
    · rcases startedReply_message m rest with ⟨streamId, width, height, format, slots, stride, bytes, rfl⟩ | ⟨hno, hpass⟩
      · rw [startLoop, hr] at h
        dsimp only at h
        split at h
        · cases h
        next table c₂ hs =>
          cases h
          exact ⟨slots, stride, bytes, by rw [hw]; rfl, startedSlots_tabled hs⟩
      · have hskip := startLoop_buffers.skips fuel c m _ hr hno
        rw [hskip] at h
        split at h
        · cases h
        next message c₂ hs =>
          obtain ⟨slots, stride, bytes, hreply, htable⟩ := ih _ h
          rw [Framing.buffer_eq, ← streamMessage_startedReply hs, ← hpass] at hreply
          exact ⟨slots, stride, bytes, hw ▸ hreply, htable⟩
    · rw [startLoop_buffers.fails fuel c e _ hr] at h
      cases h

theorem startOutputStream_started {c c' : Client} {maxFps : Option Nat} {target : StreamTarget} {dmabuf : Bool}
    {cursor : Option StreamCursorMode} {started : StreamStarted}
    (h : c.startOutputStream maxFps target dmabuf cursor = (.ok started, c')) :
    ∃ slots stride bytes, Started c.wire started slots stride bytes := by
  unfold startOutputStream at h
  dsimp only at h
  split at h
  · cases h
  · unfold writeMsg at h
    split at h
    · cases h
    next hwrite =>
      split at hwrite
      · cases hwrite
        have hloop := startLoop_started _ _ h
        exact hloop
      · cases hwrite

/-! ## From the transport to PipeWire -/

theorem asI32_eq_iff {n : Nat} : asI32 n = n ↔ n ≤ i32Max := by
  refine ⟨fun h => ?_, asI32_of_le⟩
  unfold asI32 at h
  unfold i32Max
  omega

/-- A length that a descriptor may have fits the pods. -/
theorem blob_fits {n : Nat} (h : n ≤ maxBlobBytes) : asI32 n = n ∧ n % 2 ^ 32 = n := by
  unfold maxBlobBytes at h
  exact ⟨asI32_of_le (by unfold i32Max; omega), Nat.mod_eq_of_lt (by omega)⟩

/-- The numbers of a frame fit the pods, and their products do not overflow. -/
theorem frame_fits {width height : Nat} (h : (frameLen width height).isSome = true) :
    asI32 (width * 4 % 2 ^ 32) = (width * 4 : Nat) ∧ width * height * 4 % 2 ^ 32 = width * height * 4 ∧
      asI32 (width * height % 2 ^ 32 * 4 % 2 ^ 32) = (width * height * 4 : Nat) := by
  unfold frameLen at h
  split at h
  · cases h
  next hn =>
    simp only [not_or, Nat.not_lt, maxFrameBytes] at hn
    obtain ⟨-, hheight, hbytes⟩ := hn
    have hwidth : width * 1 ≤ width * height := Nat.mul_le_mul_left width (Nat.pos_of_ne_zero hheight)
    have hrow : width * 4 % 2 ^ 32 = width * 4 := Nat.mod_eq_of_lt (by omega)
    have hpixels : width * height % 2 ^ 32 = width * height := Nat.mod_eq_of_lt (by omega)
    have hall : width * height * 4 % 2 ^ 32 = width * height * 4 := Nat.mod_eq_of_lt (by omega)
    rw [hpixels, hall, hrow]
    exact ⟨asI32_of_le (by unfold i32Max; omega), rfl, asI32_of_le (by unfold i32Max; omega)⟩

/-- The slots of a transport whose table came from these numbers. -/
theorem sane_iff {t : Transport} {slots stride bytes : Option Nat} {table : Option (List StreamSlot)}
    (htable : Tabled slots stride bytes table) (hfiles : t.slotFiles = table.getD [])
    (hframe : (frameLen t.width t.height).isSome = true) :
    t.Sane ↔ ∀ slot ∈ t.slotFiles, HoldsFrame t.width t.height slot.stride slot.byteLen ∧ slot.stride ≤ i32Max := by
  have hblob : ∀ slot ∈ t.slotFiles, slot.byteLen ≤ maxBlobBytes := fun slot hslot =>
    (htable.slot slot (hfiles ▸ hslot)).2.2
  obtain ⟨hrow, hall, hsize⟩ := frame_fits hframe
  constructor
  · intro h slot hslot
    have hstride := congrArg SpaData.chunkStride (h.slots slot hslot)
    exact ⟨h.holds slot hslot, asI32_eq_iff.mp hstride⟩
  · intro h
    refine ⟨fun slot hslot => (h slot hslot).1, fun slot hslot => ?_, fun mode slot hslot => ?_, fun mode hnone => ?_, ?_⟩
    · rw [slotData, asI32_of_le (h slot hslot).2, (blob_fits (hblob slot hslot)).2]
    · have hmem : slot ∈ t.slotFiles := by
        unfold Transport.advertised at hslot
        split at hslot
        · exact List.mem_of_head? hslot
        · cases hslot
      rw [Transport.buffersLayout, hslot]
      exact ⟨asI32_of_le (h slot hmem).2, (blob_fits (hblob slot hmem)).1⟩
    · rw [Transport.buffersLayout, hnone]
      exact ⟨hrow, hsize⟩
    · rw [Transport.memData, hall, hrow]

/-- A start that is accepted, from the request on the socket to the cast's transport, has
a sane transport exactly if the reply that was read is roomy. -/
theorem started_sane_iff {c c' : Client} {maxFps : Option Nat} {target : StreamTarget} {dmabuf : Bool}
    {asked : Option StreamCursorMode} {cursor : StreamCursorMode} {started : StreamStarted} {s : StreamData}
    (hread : c.startOutputStream maxFps target dmabuf asked = (.ok started, c'))
    (hstart : StreamData.start started target cursor = some s) :
    ∃ reply, startedReply c.wire = some reply ∧ (s.transport.Sane ↔ Roomy reply) := by
  obtain ⟨slots, stride, bytes, hreply, htable⟩ := startOutputStream_started hread
  obtain ⟨len, hlen, hmap⟩ := Option.bind_eq_some_iff.mp hstart
  obtain ⟨t, hnew, rfl⟩ := Option.map_eq_some_iff.mp hmap
  obtain ⟨announced, -, rfl⟩ := Option.map_eq_some_iff.mp hnew
  refine ⟨_, hreply, (sane_iff htable rfl (Option.isSome_of_eq_some hlen)).trans ?_⟩
  dsimp only
  constructor
  · intro h
    unfold Roomy
    split
    next id w hgt f count str byt heq =>
      cases heq
      rcases Nat.eq_zero_or_pos count with hzero | hpos
      · exact .inl hzero
      · obtain ⟨slot, hslot⟩ := List.exists_mem_of_length_pos (Nat.lt_of_lt_of_eq hpos htable.length.symm)
        obtain ⟨hstride, hbytes, -⟩ := htable.slot slot hslot
        cases hstride
        cases hbytes
        exact .inr (h slot hslot)
    · trivial
  · intro h slot hslot
    obtain ⟨hstride, hbytes, -⟩ := htable.slot slot hslot
    have hpos : 0 < slots.getD 0 := htable.length ▸ List.length_pos_of_mem hslot
    cases slots with
    | none => exact absurd hpos (Nat.lt_irrefl 0)
    | some count =>
      subst hstride hbytes
      exact h.resolve_left (Nat.ne_of_gt hpos)

/-! ## A table that holds no frame -/

/-- A start reply for 1920 by 1080 with two slots, each with this stride and these bytes. -/
def tableReply (stride bytes : Nat) : Response :=
  .streamOutputStarted 3 1920 1080 (.dmabuf (fourcc 'X' 'R' '2' '4') drmFormatModLinear) (some 2) (some stride) (some bytes)

def tableFile : File where
  fd := 7
  regular := false
  len := some (8 * 1024 * 1024)
  sealed := false
  mappable := true

/-- A connection on which the reply and its two slots are unread. -/
def tableClient (stride bytes : Nat) : Client where
  version := 29
  lease := none
  pending := []
  wire := [.message (.response (tableReply stride bytes)), .descriptor tableFile, .descriptor tableFile]
  aligned := true
  writable := true
  sent := []

def tableStarted (stride bytes : Nat) : StreamStarted where
  streamId := 3
  width := 1920
  height := 1080
  format := .dmabuf (fourcc 'X' 'R' '2' '4') drmFormatModLinear
  slots := some [⟨tableFile, stride, bytes⟩, ⟨tableFile, stride, bytes⟩]

/-- Slots of one pixel are accepted for a stream of 1920 by 1080. -/
theorem started_pixel_slots : ∃ c' s,
    (tableClient 4 4).startOutputStream none (.output none) true none = (.ok (tableStarted 4 4), c') ∧
    StreamData.start (tableStarted 4 4) (.output none) .hidden = some s ∧ ¬ s.transport.Sane := by
  refine ⟨_, _, rfl, rfl, fun h => ?_⟩
  have hrow := (h.holds ⟨tableFile, 4, 4⟩ List.mem_cons_self).1
  exact absurd hrow (by decide)

theorem started_sane_packed : ∃ s,
    StreamData.start (tableStarted 7680 8294400) (.output none) .hidden = some s ∧ s.transport.Sane := by
  obtain ⟨c', hread⟩ : ∃ c', (tableClient 7680 8294400).startOutputStream none (.output none) true none =
      (.ok (tableStarted 7680 8294400), c') := ⟨_, rfl⟩
  obtain ⟨s, hstart⟩ : ∃ s, StreamData.start (tableStarted 7680 8294400) (.output none) .hidden = some s := ⟨_, rfl⟩
  obtain ⟨reply, hreply, hiff⟩ := started_sane_iff hread hstart
  obtain rfl : tableReply 7680 8294400 = reply := Option.some.inj hreply
  exact ⟨s, hstart, hiff.mpr (.inr ⟨by decide, by decide⟩)⟩

end AtriumPortal.Cast
